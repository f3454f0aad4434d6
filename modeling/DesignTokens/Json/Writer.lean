import DesignTokens.Document.Basic

/-!
# JSON text of documents

A document is written either on one line without blanks, or with one value per line, indented by
two spaces. Integers and floating-point numbers keep their own texts; the three values that are not
finite have names.

## Main definitions

- `Json.quote` — a text between double quotes
- `Json.compact` — a document on one line
- `Json.indented` — a document over several lines
-/

namespace DesignTokens.Json

/-- Which characters a written text may hold as themselves. -/
inductive Charset where
  | ascii
  | unicode
  deriving DecidableEq

def unitEscape (unit : Nat) : List Char :=
  '\\' :: 'u' :: Text.hexDigits 4 unit

/-- The escape of any character; characters beyond the first plane take two units. -/
def unitEscapes (c : Char) : List Char :=
  let n := Text.codePoint c
  if n < 0x10000 then unitEscape n
  else unitEscape (0xD800 + (n - 0x10000) / 0x400) ++ unitEscape (0xDC00 + (n - 0x10000) % 0x400)

/-- One character of a written text. -/
def quotedChar (charset : Charset) (c : Char) : List Char :=
  if c = '"' then ['\\', '"']
  else if c = '\\' then ['\\', '\\']
  else if c = '\n' then ['\\', 'n']
  else if c = '\r' then ['\\', 'r']
  else if c = '\t' then ['\\', 't']
  else if c = '\x08' then ['\\', 'b']
  else if c = '\x0c' then ['\\', 'f']
  else if c.toNat < 32 then unitEscape c.toNat
  else if charset = .ascii && c.toNat > 126 then unitEscapes c
  else [c]

def quote (charset : Charset) (s : String) : String :=
  String.ofList ('"' :: s.toList.flatMap (quotedChar charset) ++ ['"'])

/-- A floating-point number; the values that are not finite are named. -/
def number (x : Double) : String :=
  if x.isNaN then "NaN"
  else if x.isInfinite then (if x.isNegative then "-Infinity" else "Infinity")
  else x.render

/-- A value that is neither list nor mapping. -/
def scalar (charset : Charset) : Document → String
  | .null => "null"
  | .bool b => if b then "true" else "false"
  | .int n => toString n
  | .float x => number x
  | .text s => quote charset s
  | .stamp t => quote charset t.iso
  | _ => ""

mutual
def compactWith (charset : Charset) : Document → String
  | .list items => "[" ++ Text.join "," (compactItems charset items) ++ "]"
  | .mapping entries => "\x7b" ++ Text.join "," (compactEntries charset entries) ++ "\x7d"
  | d => scalar charset d

def compactItems (charset : Charset) : List Document → List String
  | [] => []
  | item :: rest => compactWith charset item :: compactItems charset rest

/-- The entries of a mapping, each on one line. -/
def compactEntries (charset : Charset) : List (String × Document) → List String
  | [] => []
  | (key, value) :: rest =>
    (quote charset key ++ ":" ++ compactWith charset value) :: compactEntries charset rest
end

def compact (d : Document) : String :=
  compactWith .unicode d

def newline (depth : Nat) : String :=
  "\n" ++ Text.replicate (2 * depth) ' '

mutual
/-- A document over several lines, whose closing bracket stands at the given depth. -/
def indentedAt (depth : Nat) : Document → String
  | .list [] => "[]"
  | .list (item :: rest) =>
    "[" ++ newline (depth + 1) ++
      Text.join ("," ++ newline (depth + 1)) (indentedItems (depth + 1) (item :: rest)) ++
      newline depth ++ "]"
  | .mapping [] => "\x7b\x7d"
  | .mapping (entry :: rest) =>
    "\x7b" ++ newline (depth + 1) ++
      Text.join ("," ++ newline (depth + 1)) (indentedEntries (depth + 1) (entry :: rest)) ++
      newline depth ++ "\x7d"
  | d => scalar .unicode d

def indentedItems (depth : Nat) : List Document → List String
  | [] => []
  | item :: rest => indentedAt depth item :: indentedItems depth rest

/-- The entries of a mapping at a depth. -/
def indentedEntries (depth : Nat) : List (String × Document) → List String
  | [] => []
  | (key, value) :: rest =>
    (quote .unicode key ++ ": " ++ indentedAt depth value) :: indentedEntries depth rest
end

def indented (d : Document) : String :=
  indentedAt 0 d

end DesignTokens.Json
