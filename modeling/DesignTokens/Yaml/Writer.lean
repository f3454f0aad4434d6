import DesignTokens.Document.Basic
import DesignTokens.Text.Pieces
import DesignTokens.Yaml.Style

/-!
# Writing YAML text

A document is written in block form: an entry or an item on a line of its own, nested ones indented
by two columns, a list as deep as its key. Long texts are broken at spaces beyond column eighty.

## Main definitions

- `Sheet` — the text so far, with what matters about its end
- `Sheet.plain`, `Sheet.single`, `Sheet.double` — a text in one of the three styles
- `write` — the text of a document
-/

namespace DesignTokens.Yaml

/-- The text so far. `blank` says that it ends in white space, `fresh` that its last line holds only
indentation and the marks of nested collections. -/
structure Sheet where
  text : String
  column : Nat
  blank : Bool
  fresh : Bool

/-- The column beyond which texts are broken. -/
def maxColumn : Nat := 80

namespace Sheet

def empty : Sheet := ⟨"", 0, true, true⟩

/-- The sheet with some more text on its last line. -/
def put (s : Sheet) (text : String) : Sheet :=
  { s with text := s.text ++ text, column := s.column + text.length }

def breakLine (s : Sheet) (c : Char) : Sheet :=
  ⟨s.text.push c, 0, true, true⟩

/-- The sheet at an indentation, on a new line unless the last one is still fresh. -/
def indentTo (s : Sheet) (indent : Nat) : Sheet :=
  let s := if !s.fresh || s.column > indent || (s.column == indent && !s.blank)
    then s.breakLine '\n' else s
  if s.column < indent then
    { s.put (Text.replicate (indent - s.column) ' ') with blank := true }
  else s

/-- The sheet with a mark that stands apart from what is before it. -/
def mark (s : Sheet) (text : String) (apart blank fresh : Bool) : Sheet :=
  let text := if s.blank || !apart then text else " " ++ text
  { s.put text with blank := blank, fresh := s.fresh && fresh }

def settle (s : Sheet) : Sheet :=
  { s with blank := false, fresh := false }

/-- Writes the words of a plain text. A single space beyond the last column becomes a line break. -/
def plainWords (indent : Nat) (split : Bool) : Nat → List Char → Sheet → Sheet
  | 0, _, s => s
  | _, [], s => s
  | fuel + 1, cs, s =>
    let spaces := cs.takeWhile isSpace
    if spaces.isEmpty then
      let word := cs.takeWhile (!isSpace ·)
      plainWords indent split fuel (cs.dropWhile (!isSpace ·)) (s.put (String.ofList word))
    else
      let s := if spaces.length = 1 && s.column > maxColumn && split then (s.indentTo indent).settle
        else s.put (String.ofList spaces)
      plainWords indent split fuel (cs.dropWhile isSpace) s

/-- Writes a text without quotes. -/
def plain (s : Sheet) (text : String) (indent : Nat) (split : Bool) : Sheet :=
  if text = "" then s
  else
    let s := (if s.blank then s else s.put " ").settle
    plainWords indent split (text.length + 1) text.toList s

/-- Writes some line breaks of a text between single quotes, where one of them would be a space. -/
def singleBreaks (indent : Nat) (breaks : List Char) (s : Sheet) : Sheet :=
  let s := if breaks.head? == some '\n' then s.breakLine '\n' else s
  (breaks.foldl breakLine s).indentTo indent

/-- Writes the characters between single quotes. -/
def singleChars (indent : Nat) (split : Bool) : Nat → Bool → List Char → Sheet → Sheet
  | 0, _, _, s => s
  | _, _, [], s => s
  | fuel + 1, first, cs, s =>
    let spaces := cs.takeWhile isSpace
    let breaks := cs.takeWhile isWrittenBreak
    if !spaces.isEmpty then
      let rest := cs.dropWhile isSpace
      let s := if spaces.length = 1 && s.column > maxColumn && split && !first && !rest.isEmpty then
          s.indentTo indent
        else s.put (String.ofList spaces)
      singleChars indent split fuel false rest s
    else if !breaks.isEmpty then
      singleChars indent split fuel false (cs.dropWhile isWrittenBreak) (singleBreaks indent breaks s)
    else
      let isWord (c : Char) := !(isSpace c || isWrittenBreak c)
      let word := cs.takeWhile isWord
      let quoted := word.flatMap fun c => if c = '\'' then ['\'', '\''] else [c]
      singleChars indent split fuel false (cs.dropWhile isWord) (s.put (String.ofList quoted))

def single (s : Sheet) (text : String) (indent : Nat) (split : Bool) : Sheet :=
  let s := s.mark "'" true false false
  let s := singleChars indent split (text.length + 1) true text.toList { s with fresh := false }
  s.mark "'" false false false

/-- The letter that stands for a character after a backslash. -/
def escapeLetter? : Char → Option Char
  | '\x00' => some '0'
  | '\x07' => some 'a'
  | '\x08' => some 'b'
  | '\t' => some 't'
  | '\n' => some 'n'
  | '\x0b' => some 'v'
  | '\x0c' => some 'f'
  | '\r' => some 'r'
  | '\x1b' => some 'e'
  | '"' => some '"'
  | '\\' => some '\\'
  | '\x85' => some 'N'
  | '\xa0' => some '_'
  | '\u2028' => some 'L'
  | '\u2029' => some 'P'
  | _ => none

/-- Whether a character stands for itself between double quotes. -/
def isUnescaped (c : Char) : Bool :=
  let n := Text.codePoint c
  (0x20 ≤ n && n ≤ 0x7E && c ≠ '"' && c ≠ '\\') ||
    (((0xA0 ≤ n && n ≤ 0xD7FF) || (0xE000 ≤ n && n ≤ 0xFFFD)) &&
      c ≠ '\u2028' && c ≠ '\u2029' && c ≠ '\uFEFF')

def upperHex (width n : Nat) : String :=
  (String.ofList (Text.hexDigits width n)).toUpper

/-- The escape of a character. -/
def escape (c : Char) : String :=
  match escapeLetter? c with
  | some letter => "\\" ++ letter.toString
  | none =>
    let n := Text.codePoint c
    if n ≤ 0xFF then "\\x" ++ upperHex 2 n
    else if n ≤ 0xFFFF then "\\u" ++ upperHex 4 n
    else "\\U" ++ upperHex 8 n

/-- A break of a long text between double quotes, after what is held back of it. A backslash keeps
the space that starts the next line. -/
def doubleBreak (s : Sheet) (held : List Char) (indent : Nat) (next : Option Char) : Sheet :=
  let s := ((s.put (String.ofList held ++ "\\")).indentTo indent).settle
  if next == some ' ' then s.put "\\" else s

/-- Whether a long text is broken at a character that stands for itself: at a space, or where
nothing is held back. -/
def breaksAt (s : Sheet) (c : Char) (held : List Char) : Bool :=
  (c = ' ' || held.isEmpty) && maxColumn < s.column + held.length

/-- Writes the characters between double quotes. `position` counts those behind; `held` are the last
of them that are not written yet, in reverse. -/
def doubleChars (indent total : Nat) (split : Bool) :
    Nat → List Char → List Char → Sheet → Sheet
  | _, [], held, s => s.put (String.ofList held.reverse)
  | position, c :: rest, held, s =>
    let inside := split && 0 < position && position + 1 < total
    if isUnescaped c then
      if inside && s.breaksAt c held then
        doubleChars indent total split (position + 1) rest [c]
          (s.doubleBreak held.reverse indent (some c))
      else doubleChars indent total split (position + 1) rest (c :: held) s
    else
      let s := (s.put (String.ofList held.reverse)).put (escape c)
      let s := if inside && maxColumn + 1 < s.column then s.doubleBreak [] indent rest.head? else s
      doubleChars indent total split (position + 1) rest [] s

def double (s : Sheet) (text : String) (indent : Nat) (split : Bool) : Sheet :=
  let s := s.mark "\"" true false false
  let s := doubleChars indent text.length split 0 text.toList [] s
  s.mark "\"" false false false

/-- Writes a text in the style that it needs. -/
def writeText (s : Sheet) (text : String) (indent : Nat) (split : Bool) : Sheet :=
  match styleOf text with
  | .plain => s.plain text indent split
  | .single => s.single text indent split
  | .double => s.double text indent split

end Sheet

/-- The text of a floating-point number, which always has a point. -/
def floatText (x : Double) : String :=
  if x.isNaN then ".nan"
  else if x.isInfinite then (if x.isNegative then "-.inf" else ".inf")
  else
    match Text.cut 'e' x.render with
    | (mantissa, some power) =>
      if mantissa.toList.contains '.' then mantissa ++ "e" ++ power
      else mantissa ++ ".0e" ++ power
    | (digits, none) => digits

/-- The text of a value that is no text and holds no other value. -/
def scalarText : Document → String
  | .null => "null"
  | .bool b => if b then "true" else "false"
  | .int n => toString n
  | .float x => floatText x
  | .stamp t => t.iso
  | _ => ""

/-- The length from which on a key needs a mark before it. -/
def longKey : Nat := 123

/-- Whether a key shows itself by the colon after it. -/
def isSimpleKey (key : String) : Bool :=
  key ≠ "" && key.length < longKey && !key.toList.any isWrittenBreak

/-- Writes a key and its colon. -/
def writeKey (s : Sheet) (indent : Nat) (key : String) : Sheet :=
  let s := s.indentTo indent
  if isSimpleKey key then (s.writeText key indent false).mark ":" false false false
  else
    let s := (s.mark "?" true false true).writeText key (indent + 2) true
    (s.indentTo indent).mark ":" true false true

/-- The indentation of a list as the value of a key: none of its own, unless the colon stands at the
start of its line. -/
def valueIndent (s : Sheet) (indent : Nat) : Nat :=
  if s.fresh then indent + 2 else indent

mutual
/-- Writes a value below an indentation; a list goes at an indentation of its own. -/
def writeValue (indent listIndent : Nat) : Document → Sheet → Sheet
  | .list [], s => (s.mark "[" true true false).mark "]" false false false
  | .list (item :: rest), s => writeItems listIndent (item :: rest) s
  | .mapping [], s => (s.mark "\x7b" true true false).mark "\x7d" false false false
  | .mapping (entry :: rest), s => writeEntries (indent + 2) (entry :: rest) s
  | .text text, s => s.writeText text (indent + 2) true
  | d, s => s.plain (scalarText d) (indent + 2) true

/-- Writes the items of a list. -/
def writeItems (indent : Nat) : List Document → Sheet → Sheet
  | [], s => s
  | item :: rest, s =>
    let s := (s.indentTo indent).mark "-" true false true
    writeItems indent rest (writeValue indent (indent + 2) item s)

/-- Writes the entries of a mapping. -/
def writeEntries (indent : Nat) : List (String × Document) → Sheet → Sheet
  | [], s => s
  | (key, value) :: rest, s =>
    let s := writeKey s indent key
    writeEntries indent rest (writeValue indent (valueIndent s indent) value s)
end

/-- The text of a mapping. -/
def write (entries : Mapping Document) : String :=
  let sheet :=
    if entries.isEmpty then writeValue 0 0 (.mapping []) Sheet.empty
    else writeEntries 0 entries Sheet.empty
  (sheet.indentTo 0).text

end DesignTokens.Yaml
