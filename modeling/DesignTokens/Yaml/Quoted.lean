import DesignTokens.Text.CodePoint
import DesignTokens.Yaml.Cursor

/-!
# Quoted scalars

A text between single quotes, where a quote is written twice, or between double quotes, where a
backslash starts an escape. A single line break between words counts as a space, and of several the
first is dropped.

## Main definitions

- `readQuoted` — the text after an opening quote
-/

namespace DesignTokens.Yaml

/-- The character that a letter after a backslash stands for. -/
def escapedChar? : Char → Option Char
  | '0' => some '\x00'
  | 'a' => some '\x07'
  | 'b' => some '\x08'
  | 't' => some '\t'
  | '\t' => some '\t'
  | 'n' => some '\n'
  | 'v' => some '\x0b'
  | 'f' => some '\x0c'
  | 'r' => some '\r'
  | 'e' => some '\x1b'
  | ' ' => some ' '
  | '"' => some '"'
  | '\\' => some '\\'
  | '/' => some '/'
  | 'N' => some '\x85'
  | '_' => some '\xa0'
  | 'L' => some '\u2028'
  | 'P' => some '\u2029'
  | _ => none

/-- The number of hexadecimal digits after a letter. -/
def escapeWidth? : Char → Option Nat
  | 'x' => some 2
  | 'u' => some 4
  | 'U' => some 8
  | _ => none

/-- The value of a hexadecimal digit. -/
def hexDigit? (c : Char) : Option Nat :=
  if '0' ≤ c && c ≤ '9' then some (c.toNat - 48)
  else if 'a' ≤ c && c ≤ 'f' then some (c.toNat - 87)
  else if 'A' ≤ c && c ≤ 'F' then some (c.toNat - 55)
  else none

def hexNumber? (cs : List Char) : Option Nat :=
  cs.foldlM (fun n c => (hexDigit? c).map (16 * n + ·)) 0

/-- A character by its number. -/
def numberedChar (n : Nat) : Except Fault Char :=
  if n ≥ 0x110000 then .error (.impossible (.noCharacter n))
  else .ok (Text.ofCodePoint n)

/-- The line breaks after the first one, without the blanks around them. -/
def readBreaks : Nat → Cursor → List Char → Except Fault (List Char × Cursor)
  | 0, _, _ => .error .malformed
  | fuel + 1, c, done =>
    if c.isAtMarker then .error .malformed
    else
      let c := c.skipWhile isBlank
      match c.lineBreak? with
      | some (b, after) => readBreaks fuel after (b :: done)
      | none => .ok (done.reverse, c)

/-- What a line break and those after it stand for. -/
def foldBreaks (first : Char) (others : List Char) : List Char :=
  if first ≠ '\n' then first :: others
  else if others.isEmpty then [' ']
  else others

/-- Blanks inside a quoted text, or the line breaks that they lead to. -/
def readQuotedBlanks (c : Cursor) : Except Fault (List Char × Cursor) :=
  let (blanks, after) := c.span isBlank
  match after.lineBreak? with
  | some (b, next) => do
    let (others, c) ← readBreaks (next.rest.length + 1) next []
    .ok (foldBreaks b others, c)
  | none => .ok (blanks, after)

/-- An escape, from the character after its backslash. -/
def readEscape (c : Cursor) : Except Fault (List Char × Cursor) :=
  match c.next? with
  | none => .error .malformed
  | some letter =>
    match escapedChar? letter, escapeWidth? letter with
    | some char, _ => .ok ([char], c.advance)
    | none, some width =>
      let digits := c.advance.rest.take width
      match hexNumber? digits with
      | some n =>
        if digits.length = width then do
          .ok ([← numberedChar n], c.advance.skip width)
        else .error .malformed
      | none => .error .malformed
    | none, none =>
      match c.lineBreak? with
      | some (_, next) => readBreaks (next.rest.length + 1) next []
      | none => .error .malformed

/-- The rest of a quoted text, given its characters so far in reverse. -/
def readQuotedFrom (quote : Char) : Nat → Cursor → List Char → Except Fault (String × Cursor)
  | 0, _, _ => .error .malformed
  | fuel + 1, c, done =>
    match c.next? with
    | none => .error .malformed
    | some char =>
      if char = quote then
        if quote = '\'' && c.ahead? 1 == some '\'' then
          readQuotedFrom quote fuel (c.skip 2) ('\'' :: done)
        else .ok (String.ofList done.reverse, c.advance)
      else if quote = '"' && char = '\\' then do
        let (chars, after) ← readEscape c.advance
        readQuotedFrom quote fuel after (chars.reverse ++ done)
      else if isBlank char || isBreak char then do
        let (chars, after) ← readQuotedBlanks c
        readQuotedFrom quote fuel after (chars.reverse ++ done)
      else readQuotedFrom quote fuel c.advance (char :: done)

def readQuoted (quote : Char) (c : Cursor) : Except Fault (String × Cursor) :=
  readQuotedFrom quote (c.rest.length + 1) c.advance []

end DesignTokens.Yaml
