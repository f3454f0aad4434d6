import DesignTokens.Document.ScalarFault

/-!
# A cursor in a YAML text

What is left of a text, with its place by line and column. Line breaks are those of every script; a
column counts characters, leaving out byte order marks.

## Main definitions

- `Fault` — why a text has no document
- `Cursor` — what is left of a text
- `Cursor.skip`, `Cursor.span`, `Cursor.lineBreak?` — steps of a cursor
-/

namespace DesignTokens.Yaml

/-- Why a text has no document: it is not well formed, or a scalar has the form of a value that does
not exist. -/
inductive Fault where
  | malformed
  | impossible (fault : ScalarFault)
  deriving DecidableEq, Repr

def isBreak (c : Char) : Bool :=
  c = '\n' || c = '\r' || c = '\x85' || c = '\u2028' || c = '\u2029'

def isBlank (c : Char) : Bool :=
  c = ' ' || c = '\t'

def endsLine : Option Char → Bool
  | some c => isBreak c
  | none => true

def endsWord : Option Char → Bool
  | some c => isBlank c || isBreak c
  | none => true

/-- Whether a line or a word that only a space can end, ends before the next character. -/
def endsItem : Option Char → Bool
  | some c => c = ' ' || isBreak c
  | none => true

/-- What is left of a text, and its place in it. -/
structure Cursor where
  rest : List Char
  index : Nat
  line : Nat
  column : Nat

namespace Cursor

def start (cs : List Char) : Cursor :=
  ⟨cs, 0, 0, 0⟩

def next? (c : Cursor) : Option Char :=
  c.rest.head?

def ahead? (c : Cursor) (n : Nat) : Option Char :=
  c.rest[n]?

def isAt (c : Cursor) (char : Char) : Bool :=
  c.next? == some char

/-- Whether the character after the next ones ends a line. -/
def breaksAfter (char : Char) (rest : List Char) : Bool :=
  isBreak char && !(char = '\r' && rest.head? == some '\n')

/-- The cursor after the next character. -/
def advance (c : Cursor) : Cursor :=
  match c.rest with
  | [] => c
  | char :: rest =>
    if breaksAfter char rest then ⟨rest, c.index + 1, c.line + 1, 0⟩
    else ⟨rest, c.index + 1, c.line, if char = '\uFEFF' then c.column else c.column + 1⟩

def skip (c : Cursor) : Nat → Cursor
  | 0 => c
  | n + 1 => skip c.advance n

/-- The next characters that satisfy a condition, and the cursor after them. -/
def span (c : Cursor) (p : Char → Bool) : List Char × Cursor :=
  let taken := c.rest.takeWhile p
  (taken, c.skip taken.length)

/-- The cursor after the next characters that satisfy a condition. -/
def skipWhile (c : Cursor) (p : Char → Bool) : Cursor :=
  (c.span p).2

/-- The line break at a cursor, in its one-character form, and the cursor after it. -/
def lineBreak? (c : Cursor) : Option (Char × Cursor) :=
  match c.rest with
  | '\r' :: '\n' :: _ => some ('\n', c.skip 2)
  | char :: _ =>
    if char = '\u2028' || char = '\u2029' then some (char, c.advance)
    else if isBreak char then some ('\n', c.advance)
    else none
  | [] => none

/-- The cursor after the line break at it, if there is one. -/
def skipBreak (c : Cursor) : Cursor :=
  (c.lineBreak?.map Prod.snd).getD c

/-- Whether a marker that separates documents is at a cursor. -/
def isAtMarker (c : Cursor) : Bool :=
  (c.rest.take 3 == ['-', '-', '-'] || c.rest.take 3 == ['.', '.', '.']) && endsWord (c.ahead? 3)

/-- The cursor after blanks and a comment, which must reach to the end of the line. -/
def skipLineEnd (c : Cursor) : Except Fault Cursor :=
  let c := c.skipWhile (· = ' ')
  let c := if c.isAt '#' then c.skipWhile (!isBreak ·) else c
  if endsLine c.next? then .ok c.skipBreak else .error .malformed

end Cursor

end DesignTokens.Yaml
