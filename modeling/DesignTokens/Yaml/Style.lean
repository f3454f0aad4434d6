import DesignTokens.Yaml.Implicit

/-!
# Styles of written texts

A text is written plain where that is safe: where it shows the type text, starts and ends with no
blank and holds no indicator in a place that matters. Otherwise it is written between single quotes,
and between double quotes where it holds characters that need an escape.

## Main definitions

- `mayBePlain`, `maySingle` — what each way allows
- `WrittenStyle` — the three ways to write it
- `styleOf` — the way a text is written
-/

namespace DesignTokens.Yaml

/-- The ways to write a text. -/
inductive WrittenStyle where
  | plain
  | single
  | double
  deriving DecidableEq, Repr

/-- A line break that a written text may hold. -/
def isWrittenBreak (c : Char) : Bool :=
  c = '\n' || c = '\x85' || c = '\u2028' || c = '\u2029'

/-- A character that has to be escaped. -/
def isSpecial (c : Char) : Bool :=
  let n := Text.codePoint c
  !(n = 10 || (0x20 ≤ n && n ≤ 0x7E) || n = 0x85 || (0xA0 ≤ n && n ≤ 0xD7FF) ||
    (0xE000 ≤ n && n ≤ 0xFFFD && n ≠ 0xFEFF) || (0x10000 ≤ n && n < 0x10FFFF))

/-- Whether the neighbour of a character is missing or a blank. -/
def isGap : Option Char → Bool
  | some c => isBlank c || isBreak c || c = '\x00'
  | none => true

def isLeadingIndicator (c : Char) : Bool :=
  "#,[]\x7b\x7d&*!|>'\"%@`".toList.contains c

def startsIndicator : List Char → Bool
  | [] => false
  | c :: rest =>
    isLeadingIndicator c || ((c = '?' || c = ':' || c = '-') && isGap rest.head?)

/-- Whether a later character is an indicator: a colon before a gap, or a number sign after one. -/
def holdsIndicator : List Char → Bool
  | a :: b :: rest =>
    (b = ':' && isGap rest.head?) || (b = '#' && isGap (some a)) || holdsIndicator (b :: rest)
  | _ => false

/-- Whether a text starts like a marker between documents. -/
def startsMarker (cs : List Char) : Bool :=
  cs.take 3 == ['-', '-', '-'] || cs.take 3 == ['.', '.', '.']

/-- Whether a character is followed by another. -/
def holdsPair (first second : Char → Bool) : List Char → Bool
  | a :: b :: rest => (first a && second b) || holdsPair first second (b :: rest)
  | _ => false

def isSpace (c : Char) : Bool :=
  c = ' '

/-- Whether a text starts or ends with a space or a line break. -/
def hasLooseEnd (cs : List Char) : Bool :=
  let loose (c : Option Char) := c.any fun c => isSpace c || isWrittenBreak c
  loose cs.head? || loose cs.getLast?

/-- Whether a text may be written plain. -/
def mayBePlain (cs : List Char) : Bool :=
  !(hasLooseEnd cs || holdsPair isWrittenBreak isSpace cs || cs.any isSpecial ||
    cs.any isWrittenBreak || startsMarker cs || startsIndicator cs || holdsIndicator cs)

/-- Whether a text may be written between single quotes. -/
def maySingle (cs : List Char) : Bool :=
  !(holdsPair isWrittenBreak isSpace cs || holdsPair isSpace isWrittenBreak cs || cs.any isSpecial)

/-- The way a text is written. -/
def styleOf (s : String) : WrittenStyle :=
  let cs := s.toList
  if implicitType s = .text && mayBePlain cs then .plain
  else if maySingle cs then .single
  else .double

end DesignTokens.Yaml
