import DesignTokens.Yaml.Cursor
import DesignTokens.Yaml.Quoted

/-!
# Plain scalars

A scalar without quotes: words up to an indicator, over several lines when the later ones are
indented. Line breaks are folded as in quoted scalars.

## Main definitions

- `readPlain` — a plain scalar, and whether a key may start after it
-/

namespace DesignTokens.Yaml

def isFlowIndicator (c : Char) : Bool :=
  c = ',' || c = '[' || c = ']' || c = '\x7b' || c = '\x7d'

/-- Whether a colon before the next character ends a plain scalar. -/
def endsKey (inFlow : Bool) (next : Option Char) : Bool :=
  endsWord next || (inFlow && (next.map isFlowIndicator).getD false)

/-- Whether a plain scalar has to end before a character. -/
def endsPlain (inFlow : Bool) (c : Char) (next : Option Char) : Bool :=
  isBlank c || isBreak c || (c = ':' && endsKey inFlow next) ||
    (inFlow && (c = '?' || isFlowIndicator c))

/-- The word of a plain scalar at the start of the characters. -/
def plainWord (inFlow : Bool) : List Char → List Char
  | [] => []
  | c :: rest => if endsPlain inFlow c rest.head? then [] else c :: plainWord inFlow rest

/-- What is between two words of a plain scalar, and whether a line ended there. -/
structure PlainGap where
  chars : List Char
  brokeLine : Bool

/-- The line breaks after the first one, with the spaces before each line; none when a document
ends there. -/
def readPlainBreaks : Nat → Cursor → List Char → Option (List Char) × Cursor
  | 0, c, done => (some done.reverse, c)
  | fuel + 1, c, done =>
    if c.isAt ' ' then readPlainBreaks fuel c.advance done
    else match c.lineBreak? with
      | none => (some done.reverse, c)
      | some (b, after) =>
        if after.isAtMarker then (none, after) else readPlainBreaks fuel after (b :: done)

/-- What comes after a word of a plain scalar. -/
def readPlainGap (c : Cursor) : PlainGap × Cursor :=
  let (spaces, after) := c.span (· = ' ')
  match after.lineBreak? with
  | none => (⟨spaces, false⟩, after)
  | some (b, next) =>
    if next.isAtMarker then (⟨[], true⟩, next)
    else match readPlainBreaks (next.rest.length + 1) next [] with
      | (some others, c) => (⟨foldBreaks b others, true⟩, c)
      | (none, c) => (⟨[], true⟩, c)

/-- The rest of a plain scalar, given its text and the gap so far. -/
def readPlainFrom (inFlow : Bool) (indent : Int) :
    Nat → Cursor → List Char → PlainGap → List Char × Bool × Cursor
  | 0, c, done, gap => (done, gap.brokeLine, c)
  | fuel + 1, c, done, gap =>
    let word := plainWord inFlow c.rest
    if c.isAt '#' || word.isEmpty then (done, gap.brokeLine, c)
    else
      let done := done ++ gap.chars ++ word
      let (gap, after) := readPlainGap (c.skip word.length)
      if gap.chars.isEmpty || after.isAt '#' || (!inFlow && (after.column : Int) < indent) then
        (done, gap.brokeLine, after)
      else readPlainFrom inFlow indent fuel after done gap

/-- A plain scalar, and whether a key may start after it because a line ended. -/
def readPlain (inFlow : Bool) (indent : Int) (c : Cursor) : String × Bool × Cursor :=
  let (chars, brokeLine, after) :=
    readPlainFrom inFlow indent (c.rest.length + 1) c [] ⟨[], false⟩
  (String.ofList chars, brokeLine, after)

end DesignTokens.Yaml
