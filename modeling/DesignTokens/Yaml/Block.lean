import DesignTokens.Yaml.Cursor

/-!
# Block scalars

Indented lines after an indicator. The literal form keeps the line breaks; the folded form replaces a
single line break between two lines of text by a space. An indicator may give the depth of the
indentation, and it may strip or keep the line breaks at the end.

## Main definitions

- `BlockHeader` — what the indicators say
- `readBlock` — a block scalar
-/

namespace DesignTokens.Yaml

/-- What becomes of the line breaks at the end. -/
inductive Chomping where
  | strip
  | clip
  | keep
  deriving DecidableEq, Repr

/-- What the indicators of a block scalar say. -/
structure BlockHeader where
  chomping : Chomping
  increment : Option Nat

def chomping? : Option Char → Option Chomping
  | some '+' => some .keep
  | some '-' => some .strip
  | _ => none

/-- The depth that a character gives. A depth of zero is refused. -/
def depth? (next : Option Char) : Except Fault (Option Nat) :=
  match next with
  | some c =>
    if c = '0' then .error .malformed
    else if '1' ≤ c && c ≤ '9' then .ok (some (c.toNat - 48))
    else .ok none
  | none => .ok none

/-- The indicators of a block scalar, in either order, and the cursor after them. -/
def readIndicators (c : Cursor) : Except Fault (BlockHeader × Cursor) :=
  match chomping? c.next? with
  | some chomping => do
    match ← depth? c.advance.next? with
    | some n => .ok (⟨chomping, some n⟩, c.skip 2)
    | none => .ok (⟨chomping, none⟩, c.advance)
  | none => do
    match ← depth? c.next? with
    | some n =>
      match chomping? c.advance.next? with
      | some chomping => .ok (⟨chomping, some n⟩, c.skip 2)
      | none => .ok (⟨.clip, some n⟩, c.advance)
    | none => .ok (⟨.clip, none⟩, c)

/-- The indicators of a block scalar, up to the end of their line. -/
def readBlockHeader (c : Cursor) : Except Fault (BlockHeader × Cursor) := do
  let (header, c) ← readIndicators c
  if endsItem c.next? then .ok (header, ← c.skipLineEnd) else .error .malformed

/-- The blank lines before the first line of text, and the deepest column among all these lines. -/
def readLeading : Nat → Cursor → List Char → Nat → List Char × Nat × Cursor
  | 0, c, done, deepest => (done.reverse, deepest, c)
  | fuel + 1, c, done, deepest =>
    if c.isAt ' ' then readLeading fuel c.advance done (max deepest c.advance.column)
    else match c.lineBreak? with
      | some (b, after) => readLeading fuel after (b :: done) deepest
      | none => (done.reverse, deepest, c)

def skipIndent (indent : Nat) : Nat → Cursor → Cursor
  | 0, c => c
  | fuel + 1, c =>
    if c.column < indent && c.isAt ' ' then skipIndent indent fuel c.advance else c

/-- The blank lines between two lines of text, and the indentation of the later one. -/
def readBlankLines (indent : Nat) : Nat → Cursor → List Char → List Char × Cursor
  | 0, c, done => (done.reverse, c)
  | fuel + 1, c, done =>
    let c := skipIndent indent indent c
    match c.lineBreak? with
    | some (b, after) => readBlankLines indent fuel after (b :: done)
    | none => (done.reverse, c)

/-- Whether a line starts with a blank or is empty. -/
def startsBlank : Option Char → Bool
  | some c => isBlank c
  | none => false

/-- A line of text with what comes after it. -/
structure BlockLine where
  text : List Char
  lineBreak : List Char
  blankLines : List Char

/-- What stands between a line of text and the next one. -/
def joinLines (folded : Bool) (line : BlockLine) (next : Option Char) : List Char :=
  if folded && line.lineBreak == ['\n'] && !startsBlank line.text.head? && !startsBlank next then
    if line.blankLines.isEmpty then [' '] else []
  else line.lineBreak

/-- The end of a block scalar after its last line. -/
def lastBreaks (chomping : Chomping) (line : BlockLine) : List Char :=
  match chomping with
  | .strip => []
  | .clip => line.lineBreak
  | .keep => line.lineBreak ++ line.blankLines

/-- The lines of a block scalar, given its text so far and the line before. -/
def readLines (folded : Bool) (chomping : Chomping) (indent : Nat) :
    Nat → Cursor → List Char → BlockLine → List Char × Cursor
  | 0, c, done, line => (done ++ lastBreaks chomping line, c)
  | fuel + 1, c, done, line =>
    if c.column = indent && c.next?.isSome then
      let (text, after) := c.span (!isBreak ·)
      let (lineBreak, after) := match after.lineBreak? with
        | some (b, next) => ([b], next)
        | none => ([], after)
      let (blankLines, after) := readBlankLines indent (after.rest.length + 1) after []
      let next : BlockLine := ⟨text, lineBreak, blankLines⟩
      let more := after.column = indent && after.next?.isSome
      let join := if more then joinLines folded next after.next? else []
      readLines folded chomping indent fuel after (done ++ line.blankLines ++ text ++ join) next
    else (done ++ lastBreaks chomping line, c)

/-- A block scalar, from its indicator. The indentation is that of the collection around it. -/
def readBlock (folded : Bool) (indent : Int) (c : Cursor) : Except Fault (String × Cursor) := do
  let (header, c) ← readBlockHeader c.advance
  let least := (max 1 (indent + 1)).toNat
  let fuel := c.rest.length + 1
  let (depth, blankLines, c) := match header.increment with
    | none =>
      let (blankLines, deepest, c) := readLeading fuel c [] 0
      (max least deepest, blankLines, c)
    | some n =>
      let (blankLines, c) := readBlankLines (least + n - 1) fuel c []
      (least + n - 1, blankLines, c)
  let (chars, c) := readLines folded header.chomping depth fuel c [] ⟨[], [], blankLines⟩
  .ok (String.ofList chars, c)

end DesignTokens.Yaml
