import DesignTokens.Text.Utf8
import DesignTokens.Yaml.Quoted

/-!
# Anchors, tags and directives

What may stand before a value or before a document: the name of an anchor or alias, a tag that is
shortened by a handle, a directive that gives the version or a handle.

## Main definitions

- `readAnchor` — the name of an anchor or alias
- `TagText`, `readTag` — a tag
- `Directive`, `readDirective` — a directive
-/

namespace DesignTokens.Yaml

def isNameChar (c : Char) : Bool :=
  ('0' ≤ c && c ≤ '9') || ('A' ≤ c && c ≤ 'Z') || ('a' ≤ c && c ≤ 'z') || c = '-' || c = '_'

/-- Whether the name of an anchor may end before the next character. -/
def endsAnchor (next : Option Char) : Bool :=
  endsWord next || (next.map ['?', ':', ',', ']', '\x7d', '%', '@', '`'].contains).getD false

/-- The name of an anchor or alias, from its indicator. -/
def readAnchor (c : Cursor) : Except Fault (String × Cursor) :=
  let (name, after) := c.advance.span isNameChar
  if name.isEmpty || !endsAnchor after.next? then .error .malformed
  else .ok (String.ofList name, after)

/-- A tag: a suffix, behind a handle unless the tag is written in full. -/
structure TagText where
  handle : Option String
  suffix : String
  deriving DecidableEq, Repr

def isTagChar (c : Char) : Bool :=
  isNameChar c || ";/?:@&=+$,.!~*'()[]".toList.contains c

/-- The octets of the escapes at a cursor. -/
def readOctets : Nat → Cursor → List UInt8 → Except Fault (List UInt8 × Cursor)
  | 0, _, _ => .error .malformed
  | fuel + 1, c, done =>
    if c.isAt '%' then
      match c.ahead? 1, c.ahead? 2 with
      | some a, some b =>
        match hexNumber? [a, b] with
        | some n => readOctets fuel (c.skip 3) (UInt8.ofNat n :: done)
        | none => .error .malformed
      | _, _ => .error .malformed
    else .ok (done.reverse, c)

/-- The rest of the text of a tag, given its characters so far. -/
def readTagCharsFrom : Nat → Cursor → List Char → Except Fault (List Char × Cursor)
  | 0, _, _ => .error .malformed
  | fuel + 1, c, done =>
    let (chars, after) := c.span isTagChar
    let done := done ++ chars
    if after.isAt '%' then do
      let (octets, after) ← readOctets (after.rest.length + 1) after []
      match Text.Utf8.decode octets with
      | .ok decoded => readTagCharsFrom fuel after (done ++ decoded)
      | .error _ => .error .malformed
    else .ok (done, after)

def readTagChars (c : Cursor) : Except Fault (String × Cursor) := do
  let (chars, after) ← readTagCharsFrom (c.rest.length + 1) c []
  if chars.isEmpty then .error .malformed else .ok (String.ofList chars, after)

/-- A handle: one exclamation mark, or a name between two. -/
def readHandle (c : Cursor) : Except Fault (String × Cursor) :=
  if !c.isAt '!' then .error .malformed
  else
    let (name, after) := c.advance.span isNameChar
    if after.isAt '!' then .ok ("!" ++ String.ofList name ++ "!", after.advance)
    else if name.isEmpty && after.isAt ' ' then .ok ("!", after)
    else .error .malformed

/-- Whether an exclamation mark comes before the next space. -/
def hasSecondMark (cs : List Char) : Bool :=
  (cs.takeWhile fun c => !(c = ' ' || isBreak c)).contains '!'

/-- A tag, from its exclamation mark. -/
def readTag (c : Cursor) : Except Fault (TagText × Cursor) := do
  let (tag, c) ←
    if c.ahead? 1 == some '<' then do
      let (suffix, after) ← readTagChars (c.skip 2)
      if after.isAt '>' then .ok ((⟨none, suffix⟩ : TagText), after.advance) else .error .malformed
    else if endsWord (c.ahead? 1) then .ok ((⟨none, "!"⟩ : TagText), c.advance)
    else do
      let (handle, c) ← if hasSecondMark (c.rest.drop 1) then readHandle c else .ok ("!", c.advance)
      let (suffix, after) ← readTagChars c
      .ok ((⟨some handle, suffix⟩ : TagText), after)
  if endsItem c.next? then .ok (tag, c) else .error .malformed

/-- A directive. -/
inductive Directive where
  | version (major minor : Nat)
  | handle (name start : String)
  | other
  deriving DecidableEq, Repr

def readVersionNumber (c : Cursor) : Except Fault (Nat × Cursor) :=
  let (digits, after) := c.span fun char => '0' ≤ char && char ≤ '9'
  if digits.isEmpty then .error .malformed
  else .ok (digits.foldl (fun n char => 10 * n + (char.toNat - 48)) 0, after)

/-- The version that a directive gives. -/
def readVersion (c : Cursor) : Except Fault (Directive × Cursor) := do
  let (major, c) ← readVersionNumber (c.skipWhile (· = ' '))
  if !c.isAt '.' then .error .malformed
  else
    let (minor, c) ← readVersionNumber c.advance
    if endsItem c.next? then .ok (.version major minor, c) else .error .malformed

/-- The handle that a directive gives. -/
def readHandleDirective (c : Cursor) : Except Fault (Directive × Cursor) := do
  let (name, c) ← readHandle (c.skipWhile (· = ' '))
  if !c.isAt ' ' then .error .malformed
  else
    let (start, c) ← readTagChars (c.skipWhile (· = ' '))
    if endsItem c.next? then .ok (.handle name start, c) else .error .malformed

/-- A directive, from its percent sign to the end of its line. -/
def readDirective (c : Cursor) : Except Fault (Directive × Cursor) := do
  let (name, c) := c.advance.span isNameChar
  if name.isEmpty || !endsItem c.next? then .error .malformed
  else
    let (directive, c) ← match String.ofList name with
      | "YAML" => readVersion c
      | "TAG" => readHandleDirective c
      | _ => .ok (.other, c.skipWhile (!isBreak ·))
    .ok (directive, ← c.skipLineEnd)

end DesignTokens.Yaml
