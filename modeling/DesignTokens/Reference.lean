import DesignTokens.Text.Pieces
import DesignTokens.Text.Word

/-!
# Token references

A reference is a dotted path: two or more segments of word characters and hyphens, the first of
which starts with an ASCII letter or an underscore. One line break at the end is let pass. A literal
such as `0.5rem` starts with a digit and is no reference.

## Main definitions

- `isReference` — whether a text is a reference
- `variableSuffix`, `variableName`, `variableFallback` — the custom property of a path
-/

namespace DesignTokens

def isSegmentChar (c : Char) : Bool :=
  Text.isWord c || c = '-'

def isSegment (cs : List Char) : Bool :=
  !cs.isEmpty && cs.all isSegmentChar

def isReferenceStart (c : Char) : Bool :=
  Text.isAsciiLetter c || c = '_'

def dropFinalBreak (cs : List Char) : List Char :=
  if cs.getLast? = some '\n' then cs.dropLast else cs

def areReferenceSegments (segments : List (List Char)) : Bool :=
  2 ≤ segments.length && segments.all isSegment &&
    ((segments.head?.bind List.head?).map isReferenceStart).getD false

def isReference (s : String) : Bool :=
  areReferenceSegments (Text.splitList '.' (dropFinalBreak s.toList))

/-- The end of a variable name: the path with a hyphen for each dot. -/
def variableSuffix (path : String) : String :=
  Text.substitute '.' "-" path

def variableName (first path : String) : String :=
  "--" ++ first ++ "-" ++ variableSuffix path

/-- The expression that leaves a path's value to a custom property. -/
def variableFallback (first path : String) : String :=
  "var(" ++ variableName first path ++ ")"

end DesignTokens
