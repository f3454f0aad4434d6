import DesignTokens.Document.Flatten
import DesignTokens.Reference

/-!
# Style entries

A style object gives each property a literal, a token reference or, under the name of an interaction
state, the properties of that state. Values of any other form are left out with a warning.

## Main definitions

- `StyleNode`, `StyleEntry` — what a property is given
- `stateSelector?` — the nested selector of an interaction state
- `StyleWarning` — a value that was left out
- `styleEntries`, `styleWarnings` — the entries of a style object, and what was left out of it
-/

namespace DesignTokens

/-- What a property of a style object is given. -/
inductive StyleNode where
  /-- A text that is used as it stands. -/
  | literal (value : String)
  /-- The value of a token. -/
  | reference (path : String)
  /-- The properties of an interaction state. -/
  | state (name : String) (entries : List (String × StyleNode))
  deriving Inhabited

/-- A property and what it is given. -/
abbrev StyleEntry := String × StyleNode

/-- The nested selector of an interaction state; `&` stands for the selector around it. -/
def stateSelector? : String → Option String
  | "hover" => some "&:hover"
  | "focus" => some "&:focus"
  | "active" => some "&:active"
  | _ => none

def isState (key : String) : Bool :=
  (stateSelector? key).isSome

/-- A value that was left out of a style object. -/
inductive StyleWarning where
  /-- An object under a key that is no interaction state. -/
  | unknownNesting (key : String)
  /-- A value that is no text, number or truth value. -/
  | notScalar (key : String) (value : Document)

def StyleWarning.message : StyleWarning → String
  | unknownNesting key => "Ignoring nested style object under unrecognized key '" ++ key ++ "'"
  | notScalar key value =>
    "Ignoring non-scalar style value for '" ++ key ++ "': " ++ value.shown

/-- What a scalar gives a property: a reference when its text has the form of one. -/
def scalarNode (s : String) : StyleNode :=
  if isReference s then .reference s else .literal s

/-- What a property is given by a value that is no object. -/
def plainNode? : Document → Option StyleNode
  | .text s => some (scalarNode s)
  | d => (literal? d).map .literal

mutual
/-- What a key of a style object is given, if anything. -/
def styleNode? (key : String) : Document → Option StyleNode
  | .mapping entries => if isState key then some (.state key (styleEntries entries)) else none
  | d => plainNode? d

/-- The entries of a style object, in order. -/
def styleEntries : List (String × Document) → List StyleEntry
  | [] => []
  | (key, value) :: rest => (styleNode? key value).toList.map (key, ·) ++ styleEntries rest
end

mutual
/-- What is left out at a key of a style object. -/
def nodeWarnings (key : String) : Document → List StyleWarning
  | .mapping entries => if isState key then styleWarnings entries else [.unknownNesting key]
  | d => if (plainNode? d).isSome then [] else [.notScalar key d]

/-- What is left out of a style object, in order. -/
def styleWarnings : List (String × Document) → List StyleWarning
  | [] => []
  | (key, value) :: rest => nodeWarnings key value ++ styleWarnings rest
end

end DesignTokens
