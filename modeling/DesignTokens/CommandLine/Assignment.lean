import DesignTokens.Document.Basic
import DesignTokens.Failure
import DesignTokens.Text.Blank

/-!
# Assignments

An assignment `a.b.c=value` sets one text in a document of nested mappings. A later assignment
replaces what an earlier one put at its path, and a mapping takes the place of any other value that
stands in the way.

## Main definitions

- `Assignment` — a path and a value
- `Assignment.ofText` — an assignment as it is written
- `assignmentDocument` — the document of a list of assignments
-/

namespace DesignTokens

/-- A path of at least one key, and the text that it is set to. -/
structure Assignment where
  keys : List String
  value : String
  deriving DecidableEq, Repr

/-- The keys of a dotted path, without the empty ones. -/
def pathKeys (path : String) : List String :=
  (Text.split '.' (Text.strip path)).filter (· ≠ "")

/-- An assignment as it is written. -/
def Assignment.ofText (s : String) : Except Failure Assignment :=
  match Text.cut '=' s with
  | (path, some value) =>
    if (pathKeys path).isEmpty then .error (.badAssignment s)
    else .ok ⟨pathKeys path, Text.strip value⟩
  | (_, none) => .error (.badAssignment s)

/-- The entries of a value that stands in the way of a path: none unless it is a mapping. -/
def entriesBelow (value : Option Document) : Mapping Document :=
  (value.bind Document.entries?).getD []

/-- Sets the value at a path. -/
def setPath (entries : Mapping Document) (value : Document) : List String → Mapping Document
  | [] => entries
  | [key] => Mapping.set entries key value
  | key :: next :: rest =>
    Mapping.set entries key
      (.mapping (setPath (entriesBelow (Mapping.find? entries key)) value (next :: rest)))

def Assignment.apply (entries : Mapping Document) (a : Assignment) : Mapping Document :=
  setPath entries (.text a.value) a.keys

/-- Makes some assignments, up to the first that is not well formed. -/
def applyAssignments (entries : Mapping Document) : List String → Except Failure (Mapping Document)
  | [] => .ok entries
  | s :: rest => do applyAssignments (Assignment.apply entries (← Assignment.ofText s)) rest

def assignmentDocument (assignments : List String) : Except Failure (Mapping Document) :=
  applyAssignments [] assignments

end DesignTokens
