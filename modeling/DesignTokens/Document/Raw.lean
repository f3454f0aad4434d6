import DesignTokens.Document.Basic

/-!
# Raw documents

A document as it is read from a text in which every scalar may be a key. Its keys become texts before
anything else looks at it: of several keys with one text the first gives the place and the last the
value.

## Main definitions

- `Scalar` — a value without parts
- `RawDocument` — the tree, whose keys are scalars
- `RawDocument.normalize` — the document with the text of every key
-/

namespace DesignTokens

/-- A value without parts. -/
inductive Scalar where
  | null
  | bool (b : Bool)
  | int (n : Int)
  | float (x : Double)
  | text (s : String)
  | stamp (t : Stamp)

namespace Scalar

/-- A scalar as a document. -/
def toDocument : Scalar → Document
  | null => .null
  | bool b => .bool b
  | int n => .int n
  | float x => .float x
  | text s => .text s
  | stamp t => .stamp t

/-- The text of a scalar as a key. -/
def plain (s : Scalar) : String :=
  s.toDocument.plain

end Scalar

/-- A tree of mappings and lists over scalars, whose keys are scalars. -/
inductive RawDocument where
  | scalar (s : Scalar)
  | list (items : List RawDocument)
  | mapping (entries : List (Scalar × RawDocument))

namespace RawDocument

mutual
/-- The document with the text of every key. -/
def normalize : RawDocument → Document
  | scalar s => s.toDocument
  | list items => .list (normalizeItems items)
  | mapping entries => .mapping (Mapping.ofEntries (normalizeEntries entries))

/-- The items of a list with the text of every key. -/
def normalizeItems : List RawDocument → List Document
  | [] => []
  | item :: rest => normalize item :: normalizeItems rest

/-- The entries of a mapping with the text of every key, where one text may still stand twice. -/
def normalizeEntries : List (Scalar × RawDocument) → List (String × Document)
  | [] => []
  | (key, value) :: rest => (key.plain, normalize value) :: normalizeEntries rest
end

end RawDocument

end DesignTokens
