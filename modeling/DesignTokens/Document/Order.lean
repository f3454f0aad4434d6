import DesignTokens.Document.Basic

/-!
# Reordering

A document with its keys in the order of a reference document. At every level the keys that the
reference declares come first, in its order, and the others follow in their own.

## Main definitions

- `arrange` — entries in the order of a list of keys
- `orderedLike` — a document in the order of a reference
-/

namespace DesignTokens

/-- The entries under the given keys, in the order of the keys. -/
def pick {α : Type} (entries : Mapping α) : List String → Mapping α
  | [] => []
  | key :: rest =>
    match Mapping.find? entries key with
    | some value => (key, value) :: pick entries rest
    | none => pick entries rest

/-- The entries in the order of the given keys, then the others in their own order. -/
def arrange {α : Type} (entries : Mapping α) (order : List String) : Mapping α :=
  pick entries order ++ entries.filter fun entry => !order.contains entry.1

/-- The entries of a reference; a reference that is no mapping declares no key. -/
def referenceEntries : Option Document → Mapping Document
  | some (.mapping entries) => entries
  | _ => []

mutual
/-- A document with its keys in the order of a reference. -/
def orderedLike : Document → Option Document → Document
  | .mapping entries, reference =>
    let declared := referenceEntries reference
    .mapping (arrange (orderedEntries entries declared) (Mapping.keys declared))
  | d, _ => d
  termination_by structural d => d

/-- Every value in the order of the reference's value under the same key. -/
def orderedEntries : List (String × Document) → Mapping Document → Mapping Document
  | [], _ => []
  | (key, value) :: rest, declared =>
    (key, orderedLike value (Mapping.find? declared key)) :: orderedEntries rest declared
  termination_by structural entries => entries
end

end DesignTokens
