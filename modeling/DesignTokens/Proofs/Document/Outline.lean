import DesignTokens.Document.Flatten
import DesignTokens.Document.Order
import DesignTokens.Proofs.Document.Alike

/-!
# Outlines of documents

The outline of a document is its keys in their order at every level, without its values. A document
that declares the keys of a reference has the outline of the reference once it stands in its order,
and it has leaves at the same paths.

## Main definitions

- `Document.outline` — the keys in their order at every level
- `SameOutline` — the same outline, with leaves at the same paths
-/

namespace DesignTokens

namespace Document

mutual
/-- The keys of a document in their order at every level: every value without keys is null. -/
def outline : Document → Document
  | list items => list (outlineItems items)
  | mapping entries => mapping (outlineEntries entries)
  | _ => null

/-- The outlines of all items. -/
def outlineItems : List Document → List Document
  | [] => []
  | item :: rest => outline item :: outlineItems rest

/-- The outlines of all values under their keys. -/
def outlineEntries : List (String × Document) → List (String × Document)
  | [] => []
  | (key, value) :: rest => (key, outline value) :: outlineEntries rest
end

end Document

/-- The paths of the leaves of a document. -/
def leafPaths (path : String) (d : Document) : List String :=
  (flatten path d).map Prod.fst

/-- The same keys in the same order at every level, with leaves at the same paths. -/
structure SameOutline (d other : Document) : Prop where
  outline : d.outline = other.outline
  paths : ∀ path, leafPaths path d = leafPaths path other

namespace SameOutline

variable {d other : Document} {entries others : Mapping Document}

theorem refl (d : Document) : SameOutline d d := ⟨rfl, fun _ => rfl⟩

theorem symm (h : SameOutline d other) : SameOutline other d :=
  ⟨h.outline.symm, fun path => (h.paths path).symm⟩

theorem trans {more : Document} (h : SameOutline d other) (h' : SameOutline other more) :
    SameOutline d more :=
  ⟨h.outline.trans h'.outline, fun path => (h.paths path).trans (h'.paths path)⟩

/-- Texts differ in nothing but their value. -/
theorem text (s t : String) : SameOutline (.text s) (.text t) := ⟨rfl, fun _ => rfl⟩

theorem mapping (h : Mapping.Along SameOutline entries others) :
    SameOutline (.mapping entries) (.mapping others) := by
  constructor
  · rw [Document.outline, Document.outline]
    congr 1
    induction h with
    | nil => rfl
    | cons head _ ih =>
      rw [Document.outlineEntries, Document.outlineEntries, head.1, head.2.outline, ih]
  · intro path
    rw [leafPaths, leafPaths, flatten, flatten]
    induction h with
    | nil => rfl
    | cons head _ ih =>
      rw [flattenEntries, flattenEntries, List.map_append, List.map_append, head.1, ih]
      exact congrArg (· ++ _) (head.2.paths _)

end SameOutline

theorem find?_orderedEntries (entries declared : Mapping Document) (key : String) :
    Mapping.find? (orderedEntries entries declared) key =
      (Mapping.find? entries key).map fun d => orderedLike d (Mapping.find? declared key) := by
  induction entries with
  | nil => rfl
  | cons entry rest ih =>
    obtain ⟨k, d⟩ := entry
    rw [orderedEntries, Mapping.find?_cons, Mapping.find?_cons, ih]
    split
    · next h => rw [h, Option.map_some]
    · rfl

theorem keys_orderedEntries (entries declared : Mapping Document) :
    Mapping.keys (orderedEntries entries declared) = Mapping.keys entries := by
  induction entries with
  | nil => rfl
  | cons entry rest ih => rw [orderedEntries, Mapping.keys_cons, Mapping.keys_cons, ih]

/-- Picking the keys of a mapping whose values are all there follows the mapping. -/
theorem along_pick {α β : Type} {R : α → β → Prop} {entries : Mapping α} {order : Mapping β}
    (h : ∀ entry ∈ order, ∃ a, Mapping.find? entries entry.1 = some a ∧ R a entry.2) :
    Mapping.Along R (pick entries (Mapping.keys order)) order := by
  induction order with
  | nil => exact .nil
  | cons entry rest ih =>
    rw [List.forall_mem_cons] at h
    obtain ⟨⟨a, ha, hR⟩, hrest⟩ := h
    rw [Mapping.keys_cons, pick, ha]
    exact .cons ⟨rfl, hR⟩ (ih hrest)

/-- An object whose keys are among those of a reference has the keys of the reference that it
declares, once it stands in its order. -/
theorem orderedLike_of_subset {entries others : Mapping Document}
    (h : Mapping.keys entries ⊆ Mapping.keys others) :
    orderedLike (.mapping entries) (some (.mapping others)) =
      .mapping (pick (orderedEntries entries others) (Mapping.keys others)) := by
  -- Every key is one of the reference, so no entry is left to stand behind them.
  have hnone : (orderedEntries entries others).filter
      (fun entry => !(Mapping.keys others).contains entry.1) = [] := by
    rw [List.filter_eq_nil_iff]
    intro entry hmem
    have hkey := Mapping.mem_keys_of_mem hmem
    rw [keys_orderedEntries] at hkey
    simpa using h hkey
  rw [orderedLike, referenceEntries, arrange, hnone, List.append_nil]

/-- A mapping with the keys of a reference has its outline once it stands in its order, if all
values do. -/
theorem sameOutline_orderedLike {entries reference : Mapping Document}
    (hnodup : (Mapping.keys reference).Nodup)
    (h : Mapping.Alike (fun d r => SameOutline (orderedLike d (some r)) r) entries reference) :
    SameOutline (orderedLike (.mapping entries) (some (.mapping reference))) (.mapping reference) := by
  rw [orderedLike_of_subset fun key => (h.keys key).mp]
  refine .mapping (along_pick fun entry hmem => ?_)
  have hr : Mapping.find? reference entry.1 = some entry.2 := Mapping.find?_of_mem hnodup hmem
  obtain ⟨d, hd⟩ :=
    Mapping.exists_find?_of_mem_keys ((h.keys entry.1).mpr (Mapping.mem_keys_of_mem hmem))
  refine ⟨orderedLike d (some entry.2), ?_, h.related entry.1 d entry.2 hd hr⟩
  rw [find?_orderedEntries, hd, hr, Option.map_some]

theorem orderedLike_text (s : String) (reference : Option Document) :
    orderedLike (.text s) reference = .text s := by
  rw [orderedLike]
  simp

end DesignTokens
