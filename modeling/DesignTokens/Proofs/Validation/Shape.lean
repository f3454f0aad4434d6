import DesignTokens.Proofs.Document.Alike
import DesignTokens.Validation

/-!
# Shapes of themes

The faults between two shapes are about names that only one of them holds and about names with
different keys below. No fault is left exactly when both hold the same names with the same keys
below each.

## Main definitions

- `part` — the entries of one part of a theme
- `SameShape` — the same names, with the same keys below each
-/

namespace DesignTokens

/-- The same names, with the same keys below each of them. -/
def SameShape (shape other : Mapping (List String)) : Prop :=
  Mapping.Alike SameKeys shape other

@[simp] theorem mem_sorted {names : List String} {name : String} :
    name ∈ sorted names ↔ name ∈ names :=
  List.mem_mergeSort

@[simp] theorem sorted_eq_nil_iff {names : List String} : sorted names = [] ↔ names = [] := by
  rw [← List.length_eq_zero_iff, sorted, List.length_mergeSort, List.length_eq_zero_iff]

/-- The keys that only the first list holds. -/
theorem filter_not_contains_eq_nil_iff {keys others : List String} :
    keys.filter (!others.contains ·) = [] ↔ ∀ key ∈ keys, key ∈ others := by
  simp [List.filter_eq_nil_iff]

theorem keyDifference_eq_nil_iff {keys others : List String} :
    keyDifference keys others = [] ↔ SameKeys keys others := by
  rw [keyDifference, List.append_eq_nil_iff, filter_not_contains_eq_nil_iff,
    filter_not_contains_eq_nil_iff]
  exact ⟨fun h key => ⟨h.1 key, h.2 key⟩, fun h => ⟨fun key => (h key).mp, fun key => (h key).mpr⟩⟩

theorem shapeFaults_eq_nil_iff {reference mode : String} {expected shape : Mapping (List String)} :
    shapeFaults reference expected mode shape = [] ↔ SameShape expected shape := by
  simp only [shapeFaults, List.append_eq_nil_iff, List.map_eq_nil_iff, sorted_eq_nil_iff,
    filter_not_contains_eq_nil_iff, List.filterMap_eq_nil_iff, mem_sorted, List.mem_filter,
    List.contains_iff_mem, ite_eq_left_iff, List.isEmpty_iff, keyDifference_eq_nil_iff,
    reduceCtorEq, imp_false, not_not]
  constructor
  · rintro ⟨⟨hmissing, hunknown⟩, hshared⟩
    refine ⟨fun key => ⟨hmissing key, hunknown key⟩, fun key keys others hkeys hothers => ?_⟩
    have hboth := hshared key ⟨Mapping.mem_keys_of_find? hkeys, Mapping.mem_keys_of_find? hothers⟩
    rwa [hkeys, hothers] at hboth
  · rintro ⟨hkeys, hbelow⟩
    refine ⟨⟨fun key => (hkeys key).mp, fun key => (hkeys key).mpr⟩, ?_⟩
    rintro key ⟨hexpected, hshape⟩
    obtain ⟨keys, hkeys⟩ := Mapping.exists_find?_of_mem_keys hexpected
    obtain ⟨others, hothers⟩ := Mapping.exists_find?_of_mem_keys hshape
    rw [hkeys, hothers]
    exact hbelow key keys others hkeys hothers

/-- The keys below a value, none if it is no mapping. -/
def Document.keys (d : Document) : List String :=
  (d.entries?.map Mapping.keys).getD []

/-- The entries of one part of a theme, none if it is no mapping. -/
def part (key : String) (theme : Mapping Document) : Mapping Document :=
  ((Mapping.find? theme key).bind Document.entries?).getD []

theorem partShape_eq (key : String) (theme : Mapping Document) : partShape key theme =
    Mapping.rename (key ++ "." ++ ·) (Mapping.mapValues Document.keys (part key theme)) := by
  rw [partShape, part]
  cases Mapping.find? theme key with
  | none => rfl
  | some d =>
    cases d with
    | mapping entries =>
      induction entries with
      | nil => rfl
      | cons entry rest ih =>
        simp_all [Mapping.rename, Mapping.mapValues, Document.entries?, Document.keys]
    | _ => rfl

/-- Two themes have one shape when their colours and their semantic categories do. -/
theorem sameShape_themeShape_iff (theme other : Mapping Document) :
    SameShape (themeShape theme) (themeShape other) ↔
      Mapping.Alike (fun d d' => SameKeys d.keys d'.keys) (part "colors" theme) (part "colors" other) ∧
      Mapping.Alike (fun d d' => SameKeys d.keys d'.keys) (part "semantic" theme)
        (part "semantic" other) := by
  -- Names of colours and of categories start differently, whatever dots follow.
  have apart : ∀ k k' : String, "colors" ++ "." ++ k ≠ "semantic" ++ "." ++ k' := by
    intro k k' h
    have hchars := congrArg String.toList h
    simp [String.toList_append] at hchars
  rw [SameShape, themeShape, themeShape, partShape_eq, partShape_eq, partShape_eq, partShape_eq,
    Mapping.alike_append_rename_iff (by simp [Function.Injective]) (by simp [Function.Injective]) apart,
    Mapping.alike_mapValues_iff, Mapping.alike_mapValues_iff]

end DesignTokens
