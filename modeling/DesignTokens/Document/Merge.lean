import DesignTokens.Document.Basic

/-!
# Deep merge

Laying one mapping over another. Where both hold a mapping under a key, the two are merged; any
other value of the upper mapping replaces the lower one as a whole. Keys keep the place they have in
the lower mapping, and new keys follow in the order of the upper one.

## Main definitions

- `deepMerge` — one mapping over another
- `overlay` — one value over what stands in its place
-/

namespace DesignTokens

mutual
/-- One mapping laid over another. -/
def deepMerge : Mapping Document → List (String × Document) → Mapping Document
  | base, [] => base
  | base, (key, value) :: rest =>
    deepMerge (Mapping.set base key (overlay (Mapping.find? base key) value)) rest
  termination_by structural _ upper => upper

/-- One value laid over what stands in its place. -/
def overlay : Option Document → Document → Document
  | some (.mapping base), .mapping upper => .mapping (deepMerge base upper)
  | _, value => value
  termination_by structural _ value => value
end

/-- Mappings laid over each other one after another. -/
def deepMergeAll (base : Mapping Document) (uppers : List (Mapping Document)) : Mapping Document :=
  uppers.foldl deepMerge base

@[simp] theorem deepMerge_nil (base : Mapping Document) : deepMerge base [] = base := by
  simp [deepMerge]

theorem deepMerge_cons (base : Mapping Document) (entry : String × Document)
    (rest : Mapping Document) : deepMerge base (entry :: rest) =
      deepMerge (Mapping.set base entry.1 (overlay (Mapping.find? base entry.1) entry.2)) rest := by
  rw [deepMerge]

/-- What is no mapping takes the place of anything. -/
theorem overlay_of_not_mapping (old : Option Document) {value : Document}
    (h : ∀ upper, value ≠ .mapping upper) : overlay old value = value := by
  cases value with
  | mapping upper => exact absurd rfl (h upper)
  | _ => rw [overlay]; simp

/-- Anything takes the place of what is no mapping. -/
theorem overlay_over_not_mapping {old : Option Document} (h : ∀ base, old ≠ some (.mapping base))
    (value : Document) : overlay old value = value := by
  cases value with
  | mapping upper =>
    rw [overlay]
    intro base upper' hold
    exact absurd hold (h base)
  | _ => exact overlay_of_not_mapping old (by simp)

theorem overlay_mapping (base upper : Mapping Document) :
    overlay (some (.mapping base)) (.mapping upper) = .mapping (deepMerge base upper) := by
  rw [overlay]

/-- A key that the upper mapping does not declare keeps its value. -/
theorem find?_deepMerge_of_not_mem {base upper : Mapping Document} {key : String}
    (h : key ∉ Mapping.keys upper) :
    Mapping.find? (deepMerge base upper) key = Mapping.find? base key := by
  induction upper generalizing base with
  | nil => rw [deepMerge_nil]
  | cons entry rest ih =>
    rw [Mapping.keys_cons, List.mem_cons, not_or] at h
    rw [deepMerge_cons, ih h.2, Mapping.find?_set_of_ne _ _ (Ne.symm h.1)]

end DesignTokens
