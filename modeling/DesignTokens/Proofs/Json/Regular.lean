import DesignTokens.Failure
import DesignTokens.Json.Reader
import DesignTokens.Proofs.Document.Regular
import Mathlib.Tactic.SplitIfs

/-!
# Documents of JSON texts

Whatever a JSON text says, the document that is read from it declares no key twice: of several
entries with one key the last value stands in the place of the first.
-/

namespace DesignTokens.Json

variable {cs rest : List Char} {d : Document}

theorem regular_of_readNumber (h : readNumber cs = .ok (d, rest)) : d.Regular .any := by
  unfold readNumber at h
  dsimp only at h
  split at h
  · simp [fail] at h
  · -- With a fraction or an exponent the number is a float, and without them it is an integer.
    split_ifs at h <;> cases h <;> trivial

theorem regular_of_name? (h : name? cs = some (d, rest)) : d.Regular .any := by
  have hnames : ∀ named ∈ names, named.2.Regular .any := by decide
  obtain ⟨⟨word, value⟩, hmem, hfound⟩ := List.exists_of_findSome?_eq_some h
  dsimp only at hfound
  split at hfound
  · cases hfound
    exact hnames _ hmem
  · simp at hfound

theorem regular_ofEntries {entries : List (String × Document)}
    (h : ∀ entry ∈ entries, entry.2.Regular .any) :
    (Document.mapping (Mapping.ofEntries entries)).Regular .any :=
  Document.regular_mapping.mpr ⟨Mapping.nodup_keys_ofEntries entries, fun _ hmem =>
    h _ (Mapping.mem_of_mem_ofEntries hmem)⟩

/-- What the reader gives for a value, and for the items and the entries behind some others. -/
structure ReadsRegular (fuel : Nat) : Prop where
  value : ∀ {cs d rest}, readValue fuel cs = .ok (d, rest) → d.Regular .any
  items : ∀ {done cs d rest}, (∀ item ∈ done, item.Regular .any) →
    readItems fuel done cs = .ok (d, rest) → d.Regular .any
  entries : ∀ {done cs d rest}, (∀ entry ∈ done, entry.2.Regular .any) →
    readEntries fuel done cs = .ok (d, rest) → d.Regular .any

namespace ReadsRegular

variable {fuel : Nat}

theorem value_succ (ih : ReadsRegular fuel) (h : readValue (fuel + 1) cs = .ok (d, rest)) :
    d.Regular .any := by
  rw [readValue.eq_def] at h
  dsimp only at h
  split at h
  · next _ tail =>
    cases htext : readText ('"' :: tail) with
    | error fault => simp [htext, Except.map] at h
    | ok found =>
      simp only [htext, Except.map] at h
      cases h
      trivial
  · split at h
    · cases h
      exact Document.regular_list.mpr (by simp)
    · exact ih.items (by simp) h
  · split at h
    · cases h
      exact Document.regular_mapping_nil
    · exact ih.entries (by simp) h
  · split at h
    · next found hname =>
      cases h
      exact regular_of_name? hname
    · exact regular_of_readNumber h

theorem items_succ (ih : ReadsRegular fuel) {done : List Document}
    (hdone : ∀ item ∈ done, item.Regular .any)
    (h : readItems (fuel + 1) done cs = .ok (d, rest)) : d.Regular .any := by
  rw [readItems] at h
  obtain ⟨⟨item, left⟩, hvalue, h⟩ := bind_eq_ok_iff.mp h
  have hdone : ∀ item' ∈ item :: done, item'.Regular .any :=
    List.forall_mem_cons.mpr ⟨ih.value hvalue, hdone⟩
  dsimp only at h
  split at h
  · cases h
    exact Document.regular_list.mpr fun item' hmem => hdone item' (List.mem_reverse.mp hmem)
  · exact ih.items hdone h
  · simp [fail] at h

theorem entries_succ (ih : ReadsRegular fuel) {done : List (String × Document)}
    (hdone : ∀ entry ∈ done, entry.2.Regular .any)
    (h : readEntries (fuel + 1) done cs = .ok (d, rest)) : d.Regular .any := by
  rw [readEntries.eq_def] at h
  dsimp only at h
  split at h
  · obtain ⟨⟨key, left⟩, -, h⟩ := bind_eq_ok_iff.mp h
    dsimp only at h
    split at h
    · obtain ⟨⟨value, left⟩, hvalue, h⟩ := bind_eq_ok_iff.mp h
      have hdone : ∀ entry ∈ (key, value) :: done, entry.2.Regular .any :=
        List.forall_mem_cons.mpr ⟨ih.value hvalue, hdone⟩
      dsimp only at h
      split at h
      · cases h
        exact regular_ofEntries fun entry hmem => hdone entry (List.mem_reverse.mp hmem)
      · exact ih.entries hdone h
      · simp [fail] at h
    · simp [fail] at h
  · simp [fail] at h

end ReadsRegular

theorem readsRegular (fuel : Nat) : ReadsRegular fuel := by
  induction fuel with
  | zero => constructor <;> simp [readValue, readItems, readEntries, fail]
  | succ fuel ih => exact ⟨ih.value_succ, ih.items_succ, ih.entries_succ⟩

theorem regular_of_read (h : read cs = .ok d) : d.Regular .any := by
  unfold read at h
  split at h
  · simp [fail] at h
  · obtain ⟨⟨value, left⟩, hvalue, h⟩ := bind_eq_ok_iff.mp h
    dsimp only at h
    split at h
    · cases h
      exact (readsRegular _).value hvalue
    · simp [fail] at h

end DesignTokens.Json
