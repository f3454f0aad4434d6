import DesignTokens.Proofs.Document.Precedence

/-!
# Texts over leaves

A document that holds nothing but texts where another one has leaves changes the values of these leaves
and nothing else: laid over the other one it gives a document with the same keys in the same order at
every level.

## Main definitions

- `Document.Retexts` — texts where the other document has leaves, and nothing else
- `Document.Retexted` — the same document with texts in the place of some leaves
-/

namespace DesignTokens

variable {rule : LeafRule}

namespace Document

/-- Every value of a document is a text where the other one has a leaf, or a mapping where it has a
mapping. -/
def Retexts (upper lower : Document) : Prop :=
  ∀ path value, upper.at? path = some value →
    (∃ s, value = .text s) ∧ lower.HoldsLeaf path ∨
      value.isMapping = true ∧ lower.HoldsMapping path

/-- The same keys in the same order at every level, and leaves that are as before or texts. -/
inductive Retexted : Document → Document → Prop
  | kept {leaf : Document} (h : leaf.isMapping = false) : Retexted leaf leaf
  | text {leaf : Document} (h : leaf.isMapping = false) (s : String) : Retexted leaf (.text s)
  | mapping {entries others : Mapping Document}
      (hkeys : Mapping.keys entries = Mapping.keys others)
      (h : ∀ key d d', Mapping.find? entries key = some d → Mapping.find? others key = some d' →
        Retexted d d') : Retexted (.mapping entries) (.mapping others)

theorem Retexted.refl (d : Document) : Retexted d d := by
  induction d using byParts with
  | mapping entries ih =>
    refine .mapping rfl fun key d d' hd hd' => ?_
    obtain rfl := Option.some.inj (hd.symm.trans hd')
    exact ih (key, d) (Mapping.mem_of_find? hd)
  | _ => exact .kept rfl

variable {upper lower : Document} {entries base : Mapping Document}

theorem retexts_text (s : String) (h : lower.isMapping = false) : (text s).Retexts lower := by
  intro path value hvalue
  cases path with
  | nil =>
    rw [at?_nil, Option.some.injEq] at hvalue
    exact .inl ⟨⟨s, hvalue.symm⟩, lower, at?_nil _, h⟩
  | cons key rest => simp [get?, entries?] at hvalue

/-- A mapping has texts over leaves when the other document is a mapping and each of its values has
texts over leaves of the value under the same key. -/
theorem retexts_mapping_iff : (mapping entries).Retexts lower ↔ ∃ base, lower = .mapping base ∧
    ∀ key d, Mapping.find? entries key = some d →
      ∃ old, Mapping.find? base key = some old ∧ d.Retexts old := by
  have below {base : Mapping Document} {key : String} {old : Document}
      (hold : Mapping.find? base key = some old) (rest : List String) :
      (mapping base).at? (key :: rest) = old.at? rest := by
    rw [at?_cons, get?_mapping, hold, Option.bind_some]
  constructor
  · intro h
    obtain ⟨⟨_, htext⟩, -⟩ | ⟨-, base, hbase⟩ := h [] _ (at?_nil _)
    · cases htext
    obtain rfl := Option.some.inj ((at?_nil lower).symm.trans hbase)
    refine ⟨base, rfl, fun key d hd => ?_⟩
    have hkey : (mapping base).at? [key] ≠ none := by
      obtain ⟨-, _, hold, -⟩ | ⟨-, _, hold⟩ := h [key] d (by rw [below hd, at?_nil]) <;> simp [hold]
    cases hold : Mapping.find? base key with
    | none => simp [hold] at hkey
    | some old =>
      refine ⟨old, rfl, fun rest value hvalue => ?_⟩
      have hbelow := h (key :: rest) value (by rw [below hd, hvalue])
      rwa [HoldsLeaf, HoldsMapping, below hold] at hbelow
  · rintro ⟨base, rfl, h⟩ path value hvalue
    cases path with
    | nil =>
      rw [at?_nil, Option.some.injEq] at hvalue
      exact .inr ⟨hvalue ▸ rfl, base, at?_nil _⟩
    | cons key rest =>
      rw [at?_cons, get?_mapping, Option.bind_eq_some_iff] at hvalue
      obtain ⟨d, hd, hvalue⟩ := hvalue
      obtain ⟨old, hold, hbelow⟩ := h key d hd
      rw [HoldsLeaf, HoldsMapping, below hold]
      exact hbelow rest value hvalue

theorem retexts_single {key : String} {d old : Document} (hold : Mapping.find? base key = some old)
    (h : d.Retexts old) : (mapping [(key, d)]).Retexts (mapping base) := by
  refine retexts_mapping_iff.mpr ⟨base, rfl, fun other value hvalue => ?_⟩
  rw [Mapping.find?_cons] at hvalue
  split at hvalue
  · next hkey =>
    subst hkey
    cases hvalue
    exact ⟨old, hold, h⟩
  · cases hvalue

/-- Texts laid over leaves change these leaves only. -/
theorem retexted_overlay (hupper : upper.Regular rule) (h : upper.Retexts lower) :
    lower.Retexted (overlay (some lower) upper) := by
  induction upper using byParts generalizing lower with
  | mapping entries ih =>
    obtain ⟨base, rfl, hvalues⟩ := retexts_mapping_iff.mp h
    rw [overlay_mapping]
    refine .mapping ?_ fun key d d' hd hd' => ?_
    · -- No key is new.
      rw [keys_deepMerge hupper.nodup_keys, List.filter_eq_nil_iff.mpr, List.append_nil]
      intro key hkey
      obtain ⟨d, hd⟩ := Mapping.exists_find?_of_mem_keys hkey
      obtain ⟨old, hold, -⟩ := hvalues key d hd
      simpa using Mapping.mem_keys_of_find? hold
    · rw [find?_deepMerge hupper.nodup_keys, hd] at hd'
      cases hvalue : Mapping.find? entries key with
      | none =>
        rw [hvalue] at hd'
        cases hd'
        exact .refl d
      | some value =>
        rw [hvalue] at hd'
        cases hd'
        obtain ⟨old, hold, hretexts⟩ := hvalues key value hvalue
        obtain rfl := Option.some.inj (hd.symm.trans hold)
        exact ih (key, value) (Mapping.mem_of_find? hvalue) (hupper.find? hvalue) hretexts
  | _ =>
    obtain ⟨⟨s, hs⟩, leaf, hleaf, hplain⟩ | ⟨hmapping, -⟩ := h [] _ (at?_nil _)
    · rw [hs, overlay_of_not_mapping _ (by simp)]
      obtain rfl := Option.some.inj ((at?_nil lower).symm.trans hleaf)
      exact .text hplain s
    · cases hmapping

end Document

end DesignTokens
