import DesignTokens.Document.Mapping
import Mathlib.Data.List.Forall2
import Mathlib.Logic.Function.Basic

/-!
# Mappings with the same keys

Two mappings are alike when they declare the same keys, in any order, and the values under a key
belong together. Names and kinds of colours, semantic roles and the layout of documents are compared
this way.

## Main definitions

- `SameKeys` — two lists hold the same keys
- `Mapping.Alike` — the same keys, with related values under each of them
- `Mapping.Along` — the same keys in the same order, with related values
-/

namespace DesignTokens

/-- Two lists hold the same keys. -/
def SameKeys (keys others : List String) : Prop :=
  ∀ key, key ∈ keys ↔ key ∈ others

namespace SameKeys

variable {keys others more : List String}

theorem refl (keys : List String) : SameKeys keys keys := fun _ => Iff.rfl

theorem symm (h : SameKeys keys others) : SameKeys others keys := fun key => (h key).symm

theorem trans (h : SameKeys keys others) (h' : SameKeys others more) : SameKeys keys more :=
  fun key => (h key).trans (h' key)

end SameKeys

section Forall₂

variable {α β : Type} {R : α → β → Prop} {l : List α} {l' : List β}

theorem exists_right_of_forall₂ (h : List.Forall₂ R l l') {a : α} (ha : a ∈ l) :
    ∃ b ∈ l', R a b := by
  induction h with
  | nil => simp at ha
  | cons head _ ih =>
    rcases List.mem_cons.mp ha with rfl | ha
    · exact ⟨_, List.mem_cons_self, head⟩
    · obtain ⟨b, hb, hab⟩ := ih ha
      exact ⟨b, List.mem_cons_of_mem _ hb, hab⟩

theorem exists_left_of_forall₂ (h : List.Forall₂ R l l') {b : β} (hb : b ∈ l') :
    ∃ a ∈ l, R a b :=
  exists_right_of_forall₂ h.flip hb

theorem exists_forall₂ (h : ∀ a ∈ l, ∃ b, R a b) : ∃ l', List.Forall₂ R l l' := by
  induction l with
  | nil => exact ⟨[], .nil⟩
  | cons a rest ih =>
    rw [List.forall_mem_cons] at h
    obtain ⟨b, hb⟩ := h.1
    obtain ⟨rest', hrest⟩ := ih h.2
    exact ⟨b :: rest', .cons hb hrest⟩

end Forall₂

namespace Mapping

variable {α β γ δ : Type} {R : α → β → Prop} {m : Mapping α} {n : Mapping β}

/-- The same keys in any order, with related values under each of them. -/
structure Alike (R : α → β → Prop) (m : Mapping α) (n : Mapping β) : Prop where
  keys : SameKeys (Mapping.keys m) (Mapping.keys n)
  related : ∀ key a b, find? m key = some a → find? n key = some b → R a b

theorem exists_find?_of_mem_keys {key : String} (h : key ∈ keys m) : ∃ a, find? m key = some a :=
  Option.isSome_iff_exists.mp ((find?_isSome_iff m key).mpr h)

theorem mem_keys_of_find? {key : String} {a : α} (h : find? m key = some a) : key ∈ keys m :=
  mem_keys_of_mem (mem_of_find? h)

/-- Under each key both hold nothing, or related values. -/
theorem alike_iff : Alike R m n ↔ ∀ key, Option.Rel R (find? m key) (find? n key) := by
  constructor
  · intro h key
    by_cases hm : key ∈ keys m
    · obtain ⟨a, ha⟩ := exists_find?_of_mem_keys hm
      obtain ⟨b, hb⟩ := exists_find?_of_mem_keys ((h.keys key).mp hm)
      rw [ha, hb]
      exact .some (h.related key a b ha hb)
    · have hn : key ∉ keys n := fun hn => hm ((h.keys key).mpr hn)
      rw [(find?_eq_none_iff m key).mpr hm, (find?_eq_none_iff n key).mpr hn]
      exact .none
  · intro h
    constructor
    · intro key
      rw [← find?_isSome_iff, ← find?_isSome_iff]
      have hkey := h key
      cases hm : find? m key <;> cases hn : find? n key <;> rw [hm, hn] at hkey <;>
        first | rfl | cases hkey
    · intro key a b ha hb
      have hkey := h key
      rw [ha, hb] at hkey
      cases hkey with
      | some hab => exact hab

namespace Alike

theorem exists_right (h : Alike R m n) {key : String} {a : α} (ha : find? m key = some a) :
    ∃ b, find? n key = some b ∧ R a b := by
  obtain ⟨b, hb⟩ := exists_find?_of_mem_keys ((h.keys key).mp (mem_keys_of_find? ha))
  exact ⟨b, hb, h.related key a b ha hb⟩

theorem refl {R : α → α → Prop} (h : ∀ key a, find? m key = some a → R a a) : Alike R m m where
  keys := SameKeys.refl _
  related key a _ ha hb := Option.some.inj (ha.symm.trans hb) ▸ h key a ha

theorem symm (h : Alike R m n) : Alike (fun b a => R a b) n m where
  keys := h.keys.symm
  related key b a hb ha := h.related key a b ha hb

theorem trans {S : β → γ → Prop} {o : Mapping γ} (h : Alike R m n) (h' : Alike S n o) :
    Alike (fun a c => ∃ b, R a b ∧ S b c) m o where
  keys := h.keys.trans h'.keys
  related key _ c ha hc := by
    obtain ⟨b, hb, hab⟩ := h.exists_right ha
    exact ⟨b, hab, h'.related key b c hb hc⟩

/-- Values that stand under one key on both sides may be related in another way. -/
theorem imp {S : α → β → Prop} (h : Alike R m n)
    (himp : ∀ key a b, find? m key = some a → find? n key = some b → R a b → S a b) :
    Alike S m n where
  keys := h.keys
  related key a b ha hb := himp key a b ha hb (h.related key a b ha hb)

end Alike

/-- Other values under the same keys. -/
theorem alike_mapValues_iff {R : γ → δ → Prop} (f : α → γ) (g : β → δ) :
    Alike R (mapValues f m) (mapValues g n) ↔ Alike (fun a b => R (f a) (g b)) m n := by
  constructor
  · rintro ⟨hkeys, hrelated⟩
    refine ⟨by simpa using hkeys, fun key a b ha hb => hrelated key _ _ ?_ ?_⟩
    · rw [find?_mapValues, ha, Option.map_some]
    · rw [find?_mapValues, hb, Option.map_some]
  · rintro ⟨hkeys, hrelated⟩
    refine ⟨by simpa using hkeys, fun key c d hc hd => ?_⟩
    rw [find?_mapValues] at hc hd
    obtain ⟨a, ha, rfl⟩ := Option.map_eq_some_iff.mp hc
    obtain ⟨b, hb, rfl⟩ := Option.map_eq_some_iff.mp hd
    exact hrelated key a b ha hb

/-- The same keys in the same order, with related values. -/
def Along (R : α → β → Prop) (m : Mapping α) (n : Mapping β) : Prop :=
  List.Forall₂ (fun a b => a.1 = b.1 ∧ R a.2 b.2) m n

namespace Along

theorem keys_eq (h : Along R m n) : keys m = keys n := by
  induction h with
  | nil => rfl
  | cons head _ ih => rw [keys_cons, keys_cons, head.1, ih]

theorem symm (h : Along R m n) : Along (fun b a => R a b) n m := by
  induction h with
  | nil => exact .nil
  | cons head _ ih => exact .cons ⟨head.1.symm, head.2⟩ ih

theorem eq {m n : Mapping α} (h : Along Eq m n) : m = n := by
  induction h with
  | nil => rfl
  | cons head _ ih => rw [ih, Prod.ext head.1 head.2]

/-- The same keys in the same order, none of them twice, with related values under each of them. -/
theorem of_find? (hkeys : keys m = keys n) (hnodup : (keys m).Nodup)
    (h : ∀ key a b, find? m key = some a → find? n key = some b → R a b) : Along R m n := by
  induction m generalizing n with
  | nil =>
    rw [List.map_eq_nil_iff.mp hkeys.symm]
    exact .nil
  | cons entry rest ih =>
    cases n with
    | nil => cases hkeys
    | cons other more =>
      obtain ⟨k, a⟩ := entry
      obtain ⟨k', b⟩ := other
      obtain ⟨rfl, hmore⟩ : k = k' ∧ keys rest = keys more := List.cons.inj hkeys
      obtain ⟨fresh, hrest⟩ := List.nodup_cons.mp hnodup
      refine .cons ⟨rfl, h k a b (by simp [find?_cons]) (by simp [find?_cons])⟩ ?_
      refine ih hmore hrest fun key a' b' ha hb => ?_
      -- The first key is not found again behind it.
      have hne : k ≠ key := fun hk => fresh (hk ▸ mem_keys_of_find? ha)
      exact h key a' b' (by rw [find?_cons, if_neg hne, ha]) (by rw [find?_cons, if_neg hne, hb])

/-- Related values may be set under one key on both sides. -/
theorem set (h : Along R m n) (key : String) {a : α} {b : β} (hab : R a b) :
    Along R (Mapping.set m key a) (Mapping.set n key b) := by
  induction h with
  | nil => exact .cons ⟨rfl, hab⟩ .nil
  | @cons first second _ _ head tail ih =>
    obtain ⟨k, old⟩ := first
    obtain ⟨_, other⟩ := second
    obtain ⟨rfl, hold⟩ := head
    rw [Mapping.set, Mapping.set]
    split
    · exact .cons ⟨rfl, hab⟩ tail
    · exact .cons ⟨rfl, hold⟩ ih

/-- Every entry has its counterpart. -/
theorem exists_right (h : Along R m n) {entry : String × α} (hmem : entry ∈ m) :
    ∃ b, (entry.1, b) ∈ n ∧ R entry.2 b := by
  obtain ⟨⟨_, b⟩, hb, rfl, hab⟩ := exists_right_of_forall₂ h hmem
  exact ⟨b, hb, hab⟩

theorem exists_left (h : Along R m n) {entry : String × β} (hmem : entry ∈ n) :
    ∃ a, (entry.1, a) ∈ m ∧ R a entry.2 :=
  h.symm.exists_right hmem

theorem alike (h : Along R m n) : Alike R m n := by
  refine ⟨h.keys_eq ▸ SameKeys.refl _, ?_⟩
  induction h with
  | nil => simp
  | @cons first second _ _ head _ ih =>
    obtain ⟨k, a⟩ := first
    obtain ⟨k', b⟩ := second
    obtain ⟨rfl, hab⟩ := head
    intro key a' b' ha hb
    rw [find?_cons] at ha hb
    split at ha
    · cases ha
      rw [if_pos ‹_›] at hb
      cases hb
      exact hab
    · rw [if_neg ‹_›] at hb
      exact ih key a' b' ha hb

end Along

/-- Mappings with the same keys in the same order and the same value under each key are equal. -/
theorem eq_of_find? {m n : Mapping α} (hkeys : keys m = keys n) (hnodup : (keys m).Nodup)
    (h : ∀ key, find? m key = find? n key) : m = n :=
  (Along.of_find? hkeys hnodup fun key _ _ ha hb =>
    Option.some.inj (ha.symm.trans ((h key).trans hb))).eq

/-- The same values under other keys. -/
def rename (f : String → String) (m : Mapping α) : Mapping α :=
  m.map fun entry => (f entry.1, entry.2)

theorem find?_rename {f : String → String} (hf : f.Injective) (m : Mapping α) (key : String) :
    find? (rename f m) (f key) = find? m key := by
  induction m with
  | nil => rfl
  | cons entry rest ih =>
    obtain ⟨k, a⟩ := entry
    rw [rename, List.map_cons, find?_cons, find?_cons, ← rename, ih]
    simp only [hf.eq_iff]

theorem find?_rename_of_ne {f : String → String} {key : String} (h : ∀ k, f k ≠ key)
    (m : Mapping α) : find? (rename f m) key = none := by
  rw [find?_eq_none_iff]
  intro hmem
  simp only [rename, Mapping.keys, List.map_map, List.mem_map, Function.comp_apply] at hmem
  obtain ⟨entry, -, hkey⟩ := hmem
  exact h entry.1 hkey

/-- Mappings put side by side under keys that never meet are alike when each is. -/
theorem alike_append_rename_iff {f g : String → String} (hf : f.Injective) (hg : g.Injective)
    (apart : ∀ k k', f k ≠ g k') {m₁ m₂ : Mapping α} {n₁ n₂ : Mapping β} :
    Alike R (rename f m₁ ++ rename g m₂) (rename f n₁ ++ rename g n₂) ↔
      Alike R m₁ n₁ ∧ Alike R m₂ n₂ := by
  have left : ∀ {γ : Type} (m m' : Mapping γ) key,
      find? (rename f m ++ rename g m') (f key) = find? m key := by
    intro γ m m' key
    rw [find?_append, find?_rename hf, find?_rename_of_ne fun k => (apart key k).symm,
      Option.or_none]
  have right : ∀ {γ : Type} (m m' : Mapping γ) key,
      find? (rename f m ++ rename g m') (g key) = find? m' key := by
    intro γ m m' key
    rw [find?_append, find?_rename hg, find?_rename_of_ne fun k => apart k key, Option.none_or]
  simp only [alike_iff]
  constructor
  · intro h
    exact ⟨fun key => by simpa only [left] using h (f key),
      fun key => by simpa only [right] using h (g key)⟩
  -- A key of the whole belongs to one side, to the other, or to neither.
  · rintro ⟨hm, hn⟩ key
    by_cases hkey : ∃ k, f k = key
    · obtain ⟨k, rfl⟩ := hkey
      simpa only [left] using hm k
    by_cases hkey' : ∃ k, g k = key
    · obtain ⟨k, rfl⟩ := hkey'
      simpa only [right] using hn k
    · simp only [find?_append, find?_rename_of_ne (not_exists.mp hkey),
        find?_rename_of_ne (not_exists.mp hkey'), Option.none_or]
      exact .none

end Mapping

end DesignTokens
