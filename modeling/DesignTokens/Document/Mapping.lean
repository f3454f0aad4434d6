/-!
# Ordered mappings

A mapping is a list of entries in the order in which they were first declared. Writing a declared
key keeps its place; writing a new key puts it last.

## Main definitions

- `Mapping` — entries in order
- `Mapping.find?` — the value under a key
- `Mapping.set` — writes one entry
- `Mapping.setAll` — writes every entry of another mapping
- `Mapping.keys` — the keys in order
- `Mapping.mapValues` — the same keys with other values
-/

namespace DesignTokens

/-- Entries in the order of their declaration. -/
abbrev Mapping (α : Type) := List (String × α)

namespace Mapping

variable {α β : Type}

/-- The value under a key. -/
def find? : Mapping α → String → Option α
  | [], _ => none
  | (k, v) :: rest, key => if k = key then some v else find? rest key

def has (m : Mapping α) (key : String) : Bool :=
  (find? m key).isSome

def keys (m : Mapping α) : List String :=
  m.map Prod.fst

/-- Writes one entry: a declared key keeps its place, a new key goes last. -/
def set : Mapping α → String → α → Mapping α
  | [], key, value => [(key, value)]
  | (k, v) :: rest, key, value =>
    if k = key then (k, value) :: rest else (k, v) :: set rest key value

/-- Writes every entry of another mapping, in its order. -/
def setAll (m : Mapping α) : Mapping α → Mapping α
  | [] => m
  | (k, v) :: rest => setAll (set m k v) rest

/-- A mapping that holds the last value of each key, in the place of its first. -/
def ofEntries (entries : List (String × α)) : Mapping α :=
  setAll [] entries

/-- The same keys with other values. -/
def mapValues (f : α → β) : Mapping α → Mapping β
  | [] => []
  | (k, v) :: rest => (k, f v) :: mapValues f rest

/-- The entries under other keys. -/
def erase (m : Mapping α) (key : String) : Mapping α :=
  m.filter fun entry => entry.1 ≠ key

@[simp] theorem find?_nil (key : String) : find? ([] : Mapping α) key = none := rfl

theorem find?_cons (k : String) (v : α) (rest : Mapping α) (key : String) :
    find? ((k, v) :: rest) key = if k = key then some v else find? rest key := rfl

@[simp] theorem find?_set_self (m : Mapping α) (key : String) (value : α) :
    find? (set m key value) key = some value := by
  induction m with
  | nil => simp [set, find?]
  | cons entry rest ih =>
    obtain ⟨k, v⟩ := entry
    by_cases h : k = key <;> simp [set, find?, h, ih]

theorem find?_set_of_ne (m : Mapping α) {key other : String} (value : α) (h : key ≠ other) :
    find? (set m key value) other = find? m other := by
  induction m with
  | nil => simp [set, find?, h]
  | cons entry rest ih =>
    obtain ⟨k, v⟩ := entry
    by_cases hk : k = key
    · subst hk; simp [set, find?, h]
    · simp [set, find?, hk, ih]

theorem find?_isSome_iff (m : Mapping α) (key : String) :
    (find? m key).isSome = true ↔ key ∈ keys m := by
  induction m with
  | nil => simp [keys]
  | cons entry rest ih =>
    obtain ⟨k, v⟩ := entry
    by_cases hk : k = key
    · simp [find?, keys, hk]
    · have hk' : ¬ key = k := fun h => hk h.symm
      simpa [find?, keys, hk, hk'] using ih

theorem has_iff (m : Mapping α) (key : String) : has m key = true ↔ key ∈ keys m :=
  find?_isSome_iff m key

theorem find?_eq_none_iff (m : Mapping α) (key : String) :
    find? m key = none ↔ key ∉ keys m := by
  rw [← find?_isSome_iff]
  simp

theorem mem_of_find? {m : Mapping α} {key : String} {value : α}
    (h : find? m key = some value) : (key, value) ∈ m := by
  induction m with
  | nil => simp at h
  | cons entry rest ih =>
    obtain ⟨k, v⟩ := entry
    rw [find?_cons] at h
    split at h
    · next hk =>
      cases h
      rw [hk]
      exact List.mem_cons_self
    · exact List.mem_cons_of_mem _ (ih h)

theorem mem_keys_of_mem {m : Mapping α} {entry : String × α} (h : entry ∈ m) :
    entry.1 ∈ keys m :=
  List.mem_map_of_mem h

/-- Where no key stands twice, every entry is the one that is found under its key. -/
theorem find?_of_mem {m : Mapping α} (nodup : (keys m).Nodup) {key : String} {value : α}
    (h : (key, value) ∈ m) : find? m key = some value := by
  induction m with
  | nil => simp at h
  | cons entry rest ih =>
    obtain ⟨k, v⟩ := entry
    obtain ⟨fresh, nodup⟩ := List.nodup_cons.mp nodup
    rcases List.mem_cons.mp h with h | h
    · cases h
      simp [find?]
    · have hne : k ≠ key := by
        have hmem := mem_keys_of_mem h
        rintro rfl
        exact fresh hmem
      rw [find?_cons, if_neg hne]
      exact ih nodup h

/-- Where one entry only contributes anything, the contributions are those of that entry. -/
theorem flatMap_of_find? {m : Mapping α} (nodup : (keys m).Nodup) {key : String} {value : α}
    (h : find? m key = some value) {f : String × α → List β}
    (others : ∀ entry ∈ m, entry.1 ≠ key → f entry = []) : m.flatMap f = f (key, value) := by
  induction m with
  | nil => cases h
  | cons entry rest ih =>
    obtain ⟨k, v⟩ := entry
    obtain ⟨fresh, hrest⟩ := List.nodup_cons.mp nodup
    obtain ⟨hentry, hothers⟩ := List.forall_mem_cons.mp others
    rw [find?_cons] at h
    rw [List.flatMap_cons]
    split at h
    · next hkey =>
      cases h
      subst hkey
      have hnone : rest.flatMap f = [] := by
        refine List.flatMap_eq_nil_iff.mpr fun entry hmem => hothers entry hmem ?_
        have hkey := mem_keys_of_mem hmem
        exact fun heq => fresh (heq ▸ hkey)
      rw [hnone, List.append_nil]
    · next hkey => rw [hentry hkey, ih hrest h hothers, List.nil_append]

theorem find?_append (m n : Mapping α) (key : String) :
    find? (m ++ n) key = (find? m key).or (find? n key) := by
  induction m with
  | nil => rfl
  | cons entry rest ih =>
    obtain ⟨k, v⟩ := entry
    rw [List.cons_append, find?_cons, find?_cons, ih]
    split <;> rfl

@[simp] theorem keys_nil : keys ([] : Mapping α) = [] := rfl

@[simp] theorem keys_cons (entry : String × α) (rest : Mapping α) :
    keys (entry :: rest) = entry.1 :: keys rest := rfl

@[simp] theorem keys_append (m n : Mapping α) : keys (m ++ n) = keys m ++ keys n :=
  List.map_append

@[simp] theorem keys_mapValues (f : α → β) (m : Mapping α) :
    keys (mapValues f m) = keys m := by
  induction m with
  | nil => rfl
  | cons entry rest ih => simpa [mapValues, keys] using ih

theorem find?_mapValues (f : α → β) (m : Mapping α) (key : String) :
    find? (mapValues f m) key = (find? m key).map f := by
  induction m with
  | nil => rfl
  | cons entry rest ih =>
    obtain ⟨k, v⟩ := entry
    rw [mapValues, find?_cons, find?_cons, ih]
    split <;> rfl

theorem mem_mapValues {f : α → β} {m : Mapping α} {entry : String × β} :
    entry ∈ mapValues f m ↔ ∃ value, (entry.1, value) ∈ m ∧ f value = entry.2 := by
  induction m with
  | nil => simp [mapValues]
  | cons first rest ih =>
    obtain ⟨k, v⟩ := first
    obtain ⟨key, value⟩ := entry
    simp only [mapValues, List.mem_cons, ih, Prod.mk.injEq]
    constructor
    · rintro (⟨rfl, rfl⟩ | ⟨old, h, hf⟩)
      · exact ⟨v, .inl ⟨rfl, rfl⟩, rfl⟩
      · exact ⟨old, .inr h, hf⟩
    · rintro ⟨old, ⟨rfl, rfl⟩ | h, hf⟩
      · exact .inl ⟨rfl, hf.symm⟩
      · exact .inr ⟨old, h, hf⟩

theorem mem_mapValues_of_mem {f : α → β} {m : Mapping α} {key : String} {value : α}
    (h : (key, value) ∈ m) : (key, f value) ∈ mapValues f m :=
  mem_mapValues.mpr ⟨value, h, rfl⟩

theorem mapValues_eq_map (f : α → β) (m : Mapping α) :
    mapValues f m = m.map fun entry => (entry.1, f entry.2) := by
  induction m with
  | nil => rfl
  | cons entry rest ih => rw [mapValues, List.map_cons, ih]

theorem mapValues_eq_self {f : α → α} {m : Mapping α} (h : ∀ entry ∈ m, f entry.2 = entry.2) :
    mapValues f m = m := by
  induction m with
  | nil => rfl
  | cons entry rest ih =>
    obtain ⟨k, v⟩ := entry
    rw [List.forall_mem_cons] at h
    rw [mapValues, h.1, ih h.2]

theorem mapValues_congr {f g : α → β} {m : Mapping α} (h : ∀ entry ∈ m, f entry.2 = g entry.2) :
    mapValues f m = mapValues g m := by
  induction m with
  | nil => rfl
  | cons entry rest ih =>
    obtain ⟨key, value⟩ := entry
    rw [List.forall_mem_cons] at h
    rw [mapValues, mapValues, h.1, ih h.2]

theorem mapValues_mapValues {γ : Type} (g : β → γ) (f : α → β) (m : Mapping α) :
    mapValues g (mapValues f m) = mapValues (g ∘ f) m := by
  induction m with
  | nil => rfl
  | cons entry rest ih =>
    obtain ⟨key, value⟩ := entry
    rw [mapValues, mapValues, mapValues, ih]
    rfl

/-- Writing what is there already changes nothing. -/
theorem set_of_find? {m : Mapping α} {key : String} {value : α}
    (h : find? m key = some value) : set m key value = m := by
  induction m with
  | nil => simp at h
  | cons entry rest ih =>
    obtain ⟨k, v⟩ := entry
    rw [find?_cons] at h
    rw [set]
    split at h
    · next hk => rw [if_pos hk, Option.some.inj h]
    · next hk => rw [if_neg hk, ih h]

/-- Writing a new key puts its entry last. -/
theorem set_of_not_mem {m : Mapping α} {key : String} (h : key ∉ keys m) (value : α) :
    set m key value = m ++ [(key, value)] := by
  induction m with
  | nil => rfl
  | cons entry rest ih =>
    obtain ⟨k, v⟩ := entry
    rw [keys_cons, List.mem_cons, not_or] at h
    rw [set, if_neg (Ne.symm h.1), ih h.2, List.cons_append]

/-- Writing an entry into the first of two parts that has its key. -/
theorem set_append_of_mem {m : Mapping α} {key : String} (h : key ∈ keys m) (value : α)
    (n : Mapping α) : set (m ++ n) key value = set m key value ++ n := by
  induction m with
  | nil => simp at h
  | cons entry rest ih =>
    obtain ⟨k, v⟩ := entry
    by_cases hk : k = key
    · simp [set, hk]
    · have hrest : key ∈ keys rest := (List.mem_cons.mp h).resolve_left (Ne.symm hk)
      rw [List.cons_append, set, set, if_neg hk, if_neg hk, ih hrest, List.cons_append]

theorem mapValues_set (f : α → β) (m : Mapping α) (key : String) (value : α) :
    mapValues f (set m key value) = set (mapValues f m) key (f value) := by
  induction m with
  | nil => rfl
  | cons entry rest ih =>
    obtain ⟨k, v⟩ := entry
    rw [set, mapValues, set]
    split
    · rfl
    · rw [mapValues, ih]

theorem mapValues_setAll (f : α → β) (m n : Mapping α) :
    mapValues f (setAll m n) = setAll (mapValues f m) (mapValues f n) := by
  induction n generalizing m with
  | nil => rfl
  | cons entry rest ih => rw [setAll, ih, mapValues_set, mapValues, setAll]

theorem mem_set {m : Mapping α} {key : String} {value : α} {entry : String × α}
    (h : entry ∈ set m key value) : entry ∈ m ∨ entry = (key, value) := by
  induction m with
  | nil => exact .inr (List.mem_singleton.mp h)
  | cons first rest ih =>
    obtain ⟨k, v⟩ := first
    rw [set] at h
    split at h
    · next hk =>
      rcases List.mem_cons.mp h with rfl | h
      · exact .inr (by rw [hk])
      · exact .inl (List.mem_cons_of_mem _ h)
    · rcases List.mem_cons.mp h with rfl | h
      · exact .inl List.mem_cons_self
      · exact (ih h).imp_left (List.mem_cons_of_mem _)

theorem keys_set (m : Mapping α) (key : String) (value : α) :
    keys (set m key value) = if key ∈ keys m then keys m else keys m ++ [key] := by
  induction m with
  | nil => simp [set]
  | cons entry rest ih =>
    obtain ⟨k, v⟩ := entry
    by_cases hk : k = key
    · simp [set, hk]
    · have hk' : ¬ key = k := fun h => hk h.symm
      simp only [set, hk, if_false, keys_cons, ih, List.mem_cons, hk', false_or]
      split <;> rfl

theorem nodup_keys_set {m : Mapping α} (h : (keys m).Nodup) (key : String) (value : α) :
    (keys (set m key value)).Nodup := by
  rw [keys_set]
  split
  · exact h
  · next hk =>
    refine List.nodup_append.mpr ⟨h, by simp, ?_⟩
    rintro a ha b hb rfl
    exact hk (List.mem_singleton.mp hb ▸ ha)

theorem nodup_keys_setAll {m : Mapping α} (h : (keys m).Nodup) (n : Mapping α) :
    (keys (setAll m n)).Nodup := by
  induction n generalizing m with
  | nil => exact h
  | cons entry rest ih => exact ih (nodup_keys_set h entry.1 entry.2)

theorem mem_keys_setAll (m n : Mapping α) (key : String) :
    key ∈ keys (setAll m n) ↔ key ∈ keys m ∨ key ∈ keys n := by
  induction n generalizing m with
  | nil => simp [setAll]
  | cons entry rest ih =>
    rw [setAll, ih, keys_set, keys_cons, List.mem_cons]
    by_cases hkey : entry.1 ∈ keys m
    · rw [if_pos hkey]
      grind
    · rw [if_neg hkey, List.mem_append, List.mem_singleton]
      grind

theorem mem_setAll {m n : Mapping α} {entry : String × α} (h : entry ∈ setAll m n) :
    entry ∈ m ∨ entry ∈ n := by
  induction n generalizing m with
  | nil => exact .inl h
  | cons first rest ih =>
    rcases ih h with h | h
    · rcases mem_set h with h | rfl
      · exact .inl h
      · exact .inr List.mem_cons_self
    · exact .inr (List.mem_cons_of_mem _ h)

/-- Of two values under one key the later one stays. -/
theorem set_set (m : Mapping α) (key : String) (old value : α) :
    set (set m key old) key value = set m key value := by
  induction m with
  | nil => simp [set]
  | cons entry rest ih =>
    obtain ⟨k, v⟩ := entry
    by_cases hk : k = key <;> simp [set, hk, ih]

/-- Writing a declared key and another one in either order. -/
theorem set_comm {m : Mapping α} {key other : String} (h : key ∈ keys m) (hne : key ≠ other)
    (value value' : α) : set (set m other value') key value = set (set m key value) other value' := by
  induction m with
  | nil => cases h
  | cons entry rest ih =>
    obtain ⟨k, v⟩ := entry
    by_cases hk : k = key
    · subst hk
      simp [set, hne]
    · have hrest : key ∈ keys rest := (List.mem_cons.mp h).resolve_left (Ne.symm hk)
      by_cases ho : k = other
      · subst ho
        simp [set, hk]
      · simp [set, hk, ho, ih hrest]

/-- A declared key that is not written keeps the value that it is given before or afterwards. -/
theorem set_setAll_comm {m n : Mapping α} {key : String} (hm : key ∈ keys m) (hn : key ∉ keys n)
    (value : α) : set (setAll m n) key value = setAll (set m key value) n := by
  induction n generalizing m with
  | nil => rfl
  | cons entry rest ih =>
    obtain ⟨k, v⟩ := entry
    obtain ⟨hne, hrest⟩ := not_or.mp (mt List.mem_cons.mpr hn)
    have hmem : key ∈ keys (set m k v) := (mem_keys_setAll m [(k, v)] key).mpr (.inl hm)
    rw [setAll, setAll, ih hmem hrest, set_comm hm hne]

/-- Writing an entry after all others is writing it among them. -/
theorem set_setAll {n : Mapping α} (hn : (keys n).Nodup) (m : Mapping α) (key : String) (value : α) :
    set (setAll m n) key value = setAll m (set n key value) := by
  induction n generalizing m with
  | nil => rfl
  | cons entry rest ih =>
    obtain ⟨k, v⟩ := entry
    obtain ⟨fresh, hrest⟩ := List.nodup_cons.mp hn
    by_cases hk : k = key
    · subst hk
      have hmem : k ∈ keys (set m k v) := (mem_keys_setAll m [(k, v)] k).mpr (.inr (by simp))
      rw [setAll, set_setAll_comm hmem fresh, set_set, set, if_pos rfl, setAll]
    · rw [setAll, ih hrest, set, if_neg hk, setAll]

/-- Writing one mapping over another before or after both are written over a third one. -/
theorem setAll_setAll {n : Mapping α} (hn : (keys n).Nodup) (m p : Mapping α) :
    setAll (setAll m n) p = setAll m (setAll n p) := by
  induction p generalizing n with
  | nil => rfl
  | cons entry rest ih =>
    obtain ⟨k, v⟩ := entry
    rw [setAll, setAll, set_setAll hn, ih (nodup_keys_set hn k v)]

theorem find?_setAll {n : Mapping α} (hn : (keys n).Nodup) (m : Mapping α) (key : String) :
    find? (setAll m n) key = (find? n key).or (find? m key) := by
  induction n generalizing m with
  | nil => rfl
  | cons entry rest ih =>
    obtain ⟨k, v⟩ := entry
    obtain ⟨fresh, hrest⟩ := List.nodup_cons.mp hn
    rw [setAll, ih hrest, find?_cons]
    by_cases hk : k = key
    · subst hk
      rw [(find?_eq_none_iff rest k).mpr fresh, find?_set_self, if_pos rfl]
      rfl
    · rw [find?_set_of_ne m v hk, if_neg hk]

theorem nodup_keys_ofEntries (entries : List (String × α)) : (keys (ofEntries entries)).Nodup :=
  nodup_keys_setAll (by simp) entries

/-- Entries that declare no key twice are all kept. -/
theorem setAll_of_nodup {m n : Mapping α} (h : (keys (m ++ n)).Nodup) : setAll m n = m ++ n := by
  induction n generalizing m with
  | nil => simp [setAll]
  | cons entry rest ih =>
    have hnew : entry.1 ∉ keys m := fun hmem => by
      rw [keys_append] at h
      exact (List.nodup_append.mp h).2.2 _ hmem _ List.mem_cons_self rfl
    have hrest : (keys ((m ++ [entry]) ++ rest)).Nodup := by simpa using h
    rw [setAll, set_of_not_mem hnew, ih hrest, List.append_assoc, List.singleton_append]

theorem ofEntries_of_nodup {entries : List (String × α)} (h : (keys entries).Nodup) :
    ofEntries entries = entries :=
  setAll_of_nodup (m := []) h

theorem setAll_append (m n p : Mapping α) : setAll m (n ++ p) = setAll (setAll m n) p := by
  induction n generalizing m with
  | nil => rfl
  | cons entry rest ih => exact ih _

/-- Entries behind those of a mapping are written into it. -/
theorem ofEntries_append {m : Mapping α} (h : (keys m).Nodup) (n : Mapping α) :
    ofEntries (m ++ n) = setAll m n := by
  rw [ofEntries, setAll_append, ← ofEntries, ofEntries_of_nodup h]

theorem mem_of_mem_ofEntries {entries : List (String × α)} {entry : String × α}
    (h : entry ∈ ofEntries entries) : entry ∈ entries :=
  (mem_setAll h).resolve_left List.not_mem_nil

/-- Where all entries of a key have one value, that value is kept. -/
theorem find?_ofEntries {entries : List (String × α)} {key : String} {value : α}
    (hmem : (key, value) ∈ entries) (hsame : ∀ other, (key, other) ∈ entries → other = value) :
    find? (ofEntries entries) key = some value := by
  have hkey : key ∈ keys (ofEntries entries) :=
    (mem_keys_setAll [] entries key).mpr (.inr (mem_keys_of_mem hmem))
  obtain ⟨other, hother⟩ := Option.isSome_iff_exists.mp ((find?_isSome_iff _ _).mpr hkey)
  rw [hother, hsame other (mem_of_mem_ofEntries (mem_of_find? hother))]

end Mapping

end DesignTokens
