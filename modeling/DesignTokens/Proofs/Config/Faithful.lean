import DesignTokens.Config.Reading
import DesignTokens.Proofs.Document.Alike
import DesignTokens.Proofs.Document.Settling

/-!
# Readers and writers that belong together

A reader and a writer belong together when a value that was read can be written and read again. The
value comes back settled: only what is written without types may have changed. Lists, mappings,
values that may be null and alternatives keep this law.

## Main definitions

- `Faithful` — the law of a reader, a writer and what changes on the way
- `Read.Entries` — a mapping read entry by entry
-/

namespace DesignTokens

/-- What was read can be written and read again: it comes back settled, what is written is as
regular as what was read, nothing changes where no value loses its kind, and what is settled is
written in the same way. -/
structure Faithful {α : Type} (check : Document → Checked α) (write : α → Document)
    (settle : α → α) : Prop where
  again : ∀ {d a}, check d = .valid a → check (write a) = .valid (settle a)
  regular : ∀ {rule d a}, d.Regular rule → check d = .valid a → (write a).Regular rule
  kept : ∀ {d a}, d.Regular .finite → check d = .valid a → settle a = a
  rewritten : ∀ a, write (settle a) = write a

variable {α : Type} {check : Document → Checked α} {write : α → Document} {settle : α → α}

namespace Read

/-- Every entry of the second mapping is read from the entry in its place. -/
abbrev Entries (check : Document → Checked α) : Mapping Document → Mapping α → Prop :=
  Mapping.Along fun d a => check d = .valid a

theorem ofEntries_eq_valid_iff (entries : Mapping Document) (values : Mapping α) :
    Checked.ofEntries check entries = .valid values ↔ Entries check entries values := by
  induction entries generalizing values with
  | nil => simp [Checked.ofEntries, Entries, Mapping.Along, eq_comm]
  | cons entry rest ih =>
    obtain ⟨key, d⟩ := entry
    simp only [Checked.ofEntries, Checked.seq_eq_valid_iff, Checked.map_eq_valid_iff,
      Checked.below_eq_valid_iff, ih, Entries, Mapping.Along]
    constructor
    · rintro ⟨_, ⟨a, ha, rfl⟩, more, hmore, rfl⟩
      exact .cons ⟨rfl, ha⟩ hmore
    · intro h
      obtain ⟨⟨_, a⟩, more, ⟨rfl, ha⟩, hmore, rfl⟩ := List.forall₂_cons_left_iff.mp h
      exact ⟨_, ⟨a, ha, rfl⟩, more, hmore, rfl⟩

/-- What entries are read as is determined. -/
theorem Entries.unique {entries : Mapping Document} {values others : Mapping α}
    (h : Entries check entries values) (h' : Entries check entries others) : values = others := by
  refine List.right_unique_forall₂' ?_ h h'
  rintro ⟨_, d⟩ ⟨_, a⟩ ⟨_, b⟩ ⟨rfl, ha⟩ ⟨rfl, hb⟩
  exact Prod.ext rfl (Checked.valid.inj (ha.symm.trans hb))

/-- With another document under one key, the values are as before but for that of this key. -/
theorem Entries.exists_of_set {entries : Mapping Document} {values others : Mapping α} {key : String}
    {d : Document} (h : Entries check entries values)
    (hset : Entries check (Mapping.set entries key d) others) :
    ∃ a, check d = .valid a ∧ others = Mapping.set values key a := by
  induction h generalizing others with
  | nil =>
    obtain ⟨⟨_, a⟩, _, ⟨rfl, ha⟩, hnil, rfl⟩ := List.forall₂_cons_left_iff.mp hset
    obtain rfl := List.forall₂_nil_left_iff.mp hnil
    exact ⟨a, ha, rfl⟩
  | @cons entry value rest more head tail ih =>
    obtain ⟨k, old⟩ := entry
    obtain ⟨k', a⟩ := value
    obtain ⟨rfl, ha⟩ := head
    by_cases hk : k = key
    · rw [Mapping.set, if_pos hk] at hset
      obtain ⟨⟨_, b⟩, _, ⟨rfl, hb⟩, hrest, rfl⟩ := List.forall₂_cons_left_iff.mp hset
      -- The entries behind the key are read as before.
      rw [Entries.unique tail hrest]
      exact ⟨b, hb, by rw [Mapping.set, if_pos hk]⟩
    · rw [Mapping.set, if_neg hk] at hset
      obtain ⟨⟨_, b⟩, _, ⟨rfl, hb⟩, hrest, rfl⟩ := List.forall₂_cons_left_iff.mp hset
      obtain rfl := Checked.valid.inj (ha.symm.trans hb)
      obtain ⟨c, hc, rfl⟩ := ih hrest
      exact ⟨c, hc, by rw [Mapping.set, if_neg hk]⟩

theorem mappingOf_eq_valid_iff (d : Document) (values : Mapping α) :
    mappingOf check d = .valid values ↔
      ∃ entries, d = .mapping entries ∧ Entries check entries values := by
  cases d <;> simp [mappingOf, ofEntries_eq_valid_iff]

theorem ofList_eq_valid_iff (items : List Document) (values : List α) (position : Nat) :
    Checked.ofList check position items = .valid values ↔
      List.Forall₂ (fun d a => check d = .valid a) items values := by
  induction items generalizing values position with
  | nil => simp [Checked.ofList, eq_comm]
  | cons d rest ih =>
    simp only [Checked.ofList, Checked.seq_eq_valid_iff, Checked.map_eq_valid_iff,
      Checked.below_eq_valid_iff, ih]
    constructor
    · rintro ⟨_, ⟨a, ha, rfl⟩, more, hmore, rfl⟩
      exact .cons ha hmore
    · intro h
      obtain ⟨a, more, ha, hmore, rfl⟩ := List.forall₂_cons_left_iff.mp h
      exact ⟨_, ⟨a, ha, rfl⟩, more, hmore, rfl⟩

theorem listOf_eq_valid_iff (d : Document) (values : List α) :
    listOf check d = .valid values ↔
      ∃ items, d = .list items ∧ List.Forall₂ (fun d a => check d = .valid a) items values := by
  cases d <;> simp [listOf, ofList_eq_valid_iff]

theorem text_eq_valid_iff (d : Document) (s : String) : text d = .valid s ↔ d = .text s := by
  cases d <;> simp [text]

end Read

namespace Faithful

open Read

/-- What came back comes back as it is. -/
theorem settle_settle (h : Faithful check write settle) {d : Document} {a : α}
    (hread : check d = .valid a) : settle (settle a) = settle a := by
  have hagain := h.again hread
  have htwice := h.again hagain
  rw [h.rewritten, hagain] at htwice
  exact (Checked.valid.inj htwice).symm

theorem text : Faithful Read.text .text id where
  again h := by rw [text_eq_valid_iff] at *; rfl
  regular _ _ := trivial
  kept _ _ := rfl
  rewritten _ := rfl

theorem flag : Faithful Read.flag .bool id where
  again _ := rfl
  regular _ _ := trivial
  kept _ _ := rfl
  rewritten _ := rfl

theorem tokenValue : Faithful Read.tokenValue TokenValue.toDocument id where
  again := by
    intro d a _
    cases a <;> rfl
  regular := by
    intro rule d a hd h
    cases d with
    | float x => cases h; exact hd
    | text s => cases h; trivial
    | int n => cases h; trivial
    | bool b => cases h; trivial
    | _ => simp [Read.tokenValue] at h
  kept _ _ := rfl
  rewritten _ := rfl

/-- Any document is read as it is, and written without types. -/
theorem any : Faithful Read.any Document.settle Document.settle where
  again _ := rfl
  regular hd h := by cases h; exact hd.settle
  kept hd h := by cases h; exact Document.settle_eq_self hd
  rewritten := Document.settle_settle

theorem optional (h : Faithful check write id) (hnull : ∀ a, check .null ≠ .valid a) :
    Faithful (Read.optional check) (optionDocument write) id where
  again := by
    intro d o ho
    match o with
    | none => rfl
    | some a =>
      have ha : check d = .valid a := by
        cases d <;> simp_all [Read.optional]
      -- A written null would be read as a missing value.
      have hagain := h.again ha
      have hwrite : write a ≠ .null := fun hw => hnull _ (hw ▸ hagain)
      cases hw : write a <;> simp_all [Read.optional, optionDocument]
  regular := by
    intro rule d o hd ho
    match o with
    | none => trivial
    | some a =>
      refine h.regular hd (a := a) ?_
      cases d <;> simp_all [Read.optional]
  kept _ _ := rfl
  rewritten _ := rfl

theorem mapping (h : Faithful check write settle) :
    Faithful (mappingOf check) (mappingDocument write) (Mapping.mapValues settle) where
  again := by
    intro d values hread
    obtain ⟨entries, rfl, hentries⟩ := (mappingOf_eq_valid_iff _ _).mp hread
    refine (mappingOf_eq_valid_iff _ _).mpr ⟨_, rfl, ?_⟩
    clear hread
    induction hentries with
    | nil => exact .nil
    | cons head _ ih => exact .cons ⟨rfl, h.again head.2⟩ ih
  regular := by
    intro rule d values hd hread
    obtain ⟨entries, rfl, hentries⟩ := (mappingOf_eq_valid_iff _ _).mp hread
    rw [Document.regular_mapping] at hd
    rw [mappingDocument, Document.regular_mapping, Mapping.keys_mapValues, ← hentries.keys_eq]
    refine ⟨hd.1, fun entry hmem => ?_⟩
    obtain ⟨a, ha, hwrite⟩ := Mapping.mem_mapValues.mp hmem
    obtain ⟨old, hold, hcheck⟩ := hentries.exists_left ha
    exact hwrite ▸ h.regular (hd.2 _ hold) hcheck
  kept := by
    intro d values hd hread
    obtain ⟨entries, rfl, hentries⟩ := (mappingOf_eq_valid_iff _ _).mp hread
    refine Mapping.mapValues_eq_self fun value hmem => ?_
    obtain ⟨old, hold, hcheck⟩ := hentries.exists_left hmem
    exact h.kept ((Document.regular_mapping.mp hd).2 _ hold) hcheck
  rewritten values := by
    rw [mappingDocument, mappingDocument, Mapping.mapValues_mapValues]
    exact congrArg _ (Mapping.mapValues_congr fun entry _ => h.rewritten entry.2)

/-- Where no value changes on the way, neither does a mapping of them. -/
theorem mappingId (h : Faithful check write id) :
    Faithful (mappingOf check) (mappingDocument write) id := by
  have hid : Mapping.mapValues (id : α → α) = id := by
    funext m
    exact Mapping.mapValues_eq_self (by simp)
  exact hid ▸ h.mapping

theorem list (h : Faithful check write settle) :
    Faithful (listOf check) (fun values => .list (values.map write)) (List.map settle) where
  again := by
    intro d values hread
    obtain ⟨items, rfl, hitems⟩ := (listOf_eq_valid_iff _ _).mp hread
    refine (listOf_eq_valid_iff _ _).mpr ⟨_, rfl, ?_⟩
    clear hread
    induction hitems with
    | nil => exact .nil
    | cons head _ ih => exact .cons (h.again head) ih
  regular := by
    intro rule d values hd hread
    obtain ⟨items, rfl, hitems⟩ := (listOf_eq_valid_iff _ _).mp hread
    rw [Document.regular_list] at hd ⊢
    clear hread
    induction hitems with
    | nil => simp
    | cons head _ ih =>
      rw [List.forall_mem_cons] at hd
      rw [List.map_cons, List.forall_mem_cons]
      exact ⟨h.regular hd.1 head, ih hd.2⟩
  kept := by
    intro d values hd hread
    obtain ⟨items, rfl, hitems⟩ := (listOf_eq_valid_iff _ _).mp hread
    rw [Document.regular_list] at hd
    clear hread
    induction hitems with
    | nil => rfl
    | cons head _ ih =>
      rw [List.forall_mem_cons] at hd
      rw [List.map_cons, h.kept hd.1 head, ih hd.2]
  rewritten values := by
    rw [List.map_map]
    exact congrArg _ (List.map_congr_left fun a _ => h.rewritten a)

/-- Where no value changes on the way, neither does a list of them. -/
theorem listId (h : Faithful check write id) :
    Faithful (listOf check) (fun values => .list (values.map write)) id :=
  List.map_id_fun (α := α) ▸ h.list

/-- A value of one of two kinds, where no document is read as both. -/
theorem alternatives {β γ : Type} {first : Document → Checked β} {second : Document → Checked γ}
    {writeFirst : β → Document} {writeSecond : γ → Document} {settleFirst : β → β}
    {settleSecond : γ → γ} (h₁ : Faithful first writeFirst settleFirst)
    (h₂ : Faithful second writeSecond settleSecond)
    (apart : ∀ d b c, first d = .valid b → second d ≠ .valid c)
    {m n : String} {left : β → α} {right : γ → α}
    (hcover : ∀ a, (∃ b, left b = a) ∨ ∃ c, right c = a)
    (hcheck : ∀ d, check d = Checked.orElse m n (left <$> first d) (right <$> second d))
    (hwrite : (∀ b, write (left b) = writeFirst b) ∧ ∀ c, write (right c) = writeSecond c)
    (hsettle : (∀ b, settle (left b) = left (settleFirst b)) ∧
      ∀ c, settle (right c) = right (settleSecond c)) :
    Faithful check write settle := by
  have cases : ∀ {d a}, check d = .valid a →
      (∃ b, first d = .valid b ∧ left b = a) ∨ ∃ c, second d = .valid c ∧ right c = a := by
    intro d a h
    rw [hcheck, Checked.orElse_eq_valid_iff] at h
    exact h.imp (Checked.map_eq_valid_iff _ _ _).mp fun h => (Checked.map_eq_valid_iff _ _ _).mp h.2
  constructor
  · intro d a h
    rw [hcheck, Checked.orElse_eq_valid_iff]
    rcases cases h with ⟨b, hb, rfl⟩ | ⟨c, hc, rfl⟩
    · rw [hwrite.1, hsettle.1]
      exact .inl ((Checked.map_eq_valid_iff _ _ _).mpr ⟨_, h₁.again hb, rfl⟩)
    · rw [hwrite.2, hsettle.2]
      -- The first reader must refuse what the second writer wrote, or it would take it.
      refine .inr ⟨?_, (Checked.map_eq_valid_iff _ _ _).mpr ⟨_, h₂.again hc, rfl⟩⟩
      intro a ha
      obtain ⟨b, hb, -⟩ := (Checked.map_eq_valid_iff _ _ _).mp ha
      exact apart _ _ _ hb (h₂.again hc)
  · intro rule d a hd h
    rcases cases h with ⟨b, hb, rfl⟩ | ⟨c, hc, rfl⟩
    · exact hwrite.1 b ▸ h₁.regular hd hb
    · exact hwrite.2 c ▸ h₂.regular hd hc
  · intro d a hd h
    rcases cases h with ⟨b, hb, rfl⟩ | ⟨c, hc, rfl⟩
    · rw [hsettle.1, h₁.kept hd hb]
    · rw [hsettle.2, h₂.kept hd hc]
  · intro a
    rcases hcover a with ⟨b, rfl⟩ | ⟨c, rfl⟩
    · rw [hsettle.1, hwrite.1, hwrite.1, h₁.rewritten]
    · rw [hsettle.2, hwrite.2, hwrite.2, h₂.rewritten]

theorem valueOrGroup : Faithful Read.valueOrGroup ValueOrGroup.toDocument id :=
  alternatives text text.mappingId
    (by intro d b c hb; rw [text_eq_valid_iff] at hb; subst hb; simp [mappingOf])
    (by rintro (s | group); exacts [.inl ⟨s, rfl⟩, .inr ⟨group, rfl⟩])
    (fun _ => rfl) ⟨fun _ => rfl, fun _ => rfl⟩ ⟨fun _ => rfl, fun _ => rfl⟩

theorem fontFamily : Faithful Read.fontFamily FontFamily.toDocument id :=
  alternatives text.listId text
    (by intro d b c hb hc; rw [text_eq_valid_iff] at hc; subst hc; simp [listOf] at hb)
    (by rintro (names | s); exacts [.inl ⟨names, rfl⟩, .inr ⟨s, rfl⟩])
    (fun _ => rfl) ⟨fun _ => rfl, fun _ => rfl⟩ ⟨fun _ => rfl, fun _ => rfl⟩

end Faithful

end DesignTokens
