import DesignTokens.Proofs.Config.Faithful
import Mathlib.Data.List.Nodup

/-!
# Sections of a configuration

A section is read field by field and written field by field, with its extras behind the fields. When
each field's reader and writer belong together, so do those of the section: a written section holds
every field under its key, so its reader finds each of them there and leaves the same extras.

## Main definitions

- `Slot` — a declared field with its reader and writer
- `Slotted` — a section that is made of slots
-/

namespace DesignTokens

open Read

variable {σ α : Type}

/-- A declared field of a section: its keys, its reader and writer, what it is when it is absent,
and where the section keeps it. A value of an absent field could have been read as well. -/
structure Slot (σ : Type) where
  α : Type
  key : FieldKey
  check : Document → Checked α
  write : α → Document
  settle : α → α
  absent : Checked α
  get : σ → α
  faithful : Faithful check write settle
  stands : ∀ a, absent = .valid a → ∃ d, (∀ rule, d.Regular rule) ∧ check d = .valid a

namespace Slot

variable {check : Document → Checked α} {write : α → Document} {settle : α → α}

/-- A field that has a default, which the given document stands for. -/
def field (key : FieldKey) (get : σ → α) (faithful : Faithful check write settle) {default : α}
    {d : Document} (hd : ∀ rule, d.Regular rule) (hdefault : check d = .valid default) : Slot σ :=
  ⟨α, key, check, write, settle, .valid default, get, faithful,
    fun _ ha => ⟨d, hd, by cases ha; exact hdefault⟩⟩

/-- A field that must be present. -/
def required (key : FieldKey) (get : σ → α) (faithful : Faithful check write settle) : Slot σ :=
  ⟨α, key, check, write, settle, (Checked.complain .required).below key.key, get, faithful, by simp⟩

/-- Reads the field among the entries of its section. -/
def read (slot : Slot σ) (entries : Mapping Document) : Checked slot.α :=
  match slot.key.find? entries with
  | some (key, d) => (slot.check d).below key
  | none => slot.absent

/-- The entry of the field in a written section. -/
def entry (slot : Slot σ) (a : σ) : String × Document :=
  (slot.key.key, slot.write (slot.get a))

/-- A value that was read comes from an entry of the section, or it stands for no entry at all. -/
theorem exists_source (slot : Slot σ) {entries : Mapping Document} {a : slot.α}
    (h : slot.read entries = .valid a) {P : Document → Prop} (hentries : ∀ e ∈ entries, P e.2)
    (hP : ∀ d, (∀ rule, d.Regular rule) → P d) : ∃ d, P d ∧ slot.check d = .valid a := by
  unfold read FieldKey.find? at h
  split at h
  · next key d hfind =>
    rw [Checked.below_eq_valid_iff] at h
    refine ⟨d, ?_, h⟩
    split at hfind
    · next found =>
      cases hfind
      exact hentries _ (Mapping.mem_of_find? found)
    · obtain ⟨d, found, hd⟩ := Option.map_eq_some_iff.mp hfind
      cases hd
      exact hentries _ (Mapping.mem_of_find? found)
  · obtain ⟨d, hd, hcheck⟩ := slot.stands a h
    exact ⟨d, hP d hd, hcheck⟩

theorem read_of_find? (slot : Slot σ) {entries : Mapping Document} {d : Document}
    (h : Mapping.find? entries slot.key.key = some d) {a : slot.α} (ha : slot.check d = .valid a) :
    slot.read entries = .valid a := by
  simp [read, FieldKey.find?, h, ha]

/-! A slot of either kind in the terms of its own field. -/

section Field

variable {key : FieldKey} {get : σ → α} {faithful : Faithful check write settle} {default : α}
  {entries : Mapping Document} {a b : σ}

section

variable {d : Document} {hd : ∀ rule, d.Regular rule} {hdefault : check d = .valid default}

@[simp] theorem read_field_iff : (field key get faithful hd hdefault).read entries =
      .valid ((field key get faithful hd hdefault).get a) ↔
    Read.field entries key default check = .valid (get a) :=
  Iff.rfl

@[simp] theorem settled_field_iff : (field key get faithful hd hdefault).get a =
      (field key get faithful hd hdefault).settle ((field key get faithful hd hdefault).get b) ↔
    get a = settle (get b) :=
  Iff.rfl

@[simp] theorem get_field_iff : (field key get faithful hd hdefault).get a =
      (field key get faithful hd hdefault).get b ↔ get a = get b :=
  Iff.rfl

end

@[simp] theorem read_required_iff : (required key get faithful).read entries =
      .valid ((required key get faithful).get a) ↔
    Read.required entries key check = .valid (get a) :=
  Iff.rfl

@[simp] theorem settled_required_iff : (required key get faithful).get a =
      (required key get faithful).settle ((required key get faithful).get b) ↔
    get a = settle (get b) :=
  Iff.rfl

@[simp] theorem get_required_iff :
    (required key get faithful).get a = (required key get faithful).get b ↔ get a = get b :=
  Iff.rfl

end Field

end Slot

/-- No extra has the key of a field. -/
theorem key_ne_of_mem_extras {fields : List FieldKey} {entries : Mapping Document}
    {e : String × Document} (h : e ∈ Read.extras fields entries) :
    ∀ field ∈ fields, e.1 ≠ field.key := by
  intro field hfield heq
  have hnot := (List.mem_filter.mp h).2
  rw [Bool.not_eq_true', List.any_eq_false] at hnot
  exact hnot field hfield (by simp [FieldKey.takes, heq])

/-- In a written section every field finds its own entry, so the extras are the written ones. -/
theorem extras_written {fields : List FieldKey} {declared rest : Mapping Document}
    (hdeclared : Mapping.keys declared = fields.map FieldKey.key)
    (hrest : ∀ e ∈ rest, ∀ field ∈ fields, e.1 ≠ field.key) :
    Read.extras fields (declared ++ rest) = rest := by
  have hhas : ∀ field ∈ fields, Mapping.has (declared ++ rest) field.key = true := by
    intro field hfield
    rw [Mapping.has_iff, Mapping.keys_append, hdeclared]
    exact List.mem_append_left _ (List.mem_map_of_mem hfield)
  have htaken : declared.filter (fun e => !fields.any (·.takes (declared ++ rest) e.1)) = [] := by
    rw [List.filter_eq_nil_iff]
    intro e he
    obtain ⟨field, hfield, hkey⟩ := List.mem_map.mp (hdeclared ▸ Mapping.mem_keys_of_mem he)
    simp only [Bool.not_eq_true', Bool.not_eq_false]
    exact List.any_eq_true.mpr ⟨field, hfield, by simp [FieldKey.takes, hkey]⟩
  have hleft : rest.filter (fun e => !fields.any (·.takes (declared ++ rest) e.1)) = rest := by
    rw [List.filter_eq_self]
    intro e he
    rw [Bool.not_eq_true', List.any_eq_false]
    intro field hfield
    simp [FieldKey.takes, hrest e he field hfield, hhas field hfield]
  rw [Read.extras, List.filter_append, htaken, hleft, List.nil_append]

theorem sectionOf_eq_valid_iff {model : String} {fields : List FieldKey}
    {build : Mapping Document → Mapping Document → Checked σ} (d : Document) (a : σ) :
    sectionOf model fields build d = .valid a ↔
      ∃ entries, d = .mapping entries ∧ build entries (Read.extras fields entries) = .valid a := by
  cases d <;> simp [sectionOf]

/-- A section that is made of slots: it is read and written slot by slot, with its extras behind
them, and it settles slot by slot. -/
structure Slotted (slots : List (Slot σ)) (fields : List FieldKey) (extras : σ → Mapping Document)
    (read : Document → Checked σ) (write : σ → Document) (settle : σ → σ) : Prop where
  fields_eq : slots.map Slot.key = fields
  nodup : (fields.map FieldKey.key).Nodup
  read_iff : ∀ d a, read d = .valid a ↔ ∃ entries, d = .mapping entries ∧
    (∀ slot ∈ slots, slot.read entries = .valid (slot.get a)) ∧ Read.extras fields entries = extras a
  write_eq : ∀ a, write a = .mapping (slots.map (·.entry a) ++ settled (extras a))
  get_settle : ∀ a, ∀ slot ∈ slots, slot.get (settle a) = slot.settle (slot.get a)
  extras_settle : ∀ a, extras (settle a) = settled (extras a)
  ext : ∀ a b, (∀ slot ∈ slots, slot.get a = slot.get b) → extras a = extras b → a = b

namespace Slotted

variable {slots : List (Slot σ)} {fields : List FieldKey} {extras : σ → Mapping Document}
  {read : Document → Checked σ} {write : σ → Document} {settle : σ → σ}

theorem keys_entries (h : Slotted slots fields extras read write settle) (a : σ) :
    Mapping.keys (slots.map (·.entry a)) = fields.map FieldKey.key := by
  rw [← h.fields_eq]
  simp [Mapping.keys, Slot.entry, Function.comp_def]

/-- The extras that a section was read with do not meet its fields, not even as they are written. -/
theorem key_ne_of_mem_settled {entries : Mapping Document} {a : σ}
    (hextras : Read.extras fields entries = extras a) :
    ∀ e ∈ settled (extras a), ∀ field ∈ fields, e.1 ≠ field.key := by
  intro e he field hfield
  rw [settled_eq_mapValues, ← hextras] at he
  obtain ⟨d, hd, -⟩ := Mapping.mem_mapValues.mp he
  exact key_ne_of_mem_extras hd field hfield

/-- Every field of a section that was read has a document that it is read from, and the extras do not
meet the fields. -/
theorem sources (h : Slotted slots fields extras read write settle) {d : Document} {a : σ}
    (hread : read d = .valid a) :
    (∀ slot ∈ slots, ∃ d, slot.check d = .valid (slot.get a)) ∧
      ∀ e ∈ settled (extras a), ∀ field ∈ fields, e.1 ≠ field.key := by
  obtain ⟨entries, -, hslots, hextras⟩ := (h.read_iff d a).mp hread
  refine ⟨fun slot hmem => ?_, key_ne_of_mem_settled hextras⟩
  obtain ⟨d, -, hd⟩ := slot.exists_source (hslots slot hmem) (P := fun _ => True)
    (fun _ _ => trivial) fun _ _ => trivial
  exact ⟨d, hd⟩

theorem returns (h : Slotted slots fields extras read write settle) {d : Document} {a : σ}
    (hread : read d = .valid a) : ∀ slot ∈ slots,
      slot.check (slot.write (slot.get a)) = .valid (slot.settle (slot.get a)) := by
  intro slot hmem
  obtain ⟨d, hd⟩ := (h.sources hread).1 slot hmem
  exact slot.faithful.again hd

/-- A section whose fields can be written and read again can be so itself. -/
theorem read_write (h : Slotted slots fields extras read write settle) {a : σ}
    (hslots : ∀ slot ∈ slots,
      slot.check (slot.write (slot.get a)) = .valid (slot.settle (slot.get a)))
    (hextras : ∀ e ∈ settled (extras a), ∀ field ∈ fields, e.1 ≠ field.key) :
    read (write a) = .valid (settle a) := by
  refine (h.read_iff _ _).mpr ⟨_, h.write_eq a, fun slot hmem => ?_, ?_⟩
  · rw [h.get_settle a slot hmem]
    refine slot.read_of_find? ?_ (hslots slot hmem)
    -- The fields stand before the extras, each under its own key.
    rw [Mapping.find?_append, Mapping.find?_of_mem (h.keys_entries a ▸ h.nodup)
      (List.mem_map.mpr ⟨slot, hmem, rfl⟩)]
    rfl
  · rw [h.extras_settle]
    exact extras_written (h.keys_entries a) hextras

/-- A written section with another document in the place of one field is read with what that document
is read as in this field. The others come back settled. -/
theorem read_set_iff (h : Slotted slots fields extras read write settle) {d e : Document} {a b : σ}
    (hread : read d = .valid a) {slot : Slot σ} (hslot : slot ∈ slots) :
    read (.mapping (Mapping.set (slots.map (·.entry a) ++ settled (extras a)) slot.key.key e)) =
        .valid b ↔
      slot.check e = .valid (slot.get b) ∧
        (∀ other ∈ slots, slot.key.key ≠ other.key.key →
          other.get b = other.settle (other.get a)) ∧ extras b = settled (extras a) := by
  have hkey : slot.key.key ∈ Mapping.keys (slots.map (·.entry a)) := by
    rw [h.keys_entries, ← h.fields_eq]
    exact List.mem_map_of_mem (List.mem_map_of_mem hslot)
  have hself : slot.read (Mapping.set (slots.map (·.entry a) ++ settled (extras a))
      slot.key.key e) = .valid (slot.get b) ↔ slot.check e = .valid (slot.get b) := by
    rw [Slot.read, FieldKey.find?, Mapping.find?_set_self]
    exact Checked.below_eq_valid_iff _ _ _
  have hother : ∀ other ∈ slots, slot.key.key ≠ other.key.key →
      other.read (Mapping.set (slots.map (·.entry a) ++ settled (extras a)) slot.key.key e) =
        .valid (other.settle (other.get a)) := by
    intro other hother hne
    refine other.read_of_find? ?_ (h.returns hread other hother)
    rw [Mapping.find?_set_of_ne _ _ hne, Mapping.find?_append, Mapping.find?_of_mem
      (h.keys_entries a ▸ h.nodup) (List.mem_map.mpr ⟨other, hother, rfl⟩)]
    rfl
  have hextras : Read.extras fields (Mapping.set (slots.map (·.entry a) ++ settled (extras a))
      slot.key.key e) = settled (extras a) := by
    rw [Mapping.set_append_of_mem hkey]
    refine extras_written ?_ (h.sources hread).2
    rw [Mapping.keys_set, if_pos hkey, h.keys_entries]
  rw [h.read_iff]
  constructor
  · rintro ⟨_, heq, hslots, hrest⟩
    cases heq
    refine ⟨hself.mp (hslots slot hslot), fun other hmem hne => ?_, hrest.symm.trans hextras⟩
    exact Checked.valid.inj ((hslots other hmem).symm.trans (hother other hmem hne))
  · rintro ⟨hcheck, hothers, hrest⟩
    refine ⟨_, rfl, fun other hmem => ?_, hextras.trans hrest.symm⟩
    by_cases hne : slot.key.key = other.key.key
    · -- No two slots have the same key.
      have hnodup : (slots.map fun slot => slot.key.key).Nodup := by
        simpa [← h.fields_eq, Function.comp_def] using h.nodup
      obtain rfl := List.inj_on_of_nodup_map hnodup hslot hmem hne
      exact hself.mpr hcheck
    · rw [hother other hmem hne, hothers other hmem hne]

theorem again (h : Slotted slots fields extras read write settle) {d : Document} {a : σ}
    (hread : read d = .valid a) : read (write a) = .valid (settle a) :=
  h.read_write (h.returns hread) (h.sources hread).2

theorem regular (h : Slotted slots fields extras read write settle) {rule : LeafRule} {d : Document}
    {a : σ} (hd : d.Regular rule) (hread : read d = .valid a) : (write a).Regular rule := by
  obtain ⟨entries, rfl, hslots, hextras⟩ := (h.read_iff d a).mp hread
  rw [Document.regular_mapping] at hd
  rw [h.write_eq, Document.regular_mapping, Mapping.keys_append, h.keys_entries, keys_settled]
  constructor
  · refine List.nodup_append.mpr ⟨h.nodup, ?_, ?_⟩
    · rw [← hextras]
      exact hd.1.sublist (List.filter_sublist.map _)
    · intro key hkey other hother heq
      obtain ⟨field, hfield, rfl⟩ := List.mem_map.mp hkey
      obtain ⟨e, he, rfl⟩ := List.mem_map.mp (hextras ▸ hother)
      exact key_ne_of_mem_extras he field hfield heq.symm
  · intro e he
    rcases List.mem_append.mp he with he | he
    · obtain ⟨slot, hmem, rfl⟩ := List.mem_map.mp he
      -- A field that was absent was not read from the section, but its default could have been.
      obtain ⟨d, hd, hcheck⟩ := slot.exists_source (hslots slot hmem) hd.2 fun d hd => hd rule
      exact slot.faithful.regular hd hcheck
    · rw [settled_eq_mapValues, ← hextras] at he
      obtain ⟨old, hold, hsettled⟩ := Mapping.mem_mapValues.mp he
      exact hsettled ▸ (hd.2 _ (List.mem_of_mem_filter hold)).settle

theorem kept (h : Slotted slots fields extras read write settle) {d : Document} {a : σ}
    (hd : d.Regular .finite) (hread : read d = .valid a) : settle a = a := by
  obtain ⟨entries, rfl, hslots, hextras⟩ := (h.read_iff d a).mp hread
  rw [Document.regular_mapping] at hd
  refine h.ext _ _ (fun slot hmem => ?_) ?_
  · obtain ⟨d, hd, hcheck⟩ := slot.exists_source (hslots slot hmem) hd.2 fun d hd => hd _
    rw [h.get_settle a slot hmem, slot.faithful.kept hd hcheck]
  · rw [h.extras_settle, settled_eq_mapValues]
    refine Mapping.mapValues_eq_self fun e he => Document.settle_eq_self ?_
    exact hd.2 e (List.mem_of_mem_filter (hextras ▸ he))

theorem rewritten (h : Slotted slots fields extras read write settle) (a : σ) :
    write (settle a) = write a := by
  have hentries : slots.map (·.entry (settle a)) = slots.map (·.entry a) := by
    refine List.map_congr_left fun slot hmem => ?_
    rw [Slot.entry, Slot.entry, h.get_settle a slot hmem, slot.faithful.rewritten]
  rw [h.write_eq, h.write_eq, hentries, h.extras_settle, settled_settled]

/-- A section that is made of slots is read again as it was written. -/
theorem faithful (h : Slotted slots fields extras read write settle) : Faithful read write settle :=
  ⟨h.again, h.regular, h.kept, h.rewritten⟩

end Slotted

end DesignTokens
