import DesignTokens.Document.Merge
import DesignTokens.Document.Raw

/-!
# Regular documents

In a regular document no mapping declares a key twice, and only leaves of an allowed kind occur.
Reading a raw document, laying one document over another and writing one entry keep a document
regular.

## Main definitions

- `LeafRule` — which numbers and stamps may occur
- `Document.Regular` — a document without repeated keys whose leaves are allowed
-/

namespace DesignTokens

/-- Which leaves may occur, where not all of a kind may: floating-point numbers and stamps. -/
structure LeafRule where
  float : Double → Bool
  stamp : Bool

namespace LeafRule

/-- Every leaf. -/
def any : LeafRule := ⟨fun _ => true, true⟩

/-- The leaves of JSON, where a number may be too large to be finite. -/
def json : LeafRule := ⟨fun x => !x.isNaN, false⟩

/-- The leaves of JSON with finite numbers only. -/
def finite : LeafRule := ⟨Double.isFinite, false⟩

end LeafRule

namespace Document

mutual
/-- No mapping declares a key twice, and every leaf is allowed. -/
def Regular (rule : LeafRule) : Document → Prop
  | float x => rule.float x = true
  | stamp _ => rule.stamp = true
  | list items => RegularItems rule items
  | mapping entries => (Mapping.keys entries).Nodup ∧ RegularEntries rule entries
  | _ => True

/-- Every item is regular. -/
def RegularItems (rule : LeafRule) : List Document → Prop
  | [] => True
  | item :: rest => Regular rule item ∧ RegularItems rule rest

/-- Every value is regular. -/
def RegularEntries (rule : LeafRule) : List (String × Document) → Prop
  | [] => True
  | (_, value) :: rest => Regular rule value ∧ RegularEntries rule rest
end

mutual
/-- Whether a document is regular can be computed. -/
def decidableRegular (rule : LeafRule) : (d : Document) → Decidable (Regular rule d)
  | float x => inferInstanceAs (Decidable (rule.float x = true))
  | stamp _ => inferInstanceAs (Decidable (rule.stamp = true))
  | list items => decidableRegularItems rule items
  | mapping entries =>
    @instDecidableAnd _ _ (inferInstanceAs (Decidable (Mapping.keys entries).Nodup))
      (decidableRegularEntries rule entries)
  | null | bool _ | int _ | text _ => .isTrue trivial

/-- Whether every item is regular can be computed. -/
def decidableRegularItems (rule : LeafRule) :
    (items : List Document) → Decidable (RegularItems rule items)
  | [] => .isTrue trivial
  | item :: rest =>
    @instDecidableAnd _ _ (decidableRegular rule item) (decidableRegularItems rule rest)

/-- Whether every value is regular can be computed. -/
def decidableRegularEntries (rule : LeafRule) :
    (entries : List (String × Document)) → Decidable (RegularEntries rule entries)
  | [] => .isTrue trivial
  | (_, value) :: rest =>
    @instDecidableAnd _ _ (decidableRegular rule value) (decidableRegularEntries rule rest)
end

instance (rule : LeafRule) (d : Document) : Decidable (Regular rule d) :=
  decidableRegular rule d

variable {rule : LeafRule}

@[simp] theorem regular_null : Regular rule null := trivial

@[simp] theorem regular_bool (b : Bool) : Regular rule (bool b) := trivial

@[simp] theorem regular_int (n : Int) : Regular rule (int n) := trivial

@[simp] theorem regular_text (s : String) : Regular rule (text s) := trivial

theorem regularItems_iff (items : List Document) :
    RegularItems rule items ↔ ∀ item ∈ items, Regular rule item := by
  induction items with
  | nil => simp [RegularItems]
  | cons item rest ih => simp [RegularItems, ih]

theorem regularEntries_iff (entries : List (String × Document)) :
    RegularEntries rule entries ↔ ∀ entry ∈ entries, Regular rule entry.2 := by
  induction entries with
  | nil => simp [RegularEntries]
  | cons entry rest ih => simp [RegularEntries, ih]

theorem regular_list {items : List Document} :
    Regular rule (list items) ↔ ∀ item ∈ items, Regular rule item := by
  rw [Regular, regularItems_iff]

theorem regular_mapping {entries : Mapping Document} :
    Regular rule (mapping entries) ↔
      (Mapping.keys entries).Nodup ∧ ∀ entry ∈ entries, Regular rule entry.2 := by
  rw [Regular, regularEntries_iff]

@[simp] theorem regular_mapping_nil : Regular rule (mapping []) := ⟨.nil, trivial⟩

theorem Regular.nodup_keys {entries : Mapping Document} (h : Regular rule (mapping entries)) :
    (Mapping.keys entries).Nodup :=
  (regular_mapping.mp h).1

theorem Regular.find? {entries : Mapping Document} (h : Regular rule (mapping entries))
    {key : String} {value : Document} (hv : Mapping.find? entries key = some value) :
    Regular rule value :=
  (regular_mapping.mp h).2 _ (Mapping.mem_of_find? hv)

theorem Regular.set {entries : Mapping Document} (h : Regular rule (mapping entries))
    (key : String) {value : Document} (hv : Regular rule value) :
    Regular rule (mapping (Mapping.set entries key value)) := by
  rw [regular_mapping] at h ⊢
  refine ⟨Mapping.nodup_keys_set h.1 key value, ?_⟩
  intro entry hmem
  rcases Mapping.mem_set hmem with hmem | rfl
  · exact h.2 entry hmem
  · exact hv

/-- Laying entries over a mapping is regular if laying each of their values over any value is. -/
private theorem regular_deepMerge_of_values {upper : Mapping Document}
    (ih : ∀ entry ∈ upper, ∀ old : Option Document, (∀ d ∈ old, Regular rule d) →
      Regular rule (overlay old entry.2)) {base : Mapping Document}
    (hbase : Regular rule (mapping base)) : Regular rule (mapping (deepMerge base upper)) := by
  induction upper generalizing base with
  | nil => simpa using hbase
  | cons entry rest ihrest =>
    rw [deepMerge_cons]
    obtain ⟨hentry, hrest⟩ := List.forall_mem_cons.mp ih
    exact ihrest hrest (hbase.set entry.1 (hentry _ fun d hd => hbase.find? hd))

theorem Regular.overlay {old : Option Document} (hold : ∀ d ∈ old, Regular rule d)
    {value : Document} (h : Regular rule value) : Regular rule (overlay old value) := by
  -- The induction is on the upper value, for every value below: what an entry meets changes as the
  -- entries before it are laid.
  induction value using byParts generalizing old with
  | mapping upper ih =>
    have hvalues : ∀ entry ∈ upper, ∀ old : Option Document, (∀ d ∈ old, Regular rule d) →
        Regular rule (DesignTokens.overlay old entry.2) := fun entry hmem _ hold =>
      ih entry hmem hold ((regular_mapping.mp h).2 entry hmem)
    by_cases hbase : ∃ base, old = some (.mapping base)
    · obtain ⟨base, rfl⟩ := hbase
      rw [overlay_mapping]
      exact regular_deepMerge_of_values hvalues (hold _ rfl)
    · rwa [overlay_over_not_mapping (not_exists.mp hbase)]
  | _ => rwa [overlay_of_not_mapping _ (by simp)]

/-- One regular mapping laid over another is regular. -/
theorem Regular.deepMerge {base upper : Mapping Document} (hbase : Regular rule (mapping base))
    (hupper : Regular rule (mapping upper)) :
    Regular rule (mapping (deepMerge base upper)) :=
  regular_deepMerge_of_values
    (fun entry hmem _ hold => Regular.overlay hold ((regular_mapping.mp hupper).2 entry hmem)) hbase

/-- Laying entries that a mapping holds over it changes nothing, if laying each of their values over
itself changes nothing. -/
private theorem deepMerge_of_find? {base upper : Mapping Document}
    (hfind : ∀ entry ∈ upper, Mapping.find? base entry.1 = some entry.2)
    (hself : ∀ entry ∈ upper, overlay (some entry.2) entry.2 = entry.2) :
    deepMerge base upper = base := by
  induction upper with
  | nil => exact deepMerge_nil base
  | cons entry rest ih =>
    rw [List.forall_mem_cons] at hfind hself
    rw [deepMerge_cons, hfind.1, hself.1, Mapping.set_of_find? hfind.1]
    exact ih hfind.2 hself.2

theorem overlay_self {d : Document} (h : Regular rule d) : overlay (some d) d = d := by
  induction d using byParts with
  | mapping entries ih =>
    rw [regular_mapping] at h
    rw [overlay_mapping, deepMerge_of_find? (fun entry hmem => Mapping.find?_of_mem h.1 hmem)
      (fun entry hmem => ih entry hmem (h.2 entry hmem))]
  | _ => exact overlay_of_not_mapping _ (by simp)

/-- A regular mapping laid over itself is the same mapping. -/
theorem deepMerge_self {entries : Mapping Document} (h : Regular rule (mapping entries)) :
    deepMerge entries entries = entries :=
  mapping.inj ((overlay_mapping entries entries).symm.trans (overlay_self h))

end Document

namespace RawDocument

mutual
/-- A document whose keys were made texts is regular: a text that stands for several keys is
declared once. -/
theorem regular_normalize (raw : RawDocument) : raw.normalize.Regular .any := by
  match raw with
  | scalar s => cases s <;> simp [normalize, Scalar.toDocument, Document.Regular, LeafRule.any]
  | list items => exact regular_normalizeItems items
  | mapping entries =>
    rw [normalize, Document.regular_mapping]
    refine ⟨Mapping.nodup_keys_ofEntries _, fun entry hmem => ?_⟩
    exact (Document.regularEntries_iff _).mp (regular_normalizeEntries entries) entry
      (Mapping.mem_of_mem_ofEntries hmem)

theorem regular_normalizeItems (items : List RawDocument) :
    Document.RegularItems .any (normalizeItems items) := by
  match items with
  | [] => trivial
  | item :: rest => exact ⟨regular_normalize item, regular_normalizeItems rest⟩

theorem regular_normalizeEntries (entries : List (Scalar × RawDocument)) :
    Document.RegularEntries .any (normalizeEntries entries) := by
  match entries with
  | [] => trivial
  | (key, value) :: rest => exact ⟨regular_normalize value, regular_normalizeEntries rest⟩
end

end RawDocument

end DesignTokens
