import DesignTokens.Config.Writing
import DesignTokens.Proofs.Document.Regular

/-!
# Values written without types

What is written without types keeps the shape of a document and its keys: only stamps and numbers
that are not finite change. A document without either is written as it is.
-/

namespace DesignTokens

namespace Document

theorem settleItems_eq_map (items : List Document) : settleItems items = items.map settle := by
  induction items with
  | nil => rfl
  | cons item rest ih => rw [settleItems, ih, List.map_cons]

theorem settleEntries_eq_mapValues (entries : Mapping Document) :
    settleEntries entries = Mapping.mapValues settle entries := by
  induction entries with
  | nil => rfl
  | cons entry rest ih =>
    obtain ⟨key, value⟩ := entry
    rw [settleEntries, ih, Mapping.mapValues]

theorem settle_list (items : List Document) : settle (list items) = list (items.map settle) := by
  rw [settle, settleItems_eq_map]

theorem settle_mapping (entries : Mapping Document) :
    settle (mapping entries) = mapping (Mapping.mapValues settle entries) := by
  rw [settle, settleEntries_eq_mapValues]

/-- A document written without types keeps its finite numbers and its keys. -/
private theorem Regular.settle_of {rule other : LeafRule} {d : Document}
    (hfloat : ∀ x : Double, x.isFinite = true → rule.float x = true → other.float x = true)
    (h : Regular rule d) : Regular other d.settle := by
  induction d using byParts with
  | float x =>
    rw [Document.settle]
    split
    · next hx => exact hfloat x hx h
    · trivial
  | list items ih =>
    rw [regular_list] at h
    rw [settle_list, regular_list]
    intro item hmem
    obtain ⟨old, hold, rfl⟩ := List.mem_map.mp hmem
    exact ih old hold (h old hold)
  | mapping entries ih =>
    rw [regular_mapping] at h
    rw [settle_mapping, regular_mapping, Mapping.keys_mapValues]
    refine ⟨h.1, fun entry hmem => ?_⟩
    obtain ⟨old, hold, hsettle⟩ := Mapping.mem_mapValues.mp hmem
    exact hsettle ▸ ih _ hold (h.2 _ hold)
  | _ => trivial

/-- A document written without types is as regular as before. -/
theorem Regular.settle {rule : LeafRule} {d : Document} (h : Regular rule d) :
    Regular rule d.settle :=
  h.settle_of fun _ _ hx => hx

/-- What is written without types has no stamps, and its numbers are finite. -/
theorem Regular.finite_settle {rule : LeafRule} {d : Document} (h : Regular rule d) :
    Regular .finite d.settle :=
  h.settle_of fun _ hx _ => hx

/-- Writing a document without types hides no key that is declared twice. -/
theorem regular_of_settle {d : Document} (h : Regular .any d.settle) : Regular .any d := by
  induction d using byParts with
  | float x => rfl
  | stamp t => rfl
  | list items ih =>
    rw [settle_list, regular_list] at h
    exact regular_list.mpr fun item hmem => ih item hmem (h _ (List.mem_map_of_mem hmem))
  | mapping entries ih =>
    rw [settle_mapping, regular_mapping, Mapping.keys_mapValues] at h
    exact regular_mapping.mpr ⟨h.1, fun entry hmem =>
      ih entry hmem (h.2 _ (Mapping.mem_mapValues_of_mem hmem))⟩
  | _ => trivial

/-- A document without stamps whose numbers are finite is written as it is. -/
theorem settle_eq_self {d : Document} (h : Regular .finite d) : d.settle = d := by
  induction d using byParts with
  | float x => rw [Document.settle, if_pos (show x.isFinite = true from h)]
  | stamp t => exact absurd (show false = true from h) (by decide)
  | list items ih =>
    rw [regular_list] at h
    rw [settle_list, List.map_congr_left fun item hmem => ih item hmem (h item hmem), List.map_id']
  | mapping entries ih =>
    rw [regular_mapping] at h
    rw [settle_mapping, Mapping.mapValues_eq_self fun entry hmem => ih entry hmem (h.2 entry hmem)]
  | _ => rfl

/-- What is written without types is written in the same way again. -/
theorem settle_settle (d : Document) : d.settle.settle = d.settle := by
  induction d using byParts with
  | float x =>
    by_cases hx : x.isFinite = true
    · simp only [settle, if_pos hx]
    · simp only [settle, if_neg hx]
  | list items ih =>
    rw [settle_list, settle_list, List.map_map]
    exact congrArg list (List.map_congr_left ih)
  | mapping entries ih =>
    rw [settle_mapping, settle_mapping, Mapping.mapValues_mapValues]
    exact congrArg mapping (Mapping.mapValues_congr ih)
  | _ => rfl

end Document

theorem settled_eq_mapValues (extras : Mapping Document) :
    settled extras = Mapping.mapValues Document.settle extras :=
  Document.settleEntries_eq_mapValues extras

@[simp] theorem settled_settled (extras : Mapping Document) :
    settled (settled extras) = settled extras := by
  rw [settled_eq_mapValues, settled_eq_mapValues, Mapping.mapValues_mapValues]
  exact Mapping.mapValues_congr fun entry _ => entry.2.settle_settle

@[simp] theorem keys_settled (extras : Mapping Document) :
    Mapping.keys (settled extras) = Mapping.keys extras := by
  rw [settled_eq_mapValues, Mapping.keys_mapValues]

theorem regular_mappingDocument {rule : LeafRule} {α : Type} {write : α → Document} {m : Mapping α} :
    (mappingDocument write m).Regular rule ↔
      (Mapping.keys m).Nodup ∧ ∀ key a, (key, a) ∈ m → (write a).Regular rule := by
  rw [mappingDocument, Document.regular_mapping, Mapping.keys_mapValues]
  refine and_congr_right fun _ => ⟨fun h key a hmem => ?_, fun h entry hmem => ?_⟩
  · exact h _ (Mapping.mem_mapValues_of_mem hmem)
  · obtain ⟨a, ha, heq⟩ := Mapping.mem_mapValues.mp hmem
    exact heq ▸ h _ _ ha

/-- A mapping whose values are written in the same way without types is so itself. -/
theorem settle_mappingDocument {α : Type} {write : α → Document}
    (h : ∀ a, (write a).settle = write a) (m : Mapping α) :
    (mappingDocument write m).settle = mappingDocument write m := by
  rw [mappingDocument, Document.settle_mapping, Mapping.mapValues_mapValues]
  exact congrArg _ (Mapping.mapValues_congr fun entry _ => h entry.2)

/-- A raw style object is written like any mapping whose values have no type. -/
theorem styleDocument_eq (style : Mapping Document) :
    styleDocument style = mappingDocument Document.settle style := by
  rw [styleDocument, settled_eq_mapValues, mappingDocument]

end DesignTokens
