import DesignTokens.Proofs.Document.Leaves
import DesignTokens.Proofs.Document.Outline
import Mathlib.Data.List.Dedup

/-!
# Documents in the order of a reference

Putting a document in the order of a reference moves its entries and does nothing else: the same
value is found at every path of keys, and a document without repeated keys keeps none.
-/

namespace DesignTokens

section Arrange

variable {α : Type} {entries : Mapping α} {order : List String}

theorem keys_pick (entries : Mapping α) (order : List String) :
    Mapping.keys (pick entries order) = order.filter (Mapping.has entries) := by
  induction order with
  | nil => rfl
  | cons key rest ih =>
    rw [pick, List.filter_cons, Mapping.has]
    cases h : Mapping.find? entries key with
    | none => simpa using ih
    | some value => simpa using ih

theorem mem_of_mem_pick {entry : String × α} (h : entry ∈ pick entries order) : entry ∈ entries := by
  induction order with
  | nil => simp [pick] at h
  | cons key rest ih =>
    rw [pick] at h
    split at h
    · next value hfind =>
      rcases List.mem_cons.mp h with rfl | h
      · exact Mapping.mem_of_find? hfind
      · exact ih h
    · exact ih h

theorem find?_pick (entries : Mapping α) (order : List String) (key : String) :
    Mapping.find? (pick entries order) key =
      if key ∈ order then Mapping.find? entries key else none := by
  induction order with
  | nil => rfl
  | cons first rest ih =>
    rw [pick]
    cases h : Mapping.find? entries first with
    | none => by_cases hkey : key = first <;> simp_all
    | some value =>
      rw [Mapping.find?_cons, ih]
      by_cases hkey : first = key
      · subst hkey
        simp [h]
      · have hkey' : ¬key = first := fun heq => hkey heq.symm
        simp [hkey, hkey']

theorem find?_filter_not_contains (entries : Mapping α) {key : String} (h : key ∉ order) :
    Mapping.find? (entries.filter fun entry => !order.contains entry.1) key =
      Mapping.find? entries key := by
  induction entries with
  | nil => rfl
  | cons entry rest ih =>
    obtain ⟨k, v⟩ := entry
    rw [List.filter_cons]
    split
    · rw [Mapping.find?_cons, Mapping.find?_cons, ih]
    · next hk =>
      rw [ih, Mapping.find?_cons, if_neg]
      rintro rfl
      simp [h] at hk

/-- Arranging entries changes nothing about what is found under a key. -/
theorem find?_arrange (entries : Mapping α) (order : List String) (key : String) :
    Mapping.find? (arrange entries order) key = Mapping.find? entries key := by
  rw [arrange, Mapping.find?_append, find?_pick]
  split
  · next h =>
    -- The entries that are left over have none of the keys in the order.
    cases hfind : Mapping.find? entries key with
    | some value => rfl
    | none =>
      rw [Option.none_or, Mapping.find?_eq_none_iff]
      intro hmem
      obtain ⟨entry, hentry, rfl⟩ := List.mem_map.mp hmem
      simp [h] at hentry
  · next h => rw [Option.none_or, find?_filter_not_contains entries h]

theorem mem_of_mem_arrange {entry : String × α} (h : entry ∈ arrange entries order) :
    entry ∈ entries := by
  rcases List.mem_append.mp h with h | h
  · exact mem_of_mem_pick h
  · exact (List.mem_filter.mp h).1

/-- The keys of the order come first, as they stand in it, and the others follow as they stood. -/
theorem keys_arrange (entries : Mapping α) (order : List String) :
    Mapping.keys (arrange entries order) =
      order.filter (· ∈ Mapping.keys entries) ++ (Mapping.keys entries).filter (· ∉ order) := by
  have hdeclared : order.filter (Mapping.has entries) = order.filter (· ∈ Mapping.keys entries) :=
    List.filter_congr fun key _ => by
      rw [Bool.eq_iff_iff, Mapping.has_iff, decide_eq_true_iff]
  have hothers : Mapping.keys (entries.filter fun entry => !order.contains entry.1) =
      (Mapping.keys entries).filter (· ∉ order) := by
    rw [Mapping.keys, Mapping.keys, List.filter_map]
    exact congrArg _ (List.filter_congr fun entry _ => by simp)
  rw [arrange, Mapping.keys_append, keys_pick, hdeclared, hothers]

theorem nodup_keys_arrange (hentries : (Mapping.keys entries).Nodup) (horder : order.Nodup) :
    (Mapping.keys (arrange entries order)).Nodup := by
  rw [keys_arrange]
  refine List.nodup_append.mpr ⟨horder.filter _, hentries.filter _, ?_⟩
  rintro key hleft _ hright rfl
  have hmem := (List.mem_filter.mp hleft).1
  simp [hmem] at hright

/-- Entries that declare no key twice are all kept: arranging them moves their keys. -/
theorem keys_arrange_perm (hentries : (Mapping.keys entries).Nodup) (horder : order.Nodup) :
    (Mapping.keys (arrange entries order)).Perm (Mapping.keys entries) := by
  refine (List.perm_ext_iff_of_nodup (nodup_keys_arrange hentries horder) hentries).mpr fun key => ?_
  rw [← Mapping.find?_isSome_iff, ← Mapping.find?_isSome_iff, find?_arrange]

theorem pick_congr {others : Mapping α}
    (h : ∀ key, Mapping.find? entries key = Mapping.find? others key) (order : List String) :
    pick entries order = pick others order := by
  induction order with
  | nil => rfl
  | cons key rest ih => rw [pick, pick, h, ih]

/-- Entries that stand in an order stay where they are. -/
theorem arrange_arrange (entries : Mapping α) (order : List String) :
    arrange (arrange entries order) order = arrange entries order := by
  have hpick : pick (arrange entries order) order = pick entries order :=
    pick_congr (find?_arrange entries order) order
  have hnone : (pick entries order).filter (fun entry => !order.contains entry.1) = [] := by
    rw [List.filter_eq_nil_iff]
    intro entry hmem
    have hkey := Mapping.mem_keys_of_mem hmem
    rw [keys_pick] at hkey
    simp [(List.mem_filter.mp hkey).1]
  have hothers : (arrange entries order).filter (fun entry => !order.contains entry.1) =
      entries.filter fun entry => !order.contains entry.1 := by
    rw [arrange, List.filter_append, hnone, List.nil_append, List.filter_filter]
    simp only [Bool.and_self]
  rw [arrange, hpick, hothers, ← arrange]

end Arrange

theorem mem_orderedEntries {entries declared : Mapping Document} {entry : String × Document}
    (h : entry ∈ orderedEntries entries declared) : ∃ d, (entry.1, d) ∈ entries ∧
      entry.2 = orderedLike d (Mapping.find? declared entry.1) := by
  induction entries with
  | nil => simp [orderedEntries] at h
  | cons first rest ih =>
    obtain ⟨key, d⟩ := first
    rw [orderedEntries] at h
    rcases List.mem_cons.mp h with rfl | h
    · exact ⟨d, List.mem_cons_self, rfl⟩
    · obtain ⟨d, hmem, heq⟩ := ih h
      exact ⟨d, List.mem_cons_of_mem _ hmem, heq⟩

theorem orderedEntries_eq_map (entries declared : Mapping Document) :
    orderedEntries entries declared = entries.map fun entry =>
      (entry.1, orderedLike entry.2 (Mapping.find? declared entry.1)) := by
  induction entries with
  | nil => rfl
  | cons entry rest ih => rw [orderedEntries, List.map_cons, ih]

theorem orderedEntries_pick (entries declared : Mapping Document) (order : List String) :
    orderedEntries (pick entries order) declared = pick (orderedEntries entries declared) order := by
  induction order with
  | nil => rfl
  | cons key rest ih =>
    rw [pick, pick, find?_orderedEntries]
    cases Mapping.find? entries key with
    | none => exact ih
    | some value => rw [Option.map_some, orderedEntries, ih]

/-- Values are ordered by their keys, wherever their entries stand. -/
theorem orderedEntries_arrange (entries declared : Mapping Document) (order : List String) :
    orderedEntries (arrange entries order) declared =
      arrange (orderedEntries entries declared) order := by
  rw [arrange, arrange, ← orderedEntries_pick, orderedEntries_eq_map, orderedEntries_eq_map,
    orderedEntries_eq_map, List.map_append, List.filter_map]
  rfl

/-- A document that stands in the order of a reference stays as it is. -/
theorem orderedLike_orderedLike (d : Document) (reference : Option Document) :
    orderedLike (orderedLike d reference) reference = orderedLike d reference := by
  induction d using Document.byParts generalizing reference with
  | mapping entries ih =>
    have hvalues : orderedEntries (orderedEntries entries (referenceEntries reference))
        (referenceEntries reference) = orderedEntries entries (referenceEntries reference) := by
      rw [orderedEntries_eq_map, orderedEntries_eq_map, List.map_map]
      exact List.map_congr_left fun entry hmem => Prod.ext rfl (ih entry hmem _)
    rw [orderedLike, orderedLike, orderedEntries_arrange, hvalues, arrange_arrange]
  | _ => simp [orderedLike]

namespace Document

theorem get?_orderedLike (d : Document) (reference : Option Document) (key : String) :
    (orderedLike d reference).get? key =
      (d.get? key).map fun child => orderedLike child (reference.bind (·.get? key)) := by
  cases d with
  | mapping entries =>
    have hdeclared : Mapping.find? (referenceEntries reference) key =
        reference.bind (·.get? key) := by
      cases reference with
      | none => rfl
      | some r => cases r <;> rfl
    rw [orderedLike, get?_mapping, find?_arrange, find?_orderedEntries, hdeclared, get?_mapping]
  | _ => rw [orderedLike] <;> simp [get?, entries?]

/-- At every path of keys an ordered document has what the document has there. -/
theorem at?_orderedLike (d : Document) (reference : Option Document) (keys : List String) :
    (orderedLike d reference).at? keys =
      (d.at? keys).map fun child => orderedLike child (reference.bind (·.at? keys)) := by
  induction keys generalizing d reference with
  | nil => cases reference <;> simp
  | cons key rest ih =>
    rw [at?_cons, get?_orderedLike, at?_cons]
    cases d.get? key with
    | none => rfl
    | some child =>
      rw [Option.map_some, Option.bind_some, Option.bind_some, ih]
      cases reference with
      | none => rfl
      | some r => simp

theorem literal?_orderedLike (d : Document) (reference : Option Document) :
    literal? (orderedLike d reference) = literal? d := by
  cases d <;> rw [orderedLike] <;> simp [literal?]

/-- A reference without repeated keys declares none twice. -/
theorem regular_referenceEntries {rule : LeafRule} {reference : Option Document}
    (h : ∀ r ∈ reference, Regular rule r) :
    (mapping (referenceEntries reference)).Regular rule := by
  cases reference with
  | none => exact regular_mapping_nil
  | some r =>
    cases r with
    | mapping _ => exact h _ rfl
    | _ => exact regular_mapping_nil

/-- A document without repeated keys stays one when it is ordered like another. -/
theorem Regular.orderedLike {rule : LeafRule} {d : Document} {reference : Option Document}
    (h : d.Regular rule) (href : ∀ r ∈ reference, Regular rule r) :
    (orderedLike d reference).Regular rule := by
  induction d using byParts generalizing reference with
  | mapping entries ih =>
    rw [regular_mapping] at h
    have hdeclared := regular_referenceEntries href
    rw [DesignTokens.orderedLike, regular_mapping]
    refine ⟨nodup_keys_arrange (by rw [keys_orderedEntries]; exact h.1)
      (regular_mapping.mp hdeclared).1, fun entry hmem => ?_⟩
    obtain ⟨d, hd, heq⟩ := mem_orderedEntries (mem_of_mem_arrange hmem)
    rw [heq]
    exact ih _ hd (h.2 _ hd) fun r hr => hdeclared.find? hr
  | _ => rwa [DesignTokens.orderedLike]; simp

theorem leaf?_orderedLike (d : Document) (reference : Option Document) (keys : List String) :
    (DesignTokens.orderedLike d reference).leaf? keys = d.leaf? keys := by
  rw [leaf?, leaf?, at?_orderedLike]
  cases d.at? keys <;> simp [literal?_orderedLike]

end Document

end DesignTokens
