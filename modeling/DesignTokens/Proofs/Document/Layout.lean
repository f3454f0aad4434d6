import DesignTokens.Config.Writing
import DesignTokens.Proofs.Document.Leaves
import DesignTokens.Proofs.Document.Merging
import DesignTokens.Proofs.Document.Outline

/-!
# Layouts of documents

Two documents have the same layout when they hold texts and objects at the same paths of keys. A
document is within a reference when it has no keys that the reference lacks wherever both hold an
object, and laying documents over each other keeps them within it. When the reference itself is laid
over a document within it, what comes out is the reference, up to the order of keys, so in the order
of the reference it is the reference itself.

## Main definitions

- `Document.SameLayout` — texts and objects at the same paths
- `Document.Within` — no keys that the reference lacks
-/

namespace DesignTokens

namespace Document

/-- Two texts, or two objects. -/
inductive SameKind : Document → Document → Prop
  | texts (s t : String) : SameKind (.text s) (.text t)
  | objects (entries others : Mapping Document) : SameKind (.mapping entries) (.mapping others)

/-- At every path of keys both documents hold nothing, or texts, or objects. -/
def SameLayout (d other : Document) : Prop :=
  ∀ keys, Option.Rel SameKind (d.at? keys) (other.at? keys)

/-- Wherever a document and a reference both hold an object, the document has no keys there that the
reference lacks. -/
def Within (d reference : Document) : Prop :=
  ∀ keys entries others, d.at? keys = some (.mapping entries) →
    reference.at? keys = some (.mapping others) → Mapping.keys entries ⊆ Mapping.keys others

variable {d reference : Document} {entries others : Mapping Document} {rule : LeafRule}

theorem sameLayout_text (s t : String) : (text s).SameLayout (text t) := by
  intro keys
  cases keys with
  | nil =>
    rw [at?_nil, at?_nil]
    exact .some (.texts s t)
  | cons key rest => simp [get?, entries?]

/-- Objects have the same layout when they have the same keys with values of the same layout. -/
theorem sameLayout_mapping (h : Mapping.Alike SameLayout entries others) :
    (mapping entries).SameLayout (mapping others) := by
  intro keys
  cases keys with
  | nil =>
    rw [at?_nil, at?_nil]
    exact .some (.objects entries others)
  | cons key rest =>
    have hkey := Mapping.alike_iff.mp h key
    rw [at?_cons, get?_mapping, at?_cons, get?_mapping]
    generalize Mapping.find? entries key = d at hkey ⊢
    generalize Mapping.find? others key = other at hkey ⊢
    cases hkey with
    | none => exact .none
    | some hvalues => exact hvalues rest

theorem sameLayout_textsDocument {texts others : Mapping String}
    (h : SameKeys (Mapping.keys texts) (Mapping.keys others)) :
    (textsDocument texts).SameLayout (textsDocument others) := by
  refine sameLayout_mapping ((Mapping.alike_mapValues_iff _ _).mpr ⟨h, fun _ s t _ _ => ?_⟩)
  exact sameLayout_text s t

theorem at?_append (d : Document) (keys more : List String) :
    d.at? (keys ++ more) = (d.at? keys).bind fun inner => inner.at? more := by
  induction keys generalizing d with
  | nil => simp
  | cons key rest ih => simp [ih, Option.bind_assoc]

theorem at?_eq_some_of_not_mapping (h : d.isMapping = false) {keys : List String} {value : Document}
    (hvalue : d.at? keys = some value) : value = d := by
  cases keys with
  | nil => exact (Option.some.inj (d.at?_nil ▸ hvalue)).symm
  | cons key rest =>
    cases d with
    | mapping _ => cases h
    | _ => simp [get?, entries?] at hvalue

namespace Within

theorem of_not_mapping (h : d.isMapping = false ∨ reference.isMapping = false) :
    d.Within reference := by
  intro keys entries others hentries hothers
  rcases h with h | h
  · cases at?_eq_some_of_not_mapping h hentries ▸ h
  · cases at?_eq_some_of_not_mapping h hothers ▸ h

/-- An object is within another when its keys are among those of the other, and every value is
within the value of the other. -/
theorem mapping_iff : (mapping entries).Within (mapping others) ↔
    Mapping.keys entries ⊆ Mapping.keys others ∧
      ∀ key d reference, Mapping.find? entries key = some d →
        Mapping.find? others key = some reference → d.Within reference := by
  constructor
  · intro h
    refine ⟨h [] entries others (at?_nil _) (at?_nil _), ?_⟩
    intro key d reference hd hreference keys inner inner' hinner hinner'
    refine h (key :: keys) inner inner' ?_ ?_
    · rw [at?_cons, get?_mapping, hd, Option.bind_some, hinner]
    · rw [at?_cons, get?_mapping, hreference, Option.bind_some, hinner']
  · rintro ⟨hkeys, hvalues⟩ keys inner inner' hinner hinner'
    cases keys with
    | nil =>
      cases (at?_nil _).symm.trans hinner
      cases (at?_nil _).symm.trans hinner'
      exact hkeys
    | cons key rest =>
      rw [at?_cons, get?_mapping, Option.bind_eq_some_iff] at hinner hinner'
      obtain ⟨d, hd, hinner⟩ := hinner
      obtain ⟨reference, hreference, hinner'⟩ := hinner'
      exact hvalues key d reference hd hreference rest inner inner' hinner hinner'

/-- Documents of the same layout are within each other. -/
theorem of_sameLayout (h : d.SameLayout reference) : d.Within reference := by
  intro keys entries others hentries hothers key hkey
  have hrel := h (keys ++ [key])
  obtain ⟨value, hvalue⟩ := Mapping.exists_find?_of_mem_keys hkey
  simp only [at?_append, hentries, hothers, Option.bind_some, at?_cons, get?_mapping, hvalue,
    at?_nil] at hrel
  cases hother : Mapping.find? others key with
  | none =>
    rw [hother] at hrel
    cases hrel
  | some _ => exact Mapping.mem_keys_of_find? hother

theorem nil : (mapping []).Within (mapping others) :=
  mapping_iff.mpr ⟨List.nil_subset _, fun _ _ _ h => by cases h⟩

/-- A value within a reference, laid over another one within it, is within it. -/
theorem overlay {old : Option Document} (hold : ∀ d ∈ old, d.Within reference)
    (hregular : d.Regular rule) (h : d.Within reference) :
    (overlay old d).Within reference := by
  induction d using byParts generalizing old reference with
  | mapping upper ih =>
    by_cases hbase : ∃ base, old = some (.mapping base)
    · obtain ⟨base, rfl⟩ := hbase
      cases reference with
      | mapping others =>
        have hnodup := hregular.nodup_keys
        obtain ⟨hbelow, hinner⟩ := mapping_iff.mp (hold _ rfl)
        obtain ⟨habove, hinner'⟩ := mapping_iff.mp h
        rw [overlay_mapping, mapping_iff]
        refine ⟨?_, fun key d other hd hother => ?_⟩
        · rw [keys_deepMerge hnodup]
          exact List.append_subset.mpr ⟨hbelow, fun key hkey => habove (List.mem_filter.mp hkey).1⟩
        · rw [find?_deepMerge hnodup, Option.or_eq_some_iff] at hd
          rcases hd with hd | ⟨-, hd⟩
          · obtain ⟨value, hvalue, rfl⟩ := Option.map_eq_some_iff.mp hd
            exact ih _ (Mapping.mem_of_find? hvalue) (fun d hd => hinner key d other hd hother)
              (hregular.find? hvalue) (hinner' key value other hvalue hother)
          · exact hinner key d other hd hother
      | _ => exact of_not_mapping (.inr rfl)
    · rwa [overlay_over_not_mapping (not_exists.mp hbase)]
  | _ => rwa [overlay_of_not_mapping _ (by simp)]

theorem deepMerge {base upper : Mapping Document} (hbase : (mapping base).Within reference)
    (hregular : (mapping upper).Regular rule) (hupper : (mapping upper).Within reference) :
    (mapping (deepMerge base upper)).Within reference := by
  rw [← overlay_mapping]
  exact overlay (fun d hd => Option.mem_some_iff.mp hd ▸ hbase) hregular hupper

theorem deepMergeAll {base : Mapping Document} {uppers : List (Mapping Document)}
    (hbase : (mapping base).Within reference)
    (huppers : ∀ upper ∈ uppers, (mapping upper).Regular rule ∧ (mapping upper).Within reference) :
    (mapping (deepMergeAll base uppers)).Within reference := by
  induction uppers generalizing base with
  | nil => exact hbase
  | cons upper rest ih =>
    obtain ⟨⟨hregular, hupper⟩, hrest⟩ := List.forall_mem_cons.mp huppers
    exact ih (hbase.deepMerge hregular hupper) hrest

end Within

/-- A reference laid over what is within it, in the order of the reference, is the reference. -/
theorem orderedLike_overlay {old : Option Document} (hreference : reference.Regular rule)
    (hold : ∀ d ∈ old, d.Within reference) :
    orderedLike (DesignTokens.overlay old reference) (some reference) = reference := by
  induction reference using byParts generalizing old with
  | mapping others ih =>
    have hnodup := hreference.nodup_keys
    -- The merged object has the keys of the reference only, each with the reference's value over
    -- something within that value.
    obtain ⟨merged, heq, hkeys, hvalues⟩ : ∃ merged,
        DesignTokens.overlay old (.mapping others) = .mapping merged ∧
          Mapping.keys merged ⊆ Mapping.keys others ∧
          ∀ entry ∈ others, ∃ below : Option Document, (∀ d ∈ below, d.Within entry.2) ∧
            Mapping.find? merged entry.1 = some (DesignTokens.overlay below entry.2) := by
      by_cases hbase : ∃ base, old = some (.mapping base)
      · obtain ⟨base, rfl⟩ := hbase
        obtain ⟨hbelow, hinner⟩ := Within.mapping_iff.mp (hold _ rfl)
        refine ⟨deepMerge base others, overlay_mapping base others, ?_, fun entry hmem => ?_⟩
        · rw [keys_deepMerge hnodup]
          exact List.append_subset.mpr ⟨hbelow, fun key hkey => (List.mem_filter.mp hkey).1⟩
        · have hfind := Mapping.find?_of_mem hnodup hmem
          refine ⟨Mapping.find? base entry.1, fun d hd => hinner entry.1 d entry.2 hd hfind, ?_⟩
          rw [find?_deepMerge hnodup, hfind, Option.map_some, Option.some_or]
      · refine ⟨others, overlay_over_not_mapping (not_exists.mp hbase) _, List.Subset.refl _, ?_⟩
        intro entry hmem
        refine ⟨none, by simp, ?_⟩
        rw [overlay_over_not_mapping (by simp), Mapping.find?_of_mem hnodup hmem]
    rw [heq, orderedLike_of_subset hkeys]
    congr 1
    refine (along_pick fun entry hmem => ?_).eq
    obtain ⟨below, hbelow, hfind⟩ := hvalues entry hmem
    refine ⟨_, by rw [find?_orderedEntries, hfind, Option.map_some], ?_⟩
    rw [Mapping.find?_of_mem hnodup hmem]
    exact ih entry hmem ((regular_mapping.mp hreference).2 entry hmem) hbelow
  | _ =>
    rw [overlay_of_not_mapping _ (by simp), orderedLike]
    simp

end Document

end DesignTokens
