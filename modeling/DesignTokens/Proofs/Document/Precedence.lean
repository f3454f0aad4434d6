import DesignTokens.Proofs.Document.Layout

/-!
# Precedence along paths

What stands at a path of keys after one document was laid over another: a value of the upper document
that is no mapping, or an upper mapping as a whole where the lower document has none, or what the lower
document holds. Where both hold a mapping there is one with the keys of both.

## Main definitions

- `Document.HoldsMapping`, `Document.HoldsLeaf` — which kind of value stands at a path
- `Document.Introduces` — a document has a mapping where another one has none
-/

namespace DesignTokens

variable {rule : LeafRule}

namespace Document

/-- A mapping stands at a path of keys. -/
def HoldsMapping (d : Document) (path : List String) : Prop :=
  ∃ entries, d.at? path = some (.mapping entries)

/-- A value that is no mapping stands at a path of keys. -/
def HoldsLeaf (d : Document) (path : List String) : Prop :=
  ∃ leaf, d.at? path = some leaf ∧ leaf.isMapping = false

/-- A document has a mapping at a path where another one has none: nothing at all, or a value that is no
mapping. -/
def Introduces (upper lower : Document) (path : List String) : Prop :=
  upper.HoldsMapping path ∧ ¬ lower.HoldsMapping path

variable {d value lower upper : Document} {old : Option Document} {path above : List String}

theorem isMapping_eq_false_iff : d.isMapping = false ↔ ∀ entries, d ≠ .mapping entries := by
  cases d <;> simp [isMapping, entries?]

/-- Nothing stands at a path, or a mapping, or another value. -/
theorem holds_cases (d : Document) (path : List String) :
    d.at? path = none ∨ d.HoldsMapping path ∨ d.HoldsLeaf path := by
  cases h : d.at? path with
  | none => exact .inl rfl
  | some value =>
    cases value with
    | mapping entries => exact .inr (.inl ⟨entries, h⟩)
    | _ => exact .inr (.inr ⟨_, h, rfl⟩)

theorem HoldsLeaf.not_holdsMapping (h : d.HoldsLeaf path) : ¬ d.HoldsMapping path := by
  obtain ⟨leaf, hleaf, hplain⟩ := h
  rintro ⟨entries, hentries⟩
  cases hleaf.symm.trans hentries
  cases hplain

/-- Nothing stands below a value that is no mapping. -/
theorem HoldsLeaf.at?_eq_none (h : d.HoldsLeaf above) (hpath : above <+: path) (hne : above ≠ path) :
    d.at? path = none := by
  obtain ⟨leaf, hleaf, hplain⟩ := h
  obtain ⟨_ | ⟨key, rest⟩, rfl⟩ := hpath
  · exact absurd (List.append_nil above).symm hne
  · rw [at?_append, hleaf, Option.bind_some, at?_cons]
    cases leaf with
    | mapping entries => cases hplain
    | _ => rfl

theorem Regular.at? (h : d.Regular rule) (hvalue : d.at? path = some value) :
    value.Regular rule := by
  induction path generalizing d with
  | nil => exact Option.some.inj ((at?_nil d).symm.trans hvalue) ▸ h
  | cons key rest ih =>
    rw [at?_cons, Option.bind_eq_some_iff] at hvalue
    obtain ⟨child, hkey, hvalue⟩ := hvalue
    cases d with
    | mapping entries => exact ih (h.find? hkey) hvalue
    | _ => cases hkey

/-- On the way to where nothing stands there is a last value, which lacks the next key. -/
theorem exists_last_of_at?_eq_none (h : d.at? path = none) : ∃ above key rest last,
    path = above ++ key :: rest ∧ d.at? above = some last ∧ last.get? key = none := by
  induction path generalizing d with
  | nil => simp at h
  | cons key rest ih =>
    cases hkey : d.get? key with
    | none => exact ⟨[], key, rest, d, rfl, at?_nil d, hkey⟩
    | some child =>
      rw [at?_cons, hkey, Option.bind_some] at h
      obtain ⟨above, next, more, last, rfl, hlast, hnext⟩ := ih h
      refine ⟨key :: above, next, more, last, rfl, ?_, hnext⟩
      rw [at?_cons, hkey, Option.bind_some, hlast]

/-- One key down, the value of the upper document is laid over what stands there below it. -/
theorem at?_overlay_cons {entries : Mapping Document} (hnodup : (Mapping.keys entries).Nodup)
    {key : String} (hkey : Mapping.find? entries key = some value) (rest : List String) :
    (overlay old (.mapping entries)).at? (key :: rest) =
      (overlay (old.bind fun d => d.get? key) value).at? rest := by
  by_cases hold : ∃ base, old = some (.mapping base)
  · obtain ⟨base, rfl⟩ := hold
    rw [overlay_mapping, at?_cons, get?_mapping, find?_deepMerge hnodup, hkey, Option.map_some,
      Option.some_or, Option.bind_some, Option.bind_some, get?_mapping]
  · -- Below a value that is no mapping there is nothing to lay anything over.
    have hnone : (old.bind fun d => d.get? key) = none := by
      cases old with
      | none => rfl
      | some d =>
        cases d with
        | mapping base => exact absurd ⟨base, rfl⟩ hold
        | _ => rfl
    rw [overlay_over_not_mapping (not_exists.mp hold), hnone, overlay_none, at?_cons, get?_mapping,
      hkey, Option.bind_some]

/-- Where the upper document holds a value, it is laid over what stands there in the lower one. -/
theorem at?_overlay (hupper : upper.Regular rule) (h : upper.at? path = some value) :
    (overlay old upper).at? path = some (overlay (old.bind fun d => d.at? path) value) := by
  induction path generalizing old upper with
  | nil =>
    obtain rfl : upper = value := Option.some.inj ((at?_nil upper).symm.trans h)
    have hold : (old.bind fun d => d.at? []) = old := by cases old <;> simp
    rw [at?_nil, hold]
  | cons key rest ih =>
    rw [at?_cons, Option.bind_eq_some_iff] at h
    obtain ⟨child, hkey, hvalue⟩ := h
    cases upper with
    | mapping entries =>
      rw [at?_overlay_cons hupper.nodup_keys hkey, ih (hupper.find? hkey) hvalue, Option.bind_assoc]
      simp only [at?_cons]
    | _ => cases hkey

/-- A value that is no mapping takes the place of anything. -/
theorem at?_overlay_of_leaf (hupper : upper.Regular rule) (h : upper.at? path = some value)
    (hvalue : value.isMapping = false) : (overlay (some lower) upper).at? path = some value := by
  rw [at?_overlay hupper h, overlay_of_not_mapping _ (isMapping_eq_false_iff.mp hvalue)]

/-- From where the upper document brings a mapping on, there is nothing but the upper document. -/
theorem at?_overlay_of_introduces (hupper : upper.Regular rule) (h : upper.Introduces lower above)
    (hpath : above <+: path) : (overlay (some lower) upper).at? path = upper.at? path := by
  obtain ⟨⟨entries, hentries⟩, hlower⟩ := h
  obtain ⟨rest, rfl⟩ := hpath
  have hbelow : ∀ base, lower.at? above ≠ some (.mapping base) := not_exists.mp hlower
  rw [at?_append, at?_append, at?_overlay hupper hentries, Option.bind_some, Option.bind_some,
    overlay_over_not_mapping hbelow, hentries, Option.bind_some]

/-- Two mappings are merged. -/
theorem at?_overlay_of_mappings (hupper : upper.Regular rule) {base entries : Mapping Document}
    (hbase : lower.at? path = some (.mapping base)) (h : upper.at? path = some (.mapping entries)) :
    (overlay (some lower) upper).at? path = some (.mapping (deepMerge base entries)) := by
  rw [at?_overlay hupper h, Option.bind_some, hbase, overlay_mapping]

/-- Where the upper document holds nothing, and nothing of it stands in the way, the lower one is kept. -/
theorem at?_overlay_of_absent (hupper : upper.Regular rule) (h : upper.at? path = none)
    (hclear : ∀ above, above <+: path → above ≠ path →
      ¬ upper.HoldsLeaf above ∧ ¬ upper.Introduces lower above) :
    (overlay (some lower) upper).at? path = lower.at? path := by
  obtain ⟨above, key, rest, last, rfl, hlast, hkey⟩ := exists_last_of_at?_eq_none h
  obtain ⟨hleaf, hintroduces⟩ := hclear above (List.prefix_append _ _) (by simp)
  -- The last value on the way is a mapping in both documents, and the upper one lacks the next key.
  cases last with
  | mapping entries =>
    have hlower : lower.HoldsMapping above := by
      by_contra hlower
      exact hintroduces ⟨⟨entries, hlast⟩, hlower⟩
    obtain ⟨base, hbase⟩ := hlower
    have hmissing : key ∉ Mapping.keys entries := (Mapping.find?_eq_none_iff _ _).mp hkey
    rw [at?_append, at?_append, at?_overlay_of_mappings hupper hbase hlast, hbase, Option.bind_some,
      Option.bind_some, at?_cons, at?_cons, get?_mapping, get?_mapping,
      find?_deepMerge_of_not_mem hmissing]
  | _ => exact absurd ⟨_, hlast, rfl⟩ hleaf

/-- Whatever stands somewhere stands there in the upper document, or it is kept from the lower one, or
both hold a mapping there. -/
theorem at?_overlay_cases (hupper : upper.Regular rule)
    (h : (overlay (some lower) upper).at? path = some value) :
    upper.at? path = some value ∨ upper.at? path = none ∧ lower.at? path = some value ∨
      lower.HoldsMapping path ∧ upper.HoldsMapping path := by
  rcases holds_cases upper path with hnone | hmapping | ⟨leaf, hleaf, hplain⟩
  · by_cases hclear : ∀ above, above <+: path → above ≠ path →
        ¬ upper.HoldsLeaf above ∧ ¬ upper.Introduces lower above
    · rw [at?_overlay_of_absent hupper hnone hclear] at h
      exact .inr (.inl ⟨hnone, h⟩)
    · push Not at hclear
      obtain ⟨above, hpath, hne, hblocked⟩ := hclear
      by_cases hleaf : upper.HoldsLeaf above
      · obtain ⟨leaf, hleaf, hplain⟩ := hleaf
        have hresult : (overlay (some lower) upper).HoldsLeaf above :=
          ⟨leaf, at?_overlay_of_leaf hupper hleaf hplain, hplain⟩
        rw [hresult.at?_eq_none hpath hne] at h
        cases h
      · rw [at?_overlay_of_introduces hupper (hblocked hleaf) hpath, hnone] at h
        cases h
  · by_cases hlower : lower.HoldsMapping path
    · exact .inr (.inr ⟨hlower, hmapping⟩)
    · rw [at?_overlay_of_introduces hupper ⟨hmapping, hlower⟩ (List.prefix_refl path)] at h
      exact .inl h
  · rw [at?_overlay_of_leaf hupper hleaf hplain] at h
    cases h
    exact .inl hleaf

end Document

section Merged

open Document

variable {base upper : Mapping Document}

/-- What a merged mapping holds, path by path. A value of the upper mapping that is no mapping stands, and
nothing stands below it. From where the upper mapping introduces a mapping on, there is nothing else.
Where it holds nothing and neither happens on the way, the lower mapping is kept. Two mappings become
one with the keys of the lower one and then those that only the upper one has. There is nothing else. -/
theorem merged_path_by_path (hbase : (mapping base).Regular .any)
    (hupper : (mapping upper).Regular .any) :
    (∀ path value, (mapping upper).at? path = some value → value.isMapping = false →
      (mapping (deepMerge base upper)).at? path = some value) ∧
    (∀ path above, above ≠ [] → above <+: path → (mapping upper).Introduces (mapping base) above →
      (mapping (deepMerge base upper)).at? path = (mapping upper).at? path) ∧
    (∀ path, (mapping upper).at? path = none →
      (∀ above, above <+: path → above ≠ path →
        ¬ (mapping upper).HoldsLeaf above ∧ ¬ (mapping upper).Introduces (mapping base) above) →
      (mapping (deepMerge base upper)).at? path = (mapping base).at? path) ∧
    (∀ path below entries, (mapping base).at? path = some (.mapping below) →
      (mapping upper).at? path = some (.mapping entries) →
      ∃ merged, (mapping (deepMerge base upper)).at? path = some (.mapping merged) ∧
        Mapping.keys merged =
          Mapping.keys below ++ (Mapping.keys entries).filter (· ∉ Mapping.keys below)) ∧
    (∀ path above, (mapping upper).HoldsLeaf above → above <+: path → above ≠ path →
      (mapping (deepMerge base upper)).at? path = none) ∧
    (∀ path value, (mapping (deepMerge base upper)).at? path = some value →
      (mapping upper).at? path = some value ∨
        (mapping upper).at? path = none ∧ (mapping base).at? path = some value ∨
        (mapping base).HoldsMapping path ∧ (mapping upper).HoldsMapping path) ∧
    deepMerge base [] = base ∧ deepMerge [] upper = upper ∧ deepMerge base base = base := by
  simp only [← overlay_mapping]
  refine ⟨fun path value h hvalue => at?_overlay_of_leaf hupper h hvalue,
    fun path above _ hpath h => at?_overlay_of_introduces hupper h hpath,
    fun path h hclear => at?_overlay_of_absent hupper h hclear,
    fun path below entries hbelow hentries => ?_, fun path above h hpath hne => ?_,
    fun path value h => at?_overlay_cases hupper h, deepMerge_nil base, ?_, deepMerge_self hbase⟩
  · refine ⟨_, at?_overlay_of_mappings hupper hbelow hentries, keys_deepMerge ?_⟩
    exact (hupper.at? hentries).nodup_keys
  · obtain ⟨leaf, hleaf, hplain⟩ := h
    have hresult : (overlay (some (mapping base)) (mapping upper)).HoldsLeaf above :=
      ⟨leaf, at?_overlay_of_leaf hupper hleaf hplain, hplain⟩
    exact hresult.at?_eq_none hpath hne
  · exact deepMerge_nil_left hupper.nodup_keys

/-- A box with a colour and two sides. -/
def boxEntries : Mapping Document :=
  [("color", .text "red"), ("size", .mapping [("width", .int 1), ("height", .int 2)])]

/-- Another height and a third side, and three shades in the place of the colour. -/
def boxOverrides : Mapping Document :=
  [("size", .mapping [("depth", .int 5), ("height", .int 4)]),
    ("color", .mapping [("light", .text "pink")])]

theorem box_merged_path_by_path :
    (mapping boxEntries).Regular .any ∧ (mapping boxOverrides).Regular .any ∧
      (mapping (deepMerge boxEntries boxOverrides)).at? ["size", "height"] = some (.int 4) ∧
      (mapping (deepMerge boxEntries boxOverrides)).at? ["color", "light"] = some (.text "pink") ∧
      (mapping (deepMerge boxEntries boxOverrides)).at? ["size", "width"] = some (.int 1) ∧
      ∃ merged, (mapping (deepMerge boxEntries boxOverrides)).at? ["size"] = some (.mapping merged) ∧
        Mapping.keys merged = ["width", "height", "depth"] := by
  have hbase : (mapping boxEntries).Regular .any := by decide
  have hupper : (mapping boxOverrides).Regular .any := by decide
  obtain ⟨hleaf, hintroduced, hkept, hboth, -⟩ := merged_path_by_path hbase hupper
  refine ⟨hbase, hupper, hleaf ["size", "height"] _ rfl rfl, ?_, ?_, hboth ["size"] _ _ rfl rfl⟩
  · refine hintroduced ["color", "light"] ["color"] (by simp) (List.prefix_append _ _) ⟨⟨_, rfl⟩, ?_⟩
    rintro ⟨_, h⟩
    cases h
  · refine hkept ["size", "width"] rfl fun above hpath hne => ?_
    -- On the way both hold mappings.
    rcases List.prefix_cons_iff.mp hpath with rfl | ⟨rest, rfl, hrest⟩
    · exact ⟨fun h => h.not_holdsMapping ⟨_, rfl⟩, fun h => h.2 ⟨_, rfl⟩⟩
    · rcases List.prefix_cons_iff.mp hrest with rfl | ⟨more, rfl, hmore⟩
      · exact ⟨fun h => h.not_holdsMapping ⟨_, rfl⟩, fun h => h.2 ⟨_, rfl⟩⟩
      · exact absurd (by rw [List.prefix_nil.mp hmore]) hne

end Merged

end DesignTokens
