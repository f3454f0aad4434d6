import DesignTokens.Proofs.Document.Precedence

/-!
# Laying three documents over each other

Whether the lower two or the upper two of three documents are merged first makes a difference only where
the middle one parts the other two: it holds a value that is no mapping between two mappings, and the
lower mapping adds something to the upper one.

## Main definitions

- `Document.PartedAt` — a value between two mappings that would not give the upper one alone
-/

namespace DesignTokens

variable {rule : LeafRule}

namespace Document

/-- At a path of keys the middle document holds a value that is no mapping, the lower and the upper one
hold mappings, and the lower mapping shows below the upper one. -/
structure PartedAt (lower middle upper : Document) (path : List String) : Prop where
  between : middle.HoldsLeaf path
  differ : ∃ below above, lower.at? path = some (.mapping below) ∧
    upper.at? path = some (.mapping above) ∧ deepMerge below above ≠ above

variable {d lower middle upper : Document} {path above : List String}

/-- On the way to any value there are mappings. -/
theorem holdsMapping_of_at? {value : Document} (h : d.at? path = some value) (hpath : above <+: path)
    (hne : above ≠ path) : d.HoldsMapping above := by
  rcases holds_cases d above with hnone | hmapping | hleaf
  · obtain ⟨rest, rfl⟩ := hpath
    rw [at?_append, hnone] at h
    cases h
  · exact hmapping
  · rw [hleaf.at?_eq_none hpath hne] at h
    cases h

theorem PartedAt.holdsMapping (h : PartedAt lower middle upper path) (hpath : above <+: path)
    (hne : above ≠ path) :
    lower.HoldsMapping above ∧ middle.HoldsMapping above ∧ upper.HoldsMapping above := by
  obtain ⟨⟨_, hmiddle, -⟩, below, top, hlower, hupper, -⟩ := h
  exact ⟨holdsMapping_of_at? hlower hpath hne, holdsMapping_of_at? hmiddle hpath hne,
    holdsMapping_of_at? hupper hpath hne⟩

theorem PartedAt.lower_holdsMapping (h : PartedAt lower middle upper path) :
    lower.HoldsMapping path := by
  obtain ⟨-, below, top, hlower, -⟩ := h
  exact ⟨below, hlower⟩

theorem PartedAt.upper_holdsMapping (h : PartedAt lower middle upper path) :
    upper.HoldsMapping path := by
  obtain ⟨-, below, top, -, hupper, -⟩ := h
  exact ⟨top, hupper⟩

/-- A document that holds a mapping anywhere is one. -/
theorem HoldsMapping.exists_eq (h : d.HoldsMapping path) : ∃ entries, d = .mapping entries := by
  obtain ⟨entries, hentries⟩ := h
  cases path with
  | nil => exact ⟨entries, Option.some.inj ((at?_nil d).symm.trans hentries)⟩
  | cons key rest =>
    cases d with
    | mapping entries => exact ⟨entries, rfl⟩
    | _ => cases hentries

/-- One key down there is a parting exactly where the three values under the key have one. -/
theorem partedAt_cons_iff {first second third : Mapping Document} {key : String}
    {rest : List String} :
    PartedAt (.mapping first) (.mapping second) (.mapping third) (key :: rest) ↔
      ∃ a b c, Mapping.find? first key = some a ∧ Mapping.find? second key = some b ∧
        Mapping.find? third key = some c ∧ PartedAt a b c rest := by
  constructor
  · rintro ⟨⟨leaf, hleaf, hplain⟩, below, top, hbelow, htop, hdiffer⟩
    rw [at?_cons, get?_mapping, Option.bind_eq_some_iff] at hleaf hbelow htop
    obtain ⟨b, hb, hleaf⟩ := hleaf
    obtain ⟨a, ha, hbelow⟩ := hbelow
    obtain ⟨c, hc, htop⟩ := htop
    exact ⟨a, b, c, ha, hb, hc, ⟨leaf, hleaf, hplain⟩, below, top, hbelow, htop, hdiffer⟩
  · rintro ⟨a, b, c, ha, hb, hc, ⟨leaf, hleaf, hplain⟩, below, top, hbelow, htop, hdiffer⟩
    refine ⟨⟨leaf, ?_, hplain⟩, below, top, ?_, ?_, hdiffer⟩
    · rw [at?_cons, get?_mapping, hb, Option.bind_some, hleaf]
    · rw [at?_cons, get?_mapping, ha, Option.bind_some, hbelow]
    · rw [at?_cons, get?_mapping, hc, Option.bind_some, htop]

/-- A value that is no mapping parts two documents at its own place alone. -/
theorem partedAt_iff_of_middle (h : middle.isMapping = false) :
    PartedAt lower middle upper path ↔ path = [] ∧ ∃ below above, lower = .mapping below ∧
      upper = .mapping above ∧ deepMerge below above ≠ above := by
  constructor
  · rintro ⟨⟨leaf, hleaf, -⟩, below, top, hbelow, htop, hdiffer⟩
    cases path with
    | nil =>
      rw [at?_nil, Option.some.injEq] at hbelow htop
      exact ⟨rfl, below, top, hbelow, htop, hdiffer⟩
    | cons key rest =>
      cases middle with
      | mapping _ => cases h
      | _ => simp [get?, entries?] at hleaf
  · rintro ⟨rfl, below, top, rfl, rfl, hdiffer⟩
    exact ⟨⟨middle, at?_nil _, h⟩, below, top, at?_nil _, at?_nil _, hdiffer⟩

end Document

open Document

/-- The mappings agree in whichever order they are merged when the values under each key that all three
have agree. -/
theorem deepMerge_deepMerge_eq_iff {first second third : Mapping Document}
    (hfirst : (Mapping.keys first).Nodup) (hsecond : (Mapping.keys second).Nodup)
    (hthird : (Mapping.keys third).Nodup) :
    deepMerge (deepMerge first second) third = deepMerge first (deepMerge second third) ↔
      ∀ key a b c, Mapping.find? first key = some a → Mapping.find? second key = some b →
        Mapping.find? third key = some c →
        overlay (some (overlay (some a) b)) c = overlay (some a) (overlay (some b) c) := by
  have hupper : (Mapping.keys (deepMerge second third)).Nodup := nodup_keys_deepMerge hsecond hthird
  constructor
  · intro h key a b c ha hb hc
    have hkey := congrArg (fun merged => Mapping.find? merged key) h
    simpa [find?_deepMerge, hsecond, hthird, hupper, ha, hb, hc] using hkey
  · intro h
    have hkeys : Mapping.keys (deepMerge (deepMerge first second) third) =
        Mapping.keys (deepMerge first (deepMerge second third)) := by
      rw [keys_deepMerge hthird, keys_deepMerge hsecond, keys_deepMerge hupper,
        keys_deepMerge hthird, List.filter_append, List.filter_filter, List.append_assoc]
      congr 2
      refine List.filter_congr fun key _ => ?_
      by_cases hmem : key ∈ Mapping.keys first <;> simp [hmem]
    refine Mapping.eq_of_find? hkeys
      (nodup_keys_deepMerge (nodup_keys_deepMerge hfirst hsecond) hthird) fun key => ?_
    rw [find?_deepMerge hthird, find?_deepMerge hsecond, find?_deepMerge hupper,
      find?_deepMerge hthird]
    -- Only where all three declare the key is there anything to be laid twice.
    cases ha : Mapping.find? first key with
    | none => cases hb : Mapping.find? second key <;> cases hc : Mapping.find? third key <;>
        simp [overlay_none]
    | some a =>
      cases hb : Mapping.find? second key with
      | none => cases hc : Mapping.find? third key <;> simp [overlay_none]
      | some b =>
        cases hc : Mapping.find? third key with
        | none => simp
        | some c => simpa using h key a b c ha hb hc

/-- Over a middle value that is no mapping the upper mapping stands alone, so all that matters is whether
the lower value shows below it. -/
theorem overlay_overlay_eq_iff_of_middle {lower middle : Document} (h : middle.isMapping = false)
    (third : Mapping Document) :
    overlay (some (overlay (some lower) middle)) (.mapping third) =
        overlay (some lower) (overlay (some middle) (.mapping third)) ↔
      ∀ path, ¬ PartedAt lower middle (.mapping third) path := by
  have hplain := isMapping_eq_false_iff.mp h
  rw [overlay_of_not_mapping _ hplain, overlay_over_not_mapping (by simpa using hplain)]
  simp only [partedAt_iff_of_middle h]
  by_cases hlower : ∃ first, lower = .mapping first
  · obtain ⟨first, rfl⟩ := hlower
    rw [overlay_mapping]
    simp [eq_comm]
  · rw [overlay_over_not_mapping (by simpa using not_exists.mp hlower)]
    refine iff_of_true rfl ?_
    rintro _ ⟨-, below, -, rfl, -⟩
    exact hlower ⟨below, rfl⟩

/-- Three documents laid over each other give the same in both orders when nothing parts them. -/
theorem overlay_overlay_eq_iff {lower middle upper : Document} (hlower : lower.Regular rule)
    (hmiddle : middle.Regular rule) (hupper : upper.Regular rule) :
    overlay (some (overlay (some lower) middle)) upper =
        overlay (some lower) (overlay (some middle) upper) ↔
      ∀ path, ¬ PartedAt lower middle upper path := by
  -- The induction is on the upper document: below each of its keys stand the three values to compare.
  induction upper using byParts generalizing lower middle with
  | mapping third ih =>
    cases middle with
    | mapping second =>
      by_cases hfirst : ∃ first, lower = .mapping first
      · obtain ⟨first, rfl⟩ := hfirst
        rw [overlay_mapping, overlay_mapping, overlay_mapping, overlay_mapping, mapping.injEq,
          deepMerge_deepMerge_eq_iff hlower.nodup_keys hmiddle.nodup_keys hupper.nodup_keys]
        have hvalues : ∀ key a b c, Mapping.find? first key = some a →
            Mapping.find? second key = some b → Mapping.find? third key = some c →
            (overlay (some (overlay (some a) b)) c = overlay (some a) (overlay (some b) c) ↔
              ∀ path, ¬ PartedAt a b c path) := fun key a b c ha hb hc =>
          ih (key, c) (Mapping.mem_of_find? hc) (hlower.find? ha) (hmiddle.find? hb) (hupper.find? hc)
        constructor
        · rintro h (_ | ⟨key, rest⟩) hparted
          · exact hparted.between.not_holdsMapping ⟨second, at?_nil _⟩
          · obtain ⟨a, b, c, ha, hb, hc, hparted⟩ := partedAt_cons_iff.mp hparted
            exact (hvalues key a b c ha hb hc).mp (h key a b c ha hb hc) rest hparted
        · intro h key a b c ha hb hc
          refine (hvalues key a b c ha hb hc).mpr fun rest hparted => h (key :: rest) ?_
          exact partedAt_cons_iff.mpr ⟨a, b, c, ha, hb, hc, hparted⟩
      · have hlower' : ∀ first, some lower ≠ some (.mapping first) := by
          simpa using not_exists.mp hfirst
        rw [overlay_over_not_mapping hlower', overlay_over_not_mapping hlower']
        exact iff_of_true rfl fun path h => hfirst h.lower_holdsMapping.exists_eq
    | _ => exact overlay_overlay_eq_iff_of_middle rfl third
  | _ =>
    rw [overlay_of_not_mapping _ (by simp), overlay_of_not_mapping (some middle) (by simp),
      overlay_of_not_mapping (some lower) (by simp)]
    refine iff_of_true rfl fun path h => ?_
    obtain ⟨entries, hentries⟩ := h.upper_holdsMapping.exists_eq
    cases hentries

/-- Merging may be re-associated exactly when at no path of keys, below mappings of all three, the middle
mapping holds a value that is no mapping between two mappings of which the lower one shows below the
upper one. -/
theorem deepMerge_assoc_iff {first second third : Mapping Document}
    (hfirst : (mapping first).Regular .any) (hsecond : (mapping second).Regular .any)
    (hthird : (mapping third).Regular .any) :
    deepMerge (deepMerge first second) third = deepMerge first (deepMerge second third) ↔
      ¬ ∃ path, (∀ above, above <+: path → above ≠ path → (mapping first).HoldsMapping above ∧
          (mapping second).HoldsMapping above ∧ (mapping third).HoldsMapping above) ∧
        PartedAt (.mapping first) (.mapping second) (.mapping third) path := by
  have hiff := overlay_overlay_eq_iff hfirst hsecond hthird
  rw [overlay_mapping, overlay_mapping, overlay_mapping, overlay_mapping, mapping.injEq] at hiff
  rw [hiff, not_exists]
  refine forall_congr' fun path => not_congr ⟨fun h => ⟨?_, h⟩, And.right⟩
  exact fun above hpath hne => h.holdsMapping hpath hne

/-- A border with a width, one without, and one with a colour. -/
def borderWidth : Mapping Document := [("border", .mapping [("width", .int 1)])]

def noBorder : Mapping Document := [("border", .text "none")]

def borderColor : Mapping Document := [("border", .mapping [("color", .text "red")])]

theorem deepMerge_border_ne :
    (mapping borderWidth).Regular .any ∧ (mapping noBorder).Regular .any ∧
      (mapping borderColor).Regular .any ∧
      deepMerge (deepMerge borderWidth noBorder) borderColor ≠
        deepMerge borderWidth (deepMerge noBorder borderColor) := by
  have hwidth : (mapping borderWidth).Regular .any := by decide
  have hnone : (mapping noBorder).Regular .any := by decide
  have hcolor : (mapping borderColor).Regular .any := by decide
  refine ⟨hwidth, hnone, hcolor, fun h => ?_⟩
  have hparted : PartedAt (.mapping borderWidth) (.mapping noBorder) (.mapping borderColor)
      ["border"] := by
    refine ⟨⟨.text "none", rfl, rfl⟩, [("width", .int 1)], [("color", .text "red")], rfl, rfl, ?_⟩
    exact fun h => absurd (congrArg Mapping.keys h) (by decide)
  exact (deepMerge_assoc_iff hwidth hnone hcolor).mp h
    ⟨["border"], fun above hpath hne => hparted.holdsMapping hpath hne, hparted⟩

end DesignTokens
