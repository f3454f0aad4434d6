import DesignTokens.Proofs.Document.Regular
import DesignTokens.Proofs.Validation.Shape

/-!
# Sound structure

What the structure of a document must be, stated without looking at one theme before another. The
faults of its structure are found theme by theme against one reference, which comes to the same:
themes that agree with the reference agree with each other, and where every scale is complete a
literal and a scale never have the same keys below them.

## Main definitions

- `SoundTheme` — a theme by itself
- `SameNamespace` — two themes with the same names
- `SoundThemes`, `SoundOutput`, `SoundStructure` — all themes, the output settings, a whole document
-/

namespace DesignTokens

/-- A theme that declares both of its parts, each of whose scales has exactly the declared steps. -/
structure SoundTheme (theme : Mapping Document) : Prop where
  colors : "colors" ∈ Mapping.keys theme
  semantic : "semantic" ∈ Mapping.keys theme
  scales : ∀ name steps, (name, .mapping steps) ∈ part "colors" theme →
    SameKeys (Mapping.keys steps) colorSteps

/-- The same colours, each a literal in both themes or a scale in both, and the same roles in the
same categories. -/
structure SameNamespace (theme other : Mapping Document) : Prop where
  colors : Mapping.Alike (fun d d' => d.isMapping = d'.isMapping) (part "colors" theme)
    (part "colors" other)
  semantic : Mapping.Alike (fun d d' => SameKeys d.keys d'.keys) (part "semantic" theme)
    (part "semantic" other)

/-- All themes of a catalogue whose default mode is given. -/
structure SoundThemes (default : Document) (themes : Mapping Document) : Prop where
  nonempty : themes ≠ []
  default : ∃ mode ∈ Mapping.keys themes, default = .text mode
  each : ∀ mode d, (mode, d) ∈ themes → ∃ theme, d = .mapping theme ∧ SoundTheme theme
  alike : ∀ mode theme, (mode, .mapping theme) ∈ themes →
    ∀ mode' other, (mode', .mapping other) ∈ themes → SameNamespace theme other

/-- Output settings with a prefix, a place and a list of formats. -/
structure SoundOutput (tokens : Mapping Document) : Prop where
  variablePrefix : ∃ d, Mapping.find? tokens "prefix" = some d ∧ d.truthy = true
  output : ∃ d, Mapping.find? tokens "output" = some d ∧ d.truthy = true
  formats : ∃ formats, Mapping.find? tokens "formats" = some (.list formats)

/-- A document whose structure is as it must be. -/
structure SoundStructure (entries : Mapping Document) : Prop where
  version : ∃ d, Mapping.find? entries "version" = some d ∧ d.truthy = true
  theme : ∃ catalog, Mapping.find? entries "theme" = some (.mapping catalog) ∧
    ∃ themes, Mapping.find? catalog "themes" = some (.mapping themes) ∧
      SoundThemes (declaredDefault catalog) themes
  tokens : ∃ tokens, Mapping.find? entries "tokens" = some (.mapping tokens) ∧ SoundOutput tokens

theorem present_iff (entries : Mapping Document) (key : String) :
    present entries key = true ↔ ∃ d, Mapping.find? entries key = some d ∧ d.truthy = true := by
  unfold present
  cases Mapping.find? entries key <;> simp

theorem scaleFaults_eq_nil_iff (mode name : String) (d : Document) :
    scaleFaults mode (name, d) = [] ↔
      ∀ steps, d = .mapping steps → SameKeys (Mapping.keys steps) colorSteps := by
  cases d with
  | mapping steps =>
    simp only [scaleFaults, List.append_eq_nil_iff, ite_eq_left_iff, List.isEmpty_iff,
      sorted_eq_nil_iff, filter_not_contains_eq_nil_iff, imp_false, not_not, List.cons_ne_nil,
      Document.mapping.injEq, forall_eq']
    exact ⟨fun h key => ⟨h.2 key, h.1 key⟩,
      fun h => ⟨fun key => (h key).mpr, fun key => (h key).mp⟩⟩
  | _ => simp [scaleFaults]

theorem themeFaults_eq_nil_iff (mode : String) (d : Document) :
    themeFaults (mode, d) = [] ↔ ∃ theme, d = .mapping theme ∧ SoundTheme theme := by
  cases d with
  | mapping theme =>
    have hfaults : themeFaults (mode, .mapping theme) =
        (if Mapping.has theme "colors" then [] else [.colorsMissing mode]) ++
          (if Mapping.has theme "semantic" then [] else [.semanticMissing mode]) ++
          (part "colors" theme).flatMap (scaleFaults mode) := by
      simp only [themeFaults, part]
      cases Mapping.find? theme "colors" with
      | none => rfl
      | some d => cases d <;> rfl
    simp only [hfaults, List.append_eq_nil_iff, ite_eq_left_iff, List.cons_ne_nil,
      imp_false, not_not, Mapping.has_iff, List.flatMap_eq_nil_iff, Document.mapping.injEq,
      exists_eq_left']
    constructor
    · rintro ⟨⟨hcolors, hsemantic⟩, hscales⟩
      exact ⟨hcolors, hsemantic, fun name steps hmem =>
        (scaleFaults_eq_nil_iff mode name _).mp (hscales _ hmem) steps rfl⟩
    · rintro ⟨hcolors, hsemantic, hscales⟩
      refine ⟨⟨hcolors, hsemantic⟩, fun entry hmem => ?_⟩
      exact (scaleFaults_eq_nil_iff mode entry.1 entry.2).mpr fun steps hsteps =>
        hscales entry.1 steps (hsteps ▸ hmem)
  | _ => simp [themeFaults]

namespace SameNamespace

variable {theme other : Mapping Document}

theorem refl (theme : Mapping Document) : SameNamespace theme theme :=
  ⟨.refl fun _ _ _ => rfl, .refl fun _ d _ => .refl d.keys⟩

theorem symm (h : SameNamespace theme other) : SameNamespace other theme :=
  ⟨h.colors.symm.imp fun _ _ _ _ _ h => h.symm, h.semantic.symm.imp fun _ _ _ _ _ h => h.symm⟩

theorem trans {more : Mapping Document} (h : SameNamespace theme other)
    (h' : SameNamespace other more) : SameNamespace theme more :=
  ⟨(h.colors.trans h'.colors).imp fun _ _ _ _ _ ⟨_, hl, hr⟩ => hl.trans hr,
    (h.semantic.trans h'.semantic).imp fun _ _ _ _ _ ⟨_, hl, hr⟩ => hl.trans hr⟩

end SameNamespace

/-- Where scales are complete, values with the same keys below them are of one kind. -/
theorem sameKeys_keys_iff {d d' : Document}
    (hd : ∀ steps, d = .mapping steps → SameKeys (Mapping.keys steps) colorSteps)
    (hd' : ∀ steps, d' = .mapping steps → SameKeys (Mapping.keys steps) colorSteps) :
    SameKeys d.keys d'.keys ↔ d.isMapping = d'.isMapping := by
  have literal : ∀ {d : Document}, d.isMapping = false → d.keys = [] := by
    intro d h
    cases d <;> simp_all [Document.isMapping, Document.entries?, Document.keys]
  have scale : ∀ {d : Document},
      (∀ steps, d = .mapping steps → SameKeys (Mapping.keys steps) colorSteps) →
      d.isMapping = true → SameKeys d.keys colorSteps := by
    intro d hd h
    cases d with
    | mapping steps => exact hd steps rfl
    | _ => simp [Document.isMapping, Document.entries?] at h
  -- A literal has no keys below it and a complete scale has steps, so their keys tell them apart.
  have differ : ¬ SameKeys [] colorSteps := fun h => by simpa using (h "50").mpr (by decide)
  cases h : d.isMapping <;> cases h' : d'.isMapping
  · simp [literal h, literal h', SameKeys.refl]
  · rw [literal h]
    simpa using fun hkeys => differ (hkeys.trans (scale hd' h'))
  · rw [literal h']
    simpa using fun hkeys => differ (hkeys.symm.trans (scale hd h))
  · simpa using (scale hd h).trans (scale hd' h').symm

/-- Themes whose scales are complete have the same shape exactly when they have the same names. -/
theorem sameShape_iff_sameNamespace {theme other : Mapping Document} (h : SoundTheme theme)
    (h' : SoundTheme other) :
    SameShape (themeShape theme) (themeShape other) ↔ SameNamespace theme other := by
  have hscales : ∀ {theme : Mapping Document}, SoundTheme theme → ∀ {name d},
      Mapping.find? (part "colors" theme) name = some d →
      ∀ steps, d = .mapping steps → SameKeys (Mapping.keys steps) colorSteps := by
    rintro theme h name d hd steps rfl
    exact h.scales name steps (Mapping.mem_of_find? hd)
  rw [sameShape_themeShape_iff]
  constructor
  · rintro ⟨hcolors, hsemantic⟩
    exact ⟨hcolors.imp fun _ _ _ hd hd' => (sameKeys_keys_iff (hscales h hd) (hscales h' hd')).mp,
      hsemantic⟩
  · rintro ⟨hcolors, hsemantic⟩
    exact ⟨hcolors.imp fun _ _ _ hd hd' => (sameKeys_keys_iff (hscales h hd) (hscales h' hd')).mpr,
      hsemantic⟩

/-- No theme differs from the reference theme exactly when no two themes differ. -/
theorem shapesFaults_eq_nil_iff {themes : Mapping Document} {reference : String}
    (hnodup : (Mapping.keys themes).Nodup) (hreference : reference ∈ Mapping.keys themes)
    (heach : ∀ mode d, (mode, d) ∈ themes → ∃ theme, d = .mapping theme ∧ SoundTheme theme) :
    shapesFaults themes reference = [] ↔ ∀ mode theme, (mode, .mapping theme) ∈ themes →
      ∀ mode' other, (mode', .mapping other) ∈ themes → SameNamespace theme other := by
  obtain ⟨d, hd⟩ := Mapping.exists_find?_of_mem_keys hreference
  obtain ⟨base, rfl, hbase⟩ := heach reference d (Mapping.mem_of_find? hd)
  have hsound : ∀ {mode theme}, (mode, .mapping theme) ∈ themes → SoundTheme theme := by
    intro mode theme hmem
    obtain ⟨_, h, hsound⟩ := heach _ _ hmem
    cases h
    exact hsound
  simp only [shapesFaults, hd, List.flatMap_eq_nil_iff]
  constructor
  -- Only the reference is compared with each theme; two others agree because both agree with it.
  · intro h
    have hagrees : ∀ {mode theme}, (mode, .mapping theme) ∈ themes → SameNamespace base theme := by
      intro mode theme hmem
      by_cases hmode : mode = reference
      · rw [hmode] at hmem
        -- The reference is not compared with itself, and no other theme is declared under its mode.
        cases hd.symm.trans (Mapping.find?_of_mem hnodup hmem)
        exact .refl _
      · have hfaults := h _ hmem
        simp only [if_neg hmode] at hfaults
        exact (sameShape_iff_sameNamespace hbase (hsound hmem)).mp
          (shapeFaults_eq_nil_iff.mp hfaults)
    exact fun _ _ hmem _ _ hmem' => (hagrees hmem).symm.trans (hagrees hmem')
  · rintro h ⟨mode, d⟩ hmem
    obtain ⟨theme, rfl, htheme⟩ := heach mode d hmem
    simp only [ite_eq_left_iff]
    intro _
    exact shapeFaults_eq_nil_iff.mpr ((sameShape_iff_sameNamespace hbase htheme).mpr
      (h reference base (Mapping.mem_of_find? hd) mode theme hmem))

theorem namedMode_eq_ok_some_iff (themes : Mapping Document) (d : Document) (mode : String) :
    namedMode themes d = .ok (some mode) ↔ d = .text mode ∧ mode ∈ Mapping.keys themes := by
  cases d with
  | text s =>
    simp only [namedMode, Except.ok.injEq, Option.ite_none_right_eq_some, Option.some.injEq,
      Mapping.has_iff, Document.text.injEq]
    exact ⟨fun ⟨hmem, hs⟩ => ⟨hs, hs ▸ hmem⟩, fun ⟨hs, hmem⟩ => ⟨hs ▸ hmem, hs⟩⟩
  | _ => simp [namedMode]

theorem soundThemes_iff {default : Document} {themes : Mapping Document} {named : Option String}
    (hnamed : namedMode themes default = .ok named) (hnodup : (Mapping.keys themes).Nodup)
    (hnonempty : themes ≠ []) (fallback : String) :
    SoundThemes default themes ↔ named.isSome = true ∧ themes.flatMap themeFaults = [] ∧
      shapesFaults themes (named.getD fallback) = [] := by
  have heach : themes.flatMap themeFaults = [] ↔
      ∀ mode d, (mode, d) ∈ themes → ∃ theme, d = .mapping theme ∧ SoundTheme theme := by
    rw [List.flatMap_eq_nil_iff]
    exact ⟨fun h mode d hmem => (themeFaults_eq_nil_iff mode d).mp (h _ hmem),
      fun h entry hmem => (themeFaults_eq_nil_iff entry.1 entry.2).mpr (h _ _ hmem)⟩
  rw [heach]
  constructor
  · rintro ⟨-, ⟨mode, hmode, rfl⟩, heach, halike⟩
    -- The default theme is declared, so it is the reference and the fallback plays no part.
    cases hnamed.symm.trans ((namedMode_eq_ok_some_iff themes _ mode).mpr ⟨rfl, hmode⟩)
    exact ⟨rfl, heach, (shapesFaults_eq_nil_iff hnodup hmode heach).mpr halike⟩
  · rintro ⟨hsome, heach, halike⟩
    obtain ⟨mode, rfl⟩ := Option.isSome_iff_exists.mp hsome
    obtain ⟨rfl, hmode⟩ := (namedMode_eq_ok_some_iff themes default mode).mp hnamed
    exact ⟨hnonempty, ⟨mode, hmode, rfl⟩, heach,
      (shapesFaults_eq_nil_iff hnodup hmode heach).mp halike⟩

/-- No fault is left in a theme section exactly when it declares sound themes. -/
theorem catalogFaults_eq_nil_iff {catalog : Mapping Document} {faults : List ConfigFault}
    (h : catalogFaults catalog = .ok faults)
    (hnodup : ∀ themes, Mapping.find? catalog "themes" = some (.mapping themes) →
      (Mapping.keys themes).Nodup) :
    faults = [] ↔ ∃ themes, Mapping.find? catalog "themes" = some (.mapping themes) ∧
      SoundThemes (declaredDefault catalog) themes := by
  unfold catalogFaults at h
  split at h
  · next hthemes =>
    cases h
    simp only [hthemes, List.cons_ne_nil, Option.some.injEq, Document.mapping.injEq, false_iff]
    rintro ⟨themes, rfl, hsound⟩
    exact hsound.nonempty rfl
  · next first rest hthemes =>
    cases hnamed : namedMode (first :: rest) (declaredDefault catalog) with
    | error compound => simp [hnamed, bind, Except.bind] at h
    | ok named =>
      simp only [hnamed] at h
      cases h
      have hiff := soundThemes_iff hnamed (hnodup _ hthemes) (List.cons_ne_nil _ _)
        first.1
      simp only [hthemes, Option.some.injEq, Document.mapping.injEq, exists_eq_left', hiff,
        List.append_eq_nil_iff, ite_eq_left_iff, List.cons_ne_nil, imp_false, not_not, and_assoc]
  · next hempty hcons =>
    cases h
    simp only [List.cons_ne_nil, false_iff, not_exists, not_and]
    intro themes hthemes
    cases themes with
    | nil => exact absurd hthemes hempty
    | cons first rest => exact absurd hthemes (hcons first rest)

/-- A theme section whose default is a text is examined to the end. -/
theorem exists_catalogFaults {catalog : Mapping Document} {mode : String}
    (h : declaredDefault catalog = .text mode) : ∃ faults, catalogFaults catalog = .ok faults := by
  unfold catalogFaults
  split
  · exact ⟨_, rfl⟩
  · rw [h]
    exact ⟨_, rfl⟩
  · exact ⟨_, rfl⟩

theorem formatsFaults_eq_nil_iff (tokens : Mapping Document) : formatsFaults tokens = [] ↔
    ∃ formats, Mapping.find? tokens "formats" = some (.list formats) := by
  unfold formatsFaults
  cases Mapping.find? tokens "formats" with
  | none => simp
  | some d => cases d <;> simp

theorem outputFaults_eq_nil_iff (tokens : Mapping Document) :
    outputFaults tokens = [] ↔ SoundOutput tokens := by
  simp only [outputFaults, List.append_eq_nil_iff, ite_eq_left_iff, List.cons_ne_nil, imp_false,
    not_not, present_iff, formatsFaults_eq_nil_iff]
  exact ⟨fun ⟨⟨hfirst, houtput⟩, hformats⟩ => ⟨hfirst, houtput, hformats⟩,
    fun ⟨hfirst, houtput, hformats⟩ => ⟨⟨hfirst, houtput⟩, hformats⟩⟩

theorem themeSectionFaults_eq_nil_iff {rule : LeafRule} {entries : Mapping Document}
    {faults : List ConfigFault} (h : themeSectionFaults entries = .ok faults)
    (hregular : (Document.mapping entries).Regular rule) :
    faults = [] ↔ ∃ catalog, Mapping.find? entries "theme" = some (.mapping catalog) ∧
      ∃ themes, Mapping.find? catalog "themes" = some (.mapping themes) ∧
        SoundThemes (declaredDefault catalog) themes := by
  unfold themeSectionFaults at h
  split at h
  · next catalog hcatalog =>
    simp only [hcatalog, Option.some.injEq, Document.mapping.injEq, exists_eq_left']
    exact catalogFaults_eq_nil_iff h fun themes hthemes =>
      (Document.regular_mapping.mp ((hregular.find? hcatalog).find? hthemes)).1
  · next hmissing =>
    cases h
    simp only [List.cons_ne_nil, false_iff, not_exists, not_and]
    exact fun catalog hcatalog => absurd hcatalog (hmissing catalog)

theorem tokensSectionFaults_eq_nil_iff (entries : Mapping Document) :
    tokensSectionFaults entries = [] ↔
      ∃ tokens, Mapping.find? entries "tokens" = some (.mapping tokens) ∧ SoundOutput tokens := by
  unfold tokensSectionFaults
  cases Mapping.find? entries "tokens" with
  | none => simp
  | some d => cases d <;> simp [outputFaults_eq_nil_iff]

theorem versionFaults_eq_nil_iff (entries : Mapping Document) : versionFaults entries = [] ↔
    ∃ d, Mapping.find? entries "version" = some d ∧ d.truthy = true := by
  rw [← present_iff, versionFaults]
  simp

/-- No fault is left in a document exactly when its structure is sound. -/
theorem structureFaults_eq_nil_iff {rule : LeafRule} {entries : Mapping Document}
    {faults : List ConfigFault} (h : structureFaults entries = .ok faults)
    (hregular : (Document.mapping entries).Regular rule) :
    faults = [] ↔ SoundStructure entries := by
  unfold structureFaults at h
  cases htheme : themeSectionFaults entries with
  | error compound => simp [htheme, bind, Except.bind] at h
  | ok themeFaults =>
    rw [htheme] at h
    cases h
    rw [List.append_eq_nil_iff, List.append_eq_nil_iff, versionFaults_eq_nil_iff,
      themeSectionFaults_eq_nil_iff htheme hregular, tokensSectionFaults_eq_nil_iff]
    exact ⟨fun ⟨⟨hversion, htheme⟩, htokens⟩ => ⟨hversion, htheme, htokens⟩,
      fun ⟨hversion, htheme, htokens⟩ => ⟨⟨hversion, htheme⟩, htokens⟩⟩

end DesignTokens
