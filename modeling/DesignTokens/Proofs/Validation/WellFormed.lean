import DesignTokens.Proofs.Config.Reread
import DesignTokens.Proofs.Validation.Structure

/-!
# Well-formed configurations

The structure of a document says something about the configuration that is read from it: a document
that spells out what it must declare is sound exactly when its configuration is well formed.

## Main definitions

- `Theme.SameNames` — two themes with the same names
- `Config.WellFormed` — what the structure of a document says about its configuration
- `Declares` — the keys that a document must spell out
-/

namespace DesignTokens

open Read

/-- Whether a colour is a scale. -/
def ValueOrGroup.isGroup : ValueOrGroup → Bool
  | value _ => false
  | group _ => true

/-- The same colours, each a literal in both themes or a scale in both, and the same roles in the
same categories. -/
structure Theme.SameNames (theme other : Theme) : Prop where
  colors : Mapping.Alike (fun v w => v.isGroup = w.isGroup) theme.colors other.colors
  semantic : Mapping.Alike (fun roles others => SameKeys (Mapping.keys roles) (Mapping.keys others))
    theme.semantic other.semantic

/-- Every scale of a theme has exactly the declared steps. -/
def Theme.CompleteScales (theme : Theme) : Prop :=
  ∀ name steps, (name, .group steps) ∈ theme.colors → SameKeys (Mapping.keys steps) colorSteps

/-- Themes among which the default one is declared, whose scales are complete and which have the
same names. -/
structure ThemeCatalog.WellFormed (catalog : ThemeCatalog) : Prop where
  default : catalog.default ∈ Mapping.keys catalog.themes
  scales : ∀ mode theme, (mode, theme) ∈ catalog.themes → theme.CompleteScales
  alike : ∀ mode theme, (mode, theme) ∈ catalog.themes →
    ∀ mode' other, (mode', other) ∈ catalog.themes → theme.SameNames other

/-- A configuration with a version, well-formed themes, a prefix and a place for its artifacts. -/
structure Config.WellFormed (config : Config) : Prop where
  version : config.version.toDocument.truthy = true
  theme : config.theme.WellFormed
  variablePrefix : config.tokens.variablePrefix ≠ ""
  output : config.tokens.output ≠ ""

/-- The keys that a document must spell out, whatever stands under them. -/
structure Declares (entries : Mapping Document) : Prop where
  version : "version" ∈ Mapping.keys entries
  theme : ∃ catalog, Mapping.find? entries "theme" = some (.mapping catalog) ∧
    ∃ themes, Mapping.find? catalog "themes" = some (.mapping themes) ∧
      ∀ mode theme, (mode, .mapping theme) ∈ themes →
        "colors" ∈ Mapping.keys theme ∧ "semantic" ∈ Mapping.keys theme
  tokens : ∃ tokens, Mapping.find? entries "tokens" = some (.mapping tokens) ∧
    "prefix" ∈ Mapping.keys tokens ∧ "output" ∈ Mapping.keys tokens ∧ "formats" ∈ Mapping.keys tokens

namespace Read

variable {α : Type} {check : Document → Checked α}

theorem field_only_eq_valid_iff {entries : Mapping Document} {key : String} {default a : α} :
    field entries (.only key) default check = .valid a ↔
      (∃ d, Mapping.find? entries key = some d ∧ check d = .valid a) ∨
        Mapping.find? entries key = none ∧ default = a := by
  cases h : Mapping.find? entries key <;> simp [field, FieldKey.find?, FieldKey.only, h]

theorem check_of_field {entries : Mapping Document} {key : String} {default a : α} {d : Document}
    (h : field entries (.only key) default check = .valid a)
    (hd : Mapping.find? entries key = some d) : check d = .valid a := by
  rcases field_only_eq_valid_iff.mp h with ⟨_, hd', hcheck⟩ | ⟨hmissing, -⟩
  · rwa [Option.some.inj (hd.symm.trans hd')]
  · rw [hd] at hmissing
    cases hmissing

/-- A field that was read is present with a property exactly when it is declared and its value has
the property. -/
theorem exists_find?_iff {entries : Mapping Document} {key : String} {default a : α}
    (h : field entries (.only key) default check = .valid a) {P : Document → Prop} {Q : Prop}
    (hPQ : ∀ d, check d = .valid a → (P d ↔ Q)) :
    (∃ d, Mapping.find? entries key = some d ∧ P d) ↔ key ∈ Mapping.keys entries ∧ Q := by
  constructor
  · rintro ⟨d, hd, hP⟩
    exact ⟨Mapping.mem_keys_of_find? hd, (hPQ d (check_of_field h hd)).mp hP⟩
  · rintro ⟨hkey, hQ⟩
    obtain ⟨d, hd⟩ := Mapping.exists_find?_of_mem_keys hkey
    exact ⟨d, hd, (hPQ d (check_of_field h hd)).mpr hQ⟩

/-- A field that is a mapping, read entry by entry; a missing one is empty. -/
theorem entries_of_field {entries : Mapping Document} {key : String} {values : Mapping α}
    (h : field entries (.only key) [] (mappingOf check) = .valid values) :
    Entries check (part key entries) values := by
  rcases field_only_eq_valid_iff.mp h with ⟨d, hd, hcheck⟩ | ⟨hmissing, rfl⟩
  · obtain ⟨members, rfl, hmembers⟩ := (mappingOf_eq_valid_iff d values).mp hcheck
    simpa [part, hd, Document.entries?] using hmembers
  · rw [part, hmissing]
    exact .nil

/-- Mappings are alike as documents when they are alike as they were read. -/
theorem alike_iff_of_entries {R : Document → Document → Prop} {S : α → α → Prop}
    {m n : Mapping Document} {values others : Mapping α} (hm : Entries check m values)
    (hn : Entries check n others)
    (hRS : ∀ d d' a b, check d = .valid a → check d' = .valid b → (R d d' ↔ S a b)) :
    Mapping.Alike R m n ↔ Mapping.Alike S values others := by
  constructor
  · intro h
    refine ((hm.alike.symm.trans h).trans hn.alike).imp ?_
    rintro _ a b _ _ ⟨d', ⟨d, ha, hR⟩, hb⟩
    exact (hRS d d' a b ha hb).mp hR
  · intro h
    refine ((hm.alike.trans h).trans hn.alike.symm).imp ?_
    rintro _ d d' _ _ ⟨b, ⟨a, ha, hS⟩, hb⟩
    exact (hRS d d' a b ha hb).mpr hS

theorem valueOrGroup_eq_valid_iff (d : Document) (v : ValueOrGroup) :
    valueOrGroup d = .valid v ↔ (∃ s, d = .text s ∧ v = .value s) ∨
      ∃ steps members, d = .mapping steps ∧ Entries text steps members ∧ v = .group members := by
  rw [valueOrGroup, Checked.orElse_eq_valid_iff]
  cases d with
  | text s => simp [text, mappingOf, eq_comm]
  | mapping steps => simp [text, mappingOf, ofEntries_eq_valid_iff, eq_comm]
  | _ => simp [text, mappingOf]

theorem tokenValue_truthy {d : Document} {v : TokenValue} (h : tokenValue d = .valid v) :
    v.toDocument.truthy = d.truthy := by
  cases d with
  | bool b => cases h; cases b <;> rfl
  | _ => first | (cases h; rfl) | simp [tokenValue] at h

theorem isGroup_eq {d : Document} {v : ValueOrGroup} (h : valueOrGroup d = .valid v) :
    v.isGroup = d.isMapping := by
  rcases (valueOrGroup_eq_valid_iff d v).mp h with ⟨s, rfl, rfl⟩ | ⟨steps, members, rfl, -, rfl⟩
  · rfl
  · rfl

end Read

namespace Theme

theorem exists_of_read {d : Document} {theme : Theme} (h : Theme.read d = .valid theme) :
    ∃ entries, d = .mapping entries ∧ Entries valueOrGroup (part "colors" entries) theme.colors ∧
      Entries (mappingOf text) (part "semantic" entries) theme.semantic := by
  obtain ⟨entries, rfl, hslots, -⟩ := (slotted.read_iff d theme).mp h
  simp only [slots, List.forall_mem_cons, Slot.read_field_iff] at hslots
  obtain ⟨hcolors, hsemantic, -⟩ := hslots
  exact ⟨entries, rfl, entries_of_field hcolors, entries_of_field hsemantic⟩

/-- Complete scales of a document are complete scales of its theme. -/
theorem completeScales_iff {entries : Mapping Document} {theme : Theme}
    (h : Entries valueOrGroup (part "colors" entries) theme.colors) :
    (∀ name steps, (name, .mapping steps) ∈ part "colors" entries →
      SameKeys (Mapping.keys steps) colorSteps) ↔ theme.CompleteScales := by
  constructor
  · intro hscales name members hmem
    obtain ⟨d, hd, hcheck⟩ := h.exists_left hmem
    rcases (valueOrGroup_eq_valid_iff d _).mp hcheck with ⟨_, _, hv⟩ | ⟨steps, _, rfl, hread, hv⟩
    · cases hv
    · cases hv
      exact hread.keys_eq ▸ hscales name steps hd
  · intro hscales name steps hmem
    obtain ⟨v, hv, hcheck⟩ := h.exists_right hmem
    rcases (valueOrGroup_eq_valid_iff _ v).mp hcheck with ⟨_, hd, _⟩ | ⟨_, members, hd, hread, rfl⟩
    · cases hd
    · cases hd
      exact hread.keys_eq ▸ hscales name members hv

/-- Two documents of themes have the same names when their themes have. -/
theorem sameNamespace_iff {entries others : Mapping Document} {theme other : Theme}
    (h : Entries valueOrGroup (part "colors" entries) theme.colors ∧
      Entries (mappingOf text) (part "semantic" entries) theme.semantic)
    (h' : Entries valueOrGroup (part "colors" others) other.colors ∧
      Entries (mappingOf text) (part "semantic" others) other.semantic) :
    SameNamespace entries others ↔ theme.SameNames other := by
  have hcolors := alike_iff_of_entries (R := fun d d' => d.isMapping = d'.isMapping)
    (S := fun v w => v.isGroup = w.isGroup) h.1 h'.1 fun d d' v w hv hw => by
      rw [isGroup_eq hv, isGroup_eq hw]
  have hkeys : ∀ {d : Document} {roles}, mappingOf text d = .valid roles →
      d.keys = Mapping.keys roles := by
    intro d roles hroles
    obtain ⟨members, rfl, hread⟩ := (mappingOf_eq_valid_iff d roles).mp hroles
    exact hread.keys_eq
  have hsemantic := alike_iff_of_entries (R := fun d d' => SameKeys d.keys d'.keys)
    (S := fun roles others => SameKeys (Mapping.keys roles) (Mapping.keys others)) h.2 h'.2
    fun d d' roles others hroles hothers => by rw [hkeys hroles, hkeys hothers]
  exact ⟨fun h => ⟨hcolors.mp h.colors, hsemantic.mp h.semantic⟩,
    fun h => ⟨hcolors.mpr h.colors, hsemantic.mpr h.semantic⟩⟩

end Theme

namespace ThemeCatalog

theorem exists_of_read {d : Document} {catalog : ThemeCatalog}
    (h : ThemeCatalog.read d = .valid catalog) : ∃ entries, d = .mapping entries ∧
      declaredDefault entries = .text catalog.default ∧
      field entries themesKey [] (mappingOf Theme.read) = .valid catalog.themes := by
  obtain ⟨entries, rfl, hslots, -⟩ := (slotted.read_iff d catalog).mp h
  simp only [slots, List.forall_mem_cons, Slot.read_field_iff] at hslots
  obtain ⟨hdefault, -, -, hthemes, -⟩ := hslots
  refine ⟨entries, rfl, ?_, hthemes⟩
  rcases field_only_eq_valid_iff.mp hdefault with ⟨d, hd, hcheck⟩ | ⟨hmissing, hempty⟩
  · rw [declaredDefault, hd, (text_eq_valid_iff d _).mp hcheck]
    rfl
  · rw [declaredDefault, hmissing, ← hempty]
    rfl

/-- Documents of themes are sound when they spell out their parts and their catalogue is well
formed. -/
theorem soundThemes_iff_wellFormed {entries : Mapping Document} {catalog : ThemeCatalog}
    (h : Entries Theme.read entries catalog.themes) :
    SoundThemes (.text catalog.default) entries ↔
      (∀ mode theme, (mode, .mapping theme) ∈ entries →
        "colors" ∈ Mapping.keys theme ∧ "semantic" ∈ Mapping.keys theme) ∧ catalog.WellFormed := by
  constructor
  · rintro ⟨-, ⟨mode, hmode, hdefault⟩, heach, halike⟩
    have hsound : ∀ {mode theme}, (mode, .mapping theme) ∈ entries → SoundTheme theme := by
      intro mode theme hmem
      obtain ⟨_, hd, hsound⟩ := heach _ _ hmem
      cases hd
      exact hsound
    refine ⟨fun mode theme hmem => ⟨(hsound hmem).colors, (hsound hmem).semantic⟩, ?_, ?_, ?_⟩
    · cases hdefault
      rwa [← h.keys_eq]
    · intro mode theme hmem
      obtain ⟨d, hd, hread⟩ := h.exists_left hmem
      obtain ⟨members, rfl, hparts⟩ := Theme.exists_of_read hread
      exact (Theme.completeScales_iff hparts.1).mp (hsound hd).scales
    · intro mode theme hmem mode' other hmem'
      obtain ⟨d, hd, hread⟩ := h.exists_left hmem
      obtain ⟨d', hd', hread'⟩ := h.exists_left hmem'
      obtain ⟨members, rfl, hparts⟩ := Theme.exists_of_read hread
      obtain ⟨members', rfl, hparts'⟩ := Theme.exists_of_read hread'
      exact (Theme.sameNamespace_iff hparts hparts').mp (halike _ _ hd _ _ hd')
  · rintro ⟨hdeclared, hdefault, hscales, halike⟩
    rw [← h.keys_eq] at hdefault
    refine ⟨?_, ⟨_, hdefault, rfl⟩, ?_, ?_⟩
    · rintro rfl
      simp at hdefault
    · intro mode d hmem
      obtain ⟨theme, htheme, hread⟩ := h.exists_right hmem
      obtain ⟨members, rfl, hparts⟩ := Theme.exists_of_read hread
      obtain ⟨hcolors, hsemantic⟩ := hdeclared mode members hmem
      exact ⟨members, rfl, hcolors, hsemantic,
        (Theme.completeScales_iff hparts.1).mpr (hscales mode theme htheme)⟩
    · intro mode members hmem mode' members' hmem'
      obtain ⟨theme, htheme, hread⟩ := h.exists_right hmem
      obtain ⟨other, hother, hread'⟩ := h.exists_right hmem'
      obtain ⟨_, hd, hparts⟩ := Theme.exists_of_read hread
      obtain ⟨_, hd', hparts'⟩ := Theme.exists_of_read hread'
      cases hd
      cases hd'
      exact (Theme.sameNamespace_iff hparts hparts').mpr (halike _ _ htheme _ _ hother)

end ThemeCatalog

/-- Output settings are sound when they spell out what they must and neither the prefix nor the
place is empty. -/
theorem OutputSettings.soundOutput_iff {d : Document} {settings : OutputSettings}
    (h : OutputSettings.read d = .valid settings) : ∃ tokens, d = .mapping tokens ∧
      (SoundOutput tokens ↔ ("prefix" ∈ Mapping.keys tokens ∧ "output" ∈ Mapping.keys tokens ∧
        "formats" ∈ Mapping.keys tokens) ∧ settings.variablePrefix ≠ "" ∧ settings.output ≠ "") := by
  have htext : ∀ {s : String} (d : Document), text d = .valid s → (d.truthy = true ↔ s ≠ "") := by
    intro s d hd
    rw [(text_eq_valid_iff d s).mp hd]
    simp [Document.truthy]
  obtain ⟨tokens, rfl, hslots, -⟩ := (slotted.read_iff d settings).mp h
  simp only [slots, List.forall_mem_cons, Slot.read_field_iff] at hslots
  obtain ⟨hfirst, houtput, hformats, -⟩ := hslots
  refine ⟨tokens, rfl, ?_⟩
  -- Formats that were read are a list, so they only have to be declared.
  have hlist : (∃ formats, Mapping.find? tokens "formats" = some (.list formats)) ↔
      "formats" ∈ Mapping.keys tokens ∧ True := by
    rw [← exists_find?_iff hformats (P := fun d => ∃ formats, d = .list formats)]
    · simp
    · intro d hd
      obtain ⟨items, rfl, -⟩ := (listOf_eq_valid_iff d _).mp hd
      simp
  have hfirst := exists_find?_iff hfirst htext
  have houtput := exists_find?_iff houtput htext
  constructor
  · rintro ⟨hp, ho, hf⟩
    obtain ⟨hpkey, hpne⟩ := hfirst.mp hp
    obtain ⟨hokey, hone⟩ := houtput.mp ho
    exact ⟨⟨hpkey, hokey, (hlist.mp hf).1⟩, hpne, hone⟩
  · rintro ⟨⟨hp, ho, hf⟩, hpne, hone⟩
    exact ⟨hfirst.mpr ⟨hp, hpne⟩, houtput.mpr ⟨ho, hone⟩, hlist.mpr ⟨hf, trivial⟩⟩

namespace Config

theorem fields_of_read {entries : Mapping Document} {config : Config}
    (h : Config.read (.mapping entries) = .valid config) :
    field entries versionKey (.text "1.0") tokenValue = .valid config.version ∧
      field entries themeKey ThemeCatalog.empty ThemeCatalog.read = .valid config.theme ∧
      field entries tokensKey OutputSettings.standard OutputSettings.read = .valid config.tokens := by
  obtain ⟨_, heq, hslots, -⟩ := (slotted.read_iff _ config).mp h
  cases heq
  simp only [slots, List.forall_mem_cons, Slot.read_field_iff] at hslots
  obtain ⟨hversion, -, -, htheme, -, -, -, -, htokens, -⟩ := hslots
  exact ⟨hversion, htheme, htokens⟩

/-- The structure of a document whose values have their types is examined to the end. -/
theorem exists_structureFaults {entries : Mapping Document} {config : Config}
    (h : Config.read (.mapping entries) = .valid config) :
    ∃ faults, structureFaults entries = .ok faults := by
  have htheme : ∃ faults, themeSectionFaults entries = .ok faults := by
    unfold themeSectionFaults
    split
    · next catalog hcatalog =>
      have hread := check_of_field (fields_of_read h).2.1 hcatalog
      obtain ⟨_, heq, hdefault, -⟩ := ThemeCatalog.exists_of_read hread
      cases heq
      exact exists_catalogFaults hdefault
    · exact ⟨_, rfl⟩
  obtain ⟨faults, hfaults⟩ := htheme
  rw [structureFaults, hfaults]
  exact ⟨_, rfl⟩

/-- Themes that stand in a document are sound when they spell out their parts and the catalogue that
is read from them is well formed. -/
theorem soundThemes_iff {entries catalog themes : Mapping Document} {config : Config}
    (h : Config.read (.mapping entries) = .valid config)
    (hcatalog : Mapping.find? entries "theme" = some (.mapping catalog))
    (hthemes : Mapping.find? catalog "themes" = some (.mapping themes)) :
    SoundThemes (declaredDefault catalog) themes ↔
      (∀ mode theme, (mode, .mapping theme) ∈ themes →
        "colors" ∈ Mapping.keys theme ∧ "semantic" ∈ Mapping.keys theme) ∧ config.theme.WellFormed := by
  have hread := check_of_field (fields_of_read h).2.1 hcatalog
  obtain ⟨_, heq, hdefault, hfield⟩ := ThemeCatalog.exists_of_read hread
  cases heq
  obtain ⟨_, heq, hentries⟩ := (mappingOf_eq_valid_iff _ _).mp (check_of_field hfield hthemes)
  cases heq
  rw [hdefault, ThemeCatalog.soundThemes_iff_wellFormed hentries]

/-- A document is sound when it spells out what it must and its configuration is well formed. -/
theorem soundStructure_iff {entries : Mapping Document} {config : Config}
    (h : Config.read (.mapping entries) = .valid config) :
    SoundStructure entries ↔ Declares entries ∧ config.WellFormed := by
  obtain ⟨hversion, -, htokens⟩ := fields_of_read h
  have hversion : (∃ d, Mapping.find? entries "version" = some d ∧ d.truthy = true) ↔
      "version" ∈ Mapping.keys entries ∧ config.version.toDocument.truthy = true :=
    exists_find?_iff hversion fun d hd => by rw [tokenValue_truthy hd]
  constructor
  · rintro ⟨hv, ⟨catalog, hcatalog, themes, hthemes, hsound⟩, tokens, hfind, hout⟩
    obtain ⟨hdeclared, htheme⟩ := (soundThemes_iff h hcatalog hthemes).mp hsound
    obtain ⟨_, heq, hiff⟩ := OutputSettings.soundOutput_iff (check_of_field htokens hfind)
    cases heq
    obtain ⟨hkeys, hfirst, houtput⟩ := hiff.mp hout
    obtain ⟨hvkey, hvtruthy⟩ := hversion.mp hv
    exact ⟨⟨hvkey, ⟨catalog, hcatalog, themes, hthemes, hdeclared⟩, tokens, hfind, hkeys⟩,
      hvtruthy, htheme, hfirst, houtput⟩
  · rintro ⟨⟨hv, ⟨catalog, hcatalog, themes, hthemes, hdeclared⟩, tokens, hfind, hkeys⟩, hwell⟩
    obtain ⟨_, heq, hiff⟩ := OutputSettings.soundOutput_iff (check_of_field htokens hfind)
    cases heq
    exact ⟨hversion.mpr ⟨hv, hwell.version⟩, ⟨catalog, hcatalog, themes, hthemes,
      (soundThemes_iff h hcatalog hthemes).mpr ⟨hdeclared, hwell.theme⟩⟩, tokens, hfind,
      hiff.mpr ⟨hkeys, hwell.variablePrefix, hwell.output⟩⟩

end Config

end DesignTokens
