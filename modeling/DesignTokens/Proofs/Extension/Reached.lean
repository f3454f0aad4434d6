import DesignTokens.Extension
import DesignTokens.Proofs.Config.Reread
import DesignTokens.Proofs.Validation.Verdict
import DesignTokens.Proofs.Validation.WellFormed

/-!
# Reached configurations

A session starts from the configuration of a document, lays documents and other configurations over
it and adds themes. Whatever it does, its configuration was read from some regular document, so it
can be written and read again.

## Main definitions

- `Reached` — the configurations of sessions whose documents are regular
- `Validated` — those whose last step examined a whole document
-/

namespace DesignTokens

open Read

variable {rule : LeafRule} {config : Config}

theorem parse_eq_ok_iff (d : Document) (config : Config) (warnings : List String) :
    parse d = .ok (config, warnings) ↔
      ∃ findings, validate d = .ok findings ∧ findings.config = some config ∧
        findings.warnings = warnings := by
  unfold parse
  cases h : validate d with
  | error compound => simp
  | ok findings =>
    cases hconfig : findings.config <;> simp [hconfig]

/-- A document without errors is parsed to the configuration that is read from it. -/
theorem parse_of_errors {d : Document} {findings : Findings} (h : validate d = .ok findings)
    (herrors : findings.errors = []) (hread : Config.read d = .valid config) :
    parse d = .ok (config, findings.warnings) :=
  (parse_eq_ok_iff d config _).mpr
    ⟨findings, h, (config_eq_some_iff h config).mpr ⟨herrors, hread⟩, rfl⟩

/-- Where the structure has no faults and the values have their types, parsing succeeds. -/
theorem exists_parse {entries : Mapping Document} (hfaults : structureFaults entries = .ok [])
    (hread : Config.read (.mapping entries) = .valid config) :
    ∃ warnings, parse (.mapping entries) = .ok (config, warnings) := by
  obtain ⟨findings, hfindings, herrors⟩ : ∃ findings,
      validate (.mapping entries) = .ok findings ∧ findings.errors = [] := by
    refine ⟨_, (validate_mapping_eq_ok_iff entries _).mpr ⟨[], hfaults, rfl⟩, ?_⟩
    rw [hread]
    rfl
  exact ⟨_, parse_of_errors hfindings herrors hread⟩

theorem read_of_parse {d : Document} {warnings : List String}
    (h : parse d = .ok (config, warnings)) : Config.read d = .valid config := by
  obtain ⟨findings, hvalidate, hconfig, -⟩ := (parse_eq_ok_iff d config warnings).mp h
  exact ((config_eq_some_iff hvalidate config).mp hconfig).2

/-- What was parsed was found sound, and it was read. -/
theorem sound_of_parse {d : Document} (hd : d.Regular rule) {warnings : List String}
    (h : parse d = .ok (config, warnings)) : SoundDocument d ∧ Config.read d = .valid config := by
  obtain ⟨findings, hvalidate, hconfig, -⟩ := (parse_eq_ok_iff d config warnings).mp h
  obtain ⟨herrors, hread⟩ := (config_eq_some_iff hvalidate config).mp hconfig
  exact ⟨(errors_eq_nil_iff_sound hd hvalidate).mp herrors, hread⟩

/-- A document that spells out what it must is parsed exactly when the values have their types and the
configuration is well formed. -/
theorem exists_parse_iff_wellFormed {entries : Mapping Document}
    (hregular : (Document.mapping entries).Regular rule) (hdeclares : Declares entries) :
    (∃ warnings, parse (.mapping entries) = .ok (config, warnings)) ↔
      Config.read (.mapping entries) = .valid config ∧ config.WellFormed := by
  constructor
  · rintro ⟨warnings, h⟩
    obtain ⟨⟨_, heq, hsound, -⟩, hread⟩ := sound_of_parse hregular h
    cases heq
    exact ⟨hread, ((Config.soundStructure_iff hread).mp hsound).2⟩
  · rintro ⟨hread, hwell⟩
    obtain ⟨faults, hfaults⟩ := Config.exists_structureFaults hread
    have hsound := (Config.soundStructure_iff hread).mpr ⟨hdeclares, hwell⟩
    rw [(structureFaults_eq_nil_iff hfaults hregular).mpr hsound] at hfaults
    exact exists_parse hfaults hread

/-- The configurations that a session can reach from regular documents. The keys of its documents
are texts by then. -/
inductive Reached (rule : LeafRule) : Config → Prop
  | parsed {d : Document} {config : Config} {warnings : List String} (hd : d.Regular rule)
      (h : parse d = .ok (config, warnings)) : Reached rule config
  | merged {config merged : Config} {upper : Mapping Document} (hconfig : Reached rule config)
      (hupper : (Document.mapping upper).Regular rule) (h : config.merge upper = .ok merged) :
      Reached rule merged
  | mergedConfig {config upper merged : Config} (hconfig : Reached rule config)
      (hupper : Reached rule upper) (h : config.mergeConfig upper = .ok merged) :
      Reached rule merged
  | extended {config extended : Config} {base mode : String} {upper : Mapping Document}
      {warnings : List String} (hconfig : Reached rule config)
      (hupper : (Document.mapping upper).Regular rule)
      (h : config.extendTheme base mode upper = .ok (extended, warnings)) : Reached rule extended

/-- The reached configurations whose last step examined a whole document. -/
inductive Validated (rule : LeafRule) : Config → Prop
  | parsed {d : Document} {config : Config} {warnings : List String} (hd : d.Regular rule)
      (h : parse d = .ok (config, warnings)) : Validated rule config
  | extended {config extended : Config} {base mode : String} {upper : Mapping Document}
      {warnings : List String} (hconfig : Reached rule config)
      (hupper : (Document.mapping upper).Regular rule)
      (h : config.extendTheme base mode upper = .ok (extended, warnings)) : Validated rule extended

/-- A configuration was read from a regular document. -/
def HasSource (rule : LeafRule) (config : Config) : Prop :=
  ∃ d, d.Regular rule ∧ Config.read d = .valid config

namespace HasSource

theorem regular (h : HasSource rule config) : (Document.mapping config.entries).Regular rule := by
  obtain ⟨d, hd, hread⟩ := h
  exact Config.faithful.regular hd hread

theorem regular_theme (h : HasSource rule config) {mode : String} {declared : Theme}
    (hdeclared : config.theme? mode = some declared) : declared.toDocument.Regular rule := by
  have hcatalog := h.regular.find? (show Mapping.find? _ "theme" = some _ from rfl)
  have hthemes := hcatalog.find? (show Mapping.find? _ "themes" = some _ from rfl)
  have hmode : Mapping.find? (Mapping.mapValues Theme.toDocument config.theme.themes) mode =
      some declared.toDocument := by
    rw [Mapping.find?_mapValues, show Mapping.find? config.theme.themes mode = some declared from
      hdeclared, Option.map_some]
  exact hthemes.find? hmode

theorem read_toDocument (h : HasSource rule config) :
    Config.read config.toDocument = .valid config.reread := by
  obtain ⟨d, -, hread⟩ := h
  exact Config.faithful.again hread

theorem reread_eq (h : HasSource .finite config) : config.reread = config := by
  obtain ⟨d, hd, hread⟩ := h
  exact Config.faithful.kept hd hread

end HasSource

theorem merge_eq_ok_iff (config merged : Config) (upper : Mapping Document) :
    config.merge upper = .ok merged ↔
      Config.read (.mapping (deepMerge config.entries upper)) = .valid merged := by
  unfold Config.merge
  cases Config.read (.mapping (deepMerge config.entries upper)) <;> simp

/-- The entries of the document that is examined when a theme is added. -/
def Config.extensionEntries (config : Config) (theme : Theme) (mode : String)
    (upper : Mapping Document) : Mapping Document :=
  Mapping.set config.entries "theme"
    (Config.setTheme config.theme mode (Config.derivedTheme theme upper))

theorem extendTheme_eq_parse {base mode : String} {upper : Mapping Document} {theme : Theme}
    (hbase : config.theme? base = some theme) :
    config.extendTheme base mode upper =
      parse (.mapping (config.extensionEntries theme mode upper)) := by
  unfold Config.extendTheme
  simp only [Config.themeFor, hbase]
  rfl

/-- With a regular document laid over a theme, the document that is examined is regular. -/
theorem HasSource.regular_extensionEntries (hconfig : HasSource rule config) {base : String}
    {theme : Theme} (hbase : config.theme? base = some theme) (mode : String)
    {upper : Mapping Document} (hupper : (Document.mapping upper).Regular rule) :
    (Document.mapping (config.extensionEntries theme mode upper)).Regular rule := by
  have hregular := hconfig.regular
  have hcatalog := hregular.find? (show Mapping.find? _ "theme" = some _ from rfl)
  have hthemes := hcatalog.find? (show Mapping.find? _ "themes" = some _ from rfl)
  -- The new theme is the base theme with the document over it.
  have hderived : (Config.derivedTheme theme upper).Regular rule :=
    Document.Regular.overlay (by simpa using hconfig.regular_theme hbase) hupper
  exact hregular.set "theme" (hcatalog.set "themes" (hthemes.set mode hderived))

/-- The document that is parsed when a theme is added. -/
theorem exists_of_extendTheme (hconfig : HasSource rule config) {extended : Config}
    {base mode : String} {upper : Mapping Document} (hupper : (Document.mapping upper).Regular rule)
    {warnings : List String} (h : config.extendTheme base mode upper = .ok (extended, warnings)) :
    ∃ d, d.Regular rule ∧ parse d = .ok (extended, warnings) := by
  cases hbase : config.theme? base with
  | none => simp [Config.extendTheme, Config.themeFor, hbase, bind, Except.bind] at h
  | some theme =>
    rw [extendTheme_eq_parse hbase] at h
    exact ⟨_, hconfig.regular_extensionEntries hbase mode hupper, h⟩

theorem Reached.hasSource (h : Reached rule config) : HasSource rule config := by
  induction h with
  | parsed hd h => exact ⟨_, hd, (sound_of_parse hd h).2⟩
  | merged _ hupper h ih =>
    exact ⟨_, ih.regular.deepMerge hupper, (merge_eq_ok_iff _ _ _).mp h⟩
  | mergedConfig _ _ h ih ihupper =>
    exact ⟨_, ih.regular.deepMerge ihupper.regular, (merge_eq_ok_iff _ _ _).mp h⟩
  | extended _ hupper h ih =>
    obtain ⟨d, hd, hparse⟩ := exists_of_extendTheme ih hupper h
    exact ⟨d, hd, (sound_of_parse hd hparse).2⟩

/-- The document that was examined last. -/
theorem Validated.exists_parse (h : Validated rule config) :
    ∃ d warnings, d.Regular rule ∧ parse d = .ok (config, warnings) := by
  cases h with
  | parsed hd h => exact ⟨_, _, hd, h⟩
  | extended hconfig hupper h =>
    obtain ⟨d, hd, hparse⟩ := exists_of_extendTheme hconfig.hasSource hupper h
    exact ⟨d, _, hd, hparse⟩

/-! The configuration that comes back. -/

theorem Config.declares_entries (config : Config) : Declares config.entries := by
  refine ⟨by simp [Config.entries], ⟨_, rfl, _, rfl, ?_⟩, _, rfl, ?_⟩
  · intro mode entries hmem
    obtain ⟨theme, -, heq⟩ := Mapping.mem_mapValues.mp hmem
    cases heq
    simp
  · simp

/-- Only extras change on the way, so well-formedness does not. -/
theorem Config.wellFormed_reread_iff (config : Config) :
    config.reread.WellFormed ↔ config.WellFormed := by
  -- The two have the same modes, and their themes differ in extras only.
  have hmem : ∀ {mode theme}, (mode, theme) ∈ config.reread.theme.themes →
      ∃ old, (mode, old) ∈ config.theme.themes ∧ old.reread = theme :=
    fun hmem => Mapping.mem_mapValues.mp hmem
  have hmem' : ∀ {mode theme}, (mode, theme) ∈ config.theme.themes →
      (mode, theme.reread) ∈ config.reread.theme.themes :=
    fun hmem => Mapping.mem_mapValues_of_mem hmem
  constructor
  · rintro ⟨hversion, ⟨hdefault, hscales, halike⟩, hfirst, houtput⟩
    refine ⟨hversion, ⟨?_, ?_, ?_⟩, hfirst, houtput⟩
    · simpa [Config.reread, ThemeCatalog.reread] using hdefault
    · exact fun mode theme hmem => hscales mode theme.reread (hmem' hmem)
    · intro mode theme hmem mode' other hother
      exact ⟨(halike _ _ (hmem' hmem) _ _ (hmem' hother)).colors,
        (halike _ _ (hmem' hmem) _ _ (hmem' hother)).semantic⟩
  · rintro ⟨hversion, ⟨hdefault, hscales, halike⟩, hfirst, houtput⟩
    refine ⟨hversion, ⟨?_, ?_, ?_⟩, hfirst, houtput⟩
    · simpa [Config.reread, ThemeCatalog.reread] using hdefault
    · intro mode theme hmem'
      obtain ⟨old, hold, rfl⟩ := hmem hmem'
      exact hscales mode old hold
    · intro mode theme hmem₁ mode' other hmem₂
      obtain ⟨old, hold, rfl⟩ := hmem hmem₁
      obtain ⟨old', hold', rfl⟩ := hmem hmem₂
      exact ⟨(halike _ _ hold _ _ hold').colors, (halike _ _ hold _ _ hold').semantic⟩

namespace HasSource

/-- The document of a configuration is examined to the end. -/
theorem exists_validate (h : HasSource rule config) :
    ∃ findings, validate config.toDocument = .ok findings := by
  obtain ⟨faults, hfaults⟩ := Config.exists_structureFaults h.read_toDocument
  exact ⟨_, (validate_mapping_eq_ok_iff _ _).mpr ⟨faults, hfaults, rfl⟩⟩

/-- The document of a configuration is found without errors exactly when the configuration is well
formed. -/
theorem errors_eq_nil_iff (h : HasSource rule config) {findings : Findings}
    (hfindings : validate config.toDocument = .ok findings) :
    findings.errors = [] ↔ config.WellFormed := by
  have hread := h.read_toDocument
  rw [errors_eq_nil_iff_sound h.regular hfindings, ← config.wellFormed_reread_iff]
  constructor
  · rintro ⟨_, heq, hsound, -⟩
    cases heq
    exact ((Config.soundStructure_iff hread).mp hsound).2
  · intro hwell
    exact ⟨_, rfl, (Config.soundStructure_iff hread).mpr ⟨config.declares_entries, hwell⟩, _, hread⟩

end HasSource

theorem Validated.hasSource (h : Validated rule config) : HasSource rule config := by
  obtain ⟨d, _, hd, hparse⟩ := h.exists_parse
  exact ⟨d, hd, (sound_of_parse hd hparse).2⟩

/-- A configuration that was examined as a whole is well formed. -/
theorem Validated.wellFormed (h : Validated rule config) : config.WellFormed := by
  obtain ⟨d, _, hd, hparse⟩ := h.exists_parse
  obtain ⟨⟨entries, rfl, hsound, -⟩, hread⟩ := sound_of_parse hd hparse
  exact ((Config.soundStructure_iff hread).mp hsound).2

/-- The document of a configuration that was examined as a whole is found without errors. -/
theorem Validated.exists_findings (h : Validated rule config) : ∃ findings,
    validate config.toDocument = .ok findings ∧ findings.errors = [] ∧
      parse config.toDocument = .ok (config.reread, findings.warnings) := by
  obtain ⟨findings, hfindings⟩ := h.hasSource.exists_validate
  have herrors := (h.hasSource.errors_eq_nil_iff hfindings).mpr h.wellFormed
  exact ⟨findings, hfindings, herrors, parse_of_errors hfindings herrors h.hasSource.read_toDocument⟩

end DesignTokens
