import DesignTokens.Proofs.Extension.Reached

/-!
# An added theme

Adding a theme replaces one entry of the theme catalogue. The document that is examined is that of the
configuration with the new theme in its place, so everything else comes back as the configuration does
when it is read again from its own document.

## Main definitions

- `Config.withTheme` — a configuration with one theme set and no other change
-/

namespace DesignTokens

variable {rule : LeafRule} {config extended : Config} {base mode : String}
  {upper : Mapping Document} {warnings : List String}

/-- A catalogue with one theme set. -/
def ThemeCatalog.withTheme (catalog : ThemeCatalog) (mode : String) (theme : Theme) :
    ThemeCatalog :=
  { catalog with themes := Mapping.set catalog.themes mode theme }

/-- A configuration with one theme set and no other change. -/
def Config.withTheme (config : Config) (mode : String) (theme : Theme) : Config :=
  { config with theme := config.theme.withTheme mode theme }

namespace Config

variable (config)

theorem theme?_withTheme_self (mode : String) (theme : Theme) :
    (config.withTheme mode theme).theme? mode = some theme :=
  Mapping.find?_set_self _ _ _

/-- Every other theme is that of the configuration. -/
theorem theme?_withTheme_of_ne (theme : Theme) {other : String} (h : mode ≠ other) :
    (config.withTheme mode theme).theme? other = config.theme? other :=
  Mapping.find?_set_of_ne _ _ h

/-- A new mode stands behind the others. -/
theorem modes_withTheme (mode : String) (theme : Theme) : (config.withTheme mode theme).modes =
    if mode ∈ config.modes then config.modes else config.modes ++ [mode] :=
  Mapping.keys_set _ _ _

theorem reread_withTheme (mode : String) (theme : Theme) :
    (config.withTheme mode theme).reread = config.reread.withTheme mode theme.reread := by
  have hthemes := Mapping.mapValues_set Theme.reread config.theme.themes mode theme
  simp only [withTheme, reread, ThemeCatalog.withTheme, ThemeCatalog.reread, hthemes]

end Config

/-- The slot of the themes. -/
def ThemeCatalog.themesSlot : Slot ThemeCatalog :=
  .field themesKey themes Theme.faithful.mapping (fun _ => Document.regular_mapping_nil)
    (Read.mappingOf_nil _)

theorem ThemeCatalog.themesSlot_mem : themesSlot ∈ slots := by
  simp [themesSlot, slots]

/-- The written themes of a catalogue are read one by one. -/
theorem ThemeCatalog.entries_themes {catalog : ThemeCatalog} {d : Document}
    (h : ThemeCatalog.read d = .valid catalog) :
    Read.Entries Theme.read (Mapping.mapValues Theme.toDocument catalog.themes)
      (Mapping.mapValues Theme.reread catalog.themes) := by
  have hthemes : Read.mappingOf Theme.read (mappingDocument Theme.toDocument catalog.themes) =
      .valid (Mapping.mapValues Theme.reread catalog.themes) :=
    ThemeCatalog.slotted.returns h _ themesSlot_mem
  obtain ⟨_, ⟨⟩, hentries⟩ := (Read.mappingOf_eq_valid_iff _ _).mp hthemes
  exact hentries

/-- A catalogue with the document of one theme replaced is read with that theme set. -/
theorem ThemeCatalog.read_setTheme_iff {catalog found : ThemeCatalog} {d theme : Document}
    (h : ThemeCatalog.read d = .valid catalog) :
    ThemeCatalog.read (Config.setTheme catalog mode theme) = .valid found ↔
      ∃ added, Theme.read theme = .valid added ∧ found = catalog.reread.withTheme mode added := by
  have hentries := ThemeCatalog.entries_themes h
  refine (ThemeCatalog.slotted.read_set_iff h ThemeCatalog.themesSlot_mem).trans ?_
  constructor
  · rintro ⟨hnew, hothers, hextras⟩
    have hnew : Read.mappingOf Theme.read
        (.mapping (Mapping.set (Mapping.mapValues Theme.toDocument catalog.themes) mode theme)) =
          .valid found.themes := hnew
    obtain ⟨_, ⟨⟩, hset⟩ := (Read.mappingOf_eq_valid_iff _ _).mp hnew
    obtain ⟨added, hadded, hthemes⟩ := hentries.exists_of_set hset
    refine ⟨added, hadded, ThemeCatalog.slotted.ext _ _ ?_ hextras⟩
    simp only [slots, List.forall_mem_cons, List.not_mem_nil, false_imp_iff, implies_true, and_true]
      at hothers ⊢
    obtain ⟨hdefault, hdetect, hstorage, -⟩ := hothers
    exact ⟨hdefault (by decide), hdetect (by decide), hstorage (by decide), hthemes⟩
  · rintro ⟨added, hadded, rfl⟩
    refine ⟨(Read.mappingOf_eq_valid_iff _ _).mpr ⟨_, rfl, hentries.set mode hadded⟩, ?_, rfl⟩
    simp only [slots, List.forall_mem_cons, List.not_mem_nil, false_imp_iff, implies_true, and_true]
    exact ⟨fun _ => rfl, fun _ => rfl, fun _ => rfl, fun h => absurd rfl h⟩

/-- The slot of the theme catalogue. -/
def Config.themeSlot : Slot Config :=
  .field themeKey theme ThemeCatalog.faithful (fun _ => Document.regular_mapping_nil)
    ThemeCatalog.read_nil

theorem Config.themeSlot_mem : themeSlot ∈ slots := by
  simp [themeSlot, slots]

/-- A configuration with the document of its catalogue replaced is read with the catalogue that this
document is read as. -/
theorem Config.read_set_theme_iff {found : Config} {d written : Document}
    (h : Config.read d = .valid config) :
    Config.read (.mapping (Mapping.set config.entries "theme" written)) = .valid found ↔
      ∃ catalog, ThemeCatalog.read written = .valid catalog ∧
        found = { config.reread with theme := catalog } := by
  refine (Config.slotted.read_set_iff h themeSlot_mem).trans ?_
  constructor
  · rintro ⟨hnew, hothers, hextras⟩
    refine ⟨found.theme, hnew, Config.slotted.ext _ _ ?_ hextras⟩
    simp only [slots, List.forall_mem_cons, List.not_mem_nil, false_imp_iff, implies_true, and_true]
      at hothers ⊢
    obtain ⟨hversion, hname, hdescription, -, htypography, hspacing, heffects, hresponsive, htokens,
      hcomponents⟩ := hothers
    exact ⟨hversion (by decide), hname (by decide), hdescription (by decide), rfl,
      htypography (by decide), hspacing (by decide), heffects (by decide), hresponsive (by decide),
      htokens (by decide), hcomponents (by decide)⟩
  · rintro ⟨catalog, hcatalog, rfl⟩
    refine ⟨hcatalog, ?_, rfl⟩
    simp only [slots, List.forall_mem_cons, List.not_mem_nil, false_imp_iff, implies_true, and_true]
    exact ⟨fun _ => rfl, fun _ => rfl, fun _ => rfl, fun h => absurd rfl h, fun _ => rfl,
      fun _ => rfl, fun _ => rfl, fun _ => rfl, fun _ => rfl, fun _ => rfl⟩

/-- The catalogue of a configuration that was read was read as well. -/
theorem HasSource.exists_catalog (h : HasSource rule config) :
    ∃ d, ThemeCatalog.read d = .valid config.theme := by
  obtain ⟨d, -, hread⟩ := h
  exact (Config.slotted.sources hread).1 _ Config.themeSlot_mem

/-- A theme of a configuration is read again from its own document. -/
theorem HasSource.read_theme (h : HasSource rule config) {theme : Theme}
    (hbase : config.theme? base = some theme) :
    Theme.read theme.toDocument = .valid theme.reread := by
  obtain ⟨d, hcatalog⟩ := h.exists_catalog
  have hfind {α : Type} (f : Theme → α) :
      Mapping.find? (Mapping.mapValues f config.theme.themes) base = some (f theme) := by
    rw [Mapping.find?_mapValues, show Mapping.find? config.theme.themes base = some theme from hbase,
      Option.map_some]
  exact (ThemeCatalog.entries_themes hcatalog).alike.related base _ _ (hfind _) (hfind _)

/-- The document that is examined when a theme is added is read as the configuration as it is read
again, with the theme that is read from the document of the base theme with the given document over
it. -/
theorem Config.read_extension_iff {theme : Theme} (h : HasSource rule config) :
    Config.read (.mapping (config.extensionEntries theme mode upper)) = .valid extended ↔
      ∃ added, Theme.read (Config.derivedTheme theme upper) = .valid added ∧
        extended = config.reread.withTheme mode added := by
  obtain ⟨_, hcatalog⟩ := h.exists_catalog
  obtain ⟨d, -, hread⟩ := h
  rw [extensionEntries, Config.read_set_theme_iff hread]
  constructor
  · rintro ⟨_, hset, rfl⟩
    obtain ⟨added, hadded, rfl⟩ := (ThemeCatalog.read_setTheme_iff hcatalog).mp hset
    exact ⟨added, hadded, rfl⟩
  · rintro ⟨added, hadded, rfl⟩
    exact ⟨_, (ThemeCatalog.read_setTheme_iff hcatalog).mpr ⟨added, hadded, rfl⟩, rfl⟩

/-- Adding a theme gives the configuration as it is read again, with the theme that is read from the
document of the base theme with the given document over it. -/
theorem exists_added (h : HasSource rule config)
    (hextend : config.extendTheme base mode upper = .ok (extended, warnings)) :
    ∃ theme added, config.theme? base = some theme ∧
      Theme.read (Config.derivedTheme theme upper) = .valid added ∧
      extended = config.reread.withTheme mode added := by
  cases hbase : config.theme? base with
  | none => simp [Config.extendTheme, Config.themeFor, hbase, bind, Except.bind] at hextend
  | some theme =>
    rw [extendTheme_eq_parse hbase] at hextend
    obtain ⟨added, hadded, rfl⟩ := (Config.read_extension_iff h).mp (read_of_parse hextend)
    exact ⟨theme, added, rfl, hadded, rfl⟩

/-! What comes back of the extended configuration itself. -/

/-- The declared values of a theme are texts, so its document is written without types as it is. -/
theorem Theme.settle_toDocument (theme : Theme) : theme.toDocument.settle = theme.toDocument := by
  have htexts : ∀ m, (textsDocument m).settle = textsDocument m :=
    settle_mappingDocument fun _ => rfl
  have hvalue (value : ValueOrGroup) : value.toDocument.settle = value.toDocument := by
    cases value with
    | value s => rfl
    | group members => exact htexts members
  have hextras : Mapping.mapValues Document.settle (settled theme.extras) = settled theme.extras := by
    rw [← settled_eq_mapValues, settled_settled]
  rw [Theme.toDocument, Document.settle_mapping]
  simp only [List.cons_append, List.nil_append, Mapping.mapValues, settle_mappingDocument hvalue,
    settle_mappingDocument htexts, hextras]

/-- With texts laid over a theme, the extended configuration comes back as it is. -/
theorem reread_of_extendTheme (h : HasSource rule config)
    (hupper : (Document.mapping upper).Regular .finite)
    (hextend : config.extendTheme base mode upper = .ok (extended, warnings)) :
    extended.reread = extended := by
  obtain ⟨theme, added, hbase, hadded, rfl⟩ := exists_added h hextend
  have htheme : theme.toDocument.Regular .finite := by
    rw [← theme.settle_toDocument]
    exact (h.regular_theme hbase).finite_settle
  have hderived : (Config.derivedTheme theme upper).Regular .finite :=
    Document.Regular.overlay (by simpa using htheme) hupper
  obtain ⟨d, -, hread⟩ := h
  rw [Config.reread_withTheme, Config.faithful.settle_settle hread,
    Theme.faithful.kept hderived hadded]

end DesignTokens
