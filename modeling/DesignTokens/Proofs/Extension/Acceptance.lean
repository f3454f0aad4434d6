import DesignTokens.Proofs.Document.Overwriting
import DesignTokens.Proofs.Export.Isolation
import DesignTokens.Proofs.Extension.Addition
import DesignTokens.Proofs.Resolver.Reread

/-!
# Accepted themes

Whether a theme may be added is found out by examining the whole document again, whichever theme serves
as the reference there. It comes to a condition on the new theme alone: it is read as a theme, its scales
are complete and it has the names of every theme that stays. Texts over the leaves of a declared theme
always meet it.

## Main definitions

- `ValueOrGroup.steps?` — the steps of a scale
- `Read.TakesTexts` — a reader that goes on reading when leaves become texts
-/

namespace DesignTokens

variable {rule : LeafRule} {config extended : Config} {base mode : String}
  {upper : Mapping Document}

/-- The steps of a scale. -/
def ValueOrGroup.steps? : ValueOrGroup → Option (List String)
  | value _ => none
  | group members => some (Mapping.keys members)

theorem ValueOrGroup.isSome_steps? (v : ValueOrGroup) : v.steps?.isSome = v.isGroup := by
  cases v <;> rfl

namespace Read

open Document

variable {α : Type} {check : Document → Checked α} {R : α → α → Prop}

/-- What was read is read again, as a related value, when leaves become texts. -/
def TakesTexts (rule : LeafRule) (check : Document → Checked α) (R : α → α → Prop) : Prop :=
  ∀ d d' a, d.Regular rule → d.Retexted d' → check d = .valid a → ∃ b, check d' = .valid b ∧ R a b

theorem takesTexts_text : TakesTexts rule text fun _ _ => True := by
  rintro d d' s - h hread
  rw [text_eq_valid_iff] at hread
  subst hread
  cases h with
  | kept => exact ⟨s, rfl, trivial⟩
  | text _ s' => exact ⟨s', rfl, trivial⟩

/-- Entries are read again one by one. -/
theorem TakesTexts.entries (h : TakesTexts rule check R) {entries others : Mapping Document}
    {values : Mapping α} (hregular : ∀ entry ∈ entries, entry.2.Regular rule)
    (halong : Mapping.Along Retexted entries others) (hread : Entries check entries values) :
    ∃ more, Entries check others more ∧ Mapping.Along R values more := by
  induction hread generalizing others with
  | nil =>
    cases halong
    exact ⟨[], .nil, .nil⟩
  | cons head _ ih =>
    cases halong with
    | @cons _ other _ _ head' tail' =>
      rw [List.forall_mem_cons] at hregular
      obtain ⟨more, hmore, hrelated⟩ := ih hregular.2 tail'
      obtain ⟨b, hb, hab⟩ := h _ _ _ hregular.1 head'.2 head.2
      exact ⟨(other.1, b) :: more, .cons ⟨rfl, hb⟩ hmore,
        .cons ⟨head.1.symm.trans head'.1, hab⟩ hrelated⟩

theorem TakesTexts.mappingOf (h : TakesTexts rule check R) :
    TakesTexts rule (mappingOf check) (Mapping.Along R) := by
  intro d d' values hd hretexted hread
  obtain ⟨entries, rfl, hentries⟩ := (mappingOf_eq_valid_iff _ _).mp hread
  obtain ⟨hnodup, hregular⟩ := regular_mapping.mp hd
  cases hretexted with
  | kept hplain => cases hplain
  | text hplain => cases hplain
  | @mapping _ others hkeys hvalues =>
    obtain ⟨more, hmore, hrelated⟩ :=
      h.entries hregular (Mapping.Along.of_find? hkeys hnodup hvalues) hentries
    exact ⟨more, (mappingOf_eq_valid_iff _ _).mpr ⟨others, rfl, hmore⟩, hrelated⟩

/-- A literal stays one, and a scale keeps its steps. -/
theorem takesTexts_valueOrGroup :
    TakesTexts rule valueOrGroup fun v w => v.steps? = w.steps? := by
  intro d d' v hd h hread
  rcases (valueOrGroup_eq_valid_iff d v).mp hread with ⟨s, rfl, rfl⟩ | ⟨steps, members, rfl, hm, rfl⟩
  · obtain ⟨s', hs', -⟩ := takesTexts_text _ _ s hd h rfl
    exact ⟨.value s', (valueOrGroup_eq_valid_iff _ _).mpr
      (.inl ⟨s', (text_eq_valid_iff _ _).mp hs', rfl⟩), rfl⟩
  · obtain ⟨more, hmore, hrelated⟩ := takesTexts_text.mappingOf _ _ members hd h
      ((mappingOf_eq_valid_iff _ _).mpr ⟨steps, rfl, hm⟩)
    obtain ⟨others, rfl, hothers⟩ := (mappingOf_eq_valid_iff _ _).mp hmore
    exact ⟨.group more, (valueOrGroup_eq_valid_iff _ _).mpr (.inr ⟨others, more, rfl, hothers, rfl⟩),
      congrArg some hrelated.keys_eq⟩

/-- A field of a section is read again; a missing one stays missing. -/
theorem TakesTexts.field (h : TakesTexts rule check R) {entries others : Mapping Document}
    (hregular : (mapping entries).Regular rule)
    (hretexted : (mapping entries).Retexted (mapping others)) {key : String} {default a : α}
    (hdefault : R default default) (hread : field entries (.only key) default check = .valid a) :
    ∃ b, field others (.only key) default check = .valid b ∧ R a b := by
  cases hretexted with
  | kept hplain => cases hplain
  | mapping hkeys hvalues =>
    rcases field_only_eq_valid_iff.mp hread with ⟨d, hd, hcheck⟩ | ⟨hmissing, rfl⟩
    · obtain ⟨d', hd'⟩ :=
        Mapping.exists_find?_of_mem_keys (hkeys ▸ Mapping.mem_keys_of_find? hd)
      obtain ⟨b, hb, hab⟩ := h d d' a (hregular.find? hd) (hvalues key d d' hd hd') hcheck
      exact ⟨b, field_only_eq_valid_iff.mpr (.inl ⟨d', hd', hb⟩), hab⟩
    · rw [Mapping.find?_eq_none_iff, hkeys, ← Mapping.find?_eq_none_iff] at hmissing
      exact ⟨default, field_only_eq_valid_iff.mpr (.inr ⟨hmissing, rfl⟩), hdefault⟩

end Read

namespace Theme

open Document Read

variable {theme other more : Theme}

theorem SameNames.symm (h : theme.SameNames other) : other.SameNames theme :=
  ⟨h.colors.symm.imp fun _ _ _ _ _ h => h.symm, h.semantic.symm.imp fun _ _ _ _ _ h => h.symm⟩

theorem SameNames.trans (h : theme.SameNames other) (h' : other.SameNames more) :
    theme.SameNames more :=
  ⟨(h.colors.trans h'.colors).imp fun _ _ _ _ _ ⟨_, hl, hr⟩ => hl.trans hr,
    (h.semantic.trans h'.semantic).imp fun _ _ _ _ _ ⟨_, hl, hr⟩ => hl.trans hr⟩

theorem SameNames.refl (theme : Theme) : theme.SameNames theme :=
  ⟨.refl fun _ _ _ => rfl, .refl fun _ _ _ => SameKeys.refl _⟩

/-- With texts over leaves a theme is still one, with the same names and the same steps. -/
theorem exists_read_of_retexted {d d' : Document} (hd : d.Regular rule) (h : d.Retexted d')
    (hread : Theme.read d = .valid theme) : ∃ added, Theme.read d' = .valid added ∧
      added.SameNames theme ∧ (theme.CompleteScales → added.CompleteScales) := by
  obtain ⟨entries, rfl, hslots, -⟩ := (slotted.read_iff d theme).mp hread
  simp only [slots, List.forall_mem_cons, Slot.read_field_iff] at hslots
  obtain ⟨hcolors, hsemantic, -⟩ := hslots
  obtain ⟨others, rfl⟩ : ∃ others, d' = .mapping others := by
    cases h with
    | mapping => exact ⟨_, rfl⟩
    | kept hplain => cases hplain
    | text hplain => cases hplain
  obtain ⟨colors, hcolors', hscales⟩ :=
    takesTexts_valueOrGroup.mappingOf.field hd h .nil hcolors
  obtain ⟨semantic, hsemantic', hroles⟩ :=
    takesTexts_text.mappingOf.mappingOf.field hd h .nil hsemantic
  refine ⟨⟨colors, semantic, Read.extras fieldKeys others⟩,
    (slotted.read_iff _ _).mpr ⟨others, rfl, ?_, rfl⟩, ⟨?_, ?_⟩, fun hcomplete => ?_⟩
  · simp only [slots, List.forall_mem_cons, Slot.read_field_iff]
    exact ⟨hcolors', hsemantic', by simp⟩
  · refine hscales.symm.alike.imp fun _ v w _ _ hsteps => ?_
    rw [← v.isSome_steps?, ← w.isSome_steps?, hsteps]
  · exact hroles.symm.alike.imp fun _ _ _ _ _ hroles => hroles.keys_eq ▸ SameKeys.refl _
  · intro name steps hmem
    obtain ⟨v, hv, hsteps⟩ := hscales.exists_left hmem
    cases v with
    | value s => cases hsteps
    | group members => exact Option.some.inj hsteps ▸ hcomplete name members hv

end Theme

/-- A configuration with one theme set is well formed when this theme is complete and has the names of
all others. -/
theorem Config.wellFormed_withTheme_iff (h : config.WellFormed) (hnodup : config.modes.Nodup)
    (mode : String) (added : Theme) : (config.withTheme mode added).WellFormed ↔
      added.CompleteScales ∧ ∀ other declared, other ≠ mode →
        config.theme? other = some declared → added.SameNames declared := by
  have hself : (mode, added) ∈ (config.withTheme mode added).theme.themes :=
    Mapping.mem_of_find? (theme?_withTheme_self config mode added)
  constructor
  · rintro ⟨-, ⟨-, hscales, halike⟩, -, -⟩
    refine ⟨hscales mode added hself, fun other declared hne hdeclared => ?_⟩
    rw [← theme?_withTheme_of_ne config added hne.symm] at hdeclared
    exact halike mode added hself other declared (Mapping.mem_of_find? hdeclared)
  · rintro ⟨hscales, hnames⟩
    -- A theme of the new catalogue is the one that was set, or one that stays.
    have hcases : ∀ {name theme}, (name, theme) ∈ (config.withTheme mode added).theme.themes →
        theme = added ∨ (name, theme) ∈ config.theme.themes ∧ added.SameNames theme := by
      intro name theme hmem
      have hfind := Mapping.find?_of_mem (Mapping.nodup_keys_set hnodup mode added) hmem
      by_cases hname : mode = name
      · subst hname
        exact .inl (Option.some.inj (hfind.symm.trans (Mapping.find?_set_self _ _ _)))
      · rw [Mapping.find?_set_of_ne _ _ hname] at hfind
        exact .inr ⟨Mapping.mem_of_find? hfind, hnames name theme (Ne.symm hname) hfind⟩
    have hall : ∀ {name theme}, (name, theme) ∈ (config.withTheme mode added).theme.themes →
        added.SameNames theme := by
      intro name theme hmem
      obtain rfl | ⟨-, hsame⟩ := hcases hmem
      · exact .refl theme
      · exact hsame
    refine ⟨h.version, ⟨?_, ?_, ?_⟩, h.variablePrefix, h.output⟩
    · have hdefault : config.defaultMode ∈ config.modes := h.theme.default
      have hmodes : config.defaultMode ∈ (config.withTheme mode added).modes := by
        rw [modes_withTheme]
        split
        · exact hdefault
        · exact List.mem_append_left _ hdefault
      exact hmodes
    · intro name theme hmem
      obtain rfl | ⟨hold, -⟩ := hcases hmem
      · exact hscales
      · exact h.theme.scales name theme hold
    · exact fun _ _ hmem _ _ hmem' => (hall hmem).symm.trans (hall hmem')

theorem HasSource.nodup_modes (h : HasSource rule config) : config.modes.Nodup := by
  have hcatalog := h.regular.find? (show Mapping.find? _ "theme" = some _ from rfl)
  have hthemes := hcatalog.find? (show Mapping.find? _ "themes" = some _ from rfl)
  simpa [Config.modes] using hthemes.nodup_keys

/-- The document that is examined when a theme is added spells out what it must. -/
theorem Config.declares_extensionEntries (config : Config) (theme : Theme) (mode : String)
    (hupper : (Mapping.keys upper).Nodup) :
    Declares (config.extensionEntries theme mode upper) := by
  obtain ⟨hversion, ⟨_, ⟨⟩, themes, hthemes, hparts⟩, tokens, htokens, hkeys⟩ :=
    config.declares_entries
  cases hthemes
  refine ⟨?_, ⟨_, Mapping.find?_set_self _ _ _, _, rfl, fun name entries hmem => ?_⟩, tokens, ?_,
    hkeys⟩
  · rw [extensionEntries, Mapping.keys_set]
    split
    · exact hversion
    · exact List.mem_append_left _ hversion
  · rcases Mapping.mem_set hmem with hold | heq
    · exact hparts name entries hold
    · -- The parts of the base theme stay, whatever is laid over it.
      cases heq
      rw [keys_deepMerge hupper]
      simp
  · rw [extensionEntries, Mapping.find?_set_of_ne _ _ (by decide)]
    exact htokens

/-- A theme can be added when it is read as one, its scales are complete and it has the names of every
theme that stays. -/
theorem exists_extendTheme_iff (h : HasSource rule config) (hwell : config.WellFormed) {theme : Theme}
    (hbase : config.theme? base = some theme) (hupper : (Document.mapping upper).Regular rule) :
    (∃ extended warnings, config.extendTheme base mode upper = .ok (extended, warnings)) ↔
      ∃ added, Theme.read (Config.derivedTheme theme upper) = .valid added ∧
        added.CompleteScales ∧ ∀ other declared, other ≠ mode →
          config.theme? other = some declared → added.SameNames declared := by
  have hregular := h.regular_extensionEntries hbase mode hupper
  have hdeclares := config.declares_extensionEntries theme mode hupper.nodup_keys
  have hsame (added : Theme) : (config.reread.withTheme mode added).WellFormed ↔
      added.CompleteScales ∧ ∀ other declared, other ≠ mode →
        config.theme? other = some declared → added.SameNames declared := by
    rw [Config.wellFormed_withTheme_iff (config.wellFormed_reread_iff.mpr hwell)
      (modes_reread config ▸ h.nodup_modes)]
    simp only [theme?_reread, Option.map_eq_some_iff]
    -- The themes that come back have the names of the old ones.
    refine and_congr_right fun _ => ⟨fun hall other declared hne hdeclared => ?_, ?_⟩
    · obtain ⟨hcolors, hsemantic⟩ := hall other _ hne ⟨declared, hdeclared, rfl⟩
      exact ⟨hcolors, hsemantic⟩
    · rintro hall other _ hne ⟨declared, hdeclared, rfl⟩
      exact ⟨(hall other declared hne hdeclared).colors, (hall other declared hne hdeclared).semantic⟩
  simp only [extendTheme_eq_parse hbase, exists_parse_iff_wellFormed hregular hdeclares,
    Config.read_extension_iff h]
  constructor
  · rintro ⟨_, ⟨added, hadded, rfl⟩, hwell⟩
    exact ⟨added, hadded, (hsame added).mp hwell⟩
  · rintro ⟨added, hadded, hadmitted⟩
    exact ⟨_, ⟨added, hadded, rfl⟩, (hsame added).mpr hadmitted⟩

/-- Texts over the leaves of a declared theme make a theme that can be added. -/
theorem exists_extendTheme_of_retexts (h : HasSource rule config) (hwell : config.WellFormed)
    {theme : Theme} (hbase : config.theme? base = some theme)
    (hupper : (Document.mapping upper).Regular rule)
    (hretexts : (Document.mapping upper).Retexts theme.toDocument) (mode : String) :
    ∃ extended warnings, config.extendTheme base mode upper = .ok (extended, warnings) := by
  have hmem := Mapping.mem_of_find? hbase
  obtain ⟨added, hadded, ⟨hcolors, hsemantic⟩, hcomplete⟩ :=
    Theme.exists_read_of_retexted (h.regular_theme hbase) (Document.retexted_overlay hupper hretexts)
      (h.read_theme hbase)
  have hnames : added.SameNames theme := ⟨hcolors, hsemantic⟩
  refine (exists_extendTheme_iff h hwell hbase hupper).mpr ⟨added, hadded, ?_, ?_⟩
  · exact hcomplete (hwell.theme.scales base theme hmem)
  · intro other declared _ hdeclared
    exact hnames.trans (hwell.theme.alike base theme hmem other declared
      (Mapping.mem_of_find? hdeclared))

/-- With a theme added, every other mode has the theme that comes back when the configuration is read
again, and everything in it resolves as before. -/
theorem resolves_as_before_withTheme (config : Config) (added : Theme) {other : String}
    (hother : other ∈ config.modes) (hne : other ≠ mode) (policy : Document) :
    resolveTheme (config.reread.withTheme mode added) other policy =
        resolveTheme config other policy ∧
      ∀ path, resolveReference (config.reread.withTheme mode added) other policy path =
        resolveReference config other policy path := by
  have hagrees : config.reread.AgreesOn [other] (config.reread.withTheme mode added) := by
    refine ⟨rfl, fun name hname => ?_⟩
    rw [List.mem_singleton.mp hname]
    exact Config.theme?_withTheme_of_ne _ _ hne.symm
  have hdeclared : other ∈ config.reread.modes := modes_reread config ▸ hother
  constructor
  · rw [hagrees.resolveTheme (by simp) hdeclared, resolveTheme_reread]
  · intro path
    rw [hagrees.resolveReference (by simp) hdeclared, resolveReference_reread]

/-- Another colour for the ink of a theme. -/
def dimEntries : Mapping Document := [("colors", .mapping [("ink", .text "#222")])]

theorem regular_dimEntries : (Document.mapping dimEntries).Regular .any := by decide

theorem retexts_dimEntries {theme : Theme} {ink : String}
    (h : Mapping.find? theme.colors "ink" = some (.value ink)) :
    (Document.mapping dimEntries).Retexts theme.toDocument := by
  have hink : Mapping.find? (Mapping.mapValues ValueOrGroup.toDocument theme.colors) "ink" =
      some (.text ink) := by
    rw [Mapping.find?_mapValues, h]
    rfl
  have hcolors : (Document.mapping [("ink", .text "#222")]).Retexts
      (mappingDocument ValueOrGroup.toDocument theme.colors) :=
    Document.retexts_single hink (Document.retexts_text _ rfl)
  exact Document.retexts_single rfl hcolors

end DesignTokens
