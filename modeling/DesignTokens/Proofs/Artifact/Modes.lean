import DesignTokens.Artifact.Emit
import DesignTokens.Proofs.Document.Outline
import DesignTokens.Proofs.Document.Layout
import DesignTokens.Proofs.Extension.Reached
import DesignTokens.Proofs.Resolver.Themes

/-!
# Artifacts of different modes

All themes of a valid configuration have the names of the default one, though not always in its
order and with its values. Resolving a theme changes no name and reordering it gives every mode the
order of the default theme, so the artifacts of two modes differ in values only.

## Main definitions

- `Theme.Distinct` — a theme that declares no name twice
-/

namespace DesignTokens

open Read

variable {rule : LeafRule} {config : Config}

/-- A theme that declares no name twice. -/
structure Theme.Distinct (theme : Theme) : Prop where
  colors : (Mapping.keys theme.colors).Nodup
  steps : ∀ name steps, (name, .group steps) ∈ theme.colors → (Mapping.keys steps).Nodup
  semantic : (Mapping.keys theme.semantic).Nodup
  roles : ∀ category roles, (category, roles) ∈ theme.semantic → (Mapping.keys roles).Nodup

theorem Theme.distinct_of_regular {theme : Theme} (h : theme.toDocument.Regular rule) :
    theme.Distinct := by
  have hcolors := h.find? (show Mapping.find? _ "colors" = some _ from rfl)
  have hsemantic := h.find? (show Mapping.find? _ "semantic" = some _ from rfl)
  rw [mappingDocument, Document.regular_mapping, Mapping.keys_mapValues] at hcolors hsemantic
  refine ⟨hcolors.1, ?_, hsemantic.1, ?_⟩
  · intro name steps hmem
    have hsteps := hcolors.2 _ (Mapping.mem_mapValues_of_mem hmem)
    rw [ValueOrGroup.toDocument, textsDocument, mappingDocument, Document.regular_mapping,
      Mapping.keys_mapValues] at hsteps
    exact hsteps.1
  · intro category roles hmem
    have hroles := hsemantic.2 _ (Mapping.mem_mapValues_of_mem hmem)
    rw [textsDocument, mappingDocument, Document.regular_mapping, Mapping.keys_mapValues] at hroles
    exact hroles.1

/-- No theme of a configuration that was read from a regular document declares a name twice. -/
theorem HasSource.distinct (h : HasSource rule config) {mode : String} {theme : Theme}
    (hmem : (mode, theme) ∈ config.theme.themes) : theme.Distinct := by
  have hcatalog := h.regular.find? (show Mapping.find? _ "theme" = some _ from rfl)
  have hthemes := hcatalog.find? (show Mapping.find? _ "themes" = some _ from rfl)
  exact Theme.distinct_of_regular
    ((Document.regular_mapping.mp hthemes).2 _ (Mapping.mem_mapValues_of_mem hmem))

section Order

theorem sameOutline_texts {texts reference : Mapping String}
    (hnodup : (Mapping.keys reference).Nodup) (h : SameKeys (Mapping.keys texts) (Mapping.keys reference)) :
    SameOutline (orderedLike (textsDocument texts) (some (textsDocument reference)))
      (textsDocument reference) := by
  refine sameOutline_orderedLike (by rwa [Mapping.keys_mapValues]) ?_
  rw [Mapping.alike_mapValues_iff]
  refine ⟨h, fun _ s t _ _ => ?_⟩
  rw [orderedLike_text]
  exact .text s t

/-- Colours with the names and kinds of a reference have its outline in its order. -/
theorem sameOutline_colors {theme reference : Theme} (hnames : theme.SameNames reference)
    (htheme : theme.CompleteScales) (hreference : reference.CompleteScales)
    (hdistinct : reference.Distinct) :
    SameOutline (orderedLike (mappingDocument ValueOrGroup.toDocument theme.colors)
        (some (mappingDocument ValueOrGroup.toDocument reference.colors)))
      (mappingDocument ValueOrGroup.toDocument reference.colors) := by
  refine sameOutline_orderedLike (by rw [Mapping.keys_mapValues]; exact hdistinct.colors) ?_
  rw [Mapping.alike_mapValues_iff]
  refine hnames.colors.imp fun name v w hv hw hkind => ?_
  have hv := Mapping.mem_of_find? hv
  have hw := Mapping.mem_of_find? hw
  -- Colours of one name are both literals or both complete scales.
  match v, w with
  | .value s, .value t =>
    rw [ValueOrGroup.toDocument, orderedLike_text]
    exact .text s t
  | .group steps, .group others =>
    exact sameOutline_texts (hdistinct.steps name others hw)
      ((htheme name steps hv).trans (hreference name others hw).symm)
  | .value _, .group _ => cases hkind
  | .group _, .value _ => cases hkind

/-- Colours with the names and kinds of another theme have texts and objects at the same paths. -/
theorem sameLayout_colors {theme other : Theme} (hnames : theme.SameNames other)
    (htheme : theme.CompleteScales) (hother : other.CompleteScales) :
    (mappingDocument ValueOrGroup.toDocument theme.colors).SameLayout
      (mappingDocument ValueOrGroup.toDocument other.colors) := by
  refine Document.sameLayout_mapping ((Mapping.alike_mapValues_iff _ _).mpr ?_)
  refine hnames.colors.imp fun name v w hv hw hkind => ?_
  have hv := Mapping.mem_of_find? hv
  have hw := Mapping.mem_of_find? hw
  match v, w with
  | .value s, .value t => exact Document.sameLayout_text s t
  | .group steps, .group others =>
    exact Document.sameLayout_textsDocument
      ((htheme name steps hv).trans (hother name others hw).symm)
  | .value _, .group _ => cases hkind
  | .group _, .value _ => cases hkind

/-- Roles with the names of a reference have its outline in its order. -/
theorem sameOutline_roles {semantic : Mapping (Mapping String)} {reference : Theme}
    (hnames : Mapping.Alike (fun roles others => SameKeys (Mapping.keys roles) (Mapping.keys others))
      semantic reference.semantic) (hdistinct : reference.Distinct) :
    SameOutline (orderedLike (mappingDocument textsDocument semantic)
        (some (mappingDocument textsDocument reference.semantic)))
      (mappingDocument textsDocument reference.semantic) := by
  refine sameOutline_orderedLike (by rw [Mapping.keys_mapValues]; exact hdistinct.semantic) ?_
  rw [Mapping.alike_mapValues_iff]
  refine hnames.imp fun category roles others _ hothers hkeys => ?_
  exact sameOutline_texts (hdistinct.roles category others (Mapping.mem_of_find? hothers)) hkeys

end Order

theorem traverse_ok_roles {f : String → String → String → Except Failure String}
    {semantic resolved : Mapping (Mapping String)}
    (h : Mapping.traverse (fun category => Mapping.traverse (f category)) semantic = .ok resolved) :
    Mapping.Alike (fun roles others => SameKeys (Mapping.keys roles) (Mapping.keys others)) semantic
      resolved := by
  refine (Mapping.along_of_traverse h).alike.imp fun _ roles others _ _ ⟨category, hroles⟩ => ?_
  exact (Mapping.along_of_traverse hroles).keys_eq ▸ .refl _

/-- A resolved theme has the colours of its mode's theme and the names of its roles. -/
theorem resolveTheme_ok {mode : String} {policy : Document} {theme : ResolvedTheme}
    (h : resolveTheme config mode policy = .ok theme) : theme.mode = mode ∧
      ∃ declared, (mode, declared) ∈ config.theme.themes ∧ theme.colors = declared.colors ∧
        Mapping.Alike (fun roles others => SameKeys (Mapping.keys roles) (Mapping.keys others))
          theme.semantic declared.semantic := by
  obtain ⟨r, hmake, hmode, hcolors, hsemantic⟩ := exists_of_resolveTheme h
  obtain ⟨declared, p, hdeclared, -, rfl⟩ := exists_of_make hmake
  refine ⟨hmode, declared, Mapping.mem_of_find? hdeclared, hcolors, ?_⟩
  exact (traverse_ok_roles hsemantic).symm.imp fun _ _ _ _ _ hkeys => hkeys.symm

/-- The default theme of a well-formed configuration. -/
theorem Config.WellFormed.exists_default (h : config.WellFormed) :
    ∃ theme, config.defaultTheme? = some theme ∧
      (config.defaultMode, theme) ∈ config.theme.themes := by
  obtain ⟨theme, htheme⟩ := Mapping.exists_find?_of_mem_keys h.theme.default
  exact ⟨theme, htheme, Mapping.mem_of_find? htheme⟩

/-- In every mode the colours and the roles stand in the outline of the default theme. -/
theorem sameOutline_order (hsource : HasSource rule config) (hwell : config.WellFormed)
    {mode : String} {policy : Document} {theme : ResolvedTheme}
    (h : resolveTheme config mode policy = .ok theme) :
    SameOutline (config.orderedColors theme) config.colorOrder ∧
      SameOutline (config.orderedRoles theme) config.roleOrder := by
  obtain ⟨-, declared, hdeclared, hcolors, hroles⟩ := resolveTheme_ok h
  obtain ⟨reference, hdefault, hreference⟩ := hwell.exists_default
  have hnames := hwell.theme.alike _ _ hdeclared _ _ hreference
  have hdistinct := hsource.distinct hreference
  simp only [Config.orderedColors, Config.orderedRoles, Config.colorOrder, Config.roleOrder,
    ResolvedTheme.colorsDocument, ResolvedTheme.semanticDocument, hdefault, hcolors, Option.map_some,
    Option.getD_some]
  constructor
  -- Resolving keeps the colours as declared, but rebuilds the roles.
  · exact sameOutline_colors hnames (hwell.theme.scales _ _ hdeclared)
      (hwell.theme.scales _ _ hreference) hdistinct
  · refine sameOutline_roles ((hroles.trans hnames.semantic).imp ?_) hdistinct
    rintro _ _ _ _ _ ⟨_, hkeys, hkeys'⟩
    exact hkeys.trans hkeys'

/-- In every mode the tokens have the paths of the tokens in the order of the default theme. -/
theorem paths_tokenEntries {theme other : ResolvedTheme}
    (hcolors : SameOutline (config.orderedColors theme) (config.orderedColors other))
    (hroles : SameOutline (config.orderedRoles theme) (config.orderedRoles other)) :
    (config.tokenEntries theme).map Prod.fst = (config.tokenEntries other).map Prod.fst := by
  have hspace : ∀ space path, leafPaths path (config.spaceTokens theme space) =
      leafPaths path (config.spaceTokens other space) := by
    intro space path
    cases space with
    | colors => exact hcolors.paths path
    | semantic => exact hroles.paths path
    | _ => rfl
  simp only [Config.tokenEntries, List.map_flatMap]
  exact congrArg (config.selectedSpaces.flatMap ·) (funext fun space => hspace space space.path)

theorem sameOutline_themeMaps {theme other : ResolvedTheme}
    (hcolors : SameOutline (config.orderedColors theme) (config.orderedColors other))
    (hroles : SameOutline (config.orderedRoles theme) (config.orderedRoles other)) :
    SameOutline (.mapping (config.themeMaps theme)) (.mapping (config.themeMaps other)) := by
  refine .mapping (List.rel_append ?_ ?_)
  · split
    · exact .cons ⟨rfl, hcolors⟩ .nil
    · exact .nil
  · split
    · exact .cons ⟨rfl, hroles⟩ .nil
    · exact .nil

/-- Lines that define one variable each. How a line starts depends on the path of its token only. -/
def definitions (start : String → String) (paths values : List String) : List String :=
  List.zipWith (fun path value => start path ++ value ++ ";") paths values

theorem map_eq_definitions (start : String → String) (tokens : List (String × String)) :
    tokens.map (fun token => start token.1 ++ token.2 ++ ";") =
      definitions start (tokens.map Prod.fst) (tokens.map Prod.snd) := by
  rw [definitions, List.zipWith_map, List.zipWith_self]

/-- In any two modes of a parsed configuration the tokens have the same paths in the same order, so
the stylesheets define the same variables line by line, and the maps of the modes have the same keys
in the same order at every level. -/
theorem modes_define_same_tokens {raw : RawDocument} {warnings : List String}
    (hparse : parse raw.normalize = .ok (config, warnings)) {mode mode' : String}
    {policy policy' : Document} {theme theme' : ResolvedTheme}
    (h : resolveTheme config mode policy = .ok theme)
    (h' : resolveTheme config mode' policy' = .ok theme') :
    (∃ paths : List String, ∀ t ∈ [theme, theme'], ∃ values : List String,
      values.length = paths.length ∧ config.tokenEntries t = paths.zip values ∧
      ∀ p, config.emit p [t] .css = .ok (Text.join "\n" ([blockComment (config.tokensTitle t),
          blockComment generatedNotice, "", ":root \x7b"] ++
          definitions (fun path => "  " ++ variableName config.variablePrefix path ++ ": ") paths values
          ++ ["\x7d"]) ++ "\n") ∧
        config.emit p [t] .scss = .ok (Text.join "\n" (["// " ++ config.tokensTitle t,
          "// " ++ generatedNotice, ""] ++
          definitions (fun path => "$" ++ config.variablePrefix ++ "-" ++ variableSuffix path ++ ": ")
            paths values) ++ "\n")) ∧
      (Document.mapping (config.themeMaps theme)).outline =
        (Document.mapping (config.themeMaps theme')).outline := by
  obtain ⟨⟨entries, hentries, hsound, -⟩, hread⟩ := sound_of_parse raw.regular_normalize hparse
  have hsource : HasSource .any config := ⟨_, raw.regular_normalize, hread⟩
  have hwell : config.WellFormed := ((Config.soundStructure_iff (hentries ▸ hread)).mp hsound).2
  obtain ⟨hcolors, hroles⟩ := sameOutline_order hsource hwell h
  obtain ⟨hcolors', hroles'⟩ := sameOutline_order hsource hwell h'
  have hcolors := hcolors.trans hcolors'.symm
  have hroles := hroles.trans hroles'.symm
  refine ⟨⟨(config.tokenEntries theme).map Prod.fst, fun t ht => ?_⟩,
    (sameOutline_themeMaps hcolors hroles).outline⟩
  have hpaths : (config.tokenEntries theme).map Prod.fst = (config.tokenEntries t).map Prod.fst := by
    rcases List.mem_pair.mp ht with rfl | rfl
    · rfl
    · exact paths_tokenEntries hcolors hroles
  refine ⟨(config.tokenEntries t).map Prod.snd, by simp [hpaths], ?_, fun p => ?_⟩
  · exact hpaths ▸ List.zip_of_prod rfl rfl
  · rw [hpaths, ← map_eq_definitions, ← map_eq_definitions]
    exact ⟨rfl, rfl⟩

theorem sample_modes_define_same_tokens : ∃ config warnings theme theme',
    parse (sampleDocument []).normalize = .ok (config, warnings) ∧
      resolveTheme config "day" (.text "strict") = .ok theme ∧
      resolveTheme config "night" (.text "lenient") = .ok theme' ∧
      (Document.mapping (config.themeMaps theme)).outline =
        (Document.mapping (config.themeMaps theme')).outline := by
  obtain ⟨config, theme, theme', hread, h, h'⟩ : ∃ config theme theme',
      Config.read (sampleDocument []).normalize = .valid config ∧
        resolveTheme config "day" (.text "strict") = .ok theme ∧
        resolveTheme config "night" (.text "lenient") = .ok theme' :=
    ⟨_, _, _, rfl, rfl, rfl⟩
  obtain ⟨findings, hfindings, herrors⟩ := validate_sample [] hread
  have hparse := parse_of_errors hfindings herrors hread
  exact ⟨config, _, theme, theme', hparse, h, h', (modes_define_same_tokens hparse h h').2⟩

end DesignTokens
