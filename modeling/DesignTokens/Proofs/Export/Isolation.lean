import DesignTokens.Proofs.Export.Outcome

/-!
# Modes that do not interfere

Every part of the compiler gets the whole configuration, but an artifact of one mode is made of that
mode's theme, of the sections that no mode changes and, for the order of its tokens, of the default
mode's theme. The themes of all other modes may be changed, added and removed: the artifact stays the
same, and so does the failure where there is none.

## Main definitions

- `Config.withThemes` — a configuration with other themes
- `Config.AgreesOn` — a configuration that differs from another in the themes of other modes at most
-/

namespace DesignTokens

/-- A configuration with other themes. -/
def Config.withThemes (config : Config) (themes : Mapping Theme) : Config :=
  { config with theme := { config.theme with themes := themes } }

/-- A configuration that has the themes of another for the given modes, and everything that is no
theme. -/
structure Config.AgreesOn (modes : List String) (config other : Config) : Prop where
  rest : other = config.withThemes other.theme.themes
  themes : ∀ mode ∈ modes, other.theme? mode = config.theme? mode

variable {config other : Config} {mode : String} {modes : List String} {theme : ResolvedTheme}

/-! Titles, variable names and component styles have nothing to do with themes. -/

section Themeless

variable (config : Config) (themes : Mapping Theme)

theorem tokensTitle_withThemes :
    (config.withThemes themes).tokensTitle = config.tokensTitle := rfl

theorem propertyLine_withThemes :
    (config.withThemes themes).propertyLine = config.propertyLine := rfl

theorem variableLine_withThemes :
    (config.withThemes themes).variableLine = config.variableLine := rfl

theorem componentHeader_withThemes :
    (config.withThemes themes).componentHeader = config.componentHeader := rfl

theorem componentStyles_withThemes :
    (config.withThemes themes).componentStyles = config.componentStyles := rfl

end Themeless

/-! Resolvers that give every reference the same value compile every style to the same rule. -/

section Compile

variable {r r' : Resolver}

mutual
theorem addEntry_congr (h : ∀ path, r'.resolve path = r.resolve path) (rule : Rule)
    (property : String) :
    (node : StyleNode) → addEntry r' rule property node = addEntry r rule property node
  | .literal _ => by rw [addEntry, addEntry]
  | .reference path => by rw [addEntry, addEntry, h path]
  | .state _ entries => by rw [addEntry, addEntry, addEntries_congr h .empty entries]

theorem addEntries_congr (h : ∀ path, r'.resolve path = r.resolve path) (rule : Rule) :
    (entries : List StyleEntry) → addEntries r' rule entries = addEntries r rule entries
  | [] => by rw [addEntries, addEntries]
  | (property, node) :: rest => by
    rw [addEntries, addEntries, addEntry_congr h rule property node]
    exact congrArg _ (funext fun next => addEntries_congr h next rest)
end

theorem compileBlocks_congr (h : ∀ path, r'.resolve path = r.resolve path)
    (parts : List (String × Mapping Document)) :
    Config.compileBlocks r' parts = Config.compileBlocks r parts := by
  induction parts with
  | nil => rfl
  | cons part rest ih =>
    rw [Config.compileBlocks, Config.compileBlocks, ih, compileEntries, compileEntries,
      addEntries_congr h]

end Compile

namespace Config.AgreesOn

variable (h : config.AgreesOn modes other)
include h

theorem exists_themes : ∃ themes, other = config.withThemes themes :=
  ⟨_, h.rest⟩

theorem themeFor (hmode : mode ∈ modes) {declared : Theme}
    (hdeclared : config.theme? mode = some declared) : other.themeFor mode = .ok declared :=
  Config.themeFor_of_find ((h.themes mode hmode).trans hdeclared)

/-- A reference is looked up in the resolver's own theme and in sections that are no theme. -/
theorem lookUp (declared : Theme) (policy : Policy) (path : String) :
    (Resolver.mk other mode declared policy).lookUp path =
      (Resolver.mk config mode declared policy).lookUp path := by
  obtain ⟨themes, rfl⟩ := h.exists_themes
  rfl

theorem fallback (declared : Theme) (policy : Policy) (path : String) :
    (Resolver.mk other mode declared policy).fallback path =
      (Resolver.mk config mode declared policy).fallback path := by
  obtain ⟨themes, rfl⟩ := h.exists_themes
  rfl

theorem resolve (mode : String) (declared : Theme) (policy : Policy) (path : String) :
    (Resolver.mk other mode declared policy).resolve path =
      (Resolver.mk config mode declared policy).resolve path := by
  rw [Resolver.resolve, Resolver.resolve, h.lookUp, h.fallback]

theorem resolveRole (mode : String) (declared : Theme) (policy : Policy) (path : String) :
    (Resolver.mk other mode declared policy).resolveRole path =
      (Resolver.mk config mode declared policy).resolveRole path := by
  simp only [Resolver.resolveRole, h.lookUp, h.fallback]

/-- A theme of the given modes is resolved in the same way, or fails with the same error. -/
theorem resolveTheme (hmode : mode ∈ modes) (hdeclared : mode ∈ config.modes) (policy : Document) :
    resolveTheme other mode policy = resolveTheme config mode policy := by
  obtain ⟨declared, hdeclared⟩ := Config.exists_theme hdeclared
  rw [DesignTokens.resolveTheme, Resolver.make, h.themeFor hmode hdeclared,
    DesignTokens.resolveTheme, Resolver.make, Config.themeFor_of_find hdeclared]
  cases Policy.ofWord policy with
  | error failure => rfl
  | ok p =>
    have hroles := funext fun path => h.resolveRole mode declared p path
    simp only [bind, Except.bind, hroles]

/-- A reference in one of the given modes has the same value, or fails with the same error. -/
theorem resolveReference (hmode : mode ∈ modes) (hdeclared : mode ∈ config.modes) (policy : Document)
    (path : String) : resolveReference other mode policy path =
      resolveReference config mode policy path := by
  obtain ⟨declared, hdeclared⟩ := Config.exists_theme hdeclared
  rw [DesignTokens.resolveReference, Resolver.make, h.themeFor hmode hdeclared,
    DesignTokens.resolveReference, Resolver.make, Config.themeFor_of_find hdeclared]
  cases Policy.ofWord policy with
  | error failure => rfl
  | ok p => exact h.resolve mode declared p path

/-- The tokens of a mode stand in the order of the default mode's theme. -/
theorem tokenEntries (hdefault : config.defaultMode ∈ modes) :
    other.tokenEntries theme = config.tokenEntries theme := by
  have hreference := h.themes _ hdefault
  obtain ⟨themes, rfl⟩ := h.exists_themes
  replace hreference : (config.withThemes themes).defaultTheme? = config.defaultTheme? := hreference
  have hspace : ∀ space, (config.withThemes themes).spaceTokens theme space =
      config.spaceTokens theme space := by
    intro space
    cases space with
    | colors =>
      rw [spaceTokens, spaceTokens, orderedColors, orderedColors, colorOrder, colorOrder, hreference]
    | semantic =>
      rw [spaceTokens, spaceTokens, orderedRoles, orderedRoles, roleOrder, roleOrder, hreference]
    | _ => rfl
  rw [Config.tokenEntries, Config.tokenEntries]
  exact congrArg (config.selectedSpaces.flatMap ·) (funext fun space => by rw [hspace])

theorem customProperties (hdefault : config.defaultMode ∈ modes) :
    other.customProperties theme = config.customProperties theme := by
  rw [Config.customProperties, Config.customProperties, h.tokenEntries hdefault]
  obtain ⟨themes, rfl⟩ := h.exists_themes
  rw [tokensTitle_withThemes, propertyLine_withThemes]

theorem stylesheetVariables (hdefault : config.defaultMode ∈ modes) :
    other.stylesheetVariables theme = config.stylesheetVariables theme := by
  rw [Config.stylesheetVariables, Config.stylesheetVariables, h.tokenEntries hdefault]
  obtain ⟨themes, rfl⟩ := h.exists_themes
  rw [tokensTitle_withThemes, variableLine_withThemes]

/-- The stylesheet of the library is that of the mode, or fails with the same error. -/
theorem componentSheet (declared : Theme) (policy : Policy) :
    Config.componentSheet ⟨other, mode, declared, policy⟩ =
      Config.componentSheet ⟨config, mode, declared, policy⟩ := by
  have hresolve := h.resolve mode declared policy
  obtain ⟨themes, rfl⟩ := h.exists_themes
  rw [Config.componentSheet, Config.componentSheet, compileBlocks_congr hresolve,
    componentHeader_withThemes, componentStyles_withThemes]

/-- The artifact of a resolved theme is the same in each format that is for one mode at a time. -/
theorem emit (hdefault : config.defaultMode ∈ modes) (hmode : theme.mode ∈ modes)
    (hdeclared : theme.mode ∈ config.modes) (policy : Policy) {format : Format}
    (hformat : format.perMode = true) :
    other.emit policy [theme] format = config.emit policy [theme] format := by
  cases format with
  | css => exact congrArg Except.ok (h.customProperties hdefault)
  | scss => exact congrArg Except.ok (h.stylesheetVariables hdefault)
  | components =>
    obtain ⟨declared, hdeclared⟩ := Config.exists_theme hdeclared
    have hother := (h.themes _ hmode).trans hdeclared
    rw [emit_components hother, emit_components hdeclared, h.componentSheet]
  | _ => cases hformat

/-- The content of a job for one mode is the same, or fails with the same error. -/
theorem jobContent (hdefault : config.defaultMode ∈ modes) (hmode : mode ∈ modes)
    (hdeclared : mode ∈ config.modes) {job : Job} (hjob : job.modes = [mode]) {format : Format}
    (hformat : format.perMode = true) (policy : Document) :
    jobContent job format other policy = jobContent job format config policy := by
  have huses : format.usesThemes = true := by cases format <;> first | rfl | cases hformat
  have htheme := h.resolveTheme hmode hdeclared policy
  cases hresolve : DesignTokens.resolveTheme config mode policy with
  | error failure =>
    simp only [DesignTokens.jobContent, huses, if_true, hjob, resolveThemes, htheme, hresolve, bind,
      Except.bind]
  | ok theme =>
    obtain rfl := mode_of_resolveTheme hresolve
    have hemit := fun p => h.emit hdefault hmode hdeclared p hformat
    simp only [DesignTokens.jobContent, huses, if_true, hjob, resolveThemes, htheme, hresolve, bind,
      Except.bind, hemit]

end Config.AgreesOn

/-- The standard configuration with its themes in another order and a third one in front. -/
def duskConfig : Config :=
  Config.standard.withThemes [("dusk", ⟨[("ink", .value "#223")], [], []⟩),
    ("dark", Config.darkTheme), ("light", Config.lightTheme)]

end DesignTokens
