import DesignTokens.Proofs.Artifact.Addresses

/-!
# The tokens of data artifacts

The data artifacts of several modes hold one document. Its parts for a mode, put together in the
canonical order of the namespaces, are the tokens that a stylesheet of the mode lists.

## Main definitions

- `TokenSpace.part` — where the tokens of a namespace are in the document
- `documentEntries` — the tokens of one mode that a document holds
-/

namespace DesignTokens

variable {config : Config} {policy : Document} {modes : List String} {themes : List ResolvedTheme}
  {theme : ResolvedTheme}

/-- The keys that lead to the tokens of a namespace for a mode. -/
def TokenSpace.part (mode : String) : TokenSpace → List String
  | .colors => ["themes", mode, "colors"]
  | .semantic => ["themes", mode, "semantic"]
  | .spacing => ["spacing", "scale"]
  | .fontSize => ["typography", "fontSize"]
  | space => ["effects", space.name]

/-- The paths and values of the tokens that a document holds for a mode, in canonical order. -/
def documentEntries (mode : String) (d : Document) : List (String × String) :=
  TokenSpace.all.flatMap fun space =>
    ((d.at? (space.part mode)).map (flatten space.path)).getD []

theorem TokenSpace.name_injective : Function.Injective TokenSpace.name := by
  intro space other h
  cases space <;> cases other <;> first | rfl | exact absurd h (by decide)

theorem find?_map_name (spaces : List TokenSpace) (f : TokenSpace → Document) (space : TokenSpace) :
    Mapping.find? (spaces.map fun space => (space.name, f space)) space.name =
      if space ∈ spaces then some (f space) else none := by
  induction spaces with
  | nil => rfl
  | cons first rest ih =>
    rw [List.map_cons, Mapping.find?_cons, ih]
    by_cases h : first = space
    · simp [h]
    · have hname : first.name ≠ space.name := fun heq => h (TokenSpace.name_injective heq)
      simp [hname, Ne.symm h]

section Parts

variable (config : Config) (themes : List ResolvedTheme)

theorem get?_themes : (config.tokenDocument themes).get? "themes" =
    some (config.themesDocument themes) := by
  simp [Config.tokenDocument, Mapping.find?_cons]

theorem get?_spacing : (config.tokenDocument themes).get? "spacing" =
    if config.selects .spacing then some config.spacing.present else none := by
  simp only [Config.tokenDocument, Document.get?_mapping, Mapping.find?_append]
  split <;> split <;> split <;> rfl

theorem get?_typography : (config.tokenDocument themes).get? "typography" =
    if config.selects .fontSize then some config.typography.present else none := by
  simp only [Config.tokenDocument, Document.get?_mapping, Mapping.find?_append]
  split <;> split <;> split <;> rfl

theorem find?_effectSections (space : TokenSpace) (h : space.isEffect = true) :
    Mapping.find? config.effectSections space.name =
      if config.selects space then some (Config.effectTokens config.effects space) else none := by
  rw [Config.effectSections, find?_map_name]
  simp only [List.mem_filter, mem_selectedSpaces, h, and_true]

theorem at?_effects (space : TokenSpace) (h : space.isEffect = true) :
    (config.tokenDocument themes).at? ["effects", space.name] =
      if config.selects space then some (Config.effectTokens config.effects space) else none := by
  have hget : (config.tokenDocument themes).get? "effects" =
      if config.effectSections.isEmpty then none else some (.mapping config.effectSections) := by
    simp only [Config.tokenDocument, Document.get?_mapping, Mapping.find?_append]
    split <;> split <;> split <;> rfl
  rw [← find?_effectSections config space h, Document.at?_cons, hget]
  -- The document has no entry for effects when it would be empty.
  cases config.effectSections <;> simp

/-- In a list of resolved themes a mode stands for one theme, even if it is listed twice. -/
theorem find?_themesDocument {themes : List ResolvedTheme} (hmem : theme ∈ themes)
    (hsame : ∀ other ∈ themes, other.mode = theme.mode → other = theme) :
    (config.themesDocument themes).get? theme.mode = some (.mapping (config.themeMaps theme)) := by
  rw [Config.themesDocument, Document.get?_mapping]
  refine Mapping.find?_ofEntries (List.mem_map.mpr ⟨theme, hmem, rfl⟩) fun d hd => ?_
  obtain ⟨other, hother, heq⟩ := List.mem_map.mp hd
  rw [hsame other hother (congrArg Prod.fst heq)] at heq
  exact (congrArg Prod.snd heq).symm

/-- A part of the document is what a namespace has for the mode, if the namespace is selected. -/
theorem at?_part {themes : List ResolvedTheme} (hmem : theme ∈ themes)
    (hsame : ∀ other ∈ themes, other.mode = theme.mode → other = theme) (space : TokenSpace) :
    (config.tokenDocument themes).at? (space.part theme.mode) =
      if config.selects space then some (config.spaceTokens theme space) else none := by
  cases space with
  | colors | semantic =>
    simp only [TokenSpace.part, Document.at?_cons, get?_themes, Option.bind_some,
      find?_themesDocument config hmem hsame, Document.get?_mapping, Config.themeMaps,
      Mapping.find?_append]
    split <;> split <;> rfl
  | spacing =>
    simp only [TokenSpace.part, Document.at?_cons, get?_spacing]
    split <;> rfl
  | fontSize =>
    simp only [TokenSpace.part, Document.at?_cons, get?_typography]
    split <;> rfl
  | _ => exact at?_effects config themes _ rfl

end Parts

theorem documentEntries_eq {themes : List ResolvedTheme} (hmem : theme ∈ themes)
    (hsame : ∀ other ∈ themes, other.mode = theme.mode → other = theme) :
    documentEntries theme.mode (config.tokenDocument themes) = config.tokenEntries theme := by
  simp only [documentEntries, at?_part config hmem hsame, Config.tokenEntries,
    Config.selectedSpaces]
  induction TokenSpace.all with
  | nil => rfl
  | cons space rest ih =>
    rw [List.flatMap_cons, ih, List.filter_cons]
    split
    · rfl
    · rfl

/-- The path of a token tells its namespace. -/
theorem selects_of_mem_tokenEntries {space : TokenSpace} {rest value : String}
    (h : (space.path ++ "." ++ rest, value) ∈ config.tokenEntries theme) :
    config.selects space = true := by
  rw [tokenEntries_eq_map] at h
  obtain ⟨token, htoken, heq⟩ := List.mem_map.mp h
  have hsplit : token.space.segments ++ pieces token.keys =
      space.segments ++ Text.split '.' rest := by
    rw [← split_path, show token.path = _ from congrArg Prod.fst heq, Text.split_dot]
    rfl
  obtain ⟨hspace, -⟩ := TokenSpace.segments_inj hsplit
  exact hspace ▸ (mem_tokenList.mp htoken).1

end DesignTokens
