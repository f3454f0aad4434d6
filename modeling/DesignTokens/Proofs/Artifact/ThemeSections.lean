import DesignTokens.Proofs.Artifact.ThemeExtension

/-!
# The entries of the theme extension

Every token that the theme extension holds has an entry of its own, unless names get in the way. The
spacings, the font sizes and the gradients each stand side by side in one section, whether they are
grouped or not, so two of them share an entry when their names read the same with a hyphen between
group and member. And the roles take the place of a colour that is called like their section.

## Main definitions

- `Config.flatSections` — the sections whose tokens stand side by side, with their tokens
- `Config.utilities` — the tokens of the theme extension, with their entries and their values
- `Config.NamesApart` — names that do not get in the way
- `Config.NamesPlain` — names without hyphens where they could do so
-/

namespace DesignTokens

variable {config : Config} {reference : Theme} {key : String}
  {tokens : List (List String × Document)}

/-- The tokens of a mapping, below one key each. -/
def plainTokens (m : Mapping Document) : List (List String × Document) :=
  m.map fun entry => ([entry.1], entry.2)

/-- The tokens of a group, below its key and their own. -/
def tokensBelow (group : String) (members : Mapping Document) : List (List String × Document) :=
  members.map fun entry => ([group, entry.1], entry.2)

def groupedTokens (groups : Mapping (Mapping Document)) : List (List String × Document) :=
  groups.flatMap fun group => tokensBelow group.1 group.2

/-- The name of a token in its section. -/
def utilityName (keys : List String) : String :=
  Text.join "-" keys

/-- The entries of some tokens, under their names. -/
def namedEntries (tokens : List (List String × Document)) : List (String × Document) :=
  tokens.map fun token => (utilityName token.1, token.2)

/-- A token of the theme extension: the keys of its entry, and its value. -/
structure Utility where
  address : List String
  value : Document

namespace Config

def spacingTokens (config : Config) : List (List String × Document) :=
  plainTokens (Mapping.mapValues .text config.spacing.scale) ++
    groupedTokens (Mapping.mapValues (Mapping.mapValues .text) config.spacing.semantic)

def fontSizeTokens (config : Config) : List (List String × Document) :=
  plainTokens (config.typography.fontSize.map fun size => (size.1, config.sizedText size.1 size.2)) ++
    groupedTokens (Mapping.mapValues (Mapping.mapValues styledText) config.typography.scales)

def gradientTokens (config : Config) : List (List String × Document) :=
  config.effects.gradients.flatMap fun gradient =>
    match gradient.2 with
    | .value s => [([gradient.1], .text s)]
    | .group members => tokensBelow gradient.1 (Mapping.mapValues .text members)

/-- The sections whose tokens stand side by side, whether they are grouped or not. -/
def flatSections (config : Config) : Mapping (List (List String × Document)) :=
  [("spacing", config.spacingTokens), ("fontSize", config.fontSizeTokens),
    ("backgroundImage", config.gradientTokens)]

/-- The roles of a theme, each with its custom property. -/
def roleUtilities (config : Config) (reference : Theme) : List Utility :=
  reference.semantic.flatMap fun category => category.2.map fun role =>
    ⟨["colors", "semantic", category.1, role.1],
      .text (variableFallback config.variablePrefix (rolePath category.1 role.1))⟩

/-- The spacings, the font sizes and text styles, the gradients, the colours of a theme and its
roles. -/
def utilities (config : Config) (reference : Theme) : List Utility :=
  (config.flatSections.flatMap fun entry =>
    entry.2.map fun token => ⟨[entry.1, utilityName token.1], token.2⟩) ++
  (reference.colors.map fun color => ⟨["colors", color.1], color.2.toDocument⟩) ++
  config.roleUtilities reference

/-- No two tokens of a section have one name, and no colour is called like the section of the roles. -/
structure NamesApart (config : Config) (reference : Theme) : Prop where
  flat : ∀ key tokens, (key, tokens) ∈ config.flatSections →
    ∀ token ∈ tokens, ∀ other ∈ tokens, utilityName token.1 = utilityName other.1 → token = other
  colors : "semantic" ∉ Mapping.keys reference.colors

/-- No hyphen is in a key that stands alone or in front of another one, and no colour is called like
the section of the roles. -/
structure NamesPlain (config : Config) (reference : Theme) : Prop where
  flat : ∀ key tokens, (key, tokens) ∈ config.flatSections →
    ∀ token ∈ tokens, ∀ first ∈ token.1.head?, '-' ∉ first.toList
  colors : "semantic" ∉ Mapping.keys reference.colors

end Config

@[simp] theorem utilityName_singleton (key : String) : utilityName [key] = key := by
  rw [utilityName, Text.join, String.intercalate_singleton]

@[simp] theorem utilityName_pair (group key : String) :
    utilityName [group, key] = dashed group key := by
  rw [utilityName, Text.join, String.intercalate_cons_cons, String.intercalate_singleton, dashed]

section Sections

theorem mem_flatSections : (key, tokens) ∈ config.flatSections ↔
    key = "spacing" ∧ tokens = config.spacingTokens ∨
      key = "fontSize" ∧ tokens = config.fontSizeTokens ∨
        key = "backgroundImage" ∧ tokens = config.gradientTokens := by
  simp [Config.flatSections]

theorem ne_colors_of_mem_flatSections (hmem : (key, tokens) ∈ config.flatSections) :
    key ≠ "colors" := by
  obtain ⟨rfl, -⟩ | ⟨rfl, -⟩ | ⟨rfl, -⟩ := mem_flatSections.mp hmem <;> decide

theorem namedEntries_append (tokens more : List (List String × Document)) :
    namedEntries (tokens ++ more) = namedEntries tokens ++ namedEntries more :=
  List.map_append

theorem namedEntries_plainTokens (m : Mapping Document) : namedEntries (plainTokens m) = m := by
  simp [namedEntries, plainTokens, Function.comp_def]

theorem namedEntries_groupedTokens (groups : Mapping (Mapping Document)) :
    namedEntries (groupedTokens groups) =
      groups.flatMap fun group => group.2.map fun entry => (dashed group.1 entry.1, entry.2) := by
  simp [namedEntries, groupedTokens, tokensBelow, List.map_flatMap, Function.comp_def]

theorem textsDocument_utilitySpacing (h : (Mapping.keys config.spacing.scale).Nodup) :
    textsDocument config.utilitySpacing =
      .mapping (Mapping.ofEntries (namedEntries config.spacingTokens)) := by
  rw [Config.spacingTokens, namedEntries_append, namedEntries_plainTokens, namedEntries_groupedTokens,
    Mapping.ofEntries_append (by simpa using h), textsDocument, mappingDocument, Config.utilitySpacing,
    Mapping.mapValues_setAll]
  simp [Mapping.mapValues_eq_map, List.map_flatMap, List.flatMap_map, Function.comp_def]

theorem utilityFontSizes_eq (h : (Mapping.keys config.typography.fontSize).Nodup) :
    config.utilityFontSizes = Mapping.ofEntries (namedEntries config.fontSizeTokens) := by
  rw [Config.fontSizeTokens, namedEntries_append, namedEntries_plainTokens, namedEntries_groupedTokens,
    Mapping.ofEntries_append, Config.utilityFontSizes]
  · simp [Mapping.mapValues_eq_map, List.flatMap_map, Function.comp_def]
  · simpa [Mapping.keys, Function.comp_def] using h

theorem textsDocument_utilityGradients (config : Config) :
    textsDocument config.utilityGradients =
      .mapping (Mapping.ofEntries (namedEntries config.gradientTokens)) := by
  rw [textsDocument, mappingDocument, Config.utilityGradients, Mapping.ofEntries, Mapping.ofEntries,
    Mapping.mapValues_setAll, Config.gradientTokens, namedEntries, List.map_flatMap,
    Mapping.mapValues_eq_map _ (List.flatMap _ _), List.map_flatMap]
  congr 3
  funext gradient
  cases gradient.2 <;>
    simp [Config.gradientEntries, tokensBelow, Mapping.mapValues_eq_map, Function.comp_def]

theorem HasSource.nodup_scale (h : HasSource .any config) :
    (Mapping.keys config.spacing.scale).Nodup :=
  regular_textsDocument.mp ((h.regular.find? (show Mapping.find? _ "spacing" = some _ from rfl)).find?
    (show Mapping.find? _ "scale" = some _ from rfl))

theorem HasSource.nodup_fontSize (h : HasSource .any config) :
    (Mapping.keys config.typography.fontSize).Nodup :=
  regular_textsDocument.mp ((h.regular.find?
    (show Mapping.find? _ "typography" = some _ from rfl)).find?
      (show Mapping.find? _ "fontSize" = some _ from rfl))

/-- The entries of a section are those of its tokens, with the last one of each name. -/
theorem get?_flatSection (hsource : HasSource .any config)
    (hselects : ∀ space, config.selects space = true)
    (hmem : (key, tokens) ∈ config.flatSections) :
    config.themeExtension.get? key = some (.mapping (Mapping.ofEntries (namedEntries tokens))) := by
  simp only [Config.themeExtension, Config.selectedSections, Config.sectionOf, hselects, if_true,
    Document.get?_mapping]
  obtain ⟨rfl, rfl⟩ | ⟨rfl, rfl⟩ | ⟨rfl, rfl⟩ := mem_flatSections.mp hmem
  · exact congrArg some (textsDocument_utilitySpacing hsource.nodup_scale)
  · exact congrArg (some <| Document.mapping ·) (utilityFontSizes_eq hsource.nodup_fontSize)
  · exact congrArg some (textsDocument_utilityGradients config)

end Sections

section Distinct

/-- Keys are distinct if those below each entry are and start with the key of the entry. -/
theorem nodup_flatMap_of_head {α : Type} {m : Mapping α} {below : String × α → List (List String)}
    (h : (Mapping.keys m).Nodup) (hbelow : ∀ entry ∈ m, (below entry).Nodup)
    (hhead : ∀ entry ∈ m, ∀ keys ∈ below entry, keys.head? = some entry.1) :
    (m.flatMap below).Nodup := by
  refine List.nodup_flatMap.mpr ⟨hbelow, ?_⟩
  refine (List.pairwise_map.mp h).imp_of_mem fun hentry hother hne keys hkeys hkeys' => hne ?_
  exact Option.some.inj ((hhead _ hentry keys hkeys).symm.trans (hhead _ hother keys hkeys'))

theorem map_tokensBelow (group : String) (members : Mapping Document) :
    (tokensBelow group members).map Prod.fst = (Mapping.keys members).map fun key => [group, key] := by
  simp [tokensBelow, Mapping.keys, Function.comp_def]

theorem nodup_tokensBelow {members : Mapping Document} (h : (Mapping.keys members).Nodup)
    (group : String) : ((tokensBelow group members).map Prod.fst).Nodup := by
  rw [map_tokensBelow]
  exact h.map fun _ _ heq => (List.cons.inj (List.cons.inj heq).2).1

theorem head?_of_mem_tokensBelow {group : String} {members : Mapping Document} {keys : List String}
    (h : keys ∈ (tokensBelow group members).map Prod.fst) : keys.head? = some group := by
  rw [map_tokensBelow] at h
  obtain ⟨_, -, rfl⟩ := List.mem_map.mp h
  rfl

/-- Tokens below one key and tokens below two are told apart by the number of their keys. -/
theorem nodup_tokens {plain : Mapping Document} {groups : Mapping (Mapping Document)}
    (hplain : (Mapping.keys plain).Nodup) (hgroups : (Mapping.keys groups).Nodup)
    (hmembers : ∀ group ∈ groups, (Mapping.keys group.2).Nodup) :
    ((plainTokens plain ++ groupedTokens groups).map Prod.fst).Nodup := by
  have hgrouped : ((groupedTokens groups).map Prod.fst).Nodup := by
    rw [groupedTokens, List.map_flatMap]
    exact nodup_flatMap_of_head hgroups (fun group hmem => nodup_tokensBelow (hmembers group hmem) _)
      fun _ _ _ hkeys => head?_of_mem_tokensBelow hkeys
  rw [List.map_append, List.nodup_append]
  refine ⟨?_, hgrouped, ?_⟩
  -- Reading the one key back takes distinctness of the keys over to the tokens.
  · refine List.Nodup.of_map (fun keys => keys.head?.getD "") ?_
    simpa [plainTokens, Mapping.keys, Function.comp_def] using hplain
  · simp only [plainTokens, groupedTokens, map_tokensBelow, List.map_flatMap, List.map_map,
      List.mem_map, List.mem_flatMap]
    rintro _ ⟨_, -, rfl⟩ _ ⟨_, -, _, -, rfl⟩ heq
    simp at heq

/-- No two tokens of a section have the same keys. -/
theorem nodup_flatSection (hsource : HasSource .any config)
    (hmem : (key, tokens) ∈ config.flatSections) : (tokens.map Prod.fst).Nodup := by
  have hspacing := hsource.regular.find? (show Mapping.find? _ "spacing" = some _ from rfl)
  have htypography := hsource.regular.find? (show Mapping.find? _ "typography" = some _ from rfl)
  obtain ⟨rfl, rfl⟩ | ⟨rfl, rfl⟩ | ⟨rfl, rfl⟩ := mem_flatSections.mp hmem
  · have hgroups := regular_rolesDocument.mp
      (hspacing.find? (show Mapping.find? _ "semantic" = some _ from rfl))
    refine nodup_tokens (by simpa using hsource.nodup_scale) (by simpa using hgroups.1)
      fun group hgroup => ?_
    obtain ⟨members, hmembers, heq⟩ := Mapping.mem_mapValues.mp hgroup
    rw [← heq, Mapping.keys_mapValues]
    exact hgroups.2 _ members hmembers
  · have hscales := regular_mappingDocument.mp
      (htypography.find? (show Mapping.find? _ "scales" = some _ from rfl))
    refine nodup_tokens ?_ (by simpa using hscales.1) fun group hgroup => ?_
    · simpa [Mapping.keys, Function.comp_def] using hsource.nodup_fontSize
    · obtain ⟨styles, hstyles, heq⟩ := Mapping.mem_mapValues.mp hgroup
      rw [← heq, Mapping.keys_mapValues]
      exact (regular_mappingDocument.mp (hscales.2 _ styles hstyles)).1
  · have hgradients := regular_mappingDocument.mp ((hsource.regular.find?
      (show Mapping.find? _ "effects" = some _ from rfl)).find?
        (show Mapping.find? _ "gradients" = some _ from rfl))
    rw [Config.gradientTokens, List.map_flatMap]
    refine nodup_flatMap_of_head hgradients.1 ?_ ?_
    · rintro ⟨name, gradient⟩ hmem
      cases gradient with
      | value s => simp
      | group members =>
        have hmembers := regular_textsDocument.mp (hgradients.2 name _ hmem)
        exact nodup_tokensBelow (by simpa using hmembers) name
    · rintro ⟨name, gradient⟩ - keys hkeys
      cases gradient with
      | value s => simp_all
      | group members => exact head?_of_mem_tokensBelow hkeys

/-- A token is below one key or below two. -/
theorem keys_of_mem_flatSection (hmem : (key, tokens) ∈ config.flatSections)
    {token : List String × Document} (htoken : token ∈ tokens) :
    (∃ name, token.1 = [name]) ∨ ∃ group name, token.1 = [group, name] := by
  have hbelow : ∀ {group members}, token ∈ tokensBelow group members →
      ∃ group name, token.1 = [group, name] := by
    intro group members htoken
    obtain ⟨entry, -, rfl⟩ := List.mem_map.mp htoken
    exact ⟨group, entry.1, rfl⟩
  have hgrouped : ∀ groups, token ∈ groupedTokens groups → ∃ group name, token.1 = [group, name] := by
    intro groups htoken
    obtain ⟨group, -, htoken⟩ := List.mem_flatMap.mp htoken
    exact hbelow htoken
  have hplain : ∀ m, token ∈ plainTokens m → ∃ name, token.1 = [name] := by
    intro m htoken
    obtain ⟨entry, -, rfl⟩ := List.mem_map.mp htoken
    exact ⟨entry.1, rfl⟩
  obtain ⟨rfl, rfl⟩ | ⟨rfl, rfl⟩ | ⟨rfl, rfl⟩ := mem_flatSections.mp hmem
  · exact (List.mem_append.mp htoken).imp (hplain _) (hgrouped _)
  · exact (List.mem_append.mp htoken).imp (hplain _) (hgrouped _)
  · obtain ⟨⟨name, gradient⟩, -, htoken⟩ := List.mem_flatMap.mp htoken
    cases gradient with
    | value s =>
      rw [List.mem_singleton.mp htoken]
      exact .inl ⟨name, rfl⟩
    | group members => exact .inr (hbelow htoken)

end Distinct

section Entries

variable {token : List String × Document} {name : String} {value : ValueOrGroup}

/-- A token has its entry if the others of its name in its section have its value. -/
theorem at?_flatSection (hsource : HasSource .any config)
    (hselects : ∀ space, config.selects space = true)
    (hmem : (key, tokens) ∈ config.flatSections) (htoken : token ∈ tokens)
    (hsame : ∀ other ∈ tokens, utilityName other.1 = utilityName token.1 → other.2 = token.2) :
    config.themeExtension.at? [key, utilityName token.1] = some token.2 := by
  have hentry : Mapping.find? (Mapping.ofEntries (namedEntries tokens)) (utilityName token.1) =
      some token.2 := by
    refine Mapping.find?_ofEntries (List.mem_map.mpr ⟨token, htoken, rfl⟩) fun value hvalue => ?_
    obtain ⟨other, hother, heq⟩ := List.mem_map.mp hvalue
    obtain ⟨hname, rfl⟩ := Prod.mk.inj heq
    exact hsame other hother hname
  rw [Document.at?_cons, get?_flatSection hsource hselects hmem, Option.bind_some, Document.at?_cons,
    Document.get?_mapping, hentry, Option.bind_some, Document.at?_nil]

theorem get?_colors (hsource : HasSource .any config) (hwell : config.WellFormed)
    (hdefault : config.defaultTheme? = some reference)
    (hselects : ∀ space, config.selects space = true) :
    config.themeExtension.get? "colors" = some (.mapping
      (Mapping.set (Mapping.mapValues ValueOrGroup.toDocument reference.colors) "semantic"
        (config.semanticVariables reference))) := by
  have hcolors : config.utilityColors =
      Mapping.set (Mapping.mapValues ValueOrGroup.toDocument reference.colors) "semantic"
        (config.semanticVariables reference) := by
    rw [← colorEntries_eq hsource hwell hdefault]
    simp only [Config.utilityColors, hdefault, hselects, if_true]
  rw [← hcolors]
  simp only [Config.themeExtension, Config.selectedSections, hselects, Bool.or_self, if_true]
  rfl

/-- A colour keeps its entry unless it is called like the section of the roles. -/
theorem at?_color (hsource : HasSource .any config) (hwell : config.WellFormed)
    (hdefault : config.defaultTheme? = some reference)
    (hselects : ∀ space, config.selects space = true) (hmem : (name, value) ∈ reference.colors)
    (hname : name ≠ "semantic") :
    config.themeExtension.at? ["colors", name] = some value.toDocument := by
  have hnodup := (regular_mappingDocument.mp (hsource.regular_colors hdefault)).1
  rw [Document.at?_cons, get?_colors hsource hwell hdefault hselects, Option.bind_some,
    Document.at?_cons, Document.get?_mapping, Mapping.find?_set_of_ne _ _ hname.symm,
    Mapping.find?_mapValues, Mapping.find?_of_mem hnodup hmem]
  simp

theorem at?_roles (hsource : HasSource .any config) (hwell : config.WellFormed)
    (hdefault : config.defaultTheme? = some reference)
    (hselects : ∀ space, config.selects space = true) (keys : List String) :
    config.themeExtension.at? ("colors" :: "semantic" :: keys) =
      (config.semanticVariables reference).at? keys := by
  rw [Document.at?_cons, get?_colors hsource hwell hdefault hselects, Option.bind_some,
    Document.at?_cons, Document.get?_mapping, Mapping.find?_set_self, Option.bind_some]

/-- No colour has the value of the roles: a literal is a text, and the steps of a scale are. -/
theorem toDocument_ne_semanticVariables (hscales : reference.CompleteScales)
    (hmem : (name, value) ∈ reference.colors) :
    value.toDocument ≠ config.semanticVariables reference := by
  intro heq
  cases value with
  | value s => cases heq
  | group steps =>
    have hstep : "50" ∈ Mapping.keys steps := (hscales name steps hmem "50").mpr (by decide)
    obtain ⟨s, hs⟩ := Mapping.exists_find?_of_mem_keys hstep
    have hget := congrArg (Document.get? · "50") heq
    simp only [get?_semanticVariables, ValueOrGroup.toDocument, textsDocument, mappingDocument,
      Document.get?_mapping, Mapping.find?_mapValues, hs, Option.map_some] at hget
    obtain ⟨roles, -, hroles⟩ := Option.map_eq_some_iff.mp hget.symm
    cases hroles

end Entries

section Utilities

variable {u : Utility}

theorem mem_utilities : u ∈ config.utilities reference ↔
    (∃ key tokens token, (key, tokens) ∈ config.flatSections ∧ token ∈ tokens ∧
        u = ⟨[key, utilityName token.1], token.2⟩) ∨
      (∃ name value, (name, value) ∈ reference.colors ∧
        u = ⟨["colors", name], value.toDocument⟩) ∨
      ∃ category roles role value, (category, roles) ∈ reference.semantic ∧ (role, value) ∈ roles ∧
        u = ⟨["colors", "semantic", category, role],
          .text (variableFallback config.variablePrefix (rolePath category role))⟩ := by
  simp only [Config.utilities, Config.roleUtilities, List.mem_append, List.mem_flatMap, List.mem_map,
    Prod.exists, or_assoc, exists_and_left, @eq_comm _ u]

/-- Every token is kept, the colour that is called like the section of the roles apart, if all tokens
of its entry have its value. -/
theorem at?_of_mem_utilities (hsource : HasSource .any config) (hwell : config.WellFormed)
    (hdefault : config.defaultTheme? = some reference)
    (hselects : ∀ space, config.selects space = true) (hmem : u ∈ config.utilities reference)
    (haddress : u.address ≠ ["colors", "semantic"])
    (hsame : ∀ other ∈ config.utilities reference, other.address = u.address →
      other.value = u.value) :
    config.themeExtension.at? u.address = some u.value := by
  obtain ⟨key, tokens, token, hsection, htoken, rfl⟩ | ⟨name, value, hcolor, rfl⟩ |
    ⟨category, roles, role, value, hcategory, hrole, rfl⟩ := mem_utilities.mp hmem
  · refine at?_flatSection hsource hselects hsection htoken fun other hother hname => ?_
    exact hsame ⟨[key, utilityName other.1], other.2⟩
      (mem_utilities.mpr (.inl ⟨key, tokens, other, hsection, hother, rfl⟩)) (by simp [hname])
  · exact at?_color hsource hwell hdefault hselects hcolor fun h => haddress (by rw [h])
  · have hroles := regular_rolesDocument.mp (hsource.regular_semantic hdefault)
    rw [at?_roles hsource hwell hdefault hselects]
    exact (at?_semanticVariables_iff.mpr ⟨category, role, roles, rfl,
      Mapping.find?_of_mem hroles.1 hcategory, Mapping.mem_keys_of_mem hrole, rfl⟩).1

/-- The entries of the sections are distinct exactly when no two tokens of a section have one name. -/
theorem nodup_flatSections_iff (hsource : HasSource .any config) :
    (config.flatSections.flatMap fun entry =>
        entry.2.map fun token => [entry.1, utilityName token.1]).Nodup ↔
      ∀ key tokens, (key, tokens) ∈ config.flatSections → ∀ token ∈ tokens, ∀ other ∈ tokens,
        utilityName token.1 = utilityName other.1 → token = other := by
  have hsection : ∀ key tokens, (key, tokens) ∈ config.flatSections →
      ((tokens.map fun token => [key, utilityName token.1]).Nodup ↔
        ∀ token ∈ tokens, ∀ other ∈ tokens,
          utilityName token.1 = utilityName other.1 → token = other) := by
    intro key tokens hmem
    rw [List.nodup_map_iff_inj_on (List.Nodup.of_map _ (nodup_flatSection hsource hmem))]
    simp only [List.cons.injEq, and_true, true_and]
  constructor
  · intro h key tokens hmem
    exact (hsection key tokens hmem).mp ((List.nodup_flatMap.mp h).1 _ hmem)
  · intro h
    refine nodup_flatMap_of_head (show (Mapping.keys config.flatSections).Nodup by
      simp [Mapping.keys, Config.flatSections]) (fun entry hmem => ?_) fun entry _ keys hkeys => ?_
    · exact (hsection entry.1 entry.2 hmem).mpr (h entry.1 entry.2 hmem)
    · obtain ⟨_, -, rfl⟩ := List.mem_map.mp hkeys
      rfl

theorem nodup_roleUtilities (hsource : HasSource .any config)
    (hdefault : config.defaultTheme? = some reference) :
    ((config.roleUtilities reference).map Utility.address).Nodup := by
  have hroles := regular_rolesDocument.mp (hsource.regular_semantic hdefault)
  refine List.Nodup.of_map (List.drop 2) ?_
  simp only [Config.roleUtilities, List.map_flatMap, List.map_map, Function.comp_def, List.drop_succ_cons,
    List.drop_zero]
  refine nodup_flatMap_of_head hroles.1 (fun category hmem => ?_) fun category _ keys hkeys => ?_
  · refine List.Nodup.of_map (fun keys => keys.getLast?.getD "") ?_
    simpa [Mapping.keys, Function.comp_def] using hroles.2 category.1 category.2 hmem
  · obtain ⟨_, -, rfl⟩ := List.mem_map.mp hkeys
    rfl

/-- No two tokens share an entry exactly when no two of a section have one name. -/
theorem nodup_addresses_iff (hsource : HasSource .any config)
    (hdefault : config.defaultTheme? = some reference) :
    ((config.utilities reference).map Utility.address).Nodup ↔
      ∀ key tokens, (key, tokens) ∈ config.flatSections → ∀ token ∈ tokens, ∀ other ∈ tokens,
        utilityName token.1 = utilityName other.1 → token = other := by
  have hcolors : (reference.colors.map fun color => ["colors", color.1]).Nodup := by
    refine List.Nodup.of_map (fun keys => keys.getLast?.getD "") ?_
    simpa [Mapping.keys, Function.comp_def] using
      (regular_mappingDocument.mp (hsource.regular_colors hdefault)).1
  rw [← nodup_flatSections_iff hsource, Config.utilities, List.map_append, List.map_append,
    List.map_flatMap, List.map_map, List.nodup_append, List.nodup_append]
  simp only [List.map_map, Function.comp_def]
  refine ⟨fun h => h.1.1, fun h => ⟨⟨h, hcolors, ?_⟩, nodup_roleUtilities hsource hdefault, ?_⟩⟩
  · intro address hflat other hcolor heq
    obtain ⟨entry, hentry, hflat⟩ := List.mem_flatMap.mp hflat
    obtain ⟨_, -, rfl⟩ := List.mem_map.mp hflat
    obtain ⟨_, -, rfl⟩ := List.mem_map.mp hcolor
    exact ne_colors_of_mem_flatSections hentry (List.cons.inj heq).1
  · -- The entry of a role has two keys more than any other one.
    have hlength : ∀ address ∈ (config.flatSections.flatMap fun entry =>
        entry.2.map fun token => [entry.1, utilityName token.1]) ++
          reference.colors.map fun color => ["colors", color.1], address.length = 2 := by
      simp only [List.mem_append, List.mem_flatMap, List.mem_map]
      rintro _ (⟨_, -, _, -, rfl⟩ | ⟨_, -, rfl⟩) <;> rfl
    intro address haddress other hrole heq
    obtain ⟨u, hu, rfl⟩ := List.mem_map.mp hrole
    obtain ⟨_, -, hu⟩ := List.mem_flatMap.mp hu
    obtain ⟨_, -, rfl⟩ := List.mem_map.mp hu
    exact absurd (hlength _ haddress) (by simp [heq])

/-- Where no hyphen is in a key that stands alone or in front of another one, names tell the tokens of
a section apart. -/
theorem Config.NamesPlain.namesApart (h : config.NamesPlain reference)
    (hsource : HasSource .any config) : config.NamesApart reference := by
  refine ⟨fun key tokens hmem token htoken other hother hname => ?_, h.colors⟩
  have hplain := h.flat key tokens hmem token htoken
  have hplain' := h.flat key tokens hmem other hother
  have hkeys : token.1 = other.1 := by
    rcases keys_of_mem_flatSection hmem htoken with ⟨name, hkey⟩ | ⟨group, name, hkey⟩ <;>
      rcases keys_of_mem_flatSection hmem hother with ⟨name', hkey'⟩ | ⟨group', name', hkey'⟩ <;>
      simp only [hkey, hkey', utilityName_singleton, utilityName_pair, List.head?_cons,
        Option.mem_some_iff, forall_eq'] at hname hplain hplain' ⊢
    · rw [hname]
    · subst hname
      simp [dashed] at hplain
    · subst hname
      simp [dashed] at hplain'
    · obtain ⟨rfl, rfl⟩ := Text.hyphen_inj_left hplain hplain' hname
      rfl
  exact List.inj_on_of_nodup_map (nodup_flatSection hsource hmem) htoken hother hkeys

end Utilities

/-- The theme extension of a parsed configuration with all namespaces keeps all of its tokens, each in
an entry of its own with its own value, exactly when their names are apart, as they are if they are
plain. In any case a token is kept if the others of its entry have its value and it is no colour that
is called like the section of the roles. -/
theorem utilities_kept_iff {raw : RawDocument} {warnings : List String}
    (hparse : parse raw.normalize = .ok (config, warnings))
    (hselects : ∀ space, config.selects space = true) :
    ∃ reference, config.defaultTheme? = some reference ∧
      ((∀ u ∈ config.utilities reference, config.themeExtension.at? u.address = some u.value) ∧
          ((config.utilities reference).map Utility.address).Nodup ↔ config.NamesApart reference) ∧
      (config.NamesPlain reference → config.NamesApart reference) ∧
      ∀ u ∈ config.utilities reference, u.address ≠ ["colors", "semantic"] →
        (∀ other ∈ config.utilities reference, other.address = u.address → other.value = u.value) →
          config.themeExtension.at? u.address = some u.value := by
  have hsource := (Reached.parsed raw.regular_normalize hparse).hasSource
  have hwell := (Validated.parsed raw.regular_normalize hparse).wellFormed
  obtain ⟨reference, hdefault, hreference⟩ := hwell.exists_default
  have hkept := fun u hmem =>
    at?_of_mem_utilities (u := u) hsource hwell hdefault hselects hmem
  refine ⟨reference, hdefault, ⟨fun ⟨hvalues, hnodup⟩ => ⟨?_, fun hcolor => ?_⟩, fun h => ?_⟩,
    fun h => h.namesApart hsource, hkept⟩
  · exact (nodup_addresses_iff hsource hdefault).mp hnodup
  · -- The entry of such a colour holds the roles, and no colour has their value.
    obtain ⟨value, hvalue⟩ := Mapping.exists_find?_of_mem_keys hcolor
    have hmem := Mapping.mem_of_find? hvalue
    have hentry := hvalues ⟨["colors", "semantic"], value.toDocument⟩
      (mem_utilities.mpr (.inr (.inl ⟨"semantic", value, hmem, rfl⟩)))
    rw [at?_roles hsource hwell hdefault hselects, Document.at?_nil] at hentry
    exact toDocument_ne_semanticVariables (hwell.theme.scales _ _ hreference) hmem
      (Option.some.inj hentry).symm
  · have hnodup := (nodup_addresses_iff hsource hdefault).mpr h.flat
    refine ⟨fun u hmem => hkept u hmem (fun haddress => h.colors ?_) fun other hother heq => ?_,
      hnodup⟩
    · obtain ⟨key, tokens, token, hsection, -, rfl⟩ | ⟨name, value, hcolor, rfl⟩ |
        ⟨_, _, _, _, -, -, rfl⟩ := mem_utilities.mp hmem
      · exact absurd (List.cons.inj haddress).1 (ne_colors_of_mem_flatSections hsection)
      · obtain rfl : name = "semantic" := by simpa using haddress
        exact Mapping.mem_keys_of_mem hcolor
      · simp at haddress
    · exact congrArg Utility.value (List.inj_on_of_nodup_map hnodup hother hmem heq)

/-- A document with one theme, which has the given colours and roles, and with more sections. -/
def themedDocument (colors roles sections : List (Scalar × RawDocument)) : RawDocument :=
  .mapping ([(.text "version", .scalar (.text "1.0")),
    (.text "theme", .mapping [(.text "default", .scalar (.text "light")),
      (.text "themes", .mapping [(.text "light", .mapping [(.text "colors", .mapping colors),
        (.text "semantic", .mapping roles)])])]),
    (.text "tokens", .mapping [(.text "prefix", .scalar (.text "tc")),
      (.text "output", .scalar (.text "./tokens")),
      (.text "formats", .list [.scalar (.text "css")])])] ++ sections)

/-- A document with tokens of each kind. -/
def variedDocument : RawDocument :=
  themedDocument [(.text "ink", .scalar (.text "#000")), (.text "gray", sampleScale "#888")]
    [(.text "text", .mapping [(.text "body", .scalar (.text "colors.ink"))])]
    [(.text "spacing", .mapping [(.text "scale", .mapping [(.int 1, .scalar (.text "4px"))]),
        (.text "semantic", .mapping [(.text "card", .mapping [
          (.text "gap-x", .scalar (.text "8px"))])])]),
      (.text "typography", .mapping [
        (.text "fontSize", .mapping [(.text "sm", .scalar (.text "14px"))]),
        (.text "scales", .mapping [(.text "heading", .mapping [
          (.text "h1", .mapping [(.text "fontSize", .scalar (.text "2rem"))])])])]),
      (.text "effects", .mapping [(.text "gradients", .mapping [
        (.text "sky", .scalar (.text "linear-gradient(#fff, #00f)")),
        (.text "warm", .mapping [(.text "dawn", .scalar (.text "linear-gradient(#f00, #ff0)"))])])])]

theorem varied_utilities_kept : ∃ config warnings reference,
    parse variedDocument.normalize = .ok (config, warnings) ∧
      config.defaultTheme? = some reference ∧ config.NamesApart reference ∧
      (config.utilities reference).map Utility.address =
        [["spacing", "1"], ["spacing", "card-gap-x"], ["fontSize", "sm"],
          ["fontSize", "heading-h1"], ["backgroundImage", "sky"], ["backgroundImage", "warm-dawn"],
          ["colors", "ink"], ["colors", "gray"], ["colors", "semantic", "text", "body"]] ∧
      ((config.utilities reference).map Utility.address).Nodup ∧
      ∀ u ∈ config.utilities reference, config.themeExtension.at? u.address = some u.value := by
  obtain ⟨config, reference, hread, hdefault, haddresses, hselects, hplain⟩ : ∃ config reference,
      Config.read variedDocument.normalize = .valid config ∧
        config.defaultTheme? = some reference ∧
        (config.utilities reference).map Utility.address =
          [["spacing", "1"], ["spacing", "card-gap-x"], ["fontSize", "sm"],
            ["fontSize", "heading-h1"], ["backgroundImage", "sky"], ["backgroundImage", "warm-dawn"],
            ["colors", "ink"], ["colors", "gray"], ["colors", "semantic", "text", "body"]] ∧
        (∀ space, config.selects space = true) ∧ config.NamesPlain reference :=
    ⟨_, _, rfl, rfl, by decide, fun space => by cases space <;> rfl,
      fun key tokens hmem => (by decide : ∀ entry ∈ Config.flatSections _, ∀ token ∈ entry.2,
        ∀ key ∈ token.1.head?, '-' ∉ key.toList) (key, tokens) hmem, by decide⟩
  obtain ⟨entries, hentries, hfaults⟩ : ∃ entries,
      variedDocument.normalize = .mapping entries ∧ structureFaults entries = .ok [] :=
    ⟨_, rfl, by cbv⟩
  rw [hentries] at hread
  obtain ⟨warnings, hparse⟩ := exists_parse hfaults hread
  rw [← hentries] at hparse
  obtain ⟨_, hsome, hiff, hnames, -⟩ := utilities_kept_iff hparse hselects
  cases hdefault.symm.trans hsome
  have hapart := hnames hplain
  exact ⟨config, warnings, reference, hparse, hdefault, hapart, haddresses, (hiff.mpr hapart).2,
    (hiff.mpr hapart).1⟩

/-- A document in which a step of the scale reads like a spacing for cards, and a colour is called
like the section of the roles. -/
def clashingDocument : RawDocument :=
  themedDocument [(.text "semantic", .scalar (.text "#123456"))]
    [(.text "text", .mapping [(.text "body", .scalar (.text "#000"))])]
    [(.text "spacing", .mapping [
      (.text "scale", .mapping [(.text "card-gap", .scalar (.text "8px"))]),
      (.text "semantic", .mapping [(.text "card", .mapping [
        (.text "gap", .scalar (.text "16px"))])])])]

/-- The step and the colour are lost, and the step shares its entry. -/
theorem exists_lost_utility : ∃ config warnings,
    parse clashingDocument.normalize = .ok (config, warnings) ∧
      (∀ space, config.selects space = true) ∧
      (∃ reference, config.defaultTheme? = some reference ∧
        ⟨["spacing", "card-gap"], .text "8px"⟩ ∈ config.utilities reference ∧
        ⟨["spacing", "card-gap"], .text "16px"⟩ ∈ config.utilities reference ∧
        ⟨["colors", "semantic"], .text "#123456"⟩ ∈ config.utilities reference) ∧
      config.themeExtension.at? ["spacing", "card-gap"] = some (.text "16px") ∧
      config.themeExtension.at? ["colors", "semantic"] = some (.mapping [("text", .mapping
        [("body", .text "var(--tc-semantic-text-body)")])]) := by
  obtain ⟨entries, config, hentries, hfaults, hread⟩ : ∃ entries config,
      clashingDocument.normalize = .mapping entries ∧ structureFaults entries = .ok [] ∧
        Config.read (.mapping entries) = .valid config := ⟨_, _, rfl, by cbv, rfl⟩
  obtain ⟨warnings, hparse⟩ := exists_parse hfaults hread
  rw [← hentries] at hparse
  cases hentries
  cases hread
  refine ⟨_, warnings, hparse, fun space => by cases space <;> rfl, ⟨_, rfl, ?_, ?_, ?_⟩, rfl, rfl⟩
  · exact List.mem_cons_self
  · exact List.mem_cons_of_mem _ List.mem_cons_self
  · exact List.mem_cons_of_mem _ (List.mem_cons_of_mem _ List.mem_cons_self)

end DesignTokens
