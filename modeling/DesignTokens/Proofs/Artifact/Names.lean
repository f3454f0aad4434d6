import DesignTokens.Proofs.Artifact.Addresses

/-!
# Names of variables

The variable of a token is named after its path, with hyphens in place of dots. Different namespaces
have different names throughout. Within a namespace two tokens share a name when their keys come to
the same once they stand with hyphens, and there are simple ways to name tokens so that none do.

## Main definitions

- `hyphenated` — keys as they stand in the name of a variable
- `Config.propertyName`, `Config.sheetVariable` — the names of a token's variables
- `PlainNames` — names of tokens that are told apart with hyphens too
-/

namespace DesignTokens

variable {config : Config} {mode : String} {policy : Document} {theme : ResolvedTheme}

/-- Keys as they stand in the name of a variable: a hyphen for each dot in them, and one between any
two. -/
def hyphenated (keys : List String) : String :=
  Text.join "-" (keys.map variableSuffix)

@[simp] theorem hyphenated_singleton (key : String) : hyphenated [key] = variableSuffix key := by
  rw [hyphenated, List.map_singleton, Text.join, String.intercalate_singleton]

theorem hyphenated_cons (key : String) {rest : List String} (h : rest ≠ []) :
    hyphenated (key :: rest) = variableSuffix key ++ "-" ++ hyphenated rest := by
  rw [hyphenated, List.map_cons, Text.join,
    String.intercalate_cons_of_ne_nil (by simpa using h), ← Text.join, ← hyphenated]

@[simp] theorem hyphenated_pair (key next : String) :
    hyphenated [key, next] = variableSuffix key ++ "-" ++ variableSuffix next := by
  rw [hyphenated_cons key (List.cons_ne_nil _ _), hyphenated_singleton]

theorem variableSuffix_append (s t : String) :
    variableSuffix (s ++ t) = variableSuffix s ++ variableSuffix t :=
  Text.substitute_append _ _ _ _

theorem variableSuffix_of_not_mem {s : String} (h : '.' ∉ s.toList) : variableSuffix s = s :=
  Text.substitute_of_not_mem h _

theorem variableSuffix_dotted (path : String) {keys : List String} (h : keys ≠ []) :
    variableSuffix (dotted path keys) = variableSuffix path ++ "-" ++ hyphenated keys := by
  have hdot : variableSuffix "." = "-" := by decide
  induction keys generalizing path with
  | nil => exact absurd rfl h
  | cons key rest ih =>
    cases rest with
    | nil =>
      rw [dotted, dotted, variableSuffix_append, variableSuffix_append, hdot, hyphenated_singleton]
    | cons next more =>
      rw [dotted, ih _ (List.cons_ne_nil _ _), variableSuffix_append, variableSuffix_append, hdot,
        hyphenated_cons key (List.cons_ne_nil _ _)]
      simp only [String.append_assoc]

/-- No name of one namespace starts like the names of another. -/
theorem variableSuffix_path_inj {space other : TokenSpace} {s t : String}
    (h : variableSuffix space.path ++ "-" ++ s = variableSuffix other.path ++ "-" ++ t) :
    space = other ∧ s = t := by
  have hsegments : ∀ space : TokenSpace,
      Text.split '-' (variableSuffix space.path) = space.segments := by
    intro space
    cases space <;> decide
  have hpieces := congrArg (Text.split '-') h
  rw [Text.split_hyphen, Text.split_hyphen, hsegments, hsegments] at hpieces
  obtain ⟨rfl, -⟩ := TokenSpace.segments_inj hpieces
  exact ⟨rfl, (String.append_right_inj _).mp h⟩

namespace Config

/-- The custom property of a token. -/
def propertyName (config : Config) (token : Token) : String :=
  variableName config.variablePrefix token.path

/-- The stylesheet variable of a token. -/
def sheetVariable (config : Config) (token : Token) : String :=
  "$" ++ config.variablePrefix ++ "-" ++ variableSuffix token.path

theorem propertyName_eq_iff {token other : Token} :
    config.propertyName token = config.propertyName other ↔
    variableSuffix token.path = variableSuffix other.path := by
  rw [propertyName, propertyName, variableName, variableName, String.append_right_inj]

theorem sheetVariable_eq_iff {token other : Token} :
    config.sheetVariable token = config.sheetVariable other ↔
      variableSuffix token.path = variableSuffix other.path := by
  rw [sheetVariable, sheetVariable, String.append_right_inj]

/-- The lines of a stylesheet give each token's variable its value. -/
theorem propertyLines (config : Config) (theme : ResolvedTheme) :
    (config.tokenEntries theme).map config.propertyLine =
      definitions (fun name => "  " ++ name ++ ": ")
        ((config.tokenList theme).map config.propertyName)
        ((config.tokenList theme).map Token.value) := by
  rw [tokenEntries_eq_map, List.map_map, definitions, List.zipWith_map, List.zipWith_self]
  rfl

theorem variableLines (config : Config) (theme : ResolvedTheme) :
    (config.tokenEntries theme).map config.variableLine =
      definitions (fun name => name ++ ": ") ((config.tokenList theme).map config.sheetVariable)
        ((config.tokenList theme).map Token.value) := by
  rw [tokenEntries_eq_map, List.map_map, definitions, List.zipWith_map, List.zipWith_self]
  rfl

end Config

/-- A token is below one key, or below two in the namespaces whose values are grouped. The steps of
a colour scale hold no hyphen. -/
def Token.Shaped (token : Token) : Prop :=
  (∃ key, token.keys = [key]) ∨ ∃ first last, token.keys = [first, last] ∧
    (token.space = .colors ∧ '-' ∉ last.toList ∨ token.space = .semantic ∨
      token.space = .gradients)

theorem shaped_of_mem (hsource : HasSource .any config) (hwell : config.WellFormed)
    (hresolve : resolveTheme config mode policy = .ok theme) {token : Token}
    (htoken : token ∈ config.tokenList theme) : token.Shaped := by
  have hleaf := (Document.mem_leaves_iff (regular_spaceTokens hsource hresolve token.space)).mp
    (mem_tokenList.mp htoken).2
  obtain ⟨space, keys, value⟩ := token
  cases space with
  | colors =>
    obtain ⟨-, declared, hdeclared, hcolors, -⟩ := resolveTheme_ok hresolve
    rw [Config.spaceTokens, Config.orderedColors, Document.leaf?_orderedLike,
      ResolvedTheme.colorsDocument, leaf?_valuesDocument, hcolors] at hleaf
    rcases hleaf with ⟨name, hkeys, -⟩ | ⟨scale, step, steps, hkeys, hscale, hstep⟩
    · exact .inl ⟨name, hkeys⟩
    · refine .inr ⟨scale, step, hkeys, .inl ⟨rfl, ?_⟩⟩
      have hsteps := hwell.theme.scales _ _ hdeclared scale steps (Mapping.mem_of_find? hscale)
      have hmem : step ∈ colorSteps := (hsteps step).mp (Mapping.mem_keys_of_find? hstep)
      exact (by decide : ∀ step ∈ colorSteps, '-' ∉ step.toList) step hmem
  | semantic =>
    rw [Config.spaceTokens, Config.orderedRoles, Document.leaf?_orderedLike,
      ResolvedTheme.semanticDocument, leaf?_rolesDocument] at hleaf
    obtain ⟨category, role, -, hkeys, -⟩ := hleaf
    exact .inr ⟨category, role, hkeys, .inr (.inl rfl)⟩
  | gradients =>
    rcases leaf?_valuesDocument.mp hleaf with ⟨name, hkeys, -⟩ | ⟨group, name, -, hkeys, -⟩
    · exact .inl ⟨name, hkeys⟩
    · exact .inr ⟨group, name, hkeys, .inr (.inr rfl)⟩
  | opacity => exact .inl (leaf?_numbersDocument hleaf)
  | _ =>
    obtain ⟨key, hkeys, -⟩ := leaf?_textsDocument.mp hleaf
    exact .inl ⟨key, hkeys⟩

/-- Two tokens have one name exactly when they are of one namespace and their keys are the same once
they stand with hyphens. -/
theorem variableSuffix_path_eq_iff (hsource : HasSource .any config) (hwell : config.WellFormed)
    (hresolve : resolveTheme config mode policy = .ok theme) {token other : Token}
    (htoken : token ∈ config.tokenList theme) (hother : other ∈ config.tokenList theme) :
    variableSuffix token.path = variableSuffix other.path ↔
      token.space = other.space ∧ hyphenated token.keys = hyphenated other.keys := by
  have hkeys : ∀ token ∈ config.tokenList theme, token.keys ≠ [] := by
    intro token htoken
    rcases shaped_of_mem hsource hwell hresolve htoken with ⟨_, h⟩ | ⟨_, _, h, -⟩ <;> simp [h]
  rw [Token.path, Token.path, variableSuffix_dotted _ (hkeys _ htoken),
    variableSuffix_dotted _ (hkeys _ hother)]
  exact ⟨variableSuffix_path_inj, fun ⟨hspace, hkeys⟩ => by rw [hspace, hkeys]⟩

/-- Names of tokens that hyphens keep apart: no key holds a dot, no role category and no gradient or
group of gradients holds a hyphen, and no single colour is named like the step of a scale. -/
structure PlainNames (tokens : List Token) : Prop where
  dotless : ∀ token ∈ tokens, ∀ key ∈ token.keys, '.' ∉ key.toList
  grouped : ∀ token ∈ tokens, token.space = .semantic ∨ token.space = .gradients →
    ∀ key ∈ token.keys.head?, '-' ∉ key.toList
  colors : ∀ token ∈ tokens, ∀ other ∈ tokens, token.space = .colors → other.space = .colors →
    ∀ name scale step, token.keys = [name] → other.keys = [scale, step] →
      name ≠ scale ++ "-" ++ step

/-- No key that is alone reads like two keys of the same namespace. -/
theorem PlainNames.alone_ne_pair {tokens : List Token} (h : PlainNames tokens) {token other : Token}
    (htoken : token ∈ tokens) (hother : other ∈ tokens) (hspace : token.space = other.space)
    {name first last : String} (hname : token.keys = [name]) (hpair : other.keys = [first, last])
    (hgrouped : other.space = .colors ∨ other.space = .semantic ∨ other.space = .gradients) :
    name ≠ first ++ "-" ++ last := by
  rcases hgrouped with hcolors | hgrouped
  · exact h.colors token htoken other hother (hspace.trans hcolors) hcolors name first last hname
      hpair
  · rintro rfl
    have hhyphen := h.grouped token htoken (hspace ▸ hgrouped) _ (by rw [hname]; rfl)
    simp at hhyphen

/-- Plain names tell the tokens of a namespace apart. -/
theorem PlainNames.keys_eq {tokens : List Token} (h : PlainNames tokens)
    (hshaped : ∀ token ∈ tokens, token.Shaped) {token other : Token} (htoken : token ∈ tokens)
    (hother : other ∈ tokens) (hspace : token.space = other.space)
    (hkeys : hyphenated token.keys = hyphenated other.keys) : token.keys = other.keys := by
  have hdotless : ∀ token ∈ tokens, ∀ key ∈ token.keys, variableSuffix key = key :=
    fun token htoken key hkey => variableSuffix_of_not_mem (h.dotless token htoken key hkey)
  have hsuffix := hdotless token htoken
  have hsuffix' := hdotless other hother
  rcases hshaped token htoken with ⟨key, hkey⟩ | ⟨first, last, hpair, hgrouped⟩ <;>
    rcases hshaped other hother with ⟨key', hkey'⟩ | ⟨first', last', hpair', hgrouped'⟩
  · simp_all
  · have hne := h.alone_ne_pair htoken hother hspace hkey hpair' (hgrouped'.imp_left And.left)
    simp_all
  · have hne := h.alone_ne_pair hother htoken hspace.symm hkey' hpair (hgrouped.imp_left And.left)
    simp_all
  · simp only [hpair, hpair', List.forall_mem_cons, hyphenated_pair] at hkeys hsuffix hsuffix'
    rw [hsuffix.1, hsuffix.2.1, hsuffix'.1, hsuffix'.2.1] at hkeys
    obtain ⟨rfl, rfl⟩ : first = first' ∧ last = last' := by
      rcases hgrouped with ⟨hcolors, hlast⟩ | hgrouped
      -- A step holds no hyphen, so the last one is that before it.
      · rcases hgrouped' with ⟨-, hlast'⟩ | hgrouped'
        · exact Text.hyphen_inj_right hlast hlast' hkeys
        · rw [hspace] at hcolors
          simp [hcolors] at hgrouped'
      -- A category and a group hold none, so the first one is that behind it.
      · refine Text.hyphen_inj_left ?_ ?_ hkeys
        · exact h.grouped token htoken hgrouped _ (by rw [hpair]; rfl)
        · exact h.grouped other hother (hspace ▸ hgrouped) _ (by rw [hpair']; rfl)
    rw [hpair, hpair']

/-- The stylesheets of a mode write one variable for each token. Two of them have one name exactly
when their tokens are of one namespace and have the same keys once these stand with hyphens. So the
names are distinct exactly when no two tokens of a namespace have, as is the case for plain names. -/
theorem variable_names_nodup_iff {raw : RawDocument} {warnings : List String}
    (hparse : parse raw.normalize = .ok (config, warnings))
    (hresolve : resolveTheme config mode policy = .ok theme) :
    (∀ p, config.emit p [theme] .css = .ok (Text.join "\n" ([blockComment (config.tokensTitle theme),
          blockComment generatedNotice, "", ":root \x7b"] ++
          definitions (fun name => "  " ++ name ++ ": ")
            ((config.tokenList theme).map config.propertyName)
            ((config.tokenList theme).map Token.value) ++ ["\x7d"]) ++ "\n") ∧
        config.emit p [theme] .scss = .ok (Text.join "\n" (["// " ++ config.tokensTitle theme,
          "// " ++ generatedNotice, ""] ++ definitions (fun name => name ++ ": ")
            ((config.tokenList theme).map config.sheetVariable)
            ((config.tokenList theme).map Token.value)) ++ "\n")) ∧
      (∀ token ∈ config.tokenList theme, ∀ other ∈ config.tokenList theme,
        (config.propertyName token = config.propertyName other ↔
          token.space = other.space ∧ hyphenated token.keys = hyphenated other.keys) ∧
        (config.sheetVariable token = config.sheetVariable other ↔
          token.space = other.space ∧ hyphenated token.keys = hyphenated other.keys)) ∧
      (∀ name ∈ [config.propertyName, config.sheetVariable],
        ((config.tokenList theme).map name).Nodup ↔
          ∀ token ∈ config.tokenList theme, ∀ other ∈ config.tokenList theme,
            token.space = other.space → hyphenated token.keys = hyphenated other.keys →
              token = other) ∧
      (PlainNames (config.tokenList theme) → ∀ name ∈ [config.propertyName, config.sheetVariable],
        ((config.tokenList theme).map name).Nodup) := by
  obtain ⟨⟨entries, hentries, hsound, -⟩, hread⟩ := sound_of_parse raw.regular_normalize hparse
  have hsource : HasSource .any config := ⟨_, raw.regular_normalize, hread⟩
  have hwell : config.WellFormed := ((Config.soundStructure_iff (hentries ▸ hread)).mp hsound).2
  have hnames : ∀ token ∈ config.tokenList theme, ∀ other ∈ config.tokenList theme,
      ∀ name ∈ [config.propertyName, config.sheetVariable], name token = name other ↔
        token.space = other.space ∧ hyphenated token.keys = hyphenated other.keys := by
    intro token htoken other hother
    have hiff := variableSuffix_path_eq_iff hsource hwell hresolve htoken hother
    simp only [List.forall_mem_cons, Config.propertyName_eq_iff, Config.sheetVariable_eq_iff, hiff,
      List.not_mem_nil, false_imp_iff, implies_true, and_self]
  have hnodup : ∀ name ∈ [config.propertyName, config.sheetVariable],
      ((config.tokenList theme).map name).Nodup ↔
        ∀ token ∈ config.tokenList theme, ∀ other ∈ config.tokenList theme,
          token.space = other.space → hyphenated token.keys = hyphenated other.keys →
            token = other := by
    intro name hname
    rw [List.nodup_map_iff_inj_on (nodup_tokenList hsource hresolve)]
    refine forall₂_congr fun token htoken => forall₂_congr fun other hother => ?_
    rw [hnames token htoken other hother name hname, and_imp]
  refine ⟨fun p => ⟨?_, ?_⟩, ?_, hnodup, ?_⟩
  · rw [← config.propertyLines]
    rfl
  · rw [← config.variableLines]
    rfl
  · intro token htoken other hother
    have h := hnames token htoken other hother
    exact ⟨h _ (by simp), h _ (by simp)⟩
  · intro hplain name hname
    refine (hnodup name hname).mpr fun token htoken other hother hspace hkeys => ?_
    have hshaped : ∀ token ∈ config.tokenList theme, token.Shaped :=
      fun _ htoken => shaped_of_mem hsource hwell hresolve htoken
    exact eq_of_address hsource hresolve htoken hother hspace
      (hplain.keys_eq hshaped htoken hother hspace hkeys)

theorem spaced_variable_names_nodup : ∃ config warnings theme,
    parse (spacedDocument [(.text "1", .scalar (.text "4px")),
        (.text "1-2", .scalar (.text "6px"))]).normalize = .ok (config, warnings) ∧
      resolveTheme config "light" (.text "strict") = .ok theme ∧
      (config.tokenList theme).map config.propertyName = ["--tc-spacing-1", "--tc-spacing-1-2"] ∧
      ((config.tokenList theme).map config.propertyName).Nodup := by
  obtain ⟨config, theme, hread, h, htokens, hnames⟩ : ∃ config theme,
      Config.read (spacedDocument [(.text "1", .scalar (.text "4px")),
          (.text "1-2", .scalar (.text "6px"))]).normalize = .valid config ∧
        resolveTheme config "light" (.text "strict") = .ok theme ∧
        config.tokenList theme = [⟨.spacing, ["1"], "4px"⟩, ⟨.spacing, ["1-2"], "6px"⟩] ∧
        (config.tokenList theme).map config.propertyName = ["--tc-spacing-1", "--tc-spacing-1-2"] :=
    ⟨_, _, rfl, rfl, rfl, by decide⟩
  obtain ⟨warnings, hparse⟩ := parse_spaced _ hread
  obtain ⟨-, -, -, hplain⟩ := variable_names_nodup_iff hparse h
  refine ⟨config, warnings, theme, hparse, h, hnames, hplain ⟨?_, ?_, ?_⟩ _ List.mem_cons_self⟩ <;>
    simp [htokens]

/-- A dot and a hyphen in a key are one in a name. -/
theorem exists_shared_variable_name : ∃ config warnings theme,
    parse (spacedDocument [(.text "0.5", .scalar (.text "2px")),
        (.text "0-5", .scalar (.text "3px"))]).normalize = .ok (config, warnings) ∧
      resolveTheme config "light" (.text "strict") = .ok theme ∧
      config.tokenList theme = [⟨.spacing, ["0.5"], "2px"⟩, ⟨.spacing, ["0-5"], "3px"⟩] ∧
      (config.tokenList theme).map config.propertyName = ["--tc-spacing-0-5", "--tc-spacing-0-5"] ∧
      ¬((config.tokenList theme).map config.propertyName).Nodup := by
  obtain ⟨config, theme, hread, h, htokens, hnames⟩ : ∃ config theme,
      Config.read (spacedDocument [(.text "0.5", .scalar (.text "2px")),
          (.text "0-5", .scalar (.text "3px"))]).normalize = .valid config ∧
        resolveTheme config "light" (.text "strict") = .ok theme ∧
        config.tokenList theme = [⟨.spacing, ["0.5"], "2px"⟩, ⟨.spacing, ["0-5"], "3px"⟩] ∧
        (config.tokenList theme).map config.propertyName =
          ["--tc-spacing-0-5", "--tc-spacing-0-5"] :=
    ⟨_, _, rfl, rfl, rfl, by decide⟩
  obtain ⟨warnings, hparse⟩ := parse_spaced _ hread
  exact ⟨config, warnings, theme, hparse, h, htokens, hnames, by simp [hnames]⟩

end DesignTokens
