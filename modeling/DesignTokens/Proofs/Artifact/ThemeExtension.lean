import DesignTokens.Proofs.Artifact.Names

/-!
# The colours of the theme extension

The theme extension is for no mode in particular. Its colours are those of the default mode, since
the modes differ in values and order only and the default one is laid over the others. Its roles are
left to custom properties, each of which the stylesheet of every mode defines.

## Main definitions

- `Config.DefinesProperty` — the stylesheet of a mode defines a custom property
-/

namespace DesignTokens

variable {config : Config} {mode : String} {policy : Document} {theme : ResolvedTheme}

/-- The stylesheet of a mode consists of lines that give custom properties their values in the block
of the root element, and a property of the given name is one of them. -/
def Config.DefinesProperty (config : Config) (theme : ResolvedTheme) (name : String) : Prop :=
  ∃ names values : List String, values.length = names.length ∧ name ∈ names ∧
    ∀ p, config.emit p [theme] .css = .ok (Text.join "\n" ([blockComment (config.tokensTitle theme),
      blockComment generatedNotice, "", ":root \x7b"] ++
      definitions (fun name => "  " ++ name ++ ": ") names values ++ ["\x7d"]) ++ "\n")

section Colors

/-- The colours of every mode are within those of the default one. -/
theorem within_modeColors (hsource : HasSource .any config) (hwell : config.WellFormed)
    {reference : Theme} (hdefault : config.defaultTheme? = some reference) (mode : String) :
    (Document.mapping (config.modeColors mode)).Regular .any ∧
      (Document.mapping (config.modeColors mode)).Within
        (mappingDocument ValueOrGroup.toDocument reference.colors) := by
  unfold Config.modeColors
  cases hmode : config.theme? mode with
  | none => exact ⟨Document.regular_mapping_nil, .nil⟩
  | some declared =>
    have hdeclared := Mapping.mem_of_find? hmode
    have hreference := Mapping.mem_of_find? hdefault
    exact ⟨hsource.regular_colors hmode,
      .of_sameLayout (sameLayout_colors (hwell.theme.alike _ _ hdeclared _ _ hreference)
        (hwell.theme.scales _ _ hdeclared) (hwell.theme.scales _ _ hreference))⟩

/-- The merged colours are those of the default mode laid over those of the others. -/
theorem mergedColors_eq {reference : Theme} (hdefault : config.defaultTheme? = some reference) :
    config.mergedColors =
      deepMerge
        (deepMergeAll [] ((config.modes.filter (· ≠ config.defaultMode)).map config.modeColors))
        (Mapping.mapValues ValueOrGroup.toDocument reference.colors) := by
  have hlast : config.modeColors config.defaultMode =
      Mapping.mapValues ValueOrGroup.toDocument reference.colors := by
    rw [Config.modeColors, show config.theme? config.defaultMode = some reference from hdefault]
    rfl
  rw [Config.mergedColors, Config.mergeOrder, hdefault, List.map_append, deepMergeAll,
    List.foldl_append, ← deepMergeAll]
  exact congrArg (deepMerge _) hlast

/-- The merged colours in the order of the default mode are its own. -/
theorem colorEntries_eq (hsource : HasSource .any config) (hwell : config.WellFormed)
    {reference : Theme} (hdefault : config.defaultTheme? = some reference) :
    config.colorEntries = Mapping.mapValues ValueOrGroup.toDocument reference.colors := by
  have hbelow : ∀ upper ∈ (config.modes.filter (· ≠ config.defaultMode)).map config.modeColors,
      (Document.mapping upper).Regular .any ∧ (Document.mapping upper).Within
        (mappingDocument ValueOrGroup.toDocument reference.colors) := by
    intro upper hupper
    obtain ⟨mode, -, rfl⟩ := List.mem_map.mp hupper
    exact within_modeColors hsource hwell hdefault mode
  have hcollapse := Document.orderedLike_overlay (hsource.regular_colors hdefault) fun d hd =>
    Option.mem_some_iff.mp hd ▸ Document.Within.nil.deepMergeAll hbelow
  rw [mappingDocument, overlay_mapping, ← mergedColors_eq hdefault, orderedLike] at hcollapse
  rw [Config.colorEntries, hdefault]
  exact Document.mapping.inj hcollapse

end Colors

section Roles

variable {reference : Theme} {category role : String}

theorem find?_map_keyed {α β : Type} (f : String → α → β) (m : Mapping α) (key : String) :
    Mapping.find? (m.map fun entry => (entry.1, f entry.1 entry.2)) key =
      (Mapping.find? m key).map (f key) := by
  induction m with
  | nil => rfl
  | cons entry rest ih =>
    obtain ⟨k, a⟩ := entry
    rw [List.map_cons, Mapping.find?_cons, Mapping.find?_cons, ih]
    split
    · next h => rw [h, Option.map_some]
    · rfl

theorem get?_semanticVariables (config : Config) (reference : Theme) (category : String) :
    (config.semanticVariables reference).get? category =
      (Mapping.find? reference.semantic category).map (config.roleVariables category) :=
  find?_map_keyed config.roleVariables reference.semantic category

theorem get?_roleVariables (config : Config) (category : String) (roles : Mapping String)
    (role : String) : (config.roleVariables category roles).get? role =
      (Mapping.find? roles role).map fun _ =>
        .text (variableFallback config.variablePrefix (rolePath category role)) :=
  find?_map_keyed
    (fun role _ => Document.text (variableFallback config.variablePrefix (rolePath category role)))
    roles role

/-- Each role is left to its custom property, and there is nothing else but the objects of the
categories. -/
theorem at?_semanticVariables_iff {keys : List String} {d : Document} :
    (config.semanticVariables reference).at? keys = some d ∧ d.isMapping = false ↔
      ∃ category role roles, keys = [category, role] ∧
        Mapping.find? reference.semantic category = some roles ∧ role ∈ Mapping.keys roles ∧
        d = .text (variableFallback config.variablePrefix (rolePath category role)) := by
  constructor
  · rintro ⟨hd, hplain⟩
    cases keys with
    | nil =>
      cases (Document.at?_nil _).symm.trans hd
      cases hplain
    | cons category rest =>
      rw [Document.at?_cons, get?_semanticVariables, Option.bind_eq_some_iff] at hd
      obtain ⟨_, hcategory, hd⟩ := hd
      obtain ⟨roles, hroles, rfl⟩ := Option.map_eq_some_iff.mp hcategory
      cases rest with
      | nil =>
        cases (Document.at?_nil _).symm.trans hd
        cases hplain
      | cons role more =>
        rw [Document.at?_cons, get?_roleVariables, Option.bind_eq_some_iff] at hd
        obtain ⟨_, htext, hd⟩ := hd
        obtain ⟨value, hrole, rfl⟩ := Option.map_eq_some_iff.mp htext
        cases more with
        | nil =>
          cases (Document.at?_nil _).symm.trans hd
          exact ⟨category, role, roles, rfl, hroles, Mapping.mem_keys_of_find? hrole, rfl⟩
        | cons _ _ => simp [Document.get?, Document.entries?] at hd
  · rintro ⟨category, role, roles, rfl, hroles, hrole, rfl⟩
    obtain ⟨value, hvalue⟩ := Mapping.exists_find?_of_mem_keys hrole
    refine ⟨?_, rfl⟩
    simp [get?_semanticVariables, get?_roleVariables, hroles, hvalue]

/-- The stylesheet of every mode that resolves defines the custom properties of the roles. -/
theorem definesProperty_role (hsource : HasSource .any config) (hwell : config.WellFormed)
    (hdefault : config.defaultTheme? = some reference) (hselects : config.selects .semantic = true)
    {roles : Mapping String} (hcategory : Mapping.find? reference.semantic category = some roles)
    (hrole : role ∈ Mapping.keys roles) (hresolve : resolveTheme config mode policy = .ok theme) :
    config.DefinesProperty theme (variableName config.variablePrefix (rolePath category role)) := by
  obtain ⟨-, declared, hdeclared, -, hresolved⟩ := resolveTheme_ok hresolve
  -- The theme of the mode has the role, and resolving it gives the role a value.
  have hnames := (hresolved.trans
    (hwell.theme.alike _ _ hdeclared _ _ (Mapping.mem_of_find? hdefault)).semantic).symm
  obtain ⟨members, hmembers, _, hkeys, hkeys'⟩ := hnames.exists_right hcategory
  obtain ⟨value, hvalue⟩ :=
    Mapping.exists_find?_of_mem_keys ((hkeys role).mpr ((hkeys' role).mpr hrole))
  have htoken : (⟨.semantic, [category, role], value⟩ : Token) ∈ config.tokenList theme := by
    refine mem_tokenList.mpr ⟨hselects, ?_⟩
    rw [Document.mem_leaves_iff (regular_spaceTokens hsource hresolve .semantic),
      Config.spaceTokens, Config.orderedRoles, Document.leaf?_orderedLike,
      ResolvedTheme.semanticDocument, leaf?_rolesDocument]
    exact ⟨category, role, members, rfl, hmembers, hvalue⟩
  refine ⟨(config.tokenList theme).map config.propertyName,
    (config.tokenList theme).map Token.value, by simp, List.mem_map.mpr ⟨_, htoken, rfl⟩, ?_⟩
  intro p
  rw [← config.propertyLines]
  rfl

end Roles

theorem erase_set {α : Type} (m : Mapping α) (key : String) (value : α) :
    Mapping.erase (Mapping.set m key value) key = Mapping.erase m key := by
  induction m with
  | nil => simp [Mapping.set, Mapping.erase]
  | cons entry rest ih =>
    obtain ⟨k, v⟩ := entry
    rw [Mapping.set]
    split
    · next h => simp [Mapping.erase, h]
    · next h => simpa [Mapping.erase, h] using ih

/-- In the theme extension of a parsed configuration every value under the key of the roles is left to
a custom property that the stylesheet of every mode defines, if the mode resolves, and every role of
every mode is left to one in this way. The other colours are those of the default mode, with its
values and in its order at both levels, whatever the other modes declare. -/
theorem utilityColors_closed {raw : RawDocument} {warnings : List String}
    (hparse : parse raw.normalize = .ok (config, warnings)) :
    ∃ reference, config.defaultTheme? = some reference ∧
      (config.selects .semantic = true → ∃ roles,
        Mapping.find? config.utilityColors "semantic" = some roles ∧
        (∀ keys d, roles.at? keys = some d → d.isMapping = false →
          ∃ name, d = .text ("var(" ++ name ++ ")") ∧
            ∀ mode ∈ config.modes, ∀ policy theme, resolveTheme config mode policy = .ok theme →
              config.DefinesProperty theme name) ∧
        ∀ mode declared, config.theme? mode = some declared →
          ∀ category members, Mapping.find? declared.semantic category = some members →
            ∀ role ∈ Mapping.keys members, roles.at? [category, role] =
              some (.text (variableFallback config.variablePrefix (rolePath category role)))) ∧
      (config.selects .colors = true → Mapping.erase config.utilityColors "semantic" =
        Mapping.erase (Mapping.mapValues ValueOrGroup.toDocument reference.colors) "semantic") := by
  have hsource := (Reached.parsed raw.regular_normalize hparse).hasSource
  have hwell := (Validated.parsed raw.regular_normalize hparse).wellFormed
  obtain ⟨reference, hdefault, hreference⟩ := hwell.exists_default
  refine ⟨reference, hdefault, fun hsemantic => ?_, fun hcolors => ?_⟩
  · refine ⟨config.semanticVariables reference, ?_, fun keys d hd hplain => ?_, ?_⟩
    · simp only [Config.utilityColors, hdefault, hsemantic, if_true, Mapping.find?_set_self]
    · obtain ⟨category, role, roles, -, hcategory, hrole, rfl⟩ :=
        at?_semanticVariables_iff.mp ⟨hd, hplain⟩
      exact ⟨_, rfl, fun mode _ policy theme hresolve =>
        definesProperty_role hsource hwell hdefault hsemantic hcategory hrole hresolve⟩
    · intro mode declared hdeclared category members hmembers role hrole
      have hnames := hwell.theme.alike _ _ (Mapping.mem_of_find? hdeclared) _ _ hreference
      obtain ⟨roles, hroles, hkeys⟩ := hnames.semantic.exists_right hmembers
      exact (at?_semanticVariables_iff.mpr
        ⟨category, role, roles, rfl, hroles, (hkeys role).mp hrole, rfl⟩).1
  · rw [← colorEntries_eq hsource hwell hdefault]
    simp only [Config.utilityColors, hdefault, hcolors, if_true]
    split
    · exact erase_set _ _ _
    · rfl

theorem sample_utilityColors_closed : ∃ config warnings theme roles,
    parse (sampleDocument []).normalize = .ok (config, warnings) ∧
      Mapping.find? config.utilityColors "semantic" = some roles ∧
      roles.at? ["text", "muted"] = some (.text "var(--tc-semantic-text-muted)") ∧
      resolveTheme config "day" (.text "strict") = .ok theme ∧
      config.DefinesProperty theme "--tc-semantic-text-muted" ∧
      Mapping.keys (Mapping.erase config.utilityColors "semantic") = ["gray", "ink"] := by
  obtain ⟨config, theme, reference, day, members, hread, h, hdefault, hday, hmembers, hrole, hname,
      hkeys, hselects⟩ : ∃ config theme reference day members,
      Config.read (sampleDocument []).normalize = .valid config ∧
        resolveTheme config "day" (.text "strict") = .ok theme ∧
        config.defaultTheme? = some reference ∧ config.theme? "day" = some day ∧
        Mapping.find? day.semantic "text" = some members ∧ "muted" ∈ Mapping.keys members ∧
        variableName config.variablePrefix (rolePath "text" "muted") = "--tc-semantic-text-muted" ∧
        Mapping.keys (Mapping.erase
          (Mapping.mapValues ValueOrGroup.toDocument reference.colors) "semantic") =
            ["gray", "ink"] ∧
        ∀ space, config.selects space = true :=
    ⟨_, _, _, _, _, rfl, rfl, rfl, rfl, rfl, by decide, rfl, by decide,
      fun space => by cases space <;> rfl⟩
  obtain ⟨findings, hfindings, herrors⟩ := validate_sample [] hread
  have hparse := parse_of_errors hfindings herrors hread
  obtain ⟨_, hsome, hroles, hcolors⟩ := utilityColors_closed hparse
  cases hdefault.symm.trans hsome
  obtain ⟨roles, hfind, hdefined, hleft⟩ := hroles (hselects .semantic)
  have hmuted := hleft "day" day hday "text" members hmembers "muted" hrole
  rw [variableFallback, hname] at hmuted
  obtain ⟨name, heq, hproperty⟩ := hdefined _ _ hmuted rfl
  have hdefines := hproperty "day" (Mapping.mem_keys_of_find? hday) _ theme h
  obtain rfl : "--tc-semantic-text-muted" = name :=
    (String.append_right_inj _).mp ((String.append_left_inj _).mp (Document.text.inj heq))
  exact ⟨config, _, theme, roles, hparse, hfind, hmuted, h, hdefines,
    (congrArg Mapping.keys (hcolors (hselects .colors))).trans hkeys⟩

end DesignTokens
