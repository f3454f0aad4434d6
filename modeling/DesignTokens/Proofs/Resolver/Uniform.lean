import DesignTokens.Proofs.Artifact.ComponentClasses
import DesignTokens.Proofs.Export.Outcome
import DesignTokens.Proofs.Resolver.References

/-!
# References in different modes

All themes of a valid configuration have the same names, and a name is a literal in one of them
exactly when it is in every other. So a reference that does not start from the roles has a value in
one mode exactly when it has one in every other, and it fails for the same reason. Roles are left
out: what they hold may be a reference in one mode and a literal in the next.

## Main definitions

- `Uniform` — two outcomes of one lookup, both with a value or both with the same failure
- `RoleFree` — a style object without references to roles
-/

namespace DesignTokens

/-- The outcomes of two resolvers for a path: both have a value, in a given relation, or both have
the same failure, each for its own mode. -/
def Uniform (r r' : Resolver) (path : String) (R : String → String → Prop)
    (outcome outcome' : Except Unresolved String) : Prop :=
  (∃ v v', outcome = .ok v ∧ outcome' = .ok v' ∧ R v v') ∨
    ∃ space reason, outcome = .error (r.failure path space reason) ∧
      outcome' = .error (r'.failure path space reason)

section Lookup

variable {r r' : Resolver} {path space : String} {R S : String → String → Prop}
  {outcome outcome' : Except Unresolved String}

theorem Uniform.imp (h : Uniform r r' path R outcome outcome') (himp : ∀ v v', R v v' → S v v') :
    Uniform r r' path S outcome outcome' :=
  h.imp_left fun ⟨v, v', hv, hv', hR⟩ => ⟨v, v', hv, hv', himp v v' hR⟩

/-- Walks through documents of the same layout end at values of the same kind. -/
theorem uniform_walk {d d' : Document} (h : d.SameLayout d') (segments : List String) :
    Uniform r r' path (fun _ _ => True) (r.walk path space d segments)
      (r'.walk path space d' segments) := by
  have hkind := h segments
  unfold Resolver.walk
  generalize d.at? segments = leaf at hkind ⊢
  generalize d'.at? segments = leaf' at hkind ⊢
  cases hkind with
  | none => exact .inr ⟨space, .missing, rfl, rfl⟩
  | some hkind =>
    cases hkind with
    | texts s t => exact .inl ⟨s, t, rfl, rfl, trivial⟩
    | objects => exact .inr ⟨space, .group, rfl, rfl⟩

/-- Walks through one document end at the same value. -/
theorem uniform_walk_self (d : Document) (segments : List String) :
    Uniform r r' path Eq (r.walk path space d segments) (r'.walk path space d segments) := by
  unfold Resolver.walk
  cases d.at? segments with
  | none => exact .inr ⟨space, .missing, rfl, rfl⟩
  | some leaf =>
    cases leaf with
    | mapping _ => exact .inr ⟨space, .group, rfl, rfl⟩
    | text s => exact .inl ⟨s, s, rfl, rfl, rfl⟩
    | int n => exact .inl ⟨toString n, toString n, rfl, rfl, rfl⟩
    | float x => exact .inl ⟨x.render, x.render, rfl, rfl, rfl⟩
    | _ => exact .inr ⟨space, .notLiteral, rfl, rfl⟩

/-- Only colours and roles are looked up in the theme. -/
theorem root?_congr (hconfig : r.config = r'.config) {space : String} (hcolors : space ≠ "colors")
    (hsemantic : space ≠ "semantic") : r.root? space = r'.root? space := by
  unfold Resolver.root?
  split <;> simp_all

/-- What is stored under a path that does not start from the roles. -/
theorem uniform_stored (hconfig : r.config = r'.config) (hcolors : r.colors.SameLayout r'.colors)
    (hpath : (Text.split '.' path).head? ≠ some "semantic") :
    Uniform r r' path (fun v v' => (Text.split '.' path).head? ≠ some "colors" → v = v')
      (r.stored path) (r'.stored path) := by
  unfold Resolver.stored
  cases hsplit : Text.split '.' path with
  | nil => exact .inr ⟨none, .malformed, rfl, rfl⟩
  | cons space segments =>
    rw [hsplit, List.head?_cons, ne_eq, Option.some.injEq] at hpath
    simp only [List.head?_cons, ne_eq, Option.some.injEq]
    split
    · exact .inr ⟨none, .malformed, rfl, rfl⟩
    · by_cases hspace : space = "colors"
      · subst hspace
        exact (uniform_walk hcolors segments).imp fun _ _ _ hne => absurd rfl hne
      · rw [root?_congr hconfig hspace hpath]
        cases r'.root? space with
        | none => exact .inr ⟨space, .unknownNamespace, rfl, rfl⟩
        | some d => exact (uniform_walk_self d segments).imp fun _ _ heq _ => heq

end Lookup

/-- A style object gives no property a reference that starts from the roles. -/
def RoleFree (style : Mapping Document) : Prop :=
  ∀ chain, ∀ entry ∈ declaredAt style chain, ∀ path, entry.2 = .reference path →
    (Text.split '.' path).head? ≠ some "semantic"

section Modes

variable {config : Config} {mode mode' : String} {theme theme' : Theme}

theorem isRole_eq_false {path : String} (h : (Text.split '.' path).head? ≠ some "semantic") :
    Resolver.isRole path = false := by
  rw [Resolver.isRole, beq_eq_false_iff_ne]
  exact h

/-- The resolver of a mode under the strict policy. -/
def Config.strictResolver (config : Config) (mode : String) (theme : Theme) : Resolver :=
  ⟨config, mode, theme, .strict⟩

theorem make_strict (h : config.theme? mode = some theme) :
    Resolver.make config mode (.text "strict") = .ok (config.strictResolver mode theme) :=
  Resolver.make_of_find h .strict

/-- A reference that does not start from the roles is resolved in two modes of a well-formed
configuration with the same success. -/
theorem uniform_resolve (hwell : config.WellFormed) (htheme : config.theme? mode = some theme)
    (htheme' : config.theme? mode' = some theme') {path : String}
    (hpath : (Text.split '.' path).head? ≠ some "semantic") :
    (∃ v v', (config.strictResolver mode theme).resolve path = .ok v ∧
      (config.strictResolver mode' theme').resolve path = .ok v' ∧
        ((Text.split '.' path).head? ≠ some "colors" → v = v')) ∨
    ∃ space reason,
      (config.strictResolver mode theme).resolve path =
        .error (.unresolved ⟨path, space, some mode, reason⟩) ∧
      (config.strictResolver mode' theme').resolve path =
        .error (.unresolved ⟨path, space, some mode', reason⟩) := by
  have hmem := Mapping.mem_of_find? htheme
  have hmem' := Mapping.mem_of_find? htheme'
  have hcolors : (config.strictResolver mode theme).colors.SameLayout
      (config.strictResolver mode' theme').colors :=
    sameLayout_colors (hwell.theme.alike _ _ hmem _ _ hmem') (hwell.theme.scales _ _ hmem)
      (hwell.theme.scales _ _ hmem')
  have hconfig : (config.strictResolver mode theme).config =
      (config.strictResolver mode' theme').config := rfl
  have hlookUp := fun r : Resolver => r.lookUp_of_not_role (isRole_eq_false hpath)
  simp only [Resolver.resolve, hlookUp]
  rcases uniform_stored hconfig hcolors hpath with
    ⟨v, v', hv, hv', hsame⟩ | ⟨space, reason, hfailure, hfailure'⟩
  · rw [hv, hv']
    exact .inl ⟨v, v', rfl, rfl, hsame⟩
  · rw [hfailure, hfailure']
    exact .inr ⟨space, reason, rfl, rfl⟩

/-- A style object without references to roles has a rule in two modes or in neither. -/
theorem exists_compiled_of_roleFree (hwell : config.WellFormed)
    (htheme : config.theme? mode = some theme) (htheme' : config.theme? mode' = some theme')
    {style : Mapping Document} (hstyle : (Document.mapping style).Regular .any)
    (hfree : RoleFree style)
    (h : ∃ rule, compileEntries (config.strictResolver mode theme) (styleEntries style) = .ok rule) :
    ∃ rule, compileEntries (config.strictResolver mode' theme') (styleEntries style) = .ok rule := by
  rw [exists_compiled_iff hstyle] at h ⊢
  intro chain entry hentry
  obtain ⟨value, hvalue⟩ := h chain entry hentry
  obtain ⟨property, node⟩ := entry
  cases node with
  | literal text => exact ⟨text, rfl⟩
  | state name entries => cases hvalue
  | reference path =>
    rcases uniform_resolve hwell htheme htheme' (hfree chain _ hentry path rfl) with
      ⟨_, v', -, hv', -⟩ | ⟨_, _, hfailure, -⟩
    · exact ⟨v', hv'⟩
    · cases hfailure.symm.trans hvalue

end Modes

section Library

variable {config : Config} {mode mode' : String} {theme theme' : Theme}

/-- A library of style objects is written when each of them has a rule. -/
theorem exists_compileBlocks_iff {r : Resolver} {parts : List (String × Mapping Document)} :
    (∃ written, Config.compileBlocks r parts = .ok written) ↔
      ∀ part ∈ parts, ∃ rule, compileEntries r (styleEntries part.2) = .ok rule := by
  constructor
  · rintro ⟨written, hwritten⟩ part hpart
    exact ⟨_, (compileBlocks_eq_ok hwritten).1 part hpart⟩
  · intro h
    induction parts with
    | nil => exact ⟨[], rfl⟩
    | cons part rest ih =>
      obtain ⟨⟨rule, hrule⟩, hrest⟩ := List.forall_mem_cons.mp h
      obtain ⟨more, hmore⟩ := ih hrest
      simp [Config.compileBlocks, hrule, hmore, bind, Except.bind]

theorem exists_emit_components_iff (h : config.theme? mode = some theme) {resolved : ResolvedTheme}
    (hmode : resolved.mode = mode) :
    (∃ content, config.emit .strict [resolved] .components = .ok content) ↔
      ∀ part ∈ config.componentStyles, ∃ rule,
        compileEntries (config.strictResolver mode theme) (styleEntries part.2) = .ok rule := by
  subst hmode
  rw [← exists_compileBlocks_iff, emit_components h, Config.componentSheet]
  simp only [bind_eq_ok_iff]
  constructor
  · rintro ⟨_, written, hwritten, -⟩
    exact ⟨written, hwritten⟩
  · rintro ⟨written, hwritten⟩
    exact ⟨_, written, hwritten, rfl⟩

theorem exists_compileStyle_iff (h : config.theme? mode = some theme) (style : Mapping Document) :
    (∃ rule, compileStyle config mode (.text "strict") style = .ok rule) ↔
      ∃ rule, compileEntries (config.strictResolver mode theme) (styleEntries style) = .ok rule := by
  rw [compileStyle, make_strict h]
  rfl

/-- The style objects of a selection are empty or declared in the library. -/
theorem mem_componentStyles_of_mem_layers {name : String} {style : ComponentStyle}
    (hstyle : (name, style) ∈ config.components.library) {selection : Selection}
    {layer : Mapping Document} (hlayer : layer ∈ style.layers selection) :
    layer = [] ∨ ∃ selector, (selector, layer) ∈ config.componentStyles := by
  have hmem : ∀ part ∈ style.selectors name, part ∈ config.componentStyles :=
    fun part hpart => List.mem_flatMap.mpr ⟨_, hstyle, hpart⟩
  have hselect : ∀ styles requested,
      (∀ entry ∈ styles, entry ∈ style.variants ++ style.sizes ++ style.states) →
        selectStyle styles requested = [] ∨
          ∃ selector, (selector, selectStyle styles requested) ∈ config.componentStyles := by
    intro styles requested hstyles
    refine (selectStyle_eq_nil_or_mem styles requested).imp_right fun ⟨key, hkey⟩ => ?_
    exact ⟨_, hmem _ (List.mem_cons_of_mem _ (List.mem_map.mpr ⟨_, hstyles _ hkey, rfl⟩))⟩
  simp only [ComponentStyle.layers, List.mem_cons, List.not_mem_nil, or_false] at hlayer
  rcases hlayer with rfl | rfl | rfl | rfl
  · exact .inr ⟨_, hmem _ List.mem_cons_self⟩
  · exact hselect _ _ fun entry h => by simp [h]
  · exact hselect _ _ fun entry h => by simp [h]
  · exact hselect _ _ fun entry h => by simp [h]

/-- The style of a selection from a library without references to roles is regular and has none. -/
theorem roleFree_compose (hsource : HasSource .any config)
    (hfree : ∀ part ∈ config.componentStyles, RoleFree part.2) {name : String}
    {style : ComponentStyle} (hstyle : (name, style) ∈ config.components.library)
    (selection : Selection) : (Document.mapping (style.compose selection)).Regular .any ∧
      RoleFree (style.compose selection) := by
  have hlayers : ∀ layer ∈ style.layers selection,
      (Document.mapping layer).Regular .any ∧ RoleFree layer := by
    intro layer hlayer
    rcases mem_componentStyles_of_mem_layers hstyle hlayer with rfl | ⟨selector, hpart⟩
    · refine ⟨Document.regular_mapping_nil, fun chain entry hentry => ?_⟩
      cases chain <;> cases hentry
    · exact ⟨hsource.regular_part hpart, hfree _ hpart⟩
  obtain ⟨⟨hbase, -⟩, huppers⟩ := List.forall_mem_cons.mp hlayers
  have huppers := fun upper hupper => (huppers upper hupper).1
  refine ⟨hbase.deepMergeAll huppers, fun chain entry hentry => ?_⟩
  obtain ⟨layer, hlayer, hentry⟩ := mem_declaredAt_deepMergeAll hbase huppers hentry
  exact (hlayers layer hlayer).2 chain entry hentry

end Library

end DesignTokens
