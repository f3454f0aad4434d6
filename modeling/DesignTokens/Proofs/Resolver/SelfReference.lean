import DesignTokens.Proofs.Artifact.Names
import DesignTokens.Proofs.Resolver.References

/-!
# Properties that refer to themselves

Under the lenient policy a role whose colour has no value is left to the custom property of the colour,
so that its own property does not refer to itself. A property does so only where a text that was written
for it says so: that of its token or, for a role, the literal of the colour that it refers to. The path of
a role must spell its category and its name for this, since the role is looked up by its path.

## Main definitions

- `roleText?` — what stands under a role of a category
- `Theme.colorLiteral?` — the literal of the colour that a text refers to
- `Config.roleValue` — what a role with a text comes to under the lenient policy
-/

namespace DesignTokens

variable {config : Config} {mode : String} {declared : Theme} {theme : ResolvedTheme} {r : Resolver}
  {category role text value : String}

/-- What stands under a role of a category. -/
def roleText? (semantic : Mapping (Mapping String)) (category role : String) : Option String :=
  (Mapping.find? semantic category).bind fun roles => Mapping.find? roles role

/-- The literal of the colour that a text refers to, none if it refers to no colour. -/
def Theme.colorLiteral? (theme : Theme) (text : String) : Option String :=
  if Resolver.isColorReference text then
    (mappingDocument ValueOrGroup.toDocument theme.colors).leaf? ((Text.split '.' text).drop 1)
  else none

/-- What a role with a text comes to under the lenient policy: the literal of its colour, or the custom
property of a colour without one, or the text itself. -/
def Config.roleValue (config : Config) (theme : Theme) (text : String) : String :=
  if Resolver.isColorReference text then
    (theme.colorLiteral? text).getD (variableFallback config.variablePrefix text)
  else text

theorem leaf?_eq_roleText? (semantic : Mapping (Mapping String)) (category role : String) :
    (mappingDocument textsDocument semantic).leaf? [category, role] =
      roleText? semantic category role := by
  refine Option.ext fun value => ?_
  rw [leaf?_rolesDocument, roleText?, Option.bind_eq_some_iff]
  constructor
  · rintro ⟨_, _, roles, hkeys, hroles, hrole⟩
    cases hkeys
    exact ⟨roles, hroles, hrole⟩
  · rintro ⟨roles, hroles, hrole⟩
    exact ⟨category, role, roles, rfl, hroles, hrole⟩

theorem rolePath_eq_dotted (category role : String) :
    rolePath category role = dotted TokenSpace.semantic.path [category, role] := rfl

/-! The custom property of a colour is never that of a role. -/

theorem variableFallback_eq_iff {first path other : String} :
    variableFallback first path = variableFallback first other ↔
      variableSuffix path = variableSuffix other := by
  rw [variableFallback, variableFallback, variableName, variableName, String.append_left_inj,
    String.append_right_inj, String.append_right_inj]

theorem exists_of_isColorReference (h : Resolver.isColorReference text = true) :
    ∃ rest, text = dotted TokenSpace.colors.path [rest] := by
  rw [Resolver.isColorReference, Bool.and_eq_true, Text.startsWith, List.isPrefixOf_iff_prefix] at h
  obtain ⟨-, rest, hrest⟩ := h
  refine ⟨String.ofList rest, String.toList_injective ?_⟩
  rw [← hrest]
  simp [dotted, TokenSpace.path, TokenSpace.isEffect, TokenSpace.name]

theorem variableFallback_ne_rolePath (h : Resolver.isColorReference text = true)
    (first category role : String) :
    variableFallback first text ≠ variableFallback first (rolePath category role) := by
  obtain ⟨rest, rfl⟩ := exists_of_isColorReference h
  rw [rolePath_eq_dotted, Ne, variableFallback_eq_iff,
    variableSuffix_dotted _ (List.cons_ne_nil _ _), variableSuffix_dotted _ (List.cons_ne_nil _ _)]
  exact fun heq => absurd (variableSuffix_path_inj heq).1 (by decide)

/-- A role is defined by its own property only if its text, or the literal of its colour, says so. -/
theorem Config.roleValue_eq_own_iff (config : Config) (theme : Theme) (text category role : String) :
    config.roleValue theme text =
        variableFallback config.variablePrefix (rolePath category role) ↔
      text = variableFallback config.variablePrefix (rolePath category role) ∨
        theme.colorLiteral? text =
          some (variableFallback config.variablePrefix (rolePath category role)) := by
  generalize hown : variableFallback config.variablePrefix (rolePath category role) = own
  rw [roleValue]
  split
  · next h =>
    have hne := variableFallback_ne_rolePath h config.variablePrefix category role
    rw [hown] at hne
    -- No reference to a colour is an expression.
    have htext : text ≠ own := by
      obtain ⟨rest, rfl⟩ := exists_of_isColorReference h
      rw [← hown]
      intro heq
      have hfirst := congrArg (fun s => s.toList.head?) heq
      simp [dotted, TokenSpace.path, TokenSpace.isEffect, TokenSpace.name, variableFallback] at hfirst
    cases theme.colorLiteral? text with
    | none => simpa [htext] using hne
    | some literal => simp [htext]
  · next h => simp [Theme.colorLiteral?, h]

/-! Looking up a role that its path spells. -/

namespace Resolver

theorem path_of_walk_error {path space : String} {d : Document} {segments : List String}
    {u : Unresolved} (h : r.walk path space d segments = .error u) : u.path = path := by
  unfold walk literal at h
  repeat' split at h
  all_goals cases h
  all_goals rfl

theorem walk_colors_eq_ok_iff {path : String} {segments : List String} :
    r.walk path "colors" r.colors segments = .ok value ↔ r.colors.leaf? segments = some value :=
  r.walk_eq_ok_iff (Document.flagless_values _ _)

theorem stored_rolePath (htext : roleText? r.theme.semantic category role = some text)
    (hspelled : Spelled [category, role]) : r.stored (rolePath category role) = .ok text := by
  rw [rolePath_eq_dotted, stored_eq_ok_iff, hspelled.pieces_eq]
  exact ⟨fun hempty => (hspelled _ hempty).1 rfl, (leaf?_eq_roleText? _ _ _).trans htext⟩

/-- A role that its path spells comes to a value by its text. -/
theorem resolveRole_rolePath (hlenient : r.policy = .lenient)
    (htext : roleText? r.theme.semantic category role = some text)
    (hspelled : Spelled [category, role]) :
    r.resolveRole (rolePath category role) = .ok (r.config.roleValue r.theme text) := by
  have hrole : isRole (rolePath category role) = true := isRole_path .semantic [category, role]
  have hlook : r.lookUp (rolePath category role) = if isColorReference text then
      r.walk text "colors" r.colors ((Text.split '.' text).drop 1) else .ok text := by
    simp only [lookUp, stored_rolePath htext hspelled, hrole, Bool.true_and, bind, Except.bind]
  by_cases h : isColorReference text = true
  · have hcolor : r.theme.colorLiteral? text = r.colors.leaf? ((Text.split '.' text).drop 1) :=
      if_pos h
    rw [if_pos h] at hlook
    rw [Config.roleValue, if_pos h, hcolor, resolveRole, hlook]
    cases hwalk : r.walk text "colors" r.colors ((Text.split '.' text).drop 1) with
    | ok literal =>
      rw [walk_colors_eq_ok_iff.mp hwalk]
      rfl
    | error u =>
      have hnone : r.colors.leaf? ((Text.split '.' text).drop 1) = none := by
        rw [Option.eq_none_iff_forall_ne_some]
        intro literal hliteral
        rw [walk_colors_eq_ok_iff.mpr hliteral] at hwalk
        cases hwalk
      rw [hnone, hlenient]
      exact congrArg (fun path => Except.ok (r.fallback path)) (path_of_walk_error hwalk)
  · rw [if_neg h] at hlook
    rw [Config.roleValue, if_neg h, resolveRole, hlook]

end Resolver

section Lenient

variable (hdeclared : config.theme? mode = some declared)
  (hresolve : resolveTheme config mode (.text "lenient") = .ok theme)
include hdeclared hresolve

/-- A theme that was resolved leniently has the declared colours, and the roles that a lenient resolver
finds for their paths. -/
theorem parts_of_lenient : theme.colors = declared.colors ∧
    Mapping.traverse (fun category => Mapping.traverse fun role _ =>
      (Resolver.mk config mode declared .lenient).resolveRole (rolePath category role))
        declared.semantic = .ok theme.semantic := by
  obtain ⟨r, hmake, -, hcolors, hsemantic⟩ := exists_of_resolveTheme hresolve
  obtain ⟨declared', p, hdeclared', hp, rfl⟩ := exists_of_make hmake
  obtain rfl := Option.some.inj (hdeclared.symm.trans hdeclared')
  cases hp
  exact ⟨hcolors, hsemantic⟩

/-- The roles of a theme that was resolved leniently are those that were declared, and those that their
paths spell have the values of their texts. -/
theorem roleText?_of_lenient (category role : String) :
    (∀ value, roleText? theme.semantic category role = some value →
      ∃ text, roleText? declared.semantic category role = some text) ∧
    ∀ text, roleText? declared.semantic category role = some text → Spelled [category, role] →
      roleText? theme.semantic category role = some (config.roleValue declared text) := by
  obtain ⟨-, hsemantic⟩ := parts_of_lenient hdeclared hresolve
  have hresolved (value : String) : roleText? theme.semantic category role = some value ↔
      (∃ text, roleText? declared.semantic category role = some text) ∧
        (Resolver.mk config mode declared .lenient).resolveRole (rolePath category role) =
          .ok value := by
    simp only [← leaf?_eq_roleText?]
    exact leaf?_resolved_iff hsemantic
  refine ⟨fun value hvalue => ((hresolved value).mp hvalue).1,
    fun text htext hspelled => (hresolved _).mpr ⟨⟨text, htext⟩, ?_⟩⟩
  exact Resolver.resolveRole_rolePath rfl htext hspelled

end Lenient

/-- A small document with two roles. The literal of one's colour is the role's own property, and the
other one's colour is missing. -/
def linkedDocument : RawDocument :=
  .mapping [(.text "version", .scalar (.text "1.0")),
    (.text "theme", .mapping [(.text "default", .scalar (.text "light")),
      (.text "themes", .mapping [(.text "light", .mapping [
        (.text "colors", .mapping [
          (.text "ink", .scalar (.text "var(--tc-semantic-text-body)"))]),
        (.text "semantic", .mapping [(.text "text", .mapping [
          (.text "body", .scalar (.text "colors.ink")),
          (.text "muted", .scalar (.text "colors.fog"))])])])])]),
    (.text "tokens", .mapping [(.text "prefix", .scalar (.text "tc")),
      (.text "output", .scalar (.text "./tokens")),
      (.text "formats", .list [.scalar (.text "css")])])]

theorem parse_linked (hread : Config.read linkedDocument.normalize = .valid config) :
    ∃ warnings, parse linkedDocument.normalize = .ok (config, warnings) := by
  obtain ⟨entries, hentries, hfaults⟩ : ∃ entries,
      linkedDocument.normalize = .mapping entries ∧ structureFaults entries = .ok [] :=
    ⟨_, rfl, by cbv⟩
  rw [hentries] at hread ⊢
  exact exists_parse hfaults hread

end DesignTokens
