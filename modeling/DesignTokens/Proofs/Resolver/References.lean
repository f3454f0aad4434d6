import DesignTokens.Proofs.Artifact.Addresses
import DesignTokens.Proofs.Resolver.Policies

/-!
# The paths of tokens as references

An artifact writes every token under a path, and a component may refer to a token by a path. The
resolver takes the path apart at its dots again. It arrives at the token whose keys are these
pieces, which is the token that was written there only if its own keys hold no dot and none is empty.

## Main definitions

- `Resolver.source` — the document in which the tokens of a namespace are looked up
-/

namespace DesignTokens

variable {config : Config} {mode : String} {theme : ResolvedTheme}

namespace Document

/-- No truth value stands at any path of keys. -/
def Flagless (d : Document) : Prop :=
  ∀ keys b, d.at? keys ≠ some (.bool b)

theorem flagless_text (s : String) : (text s).Flagless := by
  intro keys b
  cases keys <;> simp [get?, entries?]

theorem flagless_mappingDocument {α : Type} {write : α → Document} (h : ∀ a, (write a).Flagless)
    (m : Mapping α) : (mappingDocument write m).Flagless := by
  intro keys b
  rw [mappingDocument]
  cases keys with
  | nil => simp
  | cons key rest =>
    rw [at?_cons, get?_mapping, Mapping.find?_mapValues]
    cases Mapping.find? m key with
    | none => simp
    | some a => exact h a rest b

theorem flagless_texts (m : Mapping String) : (textsDocument m).Flagless :=
  flagless_mappingDocument flagless_text m

theorem flagless_values (values : Mapping ValueOrGroup) :
    (mappingDocument ValueOrGroup.toDocument values).Flagless := by
  refine flagless_mappingDocument (fun v => ?_) values
  cases v with
  | value s => exact flagless_text s
  | group members => exact flagless_texts members

theorem flagless_numbers (values : Mapping TokenValue) :
    (mappingDocument TokenValue.toDocument values).Flagless := by
  refine flagless_mappingDocument (fun v keys b => ?_) values
  cases v <;> cases keys <;> simp [TokenValue.toDocument, get?, entries?]

end Document

namespace Resolver

/-- The document in which the tokens of a namespace are looked up. -/
def source (r : Resolver) : TokenSpace → Document
  | .colors => r.colors
  | .semantic => mappingDocument textsDocument r.theme.semantic
  | .spacing => textsDocument r.config.spacing.scale
  | .fontSize => textsDocument r.config.typography.fontSize
  | space => Config.effectTokens r.config.effects space

variable (r : Resolver)

theorem flagless_source (space : TokenSpace) : (r.source space).Flagless := by
  cases space with
  | colors => exact Document.flagless_values _
  | semantic => exact Document.flagless_mappingDocument Document.flagless_texts _
  | gradients => exact Document.flagless_values _
  | opacity => exact Document.flagless_numbers _
  | _ => exact Document.flagless_texts _

/-- The segments of a namespace lead from the root of the documents to its own. -/
theorem exists_root (space : TokenSpace) : ∃ first rest d, space.segments = first :: rest ∧
    "" ∉ first :: rest ∧ r.root? first = some d ∧
      ∀ keys, d.at? (rest ++ keys) = (r.source space).at? keys := by
  cases space with
  | colors | semantic | spacing => exact ⟨_, _, _, rfl, by decide, rfl, fun keys => rfl⟩
  | _ => exact ⟨_, _, _, rfl, by decide, rfl, fun keys => by rfl⟩

theorem literal_eq_ok_iff {leaf : Document} (h : ∀ b, leaf ≠ .bool b) {path space v : String} :
    r.literal path space leaf = .ok v ↔ literal? leaf = some v := by
  cases leaf with
  | bool b => exact absurd rfl (h b)
  | _ => simp [literal, literal?]

/-- A walk that does not end at a truth value gives the text of the leaf there. -/
theorem walk_eq_ok_iff {d : Document} {segments : List String}
    (h : ∀ b, d.at? segments ≠ some (.bool b)) {path space v : String} :
    r.walk path space d segments = .ok v ↔ d.leaf? segments = some v := by
  rw [walk, Document.leaf?]
  cases hleaf : d.at? segments with
  | none => simp
  | some leaf => exact r.literal_eq_ok_iff fun b heq => h b (heq ▸ hleaf)

/-- What is stored under a path is the leaf at the pieces of its keys. -/
theorem stored_eq_ok_iff (space : TokenSpace) (keys : List String) (v : String) :
    r.stored (dotted space.path keys) = .ok v ↔
      "" ∉ pieces keys ∧ (r.source space).leaf? (pieces keys) = some v := by
  obtain ⟨first, rest, d, hsegments, hnamed, hroot, hat⟩ := r.exists_root space
  have hsplit : Text.split '.' (dotted space.path keys) = first :: (rest ++ pieces keys) := by
    rw [split_dotted, ← TokenSpace.segments, hsegments, List.cons_append]
  have hempty : (first :: (rest ++ pieces keys)).contains "" = true ↔ "" ∈ pieces keys := by
    rw [List.mem_cons, not_or] at hnamed
    simp [hnamed.1, hnamed.2]
  rw [stored, hsplit]
  by_cases h : "" ∈ pieces keys
  · simp [h]
  · have hflagless : ∀ b, d.at? (rest ++ pieces keys) ≠ some (.bool b) := by
      rw [hat]
      exact r.flagless_source space _
    simp only [hempty.not.mpr h, Bool.false_eq_true, if_false, hroot, h, not_false_eq_true, true_and]
    rw [r.walk_eq_ok_iff hflagless, Document.leaf?, Document.leaf?, hat]

theorem isRole_path (space : TokenSpace) (keys : List String) :
    isRole (dotted space.path keys) = decide (space = .semantic) := by
  rw [isRole, split_dotted]
  cases space <;> rfl

/-- What is no role is not looked up further. -/
theorem lookUp_of_not_role {path : String} (h : isRole path = false) :
    r.lookUp path = r.stored path := by
  rw [lookUp, h]
  cases r.stored path <;> rfl

theorem lookUp_of_ne_semantic {space : TokenSpace} (h : space ≠ .semantic) (keys : List String) :
    r.lookUp (dotted space.path keys) = r.stored (dotted space.path keys) :=
  r.lookUp_of_not_role ((isRole_path space keys).trans (decide_eq_false h))

/-- Under a path that has a value something is stored. -/
theorem exists_stored {path v : String} (h : r.lookUp path = .ok v) :
    ∃ value, r.stored path = .ok value := by
  obtain ⟨value, hvalue, -⟩ := bind_eq_ok_iff.mp h
  exact ⟨value, hvalue⟩

theorem resolve_strict_iff {r : Resolver} (h : r.policy = .strict) {path v : String} :
    r.resolve path = .ok v ↔ r.lookUp path = .ok v := by
  rw [resolve]
  cases r.lookUp path <;> simp [h]

theorem resolveRole_strict_iff {r : Resolver} (h : r.policy = .strict) {path v : String} :
    r.resolveRole path = .ok v ↔ r.lookUp path = .ok v := by
  rw [resolveRole]
  cases r.lookUp path <;> simp [h]

end Resolver

/-- The roles of a resolved theme are those that were declared, with what their paths resolved to. -/
theorem leaf?_resolved_iff {r : Resolver} {resolved : Mapping (Mapping String)}
    (h : Mapping.traverse (fun category => Mapping.traverse fun role _ =>
      r.resolveRole (rolePath category role)) r.theme.semantic = .ok resolved)
    {keys : List String} {v : String} :
    (mappingDocument textsDocument resolved).leaf? keys = some v ↔
      (∃ value, (r.source .semantic).leaf? keys = some value) ∧
        r.resolveRole (dotted TokenSpace.semantic.path keys) = .ok v := by
  simp only [Resolver.source, leaf?_rolesDocument]
  constructor
  · rintro ⟨category, role, roles, rfl, hroles, hrole⟩
    obtain ⟨declared, hdeclared, hroles⟩ := (Mapping.find?_of_traverse h _ _).mp hroles
    obtain ⟨value, hvalue, hrole⟩ := (Mapping.find?_of_traverse hroles _ _).mp hrole
    exact ⟨⟨value, category, role, declared, rfl, hdeclared, hvalue⟩, hrole⟩
  · rintro ⟨⟨value, category, role, declared, rfl, hdeclared, hvalue⟩, hrole⟩
    -- The category was traversed, and so was the role in it.
    have hkeys := (Mapping.along_of_traverse h).keys_eq
    obtain ⟨roles, hroles⟩ := Mapping.exists_find?_of_mem_keys
      (hkeys ▸ Mapping.mem_keys_of_find? hdeclared)
    obtain ⟨other, hother, htraverse⟩ := (Mapping.find?_of_traverse h _ _).mp hroles
    obtain rfl := Option.some.inj (hother.symm.trans hdeclared)
    refine ⟨category, role, roles, rfl, hroles, ?_⟩
    rw [Mapping.find?_of_traverse htraverse]
    exact ⟨value, hvalue, hrole⟩

/-- Every token of a resolved theme but a role has the text that is stored for it. -/
theorem leaf?_spaceTokens_of_ne_semantic (r : Resolver) {space : TokenSpace}
    (hspace : space ≠ .semantic) (hcolors : theme.colors = r.theme.colors) (keys : List String) :
    (r.config.spaceTokens theme space).leaf? keys = (r.source space).leaf? keys := by
  cases space with
  | semantic => exact absurd rfl hspace
  | colors =>
    rw [Config.spaceTokens, Config.orderedColors, Document.leaf?_orderedLike,
      ResolvedTheme.colorsDocument, hcolors]
    rfl
  | _ => rfl

/-- In a theme that resolves strictly, a path below a namespace has the value of the token whose keys
are the pieces of the path. -/
theorem resolveReference_eq_ok_iff (hresolve : resolveTheme config mode (.text "strict") = .ok theme)
    (space : TokenSpace) (keys : List String) (v : String) :
    resolveReference config mode (.text "strict") (dotted space.path keys) = .ok v ↔
      "" ∉ pieces keys ∧ (config.spaceTokens theme space).leaf? (pieces keys) = some v := by
  obtain ⟨r, hmake, -, hcolors, hsemantic⟩ := exists_of_resolveTheme hresolve
  obtain ⟨declared, p, hdeclared, hp, rfl⟩ := exists_of_make hmake
  cases hp
  have hresolved : resolveReference config mode (.text "strict") (dotted space.path keys) = .ok v ↔
      (Resolver.mk config mode declared .strict).lookUp (dotted space.path keys) = .ok v := by
    rw [resolveReference, hmake]
    exact Resolver.resolve_strict_iff rfl
  rw [hresolved]
  have hstored := Resolver.stored_eq_ok_iff ⟨config, mode, declared, .strict⟩ space keys
  by_cases hspace : space = .semantic
  · subst hspace
    rw [Config.spaceTokens, Config.orderedRoles, Document.leaf?_orderedLike,
      ResolvedTheme.semanticDocument, leaf?_resolved_iff hsemantic,
      Resolver.resolveRole_strict_iff rfl, dotted_pieces]
    constructor
    · intro h
      obtain ⟨value, hvalue⟩ := Resolver.exists_stored _ h
      obtain ⟨hnamed, hleaf⟩ := (hstored value).mp hvalue
      exact ⟨hnamed, ⟨value, hleaf⟩, h⟩
    · exact fun h => h.2.2
  · rw [Resolver.lookUp_of_ne_semantic _ hspace, hstored,
      ← leaf?_spaceTokens_of_ne_semantic _ hspace hcolors]

/-- A style that gives one property a reference has the value of the reference for it. -/
theorem compileStyle_reference {path v : String} {word : Document}
    (hreference : isReference path = true) (h : resolveReference config mode word path = .ok v) (property : String) :
    compileStyle config mode word [(property, .text path)] = .ok ⟨[(property, v)], []⟩ := by
  obtain ⟨r, hmake, hvalue⟩ := bind_eq_ok_iff.mp h
  have hentries : styleEntries [(property, .text path)] = [(property, .reference path)] := by
    simp [styleEntries, styleNode?, plainNode?, scalarNode, hreference]
  rw [compileStyle, hmake]
  change compileEntries r (styleEntries [(property, .text path)]) = _
  rw [hentries, compileEntries, addEntries, addEntry, hvalue]
  rfl

end DesignTokens
