import DesignTokens.Proofs.Artifact.Modes
import DesignTokens.Proofs.Document.Ordering

/-!
# Tokens with their addresses

An artifact writes the path of a token as one text. Its address is what the path is made of: the
namespace and the keys below it. Tokens of one mode have different addresses, and their paths start
with segments that tell their namespaces apart.

## Main definitions

- `Token`, `Token.path` — a token with its address, and its path
- `Config.tokenList` — the selected tokens of one mode
- `TokenSpace.segments` — the segments with which the paths of a namespace start
-/

namespace DesignTokens

variable {rule : LeafRule} {config : Config} {mode : String} {policy : Document}
  {theme : ResolvedTheme}

/-- A token of an artifact: its namespace, the keys that lead to it there, and its value. -/
structure Token where
  space : TokenSpace
  keys : List String
  value : String
  deriving DecidableEq

/-- The path of a token: its keys behind that of its namespace. -/
def Token.path (token : Token) : String :=
  dotted token.space.path token.keys

/-- The selected tokens of one mode, in canonical order. -/
def Config.tokenList (config : Config) (theme : ResolvedTheme) : List Token :=
  config.selectedSpaces.flatMap fun space =>
    (config.spaceTokens theme space).leaves.map fun leaf => ⟨space, leaf.1, leaf.2⟩

theorem tokenEntries_eq_map (config : Config) (theme : ResolvedTheme) :
    config.tokenEntries theme =
      (config.tokenList theme).map fun token => (token.path, token.value) := by
  rw [Config.tokenEntries, Config.tokenList, List.map_flatMap]
  refine congrArg (config.selectedSpaces.flatMap ·) (funext fun space => ?_)
  rw [flatten_eq_map, List.map_map]
  rfl

theorem mem_selectedSpaces (space : TokenSpace) :
    space ∈ config.selectedSpaces ↔ config.selects space = true := by
  rw [Config.selectedSpaces, List.mem_filter]
  exact and_iff_right (by cases space <;> decide)

theorem mem_tokenList {token : Token} : token ∈ config.tokenList theme ↔
    config.selects token.space = true ∧
      (token.keys, token.value) ∈ (config.spaceTokens theme token.space).leaves := by
  obtain ⟨space, keys, value⟩ := token
  rw [Config.tokenList, List.mem_flatMap]
  constructor
  · rintro ⟨_, hspace, htoken⟩
    obtain ⟨leaf, hleaf, heq⟩ := List.mem_map.mp htoken
    cases heq
    exact ⟨(mem_selectedSpaces _).mp hspace, hleaf⟩
  · rintro ⟨hspace, hleaf⟩
    exact ⟨space, (mem_selectedSpaces _).mpr hspace, List.mem_map.mpr ⟨_, hleaf, rfl⟩⟩

/-! No address stands twice. -/

section Regular

theorem regular_textsDocument {m : Mapping String} :
    (textsDocument m).Regular rule ↔ (Mapping.keys m).Nodup := by
  rw [textsDocument, regular_mappingDocument]
  exact and_iff_left fun _ s _ => Document.regular_text s

theorem regular_rolesDocument {semantic : Mapping (Mapping String)} :
    (mappingDocument textsDocument semantic).Regular rule ↔ (Mapping.keys semantic).Nodup ∧
      ∀ category roles, (category, roles) ∈ semantic → (Mapping.keys roles).Nodup := by
  simp only [regular_mappingDocument, regular_textsDocument]

theorem HasSource.regular_colors (h : HasSource rule config) {declared : Theme}
    (hdeclared : config.theme? mode = some declared) :
    (mappingDocument ValueOrGroup.toDocument declared.colors).Regular rule :=
  (h.regular_theme hdeclared).find? (show Mapping.find? _ "colors" = some _ from rfl)

theorem HasSource.regular_semantic (h : HasSource rule config) {declared : Theme}
    (hdeclared : config.theme? mode = some declared) :
    (mappingDocument textsDocument declared.semantic).Regular rule :=
  (h.regular_theme hdeclared).find? (show Mapping.find? _ "semantic" = some _ from rfl)

theorem HasSource.regular_colorOrder (h : HasSource rule config) :
    config.colorOrder.Regular rule := by
  unfold Config.colorOrder
  cases hdefault : config.defaultTheme? with
  | none => exact Document.regular_mapping_nil
  | some declared => exact h.regular_colors hdefault

theorem HasSource.regular_roleOrder (h : HasSource rule config) :
    config.roleOrder.Regular rule := by
  unfold Config.roleOrder
  cases hdefault : config.defaultTheme? with
  | none => exact Document.regular_mapping_nil
  | some declared => exact h.regular_semantic hdefault

/-- Resolving a theme keeps the keys of its roles. -/
theorem regular_resolved {f : String → String → String → Except Failure String}
    {semantic resolved : Mapping (Mapping String)}
    (hsemantic : (mappingDocument textsDocument semantic).Regular rule)
    (h : Mapping.traverse (fun category => Mapping.traverse (f category)) semantic = .ok resolved) :
    (mappingDocument textsDocument resolved).Regular rule := by
  have halong := Mapping.along_of_traverse h
  rw [regular_rolesDocument] at hsemantic ⊢
  rw [← halong.keys_eq]
  refine ⟨hsemantic.1, fun category roles hmem => ?_⟩
  obtain ⟨declared, hdeclared, _, hroles⟩ := halong.exists_left hmem
  rw [← (Mapping.along_of_traverse hroles).keys_eq]
  exact hsemantic.2 category declared hdeclared

/-- The tokens of every namespace are regular. -/
theorem regular_spaceTokens (h : HasSource rule config)
    (hresolve : resolveTheme config mode policy = .ok theme) (space : TokenSpace) :
    (config.spaceTokens theme space).Regular rule := by
  obtain ⟨r, hmake, -, hcolors, hsemantic⟩ := exists_of_resolveTheme hresolve
  obtain ⟨declared, p, hdeclared, -, rfl⟩ := exists_of_make hmake
  have heffects := h.regular.find? (show Mapping.find? _ "effects" = some _ from rfl)
  cases space with
  | colors =>
    rw [Config.spaceTokens, Config.orderedColors, ResolvedTheme.colorsDocument, hcolors]
    refine (h.regular_colors hdeclared).orderedLike fun r hr => ?_
    exact Option.mem_some_iff.mp hr ▸ h.regular_colorOrder
  | semantic =>
    refine (regular_resolved (h.regular_semantic hdeclared) hsemantic).orderedLike fun r hr => ?_
    exact Option.mem_some_iff.mp hr ▸ h.regular_roleOrder
  | spacing =>
    exact (h.regular.find? (show Mapping.find? _ "spacing" = some _ from rfl)).find?
      (show Mapping.find? _ "scale" = some _ from rfl)
  | fontSize =>
    exact (h.regular.find? (show Mapping.find? _ "typography" = some _ from rfl)).find?
      (show Mapping.find? _ "fontSize" = some _ from rfl)
  | shadows => exact heffects.find? (show Mapping.find? _ "shadows" = some _ from rfl)
  | borderRadius => exact heffects.find? (show Mapping.find? _ "borderRadius" = some _ from rfl)
  | gradients => exact heffects.find? (show Mapping.find? _ "gradients" = some _ from rfl)
  | blur => exact heffects.find? (show Mapping.find? _ "blur" = some _ from rfl)
  | opacity => exact heffects.find? (show Mapping.find? _ "opacity" = some _ from rfl)

/-- No token of one mode is listed twice. -/
theorem nodup_tokenList (h : HasSource rule config)
    (hresolve : resolveTheme config mode policy = .ok theme) : (config.tokenList theme).Nodup := by
  have hspaces : config.selectedSpaces.Nodup := List.Nodup.filter _ (by decide)
  rw [Config.tokenList, List.nodup_flatMap]
  constructor
  · intro space _
    refine List.Nodup.map ?_
      (.of_map _ (Document.nodup_leaves (regular_spaceTokens h hresolve space)))
    rintro ⟨keys, value⟩ ⟨_, _⟩ heq
    cases heq
    rfl
  · refine hspaces.imp fun hne token htoken hother => ?_
    obtain ⟨_, -, rfl⟩ := List.mem_map.mp htoken
    obtain ⟨_, -, heq⟩ := List.mem_map.mp hother
    exact hne (congrArg Token.space heq).symm

end Regular

/-! Where the leaves of the namespaces are. -/

section Leaf

variable {keys : List String} {value : String}

theorem leaf?_mappingDocument {α : Type} {write : α → Document} {m : Mapping α} :
    (mappingDocument write m).leaf? keys = some value ↔ ∃ key rest a, keys = key :: rest ∧
      Mapping.find? m key = some a ∧ (write a).leaf? rest = some value := by
  rw [mappingDocument]
  cases keys with
  | nil => simp [literal?]
  | cons key rest => cases h : Mapping.find? m key <;> simp [Mapping.find?_mapValues, h, and_assoc]

theorem leaf?_text {s : String} :
    (Document.text s).leaf? keys = some value ↔ keys = [] ∧ s = value := by
  cases keys <;> simp [literal?, Document.get?, Document.entries?]

theorem leaf?_textsDocument {m : Mapping String} :
    (textsDocument m).leaf? keys = some value ↔
      ∃ key, keys = [key] ∧ Mapping.find? m key = some value := by
  rw [textsDocument, leaf?_mappingDocument]
  simp only [leaf?_text]
  constructor
  · rintro ⟨key, _, _, rfl, hfind, rfl, rfl⟩
    exact ⟨key, rfl, hfind⟩
  · rintro ⟨key, rfl, hfind⟩
    exact ⟨key, [], value, rfl, hfind, rfl, rfl⟩

theorem leaf?_rolesDocument {semantic : Mapping (Mapping String)} :
    (mappingDocument textsDocument semantic).leaf? keys = some value ↔
      ∃ category role roles, keys = [category, role] ∧
        Mapping.find? semantic category = some roles ∧ Mapping.find? roles role = some value := by
  rw [leaf?_mappingDocument]
  simp only [leaf?_textsDocument]
  constructor
  · rintro ⟨category, _, roles, rfl, hroles, role, rfl, hrole⟩
    exact ⟨category, role, roles, rfl, hroles, hrole⟩
  · rintro ⟨category, role, roles, rfl, hroles, hrole⟩
    exact ⟨category, [role], roles, rfl, hroles, role, rfl, hrole⟩

/-- A single value is below its name, a grouped one below the names of its group and its own. -/
theorem leaf?_valuesDocument {values : Mapping ValueOrGroup} :
    (mappingDocument ValueOrGroup.toDocument values).leaf? keys = some value ↔
      (∃ name, keys = [name] ∧ Mapping.find? values name = some (.value value)) ∨
        ∃ name member members, keys = [name, member] ∧
          Mapping.find? values name = some (.group members) ∧
          Mapping.find? members member = some value := by
  rw [leaf?_mappingDocument]
  constructor
  · rintro ⟨name, rest, v, rfl, hfind, hleaf⟩
    cases v with
    | value s =>
      obtain ⟨rfl, rfl⟩ := leaf?_text.mp hleaf
      exact .inl ⟨name, rfl, hfind⟩
    | group members =>
      obtain ⟨member, rfl, hmember⟩ := leaf?_textsDocument.mp hleaf
      exact .inr ⟨name, member, members, rfl, hfind, hmember⟩
  · rintro (⟨name, rfl, hfind⟩ | ⟨name, member, members, rfl, hfind, hmember⟩)
    · exact ⟨name, [], _, rfl, hfind, leaf?_text.mpr ⟨rfl, rfl⟩⟩
    · exact ⟨name, [member], _, rfl, hfind, leaf?_textsDocument.mpr ⟨member, rfl, hmember⟩⟩

theorem leaf?_numbersDocument {values : Mapping TokenValue}
    (h : (mappingDocument TokenValue.toDocument values).leaf? keys = some value) :
    ∃ key, keys = [key] := by
  obtain ⟨key, rest, v, rfl, -, hleaf⟩ := leaf?_mappingDocument.mp h
  cases rest with
  | nil => exact ⟨key, rfl⟩
  | cons _ _ => cases v <;> simp [TokenValue.toDocument, Document.get?, Document.entries?] at hleaf

end Leaf

/-- A token is known by its address. -/
theorem eq_of_address (h : HasSource rule config)
    (hresolve : resolveTheme config mode policy = .ok theme) {token other : Token}
    (htoken : token ∈ config.tokenList theme) (hother : other ∈ config.tokenList theme)
    (hspace : token.space = other.space) (hkeys : token.keys = other.keys) : token = other := by
  obtain ⟨space, keys, value⟩ := token
  obtain ⟨_, _, value'⟩ := other
  obtain rfl : space = _ := hspace
  obtain rfl : keys = _ := hkeys
  have hregular := regular_spaceTokens h hresolve space
  have hvalue := (Document.mem_leaves_iff hregular).mp (mem_tokenList.mp htoken).2
  have hvalue' := (Document.mem_leaves_iff hregular).mp (mem_tokenList.mp hother).2
  obtain rfl : value = value' := Option.some.inj (hvalue.symm.trans hvalue')
  rfl

/-! Paths of different namespaces never meet. -/

namespace TokenSpace

/-- The segments with which the paths of a namespace start. -/
def segments (space : TokenSpace) : List String :=
  Text.split '.' space.path

theorem segments_inj {space other : TokenSpace} {keys more : List String}
    (h : space.segments ++ keys = other.segments ++ more) : space = other ∧ keys = more := by
  cases space <;> cases other <;>
    simp_all [segments, path, isEffect, name, Text.split, Text.splitList, Text.consPiece]

end TokenSpace

theorem split_path (token : Token) :
    Text.split '.' token.path = token.space.segments ++ pieces token.keys :=
  split_dotted _ _

/-- A small document with a spacing scale. -/
def spacedDocument (scale : List (Scalar × RawDocument)) : RawDocument :=
  .mapping [(.text "version", .scalar (.text "1.0")),
    (.text "theme", .mapping [(.text "default", .scalar (.text "light")),
      (.text "themes", .mapping [(.text "light", .mapping [(.text "colors", .mapping []),
        (.text "semantic", .mapping [])])])]),
    (.text "tokens", .mapping [(.text "prefix", .scalar (.text "tc")),
      (.text "output", .scalar (.text "./tokens")),
      (.text "formats", .list [.scalar (.text "css")])]),
    (.text "spacing", .mapping [(.text "scale", .mapping scale)])]

theorem parse_spaced (scale : List (Scalar × RawDocument))
    (hread : Config.read (spacedDocument scale).normalize = .valid config) :
    ∃ warnings, parse (spacedDocument scale).normalize = .ok (config, warnings) := by
  obtain ⟨entries, hentries, hfaults⟩ : ∃ entries,
      (spacedDocument scale).normalize = .mapping entries ∧ structureFaults entries = .ok [] :=
    ⟨_, rfl, by cbv⟩
  rw [hentries] at hread ⊢
  exact exists_parse hfaults hread

end DesignTokens
