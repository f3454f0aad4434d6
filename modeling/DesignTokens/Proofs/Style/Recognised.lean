import DesignTokens.Proofs.Style.LeftOut
import DesignTokens.Proofs.Style.StateBlocks

/-!
# What the rule of a style object holds

The rule of a style object has a nested rule for each chain of states along which the style object
holds objects, and no other one. In it stands a property for each text, number and truth value of
the object of the chain, with the value of the reference or with the value's own text, and none for
anything else: what is left out of a style object is nowhere in its rule.

## Main definitions

- `Resolver.ComesTo` — the text that a literal gives a property
- `Rule.at?`, `Rule.propertyAt?` — the rule under a list of nested selectors, and a property of it
-/

namespace DesignTokens

/-- The text that a literal gives a property: the value of a text that is a reference, and otherwise
the literal's own text. -/
def Resolver.ComesTo (r : Resolver) : Document → String → Prop
  | .text s, value => if isReference s then r.resolve s = .ok value else value = s
  | .bool b, value => value = if b then "true" else "false"
  | .int n, value => value = toString n
  | .float x, value => value = x.render
  | _, _ => False

namespace Rule

/-- The rule under a list of nested selectors. -/
def at? : Rule → List String → Option Rule
  | rule, [] => some rule
  | rule, selector :: rest =>
    (Mapping.find? rule.nested selector).bind fun inner => at? inner rest

/-- A property of the rule under a list of nested selectors. -/
def propertyAt? (rule : Rule) (selectors : List String) (key : String) : Option String :=
  (rule.at? selectors).bind fun inner => Mapping.find? inner.properties key

end Rule

section Paths

variable {style block : Mapping Document} {chain : List Interaction} {key : String} {d : Document}

/-- The style object for a chain of states stands at the keys of the states. -/
theorem at?_chain_eq_some_iff : (Document.mapping style).at? (chain.map Interaction.key) =
    some (.mapping block) ↔ blockAt style chain = some block := by
  induction chain generalizing style with
  | nil => simp
  | cons state rest ih =>
    rw [List.map_cons, Document.at?_cons, Document.get?_mapping, blockAt_cons_eq_some_iff,
      Option.bind_eq_some_iff]
    constructor
    · rintro ⟨child, hchild, hblock⟩
      cases child with
      | mapping inner => exact ⟨inner, hchild, ih.mp hblock⟩
      | _ => cases rest <;> cases hblock
    · rintro ⟨inner, hinner, hblock⟩
      exact ⟨.mapping inner, hinner, ih.mpr hblock⟩

/-- An entry for a chain of states is one of the style object for the chain. -/
theorem at?_chain_key_eq_some_iff :
    (Document.mapping style).at? (chain.map Interaction.key ++ [key]) = some d ↔
      ∃ block, blockAt style chain = some block ∧ Mapping.find? block key = some d := by
  rw [Document.at?_append, Option.bind_eq_some_iff]
  constructor
  · rintro ⟨child, hchild, hd⟩
    cases child with
    | mapping block =>
      rw [Document.at?_cons, Document.get?_mapping] at hd
      obtain ⟨value, hfind, hvalue⟩ := Option.bind_eq_some_iff.mp hd
      cases (Document.at?_nil value).symm.trans hvalue
      exact ⟨block, at?_chain_eq_some_iff.mp hchild, hfind⟩
    | _ => cases hd
  · rintro ⟨block, hblock, hfind⟩
    exact ⟨.mapping block, at?_chain_eq_some_iff.mpr hblock, by simp [hfind]⟩

/-- What is left out stands at its path and gives nothing. -/
theorem mem_leftOut_iff_at? {leaf : LeafRule} (hstyle : (Document.mapping style).Regular leaf)
    {place : StylePlace} : place ∈ leftOut style ↔
      (Document.mapping style).at? place.path = some place.value ∧
        LeftOut place.key place.value := by
  rw [mem_leftOut hstyle, StylePlace.path, at?_chain_key_eq_some_iff]
  simp only [← and_assoc, exists_and_right]

/-- A literal for a chain of states is neither left out nor inside of something that is. -/
theorem not_prefix_of_leftOut {place : StylePlace}
    (hplace : (Document.mapping style).at? place.path = some place.value)
    (hleft : LeftOut place.key place.value)
    (hd : (Document.mapping style).at? (chain.map Interaction.key ++ [key]) = some d)
    (hliteral : d.isLiteral = true) : ¬place.path <+: chain.map Interaction.key ++ [key] := by
  intro hprefix
  rcases List.prefix_concat_iff.mp hprefix with heq | hbefore
  · rw [heq, hd] at hplace
    obtain rfl := Option.some.inj hplace
    exact absurd hliteral (by simp [hleft.1])
  · have hmem : place.key ∈ chain.map Interaction.key :=
      hbefore.subset (List.mem_append_right _ (List.mem_singleton_self _))
    obtain ⟨state, -, hstate⟩ := List.mem_map.mp hmem
    -- Under the name of a state only an object leads any further.
    have hplain : place.value.isMapping = false :=
      Bool.eq_false_iff.mpr fun hmapping => hleft.2 ⟨hmapping, state, hstate⟩
    have hne : place.path ≠ chain.map Interaction.key ++ [key] := by
      intro heq
      exact absurd (heq ▸ hbefore).length_le (by simp)
    have hnone := Document.HoldsLeaf.at?_eq_none ⟨_, hplace, hplain⟩ hprefix hne
    cases hd.symm.trans hnone

end Paths

section Compile

variable {r : Resolver} {style : Mapping Document} {rule inner : Rule} {leaf : LeafRule}
  {d : Document} {key value : String} {selectors : List String}

theorem comesTo_iff :
    r.ComesTo d value ↔ ∃ node, plainNode? d = some node ∧ r.valueOf node = .ok value := by
  cases d with
  | text s =>
    simp only [Resolver.ComesTo, plainNode?, Option.some.injEq, exists_eq_left', scalarNode]
    split <;> simp [Resolver.valueOf, eq_comm]
  | bool _ | int _ | float _ =>
    simp [Resolver.ComesTo, plainNode?, literal?, Resolver.valueOf, eq_comm]
  | _ => simp [Resolver.ComesTo, plainNode?, literal?]

/-- The properties of a rule are the literals of its style object. -/
theorem find?_properties_eq_some_iff (hnodup : (Mapping.keys style).Nodup)
    (h : compileEntries r (styleEntries style) = .ok rule) :
    Mapping.find? rule.properties key = some value ↔
      ∃ d, Mapping.find? style key = some d ∧ r.ComesTo d value := by
  obtain ⟨hgives, -⟩ := (compileEntries_eq_ok_iff hnodup).mp h
  simp only [comesTo_iff]
  constructor
  · intro hfind
    obtain ⟨⟨_, node⟩, hmem, rfl, hvalue⟩ :=
      exists_left_of_forall₂ hgives (Mapping.mem_of_find? hfind)
    obtain ⟨d, hd, hnode⟩ := Option.bind_eq_some_iff.mp ((mem_declared hnodup).mp hmem)
    exact ⟨d, hd, node, hnode, hvalue⟩
  · rintro ⟨d, hd, node, hnode, hvalue⟩
    have hmem : (key, node) ∈ declared style :=
      (mem_declared hnodup).mpr (Option.bind_eq_some_iff.mpr ⟨d, hd, hnode⟩)
    obtain ⟨⟨_, other⟩, hproperty, rfl, hother⟩ := exists_right_of_forall₂ hgives hmem
    cases hvalue.symm.trans hother
    exact Mapping.find?_of_mem (keyed_of_compiled h).properties hproperty

/-- Where a style object has a rule, so have its objects for chains of states. -/
theorem exists_compiled_block (hstyle : (Document.mapping style).Regular leaf)
    (h : compileEntries r (styleEntries style) = .ok rule) {chain : List Interaction}
    {block : Mapping Document} (hblock : blockAt style chain = some block) :
    ∃ inner, compileEntries r (styleEntries block) = .ok inner := by
  induction chain generalizing style rule with
  | nil =>
    cases hblock
    exact ⟨rule, h⟩
  | cons state rest ih =>
    obtain ⟨entries, hfind, hblock⟩ := blockAt_cons_eq_some_iff.mp hblock
    obtain ⟨-, hcompiles⟩ := (compileEntries_eq_ok_iff hstyle.nodup_keys).mp h
    obtain ⟨inner, -, hinner⟩ := find?_nested_of_some hstyle.nodup_keys hcompiles hfind
    exact ih (hstyle.find? hfind) hinner hblock

/-- The rules that are nested in the rule of a style object are those of its objects for chains of
states. -/
theorem at?_eq_some_iff (hstyle : (Document.mapping style).Regular leaf)
    (h : compileEntries r (styleEntries style) = .ok rule) : rule.at? selectors = some inner ↔
      ∃ chain block, selectors = chain.map Interaction.selector ∧ blockAt style chain = some block ∧
        compileEntries r (styleEntries block) = .ok inner := by
  induction selectors generalizing style rule with
  | nil =>
    constructor
    · rintro ⟨⟩
      exact ⟨[], style, rfl, rfl, h⟩
    · rintro ⟨chain, block, hchain, hblock, hinner⟩
      obtain rfl := List.map_eq_nil_iff.mp hchain.symm
      cases hblock
      cases h.symm.trans hinner
      rfl
  | cons selector rest ih =>
    have hnodup := hstyle.nodup_keys
    obtain ⟨-, hcompiles⟩ := (compileEntries_eq_ok_iff hnodup).mp h
    rw [Rule.at?, Option.bind_eq_some_iff]
    constructor
    · rintro ⟨mid, hmid, hinner⟩
      obtain ⟨⟨state, entries⟩, hstate, rfl, hentries⟩ :=
        exists_left_of_forall₂ hcompiles (Mapping.mem_of_find? hmid)
      have hfind := (mem_stateEntries hnodup).mp hstate
      obtain ⟨chain, block, rfl, hblock, hrule⟩ := (ih (hstyle.find? hfind) hentries).mp hinner
      exact ⟨state :: chain, block, rfl, (blockAt_cons_of_mapping hfind chain).trans hblock, hrule⟩
    · rintro ⟨_ | ⟨state, chain⟩, block, hchain, hblock, hinner⟩
      · cases hchain
      · obtain ⟨rfl, rfl⟩ := List.cons.inj hchain
        obtain ⟨entries, hfind, hblock⟩ := blockAt_cons_eq_some_iff.mp hblock
        obtain ⟨mid, hmid, hentries⟩ := find?_nested_of_some hnodup hcompiles hfind
        refine ⟨mid, hmid, (ih (hstyle.find? hfind) hentries).mpr ?_⟩
        exact ⟨chain, block, rfl, hblock, hinner⟩

theorem isLiteral_of_comesTo (h : r.ComesTo d value) : d.isLiteral = true := by
  obtain ⟨node, hnode, -⟩ := comesTo_iff.mp h
  rw [Document.isLiteral_eq, hnode, Option.isSome_some]

/-- The properties at any depth are the literals for chains of states. -/
theorem propertyAt?_eq_some_iff (hstyle : (Document.mapping style).Regular leaf)
    (h : compileEntries r (styleEntries style) = .ok rule) :
    rule.propertyAt? selectors key = some value ↔
      ∃ (chain : List Interaction) (d : Document), selectors = chain.map Interaction.selector ∧
        (Document.mapping style).at? (chain.map Interaction.key ++ [key]) = some d ∧
        r.ComesTo d value := by
  rw [Rule.propertyAt?, Option.bind_eq_some_iff]
  constructor
  · rintro ⟨inner, hinner, hvalue⟩
    obtain ⟨chain, block, rfl, hblock, hrule⟩ := (at?_eq_some_iff hstyle h).mp hinner
    have hnodup := (regular_blockAt hstyle hblock).nodup_keys
    obtain ⟨d, hd, hcomes⟩ := (find?_properties_eq_some_iff hnodup hrule).mp hvalue
    exact ⟨chain, d, rfl, at?_chain_key_eq_some_iff.mpr ⟨block, hblock, hd⟩, hcomes⟩
  · rintro ⟨chain, d, rfl, hd, hcomes⟩
    obtain ⟨block, hblock, hfind⟩ := at?_chain_key_eq_some_iff.mp hd
    obtain ⟨inner, hrule⟩ := exists_compiled_block hstyle h hblock
    have hnodup := (regular_blockAt hstyle hblock).nodup_keys
    exact ⟨inner, (at?_eq_some_iff hstyle h).mpr ⟨chain, block, rfl, hblock, hrule⟩,
      (find?_properties_eq_some_iff hnodup hrule).mpr ⟨d, hfind, hcomes⟩⟩

/-- Where a style object has a rule, every literal for a chain of states comes to a text. -/
theorem exists_comesTo (hstyle : (Document.mapping style).Regular leaf)
    (h : compileEntries r (styleEntries style) = .ok rule) {chain : List Interaction}
    (hd : (Document.mapping style).at? (chain.map Interaction.key ++ [key]) = some d)
    (hliteral : d.isLiteral = true) : ∃ value, r.ComesTo d value := by
  obtain ⟨block, hblock, hfind⟩ := at?_chain_key_eq_some_iff.mp hd
  rw [Document.isLiteral_eq] at hliteral
  obtain ⟨node, hnode⟩ := Option.isSome_iff_exists.mp hliteral
  have hmem : (key, node) ∈ declaredAt style chain := by
    rw [declaredAt_of_some hblock, mem_declared (regular_blockAt hstyle hblock).nodup_keys]
    exact Option.bind_eq_some_iff.mpr ⟨d, hfind, hnode⟩
  obtain ⟨value, hvalue⟩ := (exists_compiled_iff hstyle).mp ⟨rule, h⟩ chain _ hmem
  exact ⟨value, comesTo_iff.mpr ⟨node, hnode, hvalue⟩⟩

theorem exists_propertyAt?_iff (hstyle : (Document.mapping style).Regular leaf)
    (h : compileEntries r (styleEntries style) = .ok rule) {chain : List Interaction} :
    (∃ value, rule.propertyAt? (chain.map Interaction.selector) key = some value) ↔
      ∃ d, (Document.mapping style).at? (chain.map Interaction.key ++ [key]) = some d ∧
        d.isLiteral = true := by
  simp only [propertyAt?_eq_some_iff hstyle h]
  constructor
  · rintro ⟨value, other, d, hchain, hd, hcomes⟩
    obtain rfl : chain = other := Interaction.selector_injective.list_map hchain
    exact ⟨d, hd, isLiteral_of_comesTo hcomes⟩
  · rintro ⟨d, hd, hliteral⟩
    obtain ⟨value, hcomes⟩ := exists_comesTo hstyle h hd hliteral
    exact ⟨value, chain, d, rfl, hd, hcomes⟩

/-- The nested rules are those for the chains of states along which there are objects. -/
theorem exists_at?_iff (hstyle : (Document.mapping style).Regular leaf)
    (h : compileEntries r (styleEntries style) = .ok rule) :
    (∃ inner, rule.at? selectors = some inner) ↔
      ∃ chain : List Interaction, selectors = chain.map Interaction.selector ∧
        (Document.mapping style).HoldsMapping (chain.map Interaction.key) := by
  simp only [at?_eq_some_iff hstyle h, Document.HoldsMapping, at?_chain_eq_some_iff]
  constructor
  · rintro ⟨inner, chain, block, rfl, hblock, -⟩
    exact ⟨chain, rfl, block, hblock⟩
  · rintro ⟨chain, rfl, block, hblock⟩
    obtain ⟨inner, hinner⟩ := exists_compiled_block hstyle h hblock
    exact ⟨inner, chain, block, rfl, hblock, hinner⟩

end Compile

section Recognised

variable {config : Config} {mode : String} {policy : Document} {style : Mapping Document}
  {rule : Rule}

/-- A compiled style object keeps what is recognised in it, each value in its place. A nested rule
stands for each chain of states along which there are objects. In it is a property for each text,
number and truth value there, with the value of the reference or the value's own text. Each other
entry that is met is left out with one warning, in order, and nothing of it or inside of it is a
property. -/
theorem compileStyle_keeps_recognised (hstyle : (Document.mapping style).Regular .any)
    (h : compileStyle config mode policy style = .ok rule) :
    ∃ r, Resolver.make config mode policy = .ok r ∧
      (∀ (chain : List Interaction) (key : String),
        (∃ value, rule.propertyAt? (chain.map Interaction.selector) key = some value) ↔
          ∃ d, (Document.mapping style).at? (chain.map Interaction.key ++ [key]) = some d ∧
            d.isLiteral = true) ∧
      (∀ selectors key value, rule.propertyAt? selectors key = some value ↔
        ∃ (chain : List Interaction) (d : Document), selectors = chain.map Interaction.selector ∧
          (Document.mapping style).at? (chain.map Interaction.key ++ [key]) = some d ∧
          r.ComesTo d value) ∧
      (∀ selectors, (∃ inner, rule.at? selectors = some inner) ↔
        ∃ chain : List Interaction, selectors = chain.map Interaction.selector ∧
          (Document.mapping style).HoldsMapping (chain.map Interaction.key)) ∧
      (∀ selectors inner, rule.at? selectors = some inner → inner.Keyed) ∧
      ∃ dropped : List StylePlace, styleWarnings style = dropped.map StylePlace.warning ∧
        (∀ place, place ∈ dropped ↔
          (Document.mapping style).at? place.path = some place.value ∧
            LeftOut place.key place.value) ∧
        dropped.Nodup ∧
        (dropped.Pairwise fun place later =>
          (Document.mapping style).MetBefore place.path later.path) ∧
        ∀ place ∈ dropped, ∀ (chain : List Interaction) (key : String),
          place.path <+: chain.map Interaction.key ++ [key] →
            rule.propertyAt? (chain.map Interaction.selector) key = none := by
  obtain ⟨r, hmake, hrule⟩ := bind_eq_ok_iff.mp h
  refine ⟨r, hmake, fun chain key => exists_propertyAt?_iff hstyle hrule,
    fun selectors key value => propertyAt?_eq_some_iff hstyle hrule,
    fun selectors => exists_at?_iff hstyle hrule, fun selectors inner hinner => ?_,
    leftOut style, styleWarnings_eq style, fun place => mem_leftOut_iff_at? hstyle,
    nodup_leftOut hstyle, pairwise_leftOut hstyle, fun place hplace chain key hprefix => ?_⟩
  · obtain ⟨_, _, -, -, hcompiled⟩ := (at?_eq_some_iff hstyle hrule).mp hinner
    exact keyed_of_compiled hcompiled
  · refine Option.eq_none_iff_forall_ne_some.mpr fun value hvalue => ?_
    obtain ⟨d, hd, hliteral⟩ := (exists_propertyAt?_iff hstyle hrule).mp ⟨value, hvalue⟩
    obtain ⟨hat, hleft⟩ := (mem_leftOut_iff_at? hstyle).mp hplace
    exact not_prefix_of_leftOut hat hleft hd hliteral hprefix

/-- A style object with a state name that holds a text, an object under no state and a list. -/
def mixedStyle : Mapping Document :=
  [("color", .text "semantic.text.primary"),
    ("hover", .mapping [("active", .text "none"), ("before", .mapping [("color", .text "red")]),
      ("focus", .mapping [("outline", .bool false)])]),
    ("margins", .list [.int 1])]

theorem mixedStyle_recognised :
    (Document.mapping mixedStyle).Regular .any ∧
      ∃ (r : Resolver) (rule : Rule) (dropped : List StylePlace),
        compileStyle Config.standard "light" (.text "strict") mixedStyle = .ok rule ∧
        Resolver.make Config.standard "light" (.text "strict") = .ok r ∧
        (∃ value, rule.propertyAt? [] "color" = some value) ∧
        rule.propertyAt? ["&:hover"] "active" = some "none" ∧
        rule.propertyAt? ["&:hover", "&:focus"] "outline" = some "false" ∧
        rule.propertyAt? ["&:hover"] "before" = none ∧
        styleWarnings mixedStyle = dropped.map StylePlace.warning ∧
        ⟨[.hover], "before", .mapping [("color", .text "red")]⟩ ∈ dropped ∧
        ⟨[], "margins", .list [.int 1]⟩ ∈ dropped := by
  have hregular : (Document.mapping mixedStyle).Regular .any := by decide
  have hcompiled : compileStyle Config.standard "light" (.text "strict") mixedStyle = .ok
      ⟨[("color", "#111827")], [("&:hover", ⟨[("active", "none")],
        [("&:focus", ⟨[("outline", "false")], []⟩)]⟩)]⟩ := rfl
  obtain ⟨r, hmake, hpresent, hvalue, -, -, dropped, hwarnings, hmem, -, -, hdropped⟩ :=
    compileStyle_keeps_recognised hregular hcompiled
  have hbefore : ⟨[.hover], "before", .mapping [("color", .text "red")]⟩ ∈ dropped :=
    (hmem _).mpr ⟨rfl, by decide⟩
  exact ⟨hregular, r, _, dropped, hcompiled, hmake, (hpresent [] "color").mpr ⟨_, rfl, rfl⟩,
    (hvalue _ _ _).mpr ⟨[.hover], _, rfl, rfl, rfl⟩,
    (hvalue _ _ _).mpr ⟨[.hover, .focus], _, rfl, rfl, rfl⟩,
    hdropped _ hbefore [.hover] "before" (List.prefix_refl _), hwarnings, hbefore,
    (hmem _).mpr ⟨rfl, by decide⟩⟩

end Recognised

end DesignTokens
