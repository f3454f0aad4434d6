import DesignTokens.Config.Standard
import DesignTokens.Proofs.Style.Compiled

/-!
# Blocks of one state

A list of entries may have several blocks of one interaction state. The rule of a later block is laid
over what the state has so far, so the properties of the later block win, and the entries of two
blocks may as well stand in one of them: in the earlier one, as long as no block of the state stands
between the two.

## Main definitions

- `HasBlock` — a list of entries has a block of a state
- `Gathers` — a block takes in the entries of a later block of its state, at some depth
- `Joinable` — blocks of one state that may be gathered without a change
- `Rule.Keyed` — a rule without repeated names
-/

namespace DesignTokens

/-- A list of entries has a block of a state, not looking into its blocks. -/
def HasBlock (entries : List StyleEntry) (state : String) : Prop :=
  ∃ key inner, (key, StyleNode.state state inner) ∈ entries

/-- Entries of which, at some depth, a block takes in the entries of a later block of its state, which
is left out. The state, the earlier block, the entries between and the later block are as asked for. -/
inductive Gathers (P : String → List StyleEntry → List StyleEntry → List StyleEntry → Prop) :
    List StyleEntry → List StyleEntry → Prop
  | here {state : String} {block between later : List StyleEntry} (h : P state block between later)
      (before after : List StyleEntry) (key key' : String) :
      Gathers P
        (before ++ (key, .state state block) :: (between ++ (key', .state state later) :: after))
        (before ++ (key, .state state (block ++ later)) :: (between ++ after))
  | inside {entries gathered : List StyleEntry} (h : Gathers P entries gathered)
      (before after : List StyleEntry) (key state : String) :
      Gathers P (before ++ (key, .state state entries) :: after)
        (before ++ (key, .state state gathered) :: after)

/-- No block of the state stands between two of them, and no state has a block in both. -/
structure Joinable (state : String) (block between later : List StyleEntry) : Prop where
  between : ¬HasBlock between state
  apart : ∀ other, HasBlock block other → ¬HasBlock later other

section Entries

variable {r : Resolver} {rule final : Rule} {entries : List StyleEntry}

theorem HasBlock.cons {state : String} (h : HasBlock entries state) (entry : StyleEntry) :
    HasBlock (entry :: entries) state := by
  obtain ⟨key, inner, hmem⟩ := h
  exact ⟨key, inner, List.mem_cons_of_mem _ hmem⟩

/-- What an entry does to a rule does not depend on the rule: there is no rule, a property is put, or
the rule of a state is nested. -/
theorem addEntry_cases (r : Resolver) (key : String) (node : StyleNode) :
    (∃ failure, ∀ rule, addEntry r rule key node = .error failure) ∨
      (∃ value, ∀ rule, addEntry r rule key node = .ok (rule.put key value)) ∨
      ∃ state inner selector nested, node = .state state inner ∧
        stateSelector state = .ok selector ∧
        ∀ rule, addEntry r rule key node = .ok (rule.nest selector nested) := by
  cases node with
  | literal value => exact .inr (.inl ⟨value, fun _ => rfl⟩)
  | reference path =>
    cases hvalue : r.resolve path with
    | error failure => exact .inl ⟨failure, fun rule => by rw [addEntry, hvalue]; rfl⟩
    | ok value => exact .inr (.inl ⟨value, fun rule => by rw [addEntry, hvalue]; rfl⟩)
  | state state inner =>
    cases hinner : addEntries r .empty inner with
    | error failure => exact .inl ⟨failure, fun rule => by rw [addEntry, hinner]; rfl⟩
    | ok nested =>
      cases hselector : stateSelector state with
      | error failure =>
        exact .inl ⟨failure, fun rule => by rw [addEntry, hinner, hselector]; rfl⟩
      | ok selector =>
        refine .inr (.inr ⟨state, inner, selector, nested, rfl, hselector, fun rule => ?_⟩)
        rw [addEntry, hinner, hselector]
        rfl

theorem addEntries_append (entries more : List StyleEntry) : addEntries r rule (entries ++ more) =
    addEntries r rule entries >>= fun next => addEntries r next more := by
  induction entries generalizing rule with
  | nil => rfl
  | cons entry rest ih =>
    obtain ⟨key, node⟩ := entry
    rw [List.cons_append, addEntries, addEntries]
    cases addEntry r rule key node with
    | error failure => rfl
    | ok next => exact ih

/-- What putting properties and nesting the rules of the given blocks preserve, the entries do. -/
theorem addEntries_induction {I : Rule → Prop} (hput : ∀ rule key value, I rule → I (rule.put key value))
    (hnest : ∀ rule state selector nested, HasBlock entries state →
      stateSelector state = .ok selector → I rule → I (rule.nest selector nested))
    (h : I rule) (hfinal : addEntries r rule entries = .ok final) : I final := by
  induction entries generalizing rule with
  | nil =>
    cases hfinal
    exact h
  | cons entry rest ih =>
    obtain ⟨key, node⟩ := entry
    obtain ⟨next, hnext, hrest⟩ := bind_eq_ok_iff.mp hfinal
    have hmore := fun rule state selector nested (hblock : HasBlock rest state) =>
      hnest rule state selector nested (hblock.cons _)
    refine ih hmore ?_ hrest
    obtain ⟨failure, hentry⟩ | ⟨value, hentry⟩ | ⟨state, inner, selector, nested, rfl, hselector, hentry⟩ :=
      addEntry_cases r key node
    · cases (hentry rule).symm.trans hnext
    · cases (hentry rule).symm.trans hnext
      exact hput rule key value h
    · cases (hentry rule).symm.trans hnext
      exact hnest rule state selector nested ⟨key, inner, List.mem_cons_self⟩ hselector h

/-- A change of the rule that puts and nests pass on, under what they preserve, may be made before the
entries or after them. -/
theorem addEntries_map {I : Rule → Prop} {f : Rule → Rule}
    (hput : ∀ rule key value, I rule →
      I (rule.put key value) ∧ f (rule.put key value) = (f rule).put key value)
    (hnest : ∀ rule state selector nested, HasBlock entries state →
      stateSelector state = .ok selector → I rule →
        I (rule.nest selector nested) ∧
          f (rule.nest selector nested) = (f rule).nest selector nested)
    (h : I rule) : addEntries r (f rule) entries = (addEntries r rule entries).map f := by
  induction entries generalizing rule with
  | nil => rfl
  | cons entry rest ih =>
    obtain ⟨key, node⟩ := entry
    have hmore := fun rule state selector nested (hblock : HasBlock rest state) =>
      hnest rule state selector nested (hblock.cons _)
    rw [addEntries, addEntries]
    obtain ⟨failure, hentry⟩ | ⟨value, hentry⟩ | ⟨state, inner, selector, nested, rfl, hselector, hentry⟩ :=
      addEntry_cases r key node
    · rw [hentry, hentry]
      rfl
    · obtain ⟨hkept, hcomm⟩ := hput rule key value h
      rw [hentry, hentry, ← hcomm]
      exact ih hmore hkept
    · obtain ⟨hkept, hcomm⟩ :=
        hnest rule state selector nested ⟨key, inner, List.mem_cons_self⟩ hselector h
      rw [hentry, hentry, ← hcomm]
      exact ih hmore hkept

end Entries

namespace Rule

variable {rule lower upper : Rule} {selector : String}

/-- A rule that has no property and no selector twice, not looking into its nested rules. -/
structure Keyed (rule : Rule) : Prop where
  properties : (Mapping.keys rule.properties).Nodup
  nested : (Mapping.keys rule.nested).Nodup

theorem keyed_empty : Keyed empty :=
  ⟨.nil, .nil⟩

theorem Keyed.put (h : rule.Keyed) (key value : String) : (rule.put key value).Keyed :=
  ⟨Mapping.nodup_keys_set h.properties _ _, h.nested⟩

theorem Keyed.nest (h : rule.Keyed) (selector : String) (inner : Rule) :
    (rule.nest selector inner).Keyed :=
  ⟨h.properties, Mapping.nodup_keys_set h.nested _ _⟩

theorem overlay_empty (rule : Rule) : rule.overlay empty = rule := by
  obtain ⟨properties, nested⟩ := rule
  rfl

theorem overlay_put (h : upper.Keyed) (lower : Rule) (key value : String) :
    lower.overlay (upper.put key value) = (lower.overlay upper).put key value := by
  rw [overlay, put, ← Mapping.set_setAll h.properties]
  rfl

/-- A state that the lower rule does not have is nested in the upper one. -/
theorem overlay_nest (h : upper.Keyed) (hnone : selector ∉ Mapping.keys lower.nested) (inner : Rule) :
    lower.overlay (upper.nest selector inner) = (lower.overlay upper).nest selector inner := by
  have hfind : Mapping.find? (Mapping.setAll lower.nested upper.nested) selector =
      Mapping.find? upper.nested selector := by
    rw [Mapping.find?_setAll h.nested, (Mapping.find?_eq_none_iff _ _).mpr hnone, Option.or_none]
  rw [overlay, nest, ← Mapping.set_setAll h.nested, nest, overlay, hfind]

theorem overlay_assoc (h : rule.Keyed) (lower upper : Rule) :
    (lower.overlay rule).overlay upper = lower.overlay (rule.overlay upper) := by
  rw [overlay, overlay, overlay, Mapping.setAll_setAll h.properties, Mapping.setAll_setAll h.nested]
  rfl

/-- Nesting two rules for a selector is nesting the one with the other laid over it. -/
theorem nest_nest (h : lower.Keyed) (rule : Rule) (selector : String) (upper : Rule) :
    (rule.nest selector lower).nest selector upper = rule.nest selector (lower.overlay upper) := by
  unfold nest
  simp only [Mapping.find?_set_self, Mapping.set_set]
  cases Mapping.find? rule.nested selector with
  | none => rfl
  | some inner => simp only [overlay_assoc h]

/-- Nesting for a selector that the rule has, and for another one, in either order. -/
theorem nest_comm (h : selector ∈ Mapping.keys rule.nested) {other : String} (hne : selector ≠ other)
    (inner inner' : Rule) : (rule.nest other inner').nest selector inner =
      (rule.nest selector inner).nest other inner' := by
  unfold nest
  simp only [Mapping.find?_set_of_ne _ _ hne.symm, Mapping.find?_set_of_ne _ _ hne,
    Mapping.set_comm h hne]

theorem mem_keys_nest (rule : Rule) (selector : String) (inner : Rule) :
    selector ∈ Mapping.keys (rule.nest selector inner).nested := by
  rw [← Mapping.find?_isSome_iff, nest, Mapping.find?_set_self, Option.isSome_some]

end Rule

section Blocks

variable {r : Resolver} {rule final inner : Rule} {state selector : String}
  {block between later entries : List StyleEntry}

theorem stateSelector_inj {other : String} (h : stateSelector state = .ok selector)
    (h' : stateSelector other = .ok selector) : state = other := by
  have hinteraction : ∀ {name : String}, stateSelector name = .ok selector →
      ∃ state : Interaction, state.key = name ∧ state.selector = selector := by
    intro name hname
    unfold stateSelector at hname
    split at hname
    · next hfind =>
      cases hname
      exact Interaction.stateSelector?_eq_some_iff.mp hfind
    · cases hname
  obtain ⟨first, rfl, hfirst⟩ := hinteraction h
  obtain ⟨second, rfl, hsecond⟩ := hinteraction h'
  rw [Interaction.selector_injective (hfirst.trans hsecond.symm)]

theorem keyed_of_compiled (h : compileEntries r entries = .ok rule) : rule.Keyed :=
  addEntries_induction (fun _ key value hkeyed => hkeyed.put key value)
    (fun _ _ selector inner _ _ hkeyed => hkeyed.nest selector inner) Rule.keyed_empty h

/-- What is nested in the rule of some entries is nested for one of their blocks. -/
theorem exists_block_of_mem_nested (h : compileEntries r entries = .ok rule)
    (hmem : selector ∈ Mapping.keys rule.nested) :
    ∃ state, HasBlock entries state ∧ stateSelector state = .ok selector := by
  refine addEntries_induction (I := fun rule => selector ∈ Mapping.keys rule.nested →
    ∃ state, HasBlock entries state ∧ stateSelector state = .ok selector) (fun _ _ _ h => h) ?_ ?_ h hmem
  · intro rule state other nested hblock hselector hrule hmem
    rw [Rule.nest, Mapping.keys_set] at hmem
    split at hmem
    · exact hrule hmem
    · rcases List.mem_append.mp hmem with hmem | hmem
      · exact hrule hmem
      · rw [List.mem_singleton.mp hmem]
        exact ⟨state, hblock, hselector⟩
  · simp [Rule.empty]

/-- The rule of two lists of entries with no state in common is that of the second one laid over that of
the first one. -/
theorem compileEntries_append (hapart : ∀ other, HasBlock block other → ¬HasBlock later other) :
    compileEntries r (block ++ later) =
      compileEntries r block >>= fun lower => (compileEntries r later).map lower.overlay := by
  rw [compileEntries, addEntries_append]
  cases hblock : addEntries r .empty block with
  | error failure =>
    rw [compileEntries, hblock]
    rfl
  | ok lower =>
    rw [compileEntries, hblock]
    -- The second list starts from the rule of the first one, which is that rule under the empty one.
    have hlaid : addEntries r (lower.overlay .empty) later =
        (addEntries r .empty later).map lower.overlay := by
      refine addEntries_map (I := Rule.Keyed) (fun upper key value hkeyed => ?_) ?_ Rule.keyed_empty
      · exact ⟨hkeyed.put key value, Rule.overlay_put hkeyed lower key value⟩
      · intro upper state selector nested hstate hselector hkeyed
        refine ⟨hkeyed.nest selector nested, Rule.overlay_nest hkeyed (fun hmem => ?_) nested⟩
        obtain ⟨other, hother, hsame⟩ := exists_block_of_mem_nested hblock hmem
        exact hapart other hother (stateSelector_inj hselector hsame ▸ hstate)
    rwa [Rule.overlay_empty] at hlaid

/-- Entries without a block of a state leave what is nested for it to be nested afterwards. -/
theorem addEntries_nest (hnone : ¬HasBlock between state) (hselector : stateSelector state = .ok selector)
    (h : selector ∈ Mapping.keys rule.nested) (inner : Rule) :
    addEntries r (rule.nest selector inner) between =
      (addEntries r rule between).map (·.nest selector inner) := by
  refine addEntries_map (I := fun rule => selector ∈ Mapping.keys rule.nested)
    (f := fun rule => rule.nest selector inner) (fun _ _ _ hmem => ⟨hmem, rfl⟩) ?_ h
  intro rule other selector' nested hblock hother hmem
  have hne : selector ≠ selector' := by
    rintro rfl
    exact hnone (stateSelector_inj hother hselector ▸ hblock)
  refine ⟨?_, Rule.nest_comm hmem hne inner nested⟩
  rw [Rule.nest, Mapping.keys_set]
  split
  · exact hmem
  · exact List.mem_append_left _ hmem

/-- A list of entries that starts with a block nests its rule first. -/
theorem addEntries_block {key : String} : addEntries r rule ((key, .state state block) :: entries) =
    .ok final ↔ ∃ inner selector, compileEntries r block = .ok inner ∧
      stateSelector state = .ok selector ∧
        addEntries r (rule.nest selector inner) entries = .ok final := by
  simp only [addEntries, addEntry, bind_eq_ok_iff, compileEntries]
  constructor
  · rintro ⟨_, ⟨inner, hinner, selector, hselector, ⟨⟩⟩, h⟩
    exact ⟨inner, selector, hinner, hselector, h⟩
  · rintro ⟨inner, selector, hinner, hselector, h⟩
    exact ⟨_, ⟨inner, hinner, selector, hselector, rfl⟩, h⟩

/-- Behind the rule of a block, a later block of its state may be left out when its rule is laid over
that of the earlier block. -/
theorem addEntries_later {key : String} {lower : Rule} (hnone : ¬HasBlock between state)
    (hselector : stateSelector state = .ok selector) (hkeyed : lower.Keyed)
    (after : List StyleEntry) :
    addEntries r (rule.nest selector lower) (between ++ (key, .state state later) :: after) =
        .ok final ↔
      ∃ upper, compileEntries r later = .ok upper ∧
        addEntries r (rule.nest selector (lower.overlay upper)) (between ++ after) = .ok final := by
  -- The entries between do not nest for the state, so its rule may as well be completed before them.
  have hnested : ∀ upper, addEntries r (rule.nest selector (lower.overlay upper)) between =
      (addEntries r (rule.nest selector lower) between).map (·.nest selector upper) := fun upper => by
    rw [← Rule.nest_nest hkeyed, addEntries_nest hnone hselector (Rule.mem_keys_nest _ _ _)]
  simp only [addEntries_append, bind_eq_ok_iff, addEntries_block, hnested, map_eq_ok_iff, hselector]
  constructor
  · rintro ⟨next, hnext, upper, _, hupper, ⟨⟩, hafter⟩
    exact ⟨upper, hupper, _, ⟨next, hnext, rfl⟩, hafter⟩
  · rintro ⟨upper, hupper, _, ⟨next, hnext, rfl⟩, hafter⟩
    exact ⟨next, hnext, upper, selector, hupper, rfl, hafter⟩

theorem addEntries_gathered {key key' : String} (h : Joinable state block between later)
    (after : List StyleEntry) :
    addEntries r rule
        ((key, .state state block) :: (between ++ (key', .state state later) :: after)) = .ok final ↔
      addEntries r rule ((key, .state state (block ++ later)) :: (between ++ after)) = .ok final := by
  rw [addEntries_block, addEntries_block]
  constructor
  · rintro ⟨lower, selector, hlower, hselector, hfinal⟩
    obtain ⟨upper, hupper, hafter⟩ :=
      (addEntries_later h.between hselector (keyed_of_compiled hlower) after).mp hfinal
    refine ⟨lower.overlay upper, selector, ?_, hselector, hafter⟩
    rw [compileEntries_append h.apart, hlower, hupper]
    rfl
  · rintro ⟨inner, selector, hinner, hselector, hafter⟩
    rw [compileEntries_append h.apart] at hinner
    obtain ⟨lower, hlower, hlaid⟩ := bind_eq_ok_iff.mp hinner
    obtain ⟨upper, hupper, rfl⟩ := map_eq_ok_iff.mp hlaid
    exact ⟨lower, selector, hlower, hselector,
      (addEntries_later h.between hselector (keyed_of_compiled hlower) after).mpr
        ⟨upper, hupper, hafter⟩⟩

/-- Where a block may take in the entries of a later block of its state, at whatever depth, there is a
rule with one block exactly when there is one with two, and it is the same. -/
theorem compile_gathered {split gathered : List StyleEntry} (h : Gathers Joinable split gathered)
    (rule : Rule) : compileEntries r split = .ok rule ↔ compileEntries r gathered = .ok rule := by
  induction h generalizing rule with
  | here hjoinable before after key key' =>
    rw [compileEntries, compileEntries, addEntries_append, addEntries_append, bind_eq_ok_iff,
      bind_eq_ok_iff]
    simp only [addEntries_gathered hjoinable]
  | inside _ before after key state ih =>
    simp only [compileEntries, addEntries_append, bind_eq_ok_iff, addEntries_block] at ih ⊢
    simp only [ih]

/-- A field in focus that has a link style in two blocks, with a property between them. -/
def splitLink : List StyleEntry :=
  [("outline", .literal "none"),
    ("focus", .state "focus"
      [("hover", .state "hover" [("color", .reference "semantic.interactive.primary"),
          ("active", .state "active" [("opacity", .literal "0.5")])]),
        ("padding", .literal "0"),
        ("hover", .state "hover" [("cursor", .literal "pointer"), ("color", .literal "#000000"),
          ("focus", .state "focus" [("outline", .literal "none")])])])]

/-- The link style in one block. -/
def gatheredLink : List StyleEntry :=
  [("outline", .literal "none"),
    ("focus", .state "focus"
      [("hover", .state "hover" [("color", .reference "semantic.interactive.primary"),
          ("active", .state "active" [("opacity", .literal "0.5")]),
          ("cursor", .literal "pointer"), ("color", .literal "#000000"),
          ("focus", .state "focus" [("outline", .literal "none")])]),
        ("padding", .literal "0")])]

theorem gathers_splitLink : Gathers Joinable splitLink gatheredLink := by
  have hjoinable : Joinable "hover"
      [("color", .reference "semantic.interactive.primary"),
        ("active", .state "active" [("opacity", .literal "0.5")])]
      [("padding", .literal "0")]
      [("cursor", .literal "pointer"), ("color", .literal "#000000"),
        ("focus", .state "focus" [("outline", .literal "none")])] := by
    constructor <;> simp [HasBlock]
  exact .inside (.here hjoinable [] [] "hover" "hover") [("outline", .literal "none")] [] "focus" "focus"

/-- The two blocks of the link and the one block give its focus the same rule. -/
theorem splitLink_rule : ∃ (r : Resolver) (rule : Rule),
    Resolver.make Config.standard "light" (.text "strict") = .ok r ∧
      Gathers Joinable splitLink gatheredLink ∧
      rule = ⟨[("outline", "none")], [("&:focus", ⟨[("padding", "0")],
        [("&:hover", ⟨[("color", "#000000"), ("cursor", "pointer")],
          [("&:active", ⟨[("opacity", "0.5")], []⟩), ("&:focus", ⟨[("outline", "none")], []⟩)]⟩)]⟩)]⟩ ∧
      compileEntries r splitLink = .ok rule ∧ compileEntries r gatheredLink = .ok rule :=
  ⟨_, _, rfl, gathers_splitLink, rfl, rfl, (compile_gathered gathers_splitLink _).mp rfl⟩

/-- A block of the state, with one property and its value. -/
def hoverBlock (key value : String) : StyleEntry :=
  ("hover", .state "hover" [(key, .literal value)])

/-- Without a condition, blocks may not be gathered. With a third block of the state between the two,
the later block has the last word before and the one between has it after. And of two blocks that both
have a block of one state, only the properties of the later one are left. -/
theorem exists_gathering_of_other_rule : ∃ r : Resolver,
    Resolver.make Config.standard "light" (.text "strict") = .ok r ∧
      (Gathers (fun _ _ _ _ => True)
          [hoverBlock "color" "red", hoverBlock "color" "blue", hoverBlock "color" "green"]
          [("hover", .state "hover" [("color", .literal "red"), ("color", .literal "green")]),
            hoverBlock "color" "blue"] ∧
        compileEntries r
            [hoverBlock "color" "red", hoverBlock "color" "blue", hoverBlock "color" "green"] =
          .ok ⟨[], [("&:hover", ⟨[("color", "green")], []⟩)]⟩ ∧
        compileEntries r
            [("hover", .state "hover" [("color", .literal "red"), ("color", .literal "green")]),
              hoverBlock "color" "blue"] =
          .ok ⟨[], [("&:hover", ⟨[("color", "blue")], []⟩)]⟩) ∧
      Gathers (fun _ _ _ _ => True)
          [("focus", .state "focus" [hoverBlock "color" "red"]),
            ("focus", .state "focus" [hoverBlock "outline" "none"])]
          [("focus", .state "focus" [hoverBlock "color" "red", hoverBlock "outline" "none"])] ∧
        compileEntries r
            [("focus", .state "focus" [hoverBlock "color" "red"]),
              ("focus", .state "focus" [hoverBlock "outline" "none"])] =
          .ok ⟨[], [("&:focus", ⟨[], [("&:hover", ⟨[("outline", "none")], []⟩)]⟩)]⟩ ∧
        compileEntries r
            [("focus", .state "focus" [hoverBlock "color" "red", hoverBlock "outline" "none"])] =
          .ok ⟨[], [("&:focus", ⟨[],
            [("&:hover", ⟨[("color", "red"), ("outline", "none")], []⟩)]⟩)]⟩ := by
  have hgather : ∀ state block between later, Gathers (fun _ _ _ _ => True)
      ((state, .state state block) :: (between ++ [(state, .state state later)]))
      ((state, .state state (block ++ later)) :: (between ++ [])) :=
    fun state _ _ _ => .here trivial [] [] state state
  exact ⟨_, rfl,
    ⟨hgather "hover" [("color", .literal "red")] [hoverBlock "color" "blue"]
      [("color", .literal "green")], rfl, rfl⟩,
    hgather "focus" [hoverBlock "color" "red"] [] [hoverBlock "outline" "none"], rfl, rfl⟩

end Blocks

end DesignTokens
