import DesignTokens.Proofs.Resolver.Themes
import DesignTokens.Proofs.Style.Chain

/-!
# The rule of a style object

Compiling a style object without repeated keys writes its properties one after another, and the rule
of each interaction state under the selector of the state. So for every chain of states the rule holds
the resolved properties of the style object for the chain, and there is a rule exactly when all of
them resolve.

## Main definitions

- `Resolver.valueOf` — the text that a property is given
- `Resolver.Gives`, `Resolver.Compiles` — an entry with its property, a state with its rule
- `Rule.propertiesAt` — the properties of a rule for a chain of states
- `Rule.Tidy` — a rule that is nested under interaction states, each at most once
-/

namespace DesignTokens

namespace Resolver

/-- The text that a property is given; a state gives none. -/
def valueOf (r : Resolver) : StyleNode → Except Failure String
  | .literal value => .ok value
  | .reference path => r.resolve path
  | .state name _ => .error (.unknownState name)

/-- An entry of a style object gives a property its value. -/
def Gives (r : Resolver) (entry : StyleEntry) (property : String × String) : Prop :=
  entry.1 = property.1 ∧ r.valueOf entry.2 = .ok property.2

/-- The style object of a state has the rule that is nested under its selector. -/
def Compiles (r : Resolver) (entry : Interaction × Mapping Document) (nested : String × Rule) :
    Prop :=
  entry.1.selector = nested.1 ∧ compileEntries r (styleEntries entry.2) = .ok nested.2

end Resolver

/-- The properties of a rule for a chain of states. -/
def Rule.propertiesAt : Rule → List Interaction → Mapping String
  | rule, [] => rule.properties
  | rule, state :: rest =>
    match Mapping.find? rule.nested state.selector with
    | some inner => propertiesAt inner rest
    | none => []

section Entries

variable {r : Resolver} {rule final : Rule} {key : String} {d : Document} {rest : Mapping Document}

/-- An entry of a style object is a property, a state or left out. -/
theorem entry_cases (key : String) (d : Document) :
    (∃ node, plainNode? d = some node ∧ stateOf? (key, d) = none ∧
        styleNode? key d = some node) ∨
      (∃ (state : Interaction) (entries : Mapping Document), state.key = key ∧
        d = .mapping entries ∧ stateOf? (key, d) = some (state, entries)) ∨
      plainNode? d = none ∧ stateOf? (key, d) = none ∧ styleNode? key d = none := by
  cases d with
  | mapping entries =>
    rw [styleNode?]
    cases hstate : Interaction.ofKey? key with
    | some state =>
      refine .inr (.inl ⟨state, entries, Interaction.ofKey?_eq_some_iff.mp hstate, rfl, ?_⟩)
      simp [stateOf?, Document.entries?, hstate]
    | none =>
      have hnot : ¬isState key = true := by
        rw [Interaction.isState_iff]
        rintro ⟨state, hkey⟩
        simp [Interaction.ofKey?_eq_some_iff.mpr hkey] at hstate
      refine .inr (.inr ⟨rfl, ?_, if_neg hnot⟩)
      simp [stateOf?, Document.entries?, hstate]
  | _ =>
    rw [styleNode?]
    · cases hnode : plainNode? _ with
      | none => exact .inr (.inr ⟨rfl, rfl, rfl⟩)
      | some node => exact .inl ⟨node, rfl, rfl, rfl⟩
    · simp

theorem addEntry_of_plainNode? {node : StyleNode} (h : plainNode? d = some node)
    (property : String) : addEntry r rule property node =
      r.valueOf node >>= fun value => .ok (rule.put property value) := by
  cases d with
  | text s =>
    cases h
    unfold scalarNode
    split <;> rfl
  | _ =>
    simp only [plainNode?] at h
    obtain ⟨value, -, rfl⟩ := Option.map_eq_some_iff.mp h
    rfl

theorem addEntries_property {node : StyleNode} (hnode : plainNode? d = some node)
    (hstyle : styleNode? key d = some node) :
    addEntries r rule (styleEntries ((key, d) :: rest)) = .ok final ↔
      ∃ value, r.valueOf node = .ok value ∧
        addEntries r (rule.put key value) (styleEntries rest) = .ok final := by
  simp only [styleEntries, hstyle, Option.toList_some, List.map_cons, List.map_nil,
    List.cons_append, List.nil_append, addEntries, addEntry_of_plainNode? hnode, bind_eq_ok_iff]
  constructor
  · rintro ⟨_, ⟨value, hvalue, heq⟩, h⟩
    cases heq
    exact ⟨value, hvalue, h⟩
  · rintro ⟨value, hvalue, h⟩
    exact ⟨_, ⟨value, hvalue, rfl⟩, h⟩

theorem addEntries_state {state : Interaction} {entries : Mapping Document} :
    addEntries r rule (styleEntries ((state.key, .mapping entries) :: rest)) = .ok final ↔
      ∃ inner, compileEntries r (styleEntries entries) = .ok inner ∧
        addEntries r (rule.nest state.selector inner) (styleEntries rest) = .ok final := by
  have hstate : isState state.key = true := Interaction.isState_iff.mpr ⟨state, rfl⟩
  simp only [styleEntries, styleNode?, hstate, if_true, Option.toList_some, List.map_cons,
    List.map_nil, List.cons_append, List.nil_append, addEntries, addEntry,
    Interaction.stateSelector_key, bind_eq_ok_iff, compileEntries]
  constructor
  · rintro ⟨_, ⟨inner, hinner, _, hselector, heq⟩, h⟩
    cases hselector
    cases heq
    exact ⟨inner, hinner, h⟩
  · rintro ⟨inner, hinner, h⟩
    exact ⟨_, ⟨inner, hinner, _, rfl, rfl⟩, h⟩

theorem addEntries_skipped (h : styleNode? key d = none) :
    addEntries r rule (styleEntries ((key, d) :: rest)) =
      addEntries r rule (styleEntries rest) := by
  simp only [styleEntries, h, Option.toList_none, List.map_nil, List.nil_append]

end Entries

section Compile

variable {r : Resolver} {style : Mapping Document} {final : Rule}

theorem Rule.put_of_not_mem {rule : Rule} {key : String} (h : key ∉ Mapping.keys rule.properties)
    (value : String) : rule.put key value = ⟨rule.properties ++ [(key, value)], rule.nested⟩ := by
  rw [put, Mapping.set_of_not_mem h]

theorem Rule.nest_of_not_mem {rule : Rule} {selector : String}
    (h : selector ∉ Mapping.keys rule.nested) (inner : Rule) :
    rule.nest selector inner = ⟨rule.properties, rule.nested ++ [(selector, inner)]⟩ := by
  rw [nest, (Mapping.find?_eq_none_iff _ _).mpr h, Mapping.set_of_not_mem h]

/-- Compiling the entries of a style object behind a rule that has none of their names adds their
properties and the rules of their states. -/
theorem addEntries_eq_ok_iff (rule : Rule) (hnodup : (Mapping.keys style).Nodup)
    (hproperties : ∀ key ∈ Mapping.keys style, key ∉ Mapping.keys rule.properties)
    (hnested : ∀ state : Interaction, state.key ∈ Mapping.keys style →
      state.selector ∉ Mapping.keys rule.nested) :
    addEntries r rule (styleEntries style) = .ok final ↔ ∃ properties nested,
      List.Forall₂ r.Gives (declared style) properties ∧
        List.Forall₂ r.Compiles (stateEntries style) nested ∧
        final = ⟨rule.properties ++ properties, rule.nested ++ nested⟩ := by
  induction style generalizing rule with
  | nil =>
    obtain ⟨properties, nested⟩ := rule
    simp [styleEntries, addEntries, declared, stateEntries, eq_comm]
  | cons entry rest ih =>
    obtain ⟨key, d⟩ := entry
    obtain ⟨fresh, hrest⟩ := List.nodup_cons.mp hnodup
    obtain ⟨hkey, hkeys⟩ := List.forall_mem_cons.mp hproperties
    have hselectors : ∀ state : Interaction, state.key ∈ Mapping.keys rest →
        state.selector ∉ Mapping.keys rule.nested :=
      fun state hmem => hnested state (List.mem_cons_of_mem _ hmem)
    rw [declared, stateEntries, List.filterMap_cons, List.filterMap_cons, ← declared, ← stateEntries]
    rcases entry_cases key d with ⟨node, hnode, hnone, hstyle⟩ | ⟨state, entries, rfl, rfl, hstate⟩ |
      ⟨hnode, hnone, hstyle⟩
    -- The property stands behind those of the rule, and no later entry has its name.
    · rw [addEntries_property hnode hstyle, hnode, hnone]
      have hfresh : ∀ value, ∀ key' ∈ Mapping.keys rest,
          key' ∉ Mapping.keys (rule.properties ++ [(key, value)]) := by
        intro value key' hmem
        have hne : key' ≠ key := fun heq => fresh (heq ▸ hmem)
        simp [hkeys key' hmem, hne]
      simp only [Rule.put_of_not_mem hkey, ih ⟨_, _⟩ hrest (hfresh _) hselectors]
      constructor
      · rintro ⟨value, hvalue, properties, nested, hgives, hcompiles, rfl⟩
        exact ⟨(key, value) :: properties, nested, .cons ⟨rfl, hvalue⟩ hgives, hcompiles, by simp⟩
      · rintro ⟨_, nested, hgives, hcompiles, rfl⟩
        obtain ⟨⟨_, value⟩, properties, ⟨rfl, hvalue⟩, hmore, rfl⟩ :=
          List.forall₂_cons_left_iff.mp hgives
        exact ⟨value, hvalue, properties, nested, hmore, hcompiles, by simp⟩
    -- So does the rule of the state.
    · rw [addEntries_state, hstate, plainNode?_mapping]
      have hfresh : ∀ inner, ∀ state' : Interaction, state'.key ∈ Mapping.keys rest →
          state'.selector ∉ Mapping.keys (rule.nested ++ [(state.selector, inner)]) := by
        intro inner state' hmem
        have hne : state'.selector ≠ state.selector := fun heq =>
          fresh (Interaction.selector_injective heq ▸ hmem)
        simp [hselectors state' hmem, hne]
      simp only [Rule.nest_of_not_mem (hnested state List.mem_cons_self),
        ih ⟨_, _⟩ hrest hkeys (hfresh _)]
      constructor
      · rintro ⟨inner, hinner, properties, nested, hgives, hcompiles, rfl⟩
        exact ⟨properties, (state.selector, inner) :: nested, hgives, .cons ⟨rfl, hinner⟩ hcompiles,
          by simp⟩
      · rintro ⟨properties, _, hgives, hcompiles, rfl⟩
        obtain ⟨⟨_, inner⟩, nested, ⟨rfl, hinner⟩, hmore, rfl⟩ :=
          List.forall₂_cons_left_iff.mp hcompiles
        exact ⟨inner, hinner, properties, nested, hgives, hmore, by simp⟩
    · rw [addEntries_skipped hstyle, ih rule hrest hkeys hselectors, hnode, hnone]
      rfl

/-- The rule of a style object has its properties, and the rules of its states. -/
theorem compileEntries_eq_ok_iff (hnodup : (Mapping.keys style).Nodup) :
    compileEntries r (styleEntries style) = .ok final ↔
      List.Forall₂ r.Gives (declared style) final.properties ∧
        List.Forall₂ r.Compiles (stateEntries style) final.nested := by
  rw [compileEntries, addEntries_eq_ok_iff _ hnodup (by simp [Rule.empty]) (by simp [Rule.empty])]
  constructor
  · rintro ⟨properties, nested, hgives, hcompiles, rfl⟩
    exact ⟨hgives, hcompiles⟩
  · rintro ⟨hgives, hcompiles⟩
    obtain ⟨properties, nested⟩ := final
    exact ⟨properties, nested, hgives, hcompiles, rfl⟩

theorem keys_nested {states : List (Interaction × Mapping Document)} {nested : List (String × Rule)}
    (h : List.Forall₂ r.Compiles states nested) :
    Mapping.keys nested = states.map fun entry => entry.1.selector := by
  induction h with
  | nil => rfl
  | cons head _ ih => rw [Mapping.keys_cons, List.map_cons, ih, head.1]

theorem nodup_nested {nested : List (String × Rule)} (hnodup : (Mapping.keys style).Nodup)
    (h : List.Forall₂ r.Compiles (stateEntries style) nested) : (Mapping.keys nested).Nodup := by
  rw [keys_nested h]
  refine List.pairwise_map.mpr ((pairwise_stateEntries hnodup).imp ?_)
  exact fun hne heq => hne (Interaction.selector_injective heq)

/-- A state is nested in the rule when the style object has an object for it. -/
theorem find?_nested_of_some {nested : List (String × Rule)} (hnodup : (Mapping.keys style).Nodup)
    (h : List.Forall₂ r.Compiles (stateEntries style) nested) {state : Interaction}
    {entries : Mapping Document}
    (hentries : Mapping.find? style state.key = some (.mapping entries)) :
    ∃ inner, Mapping.find? nested state.selector = some inner ∧
      compileEntries r (styleEntries entries) = .ok inner := by
  obtain ⟨⟨_, inner⟩, hmem, rfl, hinner⟩ :=
    exists_right_of_forall₂ h ((mem_stateEntries hnodup).mpr hentries)
  exact ⟨inner, Mapping.find?_of_mem (nodup_nested hnodup h) hmem, hinner⟩

theorem find?_nested_of_ne {nested : List (String × Rule)} (hnodup : (Mapping.keys style).Nodup)
    (h : List.Forall₂ r.Compiles (stateEntries style) nested) {state : Interaction}
    (hentries : ∀ entries, Mapping.find? style state.key ≠ some (.mapping entries)) :
    Mapping.find? nested state.selector = none := by
  cases hfind : Mapping.find? nested state.selector with
  | none => rfl
  | some inner =>
    obtain ⟨⟨other, entries⟩, hmem, hselector, -⟩ :=
      exists_left_of_forall₂ h (Mapping.mem_of_find? hfind)
    obtain rfl : other = state := Interaction.selector_injective hselector
    exact absurd ((mem_stateEntries hnodup).mp hmem) (hentries entries)

/-- For every chain of states the rule of a style object has the properties of the style object for
the chain, with their values. -/
theorem gives_propertiesAt {leaf : LeafRule} {rule : Rule}
    (hstyle : (Document.mapping style).Regular leaf)
    (h : compileEntries r (styleEntries style) = .ok rule) (chain : List Interaction) :
    List.Forall₂ r.Gives (declaredAt style chain) (rule.propertiesAt chain) := by
  induction chain generalizing style rule with
  | nil => exact ((compileEntries_eq_ok_iff hstyle.nodup_keys).mp h).1
  | cons state rest ih =>
    have hnodup := hstyle.nodup_keys
    obtain ⟨-, hcompiles⟩ := (compileEntries_eq_ok_iff hnodup).mp h
    by_cases hentries : ∃ entries, Mapping.find? style state.key = some (.mapping entries)
    · obtain ⟨entries, hentries⟩ := hentries
      obtain ⟨inner, hfind, hinner⟩ := find?_nested_of_some hnodup hcompiles hentries
      rw [declaredAt_congr (blockAt_cons_of_mapping hentries rest), Rule.propertiesAt, hfind]
      exact ih (hstyle.find? hentries) hinner
    -- Without a style object for the state the rule has nothing nested under it.
    · have hnone := not_exists.mp hentries
      rw [declaredAt_of_none (blockAt_cons_of_ne hnone rest), Rule.propertiesAt,
        find?_nested_of_ne hnodup hcompiles hnone]
      exact .nil

/-- A style object has a rule if all its properties have a value. -/
theorem exists_compiled {leaf : LeafRule} (hstyle : (Document.mapping style).Regular leaf)
    (h : ∀ chain, ∀ entry ∈ declaredAt style chain, ∃ value, r.valueOf entry.2 = .ok value) :
    ∃ rule, compileEntries r (styleEntries style) = .ok rule := by
  induction style using styleInduction with
  | step style ih =>
    have hnodup := hstyle.nodup_keys
    obtain ⟨properties, hgives⟩ :
        ∃ properties, List.Forall₂ r.Gives (declared style) properties := by
      refine exists_forall₂ fun entry hentry => ?_
      obtain ⟨value, hvalue⟩ := h [] entry hentry
      exact ⟨(entry.1, value), rfl, hvalue⟩
    obtain ⟨nested, hcompiles⟩ : ∃ nested, List.Forall₂ r.Compiles (stateEntries style) nested := by
      refine exists_forall₂ fun ⟨state, inner⟩ hstate => ?_
      have hfind := (mem_stateEntries hnodup).mp hstate
      have hinner : ∀ chain, ∀ entry ∈ declaredAt inner chain,
          ∃ value, r.valueOf entry.2 = .ok value := by
        intro chain entry hentry
        rw [← declaredAt_congr (blockAt_cons_of_mapping hfind chain)] at hentry
        exact h _ entry hentry
      obtain ⟨rule, hrule⟩ := ih _ _ (Mapping.mem_of_find? hfind) (hstyle.find? hfind) hinner
      exact ⟨(state.selector, rule), rfl, hrule⟩
    exact ⟨⟨properties, nested⟩, (compileEntries_eq_ok_iff hnodup).mpr ⟨hgives, hcompiles⟩⟩

theorem exists_compiled_iff {leaf : LeafRule} (hstyle : (Document.mapping style).Regular leaf) :
    (∃ rule, compileEntries r (styleEntries style) = .ok rule) ↔
      ∀ chain, ∀ entry ∈ declaredAt style chain, ∃ value, r.valueOf entry.2 = .ok value := by
  refine ⟨fun ⟨rule, hrule⟩ chain entry hentry => ?_, exists_compiled hstyle⟩
  obtain ⟨property, -, -, hvalue⟩ :=
    exists_right_of_forall₂ (gives_propertiesAt hstyle hrule chain) hentry
  exact ⟨property.2, hvalue⟩

end Compile

/-- A rule that is nested under interaction states only, each at most once at every depth. -/
inductive Rule.Tidy : Rule → Prop
  | mk {properties : Mapping String} {nested : List (String × Rule)}
      (nodup : (Mapping.keys nested).Nodup)
      (states : ∀ entry ∈ nested, ∃ state : Interaction, state.selector = entry.1)
      (inner : ∀ entry ∈ nested, Rule.Tidy entry.2) : Rule.Tidy ⟨properties, nested⟩

theorem tidy_of_compiled {r : Resolver} {leaf : LeafRule} {style : Mapping Document} {rule : Rule}
    (hstyle : (Document.mapping style).Regular leaf)
    (h : compileEntries r (styleEntries style) = .ok rule) : rule.Tidy := by
  induction style using styleInduction generalizing rule with
  | step style ih =>
    have hnodup := hstyle.nodup_keys
    obtain ⟨properties, nested⟩ := rule
    obtain ⟨-, hcompiles⟩ := (compileEntries_eq_ok_iff hnodup).mp h
    refine .mk (nodup_nested hnodup hcompiles) ?_ ?_
    · intro entry hentry
      obtain ⟨⟨state, _⟩, -, hselector, -⟩ := exists_left_of_forall₂ hcompiles hentry
      exact ⟨state, hselector⟩
    · intro entry hentry
      obtain ⟨⟨state, inner⟩, hstate, -, hinner⟩ := exists_left_of_forall₂ hcompiles hentry
      have hfind := (mem_stateEntries hnodup).mp hstate
      exact ih _ _ (Mapping.mem_of_find? hfind) (hstyle.find? hfind) hinner

end DesignTokens
