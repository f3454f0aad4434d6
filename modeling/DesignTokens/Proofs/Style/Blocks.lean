import DesignTokens.Proofs.Style.Compiled
import DesignTokens.Proofs.Style.Layering
import Mathlib.Data.List.Nodup

/-!
# Blocks and their cascade

A rule that is nested under interaction states is written as one block for every chain of states that
has a property. Where the blocks of several selectors apply to one element, the last declaration of a
property among them counts.

## Main definitions

- `StyleBlock`, `StyleBlock.text`, `StyleBlock.indented` — a selector with its declarations, and how
  they are written, also behind a margin
- `Rule.styleBlocks` — the blocks of a rule
- `Rule.Spans` — the chains of states that a rule has blocks for
- `applied`, `cascade` — the declarations under some selectors, and the one that counts
-/

namespace DesignTokens

/-- Declarations of a stylesheet: the properties under the names they have there. -/
def declarations (properties : Mapping String) : Mapping String :=
  properties.map fun property => (propertyName property.1, property.2)

/-- A selector with its declarations, in order. -/
structure StyleBlock where
  selector : String
  declarations : Mapping String
  deriving DecidableEq, Repr

/-- A block as it is written. -/
def StyleBlock.text (block : StyleBlock) : String :=
  Text.join "\n" ((block.selector ++ " \x7b") ::
    block.declarations.map (fun entry => "  " ++ entry.1 ++ ": " ++ entry.2 ++ ";") ++ ["\x7d"])

namespace StyleBlock

/-- A block as it is written behind a margin. -/
def indented (margin : String) (block : StyleBlock) : String :=
  Text.join "\n" ((margin ++ block.selector ++ " \x7b") ::
    block.declarations.map (fun entry => margin ++ "  " ++ entry.1 ++ ": " ++ entry.2 ++ ";") ++
      [margin ++ "\x7d"])

theorem text_eq (block : StyleBlock) : block.text = block.indented "" := by
  simp only [text, indented, String.empty_append]

theorem indented_ne_empty (margin : String) (block : StyleBlock) : block.indented margin ≠ "" := by
  have hlines : ∀ line ∈ (margin ++ block.selector ++ " \x7b") ::
      block.declarations.map (fun entry => margin ++ "  " ++ entry.1 ++ ": " ++ entry.2 ++ ";") ++
        [margin ++ "\x7d"], line ≠ "" := by
    simp only [List.cons_append, List.forall_mem_cons, List.forall_mem_append, List.forall_mem_map]
    simp
  rw [indented, Ne, Text.join_eq_empty_iff hlines]
  exact List.cons_ne_nil _ _

end StyleBlock

theorem join_indented_eq_empty_iff {margin : String} {blocks : List StyleBlock} :
    Text.join "\n\n" (blocks.map (StyleBlock.indented margin)) = "" ↔ blocks = [] := by
  rw [Text.join_eq_empty_iff, List.map_eq_nil_iff]
  intro piece hpiece
  obtain ⟨block, -, rfl⟩ := List.mem_map.mp hpiece
  exact block.indented_ne_empty margin

namespace Rule

mutual
/-- The blocks of a rule: its own before those of its nested rules. -/
def styleBlocks (selector : String) : Rule → List StyleBlock
  | ⟨properties, nested⟩ =>
    (if properties.isEmpty then [] else [⟨selector, declarations properties⟩]) ++
      nestedStyleBlocks selector nested

/-- The blocks of nested rules, in order. -/
def nestedStyleBlocks (selector : String) : List (String × Rule) → List StyleBlock
  | [] => []
  | (suffix, rule) :: rest =>
    styleBlocks (innerSelector selector suffix) rule ++ nestedStyleBlocks selector rest
end

theorem block_eq (margin selector : String) (properties : Mapping String) :
    block margin selector properties =
      (if properties.isEmpty then [] else [⟨selector, declarations properties⟩]).map
        (StyleBlock.indented margin) := by
  rw [block]
  split
  · rfl
  · simp only [List.map_cons, List.map_nil, StyleBlock.indented, declarations, List.map_map]
    rfl

mutual
/-- A rule is written block by block, although what is written for its nested rules is itself joined
from blocks and left out where there is none. -/
theorem renderBehind_eq (margin selector : String) (rule : Rule) :
    rule.renderBehind margin selector =
      Text.join "\n\n" ((rule.styleBlocks selector).map (StyleBlock.indented margin)) := by
  match rule with
  | ⟨properties, nested⟩ =>
    rw [renderBehind, styleBlocks, List.map_append, block_eq, join_renderNested]

theorem join_renderNested (margin selector : String) (first : List String)
    (nested : List (String × Rule)) :
    Text.join "\n\n" (first ++ renderNested margin selector nested) =
      Text.join "\n\n"
        (first ++ (nestedStyleBlocks selector nested).map (StyleBlock.indented margin)) := by
  match nested with
  | [] => rfl
  | (suffix, rule) :: rest =>
    rw [renderNested, nestedStyleBlocks, List.map_append, ← List.append_assoc,
      ← join_renderNested margin selector]
    have hrule := renderBehind_eq margin (innerSelector selector suffix) rule
    split
    · next hempty =>
      rw [hrule, join_indented_eq_empty_iff] at hempty
      rw [hempty, List.map_nil, List.append_nil]
    · next hempty =>
      rw [hrule, join_indented_eq_empty_iff] at hempty
      rw [hrule, List.append_assoc, Text.join_append_join_cons _ _ (by simpa using hempty)]
end

theorem render_eq (selector : String) (rule : Rule) :
    rule.render selector 0 = Text.join "\n\n" ((rule.styleBlocks selector).map StyleBlock.text) := by
  rw [render, renderBehind_eq, funext StyleBlock.text_eq]
  rfl

mutual
/-- A rule without a property has no block. -/
theorem isEmpty_iff (selector : String) (rule : Rule) :
    rule.isEmpty = true ↔ rule.styleBlocks selector = [] := by
  match rule with
  | ⟨properties, nested⟩ =>
    rw [isEmpty, styleBlocks, Bool.and_eq_true, List.append_eq_nil_iff, areEmpty_iff selector]
    refine and_congr_left fun _ => ?_
    split <;> simp_all

theorem areEmpty_iff (selector : String) (nested : List (String × Rule)) :
    areEmpty nested = true ↔ nestedStyleBlocks selector nested = [] := by
  match nested with
  | [] => simp [areEmpty, nestedStyleBlocks]
  | (suffix, rule) :: rest =>
    rw [areEmpty, nestedStyleBlocks, Bool.and_eq_true, List.append_eq_nil_iff,
      isEmpty_iff (innerSelector selector suffix), areEmpty_iff selector]
end

theorem innerSelector_selector (selector : String) (state : Interaction) :
    innerSelector selector state.selector = selector ++ (":" ++ state.key) := by
  have hkey : '&' ∉ state.key.toList := by cases state <;> decide
  have hstart : Text.substitute '&' selector "&:" = selector ++ ":" := by
    simp [Text.substitute, Text.substituteList]
  rw [innerSelector, Interaction.selector, Text.substitute_append, hstart,
    Text.substitute_of_not_mem hkey, String.append_assoc]

/-- The chains of states that a rule has properties for, in the order of its blocks. -/
structure Spans (rule : Rule) (chains : List (List Interaction)) : Prop where
  nodup : chains.Nodup
  mem_iff : ∀ chain, chain ∈ chains ↔ rule.propertiesAt chain ≠ []
  blocks : ∀ selector, rule.styleBlocks selector = chains.map fun chain =>
    ⟨selector ++ chainSuffix chain, declarations (rule.propertiesAt chain)⟩

section Spans

variable {properties : Mapping String} {nested rest : List (String × Rule)} {rule : Rule}

theorem propertiesAt_nest (state other : Interaction) (chain : List Interaction) :
    (⟨properties, (state.selector, rule) :: rest⟩ : Rule).propertiesAt (other :: chain) =
      if state = other then rule.propertiesAt chain
      else (⟨[], rest⟩ : Rule).propertiesAt (other :: chain) := by
  rw [propertiesAt, Mapping.find?_cons]
  by_cases h : state = other
  · rw [if_pos h, if_pos (congrArg _ h)]
  · rw [if_neg h, if_neg fun heq => h (Interaction.selector_injective heq), propertiesAt]

/-- A state in front of the nested rules puts its chains before theirs. -/
theorem Spans.cons {state : Interaction} {inner chains : List (List Interaction)}
    (fresh : state.selector ∉ Mapping.keys rest) (hrule : rule.Spans inner)
    (hrest : (⟨[], rest⟩ : Rule).Spans chains) :
    (⟨[], (state.selector, rule) :: rest⟩ : Rule).Spans (inner.map (state :: ·) ++ chains) := by
  have hnone : ∀ chain, state :: chain ∉ chains := by
    intro chain hmem
    refine (hrest.mem_iff _).mp hmem ?_
    rw [propertiesAt, (Mapping.find?_eq_none_iff _ _).mpr fresh]
  refine ⟨?_, ?_, ?_⟩
  · refine List.nodup_append.mpr ⟨hrule.nodup.map List.cons_injective, hrest.nodup, ?_⟩
    rintro _ hmem _ hchain rfl
    obtain ⟨chain, -, rfl⟩ := List.mem_map.mp hmem
    exact hnone chain hchain
  · intro chain
    rw [List.mem_append, List.mem_map]
    cases chain with
    | nil => simp [hrest.mem_iff, propertiesAt]
    | cons other chain =>
      rw [propertiesAt_nest]
      by_cases h : state = other
      · subst h
        simp [hrule.mem_iff, hnone]
      · simp [h, hrest.mem_iff]
  · intro selector
    have hblocks := hrest.blocks selector
    simp only [styleBlocks, List.isEmpty_nil, if_true, List.nil_append] at hblocks
    simp only [styleBlocks, List.isEmpty_nil, if_true, List.nil_append, nestedStyleBlocks,
      innerSelector_selector, hrule.blocks, hblocks, List.map_append, List.map_map]
    congr 1
    · refine List.map_congr_left fun chain _ => ?_
      simp [propertiesAt_nest, chainSuffix, String.append_assoc]
    · refine List.map_congr_left fun chain hmem => ?_
      cases chain with
      | nil => rfl
      | cons other chain =>
        have hne : ¬state = other := by
          rintro rfl
          exact hnone chain hmem
        rw [propertiesAt_nest, if_neg hne]

/-- Properties of its own put the empty chain before those of the nested rules. -/
theorem Spans.own {chains : List (List Interaction)} (h : (⟨[], nested⟩ : Rule).Spans chains) :
    (⟨properties, nested⟩ : Rule).Spans
      ((if properties.isEmpty then [] else [[]]) ++ chains) := by
  have hnil : [] ∉ chains := fun hmem => (h.mem_iff []).mp hmem rfl
  have hcons : ∀ state chain, (⟨properties, nested⟩ : Rule).propertiesAt (state :: chain) =
      (⟨[], nested⟩ : Rule).propertiesAt (state :: chain) := fun _ _ => by
    rw [propertiesAt, propertiesAt]
  refine ⟨?_, ?_, ?_⟩
  · split
    · exact h.nodup
    · exact List.nodup_cons.mpr ⟨hnil, h.nodup⟩
  · intro chain
    cases chain with
    | nil => cases properties <;> simp [hnil, propertiesAt]
    | cons state chain =>
      rw [hcons, ← h.mem_iff, List.mem_append]
      split <;> simp
  · intro selector
    have hblocks := h.blocks selector
    simp only [styleBlocks, List.isEmpty_nil, if_true, List.nil_append] at hblocks
    rw [styleBlocks, hblocks, List.map_append]
    congr 1
    · split
      · rfl
      · simp [chainSuffix, propertiesAt]
    · refine List.map_congr_left fun chain hmem => ?_
      cases chain with
      | nil => exact absurd hmem hnil
      | cons state chain => rw [hcons]

/-- A rule that is nested under interaction states has one block for every chain of states that it has
properties for. -/
theorem Tidy.exists_spans (h : rule.Tidy) : ∃ chains, rule.Spans chains := by
  induction h with
  | @mk properties nested nodup states tidy ih =>
    suffices hnested : ∃ chains, (⟨[], nested⟩ : Rule).Spans chains by
      obtain ⟨chains, hchains⟩ := hnested
      exact ⟨_, hchains.own⟩
    clear properties
    induction nested with
    | nil =>
      refine ⟨[], .nil, fun chain => ?_, fun _ => rfl⟩
      cases chain <;> simp [propertiesAt]
    | cons entry rest ihrest =>
      obtain ⟨fresh, hnodup⟩ := List.nodup_cons.mp nodup
      obtain ⟨⟨state, hstate⟩, hstates⟩ := List.forall_mem_cons.mp states
      obtain ⟨⟨inner, hinner⟩, hrest⟩ := List.forall_mem_cons.mp ih
      obtain ⟨chains, hchains⟩ := ihrest hnodup hstates (List.forall_mem_cons.mp tidy).2 hrest
      obtain ⟨_, rule⟩ := entry
      subst hstate
      exact ⟨_, .cons fresh hinner hchains⟩

end Spans

end Rule

/-- The declarations of the blocks under some selectors, in order. -/
def applied (blocks : List StyleBlock) (selectors : List String) : Mapping String :=
  (blocks.filter fun block => block.selector ∈ selectors).flatMap StyleBlock.declarations

/-- What the blocks under some selectors give to a property: the last declaration counts. -/
def cascade (blocks : List StyleBlock) (selectors : List String) (property : String) :
    Option String :=
  ((applied blocks selectors).filter fun entry => entry.1 = property).getLast?.map Prod.snd

/-- What a property is given as a text, where it is given one. -/
def Resolver.value (r : Resolver) (node : StyleNode) : String :=
  match r.valueOf node with
  | .ok value => value
  | .error _ => ""

/-- The last value that properties give is that of the last entry they come from. -/
theorem lastFor_of_gives {r : Resolver} {entries : List StyleEntry} {properties : Mapping String}
    (h : List.Forall₂ r.Gives entries properties) (property : String) :
    lastFor property properties = (lastFor property entries).map r.value := by
  have hproperties : properties = entries.map fun entry => (entry.1, r.value entry.2) := by
    induction h with
    | nil => rfl
    | @cons entry given _ _ head _ ih =>
      obtain ⟨name, value⟩ := given
      obtain ⟨rfl, hvalue⟩ := head
      rw [List.map_cons, ← ih, Resolver.value, hvalue]
  rw [hproperties, lastFor_map]

section Cascade

variable {blocks : List StyleBlock} {selectors : List String} {selector : String} {rule : Rule}
  {chains : List (List Interaction)} {chain : List Interaction} {properties : Mapping String}

theorem applied_flatMap {α : Type} (f : α → List StyleBlock) (l : List α)
    (selectors : List String) : applied (l.flatMap f) selectors = l.flatMap fun a => applied (f a) selectors := by
  rw [applied, List.filter_flatMap, List.flatMap_assoc]
  rfl

theorem cascade_of_applied (h : applied blocks selectors = declarations properties)
    (property : String) : cascade blocks selectors property = lastFor property properties := by
  rw [cascade, h, declarations, List.filter_map, List.getLast?_map, Option.map_map, lastFor]
  rfl

theorem applied_of_spans (h : rule.Spans chains) : applied (rule.styleBlocks selector) selectors =
    (chains.filter fun chain => selector ++ chainSuffix chain ∈ selectors).flatMap fun chain =>
      declarations (rule.propertiesAt chain) := by
  rw [applied, h.blocks, List.filter_map, List.flatMap_map]
  rfl

/-- Of a rule that meets the selectors for one chain of states only, the properties of that chain
apply. -/
theorem applied_of_iff (hrule : rule.Tidy)
    (h : ∀ other, rule.propertiesAt other ≠ [] →
      (selector ++ chainSuffix other ∈ selectors ↔ other = chain)) :
    applied (rule.styleBlocks selector) selectors = declarations (rule.propertiesAt chain) := by
  obtain ⟨chains, hspans⟩ := hrule.exists_spans
  have hfilter : (chains.filter fun other => selector ++ chainSuffix other ∈ selectors) =
      chains.filter fun other => other = chain :=
    List.filter_congr fun other hmem => decide_eq_decide.mpr (h other ((hspans.mem_iff _).mp hmem))
  rw [applied_of_spans hspans, hfilter, List.filter_eq]
  by_cases hchain : chain ∈ chains
  · rw [List.count_eq_one_of_mem hspans.nodup hchain]
    simp
  · have hempty := not_not.mp fun hne => hchain ((hspans.mem_iff chain).mpr hne)
    rw [List.count_eq_zero_of_not_mem hchain, hempty]
    rfl

/-- Of a rule that never meets the selectors nothing applies. -/
theorem applied_of_not_mem (hrule : rule.Tidy)
    (h : ∀ other, rule.propertiesAt other ≠ [] → selector ++ chainSuffix other ∉ selectors) :
    applied (rule.styleBlocks selector) selectors = [] := by
  obtain ⟨chains, hspans⟩ := hrule.exists_spans
  rw [applied_of_spans hspans, List.filter_eq_nil_iff.mpr, List.flatMap_nil]
  intro other hmem
  simpa using h other ((hspans.mem_iff _).mp hmem)

/-- The blocks of one rule give each property what the rule gives it last. -/
theorem cascade_styleBlocks (hrule : rule.Tidy) (selector : String) (chain : List Interaction)
    (property : String) :
    cascade (rule.styleBlocks selector) [selector ++ chainSuffix chain] property =
      lastFor property (rule.propertiesAt chain) := by
  refine cascade_of_applied (applied_of_iff hrule fun other _ => ?_) property
  rw [List.mem_singleton, String.append_right_inj, chainSuffix_injective.eq_iff]

end Cascade

end DesignTokens
