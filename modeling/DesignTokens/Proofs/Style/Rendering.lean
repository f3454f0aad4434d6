import DesignTokens.Proofs.Style.Blocks

/-!
# Rules as stylesheets

A rule is a tree of nested rules. Written as a stylesheet it is the blocks of those of its nodes that
have a property, each node before the rules that are nested in it, with a blank line between any two.
A node's selector is put together on the way to it, and a rule is written as the empty text exactly
when none of its nodes has a property.

## Main definitions

- `Rule.follow` — the nested rule at a position, with the selectors that lead to it
- `RuleNode`, `Rule.nodes` — the nodes of a rule, each before those below it
-/

namespace DesignTokens

/-- A node of a rule: which nested rules lead to it, under which selectors, and its properties. -/
structure RuleNode where
  /-- The places of the nested rules among their neighbours, from the outermost one on. -/
  position : List ℕ
  suffixes : List String
  properties : Mapping String

namespace RuleNode

/-- The same node, seen from the rule around the one it is a node of. -/
def under (index : ℕ) (suffix : String) (node : RuleNode) : RuleNode :=
  ⟨index :: node.position, suffix :: node.suffixes, node.properties⟩

/-- The block of a node: in each nested selector on the way to it, `&` stands for the full selector of
the rule around. -/
def block (selector : String) (node : RuleNode) : StyleBlock :=
  ⟨node.suffixes.foldl Rule.innerSelector selector, declarations node.properties⟩

end RuleNode

namespace Rule

/-- The rule at a position, with the nested selectors that lead to it. -/
def follow : Rule → List ℕ → Option (List String × Rule)
  | rule, [] => some ([], rule)
  | rule, index :: rest =>
    rule.nested[index]?.bind fun entry =>
      (follow entry.2 rest).map fun found => (entry.1 :: found.1, found.2)

mutual
/-- The nodes of a rule: the rule itself, then those of its nested rules. -/
def nodes : Rule → List RuleNode
  | ⟨properties, nested⟩ => ⟨[], [], properties⟩ :: nestedNodes 0 nested

/-- The nodes of nested rules, in order, of which the first one has an index. -/
def nestedNodes (index : ℕ) : List (String × Rule) → List RuleNode
  | [] => []
  | (suffix, rule) :: rest =>
    (nodes rule).map (RuleNode.under index suffix) ++ nestedNodes (index + 1) rest
end

section Nodes

variable {rule : Rule} {nested : List (String × Rule)} {node : RuleNode} {index : ℕ}

theorem mem_nestedNodes : node ∈ nestedNodes index nested ↔
    ∃ (i : ℕ) (entry : String × Rule), nested[i]? = some entry ∧
      ∃ below ∈ entry.2.nodes, below.under (index + i) entry.1 = node := by
  induction nested generalizing index with
  | nil => simp [nestedNodes]
  | cons entry rest ih =>
    obtain ⟨suffix, rule⟩ := entry
    rw [nestedNodes, List.mem_append, List.mem_map, ih]
    constructor
    · rintro (hbelow | ⟨i, entry, hentry, hbelow⟩)
      · exact ⟨0, (suffix, rule), rfl, hbelow⟩
      · exact ⟨i + 1, entry, hentry, by rwa [Nat.add_right_comm, Nat.add_assoc] at hbelow⟩
    · rintro ⟨_ | i, entry, hentry, hbelow⟩
      · cases hentry
        exact .inl hbelow
      · exact .inr ⟨i, entry, hentry, by rwa [Nat.add_right_comm, Nat.add_assoc]⟩

/-- Every rule at some position is a node, with its properties and the selectors that lead to it. -/
theorem mem_nodes : node ∈ rule.nodes ↔
    ∃ inner, rule.follow node.position = some (node.suffixes, inner) ∧
      inner.properties = node.properties := by
  obtain ⟨position, suffixes, properties⟩ := node
  induction position generalizing rule suffixes with
  | nil =>
    obtain ⟨own, nested⟩ := rule
    rw [nodes, List.mem_cons, mem_nestedNodes]
    constructor
    · rintro (hroot | ⟨i, entry, -, below, -, hbelow⟩)
      · cases hroot
        exact ⟨_, rfl, rfl⟩
      · cases hbelow
    · rintro ⟨inner, hfollow, rfl⟩
      cases hfollow
      exact .inl rfl
  | cons index rest ih =>
    obtain ⟨own, nested⟩ := rule
    rw [nodes, List.mem_cons, mem_nestedNodes]
    simp only [follow, Option.bind_eq_some_iff, Option.map_eq_some_iff]
    constructor
    · rintro (hroot | ⟨i, entry, hentry, ⟨position, inward, own⟩, hbelow, hunder⟩)
      · cases hroot
      · rw [Nat.zero_add] at hunder
        cases hunder
        obtain ⟨inner, hfollow, hproperties⟩ := (ih _).mp hbelow
        exact ⟨inner, ⟨entry, hentry, _, hfollow, rfl⟩, hproperties⟩
    · rintro ⟨inner, ⟨entry, hentry, ⟨inward, found⟩, hfollow, hfound⟩, hproperties⟩
      cases hfound
      refine .inr ⟨index, entry, hentry, ⟨rest, inward, properties⟩, ?_, ?_⟩
      · exact (ih _).mpr ⟨found, hfollow, hproperties⟩
      · rw [Nat.zero_add]
        rfl

mutual
/-- The nodes come in the order of their positions: each before those below it, and those of an earlier
nested rule before those of a later one. -/
theorem pairwise_nodes (rule : Rule) :
    rule.nodes.Pairwise fun node later => node.position < later.position := by
  match rule with
  | ⟨properties, nested⟩ =>
    rw [nodes, List.pairwise_cons]
    refine ⟨fun node hnode => ?_, pairwise_nestedNodes 0 nested⟩
    obtain ⟨i, entry, -, below, -, rfl⟩ := mem_nestedNodes.mp hnode
    exact List.nil_lt_cons _ _

theorem pairwise_nestedNodes (index : ℕ) (nested : List (String × Rule)) :
    (nestedNodes index nested).Pairwise fun node later => node.position < later.position := by
  match nested with
  | [] => exact .nil
  | (suffix, rule) :: rest =>
    rw [nestedNodes, List.pairwise_append, List.pairwise_map]
    refine ⟨(pairwise_nodes rule).imp fun h => List.cons_lt_cons_self.mpr h,
      pairwise_nestedNodes (index + 1) rest, fun node hnode later hlater => ?_⟩
    obtain ⟨below, -, rfl⟩ := List.mem_map.mp hnode
    obtain ⟨i, entry, -, other, -, rfl⟩ := mem_nestedNodes.mp hlater
    exact List.Lex.rel (by omega)
end

mutual
/-- The blocks of a rule are those of its nodes that have a property. -/
theorem styleBlocks_eq (selector : String) (rule : Rule) : rule.styleBlocks selector =
    (rule.nodes.filter fun node => !node.properties.isEmpty).map (RuleNode.block selector) := by
  match rule with
  | ⟨properties, nested⟩ =>
    rw [styleBlocks, nodes, List.filter_cons, nestedStyleBlocks_eq selector 0]
    cases properties <;> rfl

theorem nestedStyleBlocks_eq (selector : String) (index : ℕ) (nested : List (String × Rule)) :
    nestedStyleBlocks selector nested =
      ((nestedNodes index nested).filter fun node => !node.properties.isEmpty).map
        (RuleNode.block selector) := by
  match nested with
  | [] => rfl
  | (suffix, rule) :: rest =>
    rw [nestedStyleBlocks, nestedNodes, List.filter_append, List.map_append, List.filter_map,
      List.map_map, styleBlocks_eq, nestedStyleBlocks_eq selector (index + 1)]
    rfl
end

end Nodes

/-- A rule is written as the blocks of its nodes that have a property, with blank lines between them.
The nodes are the rules at all positions, each once and before those below it. Nothing is written
exactly for a rule without a property at any depth. -/
theorem render_preorder (rule : Rule) (selector : String) (indent : ℕ) :
    rule.render selector indent = Text.join "\n\n"
        ((rule.nodes.filter fun node => !node.properties.isEmpty).map fun node =>
          (node.block selector).indented (Text.replicate indent ' ')) ∧
      (∀ node, node ∈ rule.nodes ↔
        ∃ inner, rule.follow node.position = some (node.suffixes, inner) ∧
          inner.properties = node.properties) ∧
      (rule.nodes.Pairwise fun node later => node.position < later.position) ∧
      (rule.render selector indent = "" ↔ rule.isEmpty = true) := by
  have hrender := renderBehind_eq (Text.replicate indent ' ') selector rule
  refine ⟨?_, fun node => mem_nodes, pairwise_nodes rule, ?_⟩
  · rw [render, hrender, styleBlocks_eq, List.map_map]
    rfl
  · rw [render, hrender, join_indented_eq_empty_iff, ← isEmpty_iff]

/-- Nodes without properties leave nothing behind, neither at the root nor between it and a leaf. -/
example : render ".button" ⟨[], [("&:hover", ⟨[], [("&:focus", ⟨[("color", "red")], []⟩)]⟩),
      ("&:active", ⟨[("zIndex", "2"), ("opacity", "0.5")], []⟩)]⟩ 2 =
    "  .button:hover:focus \x7b\n    color: red;\n  \x7d\n\n" ++
      "  .button:active \x7b\n    z-index: 2;\n    opacity: 0.5;\n  \x7d" := by
  decide

end Rule

end DesignTokens
