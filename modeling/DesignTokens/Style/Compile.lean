import DesignTokens.Resolver
import DesignTokens.Style.Entry
import DesignTokens.Style.Rule

/-!
# Compiling styles

A style object becomes a rule: references are resolved, literals stay, and the properties of an
interaction state go into a nested rule. A state that occurs twice has one nested rule, in which the
later properties and the later nested rules replace the earlier ones.

## Main definitions

- `Rule.put`, `Rule.nest` — a rule with one more property, and with one more state
- `compileEntries` — the rule of a list of entries
- `compileStyle` — the rule of a style object in one mode
-/

namespace DesignTokens

namespace Rule

/-- A rule with a property set. -/
def put (rule : Rule) (property value : String) : Rule :=
  { rule with properties := Mapping.set rule.properties property value }

/-- One rule laid over another: each property and each nested rule replaces that of its name. -/
def overlay (lower upper : Rule) : Rule :=
  ⟨Mapping.setAll lower.properties upper.properties, Mapping.setAll lower.nested upper.nested⟩

/-- A rule with a nested rule laid over what its selector has. -/
def nest (rule : Rule) (selector : String) (inner : Rule) : Rule :=
  let joined := match Mapping.find? rule.nested selector with
    | some existing => existing.overlay inner
    | none => inner
  { rule with nested := Mapping.set rule.nested selector joined }

end Rule

/-- The nested selector of a state, which must be an interaction state. -/
def stateSelector (name : String) : Except Failure String :=
  match stateSelector? name with
  | some selector => .ok selector
  | none => .error (.unknownState name)

mutual
/-- A rule with one more entry. -/
def addEntry (r : Resolver) (rule : Rule) (property : String) :
    StyleNode → Except Failure Rule
  | .literal value => .ok (rule.put property value)
  | .reference path => do .ok (rule.put property (← r.resolve path))
  | .state name entries => do
    let inner ← addEntries r .empty entries
    .ok (rule.nest (← stateSelector name) inner)

/-- A rule with more entries, in order. -/
def addEntries (r : Resolver) (rule : Rule) : List (String × StyleNode) → Except Failure Rule
  | [] => .ok rule
  | (property, node) :: rest => do
    let next ← addEntry r rule property node
    addEntries r next rest
end

def compileEntries (r : Resolver) (entries : List StyleEntry) : Except Failure Rule :=
  addEntries r .empty entries

/-- The rule of a style object in one mode. -/
def compileStyle (config : Config) (mode : String) (policy : Document)
    (style : Mapping Document) : Except Failure Rule := do
  let r ← Resolver.make config mode policy
  compileEntries r (styleEntries style)

end DesignTokens
