import DesignTokens.Document.Basic
import DesignTokens.Style.Property

/-!
# Style rules

A rule is a list of property values together with nested rules, each under a selector in which `&`
stands for the selector of the rule around it.

## Main definitions

- `Rule` — properties and nested rules
- `Rule.isEmpty` — whether no property is set at any depth
- `Rule.toDocument` — a rule as a style object
- `Rule.render` — a rule as a stylesheet: one block for every node that has a property
-/

namespace DesignTokens

/-- Property values, and nested rules by selector. -/
structure Rule where
  properties : Mapping String
  nested : List (String × Rule)
  deriving Inhabited

namespace Rule

def empty : Rule :=
  ⟨[], []⟩

mutual
def isEmpty : Rule → Bool
  | ⟨properties, nested⟩ => properties.isEmpty && areEmpty nested

/-- Whether no property is set in any of the nested rules. -/
def areEmpty : List (String × Rule) → Bool
  | [] => true
  | (_, rule) :: rest => isEmpty rule && areEmpty rest
end

mutual
/-- A rule as a style object: the properties, then the nested rules under their selectors. -/
def toDocument : Rule → Document
  | ⟨properties, nested⟩ =>
    .mapping (Mapping.setAll (Mapping.mapValues .text properties) (nestedDocuments nested))

def nestedDocuments : List (String × Rule) → List (String × Document)
  | [] => []
  | (selector, rule) :: rest => (selector, toDocument rule) :: nestedDocuments rest
end

def declaration (margin : String) (property : String × String) : String :=
  margin ++ "  " ++ propertyName property.1 ++ ": " ++ property.2 ++ ";"

/-- The block of a selector; there is none without properties. -/
def block (margin selector : String) (properties : Mapping String) : List String :=
  if properties.isEmpty then []
  else [Text.join "\n" ((margin ++ selector ++ " \x7b") ::
    properties.map (declaration margin) ++ [margin ++ "\x7d"])]

def innerSelector (selector suffix : String) : String :=
  Text.substitute '&' selector suffix

mutual
/-- A rule as a stylesheet behind a margin: the block of its properties and what its nested rules
give, with blank lines between them. -/
def renderBehind (margin selector : String) : Rule → String
  | ⟨properties, nested⟩ =>
    Text.join "\n\n" (block margin selector properties ++ renderNested margin selector nested)

/-- Nested rules as stylesheets, in order and without the empty ones. -/
def renderNested (margin selector : String) : List (String × Rule) → List String
  | [] => []
  | (suffix, rule) :: rest =>
    let rendered := renderBehind margin (innerSelector selector suffix) rule
    if rendered = "" then renderNested margin selector rest
    else rendered :: renderNested margin selector rest
end

/-- A rule as a stylesheet, indented by a number of blanks. -/
def render (selector : String) (rule : Rule) (indent : Nat) : String :=
  renderBehind (Text.replicate indent ' ') selector rule

end Rule

end DesignTokens
