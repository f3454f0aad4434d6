import DesignTokens.Document.Merge
import DesignTokens.Style.Compile

/-!
# Component styles

A component's style is its base with the styles of a variant, a size and a state laid over it. A name
that is not declared falls back to the entry `default`, and without one to no style.

## Main definitions

- `Selection` — the variant, size and state asked for
- `ComponentStyle.compose` — the style object of a selection
- `compileComponent` — its rule in one mode
-/

namespace DesignTokens

/-- The variant, size and state asked for. -/
structure Selection where
  variant : Option String
  size : Option String
  state : Option String
  deriving DecidableEq, Repr

/-- The style under a name, else the default one, else none. -/
def selectStyle (styles : Mapping (Mapping Document)) (name : Option String) :
    Mapping Document :=
  match name.bind (Mapping.find? styles) with
  | some style => style
  | none => (Mapping.find? styles "default").getD []

/-- The style object of a selection. -/
def ComponentStyle.compose (style : ComponentStyle) (selection : Selection) :
    Mapping Document :=
  deepMergeAll style.base
    [selectStyle style.variants selection.variant, selectStyle style.sizes selection.size,
      selectStyle style.states selection.state]

/-- The rule of a component's selection in one mode. -/
def compileComponent (style : ComponentStyle) (config : Config) (mode : String)
    (policy : Document) (selection : Selection) : Except Failure Rule :=
  compileStyle config mode policy (style.compose selection)

end DesignTokens
