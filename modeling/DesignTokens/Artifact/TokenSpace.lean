import DesignTokens.Config.Basic

/-!
# Token spaces

The namespaces whose tokens go into artifacts, in the one order that all artifacts share. The output
settings select among them by name.

## Main definitions

- `TokenSpace` — the namespaces, with their names and the paths of their tokens
- `Config.selects`, `Config.selectedSpaces` — what the output settings select
-/

namespace DesignTokens

/-- A namespace whose tokens go into artifacts. -/
inductive TokenSpace where
  | colors
  | semantic
  | spacing
  | fontSize
  | shadows
  | borderRadius
  | gradients
  | blur
  | opacity
  deriving DecidableEq, Repr

namespace TokenSpace

/-- The namespaces in their canonical order. -/
def all : List TokenSpace :=
  [colors, semantic, spacing, fontSize, shadows, borderRadius, gradients, blur, opacity]

/-- The name by which output settings select a namespace. -/
def name : TokenSpace → String
  | colors => "colors"
  | semantic => "semantic"
  | spacing => "spacing"
  | fontSize => "typography.fontSize"
  | shadows => "shadows"
  | borderRadius => "borderRadius"
  | gradients => "gradients"
  | blur => "blur"
  | opacity => "opacity"

def isEffect : TokenSpace → Bool
  | shadows | borderRadius | gradients | blur | opacity => true
  | _ => false

def path (space : TokenSpace) : String :=
  if space.isEffect then "effects." ++ space.name else space.name

end TokenSpace

namespace Config

/-- Whether the output settings select a namespace: it is included, or nothing is, and it is not
excluded. -/
def selects (config : Config) (space : TokenSpace) : Bool :=
  (config.tokens.included.isEmpty || config.tokens.included.contains space.name) &&
    !config.tokens.excluded.contains space.name

def selectedSpaces (config : Config) : List TokenSpace :=
  TokenSpace.all.filter config.selects

end Config

end DesignTokens
