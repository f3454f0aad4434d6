import DesignTokens.Artifact.TokenSpace
import DesignTokens.Document.Flatten
import DesignTokens.Document.Order
import DesignTokens.Resolver

/-!
# The tokens of a configuration

What every artifact is made of. For one mode the tokens are listed with their paths; for several
modes they form one document. Colours and roles stand in the order of the default mode's theme, so
the artifacts of any two modes list the same tokens in the same order.

## Main definitions

- `Config.themeMaps` — the selected colours and roles of one mode
- `Config.tokenEntries` — the paths and values of all selected tokens in one mode
- `Config.tokenDocument` — the selected tokens of several modes as one document
-/

namespace DesignTokens

namespace Config

def colorOrder (config : Config) : Document :=
  mappingDocument ValueOrGroup.toDocument ((config.defaultTheme?.map Theme.colors).getD [])

def roleOrder (config : Config) : Document :=
  mappingDocument textsDocument ((config.defaultTheme?.map Theme.semantic).getD [])

/-- The colours of a mode in the default mode's order. -/
def orderedColors (config : Config) (theme : ResolvedTheme) : Document :=
  orderedLike theme.colorsDocument config.colorOrder

/-- The roles of a mode in the default mode's order. -/
def orderedRoles (config : Config) (theme : ResolvedTheme) : Document :=
  orderedLike theme.semanticDocument config.roleOrder

def themeMaps (config : Config) (theme : ResolvedTheme) : Mapping Document :=
  (if config.selects .colors then [("colors", config.orderedColors theme)] else []) ++
    (if config.selects .semantic then [("semantic", config.orderedRoles theme)] else [])

/-- The tokens of a namespace of the effects. -/
def effectTokens (effects : Effects) : TokenSpace → Document
  | .shadows => textsDocument effects.shadows
  | .borderRadius => textsDocument effects.borderRadius
  | .gradients => mappingDocument ValueOrGroup.toDocument effects.gradients
  | .blur => textsDocument effects.blur
  | .opacity => mappingDocument TokenValue.toDocument effects.opacity
  | _ => .mapping []

/-- The tokens of a namespace in one mode. -/
def spaceTokens (config : Config) (theme : ResolvedTheme) : TokenSpace → Document
  | .colors => config.orderedColors theme
  | .semantic => config.orderedRoles theme
  | .spacing => textsDocument config.spacing.scale
  | .fontSize => textsDocument config.typography.fontSize
  | space => effectTokens config.effects space

/-- The paths and values of all selected tokens in one mode, in canonical order. -/
def tokenEntries (config : Config) (theme : ResolvedTheme) : List (String × String) :=
  config.selectedSpaces.flatMap fun space => flatten space.path (config.spaceTokens theme space)

def themesDocument (config : Config) (themes : List ResolvedTheme) : Document :=
  .mapping (Mapping.ofEntries (themes.map fun theme =>
    (theme.mode, .mapping (config.themeMaps theme))))

def effectSections (config : Config) : Mapping Document :=
  (config.selectedSpaces.filter TokenSpace.isEffect).map fun space =>
    (space.name, effectTokens config.effects space)

/-- The selected tokens of several modes as one document. Breakpoints are always part of it. -/
def tokenDocument (config : Config) (themes : List ResolvedTheme) : Document :=
  .mapping ([("themes", config.themesDocument themes)] ++
    (if config.selects .spacing then [("spacing", config.spacing.present)] else []) ++
    (if config.selects .fontSize then [("typography", config.typography.present)] else []) ++
    (if config.effectSections.isEmpty then [] else [("effects", .mapping config.effectSections)]) ++
    [("breakpoints", mappingDocument Breakpoint.present config.responsive.breakpoints)])

end Config

end DesignTokens
