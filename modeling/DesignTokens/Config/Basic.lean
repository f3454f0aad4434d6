import DesignTokens.Document.Basic

/-!
# Configurations

The typed form of a design-token configuration: themed colours and roles, typography, spacing,
effects, breakpoints, output settings and the component style library. Every section keeps the
entries that it does not declare.

## Main definitions

- `Config` — the whole configuration
- `Theme`, `ThemeCatalog` — the colours and roles of one mode, and all modes
- `Typography`, `Spacing`, `Effects`, `Responsive` — the sections that no mode changes
- `OutputSettings`, `ComponentStyle`, `ComponentLibrary` — artifacts and component styles
- `Config.modes`, `Config.theme?` — the declared modes, and the theme of one
-/

namespace DesignTokens

/-- A text or a number. -/
inductive TokenValue where
  | text (s : String)
  | int (n : Int)
  | float (x : Double)
  deriving DecidableEq, Repr

/-- One value, or a group of named values. -/
inductive ValueOrGroup where
  | value (s : String)
  | group (members : Mapping String)
  deriving DecidableEq, Repr

/-- Font names in order of preference, or a single one. -/
inductive FontFamily where
  | stack (names : List String)
  | single (name : String)
  deriving DecidableEq, Repr

/-- The colours and semantic roles of one mode. A colour is a literal or a scale of steps; a role
belongs to a category and holds a literal or a reference to a colour. -/
structure Theme where
  colors : Mapping ValueOrGroup
  semantic : Mapping (Mapping String)
  extras : Mapping Document

/-- All themes by mode, and the mode used when none is asked for. -/
structure ThemeCatalog where
  default : String
  autoDetect : Bool
  storage : Bool
  themes : Mapping Theme
  extras : Mapping Document

/-- A named text style, such as the first heading. -/
structure TextStyle where
  fontSize : String
  lineHeight : Option TokenValue
  letterSpacing : Option String
  fontWeight : Option TokenValue
  extras : Mapping Document

/-- Font families, sizes, weights, heights and spacings, and the composite text styles. -/
structure Typography where
  fontFamily : Mapping FontFamily
  fontSize : Mapping String
  fontWeight : Mapping TokenValue
  lineHeight : Mapping TokenValue
  letterSpacing : Mapping String
  scales : Mapping (Mapping TextStyle)
  extras : Mapping Document

/-- The spacing scale, and spacings grouped by use. -/
structure Spacing where
  scale : Mapping String
  semantic : Mapping (Mapping String)
  extras : Mapping Document

/-- Shadows, radii, gradients, blurs and opacities. -/
structure Effects where
  shadows : Mapping String
  borderRadius : Mapping String
  gradients : Mapping ValueOrGroup
  blur : Mapping String
  opacity : Mapping TokenValue
  extras : Mapping Document

/-- A range of viewport widths. -/
structure Breakpoint where
  min : String
  max : Option String
  extras : Mapping Document

/-- Breakpoints and container sizes. -/
structure Responsive where
  autoDetect : Bool
  breakpoints : Mapping Breakpoint
  containerSizes : Mapping String
  extras : Mapping Document

/-- How and where artifacts are written. -/
structure OutputSettings where
  variablePrefix : String
  output : String
  formats : List String
  included : List String
  excluded : List String
  extras : Mapping Document

/-- The base style of a component with its variants, sizes and states. -/
structure ComponentStyle where
  base : Mapping Document
  variants : Mapping (Mapping Document)
  sizes : Mapping (Mapping Document)
  states : Mapping (Mapping Document)
  extras : Mapping Document

/-- All component styles by name. -/
structure ComponentLibrary where
  output : String
  typescript : Bool
  library : Mapping ComponentStyle
  extras : Mapping Document

/-- A design-token configuration. -/
structure Config where
  version : TokenValue
  name : Option String
  description : Option String
  theme : ThemeCatalog
  typography : Typography
  spacing : Spacing
  effects : Effects
  responsive : Responsive
  tokens : OutputSettings
  components : ComponentLibrary
  extras : Mapping Document

namespace Config

def modes (config : Config) : List String :=
  Mapping.keys config.theme.themes

def defaultMode (config : Config) : String :=
  config.theme.default

def theme? (config : Config) (mode : String) : Option Theme :=
  Mapping.find? config.theme.themes mode

def defaultTheme? (config : Config) : Option Theme :=
  config.theme? config.defaultMode

def variablePrefix (config : Config) : String :=
  config.tokens.variablePrefix

end Config

def TokenValue.plain : TokenValue → String
  | text s => s
  | int n => toString n
  | float x => x.render

end DesignTokens
