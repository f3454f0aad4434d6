import DesignTokens.Config.Writing
import DesignTokens.Document.Merge
import DesignTokens.Resolver
import DesignTokens.Validation

/-!
# Extending a configuration

A configuration is changed by laying a partial document over its own document, or by adding a theme
that is built from a declared one. A laid-over configuration is checked for the types of its values;
an added theme is validated like a new document.

## Main definitions

- `Config.merge` — a partial document laid over a configuration
- `Config.mergeConfig` — a whole configuration laid over another
- `Config.extendTheme` — a theme added or replaced
-/

namespace DesignTokens

namespace Config

/-- A partial document laid over a configuration. -/
def merge (config : Config) (upper : Mapping Document) : Except Failure Config :=
  match Config.read (.mapping (deepMerge config.entries upper)) with
  | .valid merged => .ok merged
  | .faulty issues => .error (.refused (issues.map .mistyped))

/-- A whole configuration, its defaults included, laid over another. -/
def mergeConfig (config upper : Config) : Except Failure Config :=
  config.merge upper.entries

/-- A configuration with another prefix of its variable names. -/
def withPrefix (config : Config) (first : String) : Except Failure Config :=
  config.merge [("tokens", .mapping [("prefix", .text first)])]

/-- Several partial documents laid over a configuration one after another. -/
def mergeAll (config : Config) : List (Mapping Document) → Except Failure Config
  | [] => .ok config
  | upper :: rest => do (← config.merge upper).mergeAll rest

/-- The entries of a theme catalogue with one theme set. -/
def setTheme (catalog : ThemeCatalog) (mode : String) (theme : Document) : Document :=
  .mapping ([("default", .text catalog.default), ("autoDetect", .bool catalog.autoDetect),
    ("storage", .bool catalog.storage),
    ("themes", .mapping (Mapping.set (Mapping.mapValues Theme.toDocument catalog.themes) mode
      theme))] ++ settled catalog.extras)

/-- The theme document for a new mode: that of the base mode with a partial document laid over. -/
def derivedTheme (base : Theme) (upper : Mapping Document) : Document :=
  overlay base.toDocument (.mapping upper)

/-- A configuration with a theme built from a declared one, validated as a whole. -/
def extendTheme (config : Config) (base mode : String) (upper : Mapping Document) :
    Except Failure (Config × List String) := do
  let theme ← config.themeFor base
  let document := Mapping.set config.entries "theme"
    (setTheme config.theme mode (derivedTheme theme upper))
  parse (.mapping document)

end Config

end DesignTokens
