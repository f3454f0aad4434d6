import DesignTokens.Artifact.Notice
import DesignTokens.Artifact.Tokens
import DesignTokens.Json.Writer

/-!
# Data modules

The tokens of several modes as data: a JSON file, or a JavaScript or TypeScript module that exports
them with an accessor for the theme of a mode.

## Main definitions

- `Config.dataFile` — the tokens as JSON
- `Config.scriptModule`, `Config.typedModule` — the tokens as a module, without and with types
-/

namespace DesignTokens

def unlines (lines : List String) : String :=
  String.join (lines.map (· ++ "\n"))

namespace Config

def dataText (config : Config) (themes : List ResolvedTheme) : String :=
  Json.indented (config.tokenDocument themes)

def dataFile (config : Config) (themes : List ResolvedTheme) : String :=
  config.dataText themes ++ "\n"

def moduleHeader : List String :=
  ["// Generated design tokens", "// " ++ generatedNotice, ""]

/-- The accessor of a theme, given the line that declares it, and the default export. -/
def moduleFooter (accessor : String) : List String :=
  ["", accessor ++ " \x7b", "  return tokens.themes[name];", "\x7d", "", "export default tokens;"]

def scriptModule (config : Config) (themes : List ResolvedTheme) : String :=
  unlines (moduleHeader ++ ["export const tokens = " ++ config.dataText themes ++ ";"] ++
    moduleFooter "export function getTheme(name)")

/-- The type whose values are the names of the given modes; without modes it has none. -/
def modeUnion (themes : List ResolvedTheme) : String :=
  if themes.isEmpty then "never"
  else Text.join " | " (themes.map fun theme => Json.quote .ascii theme.mode)

/-- The types of the token document. -/
def typeDeclarations : List String :=
  ["export interface ThemeTokens \x7b",
   "  colors?: Record<string, string | Record<string, string>>;",
   "  semantic?: Record<string, Record<string, string>>;",
   "\x7d",
   "",
   "export interface DesignTokens \x7b",
   "  themes: Record<ThemeName, ThemeTokens>;",
   "  spacing?: Record<string, Record<string, unknown>>;",
   "  typography?: Record<string, Record<string, unknown>>;",
   "  effects?: Record<string, Record<string, unknown>>;",
   "  breakpoints: Record<string, \x7b min: string; max?: string \x7d>;",
   "\x7d"]

/-- The tokens as a module with types. -/
def typedModule (config : Config) (themes : List ResolvedTheme) : String :=
  unlines (moduleHeader ++ ["export type ThemeName = " ++ modeUnion themes ++ ";", ""] ++
    typeDeclarations ++
    ["", "export const tokens: DesignTokens = " ++ config.dataText themes ++ ";"] ++
    moduleFooter "export function getTheme(name: ThemeName): ThemeTokens")

end Config

end DesignTokens
