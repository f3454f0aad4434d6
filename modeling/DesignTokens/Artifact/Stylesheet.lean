import DesignTokens.Artifact.Notice
import DesignTokens.Artifact.Tokens

/-!
# Token stylesheets

The tokens of one mode as custom properties of the root element, or as variables of a stylesheet
language. The variable of a token is named after its path.

## Main definitions

- `Config.customProperties` — the custom properties of one mode
- `Config.stylesheetVariables` — the stylesheet variables of one mode
-/

namespace DesignTokens

namespace Config

def tokensTitle (config : Config) (theme : ResolvedTheme) : String :=
  config.title ++ " tokens: " ++ theme.mode

def propertyLine (config : Config) (token : String × String) : String :=
  "  " ++ variableName config.variablePrefix token.1 ++ ": " ++ token.2 ++ ";"

def variableLine (config : Config) (token : String × String) : String :=
  "$" ++ config.variablePrefix ++ "-" ++ variableSuffix token.1 ++ ": " ++ token.2 ++ ";"

/-- The custom properties of one mode, in the block of the root element. -/
def customProperties (config : Config) (theme : ResolvedTheme) : String :=
  Text.join "\n" ([blockComment (config.tokensTitle theme), blockComment generatedNotice, "",
    ":root \x7b"] ++ (config.tokenEntries theme).map config.propertyLine ++ ["\x7d"]) ++ "\n"

def stylesheetVariables (config : Config) (theme : ResolvedTheme) : String :=
  Text.join "\n" (["// " ++ config.tokensTitle theme, "// " ++ generatedNotice, ""] ++
    (config.tokenEntries theme).map config.variableLine) ++ "\n"

end Config

end DesignTokens
