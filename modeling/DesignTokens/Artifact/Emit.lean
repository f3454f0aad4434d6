import DesignTokens.Artifact.ComponentSheet
import DesignTokens.Artifact.DataModule
import DesignTokens.Artifact.Stylesheet
import DesignTokens.Artifact.Tailwind
import DesignTokens.Format
import DesignTokens.Mode.Sheet

/-!
# Artifacts

The artifact of each format. A format that is for one mode at a time needs exactly one theme; the
others take any number, or look at none.

## Main definitions

- `Config.emit` — the content of an artifact
- `Config.emitWarnings` — what was left out of it
-/

namespace DesignTokens

def theOnlyTheme : List ResolvedTheme → Except Failure ResolvedTheme
  | [theme] => .ok theme
  | themes => .error (.themeCount themes.length)

def modesSheet : String :=
  blockComment generatedNotice ++ "\n\n" ++ ModeRegistry.standard.sheet Transition.standard

namespace Config

/-- The content of an artifact. -/
def emit (config : Config) (policy : Policy) (themes : List ResolvedTheme) :
    Format → Except Failure String
  | .css => do .ok (config.customProperties (← theOnlyTheme themes))
  | .scss => do .ok (config.stylesheetVariables (← theOnlyTheme themes))
  | .json => .ok (config.dataFile themes)
  | .js => .ok (config.scriptModule themes)
  | .ts => .ok (config.typedModule themes)
  | .tailwind => .ok config.tailwindModule
  | .components => do
    let theme ← theOnlyTheme themes
    componentSheet (← Resolver.ofMode config theme.mode policy)
  | .modes => .ok modesSheet

def emitWarnings (config : Config) : Format → List StyleWarning
  | .components => config.componentWarnings
  | _ => []

end Config

end DesignTokens
