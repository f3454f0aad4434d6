import DesignTokens.Config.Basic

/-!
# Notices

The lines that every artifact opens with.
-/

namespace DesignTokens

def generatedNotice : String :=
  "Auto-generated by tokencraft - do not edit"

/-- The title of a configuration: its name, or a stock one in place of an empty or missing name. -/
def Config.title (config : Config) : String :=
  match config.name with
  | some "" => "tokencraft"
  | some name => name
  | none => "tokencraft"

def blockComment (text : String) : String :=
  "/* " ++ text ++ " */"

end DesignTokens
