import DesignTokens.Artifact.Notice
import DesignTokens.Artifact.TokenSpace
import DesignTokens.Document.Merge
import DesignTokens.Document.Order
import DesignTokens.Json.Writer
import DesignTokens.Resolver

/-!
# Tailwind theme extension

The tokens as the theme extension of a Tailwind configuration. It is for no mode in particular:
the colours of all modes are merged with the default mode on top, and each semantic role is left to
its custom property.

## Main definitions

- `Config.utilityColors`, `Config.utilitySpacing`, `Config.utilityFontSizes` — sections of the theme
- `Config.themeExtension` — the theme extension
- `Config.tailwindModule` — the configuration that holds it
-/

namespace DesignTokens

def dashed (group name : String) : String :=
  group ++ "-" ++ name

namespace Config

/-- The modes whose colours are merged, the default one last. -/
def mergeOrder (config : Config) : List String :=
  config.modes.filter (· ≠ config.defaultMode) ++
    (if (config.defaultTheme?).isSome then [config.defaultMode] else [])

def modeColors (config : Config) (mode : String) : Mapping Document :=
  Mapping.mapValues ValueOrGroup.toDocument (((config.theme? mode).map Theme.colors).getD [])

def mergedColors (config : Config) : Mapping Document :=
  deepMergeAll [] (config.mergeOrder.map config.modeColors)

/-- The merged colours in the default mode's order. -/
def colorEntries (config : Config) : Mapping Document :=
  match config.defaultTheme? with
  | some theme =>
    let declared := Mapping.mapValues ValueOrGroup.toDocument theme.colors
    arrange (orderedEntries config.mergedColors declared) (Mapping.keys declared)
  | none => config.mergedColors

def roleVariables (config : Config) (category : String) (roles : Mapping String) : Document :=
  .mapping (roles.map fun role =>
    (role.1, .text (variableFallback config.variablePrefix (rolePath category role.1))))

def semanticVariables (config : Config) (theme : Theme) : Document :=
  .mapping (theme.semantic.map fun category =>
    (category.1, config.roleVariables category.1 category.2))

/-- The colours, with the roles under a key of their own. -/
def utilityColors (config : Config) : Mapping Document :=
  let colors := if config.selects .colors then config.colorEntries else []
  match config.defaultTheme? with
  | some theme =>
    if config.selects .semantic then
      Mapping.set colors "semantic" (config.semanticVariables theme)
    else colors
  | none => colors

def utilitySpacing (config : Config) : Mapping String :=
  Mapping.setAll config.spacing.scale
    (config.spacing.semantic.flatMap fun group =>
      group.2.map fun member => (dashed group.1 member.1, member.2))

/-- A font size, with the line height of the same name when there is one. -/
def sizedText (config : Config) (key size : String) : Document :=
  match Mapping.find? config.typography.lineHeight key with
  | some height =>
    .list [.text size, .mapping [("lineHeight", .text height.plain)]]
  | none => .text size

/-- A text style: its size, and what else it sets. -/
def styledText (style : TextStyle) : Document :=
  .list [.text style.fontSize, .mapping ((presentEntries style.declared style.extras).filter
    fun entry => entry.1 ≠ "fontSize" && entry.1 ≠ "font_size")]

/-- The font sizes and the text styles. -/
def utilityFontSizes (config : Config) : Mapping Document :=
  Mapping.setAll
    (config.typography.fontSize.map fun size => (size.1, config.sizedText size.1 size.2))
    (config.typography.scales.flatMap fun group =>
      group.2.map fun style => (dashed group.1 style.1, styledText style.2))

/-- The entries of a gradient or a group of gradients. -/
def gradientEntries (key : String) : ValueOrGroup → List (String × String)
  | .value s => [(key, s)]
  | .group members => members.map fun member => (dashed key member.1, member.2)

/-- The gradients, those of a group under names made of two parts. -/
def utilityGradients (config : Config) : Mapping String :=
  Mapping.ofEntries (config.effects.gradients.flatMap fun gradient =>
    gradientEntries gradient.1 gradient.2)

/-- A section of the theme if its namespace is selected. -/
def sectionOf (config : Config) (space : TokenSpace) (key : String) (value : Document) :
    Mapping Document :=
  if config.selects space then [(key, value)] else []

/-- The sections that the output settings select. -/
def selectedSections (config : Config) : Mapping Document :=
  (if config.selects .colors || config.selects .semantic then
    [("colors", .mapping config.utilityColors)] else []) ++
  config.sectionOf .spacing "spacing" (textsDocument config.utilitySpacing) ++
  config.sectionOf .fontSize "fontSize" (.mapping config.utilityFontSizes) ++
  config.sectionOf .shadows "boxShadow" (textsDocument config.effects.shadows) ++
  config.sectionOf .borderRadius "borderRadius" (textsDocument config.effects.borderRadius) ++
  config.sectionOf .gradients "backgroundImage" (textsDocument config.utilityGradients) ++
  config.sectionOf .blur "blur" (textsDocument config.effects.blur) ++
  config.sectionOf .opacity "opacity" (mappingDocument TokenValue.toDocument config.effects.opacity)

/-- The sections that are always written. -/
def fixedSections (config : Config) : Mapping Document :=
  let typography := config.typography
  [("fontFamily", mappingDocument FontFamily.toDocument typography.fontFamily),
   ("fontWeight", mappingDocument TokenValue.toDocument typography.fontWeight),
   ("lineHeight", mappingDocument TokenValue.toDocument typography.lineHeight),
   ("letterSpacing", textsDocument typography.letterSpacing),
   ("screens", mappingDocument (fun b => .text b.min) config.responsive.breakpoints),
   ("container", .mapping [("center", .bool true), ("padding", .text "1rem"),
     ("screens", textsDocument config.responsive.containerSizes)])]

def themeExtension (config : Config) : Document :=
  .mapping (config.selectedSections ++ config.fixedSections)

def contentGlobs : List String :=
  ["./src/**/*.\x7bjs,ts,jsx,tsx,mdx\x7d", "./components/**/*.\x7bjs,ts,jsx,tsx,mdx\x7d",
   "./app/**/*.\x7bjs,ts,jsx,tsx,mdx\x7d"]

/-- The configuration that holds the theme extension. -/
def tailwindModule (config : Config) : String :=
  "/** @type \x7bimport('tailwindcss').Config\x7d */\n" ++
  "// " ++ generatedNotice ++ "\n" ++
  "\n" ++
  "module.exports = \x7b\n" ++
  "  content: " ++ Json.indentedAt 1 (.list (contentGlobs.map .text)) ++ ",\n" ++
  "  darkMode: \"class\",\n" ++
  "  theme: \x7b\n" ++
  "    extend: " ++ Json.indentedAt 2 config.themeExtension ++ ",\n" ++
  "  \x7d,\n" ++
  "\x7d;\n"

end Config

end DesignTokens
