import DesignTokens.Config.Basic
import DesignTokens.Config.Issue
import DesignTokens.Text.Word

/-!
# Reading a configuration

Each type of the configuration has a reader that gives its value or every issue. A declared field is
found under its key or, failing that, under its other spelling; an entry that no field takes is kept
as an extra. A missing field has its default, unless it is required.

## Main definitions

- `Read.text`, `Read.flag`, `Read.tokenValue`, … — readers of single values
- `FieldKey` — the two spellings of a field
- `Read.field`, `Read.extras` — a field of a section, and the entries no field takes
- `Config.read` — the reader of a whole configuration
-/

namespace DesignTokens

namespace Read

def text : Document → Checked String
  | .text s => .valid s
  | _ => .complain .text

def trueWords : List String := ["1", "t", "y", "on", "yes", "true"]

def falseWords : List String := ["0", "f", "n", "no", "off", "false"]

def smallAscii (s : String) : String :=
  String.ofList (s.toList.map Char.toLower)

/-- A truth value given by a word. -/
def flagWord (s : String) : Checked Bool :=
  let word := smallAscii s
  if trueWords.contains word then .valid true
  else if falseWords.contains word then .valid false
  else .complain .clearBoolean

/-- A truth value given by an integer. One of more than 64 bits is not looked at. -/
def flagNumber (n : Int) : Checked Bool :=
  if n = 1 then .valid true
  else if n = 0 then .valid false
  else if -0x8000000000000000 ≤ n && n < 0x8000000000000000 then .complain .clearBoolean
  else .complain .boolean

/-- A truth value, also one given by a word or a number. -/
def flag : Document → Checked Bool
  | .bool b => .valid b
  | .text s => flagWord s
  | .int n => flagNumber n
  | .float x => match x.toInt? with
    | some n => if n = -0x8000000000000000 then .complain .boolean else flagNumber n
    | none => .complain .boolean
  | _ => .complain .boolean

/-- A text or a number; a truth value is taken for a number. -/
def tokenValue : Document → Checked TokenValue
  | .text s => .valid (.text s)
  | .int n => .valid (.int n)
  | .float x => .valid (.float x)
  | .bool b => .valid (.int (if b then 1 else 0))
  | _ => @Checked.faulty _ [⟨["str"], .text⟩, ⟨["int"], .integer⟩, ⟨["float"], .number⟩] (by simp)

def optional {α : Type} (check : Document → Checked α) : Document → Checked (Option α)
  | .null => .valid none
  | d => some <$> check d

def listOf {α : Type} (check : Document → Checked α) : Document → Checked (List α)
  | .list items => Checked.ofList check 0 items
  | _ => .complain .list

def mappingOf {α : Type} (check : Document → Checked α) : Document → Checked (Mapping α)
  | .mapping entries => Checked.ofEntries check entries
  | _ => .complain .mapping

def any (d : Document) : Checked Document := .valid d

def valueOrGroup (d : Document) : Checked ValueOrGroup :=
  Checked.orElse "str" "dict[str,str]" (ValueOrGroup.value <$> text d)
    (ValueOrGroup.group <$> mappingOf text d)

def fontFamily (d : Document) : Checked FontFamily :=
  Checked.orElse "list[str]" "str" (FontFamily.stack <$> listOf text d)
    (FontFamily.single <$> text d)

end Read

/-- The key of a field, and the other spelling under which it is accepted. -/
structure FieldKey where
  key : String
  other : String

def FieldKey.only (key : String) : FieldKey := ⟨key, key⟩

/-- The entry that a field takes: the one under its key or, failing that, the one under its other
spelling. -/
def FieldKey.find? (field : FieldKey) (entries : Mapping Document) : Option (String × Document) :=
  match Mapping.find? entries field.key with
  | some d => some (field.key, d)
  | none => (Mapping.find? entries field.other).map (field.other, ·)

def FieldKey.takes (field : FieldKey) (entries : Mapping Document) (key : String) : Bool :=
  key = field.key || (key = field.other && !Mapping.has entries field.key)

namespace Read

/-- A field that must be present. -/
def required {α : Type} (entries : Mapping Document) (field : FieldKey)
    (check : Document → Checked α) : Checked α :=
  match field.find? entries with
  | some (key, d) => (check d).below key
  | none => (Checked.complain .required).below field.key

/-- A field that has a default. -/
def field {α : Type} (entries : Mapping Document) (field : FieldKey) (default : α)
    (check : Document → Checked α) : Checked α :=
  match field.find? entries with
  | some (key, d) => (check d).below key
  | none => .valid default

/-- The entries that no field takes. -/
def extras (fields : List FieldKey) (entries : Mapping Document) : Mapping Document :=
  entries.filter fun entry => !fields.any (·.takes entries entry.1)

/-- A section with the given fields; `model` names it in complaints. -/
def sectionOf {α : Type} (model : String) (fields : List FieldKey)
    (build : Mapping Document → Mapping Document → Checked α) : Document → Checked α
  | .mapping entries => build entries (extras fields entries)
  | _ => .complain (.model model)

end Read

open Read

namespace Theme

def colorsKey : FieldKey := .only "colors"
def semanticKey : FieldKey := .only "semantic"
def fieldKeys : List FieldKey := [colorsKey, semanticKey]

/-- Reads the theme of one mode. -/
def read : Document → Checked Theme :=
  sectionOf "ThemeDefinition" fieldKeys fun entries rest =>
    Theme.mk <$> field entries colorsKey [] (mappingOf valueOrGroup)
      <*> field entries semanticKey [] (mappingOf (mappingOf text))
      <*> .valid rest

end Theme

namespace ThemeCatalog

def defaultKey : FieldKey := .only "default"
def autoDetectKey : FieldKey := ⟨"autoDetect", "auto_detect"⟩
def storageKey : FieldKey := .only "storage"
def themesKey : FieldKey := .only "themes"
def fieldKeys : List FieldKey := [defaultKey, autoDetectKey, storageKey, themesKey]

def empty : ThemeCatalog := ⟨"light", true, true, [], []⟩

/-- Reads all themes. -/
def read : Document → Checked ThemeCatalog :=
  sectionOf "ThemeSection" fieldKeys fun entries rest =>
    ThemeCatalog.mk <$> field entries defaultKey empty.default text
      <*> field entries autoDetectKey empty.autoDetect flag
      <*> field entries storageKey empty.storage flag
      <*> field entries themesKey empty.themes (mappingOf Theme.read)
      <*> .valid rest

end ThemeCatalog

namespace TextStyle

def fontSizeKey : FieldKey := ⟨"fontSize", "font_size"⟩
def lineHeightKey : FieldKey := ⟨"lineHeight", "line_height"⟩
def letterSpacingKey : FieldKey := ⟨"letterSpacing", "letter_spacing"⟩
def fontWeightKey : FieldKey := ⟨"fontWeight", "font_weight"⟩
def fieldKeys : List FieldKey := [fontSizeKey, lineHeightKey, letterSpacingKey, fontWeightKey]

/-- Reads a text style. -/
def read : Document → Checked TextStyle :=
  sectionOf "TypographyScaleEntry" fieldKeys fun entries rest =>
    TextStyle.mk <$> required entries fontSizeKey text
      <*> field entries lineHeightKey none (optional tokenValue)
      <*> field entries letterSpacingKey none (optional text)
      <*> field entries fontWeightKey none (optional tokenValue)
      <*> .valid rest

end TextStyle

namespace Typography

def fontFamilyKey : FieldKey := ⟨"fontFamily", "font_family"⟩
def fontSizeKey : FieldKey := ⟨"fontSize", "font_size"⟩
def fontWeightKey : FieldKey := ⟨"fontWeight", "font_weight"⟩
def lineHeightKey : FieldKey := ⟨"lineHeight", "line_height"⟩
def letterSpacingKey : FieldKey := ⟨"letterSpacing", "letter_spacing"⟩
def scalesKey : FieldKey := .only "scales"
def fieldKeys : List FieldKey :=
  [fontFamilyKey, fontSizeKey, fontWeightKey, lineHeightKey, letterSpacingKey, scalesKey]

def empty : Typography := ⟨[], [], [], [], [], [], []⟩

/-- Reads a typography section. -/
def read : Document → Checked Typography :=
  sectionOf "TypographySpec" fieldKeys fun entries rest =>
    Typography.mk <$> field entries fontFamilyKey [] (mappingOf Read.fontFamily)
      <*> field entries fontSizeKey [] (mappingOf text)
      <*> field entries fontWeightKey [] (mappingOf tokenValue)
      <*> field entries lineHeightKey [] (mappingOf tokenValue)
      <*> field entries letterSpacingKey [] (mappingOf text)
      <*> field entries scalesKey [] (mappingOf (mappingOf TextStyle.read))
      <*> .valid rest

end Typography

namespace Spacing

def scaleKey : FieldKey := .only "scale"
def semanticKey : FieldKey := .only "semantic"
def fieldKeys : List FieldKey := [scaleKey, semanticKey]

def empty : Spacing := ⟨[], [], []⟩

/-- Reads a spacing section. -/
def read : Document → Checked Spacing :=
  sectionOf "SpacingSpec" fieldKeys fun entries rest =>
    Spacing.mk <$> field entries scaleKey [] (mappingOf text)
      <*> field entries semanticKey [] (mappingOf (mappingOf text))
      <*> .valid rest

end Spacing

namespace Effects

def shadowsKey : FieldKey := .only "shadows"
def borderRadiusKey : FieldKey := ⟨"borderRadius", "border_radius"⟩
def gradientsKey : FieldKey := .only "gradients"
def blurKey : FieldKey := .only "blur"
def opacityKey : FieldKey := .only "opacity"
def fieldKeys : List FieldKey :=
  [shadowsKey, borderRadiusKey, gradientsKey, blurKey, opacityKey]

def empty : Effects := ⟨[], [], [], [], [], []⟩

/-- Reads an effects section. -/
def read : Document → Checked Effects :=
  sectionOf "EffectsSpec" fieldKeys fun entries rest =>
    Effects.mk <$> field entries shadowsKey [] (mappingOf text)
      <*> field entries borderRadiusKey [] (mappingOf text)
      <*> field entries gradientsKey [] (mappingOf valueOrGroup)
      <*> field entries blurKey [] (mappingOf text)
      <*> field entries opacityKey [] (mappingOf tokenValue)
      <*> .valid rest

end Effects

namespace Breakpoint

def minKey : FieldKey := .only "min"
def maxKey : FieldKey := .only "max"
def fieldKeys : List FieldKey := [minKey, maxKey]

/-- Reads a breakpoint. -/
def read : Document → Checked Breakpoint :=
  sectionOf "Breakpoint" fieldKeys fun entries rest =>
    Breakpoint.mk <$> required entries minKey text
      <*> field entries maxKey none (optional text)
      <*> .valid rest

end Breakpoint

namespace Responsive

def autoDetectKey : FieldKey := ⟨"autoDetect", "auto_detect"⟩
def breakpointsKey : FieldKey := .only "breakpoints"
def containerSizesKey : FieldKey := ⟨"containerSizes", "container_sizes"⟩
def fieldKeys : List FieldKey := [autoDetectKey, breakpointsKey, containerSizesKey]

def empty : Responsive := ⟨true, [], [], []⟩

/-- Reads a responsive section. -/
def read : Document → Checked Responsive :=
  sectionOf "ResponsiveSpec" fieldKeys fun entries rest =>
    Responsive.mk <$> field entries autoDetectKey empty.autoDetect flag
      <*> field entries breakpointsKey [] (mappingOf Breakpoint.read)
      <*> field entries containerSizesKey [] (mappingOf text)
      <*> .valid rest

end Responsive

namespace OutputSettings

def prefixKey : FieldKey := .only "prefix"
def outputKey : FieldKey := .only "output"
def formatsKey : FieldKey := .only "formats"
def includeKey : FieldKey := .only "include"
def excludeKey : FieldKey := .only "exclude"
def fieldKeys : List FieldKey := [prefixKey, outputKey, formatsKey, includeKey, excludeKey]

/-- The settings of a configuration that gives none. -/
def standard : OutputSettings := ⟨"tc", "./tokens", ["css"], [], [], []⟩

/-- Reads output settings. -/
def read : Document → Checked OutputSettings :=
  sectionOf "TokensSpec" fieldKeys fun entries rest =>
    OutputSettings.mk <$> field entries prefixKey standard.variablePrefix text
      <*> field entries outputKey standard.output text
      <*> field entries formatsKey standard.formats (listOf text)
      <*> field entries includeKey [] (listOf text)
      <*> field entries excludeKey [] (listOf text)
      <*> .valid rest

end OutputSettings

namespace ComponentStyle

def baseKey : FieldKey := .only "base"
def variantsKey : FieldKey := .only "variants"
def sizesKey : FieldKey := .only "sizes"
def statesKey : FieldKey := .only "states"
def fieldKeys : List FieldKey := [baseKey, variantsKey, sizesKey, statesKey]

/-- Reads the styles of one component. -/
def read : Document → Checked ComponentStyle :=
  sectionOf "ComponentStyleDefinition" fieldKeys fun entries rest =>
    ComponentStyle.mk <$> field entries baseKey [] (mappingOf any)
      <*> field entries variantsKey [] (mappingOf (mappingOf any))
      <*> field entries sizesKey [] (mappingOf (mappingOf any))
      <*> field entries statesKey [] (mappingOf (mappingOf any))
      <*> .valid rest

end ComponentStyle

namespace ComponentLibrary

def outputKey : FieldKey := .only "output"
def typescriptKey : FieldKey := .only "typescript"
def libraryKey : FieldKey := .only "library"
def fieldKeys : List FieldKey := [outputKey, typescriptKey, libraryKey]

def empty : ComponentLibrary := ⟨"./components", true, [], []⟩

/-- Reads a component library. -/
def read : Document → Checked ComponentLibrary :=
  sectionOf "ComponentsSpec" fieldKeys fun entries rest =>
    ComponentLibrary.mk <$> field entries outputKey empty.output text
      <*> field entries typescriptKey empty.typescript flag
      <*> field entries libraryKey [] (mappingOf ComponentStyle.read)
      <*> .valid rest

end ComponentLibrary

namespace Config

def versionKey : FieldKey := .only "version"
def nameKey : FieldKey := .only "name"
def descriptionKey : FieldKey := .only "description"
def themeKey : FieldKey := .only "theme"
def typographyKey : FieldKey := .only "typography"
def spacingKey : FieldKey := .only "spacing"
def effectsKey : FieldKey := .only "effects"
def responsiveKey : FieldKey := .only "responsive"
def tokensKey : FieldKey := .only "tokens"
def componentsKey : FieldKey := .only "components"
def fieldKeys : List FieldKey :=
  [versionKey, nameKey, descriptionKey, themeKey, typographyKey, spacingKey, effectsKey,
   responsiveKey, tokensKey, componentsKey]

/-- Reads a whole configuration. -/
def read : Document → Checked Config :=
  sectionOf "TokenConfig" fieldKeys fun entries rest =>
    Config.mk <$> field entries versionKey (.text "1.0") tokenValue
      <*> field entries nameKey none (optional text)
      <*> field entries descriptionKey none (optional text)
      <*> field entries themeKey ThemeCatalog.empty ThemeCatalog.read
      <*> field entries typographyKey Typography.empty Typography.read
      <*> field entries spacingKey Spacing.empty Spacing.read
      <*> field entries effectsKey Effects.empty Effects.read
      <*> field entries responsiveKey Responsive.empty Responsive.read
      <*> field entries tokensKey OutputSettings.standard OutputSettings.read
      <*> field entries componentsKey ComponentLibrary.empty ComponentLibrary.read
      <*> .valid rest

end Config

end DesignTokens
