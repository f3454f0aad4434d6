import DesignTokens.Config.Basic

/-!
# Writing a configuration

Each type of the configuration is written as the document that its reader reads: the declared fields
under their keys in order, then the extras. A second form leaves out what is null.

## Main definitions

- `Config.toDocument` — the document of a configuration
- `Typography.present`, `Breakpoint.present`, … — sections without their null entries
-/

namespace DesignTokens

def TokenValue.toDocument : TokenValue → Document
  | text s => .text s
  | int n => .int n
  | float x => .float x

def optionDocument {α : Type} (write : α → Document) : Option α → Document
  | some a => write a
  | none => .null

def mappingDocument {α : Type} (write : α → Document) (m : Mapping α) : Document :=
  .mapping (Mapping.mapValues write m)

def textsDocument (m : Mapping String) : Document :=
  mappingDocument .text m

def ValueOrGroup.toDocument : ValueOrGroup → Document
  | value s => .text s
  | group members => textsDocument members

def FontFamily.toDocument : FontFamily → Document
  | stack names => .list (names.map .text)
  | single name => .text name

/-- Extras as they are written: their values have no type. -/
def settled (extras : Mapping Document) : Mapping Document :=
  Document.settleEntries extras

/-- The entries that are not null. -/
def withoutNull (entries : Mapping Document) : Mapping Document :=
  entries.filter fun entry => match entry.2 with
    | .null => false
    | _ => true

/-- The entries of a section without its null entries. An extra that is null only as it is written
stays. -/
def presentEntries (declared extras : Mapping Document) : Mapping Document :=
  withoutNull declared ++ settled (withoutNull extras)

namespace Theme

def toDocument (theme : Theme) : Document :=
  .mapping ([("colors", mappingDocument ValueOrGroup.toDocument theme.colors),
    ("semantic", mappingDocument textsDocument theme.semantic)] ++ settled theme.extras)

end Theme

def ThemeCatalog.toDocument (catalog : ThemeCatalog) : Document :=
  .mapping ([("default", .text catalog.default), ("autoDetect", .bool catalog.autoDetect),
    ("storage", .bool catalog.storage),
    ("themes", mappingDocument Theme.toDocument catalog.themes)] ++ settled catalog.extras)

namespace TextStyle

/-- The declared fields of a text style. -/
def declared (style : TextStyle) : Mapping Document :=
  [("fontSize", .text style.fontSize),
    ("lineHeight", optionDocument TokenValue.toDocument style.lineHeight),
    ("letterSpacing", optionDocument .text style.letterSpacing),
    ("fontWeight", optionDocument TokenValue.toDocument style.fontWeight)]

def toDocument (style : TextStyle) : Document :=
  .mapping (style.declared ++ settled style.extras)

/-- A text style without its null entries. -/
def present (style : TextStyle) : Document :=
  .mapping (presentEntries style.declared style.extras)

end TextStyle

namespace Typography

/-- The declared fields of a typography section, given how a text style is written. -/
def declared (write : TextStyle → Document) (typography : Typography) : Mapping Document :=
  [("fontFamily", mappingDocument FontFamily.toDocument typography.fontFamily),
    ("fontSize", textsDocument typography.fontSize),
    ("fontWeight", mappingDocument TokenValue.toDocument typography.fontWeight),
    ("lineHeight", mappingDocument TokenValue.toDocument typography.lineHeight),
    ("letterSpacing", textsDocument typography.letterSpacing),
    ("scales", mappingDocument (mappingDocument write) typography.scales)]

def toDocument (typography : Typography) : Document :=
  .mapping (typography.declared TextStyle.toDocument ++ settled typography.extras)

/-- A typography section without null entries. -/
def present (typography : Typography) : Document :=
  .mapping (presentEntries (typography.declared TextStyle.present) typography.extras)

end Typography

namespace Spacing

/-- The declared fields of a spacing section. -/
def declared (spacing : Spacing) : Mapping Document :=
  [("scale", textsDocument spacing.scale),
    ("semantic", mappingDocument textsDocument spacing.semantic)]

def toDocument (spacing : Spacing) : Document :=
  .mapping (spacing.declared ++ settled spacing.extras)

/-- A spacing section without null entries. -/
def present (spacing : Spacing) : Document :=
  .mapping (presentEntries spacing.declared spacing.extras)

end Spacing

/-- An effects section as a document. -/
def Effects.toDocument (effects : Effects) : Document :=
  .mapping ([("shadows", textsDocument effects.shadows),
    ("borderRadius", textsDocument effects.borderRadius),
    ("gradients", mappingDocument ValueOrGroup.toDocument effects.gradients),
    ("blur", textsDocument effects.blur),
    ("opacity", mappingDocument TokenValue.toDocument effects.opacity)] ++ settled effects.extras)

namespace Breakpoint

/-- The declared fields of a breakpoint. -/
def declared (breakpoint : Breakpoint) : Mapping Document :=
  [("min", .text breakpoint.min), ("max", optionDocument .text breakpoint.max)]

def toDocument (breakpoint : Breakpoint) : Document :=
  .mapping (breakpoint.declared ++ settled breakpoint.extras)

/-- A breakpoint without its null entries. -/
def present (breakpoint : Breakpoint) : Document :=
  .mapping (presentEntries breakpoint.declared breakpoint.extras)

end Breakpoint

def Responsive.toDocument (responsive : Responsive) : Document :=
  .mapping ([("autoDetect", .bool responsive.autoDetect),
    ("breakpoints", mappingDocument Breakpoint.toDocument responsive.breakpoints),
    ("containerSizes", textsDocument responsive.containerSizes)] ++ settled responsive.extras)

/-- Output settings as a document. -/
def OutputSettings.toDocument (settings : OutputSettings) : Document :=
  .mapping ([("prefix", .text settings.variablePrefix), ("output", .text settings.output),
    ("formats", .list (settings.formats.map .text)),
    ("include", .list (settings.included.map .text)),
    ("exclude", .list (settings.excluded.map .text))] ++ settled settings.extras)

def styleDocument (style : Mapping Document) : Document :=
  .mapping (settled style)

/-- The styles of one component as a document. -/
def ComponentStyle.toDocument (style : ComponentStyle) : Document :=
  .mapping ([("base", styleDocument style.base),
    ("variants", mappingDocument styleDocument style.variants),
    ("sizes", mappingDocument styleDocument style.sizes),
    ("states", mappingDocument styleDocument style.states)] ++ settled style.extras)

def ComponentLibrary.toDocument (components : ComponentLibrary) : Document :=
  .mapping ([("output", .text components.output), ("typescript", .bool components.typescript),
    ("library", mappingDocument ComponentStyle.toDocument components.library)] ++
    settled components.extras)

/-- The entries of a configuration. -/
def Config.entries (config : Config) : Mapping Document :=
  [("version", config.version.toDocument), ("name", optionDocument .text config.name),
    ("description", optionDocument .text config.description),
    ("theme", config.theme.toDocument), ("typography", config.typography.toDocument),
    ("spacing", config.spacing.toDocument), ("effects", config.effects.toDocument),
    ("responsive", config.responsive.toDocument), ("tokens", config.tokens.toDocument),
    ("components", config.components.toDocument)] ++ settled config.extras

/-- A configuration as a document. -/
def Config.toDocument (config : Config) : Document :=
  .mapping config.entries

end DesignTokens
