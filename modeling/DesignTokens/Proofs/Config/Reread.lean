import DesignTokens.Proofs.Config.Section

/-!
# Reading a written configuration

Every section of a configuration is made of slots, so its reader and its writer belong together.
Declared fields have types and come back as they are; extras and raw style objects have none, so in
them a stamp comes back as its text and a number that is not finite as null.

## Main definitions

- `Config.reread` — a configuration as it comes back from its document
-/

namespace DesignTokens

open Read

namespace Read

variable {α : Type}

theorem text_text (s : String) : text (.text s) = .valid s := rfl

theorem text_null (s : String) : text .null ≠ .valid s := Checked.complain_ne_valid _ _

theorem flag_bool (b : Bool) : flag (.bool b) = .valid b := rfl

theorem tokenValue_text (s : String) : tokenValue (.text s) = .valid (.text s) := rfl

theorem tokenValue_null (v : TokenValue) : tokenValue .null ≠ .valid v := by
  simp [tokenValue]

theorem optional_null (check : Document → Checked α) : optional check .null = .valid none := rfl

theorem mappingOf_nil (check : Document → Checked α) : mappingOf check (.mapping []) = .valid [] :=
  rfl

theorem listOf_nil (check : Document → Checked α) : listOf check (.list []) = .valid [] := rfl

end Read

namespace Theme

def reread (theme : Theme) : Theme :=
  { theme with extras := settled theme.extras }

def slots : List (Slot Theme) :=
  [.field colorsKey Theme.colors Faithful.valueOrGroup.mappingId (by simp) (mappingOf_nil _),
    .field semanticKey Theme.semantic Faithful.text.mappingId.mappingId (by simp) (mappingOf_nil _)]

theorem slotted :
    Slotted slots fieldKeys Theme.extras Theme.read Theme.toDocument Theme.reread where
  fields_eq := rfl
  nodup := by decide
  read_iff := by
    rintro d ⟨⟩
    simp [Theme.read, sectionOf_eq_valid_iff, slots, and_assoc]
  write_eq _ := rfl
  get_settle := by simp [slots, Theme.reread]
  extras_settle _ := rfl
  ext := by
    rintro ⟨⟩ ⟨⟩
    simp_all [slots]

theorem faithful : Faithful Theme.read Theme.toDocument Theme.reread :=
  slotted.faithful

end Theme

namespace ThemeCatalog

def reread (catalog : ThemeCatalog) : ThemeCatalog :=
  { catalog with
    themes := Mapping.mapValues Theme.reread catalog.themes
    extras := settled catalog.extras }

theorem read_nil : ThemeCatalog.read (.mapping []) = .valid empty := rfl

def slots : List (Slot ThemeCatalog) :=
  [.field defaultKey ThemeCatalog.default Faithful.text (by simp) (text_text empty.default),
    .field autoDetectKey autoDetect Faithful.flag (by simp) (flag_bool empty.autoDetect),
    .field storageKey storage Faithful.flag (by simp) (flag_bool empty.storage),
    .field themesKey themes Theme.faithful.mapping (by simp) (mappingOf_nil _)]

theorem slotted :
    Slotted slots fieldKeys ThemeCatalog.extras ThemeCatalog.read ThemeCatalog.toDocument
      ThemeCatalog.reread where
  fields_eq := rfl
  nodup := by decide
  read_iff := by
    rintro d ⟨⟩
    simp [-Bool.exists_bool, ThemeCatalog.read, sectionOf_eq_valid_iff, slots, and_assoc, empty]
  write_eq _ := rfl
  get_settle := by simp [slots, ThemeCatalog.reread]
  extras_settle _ := rfl
  ext := by
    rintro ⟨⟩ ⟨⟩
    simp_all [slots]

theorem faithful : Faithful ThemeCatalog.read ThemeCatalog.toDocument ThemeCatalog.reread :=
  slotted.faithful

end ThemeCatalog

namespace TextStyle

def reread (style : TextStyle) : TextStyle :=
  { style with extras := settled style.extras }

def slots : List (Slot TextStyle) :=
  [.required fontSizeKey fontSize Faithful.text,
    .field lineHeightKey lineHeight (Faithful.tokenValue.optional tokenValue_null)
      (by simp) (optional_null _),
    .field letterSpacingKey letterSpacing (Faithful.text.optional text_null) (by simp)
      (optional_null _),
    .field fontWeightKey fontWeight (Faithful.tokenValue.optional tokenValue_null)
      (by simp) (optional_null _)]

theorem slotted :
    Slotted slots fieldKeys TextStyle.extras TextStyle.read TextStyle.toDocument
      TextStyle.reread where
  fields_eq := rfl
  nodup := by decide
  read_iff := by
    rintro d ⟨⟩
    simp [TextStyle.read, sectionOf_eq_valid_iff, slots, and_assoc]
  write_eq _ := rfl
  get_settle := by simp [slots, TextStyle.reread]
  extras_settle _ := rfl
  ext := by
    rintro ⟨⟩ ⟨⟩
    simp_all [slots]

theorem faithful : Faithful TextStyle.read TextStyle.toDocument TextStyle.reread :=
  slotted.faithful

end TextStyle

namespace Typography

def reread (typography : Typography) : Typography :=
  { typography with
    scales := Mapping.mapValues (Mapping.mapValues TextStyle.reread) typography.scales
    extras := settled typography.extras }

theorem read_nil : Typography.read (.mapping []) = .valid empty := rfl

def slots : List (Slot Typography) :=
  [.field fontFamilyKey fontFamily Faithful.fontFamily.mappingId (by simp) (mappingOf_nil _),
    .field fontSizeKey fontSize Faithful.text.mappingId (by simp) (mappingOf_nil _),
    .field fontWeightKey fontWeight Faithful.tokenValue.mappingId (by simp) (mappingOf_nil _),
    .field lineHeightKey lineHeight Faithful.tokenValue.mappingId (by simp) (mappingOf_nil _),
    .field letterSpacingKey letterSpacing Faithful.text.mappingId (by simp) (mappingOf_nil _),
    .field scalesKey scales TextStyle.faithful.mapping.mapping (by simp) (mappingOf_nil _)]

theorem slotted :
    Slotted slots fieldKeys Typography.extras Typography.read Typography.toDocument
      Typography.reread where
  fields_eq := rfl
  nodup := by decide
  read_iff := by
    rintro d ⟨⟩
    simp [Typography.read, sectionOf_eq_valid_iff, slots, and_assoc]
  write_eq _ := rfl
  get_settle := by simp [slots, Typography.reread]
  extras_settle _ := rfl
  ext := by
    rintro ⟨⟩ ⟨⟩
    simp_all [slots]

theorem faithful : Faithful Typography.read Typography.toDocument Typography.reread :=
  slotted.faithful

end Typography

namespace Spacing

def reread (spacing : Spacing) : Spacing :=
  { spacing with extras := settled spacing.extras }

theorem read_nil : Spacing.read (.mapping []) = .valid empty := rfl

def slots : List (Slot Spacing) :=
  [.field scaleKey scale Faithful.text.mappingId (by simp) (mappingOf_nil _),
    .field semanticKey semantic Faithful.text.mappingId.mappingId (by simp) (mappingOf_nil _)]

theorem slotted :
    Slotted slots fieldKeys Spacing.extras Spacing.read Spacing.toDocument Spacing.reread where
  fields_eq := rfl
  nodup := by decide
  read_iff := by
    rintro d ⟨⟩
    simp [Spacing.read, sectionOf_eq_valid_iff, slots, and_assoc]
  write_eq _ := rfl
  get_settle := by simp [slots, Spacing.reread]
  extras_settle _ := rfl
  ext := by
    rintro ⟨⟩ ⟨⟩
    simp_all [slots]

theorem faithful : Faithful Spacing.read Spacing.toDocument Spacing.reread :=
  slotted.faithful

end Spacing

namespace Effects

def reread (effects : Effects) : Effects :=
  { effects with extras := settled effects.extras }

theorem read_nil : Effects.read (.mapping []) = .valid empty := rfl

def slots : List (Slot Effects) :=
  [.field shadowsKey shadows Faithful.text.mappingId (by simp) (mappingOf_nil _),
    .field borderRadiusKey borderRadius Faithful.text.mappingId (by simp) (mappingOf_nil _),
    .field gradientsKey gradients Faithful.valueOrGroup.mappingId (by simp) (mappingOf_nil _),
    .field blurKey blur Faithful.text.mappingId (by simp) (mappingOf_nil _),
    .field opacityKey opacity Faithful.tokenValue.mappingId (by simp) (mappingOf_nil _)]

theorem slotted :
    Slotted slots fieldKeys Effects.extras Effects.read Effects.toDocument Effects.reread where
  fields_eq := rfl
  nodup := by decide
  read_iff := by
    rintro d ⟨⟩
    simp [Effects.read, sectionOf_eq_valid_iff, slots, and_assoc]
  write_eq _ := rfl
  get_settle := by simp [slots, Effects.reread]
  extras_settle _ := rfl
  ext := by
    rintro ⟨⟩ ⟨⟩
    simp_all [slots]

theorem faithful : Faithful Effects.read Effects.toDocument Effects.reread :=
  slotted.faithful

end Effects

namespace Breakpoint

def reread (breakpoint : Breakpoint) : Breakpoint :=
  { breakpoint with extras := settled breakpoint.extras }

def slots : List (Slot Breakpoint) :=
  [.required minKey Breakpoint.min Faithful.text,
    .field maxKey Breakpoint.max (Faithful.text.optional text_null) (by simp)
      (optional_null _)]

theorem slotted :
    Slotted slots fieldKeys Breakpoint.extras Breakpoint.read Breakpoint.toDocument
      Breakpoint.reread where
  fields_eq := rfl
  nodup := by decide
  read_iff := by
    rintro d ⟨⟩
    simp [Breakpoint.read, sectionOf_eq_valid_iff, slots, and_assoc]
  write_eq _ := rfl
  get_settle := by simp [slots, Breakpoint.reread]
  extras_settle _ := rfl
  ext := by
    rintro ⟨⟩ ⟨⟩
    simp_all [slots]

theorem faithful : Faithful Breakpoint.read Breakpoint.toDocument Breakpoint.reread :=
  slotted.faithful

end Breakpoint

namespace Responsive

def reread (responsive : Responsive) : Responsive :=
  { responsive with
    breakpoints := Mapping.mapValues Breakpoint.reread responsive.breakpoints
    extras := settled responsive.extras }

theorem read_nil : Responsive.read (.mapping []) = .valid empty := rfl

def slots : List (Slot Responsive) :=
  [.field autoDetectKey autoDetect Faithful.flag (by simp) (flag_bool empty.autoDetect),
    .field breakpointsKey breakpoints Breakpoint.faithful.mapping (by simp) (mappingOf_nil _),
    .field containerSizesKey containerSizes Faithful.text.mappingId (by simp) (mappingOf_nil _)]

theorem slotted :
    Slotted slots fieldKeys Responsive.extras Responsive.read Responsive.toDocument
      Responsive.reread where
  fields_eq := rfl
  nodup := by decide
  read_iff := by
    rintro d ⟨⟩
    simp [-Bool.exists_bool, Responsive.read, sectionOf_eq_valid_iff, slots, and_assoc]
  write_eq _ := rfl
  get_settle := by simp [slots, Responsive.reread]
  extras_settle _ := rfl
  ext := by
    rintro ⟨⟩ ⟨⟩
    simp_all [slots]

theorem faithful : Faithful Responsive.read Responsive.toDocument Responsive.reread :=
  slotted.faithful

end Responsive

namespace OutputSettings

def reread (settings : OutputSettings) : OutputSettings :=
  { settings with extras := settled settings.extras }

theorem read_nil : OutputSettings.read (.mapping []) = .valid standard := rfl

def slots : List (Slot OutputSettings) :=
  [.field prefixKey variablePrefix Faithful.text (by simp) (text_text standard.variablePrefix),
    .field outputKey output Faithful.text (by simp) (text_text standard.output),
    .field formatsKey formats Faithful.text.listId (by simp [Document.regular_list])
      (Faithful.text.listId.again (d := .list [.text "css"]) (a := standard.formats) rfl),
    .field includeKey included Faithful.text.listId (by simp [Document.regular_list])
      (listOf_nil _),
    .field excludeKey excluded Faithful.text.listId (by simp [Document.regular_list])
      (listOf_nil _)]

theorem slotted :
    Slotted slots fieldKeys OutputSettings.extras OutputSettings.read OutputSettings.toDocument
      OutputSettings.reread where
  fields_eq := rfl
  nodup := by decide
  read_iff := by
    rintro d ⟨⟩
    simp [OutputSettings.read, sectionOf_eq_valid_iff, slots, and_assoc]
  write_eq _ := rfl
  get_settle := by simp [slots, OutputSettings.reread]
  extras_settle _ := rfl
  ext := by
    rintro ⟨⟩ ⟨⟩
    simp_all [slots]

theorem faithful : Faithful OutputSettings.read OutputSettings.toDocument OutputSettings.reread :=
  slotted.faithful

end OutputSettings

namespace ComponentStyle

def reread (style : ComponentStyle) : ComponentStyle where
  base := settled style.base
  variants := Mapping.mapValues settled style.variants
  sizes := Mapping.mapValues settled style.sizes
  states := Mapping.mapValues settled style.states
  extras := settled style.extras

def slots : List (Slot ComponentStyle) :=
  [.field baseKey base Faithful.any.mapping (by simp) (mappingOf_nil _),
    .field variantsKey variants Faithful.any.mapping.mapping (by simp) (mappingOf_nil _),
    .field sizesKey sizes Faithful.any.mapping.mapping (by simp) (mappingOf_nil _),
    .field statesKey states Faithful.any.mapping.mapping (by simp) (mappingOf_nil _)]

theorem slotted :
    Slotted slots fieldKeys ComponentStyle.extras ComponentStyle.read ComponentStyle.toDocument
      ComponentStyle.reread where
  fields_eq := rfl
  nodup := by decide
  read_iff := by
    rintro d ⟨⟩
    simp [ComponentStyle.read, sectionOf_eq_valid_iff, slots, and_assoc]
  write_eq := by
    intro style
    rw [ComponentStyle.toDocument, funext styleDocument_eq]
    rfl
  get_settle := by simp [slots, ComponentStyle.reread, funext settled_eq_mapValues]
  extras_settle _ := rfl
  ext := by
    rintro ⟨⟩ ⟨⟩
    simp_all [slots]

theorem faithful : Faithful ComponentStyle.read ComponentStyle.toDocument ComponentStyle.reread :=
  slotted.faithful

end ComponentStyle

namespace ComponentLibrary

def reread (components : ComponentLibrary) : ComponentLibrary :=
  { components with
    library := Mapping.mapValues ComponentStyle.reread components.library
    extras := settled components.extras }

theorem read_nil : ComponentLibrary.read (.mapping []) = .valid empty := rfl

def slots : List (Slot ComponentLibrary) :=
  [.field outputKey output Faithful.text (by simp) (text_text empty.output),
    .field typescriptKey typescript Faithful.flag (by simp) (flag_bool empty.typescript),
    .field libraryKey library ComponentStyle.faithful.mapping (by simp) (mappingOf_nil _)]

theorem slotted :
    Slotted slots fieldKeys ComponentLibrary.extras ComponentLibrary.read ComponentLibrary.toDocument
      ComponentLibrary.reread where
  fields_eq := rfl
  nodup := by decide
  read_iff := by
    rintro d ⟨⟩
    simp [-Bool.exists_bool, ComponentLibrary.read, sectionOf_eq_valid_iff, slots, and_assoc]
  write_eq _ := rfl
  get_settle := by simp [slots, ComponentLibrary.reread]
  extras_settle _ := rfl
  ext := by
    rintro ⟨⟩ ⟨⟩
    simp_all [slots]

theorem faithful :
    Faithful ComponentLibrary.read ComponentLibrary.toDocument ComponentLibrary.reread :=
  slotted.faithful

end ComponentLibrary

namespace Config

/-- A configuration as it comes back from its document. -/
def reread (config : Config) : Config :=
  { config with
    theme := config.theme.reread
    typography := config.typography.reread
    spacing := config.spacing.reread
    effects := config.effects.reread
    responsive := config.responsive.reread
    tokens := config.tokens.reread
    components := config.components.reread
    extras := settled config.extras }

def slots : List (Slot Config) :=
  [.field versionKey version Faithful.tokenValue (by simp) (tokenValue_text "1.0"),
    .field nameKey name (Faithful.text.optional text_null) (by simp) (optional_null _),
    .field descriptionKey description (Faithful.text.optional text_null) (by simp)
      (optional_null _),
    .field themeKey theme ThemeCatalog.faithful (by simp) ThemeCatalog.read_nil,
    .field typographyKey typography Typography.faithful (by simp) Typography.read_nil,
    .field spacingKey spacing Spacing.faithful (by simp) Spacing.read_nil,
    .field effectsKey effects Effects.faithful (by simp) Effects.read_nil,
    .field responsiveKey responsive Responsive.faithful (by simp) Responsive.read_nil,
    .field tokensKey tokens OutputSettings.faithful (by simp) OutputSettings.read_nil,
    .field componentsKey components ComponentLibrary.faithful (by simp) ComponentLibrary.read_nil]

theorem slotted :
    Slotted slots fieldKeys Config.extras Config.read Config.toDocument Config.reread where
  fields_eq := rfl
  nodup := by decide
  read_iff := by
    -- plain simp would look for inhabitants of the type of the constructor
    rintro d ⟨⟩
    simp only [Config.read, sectionOf_eq_valid_iff, slots, Checked.seq_eq_valid_iff,
      Checked.map_eq_valid_iff, exists_exists_and_eq_and, exists_exists_and_exists_and_eq_and,
      ↓existsAndEq, and_true, and_assoc, exists_and_left, Checked.valid.injEq, exists_eq_left',
      mk.injEq, true_and, List.mem_cons, List.not_mem_nil, or_false, forall_eq_or_imp,
      Slot.read_field_iff, forall_eq]
  write_eq _ := rfl
  get_settle := by simp [slots, Config.reread]
  extras_settle _ := rfl
  ext := by
    rintro ⟨⟩ ⟨⟩
    simp_all [slots]

theorem faithful : Faithful Config.read Config.toDocument Config.reread :=
  slotted.faithful

end Config

end DesignTokens
