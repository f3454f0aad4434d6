import DesignTokens.Config.Basic

/-!
# The standard configuration

The configuration used where none is given: a light and a dark theme over two colour scales, and a
button.

## Main definitions

- `Config.standard` — the standard configuration
-/

namespace DesignTokens

namespace Config

/-- The neutral scale. -/
def grayScale : Mapping String :=
  [("50", "#f9fafb"), ("100", "#f3f4f6"), ("200", "#e5e7eb"), ("300", "#d1d5db"),
   ("400", "#9ca3af"), ("500", "#6b7280"), ("600", "#4b5563"), ("700", "#374151"),
   ("800", "#1f2937"), ("900", "#111827"), ("950", "#030712")]

/-- The accent scale. -/
def blueScale : Mapping String :=
  [("50", "#eff6ff"), ("100", "#dbeafe"), ("200", "#bfdbfe"), ("300", "#93c5fd"),
   ("400", "#60a5fa"), ("500", "#3b82f6"), ("600", "#2563eb"), ("700", "#1d4ed8"),
   ("800", "#1e40af"), ("900", "#1e3a8a"), ("950", "#172554")]

/-- The colours of both themes. -/
def standardColors : Mapping ValueOrGroup :=
  [("white", .value "#ffffff"), ("gray", .group grayScale), ("primary", .group blueScale)]

/-- The light theme. -/
def lightTheme : Theme where
  colors := standardColors
  semantic :=
    [("text", [("primary", "colors.gray.900"), ("secondary", "colors.gray.700"),
        ("inverse", "#ffffff")]),
     ("background", [("primary", "#ffffff"), ("secondary", "colors.gray.50")]),
     ("border", [("primary", "colors.gray.200"), ("focus", "colors.primary.500")]),
     ("interactive", [("primary", "colors.primary.600"), ("primaryHover", "colors.primary.700"),
        ("secondary", "colors.gray.100")])]
  extras := []

/-- The dark theme. -/
def darkTheme : Theme where
  colors := standardColors
  semantic :=
    [("text", [("primary", "colors.gray.50"), ("secondary", "colors.gray.300"),
        ("inverse", "colors.gray.900")]),
     ("background", [("primary", "colors.gray.950"), ("secondary", "colors.gray.900")]),
     ("border", [("primary", "colors.gray.800"), ("focus", "colors.primary.400")]),
     ("interactive", [("primary", "colors.primary.500"), ("primaryHover", "colors.primary.400"),
        ("secondary", "colors.gray.800")])]
  extras := []

/-- A style object whose values are all texts. -/
def texts (entries : List (String × String)) : Mapping Document :=
  Mapping.mapValues .text entries

/-- The styles of the button. -/
def standardButton : ComponentStyle where
  base := texts [("display", "inline-flex"), ("alignItems", "center"),
    ("borderRadius", "effects.borderRadius.md"), ("fontWeight", "typography.fontWeight.medium")]
  variants :=
    [("default", texts [("backgroundColor", "semantic.interactive.primary"),
        ("color", "semantic.text.inverse")] ++
        [("hover", .mapping (texts [("backgroundColor", "semantic.interactive.primaryHover")]))]),
     ("secondary", texts [("backgroundColor", "semantic.interactive.secondary"),
        ("color", "semantic.text.primary")])]
  sizes :=
    [("sm", texts [("paddingBlock", "spacing.1"), ("paddingInline", "spacing.3")]),
     ("default", texts [("paddingBlock", "spacing.2"), ("paddingInline", "spacing.4")]),
     ("lg", texts [("paddingBlock", "spacing.3"), ("paddingInline", "spacing.6")])]
  states := [("disabled", texts [("opacity", "0.5"), ("cursor", "not-allowed")])]
  extras := []

/-- The standard configuration. -/
def standard : Config where
  version := .text "1.0"
  name := "My Design System"
  description := "Custom design system configuration"
  theme := ⟨"light", true, true, [("light", lightTheme), ("dark", darkTheme)], []⟩
  typography :=
    { fontFamily :=
        [("sans", .stack ["Inter", "-apple-system", "BlinkMacSystemFont", "Segoe UI",
            "sans-serif"]),
         ("mono", .stack ["JetBrains Mono", "Fira Code", "Consolas", "monospace"])]
      fontSize := [("sm", "0.875rem"), ("base", "1rem"), ("lg", "1.125rem"), ("xl", "1.25rem")]
      fontWeight :=
        [("normal", .int 400), ("medium", .int 500), ("semibold", .int 600), ("bold", .int 700)]
      lineHeight :=
        [("sm", .text "1.25rem"), ("base", .text "1.5rem"), ("lg", .text "1.75rem")]
      letterSpacing := []
      scales := []
      extras := [] }
  spacing :=
    { scale := [("1", "0.25rem"), ("2", "0.5rem"), ("3", "0.75rem"), ("4", "1rem"),
        ("6", "1.5rem"), ("8", "2rem")]
      semantic := []
      extras := [] }
  effects :=
    { shadows := [("sm", "0 1px 3px 0 rgba(0, 0, 0, 0.1)"),
        ("md", "0 4px 6px -1px rgba(0, 0, 0, 0.1)")]
      borderRadius := [("md", "0.375rem"), ("lg", "0.5rem")]
      gradients := []
      blur := []
      opacity := []
      extras := [] }
  responsive :=
    { autoDetect := true
      breakpoints := [("sm", ⟨"640px", none, []⟩), ("md", ⟨"768px", none, []⟩),
        ("lg", ⟨"1024px", none, []⟩), ("xl", ⟨"1280px", none, []⟩)]
      containerSizes := []
      extras := [] }
  tokens := ⟨"tc", "./tokens", ["css", "ts"], [], [], []⟩
  components := ⟨"./components", true, [("button", standardButton)], []⟩
  extras := []

end Config

end DesignTokens
