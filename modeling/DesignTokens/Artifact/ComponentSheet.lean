import DesignTokens.Artifact.Notice
import DesignTokens.Style.Compile

/-!
# Component stylesheets

The component library in one mode. A component's base style is under the class of its name; each of
its variants, sizes and states is under that name with the name of the style behind a hyphen.

## Main definitions

- `Config.componentStyles` — the selectors of the library with their style objects
- `Config.componentSheet` — the stylesheet of the library
- `Config.componentWarnings` — what is left out of it
-/

namespace DesignTokens

/-- The style objects of a component with their selectors: the base, then every variant, size and
state. -/
def ComponentStyle.selectors (style : ComponentStyle) (name : String) :
    List (String × Mapping Document) :=
  ("." ++ name, style.base) ::
    (style.variants ++ style.sizes ++ style.states).map fun part =>
      ("." ++ name ++ "-" ++ part.1, part.2)

namespace Config

def componentStyles (config : Config) : List (String × Mapping Document) :=
  config.components.library.flatMap fun component => component.2.selectors component.1

/-- The stylesheets of several style objects; those without a property are left out. -/
def compileBlocks (r : Resolver) :
    List (String × Mapping Document) → Except Failure (List String)
  | [] => .ok []
  | (selector, style) :: rest => do
    let rule ← compileEntries r (styleEntries style)
    let more ← compileBlocks r rest
    .ok (if rule.isEmpty then more else rule.render selector 0 :: more)

def componentHeader (config : Config) (mode : String) : String :=
  blockComment (config.title ++ " components: " ++ mode) ++ "\n" ++ blockComment generatedNotice

def componentSheet (r : Resolver) : Except Failure String := do
  let blocks ← compileBlocks r r.config.componentStyles
  .ok (Text.join "\n\n" (r.config.componentHeader r.mode :: blocks) ++ "\n")

/-- What is left out of the stylesheet of the library. -/
def componentWarnings (config : Config) : List StyleWarning :=
  config.componentStyles.flatMap fun part => styleWarnings part.2

end Config

end DesignTokens
