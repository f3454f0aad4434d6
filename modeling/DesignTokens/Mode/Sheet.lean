import DesignTokens.Mode.Registry

/-!
# The stylesheet of a mode registry

What a page needs to switch modes: the colour roles of each mode under its class, the rule that
animates a switch, and the rules of the effects that each mode has.

## Main definitions

- `Transition` — how long a switch takes
- `ModeRegistry.sheet` — the stylesheet
-/

namespace DesignTokens

/-- How long a switch takes, in milliseconds. -/
inductive Transition where
  | whole (milliseconds : Int)
  | fractional (milliseconds : Double)

namespace Transition

/-- The duration used where none is given. -/
def standard : Transition := whole 300

/-- The number of milliseconds as text. -/
def plain : Transition → String
  | whole n => toString n
  | fractional x => x.render

def seconds : Transition → Double
  | whole n => Double.ofFraction (n < 0) n.natAbs 1000
  | fractional x => x.divNat 1000

end Transition

/-- The class of a page while a switch takes place. -/
def transitionClass : String := "theme-transitioning"

namespace Effect

/-- The selector of the elements that have an effect. -/
def selector : Effect → String
  | glass => ".glass"
  | glow => ".glow-effect"
  | floatingOrbs => ".floating-orb"
  | gridPattern => ".grid-pattern"

def mixed (role : String) (percent : Nat) : String :=
  "color-mix(in srgb, var(--" ++ role ++ ") " ++ toString percent ++ "%, transparent)"

/-- The declarations of an effect. -/
def declarations : Effect → List String
  | glass =>
    ["backdrop-filter: blur(8px)", "-webkit-backdrop-filter: blur(8px)",
     "background: " ++ mixed "background" 80, "border: 1px solid " ++ mixed "border" 20]
  | glow =>
    ["box-shadow: 0 0 20px " ++ mixed "primary" 30 ++ ", 0 0 40px " ++ mixed "primary" 10]
  | floatingOrbs => ["opacity: 1"]
  | gridPattern =>
    ["background-size: 50px 50px",
     "background-image: linear-gradient(" ++ mixed "primary" 8 ++
       " 1px, transparent 1px), linear-gradient(90deg, " ++ mixed "primary" 8 ++
       " 1px, transparent 1px)"]

end Effect

def declarationBlock (selector : String) (declarations : List String) : String :=
  Text.join "\n" ((selector ++ " \x7b") :: declarations.map ("  " ++ · ++ ";") ++ ["\x7d"])

def DisplayMode.block (mode : DisplayMode) : String :=
  declarationBlock ("." ++ mode.className)
    (mode.colorRoles.map fun role => "--" ++ role.1 ++ ": " ++ role.2)

def animatedProperties : List String :=
  ["background-color", "border-color", "color", "fill", "stroke", "box-shadow"]

/-- The rule that animates a switch. -/
def Transition.block (transition : Transition) : String :=
  let animations := animatedProperties.map fun property =>
    property ++ " " ++ transition.plain ++ "ms ease-in-out"
  let selectors := ["", " *", " *::before", " *::after"].map ("." ++ transitionClass ++ ·)
  Text.join ",\n" selectors ++ " \x7b\n  transition:\n    " ++
    Text.join ",\n    " animations ++ " !important;\n\x7d"

namespace ModeRegistry

/-- The rules of an effect in the modes that have it. -/
def effectBlocks (registry : ModeRegistry) (effect : Effect) : List String :=
  (registry.all.filter (·.supports effect.name)).map fun mode =>
    declarationBlock ("." ++ mode.className ++ " " ++ effect.selector) effect.declarations

def sheet (registry : ModeRegistry) (transition : Transition) : String :=
  Text.join "\n\n" (registry.all.map DisplayMode.block ++ [transition.block] ++
    Effect.all.flatMap registry.effectBlocks) ++ "\n"

end ModeRegistry

end DesignTokens
