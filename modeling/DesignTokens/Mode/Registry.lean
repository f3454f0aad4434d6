import DesignTokens.Document.Basic
import DesignTokens.Failure

/-!
# Display modes

The concrete display modes of a user interface, each with its class, its colour roles and its
effects, and the fixed catalogue of them. The name `system` stands for whatever the environment
prefers and is no concrete mode.

## Main definitions

- `DisplayMode` — a mode with its class, colour roles and effects
- `ModeRegistry` — modes by name
- `ModeRegistry.find` — the mode of a name
- `ModeRegistry.standard` — the light, dark and midnight modes
-/

namespace DesignTokens

/-- An effect that modes switch on or off. -/
inductive Effect where
  | glass
  | glow
  | floatingOrbs
  | gridPattern
  deriving DecidableEq, Repr

namespace Effect

/-- The effects in the order in which their rules are written. -/
def all : List Effect :=
  [glass, glow, floatingOrbs, gridPattern]

/-- The name of an effect. -/
def name : Effect → String
  | glass => "glass"
  | glow => "glow"
  | floatingOrbs => "floatingOrbs"
  | gridPattern => "gridPattern"

end Effect

/-- A concrete display mode. -/
structure DisplayMode where
  name : String
  label : String
  description : String
  className : String
  colorRoles : Mapping String
  effectFlags : Mapping Document

/-- Whether a mode has an effect: its flag is set to a value that counts as present. -/
def DisplayMode.supports (mode : DisplayMode) (effect : String) : Bool :=
  ((Mapping.find? mode.effectFlags effect).map Document.truthy).getD false

/-- The name that stands for the mode which the environment prefers. -/
def systemMode : String := "system"

/-- Display modes by name. -/
structure ModeRegistry where
  modes : Mapping DisplayMode

namespace ModeRegistry

/-- The registry of a list of modes. Of two with one name the later one takes the earlier's place. -/
def ofList (modes : List DisplayMode) : ModeRegistry :=
  ⟨Mapping.ofEntries (modes.map fun mode => (mode.name, mode))⟩

/-- The names of the modes in order. -/
def names (registry : ModeRegistry) : List String :=
  Mapping.keys registry.modes

/-- The modes in order. -/
def all (registry : ModeRegistry) : List DisplayMode :=
  registry.modes.map Prod.snd

def contains (registry : ModeRegistry) (name : String) : Bool :=
  Mapping.has registry.modes name

def unknown (registry : ModeRegistry) (name : String) : Failure :=
  .unknownMode ⟨name, registry.names,
    if name = systemMode then "resolve it through an environment detector first" else ""⟩

def find (registry : ModeRegistry) (name : String) : Except Failure DisplayMode :=
  match Mapping.find? registry.modes name with
  | some mode => .ok mode
  | none => .error (registry.unknown name)

def classOf (registry : ModeRegistry) (name : String) : Except Failure String :=
  (registry.find name).map DisplayMode.className

def flagsOf (registry : ModeRegistry) (name : String) : Except Failure (Mapping Document) :=
  (registry.find name).map DisplayMode.effectFlags

def supports (registry : ModeRegistry) (name effect : String) : Except Failure Bool :=
  (registry.find name).map (·.supports effect)

def flags (glass glow floatingOrbs gridPattern : Bool) : Mapping Document :=
  [("glass", .bool glass), ("glow", .bool glow), ("floatingOrbs", .bool floatingOrbs),
   ("gridPattern", .bool gridPattern)]

/-- The mode for daytime. -/
def light : DisplayMode where
  name := "light"
  label := "Light Mode"
  description := "Clean and bright interface for daytime use"
  className := "light"
  colorRoles :=
    [("background", "hsl(0, 0%, 100%)"), ("foreground", "hsl(222.2, 84%, 4.9%)"),
     ("primary", "hsl(221.2, 83.2%, 53.3%)"), ("secondary", "hsl(210, 40%, 96%)"),
     ("accent", "hsl(210, 40%, 96%)"), ("muted", "hsl(215.4, 16.3%, 46.9%)"),
     ("border", "hsl(214.3, 31.8%, 91.4%)")]
  effectFlags := flags false false false true

/-- The colour roles of the dark modes, given their background. -/
def darkRoles (background : String) : Mapping String :=
  [("background", background), ("foreground", "hsl(210, 40%, 98%)"),
   ("primary", "hsl(217.2, 91.2%, 59.8%)"), ("secondary", "hsl(217.2, 32.6%, 17.5%)"),
   ("accent", "hsl(217.2, 32.6%, 17.5%)"), ("muted", "hsl(215, 20.2%, 65.1%)"),
   ("border", "hsl(217.2, 32.6%, 17.5%)")]

/-- The mode for dim surroundings. -/
def dark : DisplayMode where
  name := "dark"
  label := "Dark Mode"
  description := "Reduced luminance for low-light environments"
  className := "dark"
  colorRoles := darkRoles "hsl(222.2, 84%, 4.9%)"
  effectFlags := flags true false false true

/-- The darkest mode, with all effects. -/
def midnight : DisplayMode where
  name := "midnight"
  label := "Midnight Mode"
  description := "Elevated dark mode: deep black with vivid accents"
  className := "midnight"
  colorRoles := darkRoles "hsl(0, 0%, 3%)"
  effectFlags := flags true true true true

/-- The registry used where none is given. -/
def standard : ModeRegistry :=
  ofList [light, dark, midnight]

end ModeRegistry

end DesignTokens
