import DesignTokens.CommandLine.Options
import DesignTokens.ConfigFile
import DesignTokens.Resolver
import DesignTokens.Style.Component
import DesignTokens.Text.WholeNumber

/-!
# Commands

What a user may ask for on the command line, and how the arguments say so.

## Main definitions

- `Command` — the commands with their arguments
- `Invocation` — a command, or a question about the program
- `Invocation.ofArguments` — what some arguments ask for
-/

namespace DesignTokens

/-- The arguments of an export. -/
structure ExportArguments where
  formats : String
  output : Option String
  modes : String
  variablePrefix : Option String
  location : String
  policy : Policy
  workers : Option Int
  deriving DecidableEq, Repr

/-- The arguments of a component preview. -/
structure ComponentArguments where
  name : String
  selection : Selection
  mode : Option String
  policy : Policy
  location : String
  deriving DecidableEq, Repr

/-- The arguments of a theme extension. -/
structure ExtensionArguments where
  base : String
  name : String
  assignments : List String
  location : String
  deriving DecidableEq, Repr

/-- The commands. -/
inductive Command where
  /-- Writes artifacts. -/
  | exportArtifacts (arguments : ExportArguments)
  /-- Lists everything that is wrong with a configuration. -/
  | validateConfig (location : String)
  /-- Shows the display modes. -/
  | listModes
  /-- Shows one component as a style sheet. -/
  | showComponent (arguments : ComponentArguments)
  /-- Shows the themes of a configuration. -/
  | listThemes (location : String)
  /-- Adds a theme to a configuration. -/
  | extendTheme (arguments : ExtensionArguments)
  deriving DecidableEq, Repr

/-- What is asked for on the command line. -/
inductive Invocation where
  | version
  | help
  | run (command : Command)
  deriving DecidableEq, Repr

/-! ## Options -/

def helpOption : OptionForm := ⟨"--help", none, false⟩

def versionOption : OptionForm := ⟨"--version", some 'v', false⟩

def programOptions : List OptionForm :=
  [versionOption, ⟨"--verbose", none, false⟩, helpOption]

def configOption : OptionForm := ⟨"--config", some 'c', true⟩

def modeOption : OptionForm := ⟨"--mode", some 'm', true⟩

def policyOption : OptionForm := ⟨"--policy", none, true⟩

def exportOptions : List OptionForm :=
  [⟨"--output", some 'o', true⟩, modeOption, ⟨"--prefix", none, true⟩, configOption, policyOption,
   ⟨"--workers", some 'w', true⟩, helpOption]

def componentOptions : List OptionForm :=
  [⟨"--variant", none, true⟩, ⟨"--size", none, true⟩, ⟨"--state", none, true⟩, modeOption,
   policyOption, configOption, helpOption]

def extensionOptions : List OptionForm :=
  [⟨"--set", some 's', true⟩, configOption, helpOption]

/-! ## Values of options -/

/-- The location of the configuration as it was given, or the usual file. -/
def locationOf (uses : List OptionUse) : String :=
  (valueOf? uses "--config").getD configFileName

/-- The policy that was given, in any case, or the strict one. -/
def policyOf (uses : List OptionUse) : Except UsageFault Policy :=
  match valueOf? uses "--policy" with
  | none => .ok .strict
  | some word =>
    match Policy.ofName? (Text.lower word) with
    | some policy => .ok policy
    | none => .error (.valueInvalid "--policy" word)

/-- The number of workers that was given, which is at least one. -/
def workersOf (uses : List OptionUse) : Except UsageFault (Option Int) :=
  match valueOf? uses "--workers" with
  | none => .ok none
  | some s =>
    match Text.wholeNumber? s with
    | some n => if 1 ≤ n then .ok (some n) else .error (.valueInvalid "--workers" s)
    | none => .error (.valueInvalid "--workers" s)

/-! ## Commands -/

/-- Checks that as many plain arguments are given as there are names for them. -/
def checkCount : List String → List String → Except UsageFault Unit
  | [], [] => .ok ()
  | name :: _, [] => .error (.argumentMissing name)
  | [], value :: _ => .error (.argumentUnexpected value)
  | _ :: names, _ :: values => checkCount names values

/-- The options and plain arguments of a command, read into what they ask for. A request for help
comes before any fault in the arguments' number or values. -/
def readCommand (forms : List OptionForm) (names : List String)
    (make : List OptionUse → List String → Except UsageFault Command) (arguments : List String) :
    Except UsageFault Invocation := do
  let (uses, plain) ← readOptions forms false arguments
  if isUsed uses helpOption.name then .ok .help
  else
    checkCount names plain
    .ok (.run (← make uses plain))

def argumentAt (plain : List String) (i : Nat) : String :=
  plain[i]?.getD ""

/-- An export as its arguments ask for it. -/
def makeExport (uses : List OptionUse) (plain : List String) : Except UsageFault Command := do
  let policy ← policyOf uses
  let workers ← workersOf uses
  .ok (.exportArtifacts
    { formats := argumentAt plain 0
      output := valueOf? uses "--output"
      modes := (valueOf? uses "--mode").getD "all"
      variablePrefix := valueOf? uses "--prefix"
      location := locationOf uses
      policy := policy
      workers := workers })

/-- A component preview as its arguments ask for it. -/
def makeComponent (uses : List OptionUse) (plain : List String) : Except UsageFault Command := do
  let policy ← policyOf uses
  .ok (.showComponent
    { name := argumentAt plain 0
      selection := ⟨valueOf? uses "--variant", valueOf? uses "--size", valueOf? uses "--state"⟩
      mode := valueOf? uses "--mode"
      policy := policy
      location := locationOf uses })

/-- A theme extension as its arguments ask for it. -/
def makeExtension (uses : List OptionUse) (plain : List String) : Except UsageFault Command :=
  .ok (.extendTheme
    { base := argumentAt plain 0
      name := argumentAt plain 1
      assignments := valuesOf uses "--set"
      location := locationOf uses })

/-- What the arguments after `theme` ask for. -/
def readThemeCommand (arguments : List String) : Except UsageFault Invocation := do
  let (uses, rest) ← readOptions [helpOption] true arguments
  if isUsed uses helpOption.name then .ok .help
  else match rest with
    | [] => .error .commandMissing
    | "list" :: rest =>
      readCommand [configOption, helpOption] [] (fun uses _ => .ok (.listThemes (locationOf uses))) rest
    | "extend" :: rest => readCommand extensionOptions ["BASE", "NAME"] makeExtension rest
    | name :: _ => .error (.commandUnknown name)

/-- What a command's name and the arguments after it ask for. -/
def readNamedCommand : List String → Except UsageFault Invocation
  | [] => .error .commandMissing
  | "export" :: rest => readCommand exportOptions ["FORMAT"] makeExport rest
  | "validate" :: rest =>
    readCommand [configOption, helpOption] []
      (fun uses _ => .ok (.validateConfig (locationOf uses))) rest
  | "modes" :: rest => readCommand [helpOption] [] (fun _ _ => .ok .listModes) rest
  | "component" :: rest => readCommand componentOptions ["NAME"] makeComponent rest
  | "theme" :: rest => readThemeCommand rest
  | name :: _ => .error (.commandUnknown name)

/-- What some arguments ask for. A question about the program comes before any command. -/
def Invocation.ofArguments (arguments : List String) : Except UsageFault Invocation := do
  let (uses, rest) ← readOptions programOptions true arguments
  match uses.find? fun use => use.name = versionOption.name || use.name = helpOption.name with
  | some use => .ok (if use.name = versionOption.name then .version else .help)
  | none => readNamedCommand rest

end DesignTokens
