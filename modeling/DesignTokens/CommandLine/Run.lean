import DesignTokens.CommandLine.Assignment
import DesignTokens.CommandLine.Command
import DesignTokens.CommandLine.Table
import DesignTokens.Export.Placement
import DesignTokens.Mode.Registry

/-!
# Running a command

A command either comes to its end with some lines to show, or it halts: with lines that say what is
wrong, because it is not asked for properly, or because of a failure that it does not explain. How it
came out is an exit code and an output.

## Main definitions

- `Halt` — how a command stops before its end
- `Command.run` — the lines of a command
- `Outcome`, `runArguments` — the exit code and the output for some arguments
-/

namespace DesignTokens

variable {m : Type → Type} [Monad m] [FileSystem m]

/-- How a command stops before its end. -/
inductive Halt where
  | explained (lines : List String)
  | misused (fault : UsageFault)
  | failed (failure : Failure)

/-- A failure as the end of a command, with the lines that explain it if there are any. -/
def Halt.ofFailure (explain : Failure → Option (List String)) : Failure → Halt
  | .badAssignment assignment => .misused (.assignmentInvalid assignment)
  | failure =>
    match explain failure with
    | some lines => .explained lines
    | none => .failed failure

def stepOf {α : Type} (explain : Failure → Option (List String)) (action : ExceptT Failure m α) :
    ExceptT Halt m α :=
  ExceptT.mk do pure ((← action.run).mapError (Halt.ofFailure explain))

/-- A step of a command whose failures are not explained. -/
def plainStep {α : Type} (action : ExceptT Failure m α) : ExceptT Halt m α :=
  stepOf (fun _ => none) action

/-! ## Loading the configuration -/

/-- The configuration file that a location stands for. An empty one is the usual file. -/
def locationPath (location : String) : Path :=
  .ofText (if location = "" then configFileName else location)

/-- Explains why a configuration is not loaded. -/
def explainLoading : Failure → Option (List String)
  | .unloadable fault => some (notice .failure fault.message)
  | .refused faults =>
    some (failureList ("Invalid token config (" ++ toString faults.length ++ " issue(s)):")
      (faults.map ConfigFault.message))
  | _ => none

def commandConfig (location : String) : ExceptT Halt m Config := do
  let (config, _) ← stepOf explainLoading (loadConfig (locationPath location) false)
  pure config

/-! ## Exporting -/

/-- Explains why an export has no results. -/
def explainExport : Failure → Option (List String)
  | .unsupportedFormat u => some (notice .failure u.message)
  | .unknownMode u => some (notice .failure u.message)
  | .refused faults => some (notice .failure (refusal (faults.map ConfigFault.message)))
  | _ => none

def resultLines (result : JobResult) : List String :=
  if result.isOk then notice .success ("Wrote " ++ result.path.getD "None")
  else notice .failure result.describeFailure

/-- The export that some arguments ask for. -/
def ExportArguments.request (arguments : ExportArguments) : ExportRequest where
  formats := commaList arguments.formats
  output := (arguments.output.filter (· ≠ "")).map Path.ofText
  selector := .ofText (some arguments.modes)
  variablePrefix := arguments.variablePrefix
  policy := .text arguments.policy.name
  workers := arguments.workers
  write := true

/-- Writes artifacts. A job that fails makes the command fail, after all others are done. -/
def runExport (arguments : ExportArguments) : ExceptT Halt m (List String) := do
  let config ← commandConfig arguments.location
  let results ← stepOf explainExport (config.export arguments.request)
  let lines := results.flatMap resultLines
  let failures := results.countP fun result => !result.isOk
  if failures = 0 then pure lines
  else throw (.explained (lines ++ notice .failure (toString failures ++ " of " ++
    toString results.length ++ " export job(s) failed")))

/-! ## Validating -/

def findingsOf (d : Document) : Except Failure Findings :=
  (validate d).mapError .compoundDefault

/-- The lines about a valid configuration, or about everything that is wrong with it. -/
def reportFindings (location : String) (findings : Findings) : Except Halt (List String) :=
  let warnings := findings.warnings.flatMap (notice .warning)
  match findings.config with
  | some config =>
    .ok (warnings ++ notice .success
      (location ++ " is valid (themes: " ++ Text.join ", " config.modes ++ ")"))
  | none =>
    .error (.explained (warnings ++ failureList
      (location ++ ": " ++ toString findings.errors.length ++ " error(s)") findings.errors))

def runValidate (location : String) : ExceptT Halt m (List String) := do
  let d ← stepOf explainLoading (readDocument (.ofText location))
  let findings ← plainStep (known (findingsOf d))
  ExceptT.mk (pure (reportFindings location findings))

/-! ## Display modes -/

def modeRow (mode : DisplayMode) : List String :=
  [mode.name, mode.label, "." ++ mode.className] ++
    Effect.all.map fun effect => if mode.supports effect.name then "✓" else "-"

def modesTable : Table where
  title := "Theme modes"
  headers := ["Mode", "Label", "Class"] ++ Effect.all.map Effect.name
  rows := ModeRegistry.standard.all.map modeRow

/-! ## Components -/

def explainComponent : Failure → Option (List String)
  | .unresolved u => some (notice .failure (Failure.unresolved u).render)
  | .unknownMode u => some (notice .failure u.message)
  | _ => none

/-- The message about a component that is not in the library. -/
def unknownComponent (config : Config) (name : String) : String :=
  let names := config.components.library.map Prod.fst
  "Unknown component '" ++ name ++ "'. Available components: " ++
    (if names.isEmpty then "none" else Text.join ", " names)

def componentRule (config : Config) (arguments : ComponentArguments) (style : ComponentStyle) :
    Except Failure Rule :=
  compileComponent style config ((arguments.mode.filter (· ≠ "")).getD config.defaultMode)
    (.text arguments.policy.name) arguments.selection

def ruleLines (name : String) (rule : Rule) : List String :=
  if rule.isEmpty then
    notice .warning ("Component '" ++ name ++ "' compiled to an empty rule")
  else [rule.render ("." ++ name) 0]

/-- Shows one component as a style sheet. -/
def runComponent (arguments : ComponentArguments) : ExceptT Halt m (List String) := do
  let config ← commandConfig arguments.location
  match Mapping.find? config.components.library arguments.name with
  | none => throw (.explained (notice .failure (unknownComponent config arguments.name)))
  | some style =>
    let rule ← stepOf explainComponent (known (componentRule config arguments style))
    pure (ruleLines arguments.name rule)

/-! ## Themes -/

def previewPaths : List (String × String) :=
  [("Primary", "colors.primary.500"), ("Background", "semantic.background.primary"),
   ("Text", "semantic.text.primary")]

/-- The name of a theme, with a remark on the default one. -/
def themeLabel (config : Config) (name : String) : String :=
  if name = config.defaultMode then name ++ " (default)" else name

/-- The values of some paths. -/
def resolveEach (r : Resolver) : List String → Except Failure (List String)
  | [] => .ok []
  | path :: rest => do
    let value ← r.resolve path
    let more ← resolveEach r rest
    .ok (value :: more)

/-- The cells of some themes. -/
def themeRows (config : Config) : List String → Except Failure (List (List String))
  | [] => .ok []
  | name :: rest => do
    let r ← Resolver.ofMode config name .lenient
    let values ← resolveEach r (previewPaths.map Prod.snd)
    let more ← themeRows config rest
    .ok ((themeLabel config name :: values) :: more)

def themesTable (config : Config) : Except Failure (List String) := do
  let rows ← themeRows config config.modes
  Table.render ⟨"Themes", "Theme" :: previewPaths.map Prod.fst, rows⟩

def runThemes (location : String) : ExceptT Halt m (List String) := do
  let config ← commandConfig location
  plainStep (known (themesTable config))

/-- Explains why a theme is not added. -/
def explainExtension (name : String) : Failure → Option (List String)
  | .unknownMode u => some (notice .failure u.message)
  | .refused faults =>
    some (failureList ("Theme '" ++ name ++ "' would make the config invalid:")
      (faults.map ConfigFault.message))
  | _ => none

/-- The lines about a theme that was added, or that took the place of another. -/
def extensionLines (config : Config) (arguments : ExtensionArguments) (path : Path) :
    List String :=
  (if config.modes.contains arguments.name then
    notice .information ("Replaced existing theme '" ++ arguments.name ++ "'") else []) ++
  notice .success ("Added theme '" ++ arguments.name ++ "' (from '" ++ arguments.base ++ "') to " ++
    path.render)

/-- Adds a theme to a configuration and saves it. -/
def runExtension (arguments : ExtensionArguments) : ExceptT Halt m (List String) := do
  let config ← commandConfig arguments.location
  let upper ← plainStep (known (assignmentDocument arguments.assignments))
  let (extended, _) ← stepOf (explainExtension arguments.name)
    (known (config.extendTheme arguments.base arguments.name upper))
  let path ← plainStep (saveConfig (.ofText arguments.location) extended)
  pure (extensionLines config arguments path)

/-! ## The whole command line -/

/-- The lines of a command. -/
def Command.run : Command → ExceptT Halt m (List String)
  | exportArtifacts arguments => runExport arguments
  | validateConfig location => runValidate location
  | listModes => plainStep (known modesTable.render)
  | showComponent arguments => runComponent arguments
  | listThemes location => runThemes location
  | extendTheme arguments => runExtension arguments

def versionLine : String := "tokencraft version 0.3.0"

/-- How the program is called. -/
def helpLines : List String :=
  ["Usage: tokencraft [--version] [--verbose] COMMAND",
   "  export FORMAT [-o OUTPUT] [-m MODES] [--prefix PREFIX] [--policy POLICY] [-w WORKERS]",
   "  validate",
   "  modes",
   "  component NAME [--variant NAME] [--size NAME] [--state NAME] [-m MODE] [--policy POLICY]",
   "  theme list",
   "  theme extend BASE NAME [-s PATH=VALUE]...",
   "A command that reads a configuration takes its location as -c CONFIG."]

def Invocation.perform : Invocation → ExceptT Halt m (List String)
  | version => pure [versionLine]
  | help => pure helpLines
  | run command => command.run

/-- How a command came out. -/
inductive Ending where
  | success
  | failure
  | misuse (fault : UsageFault)
  | breakdown (failure : Failure)

/-- The exit code of an ending. -/
def Ending.exitCode : Ending → Nat
  | success => 0
  | failure => 1
  | misuse _ => 2
  | breakdown _ => 1

/-- How a command came out, and what it shows. -/
structure Outcome where
  ending : Ending
  output : String

def outputOfLines (lines : List String) : String :=
  Text.join "" (lines.map (· ++ "\n"))

/-- How a command came out, given its lines or how it stopped. -/
def Outcome.ofResult : Except Halt (List String) → Outcome
  | .ok lines => ⟨.success, outputOfLines lines⟩
  | .error (.explained lines) => ⟨.failure, outputOfLines lines⟩
  | .error (.misused fault) => ⟨.misuse fault, ""⟩
  | .error (.failed failure) => ⟨.breakdown failure, ""⟩

def runArguments (arguments : List String) : m Outcome := do
  match Invocation.ofArguments arguments with
  | .error fault => pure (Outcome.ofResult (.error (.misused fault)))
  | .ok invocation => pure (Outcome.ofResult (← invocation.perform.run))

end DesignTokens
