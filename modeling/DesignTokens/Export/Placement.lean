import DesignTokens.Export.Job
import DesignTokens.Extension
import DesignTokens.Files.Access

/-!
# Placing and writing artifacts

Without an explicit output an artifact goes below the configured directory under its default name,
and so it does below an explicit directory. An explicit file that several formats or several modes
share gets their names before its suffix.

## Main definitions

- `outputPath` — where a job's artifact goes
- `writeResults` — writes every finished artifact
- `Config.export` — the whole export
-/

namespace DesignTokens

variable {m : Type → Type} [Monad m] [FileSystem m]

/-- How many artifacts of a run may share an explicit file. -/
structure Sharing where
  modes : Nat
  formats : Nat
  deriving DecidableEq, Repr

/-- The file name of a job in an explicit file that it shares. -/
def sharedName (path : Path) (job : Job) (sharing : Sharing) : String :=
  let ofFormat := if 1 < sharing.formats then "-" ++ job.format else ""
  let ofMode := match job.namedMode? with
    | some mode => if 1 < sharing.modes then "-" ++ mode else ""
    | none => ""
  path.stem ++ ofFormat ++ ofMode ++ path.suffix

/-- The path of a job in an explicit file that it shares. -/
def sharedPath (path : Path) (job : Job) (sharing : Sharing) : Except Failure Path :=
  let name := sharedName path job sharing
  match path.withName? name with
  | some shared => .ok shared
  | none => .error (.invalidName name)

/-- Where a job's artifact goes. -/
def outputPath (job : Job) (config : Config) (output : Option Path) (sharing : Sharing) :
    ExceptT Failure m Path := do
  let format ← known (Format.find job.format)
  let fileName := format.fileName job.mode
  match output with
  | none => pure ((Path.ofText config.tokens.output).join fileName)
  | some path =>
    if ← attempt (isDirectory path) then pure (path.join fileName)
    else known (sharedPath path job sharing)

/-- The result of a job after its content was written to a path. What lies in the text of the path or
the content is no error of the job. -/
def JobResult.written (result : JobResult) (path : Path) :
    Except FileFault Unit → Except Failure JobResult
  | .ok _ => .ok { result with path := some path.render }
  | .error fault =>
    if fault.cause.isTextual then .error (.ofFault fault)
    else .ok
      { result with error := some ("Could not write " ++ path.render ++ ": " ++ fault.message) }

/-- What the jobs of a run share with a job. -/
def sharingOf (results : List JobResult) (job : Job) : Sharing where
  modes := results.countP fun result =>
    result.job.format = job.format && result.job.namedMode?.isSome
  formats := (distinct (results.map (·.job.format))).length

/-- Writes the content of a finished job. -/
def writeResult (config : Config) (output : Option Path) (sharing : Job → Sharing)
    (result : JobResult) : ExceptT Failure m JobResult := do
  match result.isOk, result.content with
  | true, some content =>
    let path ← outputPath result.job config output (sharing result.job)
    let outcome ← ExceptT.lift (writeWithParents path content)
    known (result.written path outcome)
  | _, _ => pure result

/-- Writes the content of every finished job, in order. -/
def writeEach (config : Config) (output : Option Path) (sharing : Job → Sharing) :
    List JobResult → ExceptT Failure m (List JobResult)
  | [] => pure []
  | result :: rest => do
    let written ← writeResult config output sharing result
    let more ← writeEach config output sharing rest
    pure (written :: more)

/-- Writes the content of every finished job of a run. -/
def writeResults (results : List JobResult) (config : Config) (output : Option Path) :
    ExceptT Failure m (List JobResult) :=
  writeEach config output (sharingOf results) results

/-- What an export is asked for. -/
structure ExportRequest where
  formats : List String
  output : Option Path
  selector : ModeSelector
  variablePrefix : Option String
  policy : Document
  workers : Option Int
  write : Bool

/-- A configuration with another prefix, unless that is missing or empty. -/
def Config.withPrefix? (config : Config) : Option String → Except Failure Config
  | none | some "" => .ok config
  | some first => config.withPrefix first

/-- The results of an export before anything is written. -/
def Config.exportResults (config : Config) (request : ExportRequest) :
    Except Failure (List JobResult) := do
  let jobs ← planJobs config (request.formats.filter (· ≠ "")) request.selector
  runJobs jobs config request.policy request.workers

/-- The results of an export. -/
def Config.export (config : Config) (request : ExportRequest) :
    ExceptT Failure m (List JobResult) := do
  let config ← known (config.withPrefix? request.variablePrefix)
  let results ← known (config.exportResults request)
  if request.write then writeResults results config request.output else pure results

end DesignTokens
