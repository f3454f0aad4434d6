import DesignTokens.Artifact.Emit
import DesignTokens.Failure
import DesignTokens.Format

/-!
# Export jobs

A job is one artifact to produce. Jobs are planned for a list of formats and a selection of modes:
one job for every selected mode of a per-mode format, and one job for each other format. A job that
fails for a reason about the tokens has a result all the same, with its error in place of content.

## Main definitions

- `Job` — one artifact to produce
- `selectModes`, `planJobs` — the modes of a selector, and the jobs of some formats
- `JobResult` — content or error
- `runJob`, `settleJob` — the result of one job
- `gatherResults`, `runJobs` — the results of all jobs, whatever the order in which they were done
-/

namespace DesignTokens

/-- One artifact to produce. The mode is set for per-mode formats; the modes are those whose themes
the artifact gets. -/
structure Job where
  format : String
  mode : Option String
  modes : List String
  deriving DecidableEq, Repr

namespace Job

/-- The mode of a job, if it is set and not empty. -/
def namedMode? (job : Job) : Option String :=
  job.mode.filter (· ≠ "")

/-- A job by its format, with its mode in square brackets. -/
def describe (job : Job) : String :=
  match job.namedMode? with
  | some mode => job.format ++ "[" ++ mode ++ "]"
  | none => job.format

/-- Whether a job may stand before another: by format, then by mode. -/
def precedes (a b : Job) : Bool :=
  a.format < b.format || (a.format = b.format && a.mode.getD "" ≤ b.mode.getD "")

/-- The place of a job's failure, given the token that failed. -/
def place (job : Job) (path : Option String) : Place :=
  ⟨path, none, job.mode, some job.format⟩

end Job

/-- The modes of a selector. -/
inductive ModeSelector where
  | all
  | named (modes : List String)
  deriving DecidableEq, Repr

/-- The pieces of a comma-separated list, trimmed, without the empty ones. -/
def commaList (s : String) : List String :=
  ((Text.split ',' s).map Text.strip).filter (· ≠ "")

/-- A selector as it is written: the word `all`, or a comma-separated list of modes. -/
def ModeSelector.ofText : Option String → ModeSelector
  | none => all
  | some s => if s = "" || s = "all" then all else named (commaList s)

/-- The selected modes, each of which must be declared. -/
def selectModes (config : Config) : ModeSelector → Except Failure (List String)
  | .all => .ok config.modes
  | .named modes =>
    match modes.find? fun mode => !config.modes.contains mode with
    | some mode => .error (config.unknownMode mode)
    | none => .ok modes

/-- The formats of some names, up to the first unknown one. -/
def findFormats : List String → Except Failure (List Format)
  | [] => .ok []
  | name :: rest => do
    let format ← Format.find name
    let more ← findFormats rest
    .ok (format :: more)

def formatJobs (modes : List String) (format : Format) : List Job :=
  if format.perMode then modes.map fun mode => ⟨format.name, some mode, [mode]⟩
  else [⟨format.name, none, modes⟩]

def distinct (names : List String) : List String :=
  Mapping.keys (Mapping.ofEntries (names.map fun name => (name, ())))

/-- The jobs of some formats in the selected modes, by format and mode. -/
def planJobs (config : Config) (formats : List String) (selector : ModeSelector) :
    Except Failure (List Job) := do
  let modes ← selectModes config selector
  let formats ← findFormats (distinct (formats.map Text.lower))
  .ok ((formats.flatMap (formatJobs modes)).mergeSort Job.precedes)

/-- What became of a job. -/
structure JobResult where
  job : Job
  content : Option String
  error : Option String
  tokenPath : Option String
  path : Option String
  deriving DecidableEq, Repr

namespace JobResult

def finished (job : Job) (content : String) : JobResult :=
  ⟨job, some content, none, none, none⟩

/-- A job with its error, and the token it is about. -/
def failed (job : Job) (error : String) (tokenPath : Option String) : JobResult :=
  ⟨job, none, some error, tokenPath, none⟩

def isOk (result : JobResult) : Bool :=
  result.error.isNone

/-- The error of a job behind its place. -/
def describeFailure (result : JobResult) : String :=
  (result.job.place result.tokenPath).locate (result.error.getD "")

end JobResult

def Failure.tokenPath? : Failure → Option String
  | unresolved u => some u.path
  | _ => none

/-- The content of a job. The themes are resolved before the policy's name is looked at. -/
def jobContent (job : Job) (format : Format) (config : Config) (policy : Document) :
    Except Failure String := do
  let themes ← if format.usesThemes then resolveThemes config policy job.modes else .ok []
  let policy ← Policy.ofWord policy
  config.emit policy themes format

/-- The result of a job. A failure about the tokens is part of the result. -/
def runJob (job : Job) (config : Config) (policy : Document) : Except Failure JobResult := do
  let format ← Format.find job.format
  match jobContent job format config policy with
  | .ok content => .ok (.finished job content)
  | .error failure =>
    if failure.isReported then .ok (.failed job failure.message failure.tokenPath?)
    else .error failure

/-- The result of a job in which every failure is part of the result. A call that could never be
answered is told apart by a word in front of its message. -/
def settleJob (config : Config) (policy : Document) (job : Job) : JobResult :=
  match runJob job config policy with
  | .ok result => result
  | .error failure => .failed job ("ValueError: " ++ failure.message) none

/-- The results of jobs that ran side by side, by format and mode, from the order in which the jobs
were done. -/
def gatherResults (done : List JobResult) : List JobResult :=
  done.mergeSort fun a b => a.job.precedes b.job

/-- The results of all jobs, by format and mode. -/
def runJobs (jobs : List Job) (config : Config) (policy : Document) (workers : Option Int) :
    Except Failure (List JobResult) :=
  if jobs.isEmpty then .ok []
  else if workers.any (· ≤ 0) then .error .noWorkers
  else .ok (gatherResults (jobs.map (settleJob config policy)))

end DesignTokens
