import DesignTokens.Config.Issue
import DesignTokens.Document.Basic
import DesignTokens.Document.ScalarFault
import DesignTokens.Files.Fault
import DesignTokens.Text.Blank
import DesignTokens.Text.Utf8

/-!
# Failures

Why a configuration is refused, a reference has no value or an artifact cannot be produced. A failure
is a cause; its wording is one function. Some failures are about the tokens and are reported with
the place they belong to; the others come from a call that could never be answered.

## Main definitions

- `Place` — the path, namespace, mode and format that a failure belongs to
- `Unresolved`, `UnknownMode`, `UnsupportedFormat` — failures about one name
- `ConfigFault` — what is wrong with a configuration document
- `Failure` — any of these, or a call that could not be answered
- `Failure.message`, `Failure.render` — the wording, without and with the place
-/

namespace DesignTokens

/-- What a failure belongs to, as far as it is known. -/
structure Place where
  path : Option String
  namespaceName : Option String
  mode : Option String
  format : Option String
  deriving DecidableEq, Repr

namespace Place

/-- A labelled detail; an empty one says nothing. -/
def detail (label : String) : Option String → List String
  | some value => if value = "" then [] else [label ++ "=" ++ value]
  | none => []

/-- The path followed by the details in square brackets. -/
def render (place : Place) : String :=
  let details := detail "namespace" place.namespaceName ++ detail "mode" place.mode ++
    detail "format" place.format
  let path := place.path.getD ""
  if details.isEmpty then path
  else Text.strip (path ++ " [" ++ Text.join ", " details ++ "]")

/-- A message behind its place, when there is one. -/
def locate (place : Place) (message : String) : String :=
  let location := place.render
  if location = "" then message else location ++ ": " ++ message

end Place

/-- Why a reference has no value. -/
inductive Reason where
  | malformed
  | unknownNamespace
  | missing
  | group
  | notLiteral
  | described (text : String)
  deriving DecidableEq, Repr

/-- A reference without a value, with the namespace and the mode it was looked up in. -/
structure Unresolved where
  path : String
  namespaceName : Option String
  mode : Option String
  reason : Reason
  deriving DecidableEq, Repr

namespace Unresolved

/-- The wording of a reference without a value. -/
def message (u : Unresolved) : String :=
  let reference := "Token reference \"" ++ u.path ++ "\""
  match u.reason with
  | .malformed => "Malformed token reference \"" ++ u.path ++ "\""
  | .unknownNamespace =>
    reference ++ " uses unknown namespace \"" ++ u.namespaceName.getD "" ++ "\""
  | .missing => reference ++ " not found"
  | .group => reference ++ " resolves to an object, not a literal value"
  | .notLiteral => reference ++ " does not resolve to a literal value"
  | .described text => text

def place (u : Unresolved) : Place :=
  ⟨some u.path, u.namespaceName, u.mode, none⟩

end Unresolved

/-- A mode that is not declared. -/
structure UnknownMode where
  mode : String
  available : List String
  hint : String
  deriving DecidableEq, Repr

/-- The wording of an unknown mode. -/
def UnknownMode.message (u : UnknownMode) : String :=
  "Unknown theme mode \"" ++ u.mode ++ "\"" ++
    (if u.available.isEmpty then ""
      else ". Available modes: " ++ Text.join ", " u.available) ++
    (if u.hint = "" then "" else " (" ++ u.hint ++ ")")

/-- A format that no artifact has. -/
structure UnsupportedFormat where
  name : String
  supported : List String
  deriving DecidableEq, Repr

def UnsupportedFormat.message (u : UnsupportedFormat) : String :=
  "Unsupported format: " ++ u.name ++
    (if u.supported.isEmpty then ""
      else ". Supported formats: " ++ Text.join ", " u.supported)

/-- What is wrong with a configuration document. The first group of causes looks at the document as
a whole; the last one is an issue with the type of a single value. -/
inductive ConfigFault where
  | notMapping
  | versionMissing
  | themeMissing
  | themesNotMapping
  | themesEmpty
  | defaultUnknown (modes : List String) (got : Document)
  | themeNotMapping (mode : String)
  | colorsMissing (mode : String)
  | semanticMissing (mode : String)
  | stepsMissing (mode scale : String) (steps : List String)
  | stepsUnknown (mode scale : String) (steps : List String)
  | keyMissing (mode key reference : String)
  | keyUnknown (mode key reference : String)
  | keysDiffer (mode key reference : String) (keys : List String)
  | tokensMissing
  | prefixMissing
  | outputMissing
  | formatsNotList
  | mistyped (issue : Issue)

/-- The wording of a configuration fault. -/
def ConfigFault.message : ConfigFault → String
  | .notMapping => "configuration must be an object"
  | .versionMissing => "version is required"
  | .themeMissing => "theme configuration is required"
  | .themesNotMapping => "theme.themes must be an object"
  | .themesEmpty => "theme.themes must declare at least one theme"
  | .defaultUnknown modes got =>
    "theme.default must be one of: " ++ Text.join ", " modes ++ " (got " ++ got.shown ++ ")"
  | .themeNotMapping mode => s!"theme \"{mode}\" must be an object"
  | .colorsMissing mode => s!"theme \"{mode}\" is missing colors"
  | .semanticMissing mode => s!"theme \"{mode}\" is missing semantic"
  | .stepsMissing mode scale steps =>
    s!"theme \"{mode}\": color scale \"{scale}\" is missing steps " ++ Text.join ", " steps
  | .stepsUnknown mode scale steps =>
    s!"theme \"{mode}\": color scale \"{scale}\" has unknown steps " ++ Text.join ", " steps
  | .keyMissing mode key reference =>
    s!"theme \"{mode}\" is missing {key} (declared by \"{reference}\")"
  | .keyUnknown mode key reference =>
    s!"theme \"{mode}\" declares {key} not present in \"{reference}\""
  | .keysDiffer mode key reference keys =>
    s!"theme \"{mode}\": {key} keys differ from \"{reference}\" (" ++ Text.join ", " keys ++ ")"
  | .tokensMissing => "tokens configuration is required"
  | .prefixMissing => "tokens.prefix is required"
  | .outputMissing => "tokens.output is required"
  | .formatsNotList => "tokens.formats must be a list"
  | .mistyped issue => issue.message

/-- The wording of a refused configuration: every issue on a line of its own. -/
def refusal (issues : List String) : String :=
  "Configuration validation failed:\n" ++ Text.join "\n" (issues.map ("  - " ++ ·))

/-- A compound value where only a plain value can be a key. -/
inductive Compound where
  | list
  | mapping
  deriving DecidableEq, Repr

/-- The wording of a compound value in place of a key. -/
def Compound.message : Compound → String
  | .list => "unhashable type: 'list'"
  | .mapping => "unhashable type: 'dict'"

/-- Why a configuration file is not loaded. -/
inductive LoadFault where
  | missing (path : String)
  | empty (path : String)
  | invalidJson (path reason : String)
  | invalidYaml (path : String)
  deriving DecidableEq, Repr

/-- The wording of a configuration file that is not loaded. -/
def LoadFault.message : LoadFault → String
  | missing path => "Token config not found: " ++ path
  | empty path => "Empty token config: " ++ path
  | invalidJson path reason => "Invalid JSON in " ++ path ++ ": " ++ reason
  | invalidYaml path => "Invalid YAML in " ++ path

/-- Why a request has no answer. -/
inductive Failure where
  /-- The configuration is refused. -/
  | refused (faults : List ConfigFault)
  /-- A reference has no value. -/
  | unresolved (u : Unresolved)
  /-- A mode is not declared. -/
  | unknownMode (u : UnknownMode)
  /-- A format has no artifact. -/
  | unsupportedFormat (u : UnsupportedFormat)
  /-- The default mode is no text but a compound value. -/
  | compoundDefault (c : Compound)
  /-- A word names no resolution policy. -/
  | invalidPolicy (word : Document)
  /-- An artifact for one mode was asked for with another number of themes. -/
  | themeCount (count : Nat)
  /-- A style block is for no interaction state. -/
  | unknownState (name : String)
  /-- Fewer than one worker. -/
  | noWorkers
  /-- A text with a slash stands for a file name. -/
  | invalidName (name : String)
  /-- A file operation fails. -/
  | file (fault : FileFault)
  /-- A path has a null character. -/
  | nullByte
  /-- A file is not in UTF-8. -/
  | undecodable (fault : Text.Utf8.Fault)
  /-- A path or a content cannot be encoded. -/
  | unencodable (fault : Text.Utf8.Unencodable)
  /-- A configuration file is not loaded. -/
  | unloadable (fault : LoadFault)
  /-- A scalar of a file has the form of a value that does not exist. -/
  | impossibleValue (fault : ScalarFault)
  /-- An assignment has no path. -/
  | badAssignment (assignment : String)
  /-- A closing tag has no opening one. -/
  | unmatchedTag (name : String)

namespace Failure

/-- The failure of a file operation. A cause that lies in a text is a failure of its own. -/
def ofFault (fault : FileFault) : Failure :=
  match fault.cause with
  | .nullByte => nullByte
  | .unencodable cause => unencodable cause
  | _ => file fault

/-- Whether the failure is about the tokens, so that a job can report it. -/
def isReported : Failure → Bool
  | refused _ | unresolved _ | unknownMode _ | unsupportedFormat _ => true
  | _ => false

/-- The wording of a failure, without its place. -/
def message : Failure → String
  | refused faults => refusal (faults.map ConfigFault.message)
  | unresolved u => u.message
  | unknownMode u => u.message
  | unsupportedFormat u => u.message
  | compoundDefault c => c.message
  | invalidPolicy word => word.shown ++ " is not a valid ResolutionPolicy"
  | themeCount 0 => "not enough values to unpack (expected 1, got 0)"
  | themeCount _ => "too many values to unpack (expected 1)"
  | unknownState name => Text.quoted name
  | noWorkers => "max_workers must be greater than 0"
  | invalidName name => "Invalid name " ++ Text.quoted name
  | file fault => fault.message
  | nullByte => FileCause.nullByte.text
  | undecodable fault => fault.message
  | unencodable fault => fault.message
  | unloadable fault => fault.message
  | impossibleValue fault => fault.message
  | badAssignment assignment => "Expected path=value, got '" ++ assignment ++ "'"
  | unmatchedTag name => "closing tag '[/" ++ name ++ "]' doesn't match any open tag"

def render : Failure → String
  | unresolved u => u.place.locate u.message
  | failure => failure.message

end Failure

theorem bind_eq_ok_iff {α β ε : Type} {outcome : Except ε α} {next : α → Except ε β} {b : β} :
    outcome >>= next = .ok b ↔ ∃ a, outcome = .ok a ∧ next a = .ok b := by
  cases outcome <;> simp [bind, Except.bind]

theorem bind_eq_error_iff {α β ε : Type} {outcome : Except ε α} {next : α → Except ε β} {e : ε}
    (hnext : ∀ a, next a ≠ .error e) : outcome >>= next = .error e ↔ outcome = .error e := by
  cases outcome with
  | error failure => simp [bind, Except.bind]
  | ok a => simpa [bind, Except.bind] using hnext a

theorem map_eq_ok_iff {α β ε : Type} {outcome : Except ε α} {f : α → β} {b : β} :
    outcome.map f = .ok b ↔ ∃ a, outcome = .ok a ∧ f a = b := by
  cases outcome <;> simp [Except.map]

theorem mapError_eq_ok_iff {α ε ε' : Type} {outcome : Except ε α} {f : ε → ε'} {a : α} :
    outcome.mapError f = .ok a ↔ outcome = .ok a := by
  cases outcome with
  | error e => exact ⟨nofun, nofun⟩
  | ok b => exact ⟨fun h => congrArg _ (Except.ok.inj h), fun h => congrArg _ (Except.ok.inj h)⟩

end DesignTokens
