import DesignTokens.CommandLine.Run

/-!
# The program

The command line in a terminal: the files of the machine as a file system, and the outcome of the
arguments as output, error message and exit code.
-/

namespace DesignTokens

/-- The number of a system error, which some operations report with a negative sign. -/
def errorNumber (code : UInt32) : Nat :=
  code.toInt32.toInt.natAbs

/-- The number and the wording of a system error. -/
def systemError : IO.Error → Nat × String
  | .alreadyExists _ code text | .permissionDenied _ code text | .invalidArgument _ code text
  | .inappropriateType _ code text | .noSuchThing _ code text | .resourceExhausted _ code text
  | .noFileOrDirectory _ code text | .interrupted _ code text => (errorNumber code, text)
  | .otherError code text | .resourceBusy code text | .resourceVanished code text
  | .unsupportedOperation code text | .hardwareFault code text | .unsatisfiedConstraints code text
  | .illegalOperation code text | .protocolError code text | .timeExpired code text =>
    (errorNumber code, text)
  | .unexpectedEof => (0, "unexpected end of file")
  | .userError text => (0, text)

def knownCauses : List FileCause :=
  [.notPermitted, .missing, .exists, .notDirectory, .isDirectory, .nameTooLong]

def causeOf (error : IO.Error) : FileCause :=
  let (number, text) := systemError error
  (knownCauses.find? fun cause => cause.number = number).getD (.other number text)

def onMachine {α : Type} (path : Path) (operation : IO α) : IO (Except FileFault α) := do
  if let some fault := Text.Utf8.pathFault? path.render then
    return .error ⟨.unencodable fault, path.render⟩
  if path.hasNull then return .error ⟨.nullByte, path.render⟩
  match ← operation.toBaseIO with
  | .ok a => pure (.ok a)
  | .error error => pure (.error ⟨causeOf error, path.render⟩)

/-- The files of the machine. -/
instance : FileSystem IO where
  kindOf path := onMachine path do
    let metadata ← (System.mkFilePath [path.render]).metadata
    pure (if metadata.type == .dir then .directory else .file)
  readFile path := onMachine path do
    pure (.octets (← IO.FS.readBinFile path.render).toList)
  makeDirectory path := onMachine path (IO.FS.createDir path.render)
  writeFile path content := onMachine path (IO.FS.writeFile path.render content)

/-- The error message of an ending, if it has one. -/
def Ending.message? : Ending → Option String
  | success | failure => none
  | misuse fault => some fault.message
  | breakdown cause => some cause.render

end DesignTokens

open DesignTokens in
/-- Runs the command that the arguments ask for. -/
def main (arguments : List String) : IO UInt32 := do
  let outcome ← runArguments (m := IO) arguments
  IO.print outcome.output
  if let some message := outcome.ending.message? then IO.eprintln message
  pure outcome.ending.exitCode.toUInt32
