import DesignTokens.Text.Pieces

/-!
# Options

The arguments of a command are options and plain arguments. An option has a long name with two hyphens
and perhaps a short one with a single hyphen; its value follows as the next argument, behind an equals
sign after the long name, or directly after the short one. Short options without values may be
written together. After two hyphens alone everything is a plain argument.

## Main definitions

- `OptionForm`, `OptionUse` — an option that a command knows, and one use of it
- `UsageFault` — why arguments are not understood
- `readOptions` — the options and the plain arguments among some arguments
-/

namespace DesignTokens

/-- An option that a command knows. -/
structure OptionForm where
  name : String
  letter : Option Char
  takesValue : Bool
  deriving DecidableEq, Repr

/-- A use of an option, with its value if it takes one. -/
structure OptionUse where
  name : String
  value : Option String
  deriving DecidableEq, Repr

/-- Why arguments are not understood. -/
inductive UsageFault where
  | unknownOption (name : String)
  | valueMissing (option : String)
  | valueUnexpected (option : String)
  | valueInvalid (option value : String)
  | argumentMissing (name : String)
  | argumentUnexpected (value : String)
  | commandMissing
  | commandUnknown (name : String)
  | assignmentInvalid (assignment : String)
  deriving DecidableEq, Repr

/-- The wording of arguments that are not understood. -/
def UsageFault.message : UsageFault → String
  | unknownOption name => "No such option: " ++ name
  | valueMissing option => "Option '" ++ option ++ "' requires an argument."
  | valueUnexpected option => "Option '" ++ option ++ "' does not take a value."
  | valueInvalid option value => "Invalid value for '" ++ option ++ "': '" ++ value ++ "'"
  | argumentMissing name => "Missing argument '" ++ name ++ "'."
  | argumentUnexpected value => "Got unexpected extra argument (" ++ value ++ ")"
  | commandMissing => "Missing command."
  | commandUnknown name => "No such command '" ++ name ++ "'."
  | assignmentInvalid assignment => "Expected path=value, got '" ++ assignment ++ "'"

/-- The options in one argument. The last of them may still wait for its value. -/
inductive OptionReading where
  | complete (uses : List OptionUse)
  | awaiting (uses : List OptionUse) (option : String)
  deriving DecidableEq, Repr

/-- The option in an argument with a long name, given the value behind the equals sign. -/
def readLongOption (form : OptionForm) : Option String → Except UsageFault OptionReading
  | some value =>
    if form.takesValue then .ok (.complete [⟨form.name, some value⟩])
    else .error (.valueUnexpected form.name)
  | none =>
    if form.takesValue then .ok (.awaiting [] form.name)
    else .ok (.complete [⟨form.name, none⟩])

/-- The options in an argument of letters, behind those already read. -/
def readLetters (forms : List OptionForm) (uses : List OptionUse) :
    List Char → Except UsageFault OptionReading
  | [] => .ok (.complete uses)
  | c :: rest =>
    match forms.find? fun form => form.letter = some c with
    | none => .error (.unknownOption (String.ofList ['-', c]))
    | some form =>
      if form.takesValue then
        if rest.isEmpty then .ok (.awaiting uses form.name)
        else .ok (.complete (uses ++ [⟨form.name, some (String.ofList rest)⟩]))
      else readLetters forms (uses ++ [⟨form.name, none⟩]) rest

/-- Whether an argument is written like an option: a hyphen and something after it. -/
def isOptionText (argument : String) : Bool :=
  argument ≠ "-" && Text.startsWith argument "-"

/-- The options in one argument that is written like an option. -/
def readOption (forms : List OptionForm) (argument : String) : Except UsageFault OptionReading :=
  let (name, value) := Text.cut '=' argument
  match forms.find? fun form => form.name = name with
  | some form => readLongOption form value
  | none =>
    if Text.startsWith argument "--" then .error (.unknownOption name)
    else readLetters forms [] (argument.toList.drop 1)

/-- The options and the plain arguments among some arguments. Where options must come first, the
first plain argument ends them. -/
def readOptions (forms : List OptionForm) (optionsFirst : Bool) :
    List String → Except UsageFault (List OptionUse × List String)
  | [] => .ok ([], [])
  | argument :: rest =>
    if argument = "--" then .ok ([], rest)
    else if isOptionText argument then
      match readOption forms argument, rest with
      | .error fault, _ => .error fault
      | .ok (.complete uses), rest => do
        let (more, plain) ← readOptions forms optionsFirst rest
        .ok (uses ++ more, plain)
      | .ok (.awaiting uses option), value :: rest => do
        let (more, plain) ← readOptions forms optionsFirst rest
        .ok (uses ++ ⟨option, some value⟩ :: more, plain)
      | .ok (.awaiting _ option), [] => .error (.valueMissing option)
    else if optionsFirst then .ok ([], argument :: rest)
    else do
      let (uses, plain) ← readOptions forms optionsFirst rest
      .ok (uses, argument :: plain)

def valuesOf (uses : List OptionUse) (name : String) : List String :=
  (uses.filter fun use => use.name = name).filterMap OptionUse.value

/-- The value of an option, which is the last one given. -/
def valueOf? (uses : List OptionUse) (name : String) : Option String :=
  (valuesOf uses name).getLast?

def isUsed (uses : List OptionUse) (name : String) : Bool :=
  uses.any fun use => use.name = name

end DesignTokens
