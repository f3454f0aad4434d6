import DesignTokens.Files.Fault
import DesignTokens.Files.Path
import DesignTokens.Text.Utf8

/-!
# File systems

What the program asks of the files around it: the kind of an entry, the content of a file, a new
directory, a written file. Everything else is built from these four operations.

## Main definitions

- `FileSystem` — the four operations
- `isDirectory`, `isPresent` — questions about an entry; what cannot be reached is not there
- `makeDirectories` — a directory with all directories above it
- `FileContent.decode` — the text of a file
- `writeText` — a file with a text, if that can be encoded
-/

namespace DesignTokens

/-- The kind of an entry. -/
inductive EntryKind where
  | file
  | directory
  deriving DecidableEq, Repr

/-- The content of a file: a text, or octets that may not be one. -/
inductive FileContent where
  | text (s : String)
  | octets (bytes : List UInt8)
  deriving DecidableEq, Repr

/-- The text of a file, with one-character line breaks. -/
def FileContent.decode : FileContent → Except Text.Utf8.Fault String
  | text s => .ok (String.ofList (Text.normalizeBreaks s.toList))
  | octets bytes =>
    (Text.Utf8.decode bytes).map fun cs => String.ofList (Text.normalizeBreaks cs)

/-- The operations on the files around a program. -/
class FileSystem (m : Type → Type) where
  /-- The kind of the entry at a path, if there is one. -/
  kindOf : Path → m (Except FileFault EntryKind)
  /-- The content of the file at a path. -/
  readFile : Path → m (Except FileFault FileContent)
  /-- Makes one directory, whose parent must be there. -/
  makeDirectory : Path → m (Except FileFault Unit)
  /-- Writes a file, whose directory must be there. The text can be encoded. -/
  writeFile : Path → String → m (Except FileFault Unit)

variable {m : Type → Type} [Monad m] [FileSystem m]

/-- Whether a fault says that there is no such entry. -/
def FileFault.isAbsence (fault : FileFault) : Bool :=
  fault.cause = .missing || fault.cause = .notDirectory || fault.cause.isTextual

/-- The kind of the entry at a path, or nothing where no entry can be reached. -/
def entryAt (path : Path) : m (Except FileFault (Option EntryKind)) := do
  match ← FileSystem.kindOf path with
  | .ok kind => pure (.ok (some kind))
  | .error fault => pure (if fault.isAbsence then .ok none else .error fault)

def isDirectory (path : Path) : m (Except FileFault Bool) := do
  pure ((← entryAt path).map (· == some .directory))

def isPresent (path : Path) : m (Except FileFault Bool) := do
  pure ((← entryAt path).map Option.isSome)

/-- How the encoding of a text comes out, and what is in its file then. The file is opened before, so
a text that cannot be encoded leaves an empty one. -/
def encodeText (path : Path) (s : String) : Except FileFault Unit × String :=
  match Text.Utf8.textFault? s with
  | none => (.ok (), s)
  | some fault => (.error ⟨.unencodable fault, path.render⟩, "")

/-- Writes a text to a file. -/
def writeText (path : Path) (s : String) : m (Except FileFault Unit) := do
  let (outcome, content) := encodeText path s
  match ← FileSystem.writeFile path content with
  | .ok _ => pure outcome
  | .error fault => pure (.error fault)

/-- The outcome of making a directory where one that is there already will do. -/
def acceptDirectory (path : Path) : Except FileFault Unit → m (Except FileFault Unit)
  | .ok _ => pure (.ok ())
  | .error fault => do
    match ← isDirectory path with
    | .ok true => pure (.ok ())
    | .ok false => pure (.error fault)
    | .error other => pure (.error other)

/-- Makes the directory of the given names, innermost first, with all directories above it. -/
def makeDirectoriesUp (root : String) : List String → m (Except FileFault Unit)
  | [] => do acceptDirectory ⟨root, []⟩ (← FileSystem.makeDirectory ⟨root, []⟩)
  | name :: above => do
    let path : Path := ⟨root, (name :: above).reverse⟩
    match ← FileSystem.makeDirectory path with
    | .ok _ => pure (.ok ())
    | .error fault =>
      if fault.cause = .missing then
        match ← makeDirectoriesUp root above with
        | .ok _ => do acceptDirectory path (← FileSystem.makeDirectory path)
        | .error other => pure (.error other)
      else acceptDirectory path (.error fault)

/-- Makes a directory with all directories above it. -/
def makeDirectories (path : Path) : m (Except FileFault Unit) :=
  makeDirectoriesUp path.root path.names.reverse

end DesignTokens
