import DesignTokens.Files.FileSystem

/-!
# File trees

A file system as a value: directories and files by their location below a working directory. A path
is resolved name by name, and every name before the last must be that of a directory. What lies
outside the working directory is taken to be made of directories.

## Main definitions

- `FileTree` — entries by location
- `FileTree.locate` — the location that a path leads to
- `FileTree.makeDirectory`, `FileTree.write` — a tree with one more entry
- `FileTree.changes` — the files by which one tree differs from another
-/

namespace DesignTokens

/-- The names from the working directory to an entry. -/
abbrev Location := List String

/-- An entry of a file tree. -/
inductive FileEntry where
  | directory
  | file (content : FileContent)
  deriving DecidableEq, Repr

def FileEntry.kind : FileEntry → EntryKind
  | directory => .directory
  | file _ => .file

/-- The text of a file, or nothing for a directory. -/
def FileEntry.text? : FileEntry → Option String
  | file (.text s) => some s
  | _ => none

/-- Entries by location. -/
structure FileTree where
  entries : List (Location × FileEntry)
  deriving DecidableEq, Repr

namespace FileTree

def empty : FileTree := ⟨[]⟩

/-- The longest name that an entry may have, in octets. -/
def maxName : Nat := 255

/-- The length from which on a path is refused, in octets. -/
def maxPath : Nat := 4096

/-- Whether a location is outside the working directory or is that directory itself. -/
def isOutside (location : Location) : Bool :=
  location.all fun name => name = ".." || name = "/" || name = "//"

/-- The entry under a location in a list of entries. -/
def findEntry (location : Location) : List (Location × FileEntry) → Option FileEntry
  | [] => none
  | (at', entry) :: rest => if at' = location then some entry else findEntry location rest

/-- The entry at a location. -/
def find? (tree : FileTree) (location : Location) : Option FileEntry :=
  if isOutside location then some .directory else findEntry location tree.entries

/-- The location above a location. -/
def above (location : Location) : Location :=
  match location.getLast? with
  | none => [".."]
  | some ".." => location ++ [".."]
  | some "/" | some "//" => location
  | some _ => location.dropLast

/-- One step from a location to a name below it. -/
def step (tree : FileTree) (location : Location) (name : String) : Except FileCause Location :=
  match tree.find? location with
  | none => .error .missing
  | some (.file _) => .error .notDirectory
  | some .directory =>
    if name = ".." then .ok (above location)
    else if maxName < name.utf8ByteSize then .error .nameTooLong
    else .ok (location ++ [name])

/-- The location that names lead to from a location. -/
def walk (tree : FileTree) (location : Location) : List String → Except FileCause Location
  | [] => .ok location
  | name :: rest => do walk tree (← tree.step location name) rest

/-- The location that a path leads to. -/
def locate (tree : FileTree) (path : Path) : Except FileCause Location :=
  match Text.Utf8.pathFault? path.render with
  | some fault => .error (.unencodable fault)
  | none =>
    if path.hasNull then .error .nullByte
    else if maxPath ≤ path.render.utf8ByteSize then .error .nameTooLong
    else tree.walk (if path.root = "" then [] else [path.root]) path.names

/-- Sets the entry under a location in a list of entries. -/
def setEntry (location : Location) (entry : FileEntry) :
    List (Location × FileEntry) → List (Location × FileEntry)
  | [] => [(location, entry)]
  | (at', old) :: rest =>
    if at' = location then (location, entry) :: rest else (at', old) :: setEntry location entry rest

def set (tree : FileTree) (location : Location) (entry : FileEntry) : FileTree :=
  ⟨setEntry location entry tree.entries⟩

def entry (tree : FileTree) (path : Path) : Except FileCause FileEntry := do
  match tree.find? (← tree.locate path) with
  | some found => .ok found
  | none => .error .missing

/-- The content of the file at a path. -/
def read (tree : FileTree) (path : Path) : Except FileCause FileContent := do
  match ← tree.entry path with
  | .file content => .ok content
  | .directory => .error .isDirectory

/-- The tree with one more directory. -/
def makeDirectory (tree : FileTree) (path : Path) : Except FileCause FileTree := do
  let location ← tree.locate path
  match tree.find? location with
  | some _ => .error .exists
  | none => .ok (tree.set location .directory)

/-- The tree with a file of a given content. -/
def write (tree : FileTree) (path : Path) (content : FileContent) : Except FileCause FileTree := do
  let location ← tree.locate path
  match tree.find? location with
  | some .directory => .error .isDirectory
  | _ => .ok (tree.set location (.file content))

/-- The outcome of an operation on a path, with the tree after it. -/
def commit (tree : FileTree) (path : Path) :
    Except FileCause FileTree → Except FileFault Unit × FileTree
  | .ok next => (.ok (), next)
  | .error cause => (.error ⟨cause, path.render⟩, tree)

/-- An answer about a path. -/
def answer {α : Type} (path : Path) (result : Except FileCause α) : Except FileFault α :=
  result.mapError fun cause => ⟨cause, path.render⟩

/-- The text files of a tree below the working directory that are not in another one, with their
paths. -/
def changes (before after : FileTree) : List (String × String) :=
  after.entries.filterMap fun (location, entry) =>
    if location.head? = some ".." || location.head? = some "/" || location.head? = some "//" ||
        before.find? location = some entry then none
    else entry.text?.map fun s => (Text.join "/" location, s)

end FileTree

/-- A file tree answers the questions of a file system and keeps its changes. -/
instance : FileSystem (StateM FileTree) where
  kindOf path := fun tree => (FileTree.answer path ((tree.entry path).map FileEntry.kind), tree)
  readFile path := fun tree => (FileTree.answer path (tree.read path), tree)
  makeDirectory path := fun tree => tree.commit path (tree.makeDirectory path)
  writeFile path s := fun tree => tree.commit path (tree.write path (.text s))

end DesignTokens
