import DesignTokens.Text.Pieces

/-!
# Paths

A path is a root, which is empty for a relative path, and the names below it. Empty names and the
name `.` say nothing and are left out; the name `..` is kept.

## Main definitions

- `Path` — a root and names
- `Path.ofText`, `Path.render` — a path from and as text
- `Path.name`, `Path.stem`, `Path.suffix` — the last name and its two parts
- `Path.parent`, `Path.join`, `Path.withName?` — neighbouring paths
-/

namespace DesignTokens

/-- A root and the names below it. -/
structure Path where
  root : String
  names : List String
  deriving DecidableEq, Repr

namespace Path

/-- The root that a text starts with: two slashes are a root of their own, three are one. -/
def rootOf : List Char → String
  | '/' :: '/' :: '/' :: _ => "/"
  | '/' :: '/' :: _ => "//"
  | '/' :: _ => "/"
  | _ => ""

def namesOf (s : String) : List String :=
  (Text.split '/' s).filter fun name => name ≠ "" && name ≠ "."

def ofText (s : String) : Path :=
  ⟨rootOf s.toList, namesOf s⟩

/-- The text of a path. The empty path is the current directory. -/
def render (path : Path) : String :=
  if path.root = "" && path.names.isEmpty then "."
  else path.root ++ Text.join "/" path.names

/-- Whether the text of a path has a null character. -/
def hasNull (path : Path) : Bool :=
  path.render.toList.contains '\x00'

def name (path : Path) : String :=
  path.names.getLast?.getD ""

def parent (path : Path) : Path :=
  { path with names := path.names.dropLast }

/-- A relative path below a path; an absolute one is itself. -/
def join (path : Path) (s : String) : Path :=
  let other := ofText s
  if other.root = "" then { path with names := path.names ++ other.names } else other

/-- A name before and from its last dot. A dot at either end does not count. -/
def splitName (cs : List Char) : List Char × List Char :=
  let after := cs.reverse.takeWhile (· ≠ '.')
  let before := (cs.reverse.dropWhile (· ≠ '.')).drop 1
  if before.isEmpty || after.isEmpty then (cs, [])
  else (before.reverse, '.' :: after.reverse)

def stem (path : Path) : String :=
  String.ofList (splitName path.name.toList).1

def suffix (path : Path) : String :=
  String.ofList (splitName path.name.toList).2

def isName (s : String) : Bool :=
  s ≠ "" && s ≠ "." && !s.toList.contains '/'

/-- The path with another last name. -/
def withName? (path : Path) (s : String) : Option Path :=
  if isName s then some { path with names := path.names.dropLast ++ [s] } else none

end Path

end DesignTokens
