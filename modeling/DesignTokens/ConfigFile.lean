import DesignTokens.Config.Standard
import DesignTokens.Config.Writing
import DesignTokens.Files.Access
import DesignTokens.Json.Reader
import DesignTokens.Json.Writer
import DesignTokens.Validation
import DesignTokens.Yaml.Reader
import DesignTokens.Yaml.Writer

/-!
# Configuration files

A configuration is kept in a file, as JSON where the file's suffix says so and as YAML otherwise. A
location that is no such file is the directory of one with the usual name.

## Main definitions

- `configPath` — the file of a location
- `documentOfText` — the document of a file's text
- `readDocument`, `loadConfig`, `saveConfig` — reading, loading and saving
-/

namespace DesignTokens

variable {m : Type → Type} [Monad m] [FileSystem m]

/-- The usual name of a configuration file. -/
def configFileName : String := "tokencraft.yaml"

/-- The suffix of a path in lower case. -/
def suffixOf (path : Path) : String :=
  Text.lower path.suffix

def configPath (location : Path) : Path :=
  if [".yaml", ".yml", ".json"].contains (suffixOf location) then location
  else location.join configFileName

def holdsJson (path : Path) : Bool :=
  suffixOf path = ".json"

/-- The document of a file's text. -/
def documentOfText (path : Path) (s : String) : Except Failure Document :=
  if holdsJson path then
    match Json.read s.toList with
    | .ok d => .ok d
    | .error fault => .error (.unloadable (.invalidJson path.render (fault.message s.toList)))
  else
    match Yaml.read s.toList with
    | .ok d => .ok d
    | .error .malformed => .error (.unloadable (.invalidYaml path.render))
    | .error (.impossible fault) => .error (.impossibleValue fault)

def textOfConfig (path : Path) (config : Config) : String :=
  if holdsJson path then Json.indented config.toDocument ++ "\n"
  else Yaml.write config.entries

/-- The document of a file that is there. -/
def readPresent (path : Path) : ExceptT Failure m Document := do
  let content ← attempt (FileSystem.readFile path)
  let s ← known (content.decode.mapError .undecodable)
  known (documentOfText path s)

/-- The document at a location, before it is validated. -/
def readDocument (location : Path) : ExceptT Failure m Document := do
  let path := configPath location
  if ← attempt (isPresent path) then readPresent path
  else throw (.unloadable (.missing path.render))

/-- The configuration of a document from a file, with the warnings about it. A document that counts
as absent stands for the standard configuration where that is allowed. -/
def configOfDocument (path : Path) (useDefaults : Bool) (d : Document) :
    Except Failure (Config × List String) :=
  if d.truthy then parse d
  else if useDefaults then
    .ok (.standard, ["Empty token config at " ++ path.render ++ ", using defaults"])
  else .error (.unloadable (.empty path.render))

/-- The configuration at a location, with the warnings about it. Where a missing file may stand for
the standard configuration, it does. -/
def loadConfig (location : Path) (useDefaults : Bool) :
    ExceptT Failure m (Config × List String) := do
  let path := configPath location
  if ← attempt (isPresent path) then
    let d ← readPresent path
    known (configOfDocument path useDefaults d)
  else if useDefaults then pure (.standard, [])
  else throw (.unloadable (.missing path.render))

/-- Saves a configuration at a location, and gives the path of its file. -/
def saveConfig (location : Path) (config : Config) : ExceptT Failure m Path := do
  let path := configPath location
  attempt (writeWithParents path (textOfConfig path config))
  pure path

end DesignTokens
