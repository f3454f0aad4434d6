import DesignTokens.Failure
import DesignTokens.Text.Case

/-!
# Output formats

The formats in which artifacts are written. A format is for one mode at a time or for all selected
modes at once, and it may or may not look at the themes.

## Main definitions

- `Format` — the formats, with their names and file names
- `Format.find` — the format of a name, in any case
-/

namespace DesignTokens

/-- A format in which artifacts are written. -/
inductive Format where
  | css
  | scss
  | json
  | js
  | ts
  | tailwind
  | components
  | modes
  deriving DecidableEq, Repr

namespace Format

/-- All formats in their canonical order. -/
def all : List Format :=
  [css, scss, json, js, ts, tailwind, components, modes]

/-- The name of a format. -/
def name : Format → String
  | css => "css"
  | scss => "scss"
  | json => "json"
  | js => "js"
  | ts => "ts"
  | tailwind => "tailwind"
  | components => "components"
  | modes => "modes"

/-- The names of all formats. -/
def names : List String :=
  all.map name

/-- The file extension of a format. -/
def extension : Format → String
  | css | components | modes => "css"
  | scss => "scss"
  | json => "json"
  | js | tailwind => "js"
  | ts => "ts"

/-- The file name of a format before its mode and extension. -/
def stem : Format → String
  | tailwind => "tailwind.config"
  | components => "components"
  | modes => "theme-modes"
  | _ => "tokens"

def perMode : Format → Bool
  | css | scss | components => true
  | _ => false

def usesThemes : Format → Bool
  | tailwind | modes => false
  | _ => true

def fileName (format : Format) (mode : Option String) : String :=
  let mode := mode.getD ""
  if format.perMode && mode ≠ "" then format.stem ++ "-" ++ mode ++ "." ++ format.extension
  else format.stem ++ "." ++ format.extension

/-- The format with a name. -/
def ofName? (s : String) : Option Format :=
  all.find? fun format => format.name = s

def find (s : String) : Except Failure Format :=
  match ofName? (Text.lower s) with
  | some format => .ok format
  | none => .error (.unsupportedFormat ⟨s, names⟩)

theorem ofName?_name (format : Format) : ofName? format.name = some format := by
  cases format <;> decide

end Format

end DesignTokens
