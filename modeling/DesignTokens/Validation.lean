import DesignTokens.Config.Reading
import DesignTokens.Format

/-!
# Validation

A document is examined as a whole and every fault is reported at once: first the faults of its
structure, then the types of its values. All themes must have the shape of one reference theme, so
artifacts of different modes differ in values only.

## Main definitions

- `themeShape` — the names in a theme and the keys below each of them
- `structureFaults` — the faults of a document's structure
- `validate` — all faults and warnings, and the configuration when there is no fault
- `parse` — the configuration of a document, with its warnings
-/

namespace DesignTokens

/-- The steps of a colour scale, from lightest to darkest. -/
def colorSteps : List String :=
  ["50", "100", "200", "300", "400", "500", "600", "700", "800", "900", "950"]

/-- Texts in ascending order of their characters. -/
def sorted (names : List String) : List String :=
  names.mergeSort fun a b => decide (a ≤ b)

/-- The names of one part of a theme, each with the keys below it. A literal has none. -/
def partShape (part : String) (theme : Mapping Document) : Mapping (List String) :=
  match Mapping.find? theme part with
  | some (.mapping entries) =>
    entries.map fun (name, value) =>
      (part ++ "." ++ name, (value.entries?.map Mapping.keys).getD [])
  | _ => []

/-- The names in a theme and the keys below each of them. -/
def themeShape (theme : Mapping Document) : Mapping (List String) :=
  partShape "colors" theme ++ partShape "semantic" theme

/-- The keys that only one of two lists holds. -/
def keyDifference (xs ys : List String) : List String :=
  xs.filter (!ys.contains ·) ++ ys.filter (!xs.contains ·)

/-- The differences of a theme's shape from that of the reference theme. -/
def shapeFaults (reference : String) (expected : Mapping (List String)) (mode : String)
    (shape : Mapping (List String)) : List ConfigFault :=
  let known := Mapping.keys expected
  let found := Mapping.keys shape
  let missing := sorted (known.filter (!found.contains ·))
  let unknown := sorted (found.filter (!known.contains ·))
  let shared := sorted (known.filter (found.contains ·))
  missing.map (.keyMissing mode · reference) ++ unknown.map (.keyUnknown mode · reference) ++
    shared.filterMap fun key =>
      let difference := keyDifference ((Mapping.find? expected key).getD [])
        ((Mapping.find? shape key).getD [])
      if difference.isEmpty then none
      else some (.keysDiffer mode key reference (sorted difference))

/-- The faults of a colour's steps. A literal has none. -/
def scaleFaults (mode : String) : String × Document → List ConfigFault
  | (name, .mapping steps) =>
    let found := Mapping.keys steps
    let missing := colorSteps.filter (!found.contains ·)
    let unknown := sorted (found.filter (!colorSteps.contains ·))
    (if missing.isEmpty then [] else [.stepsMissing mode name missing]) ++
      (if unknown.isEmpty then [] else [.stepsUnknown mode name unknown])
  | _ => []

/-- The faults of one theme by itself. -/
def themeFaults : String × Document → List ConfigFault
  | (mode, .mapping theme) =>
    (if Mapping.has theme "colors" then [] else [.colorsMissing mode]) ++
      (if Mapping.has theme "semantic" then [] else [.semanticMissing mode]) ++
      match Mapping.find? theme "colors" with
      | some (.mapping colors) => colors.flatMap (scaleFaults mode)
      | _ => []
  | (mode, _) => [.themeNotMapping mode]

/-- The differences of all themes from the reference theme. -/
def shapesFaults (themes : Mapping Document) (reference : String) : List ConfigFault :=
  match Mapping.find? themes reference with
  | some (.mapping theme) =>
    themes.flatMap fun (mode, other) =>
      match other with
      | .mapping entries =>
        if mode = reference then []
        else shapeFaults reference (themeShape theme) mode (themeShape entries)
      | _ => []
  | _ => []

/-- The default mode as it stands in the document. -/
def declaredDefault (catalog : Mapping Document) : Document :=
  (Mapping.find? catalog "default").getD (.text "light")

/-- The declared mode that a value names. A list or a mapping cannot be looked up. -/
def namedMode (themes : Mapping Document) : Document → Except Compound (Option String)
  | .text mode => .ok (if Mapping.has themes mode then some mode else none)
  | .list _ => .error .list
  | .mapping _ => .error .mapping
  | _ => .ok none

/-- The faults of the theme section. -/
def catalogFaults (catalog : Mapping Document) : Except Compound (List ConfigFault) :=
  match Mapping.find? catalog "themes" with
  | some (.mapping []) => .ok [.themesEmpty]
  | some (.mapping (first :: rest)) => do
    let themes := first :: rest
    let default := declaredDefault catalog
    let named ← namedMode themes default
    let defaultFaults :=
      if named.isSome then [] else [.defaultUnknown (Mapping.keys themes) default]
    .ok (defaultFaults ++ themes.flatMap themeFaults ++
      shapesFaults themes (named.getD first.1))
  | _ => .ok [.themesNotMapping]

/-- Whether an entry is present and counts as such. -/
def present (entries : Mapping Document) (key : String) : Bool :=
  ((Mapping.find? entries key).map Document.truthy).getD false

/-- The fault of output settings without a list of formats. -/
def formatsFaults (tokens : Mapping Document) : List ConfigFault :=
  match Mapping.find? tokens "formats" with
  | some (.list _) => []
  | _ => [.formatsNotList]

def outputFaults (tokens : Mapping Document) : List ConfigFault :=
  (if present tokens "prefix" then [] else [.prefixMissing]) ++
    (if present tokens "output" then [] else [.outputMissing]) ++ formatsFaults tokens

/-- Warnings about formats that have no artifact. -/
def formatWarnings (tokens : Mapping Document) : List String :=
  match Mapping.find? tokens "formats" with
  | some (.list formats) =>
    (formats.filter fun format => (Format.ofName? (Text.lower format.plain)).isNone).map
      fun format => "tokens.formats: '" ++ format.plain ++ "' is not a supported format"
  | _ => []

def versionFaults (entries : Mapping Document) : List ConfigFault :=
  if present entries "version" then [] else [.versionMissing]

def themeSectionFaults (entries : Mapping Document) : Except Compound (List ConfigFault) :=
  match Mapping.find? entries "theme" with
  | some (.mapping catalog) => catalogFaults catalog
  | _ => .ok [.themeMissing]

def tokensSectionFaults (entries : Mapping Document) : List ConfigFault :=
  match Mapping.find? entries "tokens" with
  | some (.mapping tokens) => outputFaults tokens
  | _ => [.tokensMissing]

/-- The faults of a document's structure. -/
def structureFaults (entries : Mapping Document) : Except Compound (List ConfigFault) := do
  let themeFaults ← themeSectionFaults entries
  .ok (versionFaults entries ++ themeFaults ++ tokensSectionFaults entries)

/-- The warnings about a document. -/
def structureWarnings (entries : Mapping Document) : List String :=
  match Mapping.find? entries "tokens" with
  | some (.mapping tokens) => formatWarnings tokens
  | _ => []

/-- Adds the issues whose wording is not among the faults yet. -/
def addIssues (faults : List ConfigFault) : List Issue → List ConfigFault
  | [] => faults
  | issue :: rest =>
    if (faults.map ConfigFault.message).contains issue.message then addIssues faults rest
    else addIssues (faults ++ [.mistyped issue]) rest

/-- What validation found. The configuration is present exactly when there is no fault. -/
structure Findings where
  faults : List ConfigFault
  warnings : List String
  config : Option Config

namespace Findings

def errors (findings : Findings) : List String :=
  findings.faults.map ConfigFault.message

def isValid (findings : Findings) : Bool :=
  findings.faults.isEmpty

/-- The number of faults and of warnings. -/
def summary (findings : Findings) : String :=
  s!"TokenSpecValidationResult(errors={findings.faults.length}, " ++
    s!"warnings={findings.warnings.length})"

end Findings

/-- All faults and warnings of a document, and the configuration when there is no fault. -/
def validate : Document → Except Compound Findings
  | .mapping entries => do
    let faults ← structureFaults entries
    let checked := Config.read (.mapping entries)
    let all := addIssues faults checked.issues
    .ok ⟨all, structureWarnings entries, if all.isEmpty then checked.value? else none⟩
  | _ => .ok ⟨[.notMapping], [], none⟩

/-- The configuration of a document and the warnings about it, or every fault. -/
def parse (d : Document) : Except Failure (Config × List String) :=
  match validate d with
  | .error compound => .error (.compoundDefault compound)
  | .ok findings =>
    match findings.config with
    | some config => .ok (config, findings.warnings)
    | none => .error (.refused findings.faults)

end DesignTokens
