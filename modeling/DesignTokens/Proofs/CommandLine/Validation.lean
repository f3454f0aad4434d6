import DesignTokens.Proofs.CommandLine.Extension
import DesignTokens.Proofs.Document.Leaves

/-!
# What is reported on a document

A document that is not sound is reported on: validation finds all that is wrong, parsing fails with
the same errors, and the command shows one line for each of them. The one exception is a default mode
that is a list or a mapping, where there are themes to look it up in. There, validation breaks down
before anything is reported, and so do parsing and the command.

## Main definitions

- `CompoundDefault` — the default mode is a list or a mapping that is looked up among the themes
- `ReportedOn` — a document that is reported on as a whole
-/

namespace DesignTokens

variable {d : Document} {compound : Compound}

/-- What kind of value with parts a document is. -/
def Document.compound? : Document → Option Compound
  | .list _ => some .list
  | .mapping _ => some .mapping
  | _ => none

/-- A document that has themes, and a list or a mapping as the default mode. -/
structure CompoundDefault (d : Document) (compound : Compound) : Prop where
  themes : ∃ themes, d.at? ["theme", "themes"] = some (.mapping themes) ∧ themes ≠ []
  default : ∃ value, d.at? ["theme", "default"] = some value ∧ value.compound? = some compound

section Structure

theorem namedMode_eq_error_iff (themes : Mapping Document) (value : Document) :
    namedMode themes value = .error compound ↔ value.compound? = some compound := by
  cases value <;> simp [namedMode, Document.compound?]

/-- A catalogue that declares no default mode has one that is a text. -/
theorem compound?_declaredDefault_eq_some_iff (catalog : Mapping Document) :
    (declaredDefault catalog).compound? = some compound ↔
      ∃ value, Mapping.find? catalog "default" = some value ∧ value.compound? = some compound := by
  unfold declaredDefault
  cases Mapping.find? catalog "default" <;> simp [Document.compound?]

theorem catalogFaults_eq_error_iff (catalog : Mapping Document) :
    catalogFaults catalog = .error compound ↔
      (∃ themes, Mapping.find? catalog "themes" = some (.mapping themes) ∧ themes ≠ []) ∧
        ∃ value, Mapping.find? catalog "default" = some value ∧ value.compound? = some compound := by
  rw [← compound?_declaredDefault_eq_some_iff]
  unfold catalogFaults
  split
  · next hempty => simp [hempty]
  · next first rest hthemes =>
    rw [bind_eq_error_iff (by simp), namedMode_eq_error_iff]
    simp [hthemes]
  · next hempty hcons =>
    simp only [reduceCtorEq, false_iff, not_and]
    rintro ⟨themes, hthemes, hne⟩
    cases themes with
    | nil => exact absurd rfl hne
    | cons first rest => exact absurd hthemes (hcons first rest)

/-- Validation breaks down exactly where a list or a mapping is looked up among the themes. -/
theorem validate_eq_error_iff (d : Document) (compound : Compound) :
    validate d = .error compound ↔ CompoundDefault d compound := by
  have hpaths : CompoundDefault d compound ↔
      (∃ themes, d.at? ["theme", "themes"] = some (.mapping themes) ∧ themes ≠ []) ∧
        ∃ value, d.at? ["theme", "default"] = some value ∧ value.compound? = some compound :=
    ⟨fun h => ⟨h.themes, h.default⟩, fun h => ⟨h.1, h.2⟩⟩
  rw [hpaths]
  cases d with
  | mapping entries =>
    rw [validate, bind_eq_error_iff (by simp), structureFaults, bind_eq_error_iff (by simp),
      themeSectionFaults]
    simp only [Document.at?_cons, Document.at?_nil, Document.get?_mapping]
    cases Mapping.find? entries "theme" with
    | none => simp
    | some catalog =>
      cases catalog with
      | mapping catalog =>
        simpa using catalogFaults_eq_error_iff catalog
      | _ => simp [Document.get?, Document.entries?]
  | _ => simp [validate, Document.get?, Document.entries?]

end Structure

section Command

variable {tree : FileTree} {location : String} {findings : Findings}

/-- The command that validates a document shows what was found in it. -/
theorem runIn_validateConfig
    (hd : (exec (readDocument (.ofText location)) tree).1 = .ok d) :
    (Command.validateConfig location).runIn tree =
      (.ofResult ((findingsOf d).mapError .failed >>= reportFindings location), tree) := by
  have hread : exec (stepOf explainLoading (readDocument (.ofText location))) tree = (.ok d, tree) :=
    Prod.ext (exec_stepOf_eq_ok_iff.mpr hd) ((OnlyReads.readDocument _).stepOf _ _)
  rw [Command.runIn, Command.run, runValidate, exec_bind _ hread, findingsOf]
  cases validate d with
  | error compound => rfl
  | ok findings => rfl

end Command

/-- A document is reported on as a whole. Of a sound one the configuration is given, and parsed with
the same warnings. Of any other one all errors are listed, by validation, by parsing and by the
command. -/
structure ReportedOn (d : Document) (findings : Findings) : Prop where
  sound : findings.errors = [] ↔ SoundDocument d
  accepted : findings.errors = [] → ∃ config, findings.config = some config ∧
    parse d = .ok (config, findings.warnings)
  refused : findings.errors ≠ [] → findings.config = none ∧ ∃ faults,
    parse d = .error (.refused faults) ∧ faults.map ConfigFault.message = findings.errors
  listed : findings.errors ≠ [] → ∀ location tree,
    (exec (readDocument (.ofText location)) tree).1 = .ok d →
      ∃ outcome, (Command.validateConfig location).runIn tree = (outcome, tree) ∧
        outcome.ending.exitCode = 1 ∧ outcome.output = outputOfLines
          (findings.warnings.flatMap (notice .warning) ++ failureList
            (location ++ ": " ++ toString findings.errors.length ++ " error(s)") findings.errors)

theorem reported_of_validate {rule : LeafRule} {findings : Findings} (hd : d.Regular rule)
    (h : validate d = .ok findings) : ReportedOn d findings := by
  have hsound := errors_eq_nil_iff_sound hd h
  have hnone : findings.errors ≠ [] → findings.config = none := fun hne =>
    Option.eq_none_iff_forall_not_mem.mpr fun config hconfig =>
      hne ((config_eq_some_iff h config).mp hconfig).1
  refine ⟨hsound, fun herrors => ?_, fun hne => ⟨hnone hne, findings.faults, ?_, rfl⟩,
    fun hne location tree htree => ?_⟩
  · obtain ⟨-, -, -, config, hread⟩ := hsound.mp herrors
    exact ⟨config, (config_eq_some_iff h config).mpr ⟨herrors, hread⟩,
      parse_of_errors h herrors hread⟩
  · rw [parse, h]
    simp only [hnone hne]
  · refine ⟨_, runIn_validateConfig htree, ?_⟩
    have hreport : (findingsOf d).mapError .failed >>= reportFindings location =
        reportFindings location findings := by
      rw [findingsOf, h]
      rfl
    rw [hreport, reportFindings, hnone hne]
    exact ⟨rfl, rfl⟩

/-- A document with a value of a wrong type in each section. -/
def strayDocument : RawDocument :=
  .mapping [(.text "version", .scalar (.bool false)),
    (.text "theme", .mapping [(.text "default", .scalar (.int 7)),
      (.text "themes", .mapping [(.text "light", .list [.scalar .null]),
        (.text "dark", .mapping [(.text "colors", .mapping [
          (.text "gray", .mapping [(.int 50, .scalar (.text "#fff"))])])])])]),
    (.text "tokens", .scalar (.text "none"))]

def strayErrors : List String :=
  ["version is required",
    "theme.default must be one of: light, dark (got 7)",
    "theme \"light\" must be an object",
    "theme \"dark\" is missing semantic",
    "theme \"dark\": color scale \"gray\" is missing steps 100, 200, 300, 400, 500, 600, 700, " ++
      "800, 900, 950",
    "tokens configuration is required",
    "theme.default: Input should be a valid string",
    "theme.themes.light: Input should be a valid dictionary or instance of ThemeDefinition",
    "tokens: Input should be a valid dictionary or instance of TokensSpec"]

/-- A document that is sound but for its default mode, which stands in a list. -/
def listedDefault : RawDocument :=
  .mapping [(.text "version", .scalar (.text "1.0")),
    (.text "theme", .mapping [(.text "default", .list [.scalar (.text "light")]),
      (.text "themes", .mapping [(.text "light", .mapping [(.text "colors", .mapping []),
        (.text "semantic", .mapping [])])])]),
    (.text "tokens", .mapping [(.text "prefix", .scalar (.text "tc")),
      (.text "output", .scalar (.text "./tokens")),
      (.text "formats", .list [.scalar (.text "css")])])]

end DesignTokens
