import DesignTokens.Proofs.Validation.Structure
import Mathlib.Data.List.Permutation

/-!
# The verdict on a document

Validation finds no error exactly in the documents that are sound: their structure is as it must be
and their values have the types of a configuration. It gives a configuration for these and for no
others.

## Main definitions

- `SoundDocument` — a sound structure whose values have their types
-/

namespace DesignTokens

/-- A mapping with a sound structure whose values have the types of a configuration. -/
def SoundDocument (d : Document) : Prop :=
  ∃ entries, d = .mapping entries ∧ SoundStructure entries ∧ ∃ config, Config.read d = .valid config

theorem addIssues_eq_nil_iff (faults : List ConfigFault) (issues : List Issue) :
    addIssues faults issues = [] ↔ faults = [] ∧ issues = [] := by
  induction issues generalizing faults with
  | nil => simp [addIssues]
  | cons issue rest ih =>
    rw [addIssues]
    split
    · next hknown =>
      have hne : faults ≠ [] := by
        rintro rfl
        simp at hknown
      simp [ih, hne]
    · simp [ih]

theorem errors_eq_nil_iff (findings : Findings) : findings.errors = [] ↔ findings.faults = [] :=
  List.map_eq_nil_iff

/-- What validation found in a mapping. -/
theorem validate_mapping_eq_ok_iff (entries : Mapping Document) (findings : Findings) :
    validate (.mapping entries) = .ok findings ↔ ∃ faults, structureFaults entries = .ok faults ∧
      findings = ⟨addIssues faults (Config.read (.mapping entries)).issues, structureWarnings entries,
        if (addIssues faults (Config.read (.mapping entries)).issues).isEmpty then
          (Config.read (.mapping entries)).value? else none⟩ := by
  cases h : structureFaults entries with
  | error compound => simp [validate, h, bind, Except.bind]
  | ok faults =>
    simp only [validate, h]
    constructor
    · intro hfindings
      cases hfindings
      exact ⟨faults, rfl, rfl⟩
    · rintro ⟨_, hfaults, rfl⟩
      cases hfaults
      rfl

/-- No error is found in a regular document exactly when it is sound. -/
theorem errors_eq_nil_iff_sound {rule : LeafRule} {d : Document} (hd : d.Regular rule)
    {findings : Findings} (h : validate d = .ok findings) :
    findings.errors = [] ↔ SoundDocument d := by
  rw [errors_eq_nil_iff]
  cases d with
  | mapping entries =>
    obtain ⟨faults, hfaults, rfl⟩ := (validate_mapping_eq_ok_iff entries findings).mp h
    rw [addIssues_eq_nil_iff, Checked.issues_eq_nil_iff, structureFaults_eq_nil_iff hfaults hd]
    simp [SoundDocument]
  | _ =>
    cases h
    simp [SoundDocument]

/-- A configuration is given exactly where no error is found, and it is the one that was read. -/
theorem config_eq_some_iff {d : Document} {findings : Findings} (h : validate d = .ok findings)
    (config : Config) :
    findings.config = some config ↔ findings.errors = [] ∧ Config.read d = .valid config := by
  rw [errors_eq_nil_iff]
  cases d with
  | mapping entries =>
    obtain ⟨faults, -, rfl⟩ := (validate_mapping_eq_ok_iff entries findings).mp h
    simp only [List.isEmpty_iff, Option.ite_none_right_eq_some, Checked.value?_eq_some_iff]
  | _ =>
    cases h
    simp

/-- Validation accepts exactly the sound documents, and it gives a configuration for these only. -/
theorem validate_accepts_iff_sound (raw : RawDocument) (findings : Findings)
    (h : validate raw.normalize = .ok findings) :
    (findings.errors = [] ↔ SoundDocument raw.normalize) ∧
      (findings.config.isSome = true ↔ findings.errors = []) ∧
      ∀ config, findings.config = some config → Config.read raw.normalize = .valid config := by
  have hsound := errors_eq_nil_iff_sound raw.regular_normalize h
  refine ⟨hsound, ?_, fun config hconfig => ((config_eq_some_iff h config).mp hconfig).2⟩
  rw [Option.isSome_iff_exists]
  constructor
  · rintro ⟨config, hconfig⟩
    exact ((config_eq_some_iff h config).mp hconfig).1
  · intro herrors
    obtain ⟨-, -, -, config, hread⟩ := hsound.mp herrors
    exact ⟨config, (config_eq_some_iff h config).mpr ⟨herrors, hread⟩⟩

/-- All steps of a scale in one colour, under whole numbers as keys. -/
def sampleScale (color : String) : RawDocument :=
  .mapping ([50, 100, 200, 300, 400, 500, 600, 700, 800, 900, 950].map fun step =>
    (.int step, .scalar (.text color)))

/-- A document with two themes, which do not declare their names in the same order, and a component
with the given base style. -/
def sampleDocument (style : List (Scalar × RawDocument)) : RawDocument :=
  .mapping [(.text "version", .scalar (.int 1)),
    (.text "theme", .mapping [(.text "default", .scalar (.text "night")),
      (.text "themes", .mapping [
        (.text "day", .mapping [
          (.text "colors", .mapping [(.text "ink", .scalar (.text "#000")),
            (.text "gray", sampleScale "#888")]),
          (.text "semantic", .mapping [(.text "text", .mapping [
            (.text "body", .scalar (.text "colors.ink")),
            (.text "muted", .scalar (.text "colors.gray.600"))])])]),
        (.text "night", .mapping [
          (.text "semantic", .mapping [(.text "text", .mapping [
            (.text "muted", .scalar (.text "colors.gray.400")),
            (.text "body", .scalar (.text "colors.ink"))])]),
          (.text "colors", .mapping [(.text "gray", sampleScale "#777"),
            (.text "ink", .scalar (.text "#fff"))])])])]),
    (.text "tokens", .mapping [(.text "prefix", .scalar (.text "tc")),
      (.text "output", .scalar (.text "./tokens")),
      (.text "formats", .list [.scalar (.text "css")])]),
    (.text "components", .mapping [(.text "library", .mapping [(.text "card", .mapping [
      (.text "base", .mapping style)])])])]

/-- Whatever the style of its component is, the sample is valid if its values have their types. -/
theorem validate_sample (style : List (Scalar × RawDocument)) {config : Config}
    (hread : Config.read (sampleDocument style).normalize = .valid config) : ∃ findings,
      validate (sampleDocument style).normalize = .ok findings ∧ findings.errors = [] := by
  obtain ⟨entries, hentries, hfaults⟩ : ∃ entries,
      (sampleDocument style).normalize = .mapping entries ∧ structureFaults entries = .ok [] :=
    ⟨_, rfl, by cbv⟩
  rw [hentries] at hread ⊢
  refine ⟨_, (validate_mapping_eq_ok_iff entries _).mpr ⟨[], hfaults, rfl⟩, ?_⟩
  rw [hread]
  rfl

theorem validate_accepts_sample : ∃ findings,
    validate (sampleDocument []).normalize = .ok findings ∧ findings.errors = [] ∧
      findings.config.isSome = true ∧ SoundDocument (sampleDocument []).normalize := by
  obtain ⟨config, hread⟩ : ∃ config, Config.read (sampleDocument []).normalize = .valid config :=
    ⟨_, rfl⟩
  obtain ⟨findings, h, herrors⟩ := validate_sample [] hread
  obtain ⟨hsound, hconfig, -⟩ := validate_accepts_iff_sound _ findings h
  exact ⟨findings, h, herrors, hconfig.mpr herrors, hsound.mp herrors⟩

end DesignTokens
