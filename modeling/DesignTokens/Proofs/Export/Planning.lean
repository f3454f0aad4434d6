import DesignTokens.Export.Job
import Mathlib.Data.Prod.Lex
import Mathlib.Data.String.Basic

/-!
# Planned jobs

Every planned job belongs to a format and to the selected modes, which are declared. The order of
jobs looks at the format and the mode only, but it leaves no two different planned jobs level: a
format is either for one mode at a time, and then the mode tells its jobs apart, or it has one job.

## Main definitions

- `Planned` — the jobs of all formats in some modes
- `Job.sortKey` — what the order of jobs looks at
-/

namespace DesignTokens

variable {config : Config} {formats : List String} {selector : ModeSelector} {jobs : List Job}
  {modes : List String} {job : Job}

theorem Format.name_injective {format other : Format} (h : format.name = other.name) :
    format = other := by
  have hother := Format.ofName?_name other
  rw [← h, Format.ofName?_name] at hother
  exact Option.some.inj hother

theorem Format.find_name (format : Format) : Format.find format.name = .ok format := by
  cases format <;> rfl

theorem mem_formatJobs {format : Format} : job ∈ formatJobs modes format ↔
    (format.perMode = true ∧ ∃ mode ∈ modes, job = ⟨format.name, some mode, [mode]⟩) ∨
      (format.perMode = false ∧ job = ⟨format.name, none, modes⟩) := by
  unfold formatJobs
  cases format.perMode <;> simp [eq_comm]

theorem selectModes_subset (h : selectModes config selector = .ok modes) :
    ∀ mode ∈ modes, mode ∈ config.modes := by
  cases selector with
  | all =>
    cases h
    exact fun _ hmode => hmode
  | named names =>
    simp only [selectModes] at h
    split at h
    · cases h
    · next hnone =>
      cases h
      simpa using List.find?_eq_none.mp hnone

theorem mem_distinct {names : List String} {name : String} : name ∈ distinct names ↔ name ∈ names := by
  rw [distinct, Mapping.ofEntries, Mapping.mem_keys_setAll]
  simp [Mapping.keys]

theorem nodup_distinct (names : List String) : (distinct names).Nodup :=
  Mapping.nodup_keys_ofEntries _

theorem planJobs_eq_ok (h : planJobs config formats selector = .ok jobs) :
    ∃ modes, ∃ found : List Format, selectModes config selector = .ok modes ∧
      findFormats (distinct (formats.map Text.lower)) = .ok found ∧
      jobs = (found.flatMap (formatJobs modes)).mergeSort Job.precedes := by
  unfold planJobs at h
  cases hmodes : selectModes config selector with
  | error failure => simp [hmodes, bind, Except.bind] at h
  | ok modes =>
    cases hfound : findFormats (distinct (formats.map Text.lower)) with
    | error failure => simp [hmodes, hfound, bind, Except.bind] at h
    | ok found =>
      rw [hmodes, hfound] at h
      exact ⟨modes, found, rfl, rfl, (Except.ok.inj h).symm⟩

/-- Jobs that are in order as their formats are asked for stay so. -/
theorem planJobs_of_sorted {found : List Format} (hmodes : selectModes config selector = .ok modes)
    (hfound : findFormats (distinct (formats.map Text.lower)) = .ok found)
    (hsorted : (found.flatMap (formatJobs modes)).Pairwise fun a b => a.precedes b = true) :
    planJobs config formats selector = .ok (found.flatMap (formatJobs modes)) := by
  rw [planJobs, hmodes]
  simp only [bind, Except.bind, hfound, List.mergeSort_of_pairwise hsorted]

/-- The jobs of all formats in some modes. -/
def Planned (modes : List String) (job : Job) : Prop :=
  ∃ format : Format, job ∈ formatJobs modes format

theorem planned_of_planJobs (h : planJobs config formats selector = .ok jobs) :
    ∃ modes, (∀ mode ∈ modes, mode ∈ config.modes) ∧ ∀ job ∈ jobs, Planned modes job := by
  obtain ⟨modes, found, hmodes, -, rfl⟩ := planJobs_eq_ok h
  refine ⟨modes, selectModes_subset hmodes, fun job hjob => ?_⟩
  obtain ⟨format, -, hformat⟩ := List.mem_flatMap.mp (List.mem_mergeSort.mp hjob)
  exact ⟨format, hformat⟩

namespace Planned

/-- The format of a planned job, and what the job gets: one mode or all of them. -/
theorem exists_format (h : Planned modes job) : ∃ format : Format, job.format = format.name ∧
    (∀ mode ∈ job.modes, mode ∈ modes) ∧
      (format.perMode = true → ∃ mode, job.mode = some mode ∧ job.modes = [mode]) ∧
      (format.perMode = false → job.mode = none) := by
  obtain ⟨format, hformat⟩ := h
  obtain ⟨hper, mode, hmode, rfl⟩ | ⟨hper, rfl⟩ := mem_formatJobs.mp hformat
  · exact ⟨format, rfl, by simpa using hmode, fun _ => ⟨mode, rfl, rfl⟩, by simp [hper]⟩
  · exact ⟨format, rfl, fun _ hmode => hmode, by simp [hper], fun _ => rfl⟩

/-- Planned jobs of one format and one mode are the same. -/
theorem ext {other : Job} (h : Planned modes job) (hother : Planned modes other)
    (hformat : job.format = other.format) (hmode : job.mode.getD "" = other.mode.getD "") :
    job = other := by
  obtain ⟨format, hmem⟩ := h
  obtain ⟨format', hmem'⟩ := hother
  obtain ⟨hper, mode, -, rfl⟩ | ⟨hper, rfl⟩ := mem_formatJobs.mp hmem <;>
    obtain ⟨hper', mode', -, rfl⟩ | ⟨hper', rfl⟩ := mem_formatJobs.mp hmem' <;>
    cases Format.name_injective hformat
  · cases (show mode = mode' from hmode)
    rfl
  -- A format is for one mode at a time or it is not.
  · simp [hper] at hper'
  · simp [hper] at hper'
  · rfl

end Planned

namespace Job

/-- What the order of jobs looks at: the format, then the mode. -/
def sortKey (job : Job) : Lex (String × String) :=
  toLex (job.format, job.mode.getD "")

theorem precedes_iff (a b : Job) : a.precedes b = true ↔ a.sortKey ≤ b.sortKey := by
  simp [precedes, sortKey, Prod.Lex.toLex_le_toLex]

theorem precedes_trans (a b c : Job) (hab : a.precedes b = true) (hbc : b.precedes c = true) :
    a.precedes c = true := by
  rw [precedes_iff] at hab hbc ⊢
  exact hab.trans hbc

theorem precedes_total (a b : Job) : (a.precedes b || b.precedes a) = true := by
  rw [Bool.or_eq_true, precedes_iff, precedes_iff]
  exact le_total _ _

/-- Of two planned jobs neither of which has to stand after the other, both are the same. -/
theorem eq_of_precedes {a b : Job} (ha : Planned modes a) (hb : Planned modes b)
    (hab : a.precedes b = true) (hba : b.precedes a = true) : a = b := by
  rw [precedes_iff] at hab hba
  have hkey := Prod.ext_iff.mp (toLex.injective (le_antisymm hab hba))
  exact ha.ext hb hkey.1 hkey.2

end Job

theorem planJobs_sorted (h : planJobs config formats selector = .ok jobs) :
    jobs.Pairwise fun a b => a.precedes b = true := by
  obtain ⟨modes, found, -, -, rfl⟩ := planJobs_eq_ok h
  exact List.pairwise_mergeSort Job.precedes_trans Job.precedes_total _

end DesignTokens
