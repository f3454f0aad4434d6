import DesignTokens.Config.Standard
import DesignTokens.Proofs.Export.Planning
import DesignTokens.Proofs.Text.Case
import Mathlib.Data.List.Count
import Mathlib.Data.List.Nodup

/-!
# What a plan covers

A plan has the jobs of every requested format and no others. A format that is asked for several times,
in whatever case, is planned once. A mode that is selected several times is planned as often, so a
plan repeats a job exactly when its selector repeats a mode and some format is for one mode at a time.

## Main definitions

- `ModeSelector.modes` — the modes that a selector stands for
-/

namespace DesignTokens

/-- The modes that a selector stands for. -/
def ModeSelector.modes (config : Config) : ModeSelector → List String
  | all => config.modes
  | named modes => modes

variable {config : Config} {formats : List String} {selector : ModeSelector} {jobs : List Job}
  {modes : List String} {format : Format} {found : List Format}

theorem modes_of_selectModes (h : selectModes config selector = .ok modes) :
    modes = selector.modes config := by
  cases selector with
  | all => exact (Except.ok.inj h).symm
  | named names =>
    simp only [selectModes] at h
    split at h
    · cases h
    · exact (Except.ok.inj h).symm

section Formats

theorem Format.name_of_find {name : String} (h : Format.find name = .ok format) :
    Text.lower name = format.name := by
  unfold Format.find at h
  split at h
  · next other hother =>
    obtain rfl := Except.ok.inj h
    exact (by simpa using List.find?_some hother : other.name = _).symm
  · cases h

/-- Names in lower case that stand for formats are the names of these formats. -/
theorem names_of_findFormats {names : List String} (hlower : ∀ name ∈ names, ∃ s, name = Text.lower s)
    (h : findFormats names = .ok found) : found.map Format.name = names := by
  induction names generalizing found with
  | nil =>
    obtain rfl := Except.ok.inj h
    rfl
  | cons name rest ih =>
    rw [List.forall_mem_cons] at hlower
    cases hname : Format.find name with
    | error failure => simp [findFormats, hname, bind, Except.bind] at h
    | ok format =>
      cases hrest : findFormats rest with
      | error failure => simp [findFormats, hname, hrest, bind, Except.bind] at h
      | ok more =>
        simp only [findFormats, hname, hrest, bind, Except.bind, Except.ok.injEq] at h
        subst h
        obtain ⟨s, rfl⟩ := hlower.1
        have hformat := Format.name_of_find hname
        -- The name was in lower case before it was looked up.
        rw [Text.lower_lower] at hformat
        rw [List.map_cons, ih hlower.2 hrest, hformat]

theorem names_of_requested (h : findFormats (distinct (formats.map Text.lower)) = .ok found) :
    found.map Format.name = distinct (formats.map Text.lower) := by
  refine names_of_findFormats (fun name hname => ?_) h
  obtain ⟨s, -, rfl⟩ := List.mem_map.mp (mem_distinct.mp hname)
  exact ⟨s, rfl⟩

theorem nodup_requested (h : findFormats (distinct (formats.map Text.lower)) = .ok found) :
    found.Nodup := by
  apply List.Nodup.of_map Format.name
  rw [names_of_requested h]
  exact nodup_distinct _

theorem mem_requested (h : findFormats (distinct (formats.map Text.lower)) = .ok found) :
    format ∈ found ↔ format.name ∈ formats.map Text.lower := by
  rw [← mem_distinct, ← names_of_requested h, List.mem_map]
  constructor
  · exact fun hformat => ⟨format, hformat, rfl⟩
  · rintro ⟨other, hother, hname⟩
    exact Format.name_injective hname ▸ hother

end Formats

section Counting

theorem format_of_mem_formatJobs {job : Job} (h : job ∈ formatJobs modes format) :
    job.format = format.name := by
  obtain ⟨-, mode, -, rfl⟩ | ⟨-, rfl⟩ := mem_formatJobs.mp h <;> rfl

/-- A job is planned as often as its own format has it. -/
theorem count_flatMap_formatJobs (hfound : found.Nodup) (hformat : format ∈ found) {job : Job}
    (hjob : job.format = format.name) :
    (found.flatMap (formatJobs modes)).count job = (formatJobs modes format).count job := by
  induction found with
  | nil => cases hformat
  | cons first rest ih =>
    obtain ⟨hfresh, hrest⟩ := List.nodup_cons.mp hfound
    have hother {other : Format} (hne : other ≠ format) : job ∉ formatJobs modes other := fun hmem =>
      hne (Format.name_injective ((format_of_mem_formatJobs hmem).symm.trans hjob))
    rw [List.flatMap_cons, List.count_append]
    obtain rfl | hmem := List.mem_cons.mp hformat
    · have hnone : job ∉ rest.flatMap (formatJobs modes) := by
        intro hmem
        obtain ⟨other, hin, hmem⟩ := List.mem_flatMap.mp hmem
        exact hother (fun heq => hfresh (heq ▸ hin)) hmem
      rw [List.count_eq_zero_of_not_mem hnone, Nat.add_zero]
    · have hnone : job ∉ formatJobs modes first :=
        hother fun heq => hfresh (heq ▸ hmem)
      rw [List.count_eq_zero_of_not_mem hnone, Nat.zero_add, ih hrest hmem]

theorem count_formatJobs_mode (hper : format.perMode = true) (mode : String) :
    (formatJobs modes format).count ⟨format.name, some mode, [mode]⟩ = modes.count mode := by
  have hinjective : Function.Injective fun mode => Job.mk format.name (some mode) [mode] := by
    intro mode mode' h
    simpa using h
  rw [formatJobs, if_pos hper]
  exact List.count_map_of_injective modes _ hinjective mode

theorem count_formatJobs_all (hper : format.perMode = false) :
    (formatJobs modes format).count ⟨format.name, none, modes⟩ = 1 := by
  rw [formatJobs, if_neg (by simp [hper]), List.count_singleton_self]

end Counting

section Plans

variable (h : planJobs config formats selector = .ok jobs)
include h

theorem mem_plan_iff (job : Job) : job ∈ jobs ↔
    ∃ format : Format, format.name ∈ formats.map Text.lower ∧
      ((format.perMode = true ∧
          ∃ mode ∈ selector.modes config, job = ⟨format.name, some mode, [mode]⟩) ∨
        (format.perMode = false ∧ job = ⟨format.name, none, selector.modes config⟩)) := by
  obtain ⟨modes, found, hmodes, hfound, rfl⟩ := planJobs_eq_ok h
  obtain rfl := modes_of_selectModes hmodes
  simp only [List.mem_mergeSort, List.mem_flatMap, mem_formatJobs, mem_requested hfound]

theorem count_plan_eq (hformat : format.name ∈ formats.map Text.lower) {job : Job}
    (hjob : job.format = format.name) :
    jobs.count job = (formatJobs (selector.modes config) format).count job := by
  obtain ⟨modes, found, hmodes, hfound, rfl⟩ := planJobs_eq_ok h
  obtain rfl := modes_of_selectModes hmodes
  rw [(List.mergeSort_perm _ _).count_eq]
  exact count_flatMap_formatJobs (nodup_requested hfound) ((mem_requested hfound).mpr hformat) hjob

theorem count_plan_mode (hformat : format.name ∈ formats.map Text.lower)
    (hper : format.perMode = true) (mode : String) :
    jobs.count ⟨format.name, some mode, [mode]⟩ = (selector.modes config).count mode := by
  rw [count_plan_eq h hformat rfl, count_formatJobs_mode hper]

theorem count_plan_all (hformat : format.name ∈ formats.map Text.lower)
    (hper : format.perMode = false) :
    jobs.count ⟨format.name, none, selector.modes config⟩ = 1 := by
  rw [count_plan_eq h hformat rfl, count_formatJobs_all hper]

theorem nodup_plan_iff : jobs.Nodup ↔ (selector.modes config).Nodup ∨
    ∀ format : Format, format.name ∈ formats.map Text.lower → format.perMode = false := by
  rw [List.nodup_iff_count_le_one]
  constructor
  · intro hcount
    by_cases hper : ∃ format : Format, format.name ∈ formats.map Text.lower ∧ format.perMode = true
    · obtain ⟨format, hformat, hper⟩ := hper
      left
      rw [List.nodup_iff_count_le_one]
      intro mode
      rw [← count_plan_mode h hformat hper mode]
      exact hcount _
    · right
      intro format hformat
      by_contra hother
      exact hper ⟨format, hformat, by simpa using hother⟩
  · intro hmodes job
    by_cases hjob : job ∈ jobs
    · obtain ⟨format, hformat, ⟨hper, mode, -, rfl⟩ | ⟨hper, rfl⟩⟩ := (mem_plan_iff h job).mp hjob
      · rw [count_plan_mode h hformat hper]
        obtain hnodup | hnone := hmodes
        · exact List.nodup_iff_count_le_one.mp hnodup mode
        · simp [hnone format hformat] at hper
      · rw [count_plan_all h hformat hper]
    · rw [List.count_eq_zero_of_not_mem hjob]
      exact Nat.zero_le 1

/-- Two jobs of a plan that are level are the same job. -/
theorem strictly_sorted_plan_iff :
    (jobs.Pairwise fun a b => a.sortKey < b.sortKey) ↔ jobs.Nodup := by
  obtain ⟨modes, -, hplanned⟩ := planned_of_planJobs h
  constructor
  · intro hsorted
    refine hsorted.imp fun hlt heq => ?_
    subst heq
    exact absurd hlt (lt_irrefl _)
  · intro hnodup
    refine ((planJobs_sorted h).and hnodup).imp_of_mem fun ha hb hab => ?_
    refine lt_of_le_of_ne ((Job.precedes_iff _ _).mp hab.1) fun hkey => hab.2 ?_
    exact Job.eq_of_precedes (hplanned _ ha) (hplanned _ hb) hab.1
      ((Job.precedes_iff _ _).mpr hkey.ge)

end Plans

/-- A plan has one job for each selected mode of a requested format that is for one mode at a time, as
often as the selector has the mode, one job with all selected modes for each other requested format,
and no others. It is strictly increasing by format and mode, without a job that is planned twice,
exactly when the selector repeats no mode or no requested format is for one mode at a time. -/
theorem plan_strictly_increasing_iff (h : planJobs config formats selector = .ok jobs) :
    (∀ job, job ∈ jobs ↔ ∃ format : Format, format.name ∈ formats.map Text.lower ∧
        ((format.perMode = true ∧
            ∃ mode ∈ selector.modes config, job = ⟨format.name, some mode, [mode]⟩) ∨
          (format.perMode = false ∧ job = ⟨format.name, none, selector.modes config⟩))) ∧
      (∀ format : Format, format.name ∈ formats.map Text.lower →
        (format.perMode = true → ∀ mode,
          jobs.count ⟨format.name, some mode, [mode]⟩ = (selector.modes config).count mode) ∧
        (format.perMode = false → jobs.count ⟨format.name, none, selector.modes config⟩ = 1)) ∧
      ((jobs.Pairwise fun a b => a.sortKey < b.sortKey) ↔ jobs.Nodup) ∧
      (jobs.Nodup ↔ (selector.modes config).Nodup ∨
        ∀ format : Format, format.name ∈ formats.map Text.lower → format.perMode = false) := by
  refine ⟨mem_plan_iff h, fun format hformat => ⟨?_, ?_⟩, strictly_sorted_plan_iff h, nodup_plan_iff h⟩
  · exact fun hper mode => count_plan_mode h hformat hper mode
  · exact fun hper => count_plan_all h hformat hper

theorem standard_plan_strictly_increasing : ∃ jobs,
    planJobs .standard ["CSS", "json", "css"] (.named ["dark", "light"]) = .ok jobs ∧
      jobs.map Job.describe = ["css[dark]", "css[light]", "json"] ∧
      jobs.Pairwise fun a b => a.sortKey < b.sortKey := by
  have hsorted : ([Format.css, .json].flatMap (formatJobs ["dark", "light"])).Pairwise
      fun a b => a.precedes b = true := by
    decide
  have hplan : planJobs .standard ["CSS", "json", "css"] (.named ["dark", "light"]) =
      .ok ([Format.css, .json].flatMap (formatJobs ["dark", "light"])) :=
    planJobs_of_sorted rfl rfl hsorted
  obtain ⟨-, -, hstrict, hnodup⟩ := plan_strictly_increasing_iff hplan
  exact ⟨_, hplan, by decide, hstrict.mpr (hnodup.mpr (.inl (by decide)))⟩

/-- A mode that is selected twice is planned twice. -/
theorem exists_plan_repeats_job : ∃ config formats selector jobs,
    planJobs config formats selector = .ok jobs ∧
      ¬ jobs.Pairwise fun a b => a.sortKey < b.sortKey := by
  have hsorted : ([Format.css].flatMap (formatJobs ["light", "light"])).Pairwise
      fun a b => a.precedes b = true := by
    decide
  refine ⟨.standard, ["css"], .named ["light", "light"], _, planJobs_of_sorted rfl rfl hsorted, ?_⟩
  intro hstrict
  exact absurd ((List.pairwise_cons.mp hstrict).1 _ List.mem_cons_self) (lt_irrefl _)

end DesignTokens
