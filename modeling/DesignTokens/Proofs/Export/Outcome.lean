import DesignTokens.Config.Standard
import DesignTokens.Proofs.Export.Planning
import DesignTokens.Proofs.Resolver.Policies

/-!
# Outcomes of planned jobs

A planned job knows its format and gets declared modes, one where its format is for one mode at a
time, so nothing but its references can keep it from being done. Under the lenient policy it always
is. Under the strict policy it has the same content, or it reports a reference without a value. A
word that names no policy is the only thing that a planned job cannot report.
-/

namespace DesignTokens

variable {config : Config} {formats : List String} {selector : ModeSelector} {jobs : List Job}
  {modes : List String} {job : Job} {format : Format} {policy : Document}

theorem emit_components {theme : ResolvedTheme} {declared : Theme}
    (h : config.theme? theme.mode = some declared) (policy : Policy) :
    config.emit policy [theme] .components =
      Config.componentSheet ⟨config, theme.mode, declared, policy⟩ := by
  have hresolver := Resolver.ofMode_of_find h policy
  simp only [Config.emit, theOnlyTheme, bind, Except.bind, hresolver]

theorem conservative_emit {themes : List ResolvedTheme}
    (hmodes : ∀ theme ∈ themes, theme.mode ∈ config.modes)
    (honly : format.perMode = true → ∃ theme, themes = [theme]) :
    Conservative fun policy => config.emit policy themes format := by
  cases format with
  | json => exact .ok (config.dataFile themes)
  | js => exact .ok (config.scriptModule themes)
  | ts => exact .ok (config.typedModule themes)
  | tailwind => exact .ok config.tailwindModule
  | modes => exact .ok modesSheet
  | css =>
    obtain ⟨theme, rfl⟩ := honly rfl
    exact .ok (config.customProperties theme)
  | scss =>
    obtain ⟨theme, rfl⟩ := honly rfl
    exact .ok (config.stylesheetVariables theme)
  | components =>
    obtain ⟨theme, rfl⟩ := honly rfl
    obtain ⟨declared, hdeclared⟩ := Config.exists_theme (hmodes theme (List.mem_singleton_self _))
    simp only [emit_components hdeclared]
    exact conservative_componentSheet ⟨config, theme.mode, declared, .strict⟩

theorem conservative_jobContent (hmodes : ∀ mode ∈ job.modes, mode ∈ config.modes)
    (honly : format.perMode = true → ∃ mode, job.modes = [mode]) :
    Conservative fun policy => jobContent job format config (.text policy.name) := by
  simp only [jobContent, Policy.ofWord_name]
  cases huses : format.usesThemes with
  | false =>
    -- A format that looks at no theme is for all modes at once.
    have hper : format.perMode = true → ∃ theme : ResolvedTheme, [] = [theme] := by
      cases format <;> simp_all [Format.usesThemes, Format.perMode]
    exact conservative_emit (fun _ hmem => absurd hmem List.not_mem_nil) hper
  | true =>
    refine (conservative_resolveThemes hmodes).bind fun themes hthemes => ?_
    have hnames := modes_of_resolveThemes hthemes
    refine conservative_emit (fun theme hmem => ?_) fun hper => ?_
    · exact hmodes _ (hnames ▸ List.mem_map_of_mem hmem)
    · obtain ⟨mode, hmode⟩ := honly hper
      rw [hmode] at hnames
      obtain ⟨theme, hthemes, -⟩ := List.map_eq_singleton_iff.mp hnames
      exact ⟨theme, hthemes⟩

/-- A word that names no policy is found out before any theme is resolved, or after all of them. -/
theorem jobContent_of_invalid (hpolicy : Policy.ofWord policy = .error (.invalidPolicy policy))
    (hmodes : ∀ mode ∈ job.modes, mode ∈ config.modes) :
    jobContent job format config policy = .error (.invalidPolicy policy) := by
  have hthemes : resolveThemes config policy job.modes = .ok [] ∨
      resolveThemes config policy job.modes = .error (.invalidPolicy policy) := by
    cases hjob : job.modes with
    | nil => exact .inl rfl
    | cons mode rest =>
      obtain ⟨theme, htheme⟩ := Config.exists_theme (hmodes mode (hjob ▸ List.mem_cons_self))
      have hmake : Resolver.make config mode policy = .error (.invalidPolicy policy) := by
        rw [Resolver.make, Config.themeFor_of_find htheme, hpolicy]
        rfl
      refine .inr ?_
      rw [resolveThemes, resolveTheme, hmake]
      rfl
  unfold jobContent
  cases format.usesThemes with
  | false => simp [hpolicy, bind, Except.bind]
  | true => obtain h | h := hthemes <;> simp [h, hpolicy, bind, Except.bind]

section Run

variable (hformat : Format.find job.format = .ok format)
include hformat

theorem runJob_of_content {content : String}
    (h : jobContent job format config policy = .ok content) :
    runJob job config policy = .ok (.finished job content) := by
  simp only [runJob, hformat, bind, Except.bind, h]

theorem runJob_of_reported {failure : Failure} (hreported : failure.isReported = true)
    (h : jobContent job format config policy = .error failure) :
    runJob job config policy = .ok (.failed job failure.message failure.tokenPath?) := by
  simp only [runJob, hformat, bind, Except.bind, h, hreported, if_true]

theorem runJob_of_unreported {failure : Failure} (hreported : failure.isReported = false)
    (h : jobContent job format config policy = .error failure) :
    runJob job config policy = .error failure := by
  simp only [runJob, hformat, bind, Except.bind, h, hreported, Bool.false_eq_true, if_false]

end Run

namespace Planned

variable (hdeclared : ∀ mode ∈ modes, mode ∈ config.modes) (h : Planned modes job)
include hdeclared h

/-- A planned job has a format, in which its content depends on the policy conservatively. -/
theorem exists_conservative : ∃ format, Format.find job.format = .ok format ∧
    Conservative fun policy => jobContent job format config (.text policy.name) := by
  obtain ⟨format, hname, hmodes, hper, -⟩ := h.exists_format
  have hformat : Format.find job.format = .ok format := hname ▸ format.find_name
  refine ⟨format, hformat, conservative_jobContent (fun mode hmode => ?_) fun hmode => ?_⟩
  · exact hdeclared mode (hmodes mode hmode)
  · obtain ⟨mode, -, honly⟩ := hper hmode
    exact ⟨mode, honly⟩

/-- What becomes of a planned job under each policy. -/
theorem runJob_policies : ∃ content,
    runJob job config (.text Policy.lenient.name) = .ok (.finished job content) ∧
      (runJob job config (.text Policy.strict.name) = .ok (.finished job content) ∨
        ∃ u : Unresolved, runJob job config (.text Policy.strict.name) =
          .ok (.failed job u.message (some u.path))) := by
  obtain ⟨format, hformat, content, hlenient, hstrict⟩ := h.exists_conservative hdeclared
  refine ⟨content, runJob_of_content hformat hlenient, ?_⟩
  obtain hstrict | ⟨u, hstrict⟩ := hstrict
  · exact .inl (runJob_of_content hformat hstrict)
  · exact .inr ⟨u, runJob_of_reported hformat rfl hstrict⟩

/-- A planned job reports everything but a policy that does not exist. -/
theorem runJob_cases (policy : Document) :
    (∃ content, runJob job config policy = .ok (.finished job content)) ∨
      (∃ u : Unresolved, runJob job config policy = .ok (.failed job u.message (some u.path))) ∨
        runJob job config policy = .error (.invalidPolicy policy) := by
  obtain ⟨content, hlenient, hstrict⟩ := h.runJob_policies hdeclared
  obtain ⟨policy, rfl⟩ | hpolicy := Policy.name_or_invalid policy
  · cases policy with
    | lenient => exact .inl ⟨content, hlenient⟩
    | strict => exact hstrict.imp (⟨content, ·⟩) .inl
  · obtain ⟨format, hname, hmodes, -⟩ := h.exists_format
    have hformat : Format.find job.format = .ok format := hname ▸ format.find_name
    have hcontent : jobContent job format config policy = .error (.invalidPolicy policy) :=
      jobContent_of_invalid hpolicy fun mode hmode => hdeclared mode (hmodes mode hmode)
    exact .inr (.inr (runJob_of_unreported hformat rfl hcontent))

end Planned

end DesignTokens
