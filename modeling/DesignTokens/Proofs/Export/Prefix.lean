import DesignTokens.Proofs.Export.Isolation
import DesignTokens.Proofs.Export.Schedule
import DesignTokens.Proofs.Extension.Prefix
import DesignTokens.Proofs.Resolver.Reread
import DesignTokens.Proofs.Resolver.Uniform

/-!
# Artifacts under another prefix

The prefix of variable names is read where a variable is named and where a reference without a value
is left to one. Under the strict policy nothing is left to a variable but the roles of the theme
extension. So another prefix changes the names of variables in the stylesheets and in the theme
extension, and neither what fails nor any other artifact.

## Main definitions

- `SameButPrefix` — the results of one job under two prefixes
- `SameContent` — the contents of one format under two prefixes
- `Document.Renamed` — theme extensions that differ in the prefix of the roles' variables
-/

namespace DesignTokens

variable {config : Config} {first other : String} {keys : List String}

section Contents

/-- The line that gives a custom property its value, from the end of its name. -/
def propertyOf (first : String) (named : String × String) : String :=
  "  " ++ ("--" ++ first ++ "-" ++ named.1) ++ ": " ++ named.2 ++ ";"

/-- The line that gives a stylesheet variable its value, from the end of its name. -/
def variableOf (first : String) (named : String × String) : String :=
  "$" ++ first ++ "-" ++ named.1 ++ ": " ++ named.2 ++ ";"

/-- The custom properties of one mode, given the ends of their names and their values. -/
def propertySheet (first title : String) (values : List (String × String)) : String :=
  Text.join "\n" ([blockComment title, blockComment generatedNotice, "", ":root \x7b"] ++
    values.map (propertyOf first) ++ ["\x7d"]) ++ "\n"

/-- The stylesheet variables of one mode, given the ends of their names and their values. -/
def variableSheet (first title : String) (values : List (String × String)) : String :=
  Text.join "\n" (["// " ++ title, "// " ++ generatedNotice, ""] ++
    values.map (variableOf first)) ++ "\n"

mutual
/-- Documents at a path of a theme extension that differ in the prefix of the roles' variables. -/
inductive Document.Renamed (first other : String) : List String → Document → Document → Prop
  | same (keys : List String) (d : Document) : Document.Renamed first other keys d d
  | role (category name : String) :
      Document.Renamed first other ["colors", "semantic", category, name]
        (.text (variableFallback first (rolePath category name)))
        (.text (variableFallback other (rolePath category name)))
  | mapping {keys : List String} {entries entries' : Mapping Document}
      (h : RenamedEntries first other keys entries entries') :
      Document.Renamed first other keys (.mapping entries) (.mapping entries')

/-- Entries below a path of a theme extension, with the same keys, that differ in this way. -/
inductive RenamedEntries (first other : String) :
    List String → Mapping Document → Mapping Document → Prop
  | nil (keys : List String) : RenamedEntries first other keys [] []
  | cons {keys : List String} {key : String} {d d' : Document} {rest rest' : Mapping Document}
      (head : Document.Renamed first other (keys ++ [key]) d d')
      (tail : RenamedEntries first other keys rest rest') :
      RenamedEntries first other keys ((key, d) :: rest) ((key, d') :: rest')
end

/-- Contents of one format that differ in the prefix of variable names: the stylesheets have the same
variables in the same order, the theme extensions differ in the variables of the roles, and all other
contents are the same. -/
inductive SameContent (first other : String) : Format → String → String → Prop
  | css (title : String) (values : List (String × String)) : SameContent first other .css
      (propertySheet first title values) (propertySheet other title values)
  | scss (title : String) (values : List (String × String)) : SameContent first other .scss
      (variableSheet first title values) (variableSheet other title values)
  | tailwind (before after : String) {extension extension' : Document}
      (h : extension.Renamed first other [] extension') : SameContent first other .tailwind
        (before ++ Json.indentedAt 2 extension ++ after)
        (before ++ Json.indentedAt 2 extension' ++ after)
  | same {format : Format} (hformat : format ∈ [Format.json, .js, .ts, .components, .modes])
      (content : String) : SameContent first other format content content

/-- Results of one job that differ in the prefix of variable names: the same failure, or contents that
differ in this way. -/
inductive SameButPrefix (first other : String) : JobResult → JobResult → Prop
  | failed (job : Job) (error : String) (tokenPath : Option String) :
      SameButPrefix first other (.failed job error tokenPath) (.failed job error tokenPath)
  | finished {job : Job} {format : Format} {content content' : String}
      (hformat : Format.find job.format = .ok format)
      (h : SameContent first other format content content') :
      SameButPrefix first other (.finished job content) (.finished job content')

/-- Two outcomes that are the same failure, or two values that belong together. -/
inductive SameOutcome {α : Type} (R : α → α → Prop) : Except Failure α → Except Failure α → Prop
  | failed (failure : Failure) : SameOutcome R (.error failure) (.error failure)
  | done {a a' : α} (h : R a a') : SameOutcome R (.ok a) (.ok a')

theorem SameOutcome.of_eq {α : Type} {R : α → α → Prop} {outcome outcome' : Except Failure α}
    (h : outcome' = outcome) (hR : ∀ a, R a a) : SameOutcome R outcome outcome' := by
  subst h
  cases outcome' with
  | error failure => exact .failed failure
  | ok a => exact .done (hR a)

end Contents

/-! Sheets and references do not depend on the prefix but for the names of variables. -/

section Strict

variable (config : Config) (first : String)

theorem customProperties_renamed (theme : ResolvedTheme) :
    (config.renamed first).customProperties theme = propertySheet first (config.tokensTitle theme)
      ((config.tokenEntries theme).map fun token => (variableSuffix token.1, token.2)) := by
  rw [propertySheet, List.map_map]
  rfl

theorem customProperties_self (theme : ResolvedTheme) :
    propertySheet config.variablePrefix (config.tokensTitle theme)
      ((config.tokenEntries theme).map fun token => (variableSuffix token.1, token.2)) =
    config.customProperties theme :=
  (customProperties_renamed config config.variablePrefix theme).symm

theorem stylesheetVariables_renamed (theme : ResolvedTheme) :
    (config.renamed first).stylesheetVariables theme = variableSheet first (config.tokensTitle theme)
      ((config.tokenEntries theme).map fun token => (variableSuffix token.1, token.2)) := by
  rw [variableSheet, List.map_map]
  rfl

theorem stylesheetVariables_self (theme : ResolvedTheme) :
    variableSheet config.variablePrefix (config.tokensTitle theme)
      ((config.tokenEntries theme).map fun token => (variableSuffix token.1, token.2)) =
    config.stylesheetVariables theme :=
  (stylesheetVariables_renamed config config.variablePrefix theme).symm

/-- Under the strict policy no reference is left to a variable. -/
theorem resolve_renamed (mode : String) (declared : Theme) (path : String) :
    ((config.renamed first).strictResolver mode declared).resolve path =
      (config.strictResolver mode declared).resolve path := by
  have hlook : ((config.renamed first).strictResolver mode declared).lookUp path =
      (config.strictResolver mode declared).lookUp path := rfl
  rw [Resolver.resolve, Resolver.resolve, hlook]
  cases (config.strictResolver mode declared).lookUp path <;> rfl

theorem resolveRole_renamed (mode : String) (declared : Theme) (path : String) :
    ((config.renamed first).strictResolver mode declared).resolveRole path =
      (config.strictResolver mode declared).resolveRole path := by
  have hlook : ((config.renamed first).strictResolver mode declared).lookUp path =
      (config.strictResolver mode declared).lookUp path := rfl
  rw [Resolver.resolveRole, Resolver.resolveRole, hlook]
  cases (config.strictResolver mode declared).lookUp path <;> rfl

theorem resolveTheme_renamed (mode : String) :
    resolveTheme (config.renamed first) mode (.text "strict") =
      resolveTheme config mode (.text "strict") := by
  cases hdeclared : config.theme? mode with
  | none =>
    have hother : (config.renamed first).theme? mode = none := hdeclared
    rw [resolveTheme, resolveTheme, Resolver.make_of_missing hdeclared,
      Resolver.make_of_missing hother]
    rfl
  | some declared =>
    have hother : (config.renamed first).theme? mode = some declared := hdeclared
    have hroles := funext fun path => resolveRole_renamed config first mode declared path
    rw [resolveTheme, resolveTheme, make_strict hdeclared, make_strict hother]
    simp only [bind, Except.bind, hroles]
    rfl

theorem resolveThemes_renamed (modes : List String) :
    resolveThemes (config.renamed first) (.text "strict") modes =
      resolveThemes config (.text "strict") modes := by
  induction modes with
  | nil => rfl
  | cons mode rest ih => rw [resolveThemes, resolveThemes, resolveTheme_renamed, ih]

theorem componentSheet_renamed (mode : String) (declared : Theme) :
    Config.componentSheet ((config.renamed first).strictResolver mode declared) =
      Config.componentSheet (config.strictResolver mode declared) := by
  rw [Config.componentSheet, Config.componentSheet,
    compileBlocks_congr (resolve_renamed config first mode declared)]
  rfl

end Strict

section Roles

namespace RenamedEntries

theorem refl (keys : List String) (entries : Mapping Document) :
    RenamedEntries first other keys entries entries := by
  induction entries with
  | nil => exact .nil keys
  | cons entry rest ih => exact .cons (.same _ _) ih

theorem append_same {entries entries' : Mapping Document}
    (h : RenamedEntries first other keys entries entries') (rest : Mapping Document) :
    RenamedEntries first other keys (entries ++ rest) (entries' ++ rest) := by
  induction entries generalizing entries' with
  | nil =>
    cases h
    exact refl keys rest
  | cons entry more ih =>
    cases h with
    | cons head tail => exact .cons head (ih tail)

theorem set (m : Mapping Document) {key : String} {d d' : Document}
    (h : d.Renamed first other (keys ++ [key]) d') :
    RenamedEntries first other keys (Mapping.set m key d) (Mapping.set m key d') := by
  induction m with
  | nil => exact .cons h (.nil keys)
  | cons entry rest ih =>
    obtain ⟨k, old⟩ := entry
    by_cases hk : k = key
    · subst hk
      simp only [Mapping.set, if_true]
      exact .cons h (refl keys rest)
    · simp only [Mapping.set, hk, if_false]
      exact .cons (.same _ _) ih

theorem map {α : Type} (m : Mapping α) {f g : String × α → Document}
    (h : ∀ entry ∈ m, (f entry).Renamed first other (keys ++ [entry.1]) (g entry)) :
    RenamedEntries first other keys (m.map fun entry => (entry.1, f entry))
      (m.map fun entry => (entry.1, g entry)) := by
  induction m with
  | nil => exact .nil keys
  | cons entry rest ih =>
    rw [List.forall_mem_cons] at h
    exact .cons h.1 (ih h.2)

end RenamedEntries

theorem semanticVariables_renamed (config : Config) (first : String) (theme : Theme) :
    (config.semanticVariables theme).Renamed config.variablePrefix first ["colors", "semantic"]
      ((config.renamed first).semanticVariables theme) := by
  refine .mapping (.map theme.semantic fun category _ => .mapping (.map category.2 fun role _ => ?_))
  exact .role category.1 role.1

theorem utilityColors_renamed (config : Config) (first : String) :
    RenamedEntries config.variablePrefix first ["colors"] config.utilityColors
      (config.renamed first).utilityColors := by
  have hcolors : (config.renamed first).colorEntries = config.colorEntries := rfl
  have hdefault : (config.renamed first).defaultTheme? = config.defaultTheme? := rfl
  have hselects (space : TokenSpace) : (config.renamed first).selects space = config.selects space :=
    rfl
  unfold Config.utilityColors
  simp only [hcolors, hdefault, hselects]
  split
  · split
    · exact .set _ (semanticVariables_renamed config first _)
    · exact .refl _ _
  · exact .refl _ _

/-- The theme extension differs in the variables of the roles. -/
theorem themeExtension_renamed (config : Config) (first : String) :
    config.themeExtension.Renamed config.variablePrefix first []
      (config.renamed first).themeExtension := by
  -- Only the section of the colours holds roles, and it stands in front of the others.
  have hcolors : RenamedEntries config.variablePrefix first []
      (if config.selects .colors || config.selects .semantic then
        [("colors", .mapping config.utilityColors)] else [])
      (if config.selects .colors || config.selects .semantic then
        [("colors", .mapping (config.renamed first).utilityColors)] else []) := by
    split
    · exact .cons (.mapping (utilityColors_renamed config first)) (.nil [])
    · exact .nil []
  have hsections : RenamedEntries config.variablePrefix first [] config.selectedSections
      (config.renamed first).selectedSections := by
    unfold Config.selectedSections
    iterate 7 refine .append_same ?_ _
    exact hcolors
  exact .mapping (hsections.append_same config.fixedSections)

theorem exists_tailwindModule : ∃ before after, ∀ config : Config,
    config.tailwindModule = before ++ Json.indentedAt 2 config.themeExtension ++ after := by
  have hassoc (a b c d e : String) : a ++ b ++ c ++ d ++ e = a ++ b ++ (c ++ d ++ e) := by
    simp only [String.append_assoc]
  unfold Config.tailwindModule
  exact ⟨_, _, fun config => hassoc _ _ _ _ _⟩

end Roles

section Jobs

/-- Under the strict policy a component stylesheet holds no variable names. -/
theorem emit_components_renamed (config : Config) (first : String) (themes : List ResolvedTheme) :
    (config.renamed first).emit .strict themes .components =
      config.emit .strict themes .components := by
  unfold Config.emit
  cases theOnlyTheme themes with
  | error failure => rfl
  | ok theme =>
    cases hdeclared : config.theme? theme.mode with
    | none =>
      have hother : (config.renamed first).theme? theme.mode = none := hdeclared
      simp only [bind, Except.bind, Resolver.ofMode_of_missing hdeclared,
        Resolver.ofMode_of_missing hother]
      rfl
    | some declared =>
      have hother : (config.renamed first).theme? theme.mode = some declared := hdeclared
      have hsheet := componentSheet_renamed config first theme.mode declared
      simp only [bind, Except.bind, Resolver.ofMode_of_find hdeclared,
        Resolver.ofMode_of_find hother]
      exact hsheet

theorem emit_renamed (config : Config) (first : String) (themes : List ResolvedTheme)
    (format : Format) : SameOutcome (SameContent config.variablePrefix first format)
      (config.emit .strict themes format) ((config.renamed first).emit .strict themes format) := by
  have hsame (hformat : format ∈ [Format.json, .js, .ts, .components, .modes]) (content : String) :
      SameContent config.variablePrefix first format content content := .same hformat content
  cases format with
  | css =>
    unfold Config.emit
    cases theOnlyTheme themes with
    | error failure => exact .failed failure
    | ok theme =>
      refine .done ?_
      rw [customProperties_renamed, ← customProperties_self]
      exact .css _ _
  | scss =>
    unfold Config.emit
    cases theOnlyTheme themes with
    | error failure => exact .failed failure
    | ok theme =>
      refine .done ?_
      rw [stylesheetVariables_renamed, ← stylesheetVariables_self]
      exact .scss _ _
  | tailwind =>
    obtain ⟨before, after, hmodule⟩ := exists_tailwindModule
    refine .done ?_
    rw [hmodule, hmodule]
    exact .tailwind before after (themeExtension_renamed config first)
  | components => exact .of_eq (emit_components_renamed config first themes) (hsame (by decide))
  | json => exact .done (hsame (by decide) _)
  | js => exact .done (hsame (by decide) _)
  | ts => exact .done (hsame (by decide) _)
  | modes => exact .done (hsame (by decide) _)

theorem jobContent_renamed (config : Config) (first : String) (job : Job) (format : Format) :
    SameOutcome (SameContent config.variablePrefix first format)
      (jobContent job format config (.text "strict"))
      (jobContent job format (config.renamed first) (.text "strict")) := by
  have hthemes := resolveThemes_renamed config first job.modes
  have hpolicy : Policy.ofWord (.text "strict") = .ok .strict := rfl
  unfold jobContent
  rw [hthemes, hpolicy]
  cases format.usesThemes with
  | false => exact emit_renamed config first [] format
  | true =>
    cases resolveThemes config (.text "strict") job.modes with
    | error failure => exact .failed failure
    | ok themes => exact emit_renamed config first themes format

/-- Under the strict policy a job gives the same under another prefix, but for the names of
variables. -/
theorem settleJob_renamed (config : Config) (first : String) (job : Job) :
    SameButPrefix config.variablePrefix first (settleJob config (.text "strict") job)
      (settleJob (config.renamed first) (.text "strict") job) := by
  cases hformat : Format.find job.format with
  | error failure =>
    have herror (config : Config) : runJob job config (.text "strict") = .error failure := by
      rw [runJob, hformat]
      rfl
    rw [settleJob_of_error (herror config), settleJob_of_error (herror _)]
    exact .failed _ _ _
  | ok format =>
    have hcontent := jobContent_renamed config first job format
    generalize hplain : jobContent job format config (.text "strict") = plain at hcontent
    generalize hother : jobContent job format (config.renamed first) (.text "strict") = renamed
      at hcontent
    cases hcontent with
    | done h =>
      rw [settleJob_of_ok (runJob_of_content hformat hplain),
        settleJob_of_ok (runJob_of_content hformat hother)]
      exact .finished hformat h
    | failed failure =>
      cases hreported : failure.isReported with
      | true =>
        rw [settleJob_of_ok (runJob_of_reported hformat hreported hplain),
          settleJob_of_ok (runJob_of_reported hformat hreported hother)]
        exact .failed _ _ _
      | false =>
        rw [settleJob_of_error (runJob_of_unreported hformat hreported hplain),
          settleJob_of_error (runJob_of_unreported hformat hreported hother)]
        exact .failed _ _ _

theorem planJobs_renamed (config : Config) (first : String) (formats : List String)
    (selector : ModeSelector) :
    planJobs (config.renamed first) formats selector = planJobs config formats selector := rfl

/-- Under the strict policy an export has the same results under another prefix, but for the names of
variables. -/
theorem exportResults_renamed (config : Config) (first : String) {request : ExportRequest}
    (hpolicy : request.policy = .text "strict") :
    SameOutcome (List.Forall₂ (SameButPrefix config.variablePrefix first))
      (config.exportResults request) ((config.renamed first).exportResults request) := by
  unfold Config.exportResults
  rw [planJobs_renamed, hpolicy]
  cases hplan : planJobs config (request.formats.filter (· ≠ "")) request.selector with
  | error failure => exact .failed failure
  | ok jobs =>
    have hplan' := (planJobs_renamed config first _ _).trans hplan
    have hresults : List.Forall₂ (SameButPrefix config.variablePrefix first)
        (jobs.map (settleJob config (.text "strict")))
        (jobs.map (settleJob (config.renamed first) (.text "strict"))) := by
      rw [List.forall₂_map_left_iff, List.forall₂_map_right_iff, List.forall₂_same]
      exact fun job _ => settleJob_renamed config first job
    by_cases hworkers : AcceptedWorkers request.workers
    · simp only [bind, Except.bind, runJobs_of_accepted hplan hworkers,
        runJobs_of_accepted hplan' hworkers]
      exact .done hresults
    · by_cases hjobs : jobs = []
      · subst hjobs
        exact .done hresults
      · simp only [bind, Except.bind, runJobs_of_refused hjobs hworkers]
        exact .failed .noWorkers

end Jobs

/-! The stylesheets are made of values that have types, so they are the same for a configuration that
is read again. -/

section Reread

variable (config : Config)

theorem planJobs_reread (formats : List String) (selector : ModeSelector) :
    planJobs config.reread formats selector = planJobs config formats selector := by
  have hmodes : selectModes config.reread selector = selectModes config selector := by
    unfold selectModes Config.unknownMode
    rw [modes_reread]
  rw [planJobs, planJobs, hmodes]

theorem tokenEntries_reread (theme : ResolvedTheme) :
    config.reread.tokenEntries theme = config.tokenEntries theme := by
  have hdefault : config.reread.defaultTheme? = config.defaultTheme?.map Theme.reread :=
    theme?_reread config config.defaultMode
  have hcolors : config.reread.colorOrder = config.colorOrder := by
    rw [Config.colorOrder, Config.colorOrder, hdefault, Option.map_map]
    rfl
  have hroles : config.reread.roleOrder = config.roleOrder := by
    rw [Config.roleOrder, Config.roleOrder, hdefault, Option.map_map]
    rfl
  have hspace (space : TokenSpace) :
      config.reread.spaceTokens theme space = config.spaceTokens theme space := by
    cases space with
    | colors => rw [Config.spaceTokens, Config.spaceTokens, Config.orderedColors,
        Config.orderedColors, hcolors]
    | semantic => rw [Config.spaceTokens, Config.spaceTokens, Config.orderedRoles,
        Config.orderedRoles, hroles]
    | _ => rfl
  rw [Config.tokenEntries, Config.tokenEntries]
  exact congrArg (config.selectedSpaces.flatMap ·) (funext fun space => by rw [hspace])

theorem emit_reread (themes : List ResolvedTheme) {format : Format}
    (hformat : format ∈ [Format.css, .scss, .modes]) :
    config.reread.emit .strict themes format = config.emit .strict themes format := by
  cases format with
  | css =>
    have hlines (theme : ResolvedTheme) :
        config.reread.customProperties theme = config.customProperties theme := by
      rw [Config.customProperties, Config.customProperties, tokenEntries_reread]
      rfl
    simp only [Config.emit, hlines]
  | scss =>
    have hlines (theme : ResolvedTheme) :
        config.reread.stylesheetVariables theme = config.stylesheetVariables theme := by
      rw [Config.stylesheetVariables, Config.stylesheetVariables, tokenEntries_reread]
      rfl
    simp only [Config.emit, hlines]
  | modes => rfl
  | _ => simp at hformat

theorem settleJob_reread {job : Job} (hformat : job.format ∈ ["css", "scss", "modes"]) :
    settleJob config.reread (.text "strict") job = settleJob config (.text "strict") job := by
  obtain ⟨format, hfind, hmem⟩ : ∃ format, Format.find job.format = .ok format ∧
      format ∈ [Format.css, .scss, .modes] := by
    simp only [List.mem_cons, List.not_mem_nil, or_false] at hformat
    obtain h | h | h := hformat
    · exact ⟨.css, h ▸ Format.css.find_name, by decide⟩
    · exact ⟨.scss, h ▸ Format.scss.find_name, by decide⟩
    · exact ⟨.modes, h ▸ Format.modes.find_name, by decide⟩
  have hpolicy : Policy.ofWord (.text "strict") = .ok .strict := rfl
  have hcontent : jobContent job format config.reread (.text "strict") =
      jobContent job format config (.text "strict") := by
    simp only [jobContent, resolveThemes_reread, hpolicy, bind, Except.bind,
      emit_reread config _ hmem]
  have hrun : runJob job config.reread (.text "strict") = runJob job config (.text "strict") := by
    simp only [runJob, hfind, bind, Except.bind, hcontent]
  rw [settleJob, settleJob, hrun]

end Reread

/-- The job of the component stylesheet of the mode `day`. -/
def daySheetJob : Job :=
  ⟨"components", some "day", ["day"]⟩

def daySheetRequest : ExportRequest where
  formats := ["components"]
  output := none
  selector := .named ["day"]
  variablePrefix := none
  policy := .text "strict"
  workers := none
  write := false

/-- The stylesheet of the component of the sample, given its rules. -/
def sampleSheet (rules : String) : String :=
  "/* tokencraft components: day */\n/* Auto-generated by tokencraft - do not edit */\n" ++ rules

end DesignTokens
