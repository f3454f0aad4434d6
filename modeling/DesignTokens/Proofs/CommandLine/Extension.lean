import DesignTokens.Proofs.CommandLine.Display
import DesignTokens.Proofs.Extension.Acceptance
import DesignTokens.Proofs.Files.Loading

/-!
# Adding a theme on the command line

The command loads a configuration, makes its assignments, builds the theme and saves the extended
configuration. The first three steps change no file. The last one writes where a file was read, so it
fails only if the text of the extended configuration cannot be encoded, and then the file is left
empty. Otherwise the command fails before anything is changed, or it changes the file of the
configuration and nothing else.

## Main definitions

- `Command.runIn` — how a command comes out in a file tree, and the tree after it
- `ExtensionArguments.Yields` — what the steps before the saving come to
- `ExtensionArguments.Saves`, `ExtensionArguments.Empties` — what the saving comes to
-/

namespace DesignTokens

variable {α : Type} {rule : LeafRule} {before after : FileTree} {location : String}
  {config extended : Config} {upper : Mapping Document}

section Steps

variable {explain : Failure → Option (List String)} {action : ExceptT Failure (StateM FileTree) α}

/-- A step of a command does what its action does, and fails when it fails. -/
theorem exec_stepOf : exec (stepOf explain action) before =
    ((exec action before).1.mapError (Halt.ofFailure explain), (exec action before).2) :=
  rfl

theorem exec_stepOf_eq_ok_iff {a : α} :
    (exec (stepOf explain action) before).1 = .ok a ↔ (exec action before).1 = .ok a :=
  mapError_eq_ok_iff

theorem OnlyReads.stepOf (h : OnlyReads action) (explain : Failure → Option (List String)) :
    OnlyReads (stepOf explain action) :=
  h

theorem OnlyReads.plainStep (h : OnlyReads action) : OnlyReads (plainStep action) :=
  h

theorem OnlyReads.commandConfig (location : String) :
    OnlyReads (DesignTokens.commandConfig location : ExceptT Halt (StateM FileTree) _) :=
  ((loadConfig _ _).stepOf _).bind fun _ _ => rfl

theorem exec_commandConfig_eq_ok_iff : (exec (commandConfig location) before).1 = .ok config ↔
    ∃ warnings, (exec (loadConfig (locationPath location) false) before).1 =
      .ok (config, warnings) := by
  unfold commandConfig
  simp only [((OnlyReads.loadConfig _ _).stepOf _).bind_eq_ok_iff, exec_stepOf_eq_ok_iff]
  constructor
  · rintro ⟨⟨found, warnings⟩, hload, ⟨⟩⟩
    exact ⟨warnings, hload⟩
  · rintro ⟨warnings, hload⟩
    exact ⟨(config, warnings), hload, rfl⟩

/-- A configuration is saved in the file that it was loaded from. -/
theorem configPath_locationPath (location : String) :
    configPath (locationPath location) = configPath (.ofText location) := by
  unfold locationPath
  split
  · next hempty =>
    subst hempty
    rfl
  · rfl

end Steps

section Assignments

/-- What a path goes through is a mapping that declares no key twice. -/
theorem regular_entriesBelow {entries : Mapping Document}
    (h : (Document.mapping entries).Regular rule) (key : String) :
    (Document.mapping (entriesBelow (Mapping.find? entries key))).Regular rule := by
  cases hfind : Mapping.find? entries key with
  | none => exact Document.regular_mapping.mpr (by simp [entriesBelow])
  | some value =>
    have hvalue := h.find? hfind
    cases value with
    | mapping below => exact hvalue
    | _ => exact Document.regular_mapping.mpr (by simp [entriesBelow, Document.entries?])

theorem regular_setPath {value : Document} (hvalue : value.Regular rule) (keys : List String)
    {entries : Mapping Document} (h : (Document.mapping entries).Regular rule) :
    (Document.mapping (setPath entries value keys)).Regular rule := by
  induction keys generalizing entries with
  | nil => exact h
  | cons key rest ih =>
    cases rest with
    | nil => exact h.set key hvalue
    | cons next rest => exact h.set key (ih (regular_entriesBelow h key))

theorem regular_applyAssignments {assignments : List String} {entries : Mapping Document}
    (hentries : (Document.mapping entries).Regular rule)
    (h : applyAssignments entries assignments = .ok upper) :
    (Document.mapping upper).Regular rule := by
  induction assignments generalizing entries with
  | nil =>
    cases h
    exact hentries
  | cons assignment assignments ih =>
    obtain ⟨a, -, hrest⟩ := bind_eq_ok_iff.mp h
    exact ih (regular_setPath (Document.regular_text a.value) a.keys hentries) hrest

/-- Assignments make a document of texts. -/
theorem regular_assignmentDocument {assignments : List String}
    (h : assignmentDocument assignments = .ok upper) : (Document.mapping upper).Regular rule :=
  regular_applyAssignments (Document.regular_mapping.mpr (by simp)) h

end Assignments

section Run

/-- How a command comes out in a file tree, and the tree after it. -/
def Command.runIn (command : Command) (before : FileTree) : Outcome × FileTree :=
  let (result, after) := exec command.run before
  (Outcome.ofResult result, after)

/-- The program runs the command that its arguments ask for. -/
theorem runArguments_eq_runIn {words : List String} {command : Command}
    (h : Invocation.ofArguments words = .ok (.run command)) (before : FileTree) :
    (runArguments words : StateM FileTree Outcome).run before = command.runIn before := by
  unfold runArguments
  rw [h]
  rfl

/-- The file of the configuration that a theme is added to. -/
def ExtensionArguments.file (arguments : ExtensionArguments) : Path :=
  configPath (locationPath arguments.location)

variable {arguments : ExtensionArguments}

/-- What the steps before the saving come to: the configuration that is loaded, the document of the
assignments and the extended configuration. -/
structure ExtensionArguments.Yields (arguments : ExtensionArguments) (before : FileTree)
    (config : Config) (upper : Mapping Document) (extended : Config) : Prop where
  loaded : ∃ warnings, (exec (loadConfig (locationPath arguments.location) false) before).1 =
    .ok (config, warnings)
  assigned : assignmentDocument arguments.assignments = .ok upper
  added : ∃ warnings,
    config.extendTheme arguments.base arguments.name upper = .ok (extended, warnings)

/-- Where the first steps yield a configuration, it takes the place of the one that was loaded, or
its text cannot be encoded and the file is left empty. -/
theorem ExtensionArguments.Yields.exists_exec
    (h : arguments.Yields before config upper extended) : ∃ result after,
    exec (runExtension arguments) before = (result, after) ∧
      (∀ other, other ≠ arguments.file.spot → after.find? other = before.find? other) ∧
      (Text.isEncodable (textOfConfig arguments.file extended) = true →
        result = .ok (extensionLines config arguments arguments.file) ∧
          after.read arguments.file = .ok (.text (textOfConfig arguments.file extended))) ∧
      (Text.isEncodable (textOfConfig arguments.file extended) = false →
        (∃ halt, result = .error halt) ∧ after.read arguments.file = .ok (.text "")) := by
  obtain ⟨⟨warnings, hload⟩, hassigned, more, hadded⟩ := h
  obtain ⟨content, d, hread, -⟩ := exists_file_of_loadConfig hload
  rw [ExtensionArguments.file, configPath_locationPath]
  rw [configPath_locationPath] at hread
  obtain ⟨result, after, hsave, hothers, hencoded, hrefused⟩ := exists_exec_saveConfig hread extended
  have hload : exec (commandConfig arguments.location) before = (.ok config, before) :=
    Prod.ext (exec_commandConfig_eq_ok_iff.mpr ⟨warnings, hload⟩) (OnlyReads.commandConfig _ _)
  have hassign : exec (plainStep (known (assignmentDocument arguments.assignments))) before =
      (.ok upper, before) := by
    rw [hassigned]
    rfl
  have hextend : exec (stepOf (explainExtension arguments.name)
      (known (config.extendTheme arguments.base arguments.name upper))) before =
        (.ok (extended, more), before) := by
    rw [hadded]
    rfl
  have hwrite : exec (plainStep (saveConfig (.ofText arguments.location) extended)) before =
      (result.mapError (.ofFailure fun _ => none), after) := by
    rw [plainStep, exec_stepOf, hsave]
  unfold runExtension
  rw [exec_bind _ hload, exec_bind _ hassign, exec_bind _ hextend]
  cases result with
  | ok path =>
    refine ⟨_, after, exec_bind _ hwrite, hothers, fun htext => ?_, fun htext => ?_⟩
    · obtain ⟨hpath, hwritten⟩ := hencoded htext
      rw [Except.ok.inj hpath]
      exact ⟨rfl, hwritten⟩
    · obtain ⟨⟨failure, hfailed⟩, -⟩ := hrefused htext
      cases hfailed
  | error failure =>
    refine ⟨_, after, exec_bind_error _ hwrite, hothers, fun htext => ?_, fun htext => ?_⟩
    · obtain ⟨hpath, -⟩ := hencoded htext
      cases hpath
    · exact ⟨⟨_, rfl⟩, (hrefused htext).2⟩

/-- The command stops before it changes anything, or its first steps yield a configuration. -/
theorem exec_runExtension_cases (arguments : ExtensionArguments) (before : FileTree) :
    (∃ halt, exec (runExtension arguments) before = (.error halt, before)) ∨
      ∃ config upper extended, arguments.Yields before config upper extended := by
  unfold runExtension
  obtain ⟨halt, hload⟩ | ⟨config, hload⟩ :=
    (OnlyReads.commandConfig arguments.location).exec_cases before
  · exact .inl ⟨halt, exec_bind_error _ hload⟩
  rw [exec_bind _ hload]
  obtain ⟨halt, hassign⟩ | ⟨upper, hassign⟩ :=
    ((OnlyReads.known (assignmentDocument arguments.assignments)).plainStep).exec_cases before
  · exact .inl ⟨halt, exec_bind_error _ hassign⟩
  rw [exec_bind _ hassign]
  obtain ⟨halt, hextend⟩ | ⟨⟨extended, warnings⟩, hextend⟩ := ((OnlyReads.known
    (config.extendTheme arguments.base arguments.name upper)).stepOf
      (explainExtension arguments.name)).exec_cases before
  · exact .inl ⟨halt, exec_bind_error _ hextend⟩
  · refine .inr ⟨config, upper, extended, ?_, ?_, warnings, ?_⟩
    · exact exec_commandConfig_eq_ok_iff.mp (congrArg Prod.fst hload)
    · exact exec_stepOf_eq_ok_iff.mp (congrArg Prod.fst hassign)
    · exact exec_stepOf_eq_ok_iff.mp (congrArg Prod.fst hextend)

theorem Outcome.exitCode_ofResult_error (halt : Halt) :
    (ofResult (.error halt)).ending.exitCode ≠ 0 := by
  cases halt <;> simp [ofResult, Ending.exitCode]

/-- A configuration was saved for some arguments: it is in the file, no other file is changed, and it
is loaded from there if its text is read as the document that was written. -/
structure ExtensionArguments.Saves (arguments : ExtensionArguments) (before after : FileTree)
    (extended : Config) : Prop where
  written : after.read arguments.file = .ok (.text (textOfConfig arguments.file extended))
  others : ∀ other, other ≠ arguments.file.spot → after.find? other = before.find? other
  loaded : ReadsBack arguments.file extended → ∃ warnings,
    (exec (loadConfig (locationPath arguments.location) false) after).1 = .ok (extended, warnings)

/-- A configuration was lost for some arguments: the text of the extended one cannot be encoded, and
the file is left empty. No other file is changed. -/
structure ExtensionArguments.Empties (arguments : ExtensionArguments) (before after : FileTree) :
    Prop where
  refused : ∃ config upper extended, arguments.Yields before config upper extended ∧
    Text.isEncodable (textOfConfig arguments.file extended) = false
  emptied : after.read arguments.file = .ok (.text "")
  others : ∀ other, other ≠ arguments.file.spot → after.find? other = before.find? other

/-- The configuration that is loaded was parsed from the document of a file. -/
theorem ExtensionArguments.Yields.reached (h : arguments.Yields before config upper extended) :
    Reached .any config := by
  obtain ⟨_, hload⟩ := h.loaded
  obtain ⟨content, d, -, -, hd, hparse⟩ := exists_file_of_loadConfig hload
  exact .parsed hd hparse

/-- The extended configuration was examined as a whole. -/
theorem ExtensionArguments.Yields.validated (h : arguments.Yields before config upper extended) :
    Validated .any extended := by
  obtain ⟨_, hadded⟩ := h.added
  exact .extended h.reached (regular_assignmentDocument h.assigned) hadded

/-- Assignments set texts only, so the extended configuration is read again as it is. -/
theorem ExtensionArguments.Yields.reread_eq (h : arguments.Yields before config upper extended) :
    extended.reread = extended := by
  obtain ⟨_, hadded⟩ := h.added
  exact reread_of_extendTheme h.reached.hasSource (regular_assignmentDocument h.assigned) hadded

/-- Where the first steps yield a configuration whose text can be encoded, the command succeeds and
saves it. -/
theorem ExtensionArguments.Yields.saves (h : arguments.Yields before config upper extended)
    (htext : Text.isEncodable (textOfConfig arguments.file extended) = true) {outcome : Outcome}
    (hrun : (Command.extendTheme arguments).runIn before = (outcome, after)) :
    outcome = .ofResult (.ok (extensionLines config arguments arguments.file)) ∧
      arguments.Saves before after extended := by
  obtain ⟨result, saved, hexec, hothers, hencoded, -⟩ := h.exists_exec
  obtain ⟨rfl, hwritten⟩ := hencoded htext
  rw [Command.runIn, Command.run, hexec] at hrun
  cases hrun
  refine ⟨rfl, hwritten, hothers, fun hback => ?_⟩
  obtain ⟨warnings, hload⟩ := exists_loadConfig_of_readsBack h.validated hwritten hback
  rw [h.reread_eq] at hload
  exact ⟨warnings, hload⟩

/-- Where the first steps yield a configuration whose text cannot be encoded, the command fails and
leaves the file empty. -/
theorem ExtensionArguments.Yields.empties (h : arguments.Yields before config upper extended)
    (htext : Text.isEncodable (textOfConfig arguments.file extended) = false) {outcome : Outcome}
    (hrun : (Command.extendTheme arguments).runIn before = (outcome, after)) :
    outcome.ending.exitCode ≠ 0 ∧ arguments.Empties before after := by
  obtain ⟨result, emptied, hexec, hothers, -, hrefused⟩ := h.exists_exec
  obtain ⟨⟨halt, rfl⟩, hempty⟩ := hrefused htext
  rw [Command.runIn, Command.run, hexec] at hrun
  cases hrun
  exact ⟨Outcome.exitCode_ofResult_error halt, ⟨_, _, _, h, htext⟩, hempty, hothers⟩

/-- A command fails and changes nothing, or its first steps yield a configuration. -/
theorem unchanged_or_yields {outcome : Outcome}
    (hrun : (Command.extendTheme arguments).runIn before = (outcome, after)) :
    (outcome.ending.exitCode ≠ 0 ∧ after = before) ∨
      ∃ config upper extended, arguments.Yields before config upper extended := by
  obtain ⟨halt, hexec⟩ | hyields := exec_runExtension_cases arguments before
  · refine .inl ?_
    rw [Command.runIn, Command.run, hexec] at hrun
    obtain ⟨rfl, rfl⟩ := Prod.mk.inj hrun
    exact ⟨Outcome.exitCode_ofResult_error halt, rfl⟩
  · exact .inr hyields

/-- The texts that the command shows when it succeeds can be encoded. -/
def ExtensionArguments.Showable (arguments : ExtensionArguments) : Prop :=
  ∀ shown ∈ [arguments.base, arguments.name, arguments.file.render], Text.isEncodable shown = true

instance (arguments : ExtensionArguments) : Decidable arguments.Showable :=
  inferInstanceAs (Decidable (∀ _ ∈ _, _))

theorem ExtensionArguments.Showable.isEncodable_of_mem (h : arguments.Showable) (config : Config)
    {line : String} (hline : line ∈ extensionLines config arguments arguments.file) :
    Text.isEncodable line = true := by
  have hbase := h arguments.base (by simp)
  have hname := h arguments.name (by simp)
  have hfile := h arguments.file.render (by simp)
  rw [extensionLines, List.mem_append] at hline
  obtain hline | hline := hline
  · split at hline
    · refine isEncodable_of_mem_notice ?_ hline
      rw [Text.isEncodable_append, Text.isEncodable_append, hname]
      decide
    · cases hline
  · refine isEncodable_of_mem_notice ?_ hline
    simp only [Text.isEncodable_append, hname, hbase, hfile]
    decide

/-- A tree that holds a document as JSON. -/
def treeOfDocument (d : Document) : FileTree :=
  ⟨[(["t.json"], .file (.text (Json.indented d ++ "\n")))]⟩

/-- A document of JSON is read from such a tree. -/
theorem readDocument_treeOfDocument {d : Document} (h : d.Regular .named) :
    (exec (readDocument (locationPath "t.json")) (treeOfDocument d)).1 = .ok d := by
  have hjson : holdsJson (configPath (locationPath "t.json")) = true := rfl
  obtain ⟨s, hs, hd⟩ := documentOfText_indented hjson h
  have hread : (treeOfDocument d).read (configPath (locationPath "t.json")) =
      .ok (.text (Json.indented d ++ "\n")) := rfl
  exact exec_readDocument_eq_ok_iff.mpr (exec_readPresent_eq_ok_iff.mpr ⟨_, s, hread, hs, hd⟩)

/-- The arguments that add a theme to the sample. -/
def dimArguments : ExtensionArguments := ⟨"day", "dim", ["colors.ink=#222"], "t.json"⟩

/-- The sample is loaded from its file, and the theme is added to it. -/
theorem dimArguments_yields {style : List (Scalar × RawDocument)} {theme : Theme} {ink : String}
    (hregular : (sampleDocument style).normalize.Regular .named)
    (hread : Config.read (sampleDocument style).normalize = .valid config)
    (hbase : config.theme? "day" = some theme)
    (hink : Mapping.find? theme.colors "ink" = some (.value ink))
    (hextended : Config.read (.mapping (config.extensionEntries theme "dim" dimEntries)) =
      .valid extended) :
    dimArguments.Yields (treeOfDocument (sampleDocument style).normalize) config dimEntries
      extended := by
  obtain ⟨findings, hfindings, herrors⟩ := validate_sample style hread
  have hparse := parse_of_errors hfindings herrors hread
  have hparsed : Validated .any config := .parsed (RawDocument.regular_normalize _) hparse
  have htruthy : (sampleDocument style).normalize.truthy = true := rfl
  have hassigned : assignmentDocument dimArguments.assignments = .ok dimEntries := rfl
  -- The assignment puts a text in the place of another one, so the theme is accepted.
  obtain ⟨found, more, hextend⟩ := exists_extendTheme_of_retexts hparsed.hasSource
    hparsed.wellFormed hbase regular_dimEntries (retexts_dimEntries hink) "dim"
  have hfound := read_of_parse ((extendTheme_eq_parse hbase).symm.trans hextend)
  obtain rfl := Checked.valid.inj (hextended.symm.trans hfound)
  refine ⟨⟨findings.warnings, exec_loadConfig_eq_ok_iff.mpr ⟨_, ?_, htruthy, hparse⟩⟩, hassigned,
    more, hextend⟩
  exact readDocument_treeOfDocument hregular

end Run

end DesignTokens
