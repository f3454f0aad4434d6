import DesignTokens.ConfigFile
import DesignTokens.Proofs.Extension.Reached
import DesignTokens.Proofs.Files.Access
import DesignTokens.Proofs.Json.Characters

/-!
# Loading and saving configurations

A configuration is loaded from the file at its location: the text of the file is read as a document,
and the document is examined. Loading changes no file. A configuration that is saved where another
one was loaded takes the place of that file, and nothing else changes.

## Main definitions

- `ReadsBack` — the text of a configuration is read as the document that was written
-/

namespace DesignTokens

variable {tree : FileTree} {location path : Path} {content : FileContent} {s : String}
  {d : Document} {config : Config} {warnings : List String}

/-- A configuration file has a name. -/
theorem configPath_names_ne_nil (location : Path) : (configPath location).names ≠ [] := by
  unfold configPath
  split
  · next hsuffix =>
    obtain ⟨root, names⟩ := location
    rintro rfl
    have hempty : [".yaml", ".yml", ".json"].contains (suffixOf ⟨"", []⟩) = true := hsuffix
    exact absurd hempty (by decide)
  · rw [Path.join_eq_below (by decide)]
    simp [Path.below]

/-- What is read from a file declares no key twice. -/
theorem regular_of_documentOfText (h : documentOfText path s = .ok d) : d.Regular .any := by
  unfold documentOfText at h
  split at h
  · split at h
    · next hread =>
      cases h
      exact Json.regular_of_read hread
    · cases h
  · split at h
    · next hread =>
      cases h
      obtain ⟨raw, -, hraw⟩ := bind_eq_ok_iff.mp hread
      cases hraw
      exact raw.regular_normalize
    · cases h
    · cases h

section Loading

namespace OnlyReads

theorem readPresent (path : Path) :
    OnlyReads (DesignTokens.readPresent path : ExceptT Failure (StateM FileTree) _) :=
  (readFile path).bind fun _ => (known _).bind fun _ => known _

theorem readDocument (location : Path) :
    OnlyReads (DesignTokens.readDocument location : ExceptT Failure (StateM FileTree) _) := by
  refine (isPresent _).bind fun found => ?_
  cases found with
  | true => exact readPresent _
  | false => exact throw _

theorem loadConfig (location : Path) (useDefaults : Bool) :
    OnlyReads (DesignTokens.loadConfig location useDefaults :
      ExceptT Failure (StateM FileTree) _) := by
  refine (isPresent _).bind fun found => ?_
  cases found with
  | true => exact (readPresent _).bind fun _ => known _
  | false =>
    cases useDefaults with
    | true => exact known _
    | false => exact throw _

end OnlyReads

theorem exec_readPresent_eq_ok_iff : (exec (readPresent path) tree).1 = .ok d ↔
    ∃ content s, tree.read path = .ok content ∧ content.decode = .ok s ∧
      documentOfText path s = .ok d := by
  unfold readPresent
  simp only [(OnlyReads.readFile path).bind_eq_ok_iff, (OnlyReads.known _).bind_eq_ok_iff,
    exec_readFile_eq_ok_iff, exec_known, mapError_eq_ok_iff, exists_and_left]

theorem exec_readDocument_eq_ok_iff : (exec (readDocument location) tree).1 = .ok d ↔
    (exec (readPresent (configPath location)) tree).1 = .ok d := by
  unfold readDocument
  rw [(OnlyReads.isPresent _).bind_eq_ok_iff]
  constructor
  · rintro ⟨found, -, h⟩
    cases found with
    | true => exact h
    | false => cases h
  · intro h
    obtain ⟨content, s, hread, -⟩ := exec_readPresent_eq_ok_iff.mp h
    exact ⟨true, exec_isPresent_of_read hread, h⟩

/-- A configuration is loaded by examining the document at its location. -/
theorem exec_loadConfig_eq_ok_iff :
    (exec (loadConfig location false) tree).1 = .ok (config, warnings) ↔
      ∃ d, (exec (readDocument location) tree).1 = .ok d ∧ d.truthy = true ∧
        parse d = .ok (config, warnings) := by
  have hconfig (d : Document) :
      configOfDocument (configPath location) false d = .ok (config, warnings) ↔
        d.truthy = true ∧ parse d = .ok (config, warnings) := by
    unfold configOfDocument
    split <;> simp_all
  simp only [exec_readDocument_eq_ok_iff]
  unfold loadConfig
  rw [(OnlyReads.isPresent _).bind_eq_ok_iff]
  constructor
  · rintro ⟨found, -, h⟩
    cases found with
    | true =>
      obtain ⟨d, hd, h⟩ := (OnlyReads.readPresent _).bind_eq_ok_iff.mp h
      exact ⟨d, hd, (hconfig d).mp h⟩
    | false => cases h
  · rintro ⟨d, hd, h⟩
    obtain ⟨content, s, hread, -⟩ := exec_readPresent_eq_ok_iff.mp hd
    refine ⟨true, exec_isPresent_of_read hread, ?_⟩
    exact (OnlyReads.readPresent _).bind_eq_ok_iff.mpr ⟨d, hd, (hconfig d).mpr h⟩

/-- A configuration that was loaded was parsed from the document of a file. -/
theorem exists_file_of_loadConfig
    (h : (exec (loadConfig location false) tree).1 = .ok (config, warnings)) :
    ∃ content d, tree.read (configPath location) = .ok content ∧
      (exec (readDocument location) tree).1 = .ok d ∧ d.Regular .any ∧
      parse d = .ok (config, warnings) := by
  obtain ⟨d, hd, -, hparse⟩ := exec_loadConfig_eq_ok_iff.mp h
  obtain ⟨content, s, hread, -, hs⟩ :=
    exec_readPresent_eq_ok_iff.mp (exec_readDocument_eq_ok_iff.mp hd)
  exact ⟨content, d, hread, hd, regular_of_documentOfText hs, hparse⟩

end Loading

section Saving

theorem Text.normalizeBreaks_eq_self {cs : List Char} (h : '\r' ∉ cs) : normalizeBreaks cs = cs := by
  induction cs with
  | nil => rfl
  | cons c cs ih =>
    obtain ⟨hc, hcs⟩ := not_or.mp (mt List.mem_cons.mpr h)
    rw [normalizeBreaks, ih hcs]
    · rintro _ rfl -
      exact hc rfl
    · rintro rfl
      exact hc rfl

/-- A document of JSON is read from the file that it is written to. -/
theorem documentOfText_indented (hjson : holdsJson path = true) (h : d.Regular .named) :
    ∃ s, (FileContent.text (Json.indented d ++ "\n")).decode = .ok s ∧
      documentOfText path s = .ok d := by
  have hreturn : '\r' ∉ (Json.indented d ++ "\n").toList := by
    have htext := Json.return_not_mem_indentedAt h 0
    simpa [Json.indented] using htext
  refine ⟨Json.indented d ++ "\n", ?_, ?_⟩
  · rw [FileContent.decode, Text.normalizeBreaks_eq_self hreturn, String.ofList_toList]
  · rw [documentOfText, if_pos hjson, Json.read_indented h]

/-- The text of a configuration is read as the document that was written. -/
def ReadsBack (path : Path) (config : Config) : Prop :=
  ∃ s, (FileContent.text (textOfConfig path config)).decode = .ok s ∧
    documentOfText path s = .ok config.toDocument

/-- A configuration in which every number is whole or infinite is read back from a JSON file. -/
theorem readsBack_of_json (hjson : holdsJson path = true)
    (h : config.toDocument.Regular .named) : ReadsBack path config := by
  rw [ReadsBack, textOfConfig, if_pos hjson]
  exact documentOfText_indented hjson h

/-- The text of a configuration for a JSON file can be encoded if the texts in the configuration can,
and every number in it is whole or infinite. -/
theorem isEncodable_textOfConfig_of_json (hjson : holdsJson path = true)
    (h : config.toDocument.Regular .named)
    (htexts : config.toDocument.texts.all Text.isEncodable = true) :
    Text.isEncodable (textOfConfig path config) = true := by
  have hbreak : Text.isEncodable "\n" = true := by decide
  rw [textOfConfig, if_pos hjson, Text.isEncodable_append, hbreak,
    Json.isEncodable_indented h (List.all_eq_true.mp htexts)]
  rfl

/-- A configuration takes the place of the file that another one was loaded from. If its text cannot
be encoded, the file is left empty. -/
theorem exists_exec_saveConfig (hread : tree.read (configPath location) = .ok content)
    (config : Config) : ∃ result after,
    exec (saveConfig location config) tree = (result, after) ∧
      (∀ other, other ≠ (configPath location).spot → after.find? other = tree.find? other) ∧
      (Text.isEncodable (textOfConfig (configPath location) config) = true →
        result = .ok (configPath location) ∧ after.read (configPath location) =
          .ok (.text (textOfConfig (configPath location) config))) ∧
      (Text.isEncodable (textOfConfig (configPath location) config) = false →
        (∃ failure, result = .error failure) ∧
          after.read (configPath location) = .ok (.text "")) := by
  obtain ⟨after, hrun, hwritten, hothers⟩ := FileTree.writeWithParents_of_read hread
    (configPath_names_ne_nil location) (textOfConfig (configPath location) config)
  have hwrite : exec (attempt (writeWithParents (configPath location)
      (textOfConfig (configPath location) config))) tree =
        ((encodeText (configPath location) (textOfConfig (configPath location) config)).1.mapError
          .ofFault, after) := by
    rw [exec_attempt, hrun]
  cases htext : Text.isEncodable (textOfConfig (configPath location) config) with
  | true =>
    simp only [encodeText_of_isEncodable htext] at hwrite hwritten
    exact ⟨_, after, exec_bind _ hwrite, hothers, fun _ => ⟨rfl, hwritten⟩, nofun⟩
  | false =>
    obtain ⟨fault, hencode⟩ := exists_encodeText_of_not_isEncodable htext (configPath location)
    simp only [hencode] at hwrite hwritten
    exact ⟨_, after, exec_bind_error _ hwrite, hothers, nofun, fun _ => ⟨⟨_, rfl⟩, hwritten⟩⟩

/-- A configuration that was examined is loaded again from its file, if the text is read as the
document that was written. -/
theorem exists_loadConfig_of_readsBack (hvalidated : Validated .any config)
    (hread : tree.read (configPath location) =
      .ok (.text (textOfConfig (configPath location) config)))
    (hback : ReadsBack (configPath location) config) :
    ∃ warnings, (exec (loadConfig location false) tree).1 = .ok (config.reread, warnings) := by
  obtain ⟨s, hs, hd⟩ := hback
  obtain ⟨findings, -, -, hparse⟩ := hvalidated.exists_findings
  refine ⟨findings.warnings, exec_loadConfig_eq_ok_iff.mpr ⟨_, ?_, rfl, hparse⟩⟩
  exact exec_readDocument_eq_ok_iff.mpr (exec_readPresent_eq_ok_iff.mpr ⟨_, s, hread, hs, hd⟩)

end Saving

end DesignTokens
