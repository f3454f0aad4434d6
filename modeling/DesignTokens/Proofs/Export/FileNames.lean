import DesignTokens.Export.Placement
import DesignTokens.Proofs.Export.Planning
import DesignTokens.Proofs.Files.Path

/-!
# File names of artifacts

No two jobs of a plan have the same file name, neither the default one below a directory nor the one
in an explicit file that they share. A default name tells its format by how it starts and ends. In a
shared file the name of the format ends at the first hyphen, and where the format or the mode is
left out there is only one.

## Main definitions

- `Plain` — a text that may stand in a file name
- `Format.fileCode` — how a file name starts and ends
- `sharedPart` — what is put into the name of a file that jobs share
-/

namespace DesignTokens

variable {format other : Format} {mode mode' : Option String} {job job' : Job} {modes : List String}
  {path : Path} {s t : String}

/-- A text without characters that no file name has. -/
def Plain (s : String) : Prop :=
  '/' ∉ s.toList ∧ Path.isAcceptable s = true

instance : Decidable (Plain s) :=
  inferInstanceAs (Decidable (_ ∧ _))

theorem Plain.not_mem (h : Plain s) {c : Char} (hc : c = '/' ∨ Path.isRefused c = true) :
    c ∉ s.toList := by
  obtain rfl | hc := hc
  · exact h.1
  · exact Path.isAcceptable_iff.mp h.2 c hc

namespace Format

theorem plain_parts (format : Format) :
    Plain format.name ∧ Plain format.stem ∧ Plain format.extension := by
  cases format <;> decide

/-- Nothing that no file name has stands in a file name but in its mode. -/
theorem not_mem_fileName {c : Char} (hc : c = '/' ∨ Path.isRefused c = true)
    (h : c ∉ (mode.getD "").toList) : c ∉ (format.fileName mode).toList := by
  have hstem := format.plain_parts.2.1.not_mem hc
  have hextension := format.plain_parts.2.2.not_mem hc
  have hhyphen : c ∉ "-".toList := Plain.not_mem (by decide) hc
  have hdot : c ∉ ".".toList := Plain.not_mem (by decide) hc
  unfold fileName
  dsimp only
  split <;> simp only [String.toList_append, List.mem_append, not_or, hstem, hextension, hhyphen,
    hdot, h, not_false_eq_true, and_self]

theorem isAcceptable_fileName (h : Path.isAcceptable (mode.getD "") = true) :
    Path.isAcceptable (format.fileName mode) = true :=
  Path.isAcceptable_iff.mpr fun c hc =>
    not_mem_fileName (.inr hc) (Path.isAcceptable_iff.mp h c hc)

/-- How a file name starts and ends. -/
def fileCode (s : String) : List Char × List Char :=
  (s.toList.take 2, s.toList.reverse.take 4)

/-- What stands between a long enough start and a long enough end does not matter. -/
theorem fileCode_append {first last : String} (middle : String) (hfirst : 2 ≤ first.toList.length)
    (hlast : 4 ≤ last.toList.length) :
    fileCode (first ++ middle ++ last) = (first.toList.take 2, last.toList.reverse.take 4) := by
  have hstart : ((first ++ middle ++ last).toList.take 2) = first.toList.take 2 := by
    rw [String.toList_append, String.toList_append, List.append_assoc,
      List.take_append_of_le_length hfirst]
  have hend : ((first ++ middle ++ last).toList.reverse.take 4) = last.toList.reverse.take 4 := by
    rw [String.toList_append, List.reverse_append,
      List.take_append_of_le_length (by rwa [List.length_reverse])]
  rw [fileCode, hstart, hend]

/-- The mode stands between what a file name starts and ends with. -/
theorem fileCode_fileName (format : Format) (mode : Option String) :
    fileCode (format.fileName mode) = fileCode (format.fileName none) := by
  by_cases hnamed : (format.perMode && mode.getD "" ≠ "") = true
  · have hfirst : 2 ≤ format.stem.toList.length := by cases format <;> decide
    have hlast : 4 ≤ ("." ++ format.extension).toList.length := by
      have hper : format.perMode = true := (Bool.and_eq_true_iff.mp hnamed).1
      revert hper
      cases format <;> decide
    have hname : format.fileName mode =
        format.stem ++ ("-" ++ mode.getD "") ++ ("." ++ format.extension) := by
      simp only [fileName, if_pos hnamed, String.append_assoc]
    have hnone : format.fileName none = format.stem ++ "" ++ ("." ++ format.extension) := by
      simp [fileName, String.append_assoc]
    rw [hname, hnone, fileCode_append _ hfirst hlast, fileCode_append _ hfirst hlast]
  · have hname : format.fileName mode = format.fileName none := by
      simp only [fileName, if_neg hnamed]
      simp
    rw [hname]

theorem fileCode_injective (h : fileCode (format.fileName none) = fileCode (other.fileName none)) :
    format = other := by
  revert h
  cases format <;> cases other <;> decide

theorem fileName_injective (h : format.fileName mode = other.fileName mode') :
    format = other ∧ (format.perMode = true → mode.getD "" = mode'.getD "") := by
  have hcode : fileCode (format.fileName none) = fileCode (other.fileName none) := by
    rw [← fileCode_fileName format mode, ← fileCode_fileName other mode', h]
  obtain rfl := fileCode_injective hcode
  refine ⟨rfl, fun hper => ?_⟩
  unfold fileName at h
  generalize mode.getD "" = mode at h ⊢
  generalize mode'.getD "" = mode' at h ⊢
  -- Behind the stem there is a hyphen or a dot, which tells whether there is a mode.
  by_cases hmode : mode = "" <;> by_cases hmode' : mode' = ""
  · rw [hmode, hmode']
  · simp [hper, hmode, hmode', ← String.toList_inj] at h
  · simp [hper, hmode, hmode', ← String.toList_inj] at h
  · simpa [hper, hmode, hmode', ← String.toList_inj] using h

/-- A default file name starts with two letters, so it is no special name. -/
theorem fileName_start (format : Format) (mode : Option String) :
    ∃ c d rest, (format.fileName mode).toList = c :: d :: rest ∧ c ≠ '.' := by
  have hcode := congrArg Prod.fst (fileCode_fileName format mode)
  have hstart : ∃ c d, (fileCode (format.fileName none)).1 = [c, d] ∧ c ≠ '.' := by
    cases format <;> exact ⟨_, _, rfl, by decide⟩
  obtain ⟨c, d, hcd, hc⟩ := hstart
  rw [hcd] at hcode
  refine ⟨c, d, (format.fileName mode).toList.drop 2, ?_, hc⟩
  conv_lhs => rw [← List.take_append_drop 2 (format.fileName mode).toList]
  rw [show (format.fileName mode).toList.take 2 = [c, d] from hcode]
  rfl

theorem isName_fileName (h : '/' ∉ (mode.getD "").toList) :
    Path.isName (format.fileName mode) = true := by
  obtain ⟨c, d, rest, hstart, -⟩ := format.fileName_start mode
  refine Path.isName_iff.mpr ⟨?_, ?_, not_mem_fileName (.inl rfl) h⟩
  · intro hempty
    simp [hempty] at hstart
  · intro hdot
    simp [hdot] at hstart

end Format

section Shared

variable {results : List JobResult} {result result' : JobResult}

theorem splitName_append (cs : List Char) :
    (Path.splitName cs).1 ++ (Path.splitName cs).2 = cs := by
  unfold Path.splitName
  dsimp only
  split
  · simp
  · next hparts =>
    have hreverse : cs.reverse.takeWhile (· ≠ '.') ++ cs.reverse.dropWhile (· ≠ '.') = cs.reverse :=
      List.takeWhile_append_dropWhile
    -- What is left from the last dot on starts with that dot.
    cases hrest : cs.reverse.dropWhile (· ≠ '.') with
    | nil =>
      rw [hrest] at hparts
      simp at hparts
    | cons c rest =>
      have hdot := List.head?_dropWhile_not (· ≠ '.') cs.reverse
      simp only [hrest, List.head?_cons, decide_eq_false_iff_not, not_not] at hdot
      rw [hrest, hdot] at hreverse
      have hcs := congrArg List.reverse hreverse
      simpa using hcs

theorem stem_append_suffix (path : Path) : path.stem ++ path.suffix = path.name := by
  rw [Path.stem, Path.suffix, ← String.ofList_append, splitName_append, String.ofList_toList]

/-- What is put before the suffix of a file that jobs share. -/
def sharedPart (job : Job) (sharing : Sharing) : String :=
  (if 1 < sharing.formats then "-" ++ job.format else "") ++
    match job.namedMode? with
    | some mode => if 1 < sharing.modes then "-" ++ mode else ""
    | none => ""

theorem sharedName_eq (path : Path) (job : Job) (sharing : Sharing) :
    sharedName path job sharing = path.stem ++ sharedPart job sharing ++ path.suffix := by
  unfold sharedName sharedPart
  cases job.namedMode? <;> simp [String.append_assoc]

theorem eq_of_length_le_one {α : Type} {l : List α} {a b : α} (h : l.length ≤ 1) (ha : a ∈ l)
    (hb : b ∈ l) : a = b := by
  match l, h with
  | [c], _ => rw [List.mem_singleton.mp ha, List.mem_singleton.mp hb]

/-- The name of a format ends at the first hyphen. -/
theorem takeWhile_name (format : Format) {rest : List Char} (h : rest = [] ∨ ∃ cs, rest = '-' :: cs) :
    (format.name.toList ++ rest).takeWhile (· ≠ '-') = format.name.toList := by
  obtain rfl | ⟨cs, rfl⟩ := h <;> cases format <;> rfl

theorem namedMode?_of_mode (hmode : job.mode = some s) (hs : s ≠ "") : job.namedMode? = some s := by
  simp [Job.namedMode?, hmode, hs]

theorem sharedPath_eq {sharing : Sharing}
    (h : Path.isName (sharedName path job sharing) = true) :
    sharedPath path job sharing = .ok (path.parent.below (sharedName path job sharing)) := by
  unfold sharedPath
  dsimp only
  rw [Path.withName?_eq_below h]

section Distinct

variable (hplanned : ∀ result ∈ results, Planned modes result.job)
include hplanned

/-- Results whose jobs share a file have one format if nothing tells their formats apart. -/
theorem format_eq_of_sharedPart (hresult : result ∈ results) (hresult' : result' ∈ results)
    (h : sharedPart result.job (sharingOf results result.job) =
      sharedPart result'.job (sharingOf results result'.job)) :
    result.job.format = result'.job.format := by
  have hmem {result : JobResult} (h : result ∈ results) :
      result.job.format ∈ distinct (results.map (·.job.format)) :=
    mem_distinct.mpr (List.mem_map_of_mem h)
  by_cases hformats : 1 < (distinct (results.map (·.job.format))).length
  · obtain ⟨format, hname, -⟩ := (hplanned result hresult).exists_format
    obtain ⟨format', hname', -⟩ := (hplanned result' hresult').exists_format
    have hpart (job : Job) : ∃ rest : List Char, (rest = [] ∨ ∃ cs, rest = '-' :: cs) ∧
        (sharedPart job (sharingOf results job)).toList = '-' :: (job.format.toList ++ rest) := by
      unfold sharedPart
      rw [if_pos (show 1 < (sharingOf results job).formats from hformats)]
      cases job.namedMode? with
      | none => exact ⟨[], .inl rfl, by simp⟩
      | some mode =>
        by_cases hmodes : 1 < (sharingOf results job).modes
        · exact ⟨'-' :: mode.toList, .inr ⟨_, rfl⟩, by simp [hmodes]⟩
        · exact ⟨[], .inl rfl, by simp [hmodes]⟩
    obtain ⟨rest, hrest, hshared⟩ := hpart result.job
    obtain ⟨rest', hrest', hshared'⟩ := hpart result'.job
    have hcs := congrArg String.toList h
    rw [hshared, hshared', List.cons.injEq, hname, hname'] at hcs
    have htake := congrArg (List.takeWhile (· ≠ '-')) hcs.2
    rw [takeWhile_name format hrest, takeWhile_name format' hrest', String.toList_inj] at htake
    rw [hname, hname', htake]
  · exact eq_of_length_le_one (by omega) (hmem hresult) (hmem hresult')

/-- What is put before the suffix of a shared file tells its jobs apart. -/
theorem job_eq_of_sharedPart (hnonempty : ∀ result ∈ results, result.job.mode ≠ some "")
    (hresult : result ∈ results) (hresult' : result' ∈ results)
    (h : sharedPart result.job (sharingOf results result.job) =
      sharedPart result'.job (sharingOf results result'.job)) : result.job = result'.job := by
  have hformat := format_eq_of_sharedPart hplanned hresult hresult' h
  refine (hplanned result hresult).ext (hplanned result' hresult') hformat ?_
  have hsharing : sharingOf results result.job = sharingOf results result'.job := by
    simp [sharingOf, hformat]
  rw [hsharing] at h
  obtain ⟨format, hname, -, hper, hall⟩ := (hplanned result hresult).exists_format
  obtain ⟨format', hname', -, hper', hall'⟩ := (hplanned result' hresult').exists_format
  obtain rfl : format = format' := Format.name_injective (by rw [← hname, ← hname', hformat])
  by_cases hone : format.perMode = true
  · obtain ⟨mode, hmode, -⟩ := hper hone
    obtain ⟨mode', hmode', -⟩ := hper' hone
    have hnamed : result.job.namedMode? = some mode :=
      namedMode?_of_mode hmode fun h => hnonempty result hresult (h ▸ hmode)
    have hnamed' : result'.job.namedMode? = some mode' :=
      namedMode?_of_mode hmode' fun h => hnonempty result' hresult' (h ▸ hmode')
    by_cases hseveral : 1 < (sharingOf results result'.job).modes
    · simp only [sharedPart, hnamed, hnamed', hformat, if_pos hseveral, String.append_right_inj] at h
      rw [hmode, hmode', h]
    · -- Nothing but the only job of its format with a mode is counted.
      rw [sharingOf, List.countP_eq_length_filter] at hseveral
      have hsame : result = result' := by
        refine eq_of_length_le_one (Nat.le_of_not_lt hseveral) ?_ ?_
        · simp [hresult, hformat, hnamed]
        · simp [hresult', hnamed']
      rw [hsame]
  · rw [hall (by simpa using hone), hall' (by simpa using hone)]

/-- Two jobs of a run that share a file have two names in it. -/
theorem sharedName_injective (hnonempty : ∀ result ∈ results, result.job.mode ≠ some "")
    (hresult : result ∈ results) (hresult' : result' ∈ results)
    (h : sharedName path result.job (sharingOf results result.job) =
      sharedName path result'.job (sharingOf results result'.job)) : result.job = result'.job := by
  refine job_eq_of_sharedPart hplanned hnonempty hresult hresult' ?_
  rwa [sharedName_eq, sharedName_eq, String.append_left_inj, String.append_right_inj] at h

end Distinct

theorem sharedPart_cases (job : Job) (sharing : Sharing) :
    sharedPart job sharing = "" ∨ '-' ∈ (sharedPart job sharing).toList := by
  unfold sharedPart
  by_cases hformats : 1 < sharing.formats
  · exact .inr (by simp [hformats])
  · cases job.namedMode? with
    | none => exact .inl (by simp [hformats])
    | some mode =>
      by_cases hmodes : 1 < sharing.modes
      · exact .inr (by simp [hmodes])
      · exact .inl (by simp [hformats, hmodes])

section Plain

variable (sharing : Sharing) (hplanned : Planned modes job)
include hplanned

theorem not_mem_sharedPart {c : Char} (hc : c = '/' ∨ Path.isRefused c = true)
    (hmode : c ∉ (job.mode.getD "").toList) : c ∉ (sharedPart job sharing).toList := by
  obtain ⟨format, hname, -⟩ := hplanned.exists_format
  have hformat : c ∉ job.format.toList := hname ▸ format.plain_parts.1.not_mem hc
  have hhyphen : c ∉ "-".toList := Plain.not_mem (by decide) hc
  have hjoined (s : String) (hs : c ∉ s.toList) (some' : Prop) [Decidable some'] :
      c ∉ (if some' then "-" ++ s else "").toList := by
    split
    · simp only [String.toList_append, List.mem_append, not_or, hhyphen, hs, not_false_eq_true,
        and_self]
    · simp
  rw [sharedPart, String.toList_append, List.mem_append, not_or]
  refine ⟨hjoined _ hformat _, ?_⟩
  cases hnamed : job.namedMode? with
  | none => simp
  | some mode =>
    obtain ⟨hsome, -⟩ := Option.filter_eq_some_iff.mp hnamed
    exact hjoined mode (by simpa [hsome] using hmode) _

theorem not_mem_sharedName {c : Char} (hc : c = '/' ∨ Path.isRefused c = true)
    (hmode : c ∉ (job.mode.getD "").toList) (hname : c ∉ path.name.toList) :
    c ∉ (sharedName path job sharing).toList := by
  have hpart := not_mem_sharedPart sharing hplanned hc hmode
  rw [← stem_append_suffix, String.toList_append, List.mem_append, not_or] at hname
  simp only [sharedName_eq, String.toList_append, List.mem_append, not_or]
  exact ⟨⟨hname.1, hpart⟩, hname.2⟩

theorem isAcceptable_sharedName (hmode : Path.isAcceptable (job.mode.getD "") = true)
    (hname : Path.isAcceptable path.name = true) :
    Path.isAcceptable (sharedName path job sharing) = true :=
  Path.isAcceptable_iff.mpr fun c hc => not_mem_sharedName sharing hplanned (.inr hc)
    (Path.isAcceptable_iff.mp hmode c hc) (Path.isAcceptable_iff.mp hname c hc)

theorem isName_sharedName (hmode : '/' ∉ (job.mode.getD "").toList)
    (hname : Path.isName path.name = true) : Path.isName (sharedName path job sharing) = true := by
  have hslash := not_mem_sharedName sharing hplanned (.inl rfl) hmode (Path.isName_iff.mp hname).2.2
  obtain hpart | hpart := sharedPart_cases job sharing
  · rwa [sharedName_eq, hpart, String.append_empty, stem_append_suffix]
  · have hhyphen : '-' ∈ (sharedName path job sharing).toList := by
      rw [sharedName_eq]
      simp [hpart]
    refine Path.isName_iff.mpr ⟨fun h => ?_, fun h => ?_, hslash⟩ <;> simp [h] at hhyphen

end Plain

/-- In a file that is named like the directory above it, names start with a dot. -/
theorem sharedName_start (hname : path.name = "..") (job : Job) (sharing : Sharing) :
    ∃ rest, (sharedName path job sharing).toList = '.' :: rest := by
  have hstem : path.stem = ".." := by
    rw [Path.stem, hname]
    rfl
  rw [sharedName_eq, hstem]
  exact ⟨'.' :: ((sharedPart job sharing) ++ path.suffix).toList, by simp⟩

end Shared

end DesignTokens
