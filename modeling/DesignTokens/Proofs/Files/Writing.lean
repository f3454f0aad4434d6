import DesignTokens.Files.Access
import DesignTokens.Proofs.Files.Tree

/-!
# Making directories and writing files

Making a directory with all directories above it adds directories along its path and does nothing
else. It succeeds unless the path does not fit or a file is in its way. Writing a file after that
changes only the place of the file.

## Main definitions

- `FileTree.Adds` — a tree that differs from another one by directories along a path
- `FileTree.Clear` — a path without a file in its way
- `FileTree.Writable` — a path that a file can be written to, directories included
-/

namespace DesignTokens

theorem encodeText_of_isEncodable {s : String} (h : Text.isEncodable s = true) (path : Path) :
    encodeText path s = (.ok (), s) := by
  rw [encodeText, Text.Utf8.textFault?_eq_none_iff.mpr h]

theorem exists_encodeText_of_not_isEncodable {s : String} (h : Text.isEncodable s = false)
    (path : Path) : ∃ fault, encodeText path s = (.error ⟨.unencodable fault, path.render⟩, "") := by
  rw [encodeText]
  cases hfault : Text.Utf8.textFault? s with
  | none => simp [Text.Utf8.textFault?_eq_none_iff.mp hfault] at h
  | some fault => exact ⟨_, rfl⟩

namespace FileTree

variable {tree mid : FileTree} {path dir : Path} {location : Location} {name : String}
  {content : FileContent} {cause : FileCause} {fault : FileFault}

theorem run_bind {α β : Type} (x : StateM FileTree α) (next : α → StateM FileTree β)
    (tree : FileTree) : (x >>= next).run tree = (next (x.run tree).1).run (x.run tree).2 :=
  rfl

theorem run_pure {α : Type} (a : α) (tree : FileTree) :
    (pure a : StateM FileTree α).run tree = (a, tree) :=
  rfl

theorem run_makeDirectory (tree : FileTree) (path : Path) :
    (FileSystem.makeDirectory path : StateM FileTree _).run tree =
      tree.commit path (tree.makeDirectory path) :=
  rfl

theorem run_writeFile (tree : FileTree) (path : Path) (s : String) :
    (FileSystem.writeFile path s : StateM FileTree _).run tree =
      tree.commit path (tree.write path (.text s)) :=
  rfl

section Directories

/-- A tree with more directories along a path. -/
def Adds (before : FileTree) (path : Path) (after : FileTree) : Prop :=
  ∀ location, after.find? location = before.find? location ∨
    (before.find? location = none ∧ after.find? location = some .directory ∧
      path.Visits location)

namespace Adds

variable {before after : FileTree}

theorem refl (tree : FileTree) (path : Path) : tree.Adds path tree :=
  fun _ => .inl rfl

theorem trans (h : tree.Adds path mid) (h' : mid.Adds path after) : tree.Adds path after := by
  intro location
  obtain hkept | ⟨hnone, hdir, hvisits⟩ := h location
  · rw [← hkept]
    exact h' location
  · refine .inr ⟨hnone, ?_, hvisits⟩
    obtain hkept | ⟨hnone', -, -⟩ := h' location
    · rw [hkept, hdir]
    · simp [hdir] at hnone'

theorem above {a : Path} (h : before.Adds a after) (habove : a.Above path) :
    before.Adds path after :=
  fun location => (h location).imp_right fun ⟨hnone, hdir, hvisits⟩ =>
    ⟨hnone, hdir, habove.visits hvisits⟩

theorem keepsDirectories (h : before.Adds path after) : before.KeepsDirectories after := by
  intro location hdir
  obtain hkept | ⟨hnone, -, -⟩ := h location
  · rw [hkept, hdir]
  · simp [hdir] at hnone

theorem find?_file_iff (h : before.Adds path after) :
    after.find? location = some (.file content) ↔ before.find? location = some (.file content) := by
  obtain hkept | ⟨hnone, hdir, -⟩ := h location
  · rw [hkept]
  · simp [hnone, hdir]

end Adds

/-- Along a directory that is there already nothing is added. -/
theorem Adds.of_hasDirectory {after : FileTree} (h : tree.Adds dir after)
    (hdir : tree.HasDirectory dir) (path : Path) : tree.Adds path after := by
  intro location
  obtain hkept | ⟨hnone, -, hvisits⟩ := h location
  · exact .inl hkept
  · simp [(hasDirectory_iff.mp hdir).2 location hvisits] at hnone

theorem Adds.read {after : FileTree} (h : tree.Adds dir after)
    (hread : tree.read path = .ok content) : after.read path = .ok content := by
  rw [read_eq_ok_iff] at hread ⊢
  exact ⟨h.keepsDirectories.leads hread.1, h.find?_file_iff.mpr hread.2⟩

/-- A path whose text is accepted and that has no file in its way. -/
def Clear (tree : FileTree) (path : Path) : Prop :=
  path.Fits ∧
    ∀ location, path.Visits location → ∀ content, tree.find? location ≠ some (.file content)

theorem Clear.above {a : Path} (h : tree.Clear path) (habove : a.Above path) : tree.Clear a :=
  ⟨habove.fits h.1, fun location hvisits => h.2 location (habove.visits hvisits)⟩

theorem HasDirectory.clear (h : tree.HasDirectory path) : tree.Clear path := by
  rw [hasDirectory_iff] at h
  exact ⟨h.1, fun location hvisits content => by simp [h.2 location hvisits]⟩

theorem Adds.clear {other : Path} (h : tree.Adds other mid) (hclear : tree.Clear path) :
    mid.Clear path :=
  ⟨hclear.1, fun location hvisits content hfile =>
    hclear.2 location hvisits content (h.find?_file_iff.mp hfile)⟩

/-- A clear path leads nowhere only because a directory is missing. -/
theorem Clear.missing_of_error (h : tree.Clear path) (hlocate : tree.locate path = .error cause) :
    cause = .missing := by
  obtain ⟨-, hrefused⟩ | ⟨-, hfits⟩ | hcause | ⟨-, location, content, hvisits, hfile⟩ :=
    locate_error_cases hlocate
  · simp [h.1.acceptable] at hrefused
  · exact absurd h.1 hfits
  · exact hcause
  · exact absurd hfile (h.2 location hvisits content)

/-- The three outcomes of making one directory. -/
theorem makeDirectory_cases (tree : FileTree) (path : Path) :
    (tree.Leads path ∧ tree.find? path.spot = none ∧
        tree.makeDirectory path = .ok (tree.set path.spot .directory)) ∨
      (tree.Leads path ∧ (∃ entry, tree.find? path.spot = some entry) ∧
        tree.makeDirectory path = .error .exists) ∨
      ∃ cause, tree.locate path = .error cause ∧ tree.makeDirectory path = .error cause := by
  unfold makeDirectory
  cases hlocate : tree.locate path with
  | error cause => exact .inr (.inr ⟨cause, rfl, rfl⟩)
  | ok location =>
    obtain ⟨hleads, rfl⟩ := locate_eq_ok_iff.mp hlocate
    cases hfound : tree.find? path.spot with
    | none => exact .inl ⟨hleads, rfl, by simp [bind, Except.bind, hfound]⟩
    | some entry => exact .inr (.inl ⟨hleads, ⟨entry, rfl⟩, by simp [bind, Except.bind, hfound]⟩)

/-- The answer to whether there is a directory at a path. -/
def directoryAnswer (tree : FileTree) (path : Path) : Except FileFault Bool :=
  match tree.entry path with
  | .ok entry => .ok (entry.kind == .directory)
  | .error cause =>
    if FileFault.isAbsence ⟨cause, path.render⟩ then .ok false else .error ⟨cause, path.render⟩

theorem run_isDirectory (tree : FileTree) (path : Path) :
    (isDirectory path : StateM FileTree _).run tree = (tree.directoryAnswer path, tree) := by
  have hkind : (FileSystem.kindOf path : StateM FileTree _).run tree =
      (answer path ((tree.entry path).map FileEntry.kind), tree) := rfl
  unfold isDirectory entryAt directoryAnswer
  simp only [run_bind, hkind]
  cases tree.entry path with
  | ok entry => cases entry <;> rfl
  | error cause =>
    simp only [answer, Except.map, Except.mapError, run_pure]
    cases FileFault.isAbsence ⟨cause, path.render⟩ <;> rfl

theorem directoryAnswer_eq_true_iff :
    tree.directoryAnswer path = .ok true ↔ tree.HasDirectory path := by
  unfold directoryAnswer HasDirectory
  split
  · next entry hentry => cases entry <;> simp [hentry, FileEntry.kind]
  · next cause hentry => split <;> simp [hentry]

/-- A path that fits is a directory or not, whatever is in its way. -/
theorem exists_directoryAnswer (tree : FileTree) (h : path.Fits) :
    ∃ found, tree.directoryAnswer path = .ok found := by
  unfold directoryAnswer
  cases hentry : tree.entry path with
  | ok found => exact ⟨_, rfl⟩
  | error cause =>
    have habsent : cause = .missing ∨ cause = .notDirectory := by
      obtain hlocate | hcause := entry_error_cases hentry
      · obtain ⟨-, hrefused⟩ | ⟨-, hfits⟩ | hcause | ⟨hcause, -⟩ := locate_error_cases hlocate
        · simp [h.acceptable] at hrefused
        · exact absurd h hfits
        · exact .inl hcause
        · exact .inr hcause
      · exact .inl hcause
    obtain rfl | rfl := habsent <;> exact ⟨false, rfl⟩

/-- A directory that is there already will do. -/
theorem run_acceptDirectory (tree : FileTree) (path : Path) (fault : FileFault) :
    ∃ outcome, (acceptDirectory path (.error fault) : StateM FileTree _).run tree =
        (outcome, tree) ∧
      (outcome = .ok () ↔ tree.HasDirectory path) ∧
      ∀ other, outcome = .error other → other = fault ∨ tree.entry path = .error other.cause := by
  rw [← directoryAnswer_eq_true_iff]
  simp only [acceptDirectory, run_bind, run_isDirectory]
  cases hanswer : tree.directoryAnswer path with
  | ok found =>
    cases found
    · exact ⟨_, rfl, by simp, by simp⟩
    · exact ⟨_, rfl, by simp, by simp⟩
  | error other =>
    refine ⟨_, rfl, by simp, ?_⟩
    rintro _ ⟨rfl⟩
    unfold directoryAnswer at hanswer
    split at hanswer
    · simp at hanswer
    · next cause hentry =>
      split at hanswer
      · simp at hanswer
      · cases hanswer
        exact .inr hentry

/-- What making a directory with all directories above it comes to. -/
structure MadeDirectories (tree : FileTree) (path : Path)
    (result : Except FileFault Unit × FileTree) : Prop where
  adds : tree.Adds path result.2
  made : result.1 = .ok () → result.2.HasDirectory path
  possible : tree.Clear path → result.1 = .ok ()
  reported : Path.isAcceptable path.render = true →
    ∀ fault, result.1 = .error fault → fault.cause.isTextual = false

/-- A path that is acceptable leads to no cause but those of the files. -/
theorem isTextual_of_entry_error (hpath : Path.isAcceptable path.render = true)
    (h : tree.entry path = .error cause) : cause.isTextual = false := by
  obtain hlocate | rfl := entry_error_cases h
  · obtain ⟨-, hrefused⟩ | ⟨rfl, -⟩ | rfl | ⟨rfl, -⟩ := locate_error_cases hlocate
    · simp [hpath] at hrefused
    all_goals rfl
  · rfl

theorem madeDirectories_set (hleads : tree.Leads path) (hnone : tree.find? path.spot = none) :
    MadeDirectories tree path (.ok (), tree.set path.spot .directory) := by
  have hplaced : (tree.set path.spot .directory).find? path.spot = some .directory :=
    find?_set_self (by simp [hnone])
  have hadds : tree.Adds path (tree.set path.spot .directory) := by
    intro location
    by_cases hlocation : location = path.spot
    · subst hlocation
      exact .inr ⟨hnone, hplaced, path.visits_spot⟩
    · exact .inl (find?_set_of_ne hlocation)
  refine ⟨hadds, fun _ => ?_, fun _ => rfl, fun _ _ h => nomatch h⟩
  exact entry_eq_ok_iff.mpr ⟨hadds.keepsDirectories.leads hleads, hplaced⟩

/-- Accepting what is there when a directory could not be made. -/
theorem madeDirectories_accept (hclear : tree.Clear path → tree.HasDirectory path)
    (hcause : Path.isAcceptable path.render = true → cause.isTextual = false) :
    MadeDirectories tree path
      ((acceptDirectory path (.error ⟨cause, path.render⟩) : StateM FileTree _).run tree) := by
  obtain ⟨outcome, hrun, hok, herror⟩ := run_acceptDirectory tree path ⟨cause, path.render⟩
  rw [hrun]
  refine ⟨.refl tree path, hok.mp, fun h => hok.mpr (hclear h), fun hpath fault hfault => ?_⟩
  obtain rfl | hentry := herror fault hfault
  · exact hcause hpath
  · exact isTextual_of_entry_error hpath hentry

theorem hasDirectory_of_clear (hleads : tree.Leads path) {found : FileEntry}
    (hfound : tree.find? path.spot = some found) (hclear : tree.Clear path) :
    tree.HasDirectory path := by
  refine entry_eq_ok_iff.mpr ⟨hleads, ?_⟩
  cases found with
  | directory => exact hfound
  | file content => exact absurd hfound (hclear.2 _ path.visits_spot content)

/-- Making a directory for which nothing has to be made first, and accepting one that is there. -/
theorem madeDirectories_commit
    (h : tree.Clear path → tree.makeDirectory path ≠ .error .missing) :
    MadeDirectories tree path
      ((acceptDirectory path (tree.commit path (tree.makeDirectory path)).1 :
        StateM FileTree _).run (tree.commit path (tree.makeDirectory path)).2) := by
  obtain ⟨hleads, hnone, hmade⟩ | ⟨hleads, ⟨entry, hfound⟩, hmade⟩ | ⟨cause, hlocate, hmade⟩ :=
    makeDirectory_cases tree path
  · rw [hmade]
    exact madeDirectories_set hleads hnone
  · rw [hmade]
    exact madeDirectories_accept (hasDirectory_of_clear hleads hfound) fun _ => rfl
  · rw [hmade]
    refine madeDirectories_accept (fun hclear => ?_) fun hpath => ?_
    · have hmissing := hclear.missing_of_error hlocate
      exact absurd (hmissing ▸ hmade) (h hclear)
    · exact isTextual_of_entry_error hpath (entry_of_locate_error hlocate)

/-- Making one directory, below directories that are there. -/
theorem madeDirectories_one (h : tree.Clear path → tree.Leads path) :
    MadeDirectories tree path ((do acceptDirectory path (← FileSystem.makeDirectory path) :
      StateM FileTree (Except FileFault Unit)).run tree) := by
  simp only [run_bind, run_makeDirectory]
  refine madeDirectories_commit fun hclear hmissing => ?_
  rw [makeDirectory, locate_of_leads (h hclear)] at hmissing
  simp only [bind, Except.bind] at hmissing
  split at hmissing <;> cases hmissing

theorem madeDirectories_up (tree : FileTree) (root : String) (names : List String) :
    MadeDirectories tree ⟨root, names.reverse⟩
      ((makeDirectoriesUp root names : StateM FileTree _).run tree) := by
  induction names generalizing tree with
  | nil =>
    rw [makeDirectoriesUp]
    refine madeDirectories_one fun hclear => ⟨hclear.1, fun a habove hne => ?_⟩
    obtain ⟨root', names⟩ := a
    obtain ⟨rfl, hprefix⟩ := habove
    obtain rfl : names = [] := List.prefix_nil.mp hprefix
    exact absurd rfl hne
  | cons name above ih =>
    have hbelow : Path.mk root (name :: above).reverse =
        Path.below ⟨root, above.reverse⟩ name := by
      simp [Path.below]
    rw [makeDirectoriesUp, hbelow]
    generalize hdir : (⟨root, above.reverse⟩ : Path) = dir at ih ⊢
    simp only [run_bind, run_makeDirectory]
    have hcommit := @madeDirectories_commit tree (dir.below name)
    cases hmade : tree.makeDirectory (dir.below name) with
    | ok next =>
      rw [hmade] at hcommit
      exact hcommit fun _ => by simp
    | error cause =>
      rw [hmade] at hcommit
      by_cases hmissing : cause = .missing
      · subst hmissing
        obtain ⟨hadds, hmade, hpossible, hreported⟩ := ih tree
        have habove : dir.Above (dir.below name) := Path.above_of_below (.refl dir)
        simp only [commit, if_true, run_bind]
        cases hresult : (makeDirectoriesUp root above : StateM FileTree _).run tree with
        | mk outcome mid =>
          rw [hresult] at hadds hmade hpossible hreported
          cases outcome with
          | error other =>
            refine ⟨hadds.above habove, by simp, fun hclear => ?_, fun hpath => ?_⟩
            · have hdone := hpossible (hclear.above habove)
              cases hdone
            · exact hreported (habove.isAcceptable hpath)
          | ok done =>
            have hone : MadeDirectories mid (dir.below name) _ :=
              madeDirectories_one fun hclear => leads_below_iff.mpr ⟨hclear.1, hmade rfl⟩
            exact ⟨(hadds.above habove).trans hone.adds, hone.made,
              fun hclear => hone.possible (hadds.clear hclear), hone.reported⟩
      · simp only [commit, hmissing, if_false]
        exact hcommit fun _ => by simpa using hmissing

theorem madeDirectories (tree : FileTree) (path : Path) :
    MadeDirectories tree path ((makeDirectories path : StateM FileTree _).run tree) := by
  have h := madeDirectories_up tree path.root path.names.reverse
  rwa [List.reverse_reverse] at h

theorem MadeDirectories.ok_iff {result : Except FileFault Unit × FileTree}
    (h : MadeDirectories tree path result) : result.1 = .ok () ↔ tree.Clear path := by
  refine ⟨fun hok => ?_, h.possible⟩
  have hclear := (h.made hok).clear
  exact ⟨hclear.1, fun location hvisits content hfile =>
    hclear.2 location hvisits content (h.adds.find?_file_iff.mpr hfile)⟩

end Directories

section Files

/-- The three outcomes of writing a file. -/
theorem write_cases (tree : FileTree) (path : Path) (content : FileContent) :
    (tree.Leads path ∧ tree.find? path.spot ≠ some .directory ∧
        tree.write path content = .ok (tree.set path.spot (.file content))) ∨
      (tree.find? path.spot = some .directory ∧ tree.write path content = .error .isDirectory) ∨
      ∃ cause, tree.locate path = .error cause ∧ tree.write path content = .error cause := by
  unfold write
  cases hlocate : tree.locate path with
  | error cause => exact .inr (.inr ⟨cause, rfl, rfl⟩)
  | ok location =>
    obtain ⟨hleads, rfl⟩ := locate_eq_ok_iff.mp hlocate
    by_cases hdir : tree.find? path.spot = some .directory
    · exact .inr (.inl ⟨hdir, by simp [bind, Except.bind, hdir]⟩)
    · refine .inl ⟨hleads, hdir, ?_⟩
      simp only [bind, Except.bind]

/-- A name below a directory that a file can be written to, directories included. -/
structure Writable (tree : FileTree) (dir : Path) (name : String) : Prop where
  fits : (dir.below name).Fits
  clear : tree.Clear dir
  /-- The file is not in the way of its own directory. -/
  apart : ¬ dir.Visits (dir.below name).spot
  free : tree.find? (dir.below name).spot ≠ some .directory

/-- In a tree with the directory made, what remains is whether the place is free. -/
theorem writable_iff (hadds : tree.Adds dir mid) (hmade : mid.HasDirectory dir)
    (hclear : tree.Clear dir) : tree.Writable dir name ↔
      (dir.below name).Fits ∧ mid.find? (dir.below name).spot ≠ some .directory := by
  constructor
  · rintro ⟨hfits, -, hapart, hfree⟩
    refine ⟨hfits, fun hdir => ?_⟩
    obtain hkept | ⟨-, -, hvisits⟩ := hadds (dir.below name).spot
    · exact hfree (hkept ▸ hdir)
    · exact hapart hvisits
  · rintro ⟨hfits, hfree⟩
    refine ⟨hfits, hclear, fun hvisits => ?_, fun hdir => ?_⟩
    · exact hfree ((hasDirectory_iff.mp hmade).2 _ hvisits)
    · exact hfree (hadds.keepsDirectories _ hdir)

/-- Writing a file with the directories above it. When it fails, some of them may have been made, and
the file is empty if it is the text that cannot be encoded. -/
theorem writeWithParents_cases (tree : FileTree) (dir : Path) (name s : String) :
    (tree.Writable dir name ∧ ∃ mid, tree.Adds dir mid ∧ mid.HasDirectory dir ∧
        mid.find? (dir.below name).spot ≠ some .directory ∧
        (writeWithParents (dir.below name) s : StateM FileTree _).run tree =
          ((encodeText (dir.below name) s).1,
            mid.set (dir.below name).spot (.file (.text (encodeText (dir.below name) s).2)))) ∨
      (¬ tree.Writable dir name ∧ ∃ fault mid, tree.Adds dir mid ∧
        (writeWithParents (dir.below name) s : StateM FileTree _).run tree = (.error fault, mid) ∧
        (Path.isAcceptable (dir.below name).render = true → fault.cause.isTextual = false)) := by
  have hdirs := madeDirectories tree dir
  simp only [writeWithParents, Path.parent_below, run_bind]
  cases hresult : (makeDirectories dir : StateM FileTree _).run tree with
  | mk outcome mid =>
    rw [hresult] at hdirs
    cases outcome with
    | error fault =>
      refine .inr ⟨fun hwritable => ?_, fault, mid, hdirs.adds, rfl, fun hpath => ?_⟩
      · have hok := hdirs.possible hwritable.clear
        cases hok
      · exact hdirs.reported ((Path.above_of_below (.refl dir)).isAcceptable hpath) fault rfl
    | ok done =>
      have hmade := hdirs.made rfl
      rw [writable_iff hdirs.adds hmade (hdirs.ok_iff.mp rfl)]
      simp only [writeText, run_bind, run_writeFile]
      obtain ⟨hleads, hfree, hwritten⟩ | ⟨hdir, hwritten⟩ | ⟨cause, hlocate, hwritten⟩ :=
        write_cases mid (dir.below name) (.text (encodeText (dir.below name) s).2)
      · rw [hwritten]
        exact .inl ⟨⟨hleads.1, hfree⟩, mid, hdirs.adds, hmade, hfree, rfl⟩
      · rw [hwritten]
        exact .inr ⟨fun h => h.2 hdir, _, mid, hdirs.adds, rfl, fun _ => rfl⟩
      · rw [hwritten]
        refine .inr ⟨fun h => ?_, _, mid, hdirs.adds, rfl, fun hpath => ?_⟩
        · rw [locate_of_leads (leads_below_iff.mpr ⟨h.1, hmade⟩)] at hlocate
          cases hlocate
        · exact isTextual_of_entry_error hpath (entry_of_locate_error hlocate)

end Files

end FileTree

end DesignTokens
