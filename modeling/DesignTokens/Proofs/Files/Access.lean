import DesignTokens.Proofs.Files.Writing

/-!
# Steps in a file tree

A computation that may fail, run in a file tree, has an outcome and leaves a tree behind. A failure
ends it where it occurs. Looking up an entry and reading a file leave the tree as it is; writing a
file that can be read changes that file and nothing else.

## Main definitions

- `exec` — the outcome of an operation and the file tree after it
- `OnlyReads` — an operation that leaves every file tree as it is
-/

namespace DesignTokens

variable {ε α β : Type} {tree after : FileTree} {path dir : Path} {name : String}
  {content : FileContent}

/-- The outcome of an operation that may fail, and the tree after it. -/
def exec (action : ExceptT ε (StateM FileTree) α) (tree : FileTree) : Except ε α × FileTree :=
  action.run.run tree

section Sequence

variable {action : ExceptT ε (StateM FileTree) α}

theorem exec_bind {a : α} (next : α → ExceptT ε (StateM FileTree) β)
    (h : exec action tree = (.ok a, after)) : exec (action >>= next) tree = exec (next a) after := by
  have hrun : exec (action >>= next) tree =
      (ExceptT.bindCont next (exec action tree).1).run (exec action tree).2 := rfl
  rw [hrun, h]
  rfl

theorem exec_bind_error {failure : ε} (next : α → ExceptT ε (StateM FileTree) β)
    (h : exec action tree = (.error failure, after)) :
    exec (action >>= next) tree = (.error failure, after) := by
  have hrun : exec (action >>= next) tree =
      (ExceptT.bindCont next (exec action tree).1).run (exec action tree).2 := rfl
  rw [hrun, h]
  rfl

/-- One operation after another one. -/
theorem exec_bind_cases (action : ExceptT ε (StateM FileTree) α)
    (next : α → ExceptT ε (StateM FileTree) β) (tree : FileTree) :
    (∃ failure, exec (action >>= next) tree = (.error failure, (exec action tree).2)) ∨
      ∃ a, exec (action >>= next) tree = exec (next a) (exec action tree).2 := by
  cases hexec : exec action tree with
  | mk outcome after =>
    cases outcome with
    | error failure => exact .inl ⟨failure, exec_bind_error next hexec⟩
    | ok a => exact .inr ⟨a, exec_bind next hexec⟩

end Sequence

theorem exec_known (outcome : Except Failure α) :
    exec (known outcome : ExceptT Failure (StateM FileTree) α) tree = (outcome, tree) :=
  rfl

theorem exec_attempt (operation : StateM FileTree (Except FileFault α)) (tree : FileTree) :
    exec (attempt operation) tree =
      ((operation.run tree).1.mapError .ofFault, (operation.run tree).2) :=
  rfl

theorem exec_attempt_isDirectory (path : Path) (tree : FileTree) :
    exec (attempt (isDirectory path)) tree =
      ((tree.directoryAnswer path).mapError .ofFault, tree) := by
  rw [exec_attempt, FileTree.run_isDirectory]

section Reading

/-- Asking whether something is there leaves the tree as it is, and finds every entry. -/
theorem FileTree.run_isPresent (tree : FileTree) (path : Path) : ∃ outcome,
    (DesignTokens.isPresent path : StateM FileTree _).run tree = (outcome, tree) ∧
      ∀ entry, tree.entry path = .ok entry → outcome = .ok true := by
  have hkind : (FileSystem.kindOf path : StateM FileTree _).run tree =
      (answer path ((tree.entry path).map FileEntry.kind), tree) := rfl
  unfold DesignTokens.isPresent entryAt
  simp only [run_bind, hkind]
  cases tree.entry path with
  | ok entry => exact ⟨_, rfl, fun _ _ => rfl⟩
  | error cause =>
    simp only [answer, Except.map, Except.mapError, run_pure]
    cases FileFault.isAbsence ⟨cause, path.render⟩ <;> exact ⟨_, rfl, by simp⟩

/-- An operation that leaves every file tree as it is. -/
def OnlyReads (action : ExceptT ε (StateM FileTree) α) : Prop :=
  ∀ tree, (exec action tree).2 = tree

namespace OnlyReads

variable {action : ExceptT ε (StateM FileTree) α} {next : α → ExceptT ε (StateM FileTree) β}

theorem known (outcome : Except Failure α) :
    OnlyReads (DesignTokens.known outcome : ExceptT Failure (StateM FileTree) α) :=
  fun _ => rfl

theorem throw (failure : ε) : OnlyReads (throw failure : ExceptT ε (StateM FileTree) α) :=
  fun _ => rfl

theorem readFile (path : Path) :
    OnlyReads (attempt (FileSystem.readFile path) : ExceptT Failure (StateM FileTree) _) :=
  fun _ => rfl

theorem isPresent (path : Path) :
    OnlyReads (attempt (DesignTokens.isPresent path) : ExceptT Failure (StateM FileTree) _) := by
  intro tree
  obtain ⟨outcome, hrun, -⟩ := FileTree.run_isPresent tree path
  rw [exec_attempt, hrun]

theorem bind (h : OnlyReads action) (hnext : ∀ a, OnlyReads (next a)) :
    OnlyReads (action >>= next) := by
  intro tree
  obtain ⟨failure, hexec⟩ | ⟨a, hexec⟩ := exec_bind_cases action next tree
  · rw [hexec, h]
  · rw [hexec, hnext, h]

theorem exec_cases (h : OnlyReads action) (tree : FileTree) :
    (∃ failure, exec action tree = (.error failure, tree)) ∨
      ∃ a, exec action tree = (.ok a, tree) := by
  have htree := h tree
  generalize exec action tree = result at htree ⊢
  obtain ⟨failure | a, _⟩ := result
  · exact .inl ⟨failure, by rw [← htree]⟩
  · exact .inr ⟨a, by rw [← htree]⟩

/-- What comes after an operation that only reads meets the same tree. -/
theorem bind_eq_ok_iff (h : OnlyReads action) {b : β} :
    (exec (action >>= next) tree).1 = .ok b ↔
      ∃ a, (exec action tree).1 = .ok a ∧ (exec (next a) tree).1 = .ok b := by
  obtain ⟨failure, hexec⟩ | ⟨a, hexec⟩ := h.exec_cases tree
  · simp [hexec, exec_bind_error next hexec]
  · simp [hexec, exec_bind next hexec]

end OnlyReads

theorem exec_readFile_eq_ok_iff :
    (exec (attempt (FileSystem.readFile path)) tree).1 = .ok content ↔
      tree.read path = .ok content := by
  have hrun : (exec (attempt (FileSystem.readFile path)) tree).1 =
      (FileTree.answer path (tree.read path)).mapError .ofFault := rfl
  rw [hrun, mapError_eq_ok_iff, FileTree.answer, mapError_eq_ok_iff]

theorem exec_isPresent_of_read (h : tree.read path = .ok content) :
    (exec (attempt (isPresent path)) tree).1 = .ok true := by
  obtain ⟨outcome, hrun, hpresent⟩ := tree.run_isPresent path
  rw [exec_attempt, hrun, hpresent _ (FileTree.entry_eq_ok_iff.mpr (FileTree.read_eq_ok_iff.mp h))]
  rfl

end Reading

section Overwriting

/-- A file that can be read can be written, and nothing else changes. -/
theorem FileTree.writeWithParents_of_read (hread : tree.read path = .ok content)
    (hnames : path.names ≠ []) (s : String) : ∃ after,
    (writeWithParents path s : StateM FileTree _).run tree = ((encodeText path s).1, after) ∧
      after.read path = .ok (.text (encodeText path s).2) ∧
      ∀ location, location ≠ path.spot → after.find? location = tree.find? location := by
  rw [← Path.below_parent hnames] at hread ⊢
  generalize path.parent = dir at hread ⊢
  generalize path.name = name at hread ⊢
  obtain ⟨hleads, hfile⟩ := read_eq_ok_iff.mp hread
  obtain ⟨hfits, hdir⟩ := leads_below_iff.mp hleads
  have hapart : ¬ dir.Visits (dir.below name).spot := by
    intro hvisits
    rw [(hasDirectory_iff.mp hdir).2 _ hvisits] at hfile
    cases hfile
  have hfree : tree.find? (dir.below name).spot ≠ some .directory := by
    rw [hfile]
    simp
  have hwritable : tree.Writable dir name := ⟨hfits, hdir.clear, hapart, hfree⟩
  obtain ⟨-, mid, hadds, hmade, hfree, hrun⟩ | ⟨hrefused, -⟩ :=
    writeWithParents_cases tree dir name s
  · refine ⟨_, hrun, read_eq_ok_iff.mpr ⟨?_, find?_set_self hfree⟩, fun location hne => ?_⟩
    · exact (keepsDirectories_set hfree).leads (leads_below_iff.mpr ⟨hfits, hmade⟩)
    · -- Nothing is missing on the way, so no directory was made.
      rw [find?_set_of_ne hne]
      obtain hkept | ⟨hnone, -, hvisits⟩ := hadds location
      · exact hkept
      · simp [(hasDirectory_iff.mp hdir).2 location hvisits] at hnone
  · exact absurd hwritable hrefused

end Overwriting

end DesignTokens
