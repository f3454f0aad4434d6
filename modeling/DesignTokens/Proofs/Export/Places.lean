import DesignTokens.Proofs.Export.FileNames
import DesignTokens.Proofs.Files.Access

/-!
# Places of artifacts

The artifact of a job goes below the configured directory, into the explicit directory, or next to an
explicit file, under a name of its own. Which of them it is depends on the file tree only by whether
the explicit output is a directory. Whatever the answers are, no two jobs of a run have the same
place.

## Main definitions

- `Destination` — a directory and a name where the artifact of a job may go
- `placeIn` — where the artifact of a job goes in a file tree
-/

namespace DesignTokens

variable {config : Config} {output : Option Path} {results : List JobResult} {modes : List String}
  {job job' : Job} {result result' : JobResult} {dir dir' path base : Path} {name name' : String}
  {tree after : FileTree}

section Destinations

/-- The default file name of a job. -/
def Job.fileName (job : Job) : String :=
  match Format.ofName? job.format with
  | some format => format.fileName job.mode
  | none => ""

/-- The directory in which a run makes its directories. -/
def baseDirectory (config : Config) : Option Path → Path
  | none => .ofText config.tokens.output
  | some path => path.parent

/-- A directory and a name where the artifact of a job may go. -/
inductive Destination (config : Config) (output : Option Path) (results : List JobResult) (job : Job) :
    Path → String → Prop
  | default (houtput : output = none) :
      Destination config output results job (.ofText config.tokens.output) job.fileName
  | inside {path : Path} (houtput : output = some path) :
      Destination config output results job path job.fileName
  | shared {path : Path} (houtput : output = some path) (hnames : path.names ≠ []) :
      Destination config output results job path.parent
        (sharedName path job (sharingOf results job))

theorem Planned.fileName_eq (h : Planned modes job) :
    ∃ format : Format, job.format = format.name ∧ job.fileName = format.fileName job.mode := by
  obtain ⟨format, hname, -⟩ := h.exists_format
  exact ⟨format, hname, by rw [Job.fileName, hname, Format.ofName?_name]⟩

theorem Planned.eq_of_fileName (h : Planned modes job) (h' : Planned modes job')
    (hname : job.fileName = job'.fileName) : job = job' := by
  obtain ⟨format, hformat, -, hper, hall⟩ := h.exists_format
  obtain ⟨format', hformat', -, hper', hall'⟩ := h'.exists_format
  rw [Job.fileName, Job.fileName, hformat, hformat', Format.ofName?_name, Format.ofName?_name] at hname
  obtain ⟨rfl, hmodes⟩ := Format.fileName_injective hname
  refine h.ext h' (by rw [hformat, hformat']) ?_
  by_cases hone : format.perMode = true
  · exact hmodes hone
  · rw [hall (by simpa using hone), hall' (by simpa using hone)]

theorem Planned.fileName_start (h : Planned modes job) :
    ∃ c d rest, job.fileName.toList = c :: d :: rest ∧ c ≠ '.' := by
  obtain ⟨format, -, hname⟩ := h.fileName_eq
  rw [hname]
  exact format.fileName_start job.mode

/-- A file in an explicit directory is no file next to it. -/
theorem Planned.inside_ne_shared (h : Planned modes job) (hnames : path.names ≠ []) (job' : Job)
    (sharing : Sharing) :
    (path.below job.fileName).spot ≠ (path.parent.below (sharedName path job' sharing)).spot := by
  obtain ⟨c, d, rest, hstart, hc⟩ := h.fileName_start
  have hspot : path.spot = Path.child path.parent.spot path.name := by
    rw [← Path.spot_below, Path.below_parent hnames]
  rw [Path.spot_below, Path.spot_below, hspot]
  refine Path.child_child_ne (fun hup => ?_) fun hname hsame => ?_
  · rw [hup] at hstart
    have hfirst := (List.cons.inj hstart).1
    exact hc hfirst.symm
  · obtain ⟨rest', hshared⟩ := sharedName_start hname job' sharing
    rw [hsame, hstart] at hshared
    exact hc (List.cons.inj hshared).1

section Names

variable (hjob : Planned modes job) (hslash : '/' ∉ (job.mode.getD "").toList)
include hjob hslash

theorem Planned.isName_fileName : Path.isName job.fileName = true := by
  obtain ⟨format, -, hname⟩ := hjob.fileName_eq
  rw [hname]
  exact Format.isName_fileName hslash

theorem Planned.isName_sharedName (hnormal : path.Normal) (hnames : path.names ≠ [])
    (sharing : Sharing) : Path.isName (sharedName path job sharing) = true :=
  DesignTokens.isName_sharedName sharing hjob hslash (hnormal.names _ (Path.name_mem hnames))

end Names

namespace Destination

theorem base_above (h : Destination config output results job dir name) :
    (baseDirectory config output).Above dir := by
  cases h with
  | default houtput => exact houtput ▸ .refl _
  | inside houtput => exact houtput ▸ .parent _
  | shared houtput hnames => exact houtput ▸ .refl _

/-- Two jobs of a run have two places. -/
theorem job_eq (hplanned : ∀ result ∈ results, Planned modes result.job)
    (hnonempty : output ≠ none → ∀ result ∈ results, result.job.mode ≠ some "")
    (hresult : result ∈ results) (hresult' : result' ∈ results)
    (h : Destination config output results result.job dir name)
    (h' : Destination config output results result'.job dir' name')
    (hspot : (dir.below name).spot = (dir'.below name').spot) : result.job = result'.job := by
  have hjob := hplanned result hresult
  have hjob' := hplanned result' hresult'
  cases h with
  | default houtput =>
    cases h' with
    | default =>
      rw [Path.spot_below, Path.spot_below] at hspot
      exact hjob.eq_of_fileName hjob' (Path.child_injective hspot)
    | inside houtput' => simp [houtput] at houtput'
    | shared houtput' => simp [houtput] at houtput'
  | inside houtput =>
    cases h' with
    | default houtput' => simp [houtput] at houtput'
    | inside houtput' =>
      obtain rfl := Option.some.inj (houtput.symm.trans houtput')
      rw [Path.spot_below, Path.spot_below] at hspot
      exact hjob.eq_of_fileName hjob' (Path.child_injective hspot)
    | shared houtput' hnames =>
      obtain rfl := Option.some.inj (houtput.symm.trans houtput')
      exact absurd hspot (hjob.inside_ne_shared hnames _ _)
  | shared houtput hnames =>
    cases h' with
    | default houtput' => simp [houtput] at houtput'
    | inside houtput' =>
      obtain rfl := Option.some.inj (houtput.symm.trans houtput')
      exact absurd hspot.symm (hjob'.inside_ne_shared hnames _ _)
    | shared houtput' =>
      obtain rfl := Option.some.inj (houtput.symm.trans houtput')
      rw [Path.spot_below, Path.spot_below] at hspot
      exact sharedName_injective hplanned (hnonempty (by simp [houtput])) hresult hresult'
        (Path.child_injective hspot)

end Destination

end Destinations

section Placing

/-- Where the artifact of a job goes in a file tree: what matters is whether the explicit output is a
directory there. -/
def placeIn (config : Config) (output : Option Path) (job : Job) (sharing : Sharing)
    (tree : FileTree) : Except Failure Path :=
  match output with
  | none => .ok ((Path.ofText config.tokens.output).below job.fileName)
  | some path =>
    match tree.directoryAnswer path with
    | .ok true => .ok (path.below job.fileName)
    | .ok false => .ok (path.parent.below (sharedName path job sharing))
    | .error fault => .error (.ofFault fault)

/-- A path without names is a directory of every tree. -/
theorem names_ne_nil_of_answer (hnormal : path.Normal) (h : tree.directoryAnswer path = .ok false) :
    path.names ≠ [] := by
  intro hnames
  have hdir := FileTree.hasDirectory_of_root hnormal hnames tree
  rw [← FileTree.directoryAnswer_eq_true_iff, h] at hdir
  cases hdir

/-- Looking up the place of an artifact. -/
theorem exec_outputPath (config : Config) (hjob : Planned modes job)
    (hslash : '/' ∉ (job.mode.getD "").toList) (hnormal : ∀ path ∈ output, path.Normal)
    (sharing : Sharing) (tree : FileTree) :
    exec (outputPath job config output sharing) tree =
      (placeIn config output job sharing tree, tree) := by
  obtain ⟨format, hformat, hfile⟩ := hjob.fileName_eq
  have hname : Path.isName job.fileName = true := hjob.isName_fileName hslash
  have hfind : Format.find job.format = .ok format := hformat ▸ format.find_name
  have hplace : exec (outputPath job config output sharing) tree =
      exec (match output with
        | none => pure ((Path.ofText config.tokens.output).join (format.fileName job.mode))
        | some path => do
          if ← attempt (isDirectory path) then pure (path.join (format.fileName job.mode))
          else known (sharedPath path job sharing)) tree := by
    unfold outputPath
    rw [hfind]
    exact exec_bind _ (exec_known _)
  rw [hplace, ← hfile]
  cases houtput : output with
  | none =>
    rw [placeIn, ← Path.join_eq_below hname]
    rfl
  | some path =>
    have hnormal := hnormal path houtput
    have hexec := exec_attempt_isDirectory path tree
    dsimp only
    rw [placeIn]
    cases hanswer : tree.directoryAnswer path with
    | error fault =>
      rw [hanswer] at hexec
      rw [exec_bind_error _ hexec]
    | ok found =>
      rw [hanswer] at hexec
      rw [exec_bind _ hexec]
      cases found with
      | true =>
        rw [← Path.join_eq_below hname]
        rfl
      | false =>
        have hnames := names_ne_nil_of_answer hnormal hanswer
        have hshared := sharedPath_eq (hjob.isName_sharedName hslash hnormal hnames sharing)
        simp [hshared, exec_known]

theorem destination_of_placeIn (hnormal : ∀ path ∈ output, path.Normal) {place : Path}
    (h : placeIn config output job (sharingOf results job) tree = .ok place) : ∃ dir name,
      place = dir.below name ∧ Destination config output results job dir name ∧
        (dir = baseDirectory config output ∨ tree.HasDirectory dir) := by
  unfold placeIn at h
  split at h
  · cases h
    exact ⟨_, _, rfl, .default rfl, .inl rfl⟩
  · next path =>
    split at h
    · next hanswer =>
      cases h
      exact ⟨_, _, rfl, .inside rfl, .inr (FileTree.directoryAnswer_eq_true_iff.mp hanswer)⟩
    · next hanswer =>
      cases h
      have hnames := names_ne_nil_of_answer (hnormal _ rfl) hanswer
      exact ⟨_, _, rfl, .shared rfl hnames, .inl rfl⟩
    · cases h

/-- An explicit output that fits can be looked up, so every job has a place. -/
theorem exists_placeIn (config : Config) (hfits : ∀ path ∈ output, path.Fits) (job : Job)
    (sharing : Sharing) (tree : FileTree) : ∃ place, placeIn config output job sharing tree = .ok place := by
  unfold placeIn
  cases houtput : output with
  | none => exact ⟨_, rfl⟩
  | some path =>
    obtain ⟨found, hfound⟩ := tree.exists_directoryAnswer (hfits path houtput)
    dsimp only
    rw [hfound]
    cases found <;> exact ⟨_, rfl⟩

end Placing

end DesignTokens
