import DesignTokens.Proofs.Export.Places
import DesignTokens.Proofs.Export.Schedule
import Mathlib.Data.List.Forall2

/-!
# Written artifacts

The artifacts of a run go below one directory: the configured one, the explicit directory, or the one
above an explicit file. An explicit output that is no directory at first may become one while
directories are made, so the place of an artifact is looked up when it is written. No two jobs have
the same place. So what was written stays as it is, and an artifact can be written in its turn
whenever it could be written as the only one.

## Main definitions

- `Placeable` — what placing the artifacts of some jobs takes
- `Since` — how a file tree may have changed during a run
- `Settled` — what became of a result that was to be written
-/

namespace DesignTokens

variable {config : Config} {output : Option Path} {results : List JobResult} {modes : List String}
  {job job' : Job} {result result' : JobResult} {dir dir' path base : Path} {name name' : String}
  {before tree mid after : FileTree}

section Placing

/-- What placing the artifacts of some jobs takes: modes that may stand in a file name, a directory
whose path may be asked for, and an explicit output that fits, which tells an empty mode from
none. -/
structure Placeable (config : Config) (output : Option Path) (jobs : List Job) : Prop where
  plain : ∀ job ∈ jobs, ∀ mode ∈ job.mode, Plain mode
  configured : output = none →
    Path.isAcceptable (Path.ofText config.tokens.output).render = true
  normal : ∀ path ∈ output, path.Normal
  fits : ∀ path ∈ output, path.Fits
  nonempty : output ≠ none → ∀ job ∈ jobs, job.mode ≠ some ""

namespace Placeable

variable (h : Placeable config output (results.map (·.job)))
include h

theorem plain_mode (hresult : result ∈ results) : Plain (result.job.mode.getD "") := by
  cases hmode : result.job.mode with
  | none => decide
  | some mode => exact h.plain _ (List.mem_map_of_mem hresult) mode hmode

theorem nonempty_mode (houtput : output ≠ none) :
    ∀ result ∈ results, result.job.mode ≠ some "" :=
  fun _ hresult => h.nonempty houtput _ (List.mem_map_of_mem hresult)

end Placeable

section Names

variable (hplanned : ∀ result ∈ results, Planned modes result.job)
  (hplaceable : Placeable config output (results.map (·.job))) (hresult : result ∈ results)
include hplanned hplaceable hresult

/-- The place of an artifact has a path that can be read back, and no tree refuses it for its
characters. -/
theorem Destination.normal (h : Destination config output results result.job dir name) :
    (dir.below name).Normal ∧ Path.isAcceptable (dir.below name).render = true := by
  have hjob := hplanned result hresult
  have hmode := hplaceable.plain_mode hresult
  obtain ⟨format, -, hfile⟩ := hjob.fileName_eq
  have hname := hjob.isName_fileName hmode.1
  have hfree : Path.isAcceptable result.job.fileName = true :=
    hfile ▸ Format.isAcceptable_fileName hmode.2
  rw [Path.isAcceptable_below, Bool.and_eq_true]
  cases h with
  | default houtput =>
    exact ⟨(Path.normal_ofText _).below hname, hplaceable.configured houtput, hfree⟩
  | inside houtput =>
    have hpath := (hplaceable.fits _ houtput).acceptable
    exact ⟨(hplaceable.normal _ houtput).below hname, hpath, hfree⟩
  | @shared path houtput hnames =>
    have hnormal := hplaceable.normal path houtput
    have hpath := (hplaceable.fits path houtput).acceptable
    have hlast := Path.isAcceptable_name hpath hnames
    have hshared := hjob.isName_sharedName hmode.1 hnormal hnames (sharingOf results result.job)
    exact ⟨hnormal.parent.below hshared, (Path.Above.parent path).isAcceptable hpath,
      isAcceptable_sharedName _ hjob hmode.2 hlast⟩

theorem exists_place (tree : FileTree) : ∃ dir name,
    Destination config output results result.job dir name ∧
      (dir = baseDirectory config output ∨ tree.HasDirectory dir) ∧
      exec (outputPath result.job config output (sharingOf results result.job)) tree =
        (.ok (dir.below name), tree) := by
  have hmode := hplaceable.plain_mode hresult
  obtain ⟨place, hplace⟩ := exists_placeIn config hplaceable.fits result.job
    (sharingOf results result.job) tree
  obtain ⟨dir, name, rfl, hdest, hdir⟩ := destination_of_placeIn hplaceable.normal hplace
  refine ⟨dir, name, hdest, hdir, ?_⟩
  rw [exec_outputPath config (hplanned result hresult) hmode.1 hplaceable.normal, hplace]

end Names

end Placing

section Changes

/-- How a file tree may have changed during a run: there are more directories along the path of the
base directory, and there are other files only once that is a directory. -/
structure Since (base : Path) (before now : FileTree) : Prop where
  keeps : before.KeepsDirectories now
  directories : ∀ location, now.find? location = some .directory →
    before.find? location = some .directory ∨ base.Visits location
  files : now.HasDirectory base ∨ ∀ location content,
    now.find? location = some (.file content) → before.find? location = some (.file content)

namespace Since

theorem refl (base : Path) (tree : FileTree) : Since base tree tree :=
  ⟨fun _ hdir => hdir, fun _ hdir => .inl hdir, .inr fun _ _ hfile => hfile⟩

theorem adds (h : Since base before tree) (hadds : tree.Adds base mid) : Since base before mid where
  keeps location hdir := hadds.keepsDirectories location (h.keeps location hdir)
  directories location hdir := by
    obtain hkept | ⟨-, -, hvisits⟩ := hadds location
    · exact h.directories location (hkept ▸ hdir)
    · exact .inr hvisits
  files := h.files.imp hadds.keepsDirectories.hasDirectory fun hfiles location content hfile =>
    hfiles location content (hadds.find?_file_iff.mp hfile)

/-- A file that is written where there is no directory. -/
theorem set {location : Location} {content : FileContent} (h : Since base before mid)
    (hbase : mid.HasDirectory base) (hfree : mid.find? location ≠ some .directory) :
    Since base before (mid.set location (.file content)) where
  keeps other hdir := FileTree.keepsDirectories_set hfree other (h.keeps other hdir)
  directories other hdir := by
    by_cases hother : other = location
    · subst hother
      simp [FileTree.find?_set_self hfree] at hdir
    · rw [FileTree.find?_set_of_ne hother] at hdir
      exact h.directories other hdir
  files := .inl (FileTree.keepsDirectories_set hfree |>.hasDirectory hbase)

/-- Writing a file below a directory to which the base directory leads, and which is there unless it
is the base directory itself. -/
theorem writeWithParents (h : Since base before tree) (habove : base.Above dir)
    (hdir : dir = base ∨ tree.HasDirectory dir) (name content : String) :
    Since base before ((DesignTokens.writeWithParents (dir.below name) content :
      StateM FileTree _).run tree).2 := by
  have hbase (mid : FileTree) (hadds : tree.Adds dir mid) : tree.Adds base mid := by
    obtain rfl | hdir := hdir
    · exact hadds
    · exact hadds.of_hasDirectory hdir base
  obtain ⟨-, mid, hadds, hmade, hfree, hrun⟩ | ⟨-, fault, mid, hadds, hrun, -⟩ :=
    FileTree.writeWithParents_cases tree dir name content
  · rw [hrun]
    exact (h.adds (hbase mid hadds)).set (hmade.above habove) hfree
  · rw [hrun]
    exact h.adds (hbase mid hadds)

/-- What could be written before can still be written. -/
theorem writable (h : Since base before tree) (habove : base.Above dir)
    (hdir : dir = base ∨ tree.HasDirectory dir) (hwritable : before.Writable dir name) :
    tree.Writable dir name where
  fits := hwritable.fits
  clear := by
    obtain rfl | hdir := hdir
    · obtain hbase | hfiles := h.files
      · exact hbase.clear
      · exact ⟨hwritable.clear.1, fun location hvisits content hfile =>
          hwritable.clear.2 location hvisits content (hfiles location content hfile)⟩
    · exact hdir.clear
  apart := hwritable.apart
  free hplace := by
    obtain hbefore | hvisits := h.directories _ hplace
    · exact hwritable.free hbefore
    · exact hwritable.apart (habove.visits hvisits)

end Since

end Changes

section Run

/-- What became of a result that was to be written, given the tree before the run and a later one. An
artifact that was not written could not have been written as the only one either. -/
inductive Settled (config : Config) (output : Option Path) (results : List JobResult)
    (before after : FileTree) (result : JobResult) : JobResult → Prop
  | failed (hfailed : result.isOk = false) : Settled config output results before after result result
  | written {dir : Path} {name content : String} (hcontent : result.content = some content)
      (hplace : Destination config output results result.job dir name)
      (hnormal : (dir.below name).Normal)
      (hread : after.read (dir.below name) = .ok (.text content)) :
      Settled config output results before after result
        { result with path := some (dir.below name).render }
  | refused {dir : Path} {name content : String} {fault : FileFault}
      (hcontent : result.content = some content)
      (hnormal : (dir.below name).Normal)
      (hrefused : ¬ before.Writable dir name) :
      Settled config output results before after result
        { result with
          error := some ("Could not write " ++ (dir.below name).render ++ ": " ++ fault.message) }

/-- An artifact that one tree has is in another one, too. -/
def KeepsArtifacts (config : Config) (output : Option Path) (results : List JobResult)
    (tree after : FileTree) : Prop :=
  ∀ result ∈ results, ∀ dir name content, Destination config output results result.job dir name →
    result.content = some content → tree.read (dir.below name) = .ok (.text content) →
    after.read (dir.below name) = .ok (.text content)

namespace KeepsArtifacts

theorem refl (tree : FileTree) : KeepsArtifacts config output results tree tree :=
  fun _ _ _ _ _ _ _ hread => hread

theorem trans (h : KeepsArtifacts config output results tree mid)
    (h' : KeepsArtifacts config output results mid after) :
    KeepsArtifacts config output results tree after :=
  fun result hresult dir name content hplace hcontent hread =>
    h' result hresult dir name content hplace hcontent
      (h result hresult dir name content hplace hcontent hread)

theorem of_adds (h : tree.Adds path mid) : KeepsArtifacts config output results tree mid :=
  fun _ _ _ _ _ _ _ hread => h.read hread

end KeepsArtifacts

theorem Settled.keeps {written : JobResult} (hresult : result ∈ results)
    (h : Settled config output results before tree result written)
    (hkeeps : KeepsArtifacts config output results tree after) :
    Settled config output results before after result written := by
  cases h with
  | failed hfailed => exact .failed hfailed
  | written hcontent hplace hnormal hread =>
    exact .written hcontent hplace hnormal (hkeeps _ hresult _ _ _ hplace hcontent hread)
  | refused hcontent hnormal hrefused => exact .refused hcontent hnormal hrefused

section Step

variable {sharing : Job → Sharing} {content : String} (hok : result.isOk = true)
  (hcontent : result.content = some content)
include hok hcontent

/-- A finished job is settled by how writing its content comes out. -/
theorem exec_writeResult_of_place
    (hplace : exec (outputPath result.job config output (sharing result.job)) tree =
      (.ok path, tree)) :
    exec (writeResult config output sharing result) tree =
      (result.written path ((writeWithParents path content : StateM FileTree _).run tree).1,
        ((writeWithParents path content : StateM FileTree _).run tree).2) := by
  unfold writeResult
  rw [hok, hcontent]
  exact exec_bind _ hplace

/-- A content that cannot be encoded stops the run when it is written, and leaves an empty file. -/
theorem exec_writeEach_of_not_isEncodable
    (hplace : exec (outputPath result.job config output (sharing result.job)) tree =
      (.ok (dir.below name), tree))
    (hwritable : tree.Writable dir name) (htext : Text.isEncodable content = false)
    (rest : List JobResult) : ∃ fault after,
    exec (writeEach config output sharing (result :: rest)) tree =
        (.error (.unencodable fault), after) ∧
      after.read (dir.below name) = .ok (.text "") := by
  obtain ⟨-, mid, -, hmade, hfree, hrun⟩ | ⟨hrefused, -⟩ :=
    FileTree.writeWithParents_cases tree dir name content
  · obtain ⟨fault, hencode⟩ := exists_encodeText_of_not_isEncodable htext (dir.below name)
    simp only [hencode] at hrun
    have hwrite := exec_writeResult_of_place hok hcontent hplace
    rw [hrun] at hwrite
    refine ⟨fault, _, exec_bind_error _ hwrite, FileTree.read_eq_ok_iff.mpr ⟨?_, ?_⟩⟩
    · exact (FileTree.keepsDirectories_set hfree).leads
        (FileTree.leads_below_iff.mpr ⟨hwritable.fits, hmade⟩)
    · exact FileTree.find?_set_self hfree
  · exact absurd hwritable hrefused

end Step

/-- The results of a run: those of planned jobs, each with a content that can be encoded or an
error. -/
structure Pending (config : Config) (output : Option Path) (results : List JobResult) : Prop where
  planned : ∃ modes, ∀ result ∈ results, Planned modes result.job
  placeable : Placeable config output (results.map (·.job))
  encodable : ∀ result ∈ results, ∀ content ∈ result.content, Text.isEncodable content = true
  settled : ∀ result ∈ results,
    (∃ content, result = .finished result.job content) ∨ result.isOk = false
  functional : ∀ result ∈ results, ∀ result' ∈ results, result.job = result'.job → result = result'

variable (hpending : Pending config output results)
include hpending

theorem Pending.keeps_set (hresult : result ∈ results) {content : String}
    (hplace : Destination config output results result.job dir name)
    (hcontent : result.content = some content)
    (hfree : mid.find? (dir.below name).spot ≠ some .directory) :
    KeepsArtifacts config output results mid
      (mid.set (dir.below name).spot (.file (.text content))) := by
  obtain ⟨modes, hplanned⟩ := hpending.planned
  intro result' hresult' dir' name' content' hplace' hcontent' hread
  rw [FileTree.read_eq_ok_iff] at hread ⊢
  refine ⟨(FileTree.keepsDirectories_set hfree).leads hread.1, ?_⟩
  by_cases hspot : (dir'.below name').spot = (dir.below name).spot
  · -- Only the job itself goes there, and it writes the same again.
    have hjob := hplace'.job_eq hplanned hpending.placeable.nonempty_mode hresult' hresult hplace hspot
    obtain rfl := hpending.functional _ hresult' _ hresult hjob
    obtain rfl := Option.some.inj (hcontent.symm.trans hcontent')
    rw [hspot, FileTree.find?_set_self hfree]
  · rw [FileTree.find?_set_of_ne hspot, hread.2]

/-- One step of a run. -/
theorem Pending.exec_writeResult (hresult : result ∈ results)
    (hsince : Since (baseDirectory config output) before tree) : ∃ written after,
    exec (writeResult config output (sharingOf results) result) tree = (.ok written, after) ∧
      Since (baseDirectory config output) before after ∧
      Settled config output results before after result written ∧
      KeepsArtifacts config output results tree after := by
  obtain ⟨modes, hplanned⟩ := hpending.planned
  obtain ⟨content, hfinished⟩ | hfailed := hpending.settled result hresult
  · have hok : result.isOk = true := by rw [hfinished]; rfl
    have hcontent : result.content = some content := by rw [hfinished]; rfl
    obtain ⟨dir, name, hplace, hdir, hexec⟩ :=
      exists_place hplanned hpending.placeable hresult tree
    obtain ⟨hnormal, hpath⟩ := Destination.normal hplanned hpending.placeable hresult hplace
    have hafter := hsince.writeWithParents hplace.base_above hdir name content
    rw [exec_writeResult_of_place hok hcontent hexec]
    obtain ⟨hwritable, mid, hadds, hmade, hfree, hrun⟩ | ⟨hrefused, fault, mid, hadds, hrun, hcause⟩ :=
      FileTree.writeWithParents_cases tree dir name content
    · rw [encodeText_of_isEncodable (hpending.encodable result hresult content hcontent)] at hrun
      rw [hrun] at hafter ⊢
      have hleads := FileTree.leads_below_iff.mpr ⟨hwritable.fits, hmade⟩
      have hread : (mid.set (dir.below name).spot (.file (.text content))).read (dir.below name) =
          .ok (.text content) :=
        FileTree.read_eq_ok_iff.mpr
          ⟨(FileTree.keepsDirectories_set hfree).leads hleads, FileTree.find?_set_self hfree⟩
      have hkeeps := hpending.keeps_set hresult hplace hcontent hfree
      exact ⟨_, _, rfl, hafter, .written hcontent hplace hnormal hread,
        (KeepsArtifacts.of_adds hadds).trans hkeeps⟩
    · rw [hrun] at hafter ⊢
      have hnamed : result.written (dir.below name) (.error fault) = .ok { result with
          error := some ("Could not write " ++ (dir.below name).render ++ ": " ++ fault.message) } :=
        if_neg (by simp [hcause hpath])
      have hbefore : ¬ before.Writable dir name := fun hwritable =>
        hrefused (hsince.writable hplace.base_above hdir hwritable)
      exact ⟨_, mid, by rw [hnamed], hafter, .refused hcontent hnormal hbefore, .of_adds hadds⟩
  · refine ⟨result, tree, ?_, hsince, .failed hfailed, .refl tree⟩
    unfold writeResult
    rw [hfailed]
    rfl

/-- A whole run. -/
theorem Pending.exec_writeEach {rest : List JobResult} (hrest : ∀ result ∈ rest, result ∈ results)
    (hsince : Since (baseDirectory config output) before tree) : ∃ written after,
    exec (writeEach config output (sharingOf results) rest) tree = (.ok written, after) ∧
      List.Forall₂ (Settled config output results before after) rest written ∧
      KeepsArtifacts config output results tree after := by
  induction rest generalizing tree with
  | nil => exact ⟨[], tree, rfl, .nil, .refl tree⟩
  | cons result rest ih =>
    rw [List.forall_mem_cons] at hrest
    obtain ⟨first, mid, hfirst, hsince, hsettled, hkeeps⟩ :=
      hpending.exec_writeResult hrest.1 hsince
    obtain ⟨more, after, hmore, hothers, hkeeps'⟩ := ih hrest.2 hsince
    have hexec : exec (writeEach config output (sharingOf results) (result :: rest)) tree =
        (.ok (first :: more), after) := by
      rw [writeEach, exec_bind _ hfirst, exec_bind _ hmore]
      rfl
    exact ⟨first :: more, after, hexec, .cons (hsettled.keeps hrest.1 hkeeps') hothers,
      hkeeps.trans hkeeps'⟩

end Run

section Export

variable {prefixed : Config} {request : ExportRequest} {formats : List String}
  {selector : ModeSelector} {jobs : List Job} {policy : Document}

/-- What an export says about a job, given the tree before it and the tree after it: the failure of
the job, the path of its artifact, which is there, or that the artifact could not be written, which
it could not have been as the only one either. -/
inductive Reported (config : Config) (policy : Document) (before after : FileTree) (job : Job) :
    JobResult → Prop
  | failed (hfailed : (settleJob config policy job).isOk = false) :
      Reported config policy before after job (settleJob config policy job)
  | written {content path : String} (hdone : settleJob config policy job = .finished job content)
      (hread : after.read (.ofText path) = .ok (.text content)) :
      Reported config policy before after job ⟨job, some content, none, none, some path⟩
  | refused {content path : String} {fault alone : FileFault}
      (hdone : settleJob config policy job = .finished job content)
      (halone : ((writeWithParents (.ofText path) content : StateM FileTree _).run before).1 =
        .error alone) :
      Reported config policy before after job ⟨job, some content,
        some ("Could not write " ++ path ++ ": " ++ fault.message), none, none⟩

theorem map_job_settleJob (jobs : List Job) :
    (jobs.map (settleJob config policy)).map (·.job) = jobs := by
  simp [Function.comp_def]

theorem pending_of_planJobs (hplan : planJobs config formats selector = .ok jobs)
    (hplaceable : Placeable config output jobs)
    (hencodable : ∀ job ∈ jobs, ∀ content ∈ (settleJob config policy job).content,
      Text.isEncodable content = true) :
    Pending config output (jobs.map (settleJob config policy)) := by
  obtain ⟨modes, -, hplanned⟩ := planned_of_planJobs hplan
  refine ⟨⟨modes, ?_⟩, by rwa [map_job_settleJob], by simpa using hencodable, ?_, ?_⟩
  · simpa using hplanned
  · intro result hresult
    obtain ⟨job, -, rfl⟩ := List.mem_map.mp hresult
    obtain ⟨content, h⟩ | ⟨error, tokenPath, h⟩ := settleJob_shape config policy job
    · exact .inl ⟨content, by rw [h]; rfl⟩
    · exact .inr (by rw [h]; rfl)
  · intro result hresult result' hresult' hjobs
    obtain ⟨job, -, rfl⟩ := List.mem_map.mp hresult
    obtain ⟨job', -, rfl⟩ := List.mem_map.mp hresult'
    rw [job_settleJob, job_settleJob] at hjobs
    rw [hjobs]

theorem settleJob_of_content {content : String}
    (h : (settleJob config policy job).content = some content) :
    settleJob config policy job = .finished job content := by
  obtain ⟨content', hdone⟩ | ⟨error, tokenPath, hfailed⟩ := settleJob_shape config policy job
  · rw [hdone] at h ⊢
    rw [Option.some.inj h]
  · rw [hfailed] at h
    cases h

theorem Settled.reported {written : JobResult}
    (h : Settled config output results before after (settleJob config policy job) written) :
    Reported config policy before after job written := by
  cases h with
  | failed hfailed => exact .failed hfailed
  | written hcontent hplace hnormal hread =>
    have hdone := settleJob_of_content hcontent
    rw [hdone]
    refine .written hdone ?_
    rwa [hnormal.ofText_render]
  | @refused dir name content fault hcontent hnormal hrefused =>
    have hdone := settleJob_of_content hcontent
    obtain ⟨hwritable, -⟩ | ⟨-, alone, mid, -, hrun, -⟩ :=
      FileTree.writeWithParents_cases before dir name content
    · exact absurd hwritable hrefused
    · have halone : ((writeWithParents (.ofText (dir.below name).render) content :
          StateM FileTree _).run before).1 = .error alone := by
        rw [hnormal.ofText_render, hrun]
      rw [hdone]
      exact .refused hdone halone

/-- A failing job does no harm to the others of its export, if the jobs have file names to be placed
under and contents that can be encoded. The export has a result for every planned job, in the order
of the plan. A job whose artifact could not be written does not keep any other artifact from being
written. -/
theorem export_reports_every_job (hwrite : request.write = true)
    (hworkers : AcceptedWorkers request.workers)
    (hprefixed : config.withPrefix? request.variablePrefix = .ok prefixed)
    (hplan : planJobs prefixed (request.formats.filter (· ≠ "")) request.selector = .ok jobs)
    (hplaceable : Placeable prefixed request.output jobs)
    (hencodable : ∀ job ∈ jobs, ∀ content ∈ (settleJob prefixed request.policy job).content,
      Text.isEncodable content = true) (tree : FileTree) :
    ∃ results after,
      (config.export request : ExceptT Failure (StateM FileTree) _).run.run tree =
        (.ok results, after) ∧
      List.Forall₂ (Reported prefixed request.policy tree after) jobs results := by
  have hpending := pending_of_planJobs hplan hplaceable hencodable
  obtain ⟨results, after, hexec, hsettled, -⟩ :=
    hpending.exec_writeEach (fun _ hresult => hresult) (.refl _ tree)
  refine ⟨results, after, ?_, ?_⟩
  · rw [export_of_accepted hprefixed hplan hworkers, hwrite]
    exact hexec
  · rw [List.forall₂_map_left_iff] at hsettled
    exact hsettled.imp fun _ _ => Settled.reported

end Export

/-- A configuration with little more than two modes. -/
def twoModeConfig (first second : String) : Config :=
  { Config.standard with
    theme := { Config.standard.theme with
      default := second
      themes := [(first, ⟨[], [], []⟩), (second, ⟨[("ink", .value "#000")], [], []⟩)] }
    typography := .empty
    spacing := .empty
    effects := .empty
    responsive := .empty
    components := .empty }

/-- An export of both of its modes to one explicit file. -/
def oneFileRequest : ExportRequest where
  formats := ["css"]
  output := some (.ofText "o.css")
  selector := .all
  variablePrefix := none
  policy := .text "strict"
  workers := none
  write := true

theorem acceptedWorkers_oneFile : AcceptedWorkers oneFileRequest.workers :=
  fun _ h => nomatch h

theorem planJobs_twoModes (first second : String)
    (hsorted : ([Format.css].flatMap (formatJobs [first, second])).Pairwise
      fun a b => a.precedes b = true) :
    planJobs (twoModeConfig first second) (oneFileRequest.formats.filter (· ≠ "")) .all =
      .ok [⟨"css", some first, [first]⟩, ⟨"css", some second, [second]⟩] :=
  planJobs_of_sorted rfl rfl hsorted

theorem two_modes_export_reports_every_job : ∃ results after,
    ((twoModeConfig "b" "c").export oneFileRequest : ExceptT Failure (StateM FileTree) _).run.run
        .empty = (.ok results, after) ∧
      List.Forall₂ (Reported (twoModeConfig "b" "c") (.text "strict") .empty after)
        [⟨"css", some "b", ["b"]⟩, ⟨"css", some "c", ["c"]⟩] results := by
  have hplaceable : Placeable (twoModeConfig "b" "c") oneFileRequest.output
      [⟨"css", some "b", ["b"]⟩, ⟨"css", some "c", ["c"]⟩] := by
    have hfits : (Path.ofText "o.css").Fits := ⟨by decide, by decide, by decide⟩
    have hb : Plain "b" := by decide
    have hc : Plain "c" := by decide
    refine ⟨?_, by rintro ⟨⟩, ?_, ?_, fun _ => by decide⟩
    · simp [hb, hc]
    · rintro path ⟨rfl⟩
      exact Path.normal_ofText _
    · rintro path ⟨rfl⟩
      exact hfits
  have hcontents : [(⟨"css", some "b", ["b"]⟩ : Job), ⟨"css", some "c", ["c"]⟩].all
      (fun job => (settleJob (twoModeConfig "b" "c") (.text "strict") job).content.all
        Text.isEncodable) = true := by
    decide +kernel
  simp only [List.all_eq_true, Option.all_eq_true] at hcontents
  exact export_reports_every_job rfl acceptedWorkers_oneFile rfl
    (planJobs_twoModes "b" "c" (by decide)) hplaceable hcontents .empty

/-- A mode with a slash stops the whole export, though its jobs are planned and the artifact of the
other mode has a place. -/
theorem exists_export_stopped : ∃ (config : Config) (request : ExportRequest) (tree : FileTree),
    (∃ jobs, planJobs config (request.formats.filter (· ≠ "")) request.selector = .ok jobs) ∧
      (config.export request : ExceptT Failure (StateM FileTree) _).run.run tree =
        (.error (.invalidName "o-a/b.css"), tree) := by
  have hplan := planJobs_twoModes "a/b" "c" (by decide)
  refine ⟨twoModeConfig "a/b" "c", oneFileRequest, .empty, ⟨_, hplan⟩, ?_⟩
  rw [export_of_accepted rfl hplan acceptedWorkers_oneFile]
  rfl

end DesignTokens
