import DesignTokens.Proofs.Export.Writing

/-!
# Steady places

The place of an artifact is looked up when it is written, so it might depend on what the artifacts
before it have done to the file tree, and with that on which jobs of the run failed. It does not,
unless writing makes a directory of the explicit output itself: that takes an output whose place is
on the way to the directory above it, as that of `new/..` is.

## Main definitions

- `FileTree.Closed` — a tree in which everything stands in a directory
- `FileTree.Steady` — a path that does not become a directory by writing files next to it
- `placeAfter` — the path that a job gets in a run
-/

namespace DesignTokens

variable {config : Config} {output : Option Path} {results others done : List JobResult}
  {modes : List String} {job : Job} {result result' : JobResult} {path : Path}
  {before tree now : FileTree}

section Trees

namespace Path

/-- Without the name `..` every name leads one step further down. -/
theorem foldl_child {names : List String} (hup : ".." ∉ names) (location : Location) :
    names.foldl child location = location ++ names := by
  induction names generalizing location with
  | nil => simp
  | cons name rest ih =>
    obtain ⟨hname, hrest⟩ : ".." ≠ name ∧ ".." ∉ rest := by simpa using hup
    have hchild : child location name = location ++ [name] := if_neg (Ne.symm hname)
    rw [List.foldl_cons, hchild, ih hrest, List.append_assoc]
    rfl

theorem spot_eq_append (hup : ".." ∉ path.names) :
    path.spot = (if path.root = "" then [] else [path.root]) ++ path.names :=
  foldl_child hup _

/-- A path that is never left upwards leads to places above its own. -/
theorem prefix_of_visits {location : Location} (hup : ".." ∉ path.names)
    (hvisits : path.Visits location) : location <+: path.spot := by
  obtain ⟨a, ⟨hroot, hnames⟩, rfl⟩ := hvisits
  have hup' : ".." ∉ a.names := fun hmem => hup (hnames.subset hmem)
  rw [spot_eq_append hup, spot_eq_append hup', hroot]
  exact (List.prefix_append_right_inj _).mpr hnames

theorem not_visits_parent (hup : ".." ∉ path.names) (hnames : path.names ≠ []) :
    ¬ path.parent.Visits path.spot := by
  intro hvisits
  have hup' : ".." ∉ path.parent.names := fun hmem => hup (List.mem_of_mem_dropLast hmem)
  have hparent : path.parent.spot =
      (if path.root = "" then [] else [path.root]) ++ path.names.dropLast :=
    spot_eq_append hup'
  have hlength := (prefix_of_visits hup' hvisits).length_le
  have hpos := List.length_pos_iff.mpr hnames
  rw [spot_eq_append hup, hparent] at hlength
  simp only [List.length_append, List.length_dropLast] at hlength
  omega

end Path

namespace FileTree

/-- A tree in which everything stands in a directory. -/
def Closed (tree : FileTree) : Prop :=
  ∀ location name, tree.find? (location ++ [name]) ≠ none → tree.find? location = some .directory

theorem closed_empty : empty.Closed := by
  intro location name hfound
  have hroot : isOutside (location ++ [name]) = true := by
    by_contra hinside
    simp [find?, hinside, empty, findEntry] at hfound
  have habove : isOutside location = true := by
    simp only [isOutside, List.all_append, Bool.and_eq_true] at hroot ⊢
    exact hroot.1
  simp [find?, habove]

theorem Closed.directory_of_prefix {location other : Location} (h : tree.Closed)
    (hstart : location <+: other) (hdir : tree.find? other = some .directory) :
    tree.find? location = some .directory := by
  obtain ⟨rest, rfl⟩ := hstart
  induction rest using List.reverseRecOn with
  | nil => simpa using hdir
  | append_singleton rest name ih =>
    apply ih
    apply h _ name
    rw [List.append_assoc, hdir]
    exact Option.some_ne_none _

/-- A path that does not become a directory by writing files next to it: it is one already, or else
its place is none, and is not on the way to the directory above it. -/
def Steady (tree : FileTree) (path : Path) : Prop :=
  tree.HasDirectory path ∨
    path.Fits ∧ tree.find? path.spot ≠ some .directory ∧ ¬ path.parent.Visits path.spot

theorem Steady.fits (h : tree.Steady path) : path.Fits := by
  obtain hdir | ⟨hfits, -⟩ := h
  · exact (hasDirectory_iff.mp hdir).1
  · exact hfits

/-- Only the name `..` can make a path unsteady. -/
theorem Closed.steady (h : tree.Closed) (hnormal : path.Normal) (hfits : path.Fits)
    (hup : ".." ∉ path.names) : tree.Steady path := by
  by_cases hdir : tree.HasDirectory path
  · exact .inl hdir
  · have hnames : path.names ≠ [] := fun hnames => hdir (hasDirectory_of_root hnormal hnames tree)
    refine .inr ⟨hfits, fun hspot => ?_, Path.not_visits_parent hup hnames⟩
    apply hdir
    rw [hasDirectory_iff]
    refine ⟨hfits, fun location hvisits => ?_⟩
    exact h.directory_of_prefix (Path.prefix_of_visits hup hvisits) hspot

theorem directoryAnswer_eq_false (hfits : path.Fits) (h : ¬ tree.HasDirectory path) :
    tree.directoryAnswer path = .ok false := by
  obtain ⟨found, hfound⟩ := tree.exists_directoryAnswer hfits
  cases found with
  | false => exact hfound
  | true => exact absurd (directoryAnswer_eq_true_iff.mp hfound) h

end FileTree

end Trees

section Run

/-- Whether a steady output is a directory is the same throughout a run. -/
theorem Since.directoryAnswer_eq (h : Since path.parent before now) (hsteady : before.Steady path) :
    now.directoryAnswer path = before.directoryAnswer path := by
  obtain hdir | ⟨hfits, hspot, hapart⟩ := hsteady
  · have hstill := h.keeps.hasDirectory hdir
    rw [FileTree.directoryAnswer_eq_true_iff.mpr hdir,
      FileTree.directoryAnswer_eq_true_iff.mpr hstill]
  · have hbefore : ¬ before.HasDirectory path := fun hdir =>
      hspot ((FileTree.hasDirectory_iff.mp hdir).2 _ path.visits_spot)
    have hnow : ¬ now.HasDirectory path := by
      intro hdir
      obtain hwas | hmade :=
        h.directories _ ((FileTree.hasDirectory_iff.mp hdir).2 _ path.visits_spot)
      · exact hspot hwas
      · exact hapart hmade
    rw [FileTree.directoryAnswer_eq_false hfits hbefore,
      FileTree.directoryAnswer_eq_false hfits hnow]

theorem Since.placeIn_eq (h : Since (baseDirectory config output) before now)
    (hsteady : ∀ path ∈ output, before.Steady path) (job : Job) (sharing : Sharing) :
    placeIn config output job sharing now = placeIn config output job sharing before := by
  cases houtput : output with
  | none => rfl
  | some path =>
    subst houtput
    have hanswer := Since.directoryAnswer_eq h (hsteady path rfl)
    unfold placeIn
    dsimp only
    rw [hanswer]

variable (hnormal : ∀ path ∈ output, path.Normal)
include hnormal

/-- One step of a run, whatever becomes of it. -/
theorem Since.writeResult (hsince : Since (baseDirectory config output) before tree)
    (results : List JobResult) (hjob : Planned modes result.job) (hslash : '/' ∉ (result.job.mode.getD "").toList) :
    Since (baseDirectory config output) before
      (exec (writeResult config output (sharingOf results) result) tree).2 := by
  unfold DesignTokens.writeResult
  split
  · next content hok hcontent =>
    have hplace := exec_outputPath config hjob hslash hnormal
      (sharingOf results result.job) tree
    cases hfound : placeIn config output result.job (sharingOf results result.job) tree with
    | error failure =>
      rw [hfound] at hplace
      rw [exec_bind_error _ hplace]
      exact hsince
    | ok place =>
      rw [hfound] at hplace
      rw [exec_bind _ hplace]
      obtain ⟨dir, name, rfl, hdest, hdir⟩ := destination_of_placeIn hnormal hfound
      exact hsince.writeWithParents hdest.base_above hdir name content
  · exact hsince

/-- A whole run, whatever becomes of it. -/
theorem Since.writeEach {rest : List JobResult}
    (hsince : Since (baseDirectory config output) before tree)
    (hjobs : ∀ result ∈ rest, Planned modes result.job ∧ '/' ∉ (result.job.mode.getD "").toList) :
    Since (baseDirectory config output) before
      (exec (writeEach config output (sharingOf results) rest) tree).2 := by
  induction rest generalizing tree with
  | nil => exact hsince
  | cons result rest ih =>
    rw [List.forall_mem_cons] at hjobs
    have hfirst := hsince.writeResult hnormal results hjobs.1.1 hjobs.1.2
    rw [DesignTokens.writeEach]
    obtain ⟨failure, hexec⟩ | ⟨written, hexec⟩ := exec_bind_cases
      (DesignTokens.writeResult config output (sharingOf results) result)
      (fun written => do
        let more ← DesignTokens.writeEach config output (sharingOf results) rest
        pure (written :: more)) tree
    · rw [hexec]
      exact hfirst
    · have hrest := ih hfirst hjobs.2
      rw [hexec]
      obtain ⟨failure, hexec'⟩ | ⟨more, hexec'⟩ := exec_bind_cases
        (DesignTokens.writeEach config output (sharingOf results) rest)
        (fun more => pure (written :: more))
        (exec (DesignTokens.writeResult config output (sharingOf results) result) tree).2
      · rw [hexec']
        exact hrest
      · rw [hexec']
        exact hrest

end Run

section Sharing

/-- What the jobs of a run share is a matter of the jobs only. -/
theorem sharingOf_congr (hdistinct : (results.map (·.job)).Nodup)
    (hdistinct' : (others.map (·.job)).Nodup)
    (hsame : ∀ job, job ∈ results.map (·.job) ↔ job ∈ others.map (·.job)) :
    sharingOf results = sharingOf others := by
  have hperm : (results.map (·.job)).Perm (others.map (·.job)) :=
    (List.perm_ext_iff_of_nodup hdistinct hdistinct').mpr hsame
  funext job
  unfold sharingOf
  have hmodes (list : List JobResult) : list.countP (fun result =>
      result.job.format = job.format && result.job.namedMode?.isSome) =
      (list.map (·.job)).countP fun other =>
        other.format = job.format && other.namedMode?.isSome := by
    rw [List.countP_map]
    rfl
  have hformats : (distinct (results.map (·.job.format))).Perm
      (distinct (others.map (·.job.format))) := by
    rw [List.perm_ext_iff_of_nodup (nodup_distinct _) (nodup_distinct _)]
    intro name
    have hnames := (hperm.map Job.format).mem_iff (a := name)
    rw [List.map_map, List.map_map] at hnames
    rw [mem_distinct, mem_distinct]
    exact hnames
  rw [hmodes, hmodes, hperm.countP_eq, hformats.length_eq]

end Sharing

section Places

/-- The path that a job gets in a run, once the artifacts of some results before it are written. -/
def placeAfter (config : Config) (output : Option Path) (results done : List JobResult) (job : Job)
    (tree : FileTree) : Except Failure Path :=
  (exec (outputPath job config output (sharingOf results job))
    (exec (writeEach config output (sharingOf results) done) tree).2).1

variable {formats : List String} {selector : ModeSelector} {jobs : List Job}

/-- No two jobs of a run get the same path, whatever became of the jobs before them. The path of a job
depends on which jobs are in the run, and not on which of them failed, if the explicit output is
steady. -/
theorem places_distinct_and_steady (hplan : planJobs config formats selector = .ok jobs)
    (hresults : ∀ result ∈ results, result.job ∈ jobs)
    (hmodes : ∀ result ∈ results, ∀ mode ∈ result.job.mode, mode ≠ "" ∧ '/' ∉ mode.toList)
    (hnormal : ∀ path ∈ output, path.Normal) (tree : FileTree) :
    (∀ result ∈ results, ∀ result' ∈ results, result.job ≠ result'.job →
      ∀ done done' place place', placeAfter config output results done result.job tree = .ok place →
        placeAfter config output results done' result'.job tree = .ok place' →
        place ≠ place' ∧ place.spot ≠ place'.spot) ∧
    ((∀ path ∈ output, tree.Steady path) → ∀ others : List JobResult,
      (results.map (·.job)).Nodup → (others.map (·.job)).Nodup →
      (∀ job, job ∈ results.map (·.job) ↔ job ∈ others.map (·.job)) →
      ∀ result ∈ results, ∀ done ⊆ results, ∀ done' ⊆ others, ∃ place,
        placeAfter config output results done result.job tree = .ok place ∧
        placeAfter config output others done' result.job tree = .ok place) := by
  obtain ⟨modes, -, hplanned⟩ := planned_of_planJobs hplan
  have hjobs : ∀ result ∈ results,
      Planned modes result.job ∧ '/' ∉ (result.job.mode.getD "").toList := by
    intro result hresult
    refine ⟨hplanned _ (hresults result hresult), ?_⟩
    cases hmode : result.job.mode with
    | none => simp
    | some mode => exact (hmodes result hresult mode hmode).2
  have hplace (results' done : List JobResult) {result : JobResult} (hresult : result ∈ results) :
      placeAfter config output results' done result.job tree =
        placeIn config output result.job (sharingOf results' result.job)
          (exec (writeEach config output (sharingOf results') done) tree).2 := by
    rw [placeAfter, exec_outputPath config (hjobs result hresult).1 (hjobs result hresult).2 hnormal]
  constructor
  · intro result hresult result' hresult' hne done done' place place' h h'
    rw [hplace _ _ hresult] at h
    rw [hplace _ _ hresult'] at h'
    obtain ⟨dir, name, rfl, hdest, -⟩ := destination_of_placeIn hnormal h
    obtain ⟨dir', name', rfl, hdest', -⟩ := destination_of_placeIn hnormal h'
    have hspot : (dir.below name).spot ≠ (dir'.below name').spot := fun hspot =>
      hne (hdest.job_eq (fun other hother => (hjobs other hother).1)
        (fun _ other hother hempty => (hmodes other hother "" hempty).1 rfl)
        hresult hresult' hdest' hspot)
    exact ⟨fun hsame => hspot (congrArg Path.spot hsame), hspot⟩
  · intro hsteady others hdistinct hdistinct' hsame result hresult done hdone done' hdone'
    have hothers : ∀ other ∈ others,
        Planned modes other.job ∧ '/' ∉ (other.job.mode.getD "").toList := by
      intro other hother
      obtain ⟨same, hmem, hjob⟩ := List.mem_map.mp ((hsame _).mpr (List.mem_map_of_mem hother))
      exact hjob ▸ hjobs same hmem
    have hsince : Since (baseDirectory config output) tree
        (exec (writeEach config output (sharingOf results) done) tree).2 :=
      (Since.refl _ tree).writeEach hnormal fun other hother => hjobs other (hdone hother)
    have hsince' : Since (baseDirectory config output) tree
        (exec (writeEach config output (sharingOf others) done') tree).2 :=
      (Since.refl _ tree).writeEach hnormal fun other hother => hothers other (hdone' hother)
    obtain ⟨place, hfound⟩ := exists_placeIn config
      (fun path hpath => (hsteady path hpath).fits) result.job (sharingOf results result.job) tree
    refine ⟨place, ?_, ?_⟩
    · rw [hplace _ _ hresult, hsince.placeIn_eq hsteady, hfound]
    · rw [hplace _ _ hresult, hsince'.placeIn_eq hsteady, ← sharingOf_congr hdistinct hdistinct' hsame,
        hfound]

end Places

/-- The results of two artifacts in the light mode, the first of which has a content or failed. -/
def lightResults (first : Option String) : List JobResult :=
  [⟨⟨"components", some "light", ["light"]⟩, first, if first = none then some "" else none, none, none⟩,
    .finished ⟨"css", some "light", ["light"]⟩ ":root {}"]

theorem planJobs_light : planJobs .standard ["components", "css"] (.named ["light"]) =
    .ok ((lightResults none).map (·.job)) := by
  have hmodes : selectModes .standard (.named ["light"]) = .ok ["light"] := rfl
  have hfound : findFormats (distinct (["components", "css"].map Text.lower)) =
      .ok [.components, .css] := rfl
  have hsorted : ([Format.components, .css].flatMap (formatJobs ["light"])).Pairwise
      fun a b => a.precedes b = true := by
    decide
  exact planJobs_of_sorted hmodes hfound hsorted

theorem light_places_steady : ∃ place,
    placeAfter .standard (some (.ofText "out.css")) (lightResults (some ""))
        ((lightResults (some "")).take 1) ⟨"css", some "light", ["light"]⟩ .empty = .ok place ∧
      placeAfter .standard (some (.ofText "out.css")) (lightResults none)
        ((lightResults none).take 1) ⟨"css", some "light", ["light"]⟩ .empty = .ok place := by
  have hnormal : ∀ path ∈ some (Path.ofText "out.css"), path.Normal := by
    rintro path ⟨rfl⟩
    exact Path.normal_ofText _
  have hfits : (Path.ofText "out.css").Fits := ⟨by decide, by decide, by decide⟩
  have hsteady : ∀ path ∈ some (Path.ofText "out.css"), FileTree.empty.Steady path := by
    rintro path ⟨rfl⟩
    exact FileTree.closed_empty.steady (Path.normal_ofText _) hfits (by decide)
  have hjobs : ∀ result ∈ lightResults (some ""),
      result.job ∈ (lightResults none).map (·.job) := by decide
  have hplaces := places_distinct_and_steady planJobs_light hjobs (by decide) hnormal .empty
  have hcss : .finished ⟨"css", some "light", ["light"]⟩ ":root {}" ∈ lightResults (some "") := by
    decide
  exact hplaces.2 hsteady (lightResults none) (by decide) (by decide) (fun _ => Iff.rfl) _ hcss
    _ (by decide) _ (by decide)

/-- Next to `new/..` an artifact goes, which makes the directory `new`. After that the output is a
directory itself, and the next artifact goes into it. -/
theorem exists_place_moved : ∃ (config : Config) (formats : List String) (selector : ModeSelector)
    (output : Path) (results others : List JobResult) (job : Job),
    planJobs config formats selector = .ok (results.map (·.job)) ∧
      others.map (·.job) = results.map (·.job) ∧ job ∈ results.map (·.job) ∧
      placeAfter config (some output) results (results.take 1) job .empty =
        .ok (output.below "tokens-light.css") ∧
      placeAfter config (some output) others (others.take 1) job .empty =
        .ok (output.parent.below "..-css") :=
  ⟨.standard, ["components", "css"], .named ["light"], .ofText "new/..", lightResults (some ""),
    lightResults none, ⟨"css", some "light", ["light"]⟩, planJobs_light, rfl, by decide, rfl, rfl⟩

end DesignTokens
