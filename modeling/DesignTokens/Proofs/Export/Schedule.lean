import DesignTokens.Export.Placement
import DesignTokens.Export.Pool
import DesignTokens.Files.Tree
import DesignTokens.Proofs.Export.Outcome

/-!
# Schedules

Whatever order the jobs of a plan end in, their results are the same list: the result that each job
has on its own, in the order of the plan. A pool with at least one worker comes to its end from
wherever it is, and what it has collected then are the results of the submitted jobs in some order.
So neither the schedule nor the number of workers shows in the outcome of an export. Only a number
of workers below one does, which no pool accepts.

## Main definitions

- `Pool.Accounts` — no job of a pool is lost or done twice
- `AcceptedWorkers` — a number of workers that a pool accepts
- `Config.exportInOrder` — an export whose jobs end in a given order
-/

namespace DesignTokens

variable {config : Config} {formats : List String} {selector : ModeSelector} {jobs : List Job}
  {modes : List String} {job : Job} {policy : Document}

namespace Pool

variable {run : Job → JobResult} {workers : Nat} {pool next : Pool}

/-- The jobs of a pool are the submitted ones, and what is collected are the results of those that
ended. -/
def Accounts (jobs : List Job) (run : Job → JobResult) (pool : Pool) : Prop :=
  ∃ ended : List Job, pool.collected = ended.map run ∧
    (ended ++ (pool.working ++ pool.waiting)).Perm jobs

theorem accounts_submit (jobs : List Job) : (submit jobs).Accounts jobs run :=
  ⟨[], rfl, .refl jobs⟩

theorem Accounts.step (h : pool.Accounts jobs run) (hstep : Step run workers pool next) :
    next.Accounts jobs run := by
  obtain ⟨ended, hcollected, hperm⟩ := h
  cases hstep with
  | @start job waiting working collected hfree =>
    have hmoved : (job :: (working ++ waiting)).Perm (working ++ job :: waiting) :=
      List.perm_middle.symm
    exact ⟨ended, hcollected, .trans (.append_left ended hmoved) hperm⟩
  | @finish job waiting before after collected =>
    refine ⟨ended ++ [job], by simp_all, .trans ?_ hperm⟩
    have hmoved : (job :: (before ++ after)).Perm (before ++ job :: after) := List.perm_middle.symm
    simpa using (hmoved.append_right waiting).append_left ended

theorem Accounts.reaches (h : pool.Accounts jobs run) (hreaches : Reaches run workers pool next) :
    next.Accounts jobs run := by
  induction hreaches with
  | refl => exact h
  | tail _ hstep ih => exact ih.step hstep

/-- An idle pool has collected the results of all submitted jobs. -/
theorem Accounts.collected (h : pool.Accounts jobs run) (hidle : pool.IsIdle) :
    ∃ ended : List Job, pool.collected = ended.map run ∧ ended.Perm jobs := by
  obtain ⟨ended, hcollected, hperm⟩ := h
  rw [hidle.1, hidle.2] at hperm
  exact ⟨ended, hcollected, by simpa using hperm⟩

/-- How many steps a pool still has to go. -/
def load (pool : Pool) : Nat :=
  2 * pool.waiting.length + pool.working.length

theorem Step.load_lt (h : Step run workers pool next) : next.load < pool.load := by
  cases h <;> simp only [load, List.length_cons, List.length_append] <;> omega

theorem exists_step (run : Job → JobResult) (hworkers : 0 < workers) (h : ¬ pool.IsIdle) :
    ∃ next, Step run workers pool next := by
  obtain ⟨waiting, working, collected⟩ := pool
  cases working with
  | cons job rest => exact ⟨_, @Step.finish run workers job waiting [] rest collected⟩
  | nil =>
    cases waiting with
    | nil => exact absurd ⟨rfl, rfl⟩ h
    | cons job rest => exact ⟨_, .start hworkers⟩

/-- A pool with a worker can always come to its end. -/
theorem exists_idle (hworkers : 0 < workers) (pool : Pool) :
    ∃ last, Reaches run workers pool last ∧ last.IsIdle := by
  by_cases hidle : pool.IsIdle
  · exact ⟨pool, .refl, hidle⟩
  · obtain ⟨next, hstep⟩ := exists_step run hworkers hidle
    obtain ⟨last, hreaches, hlast⟩ := exists_idle hworkers next
    exact ⟨last, .head hstep hreaches, hlast⟩
termination_by pool.load
decreasing_by exact hstep.load_lt

end Pool

section Results

theorem runJob_shape {result : JobResult} (h : runJob job config policy = .ok result) :
    (∃ content, result = .finished job content) ∨
      ∃ error tokenPath, result = .failed job error tokenPath := by
  unfold runJob at h
  cases hformat : Format.find job.format with
  | error failure => simp [hformat, bind, Except.bind] at h
  | ok format =>
    simp only [hformat, bind, Except.bind] at h
    split at h
    · cases h
      exact .inl ⟨_, rfl⟩
    · split at h
      · cases h
        exact .inr ⟨_, _, rfl⟩
      · cases h

/-- The result of a job has content or an error, and never a path yet. -/
theorem settleJob_shape (config : Config) (policy : Document) (job : Job) :
    (∃ content, settleJob config policy job = .finished job content) ∨
      ∃ error tokenPath, settleJob config policy job = .failed job error tokenPath := by
  unfold settleJob
  split
  · next h => exact runJob_shape h
  · exact .inr ⟨_, _, rfl⟩

@[simp] theorem job_settleJob : (settleJob config policy job).job = job := by
  obtain ⟨content, h⟩ | ⟨error, tokenPath, h⟩ := settleJob_shape config policy job <;>
    rw [h] <;> rfl

theorem settleJob_of_ok {result : JobResult} (h : runJob job config policy = .ok result) :
    settleJob config policy job = result := by
  rw [settleJob, h]

theorem settleJob_of_error {failure : Failure} (h : runJob job config policy = .error failure) :
    settleJob config policy job = .failed job ("ValueError: " ++ failure.message) none := by
  rw [settleJob, h]

theorem gatherResults_perm (done : List JobResult) : (gatherResults done).Perm done :=
  List.mergeSort_perm done _

theorem gatherResults_sorted (done : List JobResult) :
    (gatherResults done).Pairwise fun a b => a.job.precedes b.job = true :=
  @List.pairwise_mergeSort JobResult (fun a b => a.job.precedes b.job)
    (fun a b c => Job.precedes_trans a.job b.job c.job)
    (fun a b => Job.precedes_total a.job b.job) done

/-- In whatever order the jobs of a plan end, their results come in the order of the plan. -/
theorem gatherResults_of_perm (hplan : planJobs config formats selector = .ok jobs)
    {ended : List Job} (hperm : ended.Perm jobs) (policy : Document) :
    gatherResults (ended.map (settleJob config policy)) = jobs.map (settleJob config policy) := by
  obtain ⟨modes, -, hplanned⟩ := planned_of_planJobs hplan
  have hgathered := (gatherResults_perm (ended.map (settleJob config policy))).trans (hperm.map _)
  have hsorted := gatherResults_sorted (ended.map (settleJob config policy))
  have hplanSorted : (jobs.map (settleJob config policy)).Pairwise
      fun a b => a.job.precedes b.job = true :=
    List.pairwise_map.mpr (by simpa using planJobs_sorted hplan)
  refine hgathered.eq_of_pairwise (fun a b ha hb hab hba => ?_) hsorted hplanSorted
  -- Results that could change places belong to the same job.
  obtain ⟨job, hjob, rfl⟩ := List.mem_map.mp (hgathered.mem_iff.mp ha)
  obtain ⟨other, hother, rfl⟩ := List.mem_map.mp hb
  rw [job_settleJob, job_settleJob] at hab hba
  rw [Job.eq_of_precedes (hplanned job hjob) (hplanned other hother) hab hba]

/-- The result of a planned job is what the job gives on its own. A policy that does not exist is the
only thing that breaks a job off, and then that is its error. -/
theorem settleJob_of_planned (hplan : planJobs config formats selector = .ok jobs)
    (hjob : job ∈ jobs) (policy : Document) :
    runJob job config policy = .ok (settleJob config policy job) ∨
      runJob job config policy = .error (.invalidPolicy policy) ∧
        settleJob config policy job =
          .failed job ("ValueError: " ++ (Failure.invalidPolicy policy).message) none := by
  obtain ⟨modes, hdeclared, hplanned⟩ := planned_of_planJobs hplan
  obtain ⟨content, h⟩ | ⟨u, h⟩ | h := (hplanned job hjob).runJob_cases hdeclared policy
  · exact .inl (settleJob_of_ok h ▸ h)
  · exact .inl (settleJob_of_ok h ▸ h)
  · exact .inr ⟨h, settleJob_of_error h⟩

/-- A number of workers that a pool accepts: at least one, if it is given at all. -/
def AcceptedWorkers (workers : Option Int) : Prop :=
  ∀ n ∈ workers, 0 < n

theorem runJobs_of_accepted (hplan : planJobs config formats selector = .ok jobs)
    {workers : Option Int} (hworkers : AcceptedWorkers workers) (policy : Document) :
    runJobs jobs config policy workers = .ok (jobs.map (settleJob config policy)) := by
  unfold runJobs
  by_cases hempty : jobs.isEmpty = true
  · rw [if_pos hempty, List.isEmpty_iff.mp hempty]
    rfl
  · have haccepted : workers.any (· ≤ 0) = false := by
      cases workers with
      | none => rfl
      | some n => simpa using hworkers n rfl
    rw [if_neg hempty, if_neg (by simp [haccepted]), gatherResults_of_perm hplan (.refl jobs)]

theorem runJobs_of_refused (hjobs : jobs ≠ []) {workers : Option Int}
    (hworkers : ¬ AcceptedWorkers workers) (policy : Document) :
    runJobs jobs config policy workers = .error .noWorkers := by
  have hrefused : workers.any (· ≤ 0) = true := by
    cases workers with
    | none => exact absurd (fun _ h => nomatch h) hworkers
    | some n => simpa [AcceptedWorkers] using hworkers
  rw [runJobs, if_neg (by simpa using hjobs), if_pos hrefused]

/-- Whatever a pool does, its results are those that the jobs of the plan have on their own. -/
theorem gatherResults_of_pool (hplan : planJobs config formats selector = .ok jobs)
    {policy : Document} {workers : Nat} {pool : Pool}
    (hreaches : Pool.Reaches (settleJob config policy) workers (.submit jobs) pool)
    (hidle : pool.IsIdle) :
    gatherResults pool.collected = jobs.map (settleJob config policy) := by
  have haccounts := (Pool.accounts_submit jobs).reaches hreaches
  obtain ⟨ended, hcollected, hperm⟩ := haccounts.collected hidle
  rw [hcollected, gatherResults_of_perm hplan hperm]

end Results

section Export

variable {m : Type → Type} [Monad m]

/-- An export whose jobs end in the order that a function puts them in. -/
def Config.exportInOrder [FileSystem m] (config : Config) (request : ExportRequest)
    (order : List Job → List Job) : ExceptT Failure m (List JobResult) := do
  let config ← known (config.withPrefix? request.variablePrefix)
  let jobs ← known (planJobs config (request.formats.filter (· ≠ "")) request.selector)
  let results := gatherResults ((order jobs).map (settleJob config request.policy))
  if request.write then writeResults results config request.output else pure results

variable [LawfulMonad m]

theorem known_ok_bind {α β : Type} (a : α) (next : α → ExceptT Failure m β) :
    known (.ok a) >>= next = next a :=
  ExceptT.ext (by simp [known, ExceptT.run_bind, ExceptT.run_mk])

theorem known_error_bind {α β : Type} (failure : Failure) (next : α → ExceptT Failure m β) :
    known (.error failure) >>= next = known (.error failure) :=
  ExceptT.ext (by simp [known, ExceptT.run_bind])

section Planned

variable [FileSystem m] {prefixed : Config} {request : ExportRequest}
  (hprefixed : config.withPrefix? request.variablePrefix = .ok prefixed)
  (hplan : planJobs prefixed (request.formats.filter (· ≠ "")) request.selector = .ok jobs)
include hprefixed hplan

theorem export_of_runJobs {outcome : Except Failure (List JobResult)}
    (h : runJobs jobs prefixed request.policy request.workers = outcome) :
    (config.export request : ExceptT Failure m _) = known outcome >>= fun results =>
      if request.write then writeResults results prefixed request.output else pure results := by
  have hresults : prefixed.exportResults request = outcome := by
    rw [Config.exportResults, hplan]
    exact h
  rw [Config.export, hprefixed, known_ok_bind, hresults]

theorem export_of_accepted (hworkers : AcceptedWorkers request.workers) :
    (config.export request : ExceptT Failure m _) =
      let results := jobs.map (settleJob prefixed request.policy)
      if request.write then writeResults results prefixed request.output else pure results := by
  have hresults := runJobs_of_accepted hplan hworkers request.policy
  rw [export_of_runJobs hprefixed hplan hresults, known_ok_bind]

theorem export_of_refused (hjobs : jobs ≠ []) (hworkers : ¬ AcceptedWorkers request.workers) :
    (config.export request : ExceptT Failure m _) = known (.error .noWorkers) := by
  have hrefused : runJobs jobs prefixed request.policy request.workers = .error .noWorkers :=
    runJobs_of_refused hjobs hworkers request.policy
  rw [export_of_runJobs hprefixed hplan hrefused, known_error_bind]

end Planned

theorem export_eq_exportInOrder [FileSystem m] {request : ExportRequest}
    (hworkers : AcceptedWorkers request.workers) {order : List Job → List Job}
    (horder : ∀ jobs, (order jobs).Perm jobs) :
    (config.export request : ExceptT Failure m _) = config.exportInOrder request order := by
  cases hprefixed : config.withPrefix? request.variablePrefix with
  | error failure =>
    rw [Config.export, Config.exportInOrder, hprefixed, known_error_bind, known_error_bind]
  | ok prefixed =>
    cases hplan : planJobs prefixed (request.formats.filter (· ≠ "")) request.selector with
    | error failure =>
      have hresults : prefixed.exportResults request = .error failure := by
        rw [Config.exportResults, hplan]
        rfl
      rw [Config.export, Config.exportInOrder, hprefixed, known_ok_bind, known_ok_bind, hresults, hplan,
        known_error_bind, known_error_bind]
    | ok jobs =>
      rw [export_of_accepted hprefixed hplan hworkers, Config.exportInOrder, hprefixed, known_ok_bind,
        hplan, known_ok_bind, gatherResults_of_perm hplan (horder jobs)]

/-- Neither the schedule nor the number of workers shows in an export. The results of a plan are
those that its jobs have on their own, one for each, in the order of the plan, in whatever order the
jobs ended and whatever a pool with a worker did. So every export is the one whose jobs ended in any
given order: it does the same to the files and gives the same results. -/
theorem export_of_any_schedule [FileSystem m] (config : Config) :
    (∀ formats selector jobs, planJobs config formats selector = .ok jobs → ∀ policy,
      (jobs.Pairwise fun a b => a.precedes b = true) ∧
        (∀ job ∈ jobs, (settleJob config policy job).job = job ∧
          (runJob job config policy = .ok (settleJob config policy job) ∨
            runJob job config policy = .error (.invalidPolicy policy) ∧
              settleJob config policy job =
                .failed job ("ValueError: " ++ (Failure.invalidPolicy policy).message) none)) ∧
        (∀ ended : List Job, ended.Perm jobs →
          gatherResults (ended.map (settleJob config policy)) =
            jobs.map (settleJob config policy)) ∧
        (∀ workers pool, 0 < workers →
          Pool.Reaches (settleJob config policy) workers (.submit jobs) pool →
          (pool.IsIdle → gatherResults pool.collected = jobs.map (settleJob config policy)) ∧
            ∃ last, Pool.Reaches (settleJob config policy) workers pool last ∧ last.IsIdle) ∧
        ∀ workers, AcceptedWorkers workers →
          runJobs jobs config policy workers = .ok (jobs.map (settleJob config policy))) ∧
      ∀ request : ExportRequest, AcceptedWorkers request.workers →
        ∀ order : List Job → List Job, (∀ jobs, (order jobs).Perm jobs) →
          (config.export request : ExceptT Failure m _) = config.exportInOrder request order := by
  refine ⟨fun formats selector jobs hplan policy => ?_, fun request hworkers order horder => ?_⟩
  · refine ⟨planJobs_sorted hplan, fun job hjob => ?_, fun ended hperm => ?_,
      fun workers pool hworkers hreaches => ?_, fun workers hworkers => ?_⟩
    · exact ⟨job_settleJob, settleJob_of_planned hplan hjob policy⟩
    · exact gatherResults_of_perm hplan hperm policy
    · exact ⟨gatherResults_of_pool hplan hreaches, Pool.exists_idle hworkers pool⟩
    · exact runJobs_of_accepted hplan hworkers policy
  · exact export_eq_exportInOrder hworkers horder

end Export

/-- An export of two formats in the dark mode, with some number of workers. -/
def darkRequest (workers : Int) : ExportRequest where
  formats := ["css", "modes"]
  output := none
  selector := .named ["dark"]
  variablePrefix := none
  policy := .text "strict"
  workers := some workers
  write := false

theorem planJobs_dark (workers : Int) :
    planJobs .standard ((darkRequest workers).formats.filter (· ≠ "")) (.named ["dark"]) =
      .ok [⟨"css", some "dark", ["dark"]⟩, ⟨"modes", none, ["dark"]⟩] := by
  have hsorted : ([Format.css, .modes].flatMap (formatJobs ["dark"])).Pairwise
      fun a b => a.precedes b = true := by
    decide
  exact planJobs_of_sorted rfl rfl hsorted

theorem standard_export_of_any_schedule :
    gatherResults ([⟨"modes", none, ["dark"]⟩, ⟨"css", some "dark", ["dark"]⟩].map
        (settleJob .standard (.text "strict"))) =
      [⟨"css", some "dark", ["dark"]⟩, ⟨"modes", none, ["dark"]⟩].map
        (settleJob .standard (.text "strict")) ∧
      (Config.standard.export (darkRequest 1) : ExceptT Failure (StateM FileTree) _) =
        Config.standard.exportInOrder (darkRequest 1) List.reverse := by
  have hschedule := export_of_any_schedule (m := StateM FileTree) .standard
  have hresults := hschedule.1 _ _ _ (planJobs_dark 1) (.text "strict")
  refine ⟨hresults.2.2.1 _ (.swap _ _ []), hschedule.2 _ ?_ _ List.reverse_perm⟩
  simp [AcceptedWorkers, darkRequest]

/-- A pool without workers refuses the jobs, so there the number of workers does show. -/
theorem exists_export_needs_worker : ∃ (config : Config) (tree : FileTree),
    ((config.export (darkRequest 0) : ExceptT Failure (StateM FileTree) _).run.run tree).1 =
        .error .noWorkers ∧
      ∃ results, ((config.export (darkRequest 1) : ExceptT Failure (StateM FileTree) _).run.run
        tree).1 = .ok results := by
  refine ⟨.standard, .empty, ?_, [⟨"css", some "dark", ["dark"]⟩, ⟨"modes", none, ["dark"]⟩].map
    (settleJob .standard (.text "strict")), ?_⟩
  · have hrefused : ¬ AcceptedWorkers (darkRequest 0).workers := by
      simp [AcceptedWorkers, darkRequest]
    rw [export_of_refused rfl (planJobs_dark 0) (List.cons_ne_nil _ _) hrefused]
    rfl
  · have haccepted : AcceptedWorkers (darkRequest 1).workers := by
      simp [AcceptedWorkers, darkRequest]
    rw [export_of_accepted rfl (planJobs_dark 1) haccepted]
    rfl

end DesignTokens
