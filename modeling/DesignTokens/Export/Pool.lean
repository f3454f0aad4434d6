import DesignTokens.Export.Job
import Mathlib.Logic.Relation

/-!
# Worker pools

Jobs that run side by side. A pool starts the submitted jobs in their order, as many at a time as it
has workers. Any job at work may be the next one to end, and the results are collected in the order
in which the jobs end.

## Main definitions

- `Pool` — jobs that wait or are at work, and the results so far
- `Pool.Step` — what a pool may do next
- `Pool.Reaches` — what a pool may have become some time later
-/

namespace DesignTokens

/-- A pool of workers. -/
structure Pool where
  waiting : List Job
  working : List Job
  collected : List JobResult

namespace Pool

def submit (jobs : List Job) : Pool :=
  ⟨jobs, [], []⟩

/-- One step of a pool with some number of workers. -/
inductive Step (run : Job → JobResult) (workers : Nat) : Pool → Pool → Prop
  /-- A free worker takes the job that is next in line. -/
  | start {job : Job} {waiting working : List Job} {collected : List JobResult}
      (hfree : working.length < workers) :
      Step run workers ⟨job :: waiting, working, collected⟩ ⟨waiting, job :: working, collected⟩
  /-- A job at work ends. -/
  | finish {job : Job} {waiting before after : List Job} {collected : List JobResult} :
      Step run workers ⟨waiting, before ++ job :: after, collected⟩
        ⟨waiting, before ++ after, collected ++ [run job]⟩

/-- Any number of steps. -/
def Reaches (run : Job → JobResult) (workers : Nat) : Pool → Pool → Prop :=
  Relation.ReflTransGen (Step run workers)

/-- A pool whose jobs have all ended. -/
def IsIdle (pool : Pool) : Prop :=
  pool.waiting = [] ∧ pool.working = []

end Pool

end DesignTokens
