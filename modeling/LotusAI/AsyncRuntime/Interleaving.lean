import LotusAI.AsyncRuntime.Evolution
import LotusAI.AsyncRuntime.Runs
import LotusAI.Lib.RelyGuarantee

/-!
# Workers and operators, interleaved

A worker's report is one transaction of the store. An operator's action is not: it
reads the job, decides on that reading, and then saves an attempt, deletes a lease and
saves the job, each on its own, with whatever others do in between. The sessions are
modelled over a shared store, together with what an observer would note: the job record
each session read, and the job records that claims and transitions committed.
-/

namespace LotusAI.AsyncRuntime

open Lib Store

/-- The store under the sessions `ι`. -/
structure World (ι : Type) where
  store : Store
  /-- The answer to each session's latest `get_job`. -/
  read : ι → Option JobRecord
  /-- The job records written by claims and by transitions of current claims. -/
  commits : List JobRecord

/-- The job records that a call of a worker committed. -/
def Call.commits : (call : Call) → call.Answer → List JobRecord
  | .claimNextRunnableJob _ _, claim => claim.toList.map ClaimRecord.job
  | .claimRunnableJobById _ _, claim => claim.toList.map ClaimRecord.job
  | .transitionCurrentClaim _, result => transitionedJobs result
  | _, _ => []

variable {ι : Type}

def Call.reads : (call : Call) → call.Answer → Option (Option JobRecord)
  | .getJob _, job => some job
  | _, _ => none

section Machine

variable [DecidableEq ι]

/-- What is noted of a call of session `i`. -/
def World.after (w : World ι) (i : ι) (call : Call) (r : call.Answer) (s' : Store) : World ι where
  store := s'
  read := match call.reads r with
    | some job => Function.update w.read i job
    | none => w.read
  commits := call.commits r ++ w.commits

/-- The store as a machine shared by the sessions `ι`. -/
def sharedMachine (ι : Type) [DecidableEq ι] (extendLease : String → ℕ → String) :
    Machine Call.Answer ι (World ι) Choice where
  exec i w call choice :=
    (call.exec extendLease w.store choice).map fun (r, s') => (r, w.after i call r s')

theorem exec_sharedMachine {extendLease : String → ℕ → String} {i : ι} {w w' : World ι}
    {call : Call} {choice : Choice} {r : call.Answer}
    (h : (sharedMachine ι extendLease).exec i w call choice = some (r, w')) :
    ∃ s', call.exec extendLease w.store choice = some (r, s') ∧ w' = w.after i call r s' := by
  obtain ⟨⟨r', s'⟩, hexec, heq⟩ := Option.map_eq_some_iff.mp h
  cases heq
  exact ⟨s', hexec, rfl⟩

end Machine

/-- Sessions over a store, none of which has started. -/
def pool (s : Store) (sessions : ι → Operation) :
    Machine.Config Call.Answer ι (World ι) (Except Raised Unit) where
  store := ⟨s, fun _ => none, []⟩
  threads i := (sessions i).program.run

/-! ### The property -/

/-- What workers committed is not overwritten. -/
structure NoLostUpdate (w : World ι) : Prop where
  /-- A finished job keeps its artifacts and its record until a new attempt is queued. -/
  finished : ∀ job ∈ w.commits,
    job.lifecycleStatus = .completed ∨ job.lifecycleStatus = .failed →
    ∃ stored, w.store.jobs.get? job.jobId = some stored ∧
      (∀ a ∈ job.artifactIds, a ∈ stored.artifactIds) ∧
      (stored = job ∨ job.attemptCount < stored.attemptCount)
  /-- A claimed attempt is not queued again. -/
  claimed : ∀ job ∈ w.commits, job.lifecycleStatus = .claimed →
    ∃ stored, w.store.jobs.get? job.jobId = some stored ∧
      job.attemptCount ≤ stored.attemptCount ∧
      (stored.attemptCount = job.attemptCount → stored.lifecycleStatus ≠ .queued)
  /-- A queued or abandoned job holds no lease. -/
  leased : ∀ j job, w.store.jobs.get? j = some job →
    job.lifecycleStatus = .queued ∨ job.lifecycleStatus = .abandoned →
    w.store.leasesByJob.get? j = none

/-- When a job may be saved on its own: an operator finds it at the stage at which it read it,
and a submission, which reads nothing, brings a new job. -/
def Call.fenced (i : ι) (w : World ι) : Call → Bool
  | .saveJob record =>
    match w.read i with
    | some job => (w.store.jobs.get? job.jobId).map JobRecord.stage = some job.stage
    | none => (w.store.jobs.get? record.jobId).isNone
  | _ => true

end LotusAI.AsyncRuntime
