import LotusAI.Lib.Dict
import LotusAI.Lib.Identifier
import Mathlib.Data.List.Sort

/-!
# Records of the async runtime

The job, attempt and lease records the runtime store keeps, the statuses they
move through, and the identifiers that tie them together. Timestamps are the
ISO-8601 texts the source stores; it compares them as texts.
-/

namespace LotusAI.AsyncRuntime

open Lib List

/-- `AsyncJobStatus`, and the status `SUBMITTED` that only a first attempt carries. -/
inductive LifecycleStatus
  | staged
  | submitted
  | queued
  | claimed
  | running
  | failed
  | completed
  | abandoned
  | superseded
  deriving DecidableEq

namespace LifecycleStatus

/-- The stored text of a status. -/
def value : LifecycleStatus → String
  | staged => "STAGED"
  | submitted => "SUBMITTED"
  | queued => "QUEUED"
  | claimed => "CLAIMED"
  | running => "RUNNING"
  | failed => "FAILED"
  | completed => "COMPLETED"
  | abandoned => "ABANDONED"
  | superseded => "SUPERSEDED"

/-- Owned by a worker. -/
def isActive (status : LifecycleStatus) : Bool := status = claimed ∨ status = running

/-- Finished, one way or another. -/
def isTerminal (status : LifecycleStatus) : Bool :=
  status = completed ∨ status = failed ∨ status = abandoned

@[simp] theorem isActive_submitted : submitted.isActive = false := rfl
@[simp] theorem isActive_queued : queued.isActive = false := rfl
@[simp] theorem isActive_claimed : claimed.isActive = true := rfl
@[simp] theorem isActive_running : running.isActive = true := rfl
@[simp] theorem isActive_failed : failed.isActive = false := rfl
@[simp] theorem isActive_completed : completed.isActive = false := rfl
@[simp] theorem isActive_abandoned : abandoned.isActive = false := rfl

variable {status : LifecycleStatus}

theorem isActive_iff : status.isActive ↔ status = claimed ∨ status = running := by
  simp [isActive]

/-- A finished job is owned by nobody. -/
theorem isActive_eq_false_of_isTerminal (h : status.isTerminal) : status.isActive = false := by
  cases status <;> first | rfl | simp [isTerminal] at h

/-- The `active_statuses` of the services: queued, or owned by a worker. -/
def isLive (status : LifecycleStatus) : Bool :=
  status = queued ∨ status = claimed ∨ status = running

theorem isLive_of_isActive (h : status.isActive) : status.isLive := by
  cases status <;> first | rfl | cases h

end LifecycleStatus

/-- `AsyncRuntimeJobRecord`. -/
structure JobRecord where
  jobId : String
  jobType : String
  targetId : Option String
  lifecycleStatus : LifecycleStatus
  submittedAt : String
  callerApp : String
  correlationId : String
  payloadSummary : String
  executionPath : String
  relatedEvaluationRunId : Option String
  latestMessage : String
  attemptCount : ℕ
  artifactIds : List String
  tenantId : Option String
  deriving DecidableEq

/-- `AsyncRuntimeAttemptRecord`. -/
structure AttemptRecord where
  attemptId : String
  jobId : String
  attemptNumber : ℕ
  lifecycleStatus : LifecycleStatus
  workerId : Option String
  claimedAt : Option String
  heartbeatAt : Option String
  startedAt : Option String
  completedAt : Option String
  failureReason : Option String
  recordedMessage : String
  deriving DecidableEq

/-- `AsyncRuntimeLeaseRecord`. -/
structure LeaseRecord where
  leaseId : String
  jobId : String
  attemptId : String
  workerId : String
  claimedAt : String
  heartbeatAt : String
  leaseExpiresAt : String
  deriving DecidableEq

/-- `ArtifactRecord`, as far as the runtime reads it. -/
structure ArtifactRecord where
  artifactId : String
  storageReference : String
  deriving DecidableEq

/-! ### Identifiers -/

/-- `f"{job_id}_attempt_{number:03d}"`. -/
def attemptIdOf (jobId : String) (number : ℕ) : String := serialId jobId "_attempt_" number

/-- `f"{job_id}_lease_{number:03d}"`. -/
def leaseIdOf (jobId : String) (number : ℕ) : String := serialId jobId "_lease_" number

variable {j j' : String}

/-- An attempt id names its job and its number. -/
theorem attemptIdOf_inj {n n' : ℕ} (h : attemptIdOf j n = attemptIdOf j' n') :
    j = j' ∧ n = n' :=
  serialId_inj (show "_attempt_".toList = "_attempt".toList ++ ['_'] by decide) (by decide) h

/-- A lease id names its job and the attempt it was granted for. -/
theorem leaseIdOf_inj {n n' : ℕ} (h : leaseIdOf j n = leaseIdOf j' n') :
    j = j' ∧ n = n' :=
  serialId_inj (show "_lease_".toList = "_lease".toList ++ ['_'] by decide) (by decide) h

/-- The attempt a retry, a recovery or an operator queues next. -/
def queuedAttempt (jobId : String) (number : ℕ) (message : String) : AttemptRecord where
  attemptId := attemptIdOf jobId number
  jobId := jobId
  attemptNumber := number
  lifecycleStatus := .queued
  workerId := none
  claimedAt := none
  heartbeatAt := none
  startedAt := none
  completedAt := none
  failureReason := none
  recordedMessage := message

/-! ### Attempt lists -/

/-- Replace the attempt of the same id, or add a new one: either way it comes last. -/
def upsertAttempt (record : AttemptRecord) (attempts : List AttemptRecord) : List AttemptRecord :=
  attempts.filter (fun existing => existing.attemptId ≠ record.attemptId) ++ [record]

variable {a : AttemptRecord} {attempts : List AttemptRecord}

theorem mem_upsertAttempt {record : AttemptRecord} :
    a ∈ upsertAttempt record attempts ↔
      a = record ∨ a ∈ attempts ∧ a.attemptId ≠ record.attemptId := by
  simp [upsertAttempt, or_comm]

/-- Attempts in the order of their numbers. -/
def sortedAttempts (attempts : List AttemptRecord) : List AttemptRecord :=
  attempts.insertionSort fun a b => a.attemptNumber ≤ b.attemptNumber

/-- The attempt with the largest number: the last of the sorted list. -/
def latestAttemptOf (attempts : List AttemptRecord) : Option AttemptRecord :=
  (sortedAttempts attempts).getLast?

theorem mem_of_latestAttemptOf (h : latestAttemptOf attempts = some a) : a ∈ attempts :=
  (mem_insertionSort _).mp (mem_of_getLast? h)

/-- No attempt has a larger number than the latest one. -/
theorem le_latestAttemptOf {b : AttemptRecord} (h : latestAttemptOf attempts = some a)
    (hb : b ∈ attempts) : b.attemptNumber ≤ a.attemptNumber := by
  have hsorted := pairwise_insertionSort
    (fun a b : AttemptRecord => a.attemptNumber ≤ b.attemptNumber) attempts
  obtain ⟨front, hfront⟩ := getLast?_eq_some_iff.mp h
  have hb' : b ∈ sortedAttempts attempts := (mem_insertionSort _).mpr hb
  change (sortedAttempts attempts).Pairwise _ at hsorted
  rw [hfront, pairwise_append] at hsorted
  rw [hfront, mem_append, mem_singleton] at hb'
  rcases hb' with hb' | rfl
  · exact hsorted.2.2 b hb' a (by simp)
  · exact le_rfl

end LotusAI.AsyncRuntime
