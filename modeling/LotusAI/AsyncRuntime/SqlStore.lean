import LotusAI.AsyncRuntime.Timestamps
import LotusAI.Lib.Table

/-!
# The SQL async runtime store

`SqlAlchemyAsyncRuntimeRepository`: jobs, attempts and leases as the rows of three tables, each
under its primary key. A method is one transaction: it selects rows, decides, and commits all of
its writes or none. Inserting a row under a key that is taken fails the commit. A select without
an order, or with one that leaves rows tied, returns them as the database likes.
-/

namespace LotusAI.AsyncRuntime

open Lib Store List

/-- How a database returns the rows it selects. -/
structure Engine where
  scan : {α : Type} → List α → List α
  scan_perm : ∀ {α : Type} (rows : List α), (scan rows).Perm rows

/-- Why a call on a store raises. -/
inductive AdapterError
  /-- A timestamp is missing. -/
  | valueError (text : String)
  /-- What `_extend_lease` raises. -/
  | extension
  /-- A row is inserted under a key that is taken. -/
  | integrityError
  deriving DecidableEq

/-- The rows of the runtime, and the ids that have a row in the artifact table. -/
structure SqlStore where
  jobs : Table JobRecord.jobId
  attempts : Table AttemptRecord.attemptId
  leases : Table LeaseRecord.leaseId
  artifactIds : List String

namespace SqlStore

variable (engine : Engine) (q : SqlStore) {α κ : Type} {rows : List α} {column : α → κ}

/-! ### Selects -/

/-- The first row of a select ordered by a column. -/
def firstBy {α κ : Type} [LinearOrder κ] (column : α → κ) (rows : List α) : Option α :=
  ((engine.scan rows).insertionSort fun a b => column a ≤ column b).head?

/-- The queued jobs a worker of these types may take. -/
def queuedJobs (jobTypes : Option (List String)) : List JobRecord :=
  q.jobs.list.filter fun job => job.lifecycleStatus = .queued ∧ ∀ types ∈ jobTypes,
    job.jobType ∈ types

/-- The first lease of a job that the database returns. -/
def leaseOf (jobId : String) : Option LeaseRecord :=
  (engine.scan (q.leases.list.filter fun lease => lease.jobId = jobId)).head?

/-- The first lease of a claim that the database returns. -/
def leaseOfClaim (args : TransitionArgs) : Option LeaseRecord :=
  (engine.scan (q.leases.list.filter fun lease => lease.jobId = args.jobId ∧
    lease.workerId = args.workerId ∧ lease.attemptId = args.attemptId)).head?

/-- The attempt of a job with the largest number. -/
def latestAttempt (jobId : String) : Option AttemptRecord :=
  firstBy engine (fun attempt => OrderDual.toDual attempt.attemptNumber)
    (q.attempts.list.filter fun attempt => attempt.jobId = jobId)

/-- The only row that qualifies is the first one. -/
theorem head?_scan {row? : Option α}
    (h : ∀ row, row ∈ rows ↔ row? = some row) : (engine.scan rows).head? = row? := by
  cases hhead : (engine.scan rows).head? with
  | some row =>
    have hmem := (engine.scan_perm rows).mem_iff.mp (mem_of_head? hhead)
    exact ((h row).mp hmem).symm
  | none =>
    cases hrow : row? with
    | none => rfl
    | some row =>
      have hmem := (engine.scan_perm rows).mem_iff.mpr ((h row).mpr hrow)
      rw [head?_eq_none_iff.mp hhead] at hmem
      cases hmem

/-- The first row by a column is a row, and none comes before it. -/
theorem firstBy_eq_some [LinearOrder κ] {row : α}
    (h : firstBy engine column rows = some row) :
    row ∈ rows ∧ ∀ other ∈ rows, column row ≤ column other := by
  obtain ⟨rest, hrest⟩ := head?_eq_some_iff.mp h
  have hmem : ∀ other, other ∈ row :: rest ↔ other ∈ rows := fun other => by
    rw [← hrest, mem_insertionSort, (engine.scan_perm rows).mem_iff]
  have hsorted := pairwise_insertionSort (fun a b => column a ≤ column b) (engine.scan rows)
  rw [hrest, pairwise_cons] at hsorted
  refine ⟨(hmem row).mp (.head _), fun other hother => ?_⟩
  rcases mem_cons.mp ((hmem other).mpr hother) with rfl | hlater
  · exact le_rfl
  · exact hsorted.1 other hlater

theorem firstBy_eq_none_iff [LinearOrder κ] :
    firstBy engine column rows = none ↔ rows = [] := by
  rw [firstBy, head?_eq_none_iff, ← length_eq_zero_iff, length_insertionSort,
    (engine.scan_perm rows).length_eq, length_eq_zero_iff]

/-! ### Claims -/

/-- The two claiming methods, once they have selected a job. -/
def claim (args : ClaimArgs) (job : JobRecord) :
    Except AdapterError (Option ClaimRecord) × SqlStore :=
  match q.leaseOf engine job.jobId with
  | some _ => (.ok none, q)
  | none =>
    match q.latestAttempt engine job.jobId with
    | none => (.ok none, q)
    | some current =>
      let claim := claimRecord args job current
      if (q.leases.get? claim.lease.leaseId).isSome then (.error .integrityError, q)
      else (.ok (some claim), { q with
        jobs := q.jobs.upsert claim.job
        attempts := q.attempts.upsert claim.attempt
        leases := q.leases.upsert claim.lease })

/-- `claim_next_runnable_job`: only the first queued job is looked at. -/
def claimNextRunnableJob (jobTypes : Option (List String)) (args : ClaimArgs) :
    Except AdapterError (Option ClaimRecord) × SqlStore :=
  match firstBy engine JobRecord.submittedAt (q.queuedJobs jobTypes) with
  | none => (.ok none, q)
  | some job => q.claim engine args job

/-- `claim_runnable_job_by_id`. -/
def claimRunnableJobById (jobId : String) (args : ClaimArgs) :
    Except AdapterError (Option ClaimRecord) × SqlStore :=
  match q.jobs.get? jobId with
  | none => (.ok none, q)
  | some job =>
    if job.lifecycleStatus ≠ .queued then (.ok none, q) else q.claim engine args job

/-! ### Transitions of a current claim -/

/-- The job after a transition. An empty message is written, unlike in memory. -/
def transitionedJob (args : TransitionArgs) (job : JobRecord) : JobRecord :=
  { Store.transitionedJob args job with
    latestMessage := args.jobMessage.getD job.latestMessage }

/-- Whether the extension that a transition asks for raises. -/
def extensionRaises (args : TransitionArgs) (now : String) : Bool :=
  match args.leaseExtensionSeconds with
  | some seconds => (extendLease? now seconds).isNone
  | none => false

/-- Whether the transaction inserts a row under a key that is taken. -/
def insertConflicts (successor : Option AttemptRecord) (artifact : Option ArtifactRecord) : Bool :=
  (∃ next ∈ successor, (q.attempts.get? next.attemptId).isSome) ∨
    ∃ record ∈ artifact, record.artifactId ∈ q.artifactIds

/-- The rows after a transition. -/
def recordTransition (lease : LeaseRecord) (transition : ClaimTransition)
    (artifact : Option ArtifactRecord) : SqlStore where
  jobs := q.jobs.upsert transition.job
  attempts := transition.nextAttempt.elim (q.attempts.upsert transition.attempt)
    (q.attempts.upsert transition.attempt).upsert
  leases := transition.lease.elim (q.leases.delete [lease.leaseId]) q.leases.upsert
  artifactIds := artifact.toList.map ArtifactRecord.artifactId ++ q.artifactIds

/-- `transition_current_claim`. -/
def transitionCurrentClaim (args : TransitionArgs) :
    Except AdapterError (Option ClaimTransition) × SqlStore :=
  match q.leaseOfClaim engine args, q.jobs.get? args.jobId, q.attempts.get? args.attemptId with
  | some lease, some job, some attempt =>
    if job.lifecycleStatus.isActive = false ∨ attempt.jobId ≠ args.jobId then (.ok none, q)
    else
      match args.nowFactory.or args.now with
      | none => (.error (.valueError "A fresh claim-transition timestamp is required."), q)
      | some now =>
        if lease.leaseExpiresAt ≤ now then (.ok none, q)
        else if extensionRaises args now then (.error .extension, q)
        else
          let transition : ClaimTransition :=
            { job := transitionedJob args job
              attempt := transitionedAttempt args now attempt
              lease := transitionedLease extendLease args now lease
              nextAttempt := successorAttempt args job }
          if q.insertConflicts transition.nextAttempt args.terminalArtifact then
            (.error .integrityError, q)
          else (.ok (some transition), q.recordTransition lease transition args.terminalArtifact)
  | _, _, _ => (.ok none, q)

/-! ### Recovery of an expired claim -/

/-- The attempt that lost its lease. -/
def abandonedAttempt (lease : LeaseRecord) (recoveredAt : String) (attempt : AttemptRecord) :
    AttemptRecord :=
  { attempt with
    lifecycleStatus := .abandoned
    heartbeatAt := some lease.heartbeatAt
    completedAt := some recoveredAt
    failureReason := some "LEASE_EXPIRED"
    recordedMessage := "Attempt abandoned after lease expiry and queued for recovery." }

/-- `recover_expired_claim`. -/
def recoverExpiredClaim (args : RecoveryArgs) :
    Except AdapterError (Option RecoveryTransition) × SqlStore :=
  match q.leaseOf engine args.jobId, q.jobs.get? args.jobId with
  | some lease, some job =>
    match q.attempts.get? lease.attemptId with
    | none => (.ok none, q)
    | some attempt =>
      if job.lifecycleStatus.isActive = false then (.ok none, q)
      else
        match args.nowFactory.or args.recoveredAt with
        | none => (.error (.valueError "A fresh claim-recovery timestamp is required."), q)
        | some recoveredAt =>
          if recoveredAt < lease.leaseExpiresAt then (.ok none, q)
          else
            let nextAttempt :=
              queuedAttempt job.jobId (job.attemptCount + 1) args.nextAttemptMessage
            let abandoned := abandonedAttempt lease recoveredAt attempt
            let queuedJob := { job with
              lifecycleStatus := .queued
              latestMessage := nextAttempt.recordedMessage
              attemptCount := nextAttempt.attemptNumber }
            if (q.attempts.get? nextAttempt.attemptId).isSome then (.error .integrityError, q)
            else (.ok (some ⟨queuedJob, abandoned, nextAttempt⟩), { q with
              jobs := q.jobs.upsert queuedJob
              attempts := (q.attempts.upsert abandoned).upsert nextAttempt
              leases := q.leases.delete [lease.leaseId] })
  | _, _ => (.ok none, q)

/-- `delete_lease`: the number of rows that went. -/
def deleteLease (leaseId : String) : ℕ × SqlStore :=
  (q.leases.countOf [leaseId], { q with leases := q.leases.delete [leaseId] })

end SqlStore

end LotusAI.AsyncRuntime
