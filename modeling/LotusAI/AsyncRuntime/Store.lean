import LotusAI.Http
import LotusAI.AsyncRuntime.Records

/-!
# The in-memory async runtime store

`InMemoryAsyncRuntimeRepository`: jobs, their attempts, and the leases of the
jobs a worker owns, the latter kept under two keys. Every method here is one
atomic step of the source.
-/

namespace LotusAI.AsyncRuntime

open Lib

/-- `AsyncControlActionType`. -/
inductive ControlActionType
  | retryFailedJob
  | replayTerminalJob
  | requeueAbandonedJob
  | abandonActiveJob
  | redriveQueuedJob
  | quarantineQueuedJob
  deriving DecidableEq

/-- `AsyncRuntimeControlEventRecord`. -/
structure ControlEventRecord where
  eventId : String
  jobId : String
  actionType : ControlActionType
  requestedBy : String
  approvedBy : Option String
  reason : String
  priorStatus : LifecycleStatus
  resultingStatus : LifecycleStatus
  affectedAttemptId : Option String
  authorization : AuthorizationDecision
  recordedAt : String
  deriving DecidableEq

/-- `InMemoryAsyncRuntimeRepository`. -/
structure Store where
  jobs : Dict String JobRecord
  attempts : Dict String (List AttemptRecord)
  leasesByJob : Dict String LeaseRecord
  leaseIdToJob : Dict String String
  controlEvents : List ControlEventRecord
  deriving DecidableEq

namespace Store

/-- The store a process starts with. -/
def empty : Store := ⟨.empty, .empty, .empty, .empty, []⟩

/-! ### Single-record methods -/

def getJob (s : Store) (jobId : String) : Option JobRecord := s.jobs.get? jobId

/-- The stored attempts of a job, `self._attempts.get(job_id, [])`. -/
def attemptsOf (s : Store) (jobId : String) : List AttemptRecord :=
  (s.attempts.get? jobId).getD []

def listAttempts (s : Store) (jobId : String) : List AttemptRecord :=
  sortedAttempts (s.attemptsOf jobId)

/-- The first stored attempt with this id, over all jobs. -/
def getAttempt (s : Store) (attemptId : String) : Option AttemptRecord :=
  s.attempts.values.findSome? fun attempts => attempts.find? (·.attemptId = attemptId)

def getActiveLease (s : Store) (jobId : String) : Option LeaseRecord := s.leasesByJob.get? jobId

def saveJob (s : Store) (record : JobRecord) : Store :=
  { s with jobs := s.jobs.insert record.jobId record }

def saveAttempt (s : Store) (record : AttemptRecord) : Store :=
  { s with
    attempts := s.attempts.insert record.jobId
      (upsertAttempt record (s.attemptsOf record.jobId)) }

/-- A lease id that another job holds is taken away from that job first. -/
def saveLease (s : Store) (record : LeaseRecord) : Store :=
  let leasesByJob := match s.leaseIdToJob.get? record.leaseId with
    | some existingJobId =>
      if existingJobId ≠ record.jobId then s.leasesByJob.erase existingJobId else s.leasesByJob
    | none => s.leasesByJob
  { s with
    leasesByJob := leasesByJob.insert record.jobId record
    leaseIdToJob := s.leaseIdToJob.insert record.leaseId record.jobId }

/-- Deletes under both keys, and answers how many leases went. -/
def deleteLease (s : Store) (leaseId : String) : ℕ × Store :=
  match s.leaseIdToJob.get? leaseId with
  | none => (0, s)
  | some jobId =>
    (1, { s with
      leasesByJob := s.leasesByJob.erase jobId
      leaseIdToJob := s.leaseIdToJob.erase leaseId })

def saveControlEvent (s : Store) (record : ControlEventRecord) : Store :=
  { s with
    controlEvents := s.controlEvents.filter (fun e => e.eventId ≠ record.eventId) ++ [record] }

/-! ### Claims -/

/-- What a claiming worker writes into the records it takes. -/
structure ClaimArgs where
  workerId : String
  claimedAt : String
  heartbeatAt : String
  leaseExpiresAt : String
  latestMessage : String
  attemptMessage : String
  deriving DecidableEq

/-- `AsyncRuntimeClaimRecord`. -/
structure ClaimRecord where
  job : JobRecord
  attempt : AttemptRecord
  lease : LeaseRecord
  deriving DecidableEq

/-- The records of a claim of `job` at its attempt `current`. -/
def claimRecord (args : ClaimArgs) (job : JobRecord) (current : AttemptRecord) : ClaimRecord where
  job := { job with lifecycleStatus := .claimed, latestMessage := args.latestMessage }
  attempt := { current with
    lifecycleStatus := .claimed
    workerId := some args.workerId
    claimedAt := some args.claimedAt
    heartbeatAt := some args.heartbeatAt
    recordedMessage := args.attemptMessage }
  lease := {
    leaseId := leaseIdOf job.jobId current.attemptNumber
    jobId := job.jobId
    attemptId := current.attemptId
    workerId := args.workerId
    claimedAt := args.claimedAt
    heartbeatAt := args.heartbeatAt
    leaseExpiresAt := args.leaseExpiresAt }

def recordClaim (s : Store) (claim : ClaimRecord) : Store :=
  ((s.saveAttempt claim.attempt).saveJob claim.job).saveLease claim.lease

/-- A job can be claimed while it is queued, unleased and has an attempt. -/
def runnable (s : Store) (jobId : String) : Option (JobRecord × AttemptRecord) :=
  match s.jobs.get? jobId with
  | none => none
  | some job =>
    if job.lifecycleStatus ≠ .queued then none
    else if (s.leasesByJob.get? jobId).isSome then none
    else (latestAttemptOf (s.attemptsOf jobId)).map fun current => (job, current)

def claimRunnableJobById (s : Store) (jobId : String) (args : ClaimArgs) :
    Option ClaimRecord × Store :=
  match s.runnable jobId with
  | none => (none, s)
  | some (job, current) =>
    let claim := claimRecord args job current
    (some claim, s.recordClaim claim)

/-- Job ids ordered by submission time; jobs submitted at one instant keep their order. -/
def jobIdsBySubmission (s : Store) : List String :=
  (s.jobs.entries.insertionSort fun a b => a.2.submittedAt ≤ b.2.submittedAt).map Prod.fst

/-- Whether a worker that takes the given job types may take this job. -/
def hasType (s : Store) (jobTypes : Option (List String)) (jobId : String) : Bool :=
  match jobTypes, s.jobs.get? jobId with
  | some types, some job => job.jobType ∈ types
  | _, _ => true

/-- Take the first runnable job of the allowed types. -/
def claimNextRunnableJob (s : Store) (jobTypes : Option (List String)) (args : ClaimArgs) :
    Option ClaimRecord × Store :=
  match s.jobIdsBySubmission.find? fun jobId =>
      s.hasType jobTypes jobId && (s.runnable jobId).isSome with
  | none => (none, s)
  | some jobId => s.claimRunnableJobById jobId args

/-! ### Transitions of a current claim -/

/-- The keyword arguments of `transition_current_claim`. `nowFactory` is the reading its
factory would return. -/
structure TransitionArgs where
  jobId : String
  workerId : String
  attemptId : String
  now : Option String
  jobStatus : Option LifecycleStatus
  jobMessage : Option String
  attemptStatus : Option LifecycleStatus
  attemptMessage : String
  failureReason : Option String
  leaseExpiresAt : Option String
  terminalArtifact : Option ArtifactRecord
  nextAttemptMessage : Option String := none
  nowFactory : Option String := none
  leaseExtensionSeconds : Option ℕ := none
  deriving DecidableEq

/-- `AsyncRuntimeClaimTransition`. -/
structure ClaimTransition where
  job : JobRecord
  attempt : AttemptRecord
  lease : Option LeaseRecord
  nextAttempt : Option AttemptRecord
  deriving DecidableEq

/-- The records of the claim, provided it is still the caller's and has not expired. -/
def currentClaim (s : Store) (args : TransitionArgs) (now : String) :
    Option (LeaseRecord × AttemptRecord × JobRecord) :=
  match s.leasesByJob.get? args.jobId, s.getAttempt args.attemptId, s.jobs.get? args.jobId with
  | some lease, some attempt, some job =>
    if lease.workerId ≠ args.workerId ∨ lease.attemptId ≠ args.attemptId ∨
        lease.leaseExpiresAt ≤ now ∨ job.lifecycleStatus.isActive = false then none
    else some (lease, attempt, job)
  | _, _, _ => none

def transitionedAttempt (args : TransitionArgs) (now : String) (attempt : AttemptRecord) :
    AttemptRecord :=
  { attempt with
    lifecycleStatus := args.attemptStatus.getD attempt.lifecycleStatus
    heartbeatAt := some now
    startedAt :=
      if args.attemptStatus = some .running ∧ attempt.startedAt = none then some now
      else attempt.startedAt
    completedAt :=
      if args.attemptStatus = some .completed ∨ args.attemptStatus = some .failed ∨
          args.attemptStatus = some .abandoned then some now
      else attempt.completedAt
    failureReason := args.failureReason
    recordedMessage := args.attemptMessage }

/-- The attempt minted for a retry. -/
def successorAttempt (args : TransitionArgs) (job : JobRecord) : Option AttemptRecord :=
  args.nextAttemptMessage.map (queuedAttempt job.jobId (job.attemptCount + 1))

def transitionedJob (args : TransitionArgs) (job : JobRecord) : JobRecord :=
  { job with
    lifecycleStatus := args.jobStatus.getD job.lifecycleStatus
    -- an empty message is falsy and keeps the old one
    latestMessage := match args.jobMessage with
      | some message => if message = "" then job.latestMessage else message
      | none => job.latestMessage
    attemptCount := match successorAttempt args job with
      | some successor => successor.attemptNumber
      | none => job.attemptCount
    artifactIds := match args.terminalArtifact with
      | some artifact => job.artifactIds ++ [artifact.artifactId]
      | none => job.artifactIds }

/-- The lease after the transition. `none` when the claim ends: neither a new
expiry nor an extension was asked for. -/
def transitionedLease (extendLease : String → ℕ → String) (args : TransitionArgs) (now : String)
    (lease : LeaseRecord) : Option LeaseRecord :=
  match args.leaseExtensionSeconds, args.leaseExpiresAt with
  | none, none => none
  | some seconds, _ =>
    some { lease with heartbeatAt := now, leaseExpiresAt := extendLease now seconds }
  | none, some expiry => some { lease with heartbeatAt := now, leaseExpiresAt := expiry }

/-- `_transition_current_claim_locked`. `extendLease` is `_extend_lease`, the only place
where a timestamp is computed with rather than compared. -/
def transitionCurrentClaim (extendLease : String → ℕ → String) (s : Store)
    (args : TransitionArgs) : Except String (Option ClaimTransition) × Store :=
  match args.nowFactory.or args.now with
  | none => (.error "A fresh claim-transition timestamp is required.", s)
  | some now =>
    match s.currentClaim args now with
    | none => (.ok none, s)
    | some (lease, attempt, job) =>
      let updatedAttempt := transitionedAttempt args now attempt
      let updatedJob := transitionedJob args job
      let successor := successorAttempt args job
      let updatedLease := transitionedLease extendLease args now lease
      let saved := (s.saveAttempt updatedAttempt).saveJob updatedJob
      let queued := match successor with
        | some next => saved.saveAttempt next
        | none => saved
      let s' := match updatedLease with
        | none => (queued.deleteLease lease.leaseId).2
        | some renewed => queued.saveLease renewed
      (.ok (some ⟨updatedJob, updatedAttempt, updatedLease, successor⟩), s')

/-! ### Recovery of an expired claim -/

/-- The keyword arguments of `recover_expired_claim`. -/
structure RecoveryArgs where
  jobId : String
  recoveredAt : Option String
  nextAttemptMessage : String
  nowFactory : Option String := none
  deriving DecidableEq

/-- `AsyncRuntimeRecoveryTransition`. -/
structure RecoveryTransition where
  job : JobRecord
  abandonedAttempt : AttemptRecord
  nextAttempt : AttemptRecord
  deriving DecidableEq

/-- The expired lease of an active job. -/
def expiredClaim (s : Store) (jobId recoveredAt : String) :
    Option (LeaseRecord × AttemptRecord × JobRecord) :=
  match s.leasesByJob.get? jobId, s.jobs.get? jobId with
  | some lease, some job =>
    if recoveredAt < lease.leaseExpiresAt ∨ job.lifecycleStatus.isActive = false then none
    else (s.getAttempt lease.attemptId).map fun attempt => (lease, attempt, job)
  | _, _ => none

/-- `_recover_expired_claim_locked`. -/
def recoverExpiredClaim (s : Store) (args : RecoveryArgs) :
    Except String (Option RecoveryTransition) × Store :=
  match args.nowFactory.or args.recoveredAt with
  | none => (.error "A fresh claim-recovery timestamp is required.", s)
  | some recoveredAt =>
    match s.expiredClaim args.jobId recoveredAt with
    | none => (.ok none, s)
    | some (lease, attempt, job) =>
      let nextAttempt := queuedAttempt job.jobId (job.attemptCount + 1) args.nextAttemptMessage
      let abandoned := { attempt with
        lifecycleStatus := .abandoned
        heartbeatAt := some lease.heartbeatAt
        completedAt := some recoveredAt
        failureReason := some "LEASE_EXPIRED"
        recordedMessage := "Attempt abandoned after lease expiry and queued for recovery." }
      let queuedJob := { job with
        lifecycleStatus := .queued
        latestMessage := nextAttempt.recordedMessage
        attemptCount := nextAttempt.attemptNumber }
      let saved := ((s.saveAttempt abandoned).saveAttempt nextAttempt).saveJob queuedJob
      (.ok (some ⟨queuedJob, abandoned, nextAttempt⟩), (saved.deleteLease lease.leaseId).2)

end Store

end LotusAI.AsyncRuntime
