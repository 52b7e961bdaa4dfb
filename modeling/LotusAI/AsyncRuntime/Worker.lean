import LotusAI.AsyncRuntime.Calls

/-!
# Submission and the worker services

`async_submission_service` and `async_worker_runtime`: a job enters the store
with its first attempt, a worker claims it, reports progress, and completes or
fails it. Each report is one fenced transition of the store.
-/

namespace LotusAI.AsyncRuntime

open Store

/-! ### Submission -/

/-- What the three submission paths fill in differently: plain jobs, evaluation runs
and workflow packs. -/
structure Submission where
  jobId : String
  jobType : String
  targetId : Option String
  submittedAt : String
  callerApp : String
  correlationId : String
  payloadSummary : String
  executionPath : String
  relatedEvaluationRunId : Option String
  latestMessage : String
  artifactIds : List String
  tenantId : Option String
  attemptMessage : String
  deriving DecidableEq

def Submission.jobRecord (sub : Submission) : JobRecord where
  jobId := sub.jobId
  jobType := sub.jobType
  targetId := sub.targetId
  lifecycleStatus := .queued
  submittedAt := sub.submittedAt
  callerApp := sub.callerApp
  correlationId := sub.correlationId
  payloadSummary := sub.payloadSummary
  executionPath := sub.executionPath
  relatedEvaluationRunId := sub.relatedEvaluationRunId
  latestMessage := sub.latestMessage
  attemptCount := 1
  artifactIds := sub.artifactIds
  tenantId := sub.tenantId

/-- The attempt record a submission stores: the job's first, not yet queued. -/
def Submission.attemptRecord (sub : Submission) : AttemptRecord where
  attemptId := attemptIdOf sub.jobId 1
  jobId := sub.jobId
  attemptNumber := 1
  lifecycleStatus := .submitted
  workerId := none
  claimedAt := none
  heartbeatAt := none
  startedAt := none
  completedAt := none
  failureReason := none
  recordedMessage := sub.attemptMessage

/-- The storing part of `submit_async_job`. -/
def submitAsyncJob (sub : Submission) : Service Bool := do
  ask (.saveJob sub.jobRecord)
  ask (.saveAttempt sub.attemptRecord)
  askNeighbour (.publishAttempt sub.jobRecord sub.attemptRecord none)

/-! ### Reports of a worker -/

/-- `_LEASE_SECONDS`. -/
def leaseSeconds : ℕ := 300

/-- `_get_runtime_job`. -/
def getRuntimeJob (jobId : String) : Service JobRecord := do
  match ← ask (.getJob jobId) with
  | some job => return job
  | none => throw (notFound s!"Async job '{jobId}' was not found in runtime state.")

/-- `_require_current_claim`. -/
def requireCurrentClaim (jobId workerId : String) :
    Option ClaimTransition → Service ClaimTransition
  | some transition => pure transition
  | none => throw (conflict (s!"Async job '{jobId}' no longer has an unexpired current claim " ++
      s!"for worker '{workerId}'."))

/-- Perform a transition; its clock is read when it is performed. -/
def freshTransition (args : TransitionArgs) : Service (Option ClaimTransition) := do
  match ← ask (.transitionCurrentClaim args) with
  | .ok transition => return transition
  | .error text => throw (.other text)

/-- The arguments of `start_async_job`. -/
def startArgs (jobId workerId attemptId : String) : TransitionArgs where
  jobId := jobId
  workerId := workerId
  attemptId := attemptId
  now := none
  jobStatus := some .running
  jobMessage := some s!"Job is running under worker '{workerId}'."
  attemptStatus := some .running
  attemptMessage := s!"Attempt started by worker '{workerId}'."
  failureReason := none
  leaseExpiresAt := none
  terminalArtifact := none
  leaseExtensionSeconds := some leaseSeconds

/-- The arguments of `heartbeat_async_job`. -/
def heartbeatArgs (jobId workerId attemptId : String) : TransitionArgs where
  jobId := jobId
  workerId := workerId
  attemptId := attemptId
  now := none
  jobStatus := none
  jobMessage := none
  attemptStatus := none
  attemptMessage := s!"Heartbeat recorded from worker '{workerId}'."
  failureReason := none
  leaseExpiresAt := none
  terminalArtifact := none
  leaseExtensionSeconds := some leaseSeconds

/-- The arguments of the transition in `complete_async_job`. -/
def completeArgs (jobId workerId attemptId message : String) (artifact : ArtifactRecord) :
    TransitionArgs where
  jobId := jobId
  workerId := workerId
  attemptId := attemptId
  now := none
  jobStatus := some .completed
  jobMessage := some message
  attemptStatus := some .completed
  attemptMessage := message
  failureReason := none
  leaseExpiresAt := none
  terminalArtifact := some artifact

/-- The arguments of the retrying transition in `fail_async_job`. -/
def retryArgs (jobId workerId attemptId failureReason : String) : TransitionArgs where
  jobId := jobId
  workerId := workerId
  attemptId := attemptId
  now := none
  jobStatus := some .queued
  jobMessage := some s!"Retry queued after failure reason '{failureReason}'."
  attemptStatus := some .failed
  attemptMessage :=
    s!"Attempt failed under worker '{workerId}' with reason '{failureReason}'."
  failureReason := some failureReason
  leaseExpiresAt := none
  terminalArtifact := none
  nextAttemptMessage := some s!"Retry queued after failure reason '{failureReason}'."

/-- The arguments of the terminal transition in `fail_async_job`. -/
def failArgs (jobId workerId attemptId failureReason : String) (artifact : ArtifactRecord) :
    TransitionArgs where
  jobId := jobId
  workerId := workerId
  attemptId := attemptId
  now := none
  jobStatus := some .failed
  jobMessage := some s!"Job failed terminally with reason '{failureReason}'."
  attemptStatus := some .failed
  attemptMessage :=
    s!"Attempt failed under worker '{workerId}' with reason '{failureReason}'."
  failureReason := some failureReason
  leaseExpiresAt := none
  terminalArtifact := some artifact

def startAsyncJob (jobId workerId attemptId : String) : Service Unit := do
  let transitioned ← freshTransition (startArgs jobId workerId attemptId)
  let _ ← requireCurrentClaim jobId workerId transitioned

def heartbeatAsyncJob (jobId workerId attemptId : String) : Service Unit := do
  let transitioned ← freshTransition (heartbeatArgs jobId workerId attemptId)
  let _ ← requireCurrentClaim jobId workerId transitioned

/-- Stage the terminal output of a job under a fresh clock reading. -/
def stageTerminalOutput (job : JobRecord) (workerId : String) : Service ArtifactRecord := do
  let createdAt ← ask .utcnow
  let staged ← ask (.stageJsonArtifact job.jobId workerId createdAt)
  orRaise staged

/-- `_publish_terminal_artifact_or_reject`: a stale claim loses its staged object, and
no artifact record is written for it. -/
def publishTerminalArtifactOrReject (transition : Option ClaimTransition)
    (artifact : ArtifactRecord) (jobId workerId : String) : Service Unit := do
  if transition.isNone then
    let _ ← askNeighbour (.deleteObject artifact.storageReference)
    let _ ← requireCurrentClaim jobId workerId transition
    pure ()
  else
    let _ ← askNeighbour (.saveArtifact artifact)
    pure ()

def completeAsyncJob (jobId workerId attemptId message : String) : Service Unit := do
  let job ← getRuntimeJob jobId
  let artifact ← stageTerminalOutput job workerId
  let transitioned ← freshTransition (completeArgs jobId workerId attemptId message artifact)
  publishTerminalArtifactOrReject transitioned artifact jobId workerId

def failAsyncJob (jobId workerId attemptId failureReason : String) (retryable : Bool) :
    Service Unit := do
  let job ← getRuntimeJob jobId
  if retryable then
    let transitioned ← freshTransition (retryArgs jobId workerId attemptId failureReason)
    let transition ← requireCurrentClaim jobId workerId transitioned
    match transition.nextAttempt with
    | none => throw (.other "Fenced retry transition did not mint its successor attempt.")
    | some next =>
      let _ ← askNeighbour (.publishAttempt transition.job next none)
      pure ()
  else
    let artifact ← stageTerminalOutput job workerId
    let transitioned ← freshTransition (failArgs jobId workerId attemptId failureReason artifact)
    publishTerminalArtifactOrReject transitioned artifact jobId workerId

/-! ### Recovery -/

/-- One round of `recover_expired_async_jobs`. A job without a lease is passed over. -/
def recoverExpiredAsyncJob (now : Option String) (job : JobRecord) : Service (Option String) :=
  if job.lifecycleStatus.isActive = false then return none
  else do
    match ← ask (.getActiveLease job.jobId) with
    | none => return none
    | some _ =>
      match ← ask (.recoverExpiredClaim
          ⟨job.jobId, now, "Retry queued after lease expiry recovery.", now⟩) with
      | .error detail => throw (.other detail)
      | .ok none => return none
      | .ok (some recovered) =>
        let _ ← askNeighbour (.publishAttempt recovered.job recovered.nextAttempt none)
        match job.relatedEvaluationRunId with
        | none => return some recovered.job.jobId
        | some runId =>
          let _ ← askNeighbour (.abandonActiveEvaluationAttempt runId
            "Evaluation attempt abandoned after async lease expiry recovery." "LEASE_EXPIRED")
          let _ ← askNeighbour (.queueNextEvaluationAttempt runId
            "Evaluation retry queued after async lease expiry recovery.")
          return some recovered.job.jobId

/-- The loop of `recover_expired_async_jobs`. -/
def recoverEach (now : Option String) : List JobRecord → Service (List String)
  | [] => return []
  | job :: rest => do
    let recovered ← recoverExpiredAsyncJob now job
    let others ← recoverEach now rest
    return recovered.toList ++ others

/-- `recover_expired_async_jobs`: the ids of the jobs that were recovered. -/
def recoverExpiredAsyncJobs (now : Option String) : Service (List String) := do
  let jobs ← ask .listJobs
  recoverEach now jobs

/-! ### Claims -/

/-- What a worker writes into the job it claims. The lease ends `leaseSeconds` after the claim. -/
def workerClaimArgs (extendLease : String → ℕ → String) (workerId now : String) : ClaimArgs where
  workerId := workerId
  claimedAt := now
  heartbeatAt := now
  leaseExpiresAt := extendLease now leaseSeconds
  latestMessage :=
    s!"Job claimed by worker '{workerId}' and is waiting for explicit execution start."
  attemptMessage := s!"Attempt claimed by worker '{workerId}'."

/-- A claimed evaluation job claims the attempt of its run. -/
def syncEvaluationClaim (claim : ClaimRecord) (workerId : String) : Service Unit :=
  match claim.job.relatedEvaluationRunId with
  | none => pure ()
  | some runId => do
    let _ ← askNeighbour (.claimActiveEvaluationAttempt runId workerId
      (s!"Evaluation attempt claimed by worker '{workerId}' and is waiting for explicit " ++
        "execution start."))

/-- Both claims recover expired jobs first; `take` is the claim itself. -/
def claimAfterRecovery (extendLease : String → ℕ → String) (workerId : String)
    (take : ClaimArgs → Service (Option ClaimRecord)) : Service (Option ClaimRecord) := do
  let now ← ask .utcnow
  let _ ← recoverExpiredAsyncJobs (some now)
  match ← take (workerClaimArgs extendLease workerId now) with
  | none => return none
  | some claim =>
    syncEvaluationClaim claim workerId
    return some claim

def claimNextAsyncJobForTypes (extendLease : String → ℕ → String) (workerId : String)
    (jobTypes : Option (List String)) : Service (Option ClaimRecord) :=
  claimAfterRecovery extendLease workerId fun args => ask (.claimNextRunnableJob jobTypes args)

def claimAsyncJobById (extendLease : String → ℕ → String) (jobId workerId : String) :
    Service (Option ClaimRecord) :=
  claimAfterRecovery extendLease workerId fun args => ask (.claimRunnableJobById jobId args)

end LotusAI.AsyncRuntime
