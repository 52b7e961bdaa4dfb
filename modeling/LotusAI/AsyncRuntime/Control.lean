import LotusAI.AsyncRuntime.Calls

/-!
# Operator control of async jobs

`apply_async_control_action` and the actions behind it. An action reads the job
once, checks its precondition on that reading, and then writes the attempt, the
lease and the job back one after the other; every written job record is the
first reading with some fields replaced.
-/

namespace LotusAI.AsyncRuntime

/-- `AsyncControlActionRequest`. -/
structure ControlActionRequest where
  callerApp : String
  jobId : String
  actionType : ControlActionType
  requestedBy : String
  approvedBy : Option String
  reason : String
  deriving DecidableEq

/-! ### Queueing the next attempt -/

/-- `queue_next_async_attempt`. -/
def queueNextAsyncAttempt (job : JobRecord) (reasonMessage : String) : Service AttemptRecord := do
  let attempt := queuedAttempt job.jobId (job.attemptCount + 1) reasonMessage
  ask (.saveAttempt attempt)
  ask (.saveJob { job with
    lifecycleStatus := .queued
    latestMessage := reasonMessage
    attemptCount := job.attemptCount + 1 })
  match ← ask (.getJob job.jobId) with
  | some queuedJob =>
    let _ ← askNeighbour (.publishAttempt queuedJob attempt none)
    return attempt
  | none => return attempt

/-- The three ways an operator queues a job again: each has its own precondition
on the status read, its refusal, and the name it gives the new attempt. -/
def queueAgain (job : JobRecord) (allowed : LifecycleStatus → Bool) (refusal : String)
    (manner reason : String) : Service AttemptRecord :=
  if allowed job.lifecycleStatus then
    queueNextAsyncAttempt job s!"Manual {manner} queued after operator action: {reason}"
  else throw (conflict s!"Async job '{job.jobId}' {refusal}")

def retryFailedJob (job : JobRecord) (reason : String) : Service AttemptRecord :=
  queueAgain job (· = .failed) "is not in FAILED state and cannot be retried." "retry" reason

def replayTerminalJob (job : JobRecord) (reason : String) : Service AttemptRecord :=
  queueAgain job LifecycleStatus.isTerminal "is not terminal and cannot be replayed." "replay"
    reason

def requeueAbandonedJob (job : JobRecord) (reason : String) : Service AttemptRecord :=
  queueAgain job (· = .abandoned) "is not in ABANDONED state and cannot be requeued." "requeue"
    reason

/-! ### Abandoning an active job -/

/-- The attempt record an operator leaves behind when it takes the attempt away. -/
def withdrawnAttempt (attempt : AttemptRecord) (now failureReason message : String) :
    AttemptRecord :=
  { attempt with
    lifecycleStatus := .abandoned
    completedAt := some now
    failureReason := some failureReason
    recordedMessage := message }

/-- `_abandon_active_job`. -/
def abandonActiveJob (job : JobRecord) (reason : String) : Service String :=
  if job.lifecycleStatus.isActive = false then
    throw (conflict
      s!"Async job '{job.jobId}' is not actively claimed or running and cannot be abandoned.")
  else do
    match ← ask (.getActiveLease job.jobId) with
    | none => throw (conflict s!"Async job '{job.jobId}' has no active lease to abandon.")
    | some lease =>
      match ← ask (.getAttempt lease.attemptId) with
      | none => throw (conflict (s!"Active runtime attempt '{lease.attemptId}' was not found " ++
          s!"for job '{job.jobId}'."))
      | some attempt =>
        let now ← ask .utcnow
        ask (.saveAttempt (withdrawnAttempt attempt now "MANUAL_ABANDON"
          s!"Attempt manually abandoned: {reason}"))
        let _ ← ask (.deleteLease lease.leaseId)
        ask (.saveJob { job with
          lifecycleStatus := .abandoned
          latestMessage := s!"Job manually abandoned: {reason}" })
        return attempt.attemptId

/-! ### Recovery of a queued delivery -/

/-- `_require_queued_without_lease`. -/
def requireQueuedWithoutLease (job : JobRecord) (action : String) : Service Unit :=
  if job.lifecycleStatus ≠ .queued then
    throw (conflict s!"Async job '{job.jobId}' is not QUEUED and cannot be {action}.")
  else do
    match ← ask (.getActiveLease job.jobId) with
    | some _ =>
      throw (conflict s!"Async job '{job.jobId}' has an active lease and cannot be {action}.")
    | none => return ()

/-- `_latest_attempt`: the last of the attempts as the store lists them. -/
def latestAttempt (job : JobRecord) : Service (Option AttemptRecord) := do
  let attempts : List AttemptRecord ← ask (.listAttempts job.jobId)
  return attempts.getLast?

variable (job : JobRecord) (request : ControlActionRequest) (authorization : AuthorizationDecision)

/-- The event an action leaves in the control history. -/
def controlEvent (resultingStatus : LifecycleStatus) (affectedAttemptId : Option String) :
    Service ControlEventRecord := do
  let uuid : String ← ask .uuid4
  let now ← ask .utcnow
  return {
    eventId := "async_ctrl_evt_" ++ uuid.take 12
    jobId := job.jobId
    actionType := request.actionType
    requestedBy := request.requestedBy
    approvedBy := request.approvedBy
    reason := request.reason
    priorStatus := job.lifecycleStatus
    resultingStatus := resultingStatus
    affectedAttemptId := affectedAttemptId
    authorization := authorization
    recordedAt := now }

/-- `redrive_queued_async_job`. -/
def redriveQueuedAsyncJob : Service ControlEventRecord := do
  requireQueuedWithoutLease job "redriven"
  match ← latestAttempt job with
  | none => throw (conflict s!"Async job '{job.jobId}' has no attempt to re-drive.")
  | some attempt =>
    if attempt.lifecycleStatus ≠ .queued then
      throw (conflict
        s!"Async job '{job.jobId}' latest attempt is not QUEUED and cannot be re-driven.")
    else do
      let uuid : String ← ask .uuid4
      let published ← askNeighbour (.publishAttempt job attempt
        (some (attempt.attemptId ++ "_redrive_" ++ uuid.take 12)))
      if published then do
        ask (.saveJob { job with
          lifecycleStatus := .queued
          latestMessage := s!"Queued async job re-driven to managed queue: {request.reason}" })
        controlEvent job request authorization .queued (some attempt.attemptId)
      else throw (conflict (s!"Async job '{job.jobId}' could not be re-driven because " ++
        "managed queue publication is inactive."))

/-- `quarantine_queued_async_job`. -/
def quarantineQueuedAsyncJob : Service ControlEventRecord := do
  requireQueuedWithoutLease job "quarantined"
  let attempt? ← latestAttempt job
  let now ← ask .utcnow
  match attempt? with
  | none => pure ()
  | some attempt => ask (.saveAttempt (withdrawnAttempt attempt now "DELIVERY_QUARANTINED"
      s!"Queued delivery quarantined: {request.reason}"))
  ask (.saveJob { job with
    lifecycleStatus := .abandoned
    latestMessage := s!"Queued async job quarantined: {request.reason}" })
  controlEvent job request authorization .abandoned (attempt?.map (·.attemptId))

/-! ### The actions -/

/-- `_sync_evaluation_retryable_action`. -/
def syncEvaluationRetryableAction (job : JobRecord) (reason manner : String) : Service Unit :=
  match job.relatedEvaluationRunId with
  | none => pure ()
  | some runId => do
    let _ ← askNeighbour (.queueNextEvaluationAttempt runId
      s!"{manner} queued after operator action: {reason}")

/-- `_sync_evaluation_abandon`. -/
def syncEvaluationAbandon (job : JobRecord) (reason : String) : Service Unit :=
  match job.relatedEvaluationRunId with
  | none => pure ()
  | some runId => do
    let _ ← askNeighbour (.abandonActiveEvaluationAttempt runId
      s!"Evaluation attempt manually abandoned: {reason}" "MANUAL_ABANDON")

/-- `_apply_control_action`. -/
def applyControlAction : Service ControlEventRecord :=
  match request.actionType with
  | .retryFailedJob => do
    let attempt ← retryFailedJob job request.reason
    syncEvaluationRetryableAction job request.reason "Manual retry"
    controlEvent job request authorization .queued (some attempt.attemptId)
  | .replayTerminalJob => do
    let attempt ← replayTerminalJob job request.reason
    syncEvaluationRetryableAction job request.reason "Manual replay"
    controlEvent job request authorization .queued (some attempt.attemptId)
  | .requeueAbandonedJob => do
    let attempt ← requeueAbandonedJob job request.reason
    syncEvaluationRetryableAction job request.reason "Manual requeue"
    controlEvent job request authorization .queued (some attempt.attemptId)
  | .abandonActiveJob => do
    let attemptId ← abandonActiveJob job request.reason
    syncEvaluationAbandon job request.reason
    controlEvent job request authorization .abandoned (some attemptId)
  | .redriveQueuedJob => redriveQueuedAsyncJob job request authorization
  | .quarantineQueuedJob => quarantineQueuedAsyncJob job request authorization

/-- `apply_async_control_action`. -/
def applyAsyncControlAction (request : ControlActionRequest) : Service ControlEventRecord := do
  let decision ← ask (.authorizeRequest request.callerApp)
  let authorization ← requireAuthorized decision
  match ← ask (.getJob request.jobId) with
  | none => throw (notFound s!"Async job '{request.jobId}' was not found in runtime state.")
  | some job =>
    let event ← applyControlAction job request authorization
    ask (.saveControlEvent event)
    return event

end LotusAI.AsyncRuntime
