import LotusAI.AsyncRuntime.Moves

/-!
# Deliveries and their recovery

The delivery queue hands each message to one worker, which claims the job it names. A delivery
that no worker handled is recovered (`recover_unhandled_delivery`): a queued job is offered again
or quarantined, and around a delivery whose job is not stored a job is rebuilt.
-/

namespace LotusAI.AsyncRuntime

/-- `AsyncQueueDeliveryMessage`. -/
structure DeliveryMessage where
  deliveryId : String
  jobId : String
  attemptId : String
  jobType : String
  targetId : Option String
  callerApp : String
  correlationId : String
  submittedAt : String
  deriving DecidableEq

/-- The message that `publish_async_attempt_if_configured` enqueues. -/
def deliveryMessage (job : JobRecord) (attempt : AttemptRecord) (deliveryId : Option String) :
    DeliveryMessage where
  -- an empty delivery id is falsy
  deliveryId := match deliveryId with
    | some id => if id = "" then attempt.attemptId else id
    | none => attempt.attemptId
  jobId := job.jobId
  attemptId := attempt.attemptId
  jobType := job.jobType
  targetId := job.targetId
  callerApp := job.callerApp
  correlationId := job.correlationId
  submittedAt := job.submittedAt

/-! ### Recovery -/

/-- The job rebuilt around a delivery. -/
def DeliveryMessage.orphanedJob (m : DeliveryMessage) (reason : String) : JobRecord where
  jobId := m.jobId
  jobType := m.jobType
  targetId := m.targetId
  lifecycleStatus := .abandoned
  submittedAt := m.submittedAt
  callerApp := m.callerApp
  correlationId := m.correlationId
  payloadSummary := "Quarantined orphaned dedicated-worker delivery without matching runtime job."
  executionPath := "dedicated_worker_delivery_recovery"
  relatedEvaluationRunId := none
  latestMessage := s!"Missing durable async job delivery quarantined: {reason}"
  attemptCount := 1
  artifactIds := []
  tenantId := none

/-- Its attempt: the id is the delivery's, the number is 1. -/
def DeliveryMessage.orphanedAttempt (m : DeliveryMessage) (now reason : String) :
    AttemptRecord where
  attemptId := m.attemptId
  jobId := m.jobId
  attemptNumber := 1
  lifecycleStatus := .abandoned
  workerId := none
  claimedAt := none
  heartbeatAt := none
  startedAt := none
  completedAt := some now
  failureReason := some "MISSING_RUNTIME_JOB"
  recordedMessage := s!"Missing durable async job delivery quarantined: {reason}"

/-- `_quarantine_missing_delivery`. -/
def quarantineMissingDelivery (m : DeliveryMessage) (reason : String) : Service Unit := do
  let now ← ask .utcnow
  ask (.saveJob (m.orphanedJob reason))
  ask (.saveAttempt (m.orphanedAttempt now reason))

/-- The job types whose deliveries the fleet dispatches. -/
def dispatchedJobTypes : List String :=
  ["retrieval_indexing", "evaluation_execution", "document_ingestion", "workflow_pack_execution"]

/-- `_system_authorization`. -/
def systemAuthorization (job : JobRecord) : AuthorizationDecision where
  callerApp := "lotus-ai.async-worker-runtime"
  allowed := true
  summary := "Internal async worker runtime recorded bounded delivery recovery evidence for " ++
    s!"job type `{job.jobType}`."

/-- A worker's action on a delivery, as the operators' actions take it. -/
def recoveryRequest (job : JobRecord) (actionType : ControlActionType)
    (workerId reason : String) : ControlActionRequest where
  callerApp := "lotus-ai.async-worker-runtime"
  jobId := job.jobId
  actionType := actionType
  requestedBy := workerId
  approvedBy := none
  reason := reason

/-- `recover_unhandled_delivery`. The event noted for a missing job, whose prior status is none of
the job statuses, is left out. -/
def recoverUnhandledDelivery (m : DeliveryMessage) (workerId reason : String) : Service Unit := do
  match ← ask (.getJob m.jobId) with
  | none => quarantineMissingDelivery m reason
  | some job =>
    if job.lifecycleStatus = .queued then
      let event ← if m.jobType ∈ dispatchedJobTypes then
          redriveQueuedAsyncJob job (recoveryRequest job .redriveQueuedJob workerId reason)
            (systemAuthorization job)
        else
          quarantineQueuedAsyncJob job (recoveryRequest job .quarantineQueuedJob workerId reason)
            (systemAuthorization job)
      ask (.saveControlEvent event)
    else return ()

/-! ### Services -/

/-- The services that move stored jobs. -/
inductive ServiceCall
  | claimNext (workerId : String) (jobTypes : Option (List String))
  | claimById (jobId workerId : String)
  | start (jobId workerId attemptId : String)
  | heartbeat (jobId workerId attemptId : String)
  | complete (jobId workerId attemptId message : String)
  | fail (jobId workerId attemptId failureReason : String) (retryable : Bool)
  | recoverExpired (now : Option String)
  | control (request : ControlActionRequest)

/-- What is run for a service call, its answer left out. -/
def ServiceCall.program (extendLease : String → ℕ → String) : ServiceCall → Service Unit
  | claimNext workerId jobTypes => do
    let _ ← claimNextAsyncJobForTypes extendLease workerId jobTypes
  | claimById jobId workerId => do let _ ← claimAsyncJobById extendLease jobId workerId
  | start jobId workerId attemptId => startAsyncJob jobId workerId attemptId
  | heartbeat jobId workerId attemptId => heartbeatAsyncJob jobId workerId attemptId
  | complete jobId workerId attemptId message => completeAsyncJob jobId workerId attemptId message
  | fail jobId workerId attemptId reason retryable =>
    failAsyncJob jobId workerId attemptId reason retryable
  | recoverExpired now => do let _ ← recoverExpiredAsyncJobs now
  | control request => do let _ ← applyAsyncControlAction request

open Setting

variable {N : Type} {E : Setting N} {σ : System N}

/-- Every service ends by moves. -/
theorem ServiceCall.keeps (call : ServiceCall) (hc : Coherent σ.store) :
    E.Keeps σ (call.program E.extendLease) := by
  have hdone : ∀ {α : Type} {p : Service α}, E.Keeps σ p → E.Keeps σ (do let _ ← p) :=
    fun hp => hp.bind fun _ _ _ => .refl
  cases call with
  | claimNext workerId jobTypes => exact hdone (keeps_claimNextAsyncJobForTypes hc _ _)
  | claimById jobId workerId => exact hdone (keeps_claimAsyncJobById hc _ _)
  | start => exact keeps_startAsyncJob _ _ _
  | heartbeat => exact keeps_heartbeatAsyncJob _ _ _
  | complete => exact keeps_completeAsyncJob _ _ _ _
  | fail => exact keeps_failAsyncJob _ _ _ _ _
  | recoverExpired now => exact hdone (keeps_recoverExpiredAsyncJobs hc now)
  | control request => exact hdone (keeps_applyAsyncControlAction hc request)

/-- The recovery of a delivery whose job is stored. -/
theorem keeps_recoverUnhandledDelivery (hc : Coherent σ.store) {m : DeliveryMessage}
    {job : JobRecord} (hjob : σ.store.jobs.get? m.jobId = some job) (workerId reason : String) :
    E.Keeps σ (recoverUnhandledDelivery m workerId reason) := by
  have hid := (hc.present _ job hjob).jobId
  have hstored : σ.store.jobs.get? job.jobId = some job := by rw [hid, hjob]
  have hnote : ∀ event (σ' : System N), E.Keeps σ' (ask (.saveControlEvent event)) :=
    fun event σ' => wp_store_bind rfl (wp_move (.note event) (asking_pure _))
  refine wp_store_bind (congrArg (fun q => some (q, _)) hjob) ?_
  dsimp only
  split_ifs
  · exact Keeps.bind (keeps_redriveQueuedAsyncJob hstored _ _) fun event σ' _ => hnote event σ'
  · exact Keeps.bind (keeps_quarantineQueuedAsyncJob hc hstored _ _) fun event σ' _ =>
      hnote event σ'
  · exact .refl

end LotusAI.AsyncRuntime
