import LotusAI.Admission.Snapshots
import LotusAI.Lib.Datetime

/-!
# Queue admission

An execution is admitted under the queue policy of its workflow pack. The request is kept as a
snapshot, its lane is checked, and capacity is asked for twice: first of the list of all leases,
then of `try_admit`, which reclaims expired leases before it counts. The first answer is final
when it is no. Leases whose holder has died count in it like any other, and reclamation is not
reached while they fill a limit.
-/

namespace LotusAI.Admission

open Lib Artifacts

/-! ### States and events -/

/-- The states that may follow on a state. -/
def workflowPackQueueStateTransitions : WorkflowPackQueueState → List WorkflowPackQueueState
  | .notAdmitted => [.queued, .rejected, .degraded]
  | .queued => [.admitted, .cancelled, .timedOut, .degraded]
  | .admitted => [.running, .cancelled, .timedOut, .degraded]
  | .running => [.cancelled, .timedOut, .degraded, .completedHandoff]
  | .rejected => []
  | .cancelled => []
  | .timedOut => []
  | .degraded => []
  | .completedHandoff => []

/-- The text of a state. -/
def WorkflowPackQueueState.value : WorkflowPackQueueState → String
  | notAdmitted => "NOT_ADMITTED"
  | queued => "QUEUED"
  | admitted => "ADMITTED"
  | running => "RUNNING"
  | rejected => "REJECTED"
  | cancelled => "CANCELLED"
  | timedOut => "TIMED_OUT"
  | degraded => "DEGRADED"
  | completedHandoff => "COMPLETED_HANDOFF"

/-- The text of a lane. -/
def WorkflowPackQueueLane.value : WorkflowPackQueueLane → String
  | latencySensitive => "LATENCY_SENSITIVE"
  | reviewSupport => "REVIEW_SUPPORT"
  | batch => "BATCH"
  | nightly => "NIGHTLY"
  | operator => "OPERATOR"

/-- `WorkflowPackQueueEventType`, as far as admission records it. -/
inductive WorkflowPackQueueEventType
  | admissionRequested
  | admissionQueued
  | admissionAdmitted
  | admissionGranted
  | admissionRejected
  | admissionReclaimed
  deriving DecidableEq

/-- `WorkflowPackQueuePolicyDescriptor`, as far as admission reads it. -/
structure WorkflowPackQueuePolicy where
  policyId : String
  workflowPackId : String
  workflowPackVersion : String
  allowedLanes : List WorkflowPackQueueLane
  defaultLane : WorkflowPackQueueLane
  maxConcurrentRunsPerPack : ℕ
  maxConcurrentRunsPerLane : ℕ
  deriving DecidableEq

/-- `WorkflowPackQueueEventDescriptor`, as admission fills it. -/
structure QueueEvent where
  queueItemId : String
  eventType : WorkflowPackQueueEventType
  policyId : Option String
  workflowPackId : String
  workflowPackVersion : String
  lane : Option WorkflowPackQueueLane
  state : WorkflowPackQueueState
  callerApp : Option String
  correlationId : Option String
  tenantId : Option String
  workflowSurface : Option String
  reasonCode : Option String
  artifactRefs : List ArtifactDescriptor
  message : String
  deriving DecidableEq

/-- The stores of the queue. Events are newest first. -/
structure AdmissionState where
  leases : Leases
  artifacts : ArtifactStore
  events : List QueueEvent

/-- A step of admission: it may raise, and what it has written stays. -/
abbrev Admitting (α : Type) := ExceptT Raised (StateM AdmissionState) α

/-- What an admission asks for. -/
structure AdmissionRequest where
  registration : WorkflowPackRegistration
  requestedLane : Option WorkflowPackQueueLane
  callerApp : Option String
  correlationId : Option String
  tenantId : Option String
  workflowSurface : Option String
  taskRequest : Option TaskExecutionRequest
  environment : Option WorkflowPackEnvironment
  callerIdentityClass : Option WorkflowPackCallerIdentityClass
  deriving DecidableEq

/-- The lease store: a dictionary, or SQL with its order of rows. -/
inductive LeaseAdapter
  | memory
  | sql (order :
      List WorkflowPackQueueAdmissionLease → List WorkflowPackQueueAdmissionLease)

/-- `try_admit` of an adapter. -/
def LeaseAdapter.tryAdmit (clock : LeaseClock) (now : ℤ) (lease : WorkflowPackQueueAdmissionLease)
    (packLimit laneLimit : ℤ) (leases : Leases) :
    LeaseAdapter → Except Raised WorkflowPackAdmissionAttempt × Leases
  | memory =>
    let out := memoryTryAdmit clock now lease packLimit laneLimit leases
    (.ok out.1, out.2)
  | sql order => sqlTryAdmit clock now lease packLimit laneLimit order leases

/-- What admission reads of its surroundings. -/
structure AdmissionEnv where
  /-- Why the queue event store is not ready, if it is not. -/
  notReady : Option String
  /-- `get_workflow_pack_queue_policy_descriptor`. -/
  policyOf : String → String → Option WorkflowPackQueuePolicy
  adapter : LeaseAdapter
  clock : LeaseClock
  writer : ArtifactWriter
  /-- The instant of the call, in microseconds. -/
  now : ℤ
  /-- `_utc_now_timestamp`. -/
  timestamp : String
  queueHex : String
  artifactHex : String

/-! ### Steps -/

/-- `_transition_queue_state`. -/
def transitionQueueState (current next : WorkflowPackQueueState) :
    Except Raised WorkflowPackQueueState :=
  if next ∈ workflowPackQueueStateTransitions current then .ok next
  else .error (.other (s!"Illegal workflow-pack queue transition: {current.value} -> " ++
    next.value))

/-- `_record_queue_event`. -/
def recordQueueEvent (event : QueueEvent) : Admitting Unit :=
  modify fun state => { state with events := event :: state.events }

/-- The event of an admission, as its request fills it. -/
def AdmissionRequest.event (request : AdmissionRequest) (queueItemId : String)
    (eventType : WorkflowPackQueueEventType) (policyId : Option String)
    (workflowPackId workflowPackVersion : String) (lane : Option WorkflowPackQueueLane)
    (state : WorkflowPackQueueState) (reasonCode : Option String)
    (artifactRefs : List ArtifactDescriptor) (message : String) : QueueEvent where
  queueItemId := queueItemId
  eventType := eventType
  policyId := policyId
  workflowPackId := workflowPackId
  workflowPackVersion := workflowPackVersion
  lane := lane
  state := state
  callerApp := request.callerApp
  correlationId := request.correlationId
  tenantId := request.tenantId
  workflowSurface := request.workflowSurface
  reasonCode := reasonCode
  artifactRefs := artifactRefs
  message := message

def AdmissionRequest.policyEvent (request : AdmissionRequest) (policy : WorkflowPackQueuePolicy)
    (queueItemId : String) (eventType : WorkflowPackQueueEventType)
    (lane : WorkflowPackQueueLane) (state : WorkflowPackQueueState) (reasonCode : Option String)
    (artifactRefs : List ArtifactDescriptor) (message : String) : QueueEvent :=
  request.event queueItemId eventType (some policy.policyId) policy.workflowPackId
    policy.workflowPackVersion (some lane) state reasonCode artifactRefs message

/-- `_ensure_queue_event_store_ready_for_admission`. -/
def ensureQueueEventStoreReady (env : AdmissionEnv) : Admitting Unit :=
  match env.notReady with
  | some detail => throw (.http 503 detail)
  | none => pure ()

/-- `_persist_request_snapshot_artifact_refs`. -/
def persistRequestSnapshotArtifactRefs (env : AdmissionEnv) (request : AdmissionRequest)
    (queueItemId : String) (lane : WorkflowPackQueueLane) :
    Admitting (List ArtifactDescriptor) :=
  match request.taskRequest with
  | none => pure []
  | some taskRequest => do
    let state ← get
    let input : SnapshotInput :=
      { registration := request.registration
        lane := lane
        taskRequest := taskRequest
        workflowSurface := request.workflowSurface
        environment := request.environment
        callerIdentityClass := request.callerIdentityClass }
    let persisted := persistWorkflowPackQueueRequestSnapshot env.writer queueItemId
      env.artifactHex env.timestamp input state.artifacts
    set { state with artifacts := persisted.2 }
    return [persisted.1]

/-- The two limits, by their names. -/
inductive CapacityLimit
  | pack
  | lane
  deriving DecidableEq

def CapacityLimit.name : CapacityLimit → String
  | pack => "max_concurrent_runs_per_pack"
  | lane => "max_concurrent_runs_per_lane"

/-- `limit_name.upper()`. -/
def CapacityLimit.reasonCode : CapacityLimit → String
  | pack => "MAX_CONCURRENT_RUNS_PER_PACK"
  | lane => "MAX_CONCURRENT_RUNS_PER_LANE"

/-- The value of a limit. -/
def CapacityLimit.of (policy : WorkflowPackQueuePolicy) : CapacityLimit → ℕ
  | pack => policy.maxConcurrentRunsPerPack
  | lane => policy.maxConcurrentRunsPerLane

/-- `_raise_capacity_rejection`. -/
def raiseCapacityRejection {α : Type} (request : AdmissionRequest)
    (policy : WorkflowPackQueuePolicy) (queueItemId : String) (lane : WorkflowPackQueueLane)
    (artifactRefs : List ArtifactDescriptor) (limit : CapacityLimit) : Admitting α := do
  recordQueueEvent (request.policyEvent policy queueItemId .admissionRejected lane .rejected
    (some limit.reasonCode) artifactRefs
    (s!"Workflow-pack queue admission rejected because `{limit.name}` is already at " ++
      s!"{limit.of policy}."))
  throw (.http 429 ("Workflow-pack queue policy rejected admission for " ++
    s!"`{policy.workflowPackId}@{policy.workflowPackVersion}` in lane `{lane.value}` because " ++
    s!"`{limit.name}` is already at {limit.of policy}."))

/-- `_count_active_leases`: every stored lease of the policy counts. -/
def countActiveLeases (leases : Leases) (policy : WorkflowPackQueuePolicy) :
    Option WorkflowPackQueueLane → ℕ
  | none => packCount leases policy.policyId
  | some lane => laneCount leases policy.policyId lane

/-- The terminal event of a reclaimed lease. -/
def reclaimedEvent (reclaimed : WorkflowPackQueueAdmissionLease) : QueueEvent where
  queueItemId := reclaimed.queueItemId
  eventType := .admissionReclaimed
  policyId := some reclaimed.policyId
  workflowPackId := reclaimed.workflowPackId
  workflowPackVersion := reclaimed.workflowPackVersion
  lane := some reclaimed.lane
  state := .timedOut
  callerApp := reclaimed.callerApp
  correlationId := reclaimed.correlationId
  tenantId := reclaimed.tenantId
  workflowSurface := reclaimed.workflowSurface
  reasonCode := some "ADMISSION_LEASE_EXPIRED"
  artifactRefs := reclaimed.artifactRefs
  message := "Workflow-pack admission lease expired and was reclaimed: the holding " ++
    "replica can no longer be executing this item, so its capacity was " ++
    "returned to the lane."

/-- `_record_reclaimed_lease_events`. -/
def recordReclaimedLeaseEvents (reclaimed : List WorkflowPackQueueAdmissionLease) :
    Admitting Unit :=
  modify fun state => { state with
    events := (reclaimed.map reclaimedEvent).reverse ++ state.events }

def AdmissionRequest.lease (request : AdmissionRequest) (policy : WorkflowPackQueuePolicy)
    (queueItemId admittedAt : String) (lane : WorkflowPackQueueLane)
    (state : WorkflowPackQueueState) (artifactRefs : List ArtifactDescriptor) :
    WorkflowPackQueueAdmissionLease where
  queueItemId := queueItemId
  policyId := policy.policyId
  workflowPackId := policy.workflowPackId
  workflowPackVersion := policy.workflowPackVersion
  lane := lane
  state := state
  admittedAt := admittedAt
  callerApp := request.callerApp
  correlationId := request.correlationId
  tenantId := request.tenantId
  workflowSurface := request.workflowSurface
  artifactRefs := artifactRefs

/-- An exception, or the value. -/
def liftRaised {α : Type} : Except Raised α → Admitting α
  | .ok a => pure a
  | .error e => throw e

/-- The authoritative decision: `try_admit`, its reclaimed leases, and its verdict. -/
def admitLease (env : AdmissionEnv) (request : AdmissionRequest)
    (policy : WorkflowPackQueuePolicy) (queueItemId : String) (lane : WorkflowPackQueueLane)
    (artifactRefs : List ArtifactDescriptor) (lease : WorkflowPackQueueAdmissionLease) :
    Admitting Unit := do
  let state ← get
  let out := env.adapter.tryAdmit env.clock env.now lease policy.maxConcurrentRunsPerPack
    policy.maxConcurrentRunsPerLane state.leases
  set { state with leases := out.2 }
  let attempt ← liftRaised out.1
  recordReclaimedLeaseEvents attempt.reclaimedLeases
  unless attempt.admitted do
    raiseCapacityRejection request policy queueItemId lane artifactRefs
      (if policy.maxConcurrentRunsPerPack ≤ attempt.activePackCount then .pack else .lane)

/-- What follows on the advisory check, in the order of the source: the states, the lease, the
authoritative decision, the grant. -/
def grantAdmission (env : AdmissionEnv) (request : AdmissionRequest)
    (policy : WorkflowPackQueuePolicy) (queueItemId : String) (lane : WorkflowPackQueueLane)
    (artifactRefs : List ArtifactDescriptor) : Admitting WorkflowPackQueueAdmissionLease := do
  let pack := s!"`{policy.workflowPackId}@{policy.workflowPackVersion}`"
  let queuedState ← liftRaised (transitionQueueState .notAdmitted .queued)
  recordQueueEvent (request.policyEvent policy queueItemId .admissionQueued lane queuedState none
    artifactRefs ("Workflow-pack queue item queued after policy and capacity evaluation for " ++
      s!"{pack} in lane `{lane.value}`."))
  let admittedState ← liftRaised (transitionQueueState queuedState .admitted)
  recordQueueEvent (request.policyEvent policy queueItemId .admissionAdmitted lane admittedState none
    artifactRefs ("Workflow-pack queue item admitted for execution handoff for " ++
      s!"{pack} in lane `{lane.value}`."))
  let runningState ← liftRaised (transitionQueueState admittedState .running)
  let lease := request.lease policy queueItemId env.timestamp lane runningState artifactRefs
  admitLease env request policy queueItemId lane artifactRefs lease
  recordQueueEvent (request.policyEvent policy queueItemId .admissionGranted lane runningState none
    artifactRefs (s!"Workflow-pack queue admission granted for {pack} in lane `{lane.value}`."))
  return lease

/-- The advisory check, over all leases that are listed. -/
def checkCapacity (env : AdmissionEnv) (request : AdmissionRequest)
    (policy : WorkflowPackQueuePolicy) (queueItemId : String) (lane : WorkflowPackQueueLane)
    (artifactRefs : List ArtifactDescriptor) : Admitting WorkflowPackQueueAdmissionLease := do
  let state ← get
  if policy.maxConcurrentRunsPerPack ≤ countActiveLeases state.leases policy none then
    raiseCapacityRejection request policy queueItemId lane artifactRefs .pack
  else if policy.maxConcurrentRunsPerLane ≤ countActiveLeases state.leases policy (some lane) then
    raiseCapacityRejection request policy queueItemId lane artifactRefs .lane
  else grantAdmission env request policy queueItemId lane artifactRefs

/-- `acquire_workflow_pack_queue_admission`, under the policy that was found. -/
def acquireUnderPolicy (env : AdmissionEnv) (request : AdmissionRequest)
    (policy : WorkflowPackQueuePolicy) (queueItemId : String) :
    Admitting WorkflowPackQueueAdmissionLease := do
  let lane := request.requestedLane.getD policy.defaultLane
  let artifactRefs ← persistRequestSnapshotArtifactRefs env request queueItemId lane
  recordQueueEvent (request.policyEvent policy queueItemId .admissionRequested lane .notAdmitted
    none artifactRefs ("Workflow-pack queue admission requested for " ++
      s!"`{policy.workflowPackId}@{policy.workflowPackVersion}` in lane `{lane.value}`."))
  if lane ∈ policy.allowedLanes then
    checkCapacity env request policy queueItemId lane artifactRefs
  else do
    recordQueueEvent (request.policyEvent policy queueItemId .admissionRejected lane .rejected
      (some "QUEUE_LANE_NOT_ALLOWED") artifactRefs
      ("Workflow-pack queue admission rejected because the requested lane " ++
        s!"`{lane.value}` is not allowed."))
    throw (conflict (s!"Workflow-pack queue lane `{lane.value}` is not allowed for " ++
      s!"`{request.registration.packId}@{request.registration.version}`."))

/-- `acquire_workflow_pack_queue_admission`. -/
def acquireWorkflowPackQueueAdmission (env : AdmissionEnv) (request : AdmissionRequest) :
    Admitting WorkflowPackQueueAdmissionLease := do
  ensureQueueEventStoreReady env
  let queueItemId := s!"wpq_{env.queueHex}"
  match env.policyOf request.registration.packId request.registration.version with
  | none => do
    recordQueueEvent (request.event queueItemId .admissionRejected none
      request.registration.packId request.registration.version request.requestedLane .rejected
      (some "QUEUE_POLICY_NOT_FOUND") []
      ("Workflow-pack queue admission rejected because no queue policy is declared for " ++
        s!"`{request.registration.packId}@{request.registration.version}`."))
    throw (conflict ("Workflow-pack queue policy is not declared for executable version " ++
      s!"`{request.registration.packId}@{request.registration.version}`."))
  | some policy => acquireUnderPolicy env request policy queueItemId

/-! ### What becomes of a request -/

section Outcomes

variable {env : AdmissionEnv} {request : AdmissionRequest} {policy : WorkflowPackQueuePolicy}
  {queueItemId : String} {lane : WorkflowPackQueueLane} {refs : List ArtifactDescriptor}
  {state : AdmissionState}

/-- The result of an admission, and the stores after it. -/
def Admitting.outcome {α : Type} (admission : Admitting α) (state : AdmissionState) :
    Except Raised α × AdmissionState :=
  admission.run state

/-- The request was turned away with `HTTP_429_TOO_MANY_REQUESTS`. -/
def RejectedForCapacity {α : Type} (outcome : Except Raised α × AdmissionState) : Prop :=
  ∃ detail, outcome.1 = .error (.http 429 detail)

/-- A limit is reached by the leases that are listed. -/
def Full (leases : Leases) (policy : WorkflowPackQueuePolicy) (lane : WorkflowPackQueueLane) :
    Prop :=
  policy.maxConcurrentRunsPerPack ≤ packCount leases policy.policyId ∨
    policy.maxConcurrentRunsPerLane ≤ laneCount leases policy.policyId lane

instance (leases : Leases) (policy : WorkflowPackQueuePolicy) (lane : WorkflowPackQueueLane) :
    Decidable (Full leases policy lane) :=
  inferInstanceAs (Decidable (_ ∨ _))

variable {α : Type} {lease : WorkflowPackQueueAdmissionLease} {first : Admitting α}
  {state' : AdmissionState} {β : Type} {e : Raised} {clock : LeaseClock} {leases leases' : Leases}
  {now : ℤ} {rest : α → Admitting β}

theorem outcome_bind_of_ok {a : α}
    (h : first.outcome state = (.ok a, state')) :
    (first >>= rest).outcome state = (rest a).outcome state' := by
  change (ExceptT.bindCont rest (first.run state).1) (first.run state).2 = _
  rw [show first.run state = (.ok a, state') from h]
  rfl

theorem outcome_bind_of_error
    (h : first.outcome state = (.error e, state')) :
    (first >>= rest).outcome state = (.error e, state') := by
  change (ExceptT.bindCont rest (first.run state).1) (first.run state).2 = _
  rw [show first.run state = (.error e, state') from h]
  rfl

theorem outcome_recordQueueEvent (event : QueueEvent) (rest : Unit → Admitting α)
    (state : AdmissionState) :
    (recordQueueEvent event >>= rest).outcome state =
      (rest ()).outcome { state with events := event :: state.events } :=
  rfl

/-- The snapshot changes no lease. -/
theorem outcome_persistRequestSnapshot (env : AdmissionEnv) (request : AdmissionRequest)
    (queueItemId : String) (lane : WorkflowPackQueueLane) (state : AdmissionState) :
    ∃ refs artifacts, (persistRequestSnapshotArtifactRefs env request queueItemId lane).outcome
      state = (.ok refs, { state with artifacts := artifacts }) := by
  unfold persistRequestSnapshotArtifactRefs
  cases request.taskRequest with
  | none => exact ⟨[], state.artifacts, rfl⟩
  | some taskRequest => exact ⟨_, _, rfl⟩

theorem rejected_of_full (hfull : Full state.leases policy lane) :
    RejectedForCapacity
      ((checkCapacity env request policy queueItemId lane refs).outcome state) := by
  change RejectedForCapacity (Admitting.outcome (if _ then _ else if _ then _ else _) state)
  by_cases hpack : policy.maxConcurrentRunsPerPack ≤ countActiveLeases state.leases policy none
  · rw [if_pos hpack]
    exact ⟨_, rfl⟩
  · have hlane : policy.maxConcurrentRunsPerLane ≤
        countActiveLeases state.leases policy (some lane) := hfull.resolve_left hpack
    rw [if_neg hpack, if_pos hlane]
    exact ⟨_, rfl⟩

/-- When the listed leases leave room, those that have not expired do as well. -/
theorem not_atCapacity (hpolicy : lease.policyId = policy.policyId) (hlane : lease.lane = lane)
    (hfree : ¬ Full leases policy lane) :
    ¬ atCapacity lease policy.maxConcurrentRunsPerPack policy.maxConcurrentRunsPerLane
      (clock.reclaim now lease.policyId leases) := by
  have hpack : packCount (clock.reclaim now lease.policyId leases) policy.policyId ≤
      packCount leases policy.policyId := countP_reclaim_le _
  have hlanes : laneCount (clock.reclaim now lease.policyId leases) policy.policyId lane ≤
      laneCount leases policy.policyId lane := countP_reclaim_le _
  unfold Full at hfree
  simp only [atCapacity, hpolicy, hlane, decide_eq_true_eq] at hpack hlanes ⊢
  omega

/-- One more lease fits where the limits are not reached. -/
theorem counts_upsert_le {left : Leases} (hpolicy : lease.policyId = policy.policyId)
    (hlane : lease.lane = lane)
    (hroom : ¬ atCapacity lease policy.maxConcurrentRunsPerPack policy.maxConcurrentRunsPerLane
      left) :
    packCount (left.upsert lease) policy.policyId ≤ policy.maxConcurrentRunsPerPack ∧
      laneCount (left.upsert lease) policy.policyId lane ≤ policy.maxConcurrentRunsPerLane := by
  have hpack : packCount (left.upsert lease) policy.policyId ≤
      packCount left policy.policyId + 1 := Table.countP_upsert_le ..
  have hlanes : laneCount (left.upsert lease) policy.policyId lane ≤
      laneCount left policy.policyId lane + 1 := Table.countP_upsert_le ..
  simp only [atCapacity, hpolicy, hlane, decide_eq_true_eq] at hroom
  omega

/-- With room among the leases that have not expired, `try_admit` admits, unless SQL finds the
key taken. -/
theorem tryAdmit_of_room {packLimit laneLimit : ℤ}
    (hroom : ¬ atCapacity lease packLimit laneLimit (clock.reclaim now lease.policyId leases))
    (adapter : LeaseAdapter) :
    (∃ reclaimed, adapter.tryAdmit clock now lease packLimit laneLimit leases =
      (.ok (attempt lease true (clock.reclaim now lease.policyId leases) reclaimed),
        (clock.reclaim now lease.policyId leases).upsert lease)) ∨
    adapter.tryAdmit clock now lease packLimit laneLimit leases =
      (.error (.other "IntegrityError"), leases) := by
  cases adapter with
  | memory =>
    left
    refine ⟨clock.expiredLeases now lease.policyId leases, ?_⟩
    rw [LeaseAdapter.tryAdmit, memoryTryAdmit, if_neg hroom]
  | sql order =>
    rw [LeaseAdapter.tryAdmit, sqlTryAdmit, if_neg hroom]
    by_cases htaken :
        ((clock.reclaim now lease.policyId leases).get? lease.queueItemId).isSome
    · right
      rw [if_pos htaken]
    · left
      rw [if_neg htaken]
      exact ⟨_, rfl⟩

variable (request queueItemId lane refs) in
theorem outcome_admitLease_of_ok {reported : WorkflowPackAdmissionAttempt}
    (htry : env.adapter.tryAdmit env.clock env.now lease policy.maxConcurrentRunsPerPack
      policy.maxConcurrentRunsPerLane state.leases = (.ok reported, leases'))
    (hadmitted : reported.admitted = true) :
    ∃ events, (admitLease env request policy queueItemId lane refs lease).outcome state =
      (.ok (), { state with leases := leases', events := events }) := by
  refine ⟨(reported.reclaimedLeases.map reclaimedEvent).reverse ++ state.events, ?_⟩
  have hget : (get : Admitting AdmissionState).outcome state = (.ok state, state) := rfl
  unfold admitLease
  rw [outcome_bind_of_ok hget, htry]
  change Admitting.outcome (unless reported.admitted do _) _ = _
  rw [hadmitted]
  rfl

variable (request queueItemId lane refs) in
theorem outcome_admitLease_of_error
    (htry : env.adapter.tryAdmit env.clock env.now lease policy.maxConcurrentRunsPerPack
      policy.maxConcurrentRunsPerLane state.leases = (.error e, leases')) :
    (admitLease env request policy queueItemId lane refs lease).outcome state =
      (.error e, { state with leases := leases' }) := by
  have hget : (get : Admitting AdmissionState).outcome state = (.ok state, state) := rfl
  unfold admitLease
  rw [outcome_bind_of_ok hget, htry]
  rfl

/-- What an admission leaves behind: its limits kept when it grants, and no verdict on capacity
when it fails. -/
structure Granted (policy : WorkflowPackQueuePolicy) (lane : WorkflowPackQueueLane)
    (outcome : Except Raised WorkflowPackQueueAdmissionLease × AdmissionState) : Prop where
  notRejected : ¬ RejectedForCapacity outcome
  counts : ∀ lease, outcome.1 = .ok lease →
    packCount outcome.2.leases policy.policyId ≤ policy.maxConcurrentRunsPerPack ∧
      laneCount outcome.2.leases policy.policyId lane ≤ policy.maxConcurrentRunsPerLane

theorem granted_grantAdmission (hfree : ¬ Full state.leases policy lane) :
    Granted policy lane ((grantAdmission env request policy queueItemId lane refs).outcome
      state) := by
  let lease := request.lease policy queueItemId env.timestamp lane .running refs
  have hroom : ¬ atCapacity lease policy.maxConcurrentRunsPerPack policy.maxConcurrentRunsPerLane
      (env.clock.reclaim env.now lease.policyId state.leases) := not_atCapacity rfl rfl hfree
  -- The three transitions are legal, and the two events before the lease leave the leases alone.
  obtain ⟨events, finish, hgrant⟩ : ∃ (events : List QueueEvent) (finish : QueueEvent),
      (grantAdmission env request policy queueItemId lane refs).outcome state =
        (admitLease env request policy queueItemId lane refs lease >>= fun _ =>
          recordQueueEvent finish >>= fun _ => pure lease).outcome
            { state with events := events } := ⟨_, _, rfl⟩
  rw [hgrant]
  rcases tryAdmit_of_room hroom env.adapter with ⟨reclaimed, htry⟩ | htry
  · have htry' : env.adapter.tryAdmit env.clock env.now lease policy.maxConcurrentRunsPerPack
        policy.maxConcurrentRunsPerLane ({ state with events := events } : AdmissionState).leases
        = _ := htry
    obtain ⟨events', hadmit⟩ := outcome_admitLease_of_ok request queueItemId lane refs htry' rfl
    rw [outcome_bind_of_ok hadmit, outcome_recordQueueEvent]
    refine ⟨?_, fun _ _ => counts_upsert_le rfl rfl hroom⟩
    rintro ⟨detail, hraised⟩
    cases hraised
  · have htry' : env.adapter.tryAdmit env.clock env.now lease policy.maxConcurrentRunsPerPack
        policy.maxConcurrentRunsPerLane ({ state with events := events } : AdmissionState).leases
        = _ := htry
    have hadmit := outcome_admitLease_of_error request queueItemId lane refs htry'
    rw [outcome_bind_of_error hadmit]
    refine ⟨?_, fun _ hgranted => by cases hgranted⟩
    rintro ⟨detail, hraised⟩
    cases hraised

/-- A request in an allowed lane comes to the capacity check with the stored leases as they
were. -/
theorem outcome_acquire (hready : env.notReady = none)
    (hpolicy : env.policyOf request.registration.packId request.registration.version = some policy)
    (hlane : request.requestedLane.getD policy.defaultLane ∈ policy.allowedLanes)
    (state : AdmissionState) :
    ∃ refs checked, checked.leases = state.leases ∧
      (acquireWorkflowPackQueueAdmission env request).outcome state =
        (checkCapacity env request policy s!"wpq_{env.queueHex}"
          (request.requestedLane.getD policy.defaultLane) refs).outcome checked := by
  have hensure : (ensureQueueEventStoreReady env).outcome state = (.ok (), state) := by
    rw [ensureQueueEventStoreReady, hready]
    rfl
  obtain ⟨refs, artifacts, hsnapshot⟩ := outcome_persistRequestSnapshot env request
    s!"wpq_{env.queueHex}" (request.requestedLane.getD policy.defaultLane) state
  unfold acquireWorkflowPackQueueAdmission
  rw [outcome_bind_of_ok hensure, hpolicy]
  unfold acquireUnderPolicy
  rw [outcome_bind_of_ok hsnapshot, if_pos hlane]
  refine ⟨refs, _, ?_, outcome_recordQueueEvent ..⟩
  rfl

theorem granted_checkCapacity (hfree : ¬ Full state.leases policy lane) :
    Granted policy lane
      ((checkCapacity env request policy queueItemId lane refs).outcome state) := by
  obtain ⟨hpack, hlanes⟩ := not_or.mp hfree
  change Granted _ _ (Admitting.outcome (if _ then _ else if _ then _ else _) state)
  rw [if_neg (show ¬ _ ≤ countActiveLeases state.leases policy none from hpack),
    if_neg (show ¬ _ ≤ countActiveLeases state.leases policy (some lane) from hlanes)]
  exact granted_grantAdmission hfree

end Outcomes

/-! ### Leases by their age -/

section Freshness

/-- The lease is older than its lifetime. -/
def LeaseClock.older (clock : LeaseClock) (iso : IsoFormat) (now : ℤ)
    (lease : WorkflowPackQueueAdmissionLease) : Bool :=
  iso.readsBefore lease.admittedAt (now - clock.ttlSeconds * 1000000)

/-- The number of leases of a policy that are not older than their lifetime. -/
def freshPackCount (clock : LeaseClock) (iso : IsoFormat) (now : ℤ) (leases : Leases)
    (policyId : String) : ℕ :=
  leases.list.countP fun lease => lease.policyId = policyId ∧ ¬ clock.older iso now lease

/-- The number of such leases in a lane. -/
def freshLaneCount (clock : LeaseClock) (iso : IsoFormat) (now : ℤ) (leases : Leases)
    (policyId : String) (lane : WorkflowPackQueueLane) : ℕ :=
  leases.list.countP fun lease =>
    (lease.policyId = policyId ∧ lease.lane = lane) ∧ ¬ clock.older iso now lease

variable (iso : IsoFormat) (env : AdmissionEnv) (request : AdmissionRequest)
  (policy : WorkflowPackQueuePolicy) (state : AdmissionState)

/-- A limit is reached by the leases that are not older than their lifetime. -/
def FullOfFresh (lane : WorkflowPackQueueLane) : Prop :=
  policy.maxConcurrentRunsPerPack ≤
      freshPackCount env.clock iso env.now state.leases policy.policyId ∨
    policy.maxConcurrentRunsPerLane ≤
      freshLaneCount env.clock iso env.now state.leases policy.policyId lane

instance (lane : WorkflowPackQueueLane) :
    Decidable (FullOfFresh iso env policy state lane) :=
  inferInstanceAs (Decidable (_ ∨ _))

/-- A request is turned away for capacity only by leases that are not older than their lifetime,
and a granted one leaves no more leases than the limits allow. -/
structure AdmissionSound (lane : WorkflowPackQueueLane) : Prop where
  rejected : RejectedForCapacity ((acquireWorkflowPackQueueAdmission env request).outcome state) →
    FullOfFresh iso env policy state lane
  granted : ∀ lease state',
    (acquireWorkflowPackQueueAdmission env request).outcome state = (.ok lease, state') →
      packCount state'.leases policy.policyId ≤ policy.maxConcurrentRunsPerPack ∧
        laneCount state'.leases policy.policyId lane ≤ policy.maxConcurrentRunsPerLane

variable {iso env request policy state}

/-- The capacity check decides on all leases that are stored, whatever their age. -/
theorem rejectedForCapacity_iff (hready : env.notReady = none)
    (hpolicy : env.policyOf request.registration.packId request.registration.version = some policy)
    (hlane : request.requestedLane.getD policy.defaultLane ∈ policy.allowedLanes) :
    RejectedForCapacity ((acquireWorkflowPackQueueAdmission env request).outcome state) ↔
      Full state.leases policy (request.requestedLane.getD policy.defaultLane) := by
  obtain ⟨refs, checked, hleases, hacquire⟩ := outcome_acquire hready hpolicy hlane state
  rw [hacquire, ← hleases]
  constructor
  · intro hrejected
    by_contra hfree
    exact (granted_checkCapacity hfree).notRejected hrejected
  · exact fun hfull => rejected_of_full hfull

/-- A granted request leaves no more leases than the limits allow. -/
theorem counts_of_granted (hready : env.notReady = none)
    (hpolicy : env.policyOf request.registration.packId request.registration.version = some policy)
    (hlane : request.requestedLane.getD policy.defaultLane ∈ policy.allowedLanes)
    {lease : WorkflowPackQueueAdmissionLease} {state' : AdmissionState}
    (hgranted : (acquireWorkflowPackQueueAdmission env request).outcome state =
      (.ok lease, state')) :
    packCount state'.leases policy.policyId ≤ policy.maxConcurrentRunsPerPack ∧
      laneCount state'.leases policy.policyId (request.requestedLane.getD policy.defaultLane) ≤
        policy.maxConcurrentRunsPerLane := by
  have hfree : ¬ Full state.leases policy (request.requestedLane.getD policy.defaultLane) := by
    rw [← rejectedForCapacity_iff hready hpolicy hlane, hgranted]
    nofun
  obtain ⟨refs, checked, hleases, hacquire⟩ := outcome_acquire hready hpolicy hlane state
  rw [← hleases] at hfree
  rw [hacquire] at hgranted
  have hkept : Granted policy _ (Except.ok lease, state') :=
    hgranted ▸ granted_checkCapacity hfree
  exact hkept.counts lease rfl

/-- Admission is sound exactly where the leases that fill a limit still fill one without those
that are older than their lifetime. -/
theorem admission_sound_iff (hready : env.notReady = none)
    (hpolicy : env.policyOf request.registration.packId request.registration.version = some policy)
    (hlane : request.requestedLane.getD policy.defaultLane ∈ policy.allowedLanes) :
    AdmissionSound iso env request policy state (request.requestedLane.getD policy.defaultLane) ↔
      (Full state.leases policy (request.requestedLane.getD policy.defaultLane) →
        FullOfFresh iso env policy state (request.requestedLane.getD policy.defaultLane)) := by
  constructor
  · intro hsound hfull
    exact hsound.rejected ((rejectedForCapacity_iff hready hpolicy hlane).mpr hfull)
  · intro hfresh
    constructor
    · exact fun hrejected =>
        hfresh ((rejectedForCapacity_iff hready hpolicy hlane).mp hrejected)
    · exact fun lease state' hgranted => counts_of_granted hready hpolicy hlane hgranted

end Freshness

/-! ### A pack with one place -/

/-- A request for a pack. -/
def sampleRequest : AdmissionRequest where
  registration := { packId := "p", version := "v1", workflowAuthorityOwner := "o" }
  requestedLane := none
  callerApp := none
  correlationId := none
  tenantId := none
  workflowSurface := none
  taskRequest := none
  environment := none
  callerIdentityClass := none

/-- The pack runs once at a time. -/
def singlePlace : WorkflowPackQueuePolicy where
  policyId := "q"
  workflowPackId := "p"
  workflowPackVersion := "v1"
  allowedLanes := [.batch]
  defaultLane := .batch
  maxConcurrentRunsPerPack := 1
  maxConcurrentRunsPerLane := 1

/-- A clock that reads the first and the eighth second. -/
def digitSeconds : IsoFormat where
  fromisoformat text :=
    if text = "1" then some (.aware 1000000)
    else if text = "8" then some (.aware 8000000)
    else none

/-- Leases live for three seconds; it is the ninth. -/
def sampleEnv : AdmissionEnv where
  notReady := none
  policyOf _ _ := some singlePlace
  adapter := .memory
  clock := { ttlSeconds := 3, isoformat := fun instant => toString (instant / 1000000) }
  writer := { sha256 := id, backend := .memory, dumps := fun _ => "" }
  now := 9000000
  timestamp := "9"
  queueHex := "b"
  artifactHex := "c"

/-- The stores with one lease, admitted at the given text. -/
def oneLease (admittedAt : String) : AdmissionState where
  leases := Table.empty.upsert (sampleRequest.lease singlePlace "wpq_a" admittedAt .batch
    .running [])
  artifacts := { records := Table.empty, objects := Dict.empty }
  events := []

/-- Within its lifetime the lease closes the pack rightly. -/
theorem admission_sound_of_fresh_lease :
    Full (oneLease "8").leases singlePlace .batch ∧
      AdmissionSound digitSeconds sampleEnv sampleRequest singlePlace (oneLease "8") .batch :=
  ⟨by decide, (admission_sound_iff rfl rfl (by decide)).mpr fun _ => by decide +kernel⟩

/-- Five seconds after its lifetime it still does, and it is not reclaimed. -/
theorem expired_lease_blocks :
    ¬ FullOfFresh digitSeconds sampleEnv singlePlace (oneLease "1") .batch ∧ RejectedForCapacity
        ((acquireWorkflowPackQueueAdmission sampleEnv sampleRequest).outcome (oneLease "1")) ∧
      ¬ AdmissionSound digitSeconds sampleEnv sampleRequest singlePlace (oneLease "1") .batch := by
  have hfresh : ¬ FullOfFresh digitSeconds sampleEnv singlePlace (oneLease "1") .batch := by
    decide +kernel
  have hrejected : RejectedForCapacity
      ((acquireWorkflowPackQueueAdmission sampleEnv sampleRequest).outcome (oneLease "1")) :=
    (rejectedForCapacity_iff rfl rfl (by decide)).mpr (by decide)
  exact ⟨hfresh, hrejected, fun hsound => hfresh (hsound.rejected hrejected)⟩

end LotusAI.Admission
