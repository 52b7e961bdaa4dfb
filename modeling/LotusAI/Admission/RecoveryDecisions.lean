import LotusAI.Admission.Queue
import LotusAI.Idempotency.Service

/-!
# Decisions on the recovery of a queue item

A retry or a replay of a queue item is decided on the item's history and recorded as one more event
of it. Of the history the newest hundred events are read, and blocked decisions are events too: a
decision that was recorded before them is not counted again.
-/

namespace LotusAI.Admission

open List
open Idempotency (strip)

/-- `WorkflowPackQueueRecoveryActionType`. -/
inductive RecoveryActionType
  | retry
  | replay
  deriving DecidableEq

/-- `WorkflowPackQueueEventType`. -/
inductive HistoryEventType
  | admissionRequested
  | admissionQueued
  | admissionAdmitted
  | admissionGranted
  | admissionRejected
  | admissionDegraded
  | admissionReleased
  | admissionCancelled
  | admissionTimedOut
  | admissionReclaimed
  | recorded (action : RecoveryActionType)
  | blocked (action : RecoveryActionType)
  deriving DecidableEq

/-- `_QUEUE_EVENT_CAUSAL_ORDER`. -/
def HistoryEventType.causalOrder : HistoryEventType → ℕ
  | admissionRequested => 10
  | admissionQueued => 20
  | admissionAdmitted => 30
  | admissionGranted | admissionRejected => 40
  | admissionDegraded | admissionReleased | admissionCancelled | admissionTimedOut => 50
  | admissionReclaimed => 60
  | recorded .retry => 70
  | blocked .retry => 71
  | recorded .replay => 80
  | blocked .replay => 81

variable {δ : Type}

/-- `WorkflowPackQueueEventDescriptor`. What a decision copies from the event it is made on, beside
the pack, is `copied`: the policy id, the lane, the correlation id, the tenant, the surface and the
artifacts. -/
structure HistoryEvent (δ : Type) where
  eventId : String
  queueItemId : String
  eventType : HistoryEventType
  workflowPackId : String
  workflowPackVersion : String
  state : WorkflowPackQueueState
  copied : δ
  callerApp : Option String
  reasonCode : Option String
  sourceQueueItemId : Option String
  recoveryAttemptNumber : Option ℕ
  requestedBy : Option String
  evidenceRef : Option String
  idempotencyKey : Option String
  idempotencyRequestFingerprint : Option String
  message : String
  recordedAt : String
  deriving DecidableEq

namespace HistoryEvent

/-- The order of `list_events`. -/
def newerFirst (a b : HistoryEvent δ) : Bool :=
  (compareLex (compareOn recordedAt) (compareOn eventId) b a).isLE

/-- The order of `_queue_event_causal_order_key`. -/
def causally (a b : HistoryEvent δ) : Bool :=
  (compareLex (compareOn recordedAt) (compareLex (compareOn (·.recoveryAttemptNumber.getD 0))
    (compareLex (compareOn (·.eventType.causalOrder)) (compareOn eventId))) a b).isLE

def isTerminal (event : HistoryEvent δ) : Bool :=
  event.state ∈ [.rejected, .cancelled, .timedOut, .degraded, .completedHandoff]

end HistoryEvent

def eventsOf (item : String) (events : List (HistoryEvent δ)) : List (HistoryEvent δ) :=
  events.filter (·.queueItemId = item)

/-- `build_workflow_pack_queue_event_detail`. -/
def history (item : String) (events : List (HistoryEvent δ)) : List (HistoryEvent δ) :=
  (((eventsOf item events).insertionSort (HistoryEvent.newerFirst · ·)).take 100).insertionSort
    (HistoryEvent.causally · ·)

/-- `WorkflowPackQueueRetryPolicyDescriptor`, as far as decisions read it. -/
structure RetryPolicy where
  maxAttempts : ℕ
  retryableFailureCodes : List String

/-- What a decision reads beside the events. -/
structure RecoveryEnv where
  notReady : Option Raised
  authorize : String → AuthorizationDecision
  policyOf : String → String → Option RetryPolicy

/-- The arguments of a decision, with the id and the instant of its event. -/
structure RecoveryRequest where
  action : RecoveryActionType
  queueItemId : String
  callerApp : String
  failureCode : String
  requestedBy : String
  reason : String
  evidenceRef : String
  idempotencyKey : Option String
  idempotencyRequestFingerprint : Option String
  eventId : String
  now : String

namespace RecoveryRequest

variable (request : RecoveryRequest) (source : HistoryEvent δ)

/-- Whether an attempt is allowed. -/
def allowed (policy : RetryPolicy) (attempt : ℕ) : Bool :=
  match request.action with
  | .retry => source.state ∈ [.rejected, .timedOut, .degraded] ∧
      request.failureCode ∈ policy.retryableFailureCodes ∧ attempt < policy.maxAttempts
  | .replay => attempt ≤ 1

def reasonCode (allowed : Bool) : String :=
  match request.action, allowed with
  | .retry, true => request.failureCode
  | .retry, false => "QUEUE_RETRY_BLOCKED_BY_POLICY"
  | .replay, true => "QUEUE_REPLAY_RECORDED"
  | .replay, false => "QUEUE_REPLAY_BLOCKED_BY_POLICY"

def message (allowed : Bool) : String :=
  let pack := s!"`{source.workflowPackId}@{source.workflowPackVersion}`"
  match request.action, allowed with
  | .retry, true => s!"Workflow-pack queue retry recorded as governed evidence for {pack} after " ++
      s!"failure code `{request.failureCode}`: {request.reason}"
  | .retry, false => s!"Workflow-pack queue retry blocked by policy for {pack} after " ++
      s!"failure code `{request.failureCode}`: {request.reason}"
  | .replay, true => "Workflow-pack queue replay recorded as governed evidence for " ++
      s!"{pack}: {request.reason}"
  | .replay, false => "Workflow-pack queue replay blocked because a replay decision already " ++
      s!"exists for {pack}: {request.reason}"

/-- `_record_recovery_event`. -/
def event (callerApp : String) (allowed : Bool) (attempt : ℕ) : HistoryEvent δ where
  eventId := request.eventId
  queueItemId := source.queueItemId
  eventType := if allowed then .recorded request.action else .blocked request.action
  workflowPackId := source.workflowPackId
  workflowPackVersion := source.workflowPackVersion
  state := if allowed then .queued else source.state
  copied := source.copied
  callerApp := some callerApp
  reasonCode := some (request.reasonCode allowed)
  sourceQueueItemId := some source.queueItemId
  recoveryAttemptNumber := some attempt
  requestedBy := some request.requestedBy
  evidenceRef := some request.evidenceRef
  idempotencyKey := request.idempotencyKey
  idempotencyRequestFingerprint := request.idempotencyRequestFingerprint
  message := request.message source allowed
  recordedAt := request.now

/-- `record_workflow_pack_queue_retry_decision` and `record_workflow_pack_queue_replay_decision`:
the event that is recorded. -/
def decide (env : RecoveryEnv) (events : List (HistoryEvent δ)) :
    Except Raised (HistoryEvent δ) :=
  let authorization := env.authorize request.callerApp
  let found := history request.queueItemId events
  let attempt := found.countP (·.eventType = .recorded request.action) + 1
  if strip request.requestedBy = "" ∨ strip request.reason = "" ∨
      strip request.evidenceRef = "" then
    .error (unprocessable ("Workflow-pack queue recovery requires non-empty requested_by, " ++
      "reason, and evidence_ref."))
  else if ¬ authorization.allowed then .error (forbidden authorization.summary)
  else match env.notReady, found.isEmpty, found.reverse.find? HistoryEvent.isTerminal with
    | some e, _, _ => .error e
    | none, true, _ => .error (notFound
        s!"Unknown workflow-pack queue item history: {request.queueItemId}")
    | none, false, none => .error
        (conflict "Workflow-pack queue recovery requires a terminal queue event.")
    | none, false, some source =>
      match env.policyOf source.workflowPackId source.workflowPackVersion with
      | none => .error (conflict ("Workflow-pack queue recovery requires a declared queue " ++
          s!"policy for `{source.workflowPackId}@{source.workflowPackVersion}`."))
      | some policy => .ok (request.event source authorization.callerApp
          (request.allowed source policy attempt) attempt)

end RecoveryRequest

/-! ### Runs -/

/-- The events that are stored after a number of decisions and other events of an item, whose packs
have a policy of `m` attempts; `ok` holds of the events whenever a decision is made. -/
inductive RecoveryRun (env : RecoveryEnv) (item : String) (m : ℕ)
    (ok : List (HistoryEvent δ) → Prop) : List (HistoryEvent δ) → Prop
  | start : RecoveryRun env item m ok []
  | other {events : List (HistoryEvent δ)} (event : HistoryEvent δ)
      (run : RecoveryRun env item m ok events)
      (plain : event.queueItemId = item → ∀ action, event.eventType ≠ .recorded action)
      (policy : event.queueItemId = item → ∀ policy,
        env.policyOf event.workflowPackId event.workflowPackVersion = some policy →
        policy.maxAttempts = m) : RecoveryRun env item m ok (events ++ [event])
  | decision {events : List (HistoryEvent δ)} {event : HistoryEvent δ} (request : RecoveryRequest)
      (run : RecoveryRun env item m ok events) (condition : ok events)
      (decides : request.decide env events = .ok event) :
      RecoveryRun env item m ok (events ++ [event])

/-- The recorded decisions on an item. -/
def recordedOf (item : String) (action : RecoveryActionType) (events : List (HistoryEvent δ)) :
    List (HistoryEvent δ) :=
  (eventsOf item events).filter (·.eventType = .recorded action)

/-- Recovery of an item is bounded. -/
structure RecoveryBounded (item : String) (m : ℕ) (events : List (HistoryEvent δ)) : Prop where
  retries : (recordedOf item .retry events).length ≤ m - 1
  replays : (recordedOf item .replay events).length ≤ 1
  increasing :
    ((recordedOf item .retry events).map (·.recoveryAttemptNumber.getD 0)).Pairwise (· < ·)

section Bounds

variable {env : RecoveryEnv} {item : String} {m : ℕ} {events : List (HistoryEvent δ)}
  {event : HistoryEvent δ} {request : RecoveryRequest} {action : RecoveryActionType}

/-- A history within the window is read in full. -/
theorem countP_history (h : (eventsOf item events).length ≤ 100) :
    (history item events).countP (·.eventType = .recorded action) =
      (recordedOf item action events).length := by
  have hperm : (history item events).Perm (eventsOf item events) := by
    unfold history
    rw [take_of_length_le (by simpa using h)]
    exact (perm_insertionSort ..).trans (perm_insertionSort ..)
  rw [hperm.countP_eq, countP_eq_length_filter, recordedOf]

theorem of_decide (h : request.decide env events = .ok event) :
    ∃ source policy callerApp, source ∈ eventsOf request.queueItemId events ∧
      env.policyOf source.workflowPackId source.workflowPackVersion = some policy ∧
      let attempt := (history request.queueItemId events).countP
        (·.eventType = .recorded request.action) + 1
      event = request.event source callerApp (request.allowed source policy attempt) attempt := by
  simp only [RecoveryRequest.decide] at h
  split_ifs at h
  split at h <;> try cases h
  rename_i source _ _ hsource
  split at h <;> cases h
  rename_i policy hpolicy
  have hmem := mem_reverse.mp (mem_of_find?_eq_some hsource)
  refine ⟨source, policy, _, ?_, hpolicy, rfl⟩
  exact (mem_insertionSort _).mp (mem_of_mem_take ((mem_insertionSort _).mp hmem))

/-- What runs keep: the bounds, the numbers of the retries, and the policies of the packs. -/
structure RecoveryInvariant (env : RecoveryEnv) (item : String) (m : ℕ)
    (events : List (HistoryEvent δ)) : Prop extends RecoveryBounded item m events where
  numbers : ∀ e ∈ recordedOf item .retry events,
    e.recoveryAttemptNumber.getD 0 ≤ (recordedOf item .retry events).length
  policies : ∀ e ∈ eventsOf item events, ∀ policy,
    env.policyOf e.workflowPackId e.workflowPackVersion = some policy → policy.maxAttempts = m

/-- An event that records no decision, or the next one that is allowed. -/
theorem RecoveryInvariant.append (h : RecoveryInvariant env item m events)
    (hpolicy : event.queueItemId = item → ∀ policy,
      env.policyOf event.workflowPackId event.workflowPackVersion = some policy →
      policy.maxAttempts = m)
    (hretry : event.queueItemId = item → event.eventType = .recorded .retry →
      event.recoveryAttemptNumber = some ((recordedOf item .retry events).length + 1) ∧
        (recordedOf item .retry events).length + 1 < m)
    (hreplay : event.queueItemId = item → event.eventType = .recorded .replay →
      (recordedOf item .replay events).length = 0) :
    RecoveryInvariant env item m (events ++ [event]) := by
  have hsplit : ∀ action, recordedOf item action (events ++ [event]) = recordedOf item action events
      ++ if event.queueItemId = item ∧ event.eventType = .recorded action then [event] else [] := by
    intro action
    by_cases hitem : event.queueItemId = item <;>
      by_cases htype : event.eventType = .recorded action <;>
      simp [recordedOf, eventsOf, hitem, htype]
  refine ⟨⟨?_, ?_, ?_⟩, ?_, ?_⟩
  · have := h.retries
    rw [hsplit]
    split_ifs with hnew <;> grind
  · have := h.replays
    rw [hsplit]
    split_ifs with hnew <;> grind
  · rw [hsplit]
    split_ifs with hnew
    · obtain ⟨hnumber, -⟩ := hretry hnew.1 hnew.2
      simp only [map_append, pairwise_append]
      refine ⟨h.increasing, by simp, ?_⟩
      simp only [map_cons, map_nil, hnumber, mem_map, mem_singleton]
      rintro _ ⟨e, he, rfl⟩ _ rfl
      exact Nat.lt_succ_of_le (h.numbers e he)
    · simpa using h.increasing
  · rw [hsplit]
    have := h.numbers
    split_ifs with hnew <;> grind
  · intro e he
    simp only [eventsOf, filter_append, mem_append] at he
    rcases he with he | he
    · exact h.policies e he
    · obtain ⟨rfl, hitem⟩ : e = event ∧ e.queueItemId = item := by simpa using he
      exact hpolicy hitem

/-- In a run whose decisions are made on at most a hundred events of the item, at most `m - 1`
retries and one replay are recorded, and the numbers of the retries increase. -/
theorem recoveryBounded_of_run
    (h : RecoveryRun env item m (fun events => (eventsOf item events).length ≤ 100) events) :
    RecoveryBounded item m events := by
  suffices hinv : RecoveryInvariant env item m events from hinv.toRecoveryBounded
  induction h with
  | start => exact ⟨⟨by simp [recordedOf, eventsOf], by simp [recordedOf, eventsOf],
      by simp [recordedOf, eventsOf]⟩, by simp [recordedOf, eventsOf], by simp [eventsOf]⟩
  | other event run plain policy ih =>
    exact ih.append policy (fun hitem hnew => absurd hnew (plain hitem _))
      fun hitem hnew => absurd hnew (plain hitem _)
  | decision request run condition decides ih =>
    obtain ⟨source, policy, callerApp, hsource, hpolicy, rfl⟩ := of_decide decides
    obtain ⟨hsource, hitem⟩ := List.mem_filter.mp hsource
    have hitem : source.queueItemId = request.queueItemId := by simpa using hitem
    refine ih.append (fun hof => ?_) (fun hof hnew => ?_) fun hof hnew => ?_
    · have hof : source.queueItemId = item := hof
      exact ih.policies source (List.mem_filter.mpr ⟨hsource, by simpa using hof⟩)
    all_goals
      obtain rfl : item = request.queueItemId := hof.symm.trans hitem
      simp only [RecoveryRequest.event] at hnew ⊢
      split_ifs at hnew with hallowed
      obtain haction := HistoryEventType.recorded.inj hnew
      simp only [RecoveryRequest.allowed, haction, countP_history condition, decide_eq_true_eq]
        at hallowed ⊢
    · have hm := ih.policies source (List.mem_filter.mpr ⟨hsource, by simpa using hitem⟩) policy
        hpolicy
      exact ⟨trivial, hm ▸ hallowed.2.2⟩
    · omega

end Bounds

/-! ### A second replay -/

/-- A policy of two attempts for every pack, and callers that may decide. -/
def recoveryEnv : RecoveryEnv where
  notReady := none
  authorize callerApp := ⟨callerApp, true, ""⟩
  policyOf _ _ := some ⟨2, ["TIMEOUT"]⟩

def degradedEvent (recordedAt eventId : String) : HistoryEvent Unit :=
  ⟨eventId, "item", .admissionDegraded, "pack", "v1", .degraded, (), none, none, none, none, none,
    none, none, none, "", recordedAt⟩

def decisionAt (now : String) (action : RecoveryActionType) : RecoveryRequest :=
  ⟨action, "item", "caller", "TIMEOUT", "by", "why", "ref", none, none, "d" ++ now, now⟩

theorem RecoveryRun.others {ok : List (HistoryEvent Unit) → Prop}
    {events : List (HistoryEvent Unit)} (h : RecoveryRun recoveryEnv "item" 2 ok events)
    (recordedAt : String) (ids : List String) :
    RecoveryRun recoveryEnv "item" 2 ok (events ++ ids.map (degradedEvent recordedAt)) := by
  induction ids generalizing events with
  | nil => simpa using h
  | cons id ids ih =>
    simpa using ih (h.other (degradedEvent recordedAt id) (by simp [degradedEvent])
      (by simp [recoveryEnv]))

theorem recoveryBounded_of_retry : ∃ event,
    (decisionAt "1" .retry).decide recoveryEnv [degradedEvent "0" "e"] = .ok event ∧
      RecoveryBounded "item" 2 [degradedEvent "0" "e", event] := by
  have hdecide : (decisionAt "1" .retry).decide recoveryEnv [degradedEvent "0" "e"] =
      .ok ((decisionAt "1" .retry).event (degradedEvent "0" "e") "caller" true 1) := by
    decide +kernel
  exact ⟨_, hdecide, recoveryBounded_of_run
    ((RecoveryRun.start.others "0" ["e"]).decision _ (by decide) hdecide)⟩

/-- A degraded item with a recorded replay, and a hundred events after it. -/
def replayedLongAgo : List (HistoryEvent Unit) :=
  [degradedEvent "0" "e", (decisionAt "1" .replay).event (degradedEvent "0" "e") "caller" true 1] ++
    ((List.range 100).map fun n => String.singleton (Char.ofNat (199 - n))).map (degradedEvent "2")

/-- A replay that was recorded before the newest hundred events is recorded again. -/
theorem exists_second_replay : ∃ event,
    (decisionAt "3" .replay).decide recoveryEnv replayedLongAgo = .ok event ∧
      RecoveryRun recoveryEnv "item" 2 (fun _ => True) (replayedLongAgo ++ [event]) ∧
      (recordedOf "item" .replay (replayedLongAgo ++ [event])).length = 2 := by
  have hfirst : (decisionAt "1" .replay).decide recoveryEnv [degradedEvent "0" "e"] =
      .ok ((decisionAt "1" .replay).event (degradedEvent "0" "e") "caller" true 1) := by
    decide +kernel
  have hsecond : (decisionAt "3" .replay).decide recoveryEnv replayedLongAgo =
      .ok ((decisionAt "3" .replay).event (degradedEvent "2" (String.singleton (Char.ofNat 199)))
        "caller" true 1) := by
    decide +kernel
  have hrun : RecoveryRun recoveryEnv "item" 2 (fun _ => True) replayedLongAgo :=
    ((RecoveryRun.start.others "0" ["e"]).decision _ trivial hfirst).others "2" _
  exact ⟨_, hsecond, hrun.decision _ trivial hsecond, by decide +kernel⟩

end LotusAI.Admission
