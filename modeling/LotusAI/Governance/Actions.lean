import LotusAI.Http
import LotusAI.Lib.CanonicalJson

/-!
# Governed actions and what their services call

A governed action is requested under one credential and approved under another;
its record carries the evidence of both steps. The records live in the
provider-operations store, where every change after the first write is a
compare-and-set on the status and, for a live claim, on its claim instant.

The store is modelled together with what an observer of it would have seen: who
was handed which new identifier, which lookups found nothing, what the clock
answered, and the history of writes. Only `actions` is read back by the
services; the rest states properties of whole runs.
-/

namespace LotusAI.Governance

open Lib Option Prod

/-! ### Records -/

/-- `GovernedActorClass`. -/
inductive GovernedActorClass
  | humanApproved
  | systemOriginated
  deriving DecidableEq

/-- `GovernedActionType`. -/
inductive GovernedActionType
  | killSwitchClear
  | promptPromote
  | providerOperationsReset
  | modelLifecyclePromote
  | modelCapabilityRestore
  | dataErasure
  | servingPolicyIdentityAdd
  | asyncQueueRecovery
  | budgetReconciliation
  | claimRelease
  deriving DecidableEq

/-- The stored text of an action type. -/
def GovernedActionType.value : GovernedActionType → String
  | killSwitchClear => "KILL_SWITCH_CLEAR"
  | promptPromote => "PROMPT_PROMOTE"
  | providerOperationsReset => "PROVIDER_OPERATIONS_RESET"
  | modelLifecyclePromote => "MODEL_LIFECYCLE_PROMOTE"
  | modelCapabilityRestore => "MODEL_CAPABILITY_RESTORE"
  | dataErasure => "DATA_ERASURE"
  | servingPolicyIdentityAdd => "SERVING_POLICY_IDENTITY_ADD"
  | asyncQueueRecovery => "ASYNC_QUEUE_RECOVERY"
  | budgetReconciliation => "BUDGET_RECONCILIATION"
  | claimRelease => "CLAIM_RELEASE"

/-- `HUMAN_GOVERNED_ACTION_TYPES`. -/
def humanGovernedActionTypes : List GovernedActionType :=
  [.killSwitchClear, .promptPromote, .providerOperationsReset, .modelLifecyclePromote,
    .modelCapabilityRestore, .dataErasure, .servingPolicyIdentityAdd, .budgetReconciliation,
    .claimRelease]

/-- `GovernedActionStatus`. -/
inductive GovernedActionStatus
  | pending
  | claimed
  | executed
  | superseded
  deriving DecidableEq

/-- The stored text of a status. -/
def GovernedActionStatus.value : GovernedActionStatus → String
  | pending => "PENDING"
  | claimed => "CLAIMED"
  | executed => "EXECUTED"
  | superseded => "SUPERSEDED"

/-- An action payload: `dict[str, str | None]`. -/
abbrev Payload := Dict String (Option String)

/-- A result payload; values that are not texts stand as their JSON text. -/
abbrev ResultPayload := Dict String String

/-- `str(payload.get(key))`: a missing entry and a null both print as `None`. -/
def Payload.text (payload : Payload) (key : String) : String :=
  match payload.get? key with
  | some (some text) => text
  | _ => "None"

/-- `compute_governed_action_hash`, over the digest `sha256` of a text. -/
def computeGovernedActionHash (sha256 : String → String) (payload : Payload) : String :=
  sha256 (canonicalJson payload)

/-- The part of a governed action that its request fixes. -/
structure GovernedActionRequest where
  actionId : String
  actionType : GovernedActionType
  actorClass : GovernedActorClass
  target : String
  actionHash : String
  actionPayload : Payload
  requesterCallerApp : String
  requesterTrustSource : String
  requesterKeyId : Option String
  requesterAttribution : Option String
  requestedAt : String
  deriving DecidableEq

/-- `GovernedActionRecord`: the request and the evidence added to it since. -/
structure GovernedActionRecord extends GovernedActionRequest where
  status : GovernedActionStatus
  approverCallerApp : Option String := none
  approverTrustSource : Option String := none
  approverKeyId : Option String := none
  approverAttribution : Option String := none
  claimedAt : Option String := none
  resultPayload : Option ResultPayload := none
  approvedAt : Option String := none
  executedAt : Option String := none
  supersededByActionId : Option String := none
  deriving DecidableEq

/-- A request as it is first stored: nothing has been approved or executed. -/
def GovernedActionRequest.pending (request : GovernedActionRequest) : GovernedActionRecord :=
  { request with status := .pending }

/-- `AuthenticatedCaller`, as far as governed actions read it. -/
structure AuthenticatedCaller where
  callerApp : String
  trustSource : String
  credentialKeyId : Option String
  deriving DecidableEq

/-- The domains that put their own actions under dual control. -/
inductive Domain
  | killSwitch
  | promptRollout
  | providerOperations
  | modelLifecycle
  | modelCapability
  | dataErasure
  | servingPolicy
  | budgetReconciliation
  deriving DecidableEq

/-- What the payload builder of a domain writes under `action_type`. All but one
write their governed action type; a provider-operations reset writes which reset
it is. -/
def Domain.payloadTags : Domain → List String
  | killSwitch => [GovernedActionType.killSwitchClear.value]
  | promptRollout => [GovernedActionType.promptPromote.value]
  | providerOperations => ["RESET_ALL_QUOTAS", "RESET_QUOTA_SCOPE", "RESET_BUDGET",
      "RESET_DEGRADATION", "RESET_ALL_PROVIDER_OPERATIONS"]
  | modelLifecycle => [GovernedActionType.modelLifecyclePromote.value]
  | modelCapability => [GovernedActionType.modelCapabilityRestore.value]
  | dataErasure => [GovernedActionType.dataErasure.value]
  | servingPolicy => [GovernedActionType.servingPolicyIdentityAdd.value]
  | budgetReconciliation => [GovernedActionType.budgetReconciliation.value]

/-- No domain builds the payload of a claim release. -/
theorem Domain.claimRelease_notMem_payloadTags (domain : Domain) :
    GovernedActionType.claimRelease.value ∉ domain.payloadTags := by
  cases domain <;> decide

/-! ### The observed store -/

/-- What an observer of the store sees happen. -/
inductive Event (ι : Type)
  /-- A session stored a new action. -/
  | stored (session : ι) (record : GovernedActionRecord)
  /-- A session won a compare-and-set. -/
  | moved (session : ι) (before after : GovernedActionRecord)
  /-- A session entered its execute callback. -/
  | started (session : ι) (record : GovernedActionRecord)

def Event.write? {ι : Type} : Event ι → Option (ι × GovernedActionRecord)
  | stored i record => some (i, record)
  | moved i _ after => some (i, after)
  | started _ _ => none

/-- The governed actions, and what was observed of them. -/
structure World (ι : Type) where
  actions : Dict String GovernedActionRecord
  /-- New identifiers and the sessions they were handed to. -/
  issued : List (String × ι)
  /-- Lookups that found nothing. -/
  absentReads : List (ι × String)
  /-- What the clock answered, newest first. -/
  clockReads : List String
  /-- Writes and callback starts, newest first. -/
  history : List (Event ι)

namespace World

variable {ι : Type}

/-- Before anything happened. -/
def initial : World ι := ⟨.empty, [], [], [], []⟩

/-- The record a compare-and-set would replace, where it would succeed. -/
def admits (w : World ι) (actionId : String) (expectedStatus : GovernedActionStatus)
    (expectedClaimedAt : Option String) : Option GovernedActionRecord :=
  match w.actions.get? actionId with
  | none => none
  | some current =>
    if current.status ≠ expectedStatus then none
    else if expectedClaimedAt.isSome ∧ current.claimedAt ≠ expectedClaimedAt then none
    else some current

/-- A session wins a compare-and-set. -/
def move (w : World ι) (i : ι) (actionId : String) (before after : GovernedActionRecord) :
    World ι :=
  { w with actions := w.actions.insert actionId after, history := .moved i before after :: w.history }

/-- A session stores a new action. -/
def store (w : World ι) (i : ι) (record : GovernedActionRecord) : World ι :=
  { w with actions := w.actions.insert record.actionId record,
           history := .stored i record :: w.history }

/-- A session enters its callback. -/
def start (w : World ι) (i : ι) (record : GovernedActionRecord) : World ι :=
  { w with history := .started i record :: w.history }

/-- A lookup finds nothing. -/
def noteAbsent (w : World ι) (i : ι) (actionId : String) : World ι :=
  { w with absentReads := (i, actionId) :: w.absentReads }

/-- A new identifier is handed out. -/
def issue (w : World ι) (i : ι) (actionId : String) : World ι :=
  { w with issued := (actionId, i) :: w.issued }

def tick (w : World ι) (now : String) : World ι := { w with clockReads := now :: w.clockReads }

def pendingMatches (w : World ι) (actionType : GovernedActionType) (target : String) :
    List GovernedActionRecord :=
  w.actions.values.filter fun record =>
    record.actionType = actionType ∧ record.target = target ∧ record.status = .pending

theorem admits_eq_some {w : World ι} {actionId : String} {expectedStatus : GovernedActionStatus}
    {expectedClaimedAt : Option String} {before : GovernedActionRecord}
    (h : w.admits actionId expectedStatus expectedClaimedAt = some before) :
    w.actions.get? actionId = some before ∧ before.status = expectedStatus ∧
      (expectedClaimedAt.isSome → before.claimedAt = expectedClaimedAt) := by
  unfold admits at h
  split at h
  · cases h
  · rename_i current hcurrent
    split_ifs at h with hstatus hclaimed
    cases h
    push Not at hstatus hclaimed
    exact ⟨hcurrent, hstatus, hclaimed⟩

end World

/-! ### Calls -/

/-- One call of a governed-action service. -/
inductive Call
  | getGovernedAction (actionId : String)
  | getPendingGovernedAction (actionType : GovernedActionType) (target : String)
  | transitionGovernedAction (actionId : String) (expectedStatus : GovernedActionStatus)
      (record : GovernedActionRecord) (expectedClaimedAt : Option String)
  | upsertGovernedAction (record : GovernedActionRecord)
  | authorizeRequest (callerApp : String)
  | utcNowIso
  /-- Read the clock until it shows something else than `stale`. -/
  | utcNowIsoUnequal (stale : String)
  /-- `gact_` and sixteen random hexadecimal digits. -/
  | newActionId
  /-- A domain rebuilds the payload of an action from its live state. -/
  | currentPayload (domain : Domain) (record : GovernedActionRecord)
  /-- The execute callback is entered. -/
  | callbackStarts (record : GovernedActionRecord)
  /-- A domain applies its effect; the answer is its result payload. -/
  | execute (domain : Domain) (record : GovernedActionRecord)

@[reducible] def Call.Answer : Call → Type
  | getGovernedAction _ => Option GovernedActionRecord
  | getPendingGovernedAction _ _ => Option GovernedActionRecord
  | transitionGovernedAction _ _ _ _ => Bool
  | upsertGovernedAction _ => Unit
  | authorizeRequest _ => AuthorizationDecision
  | utcNowIso => String
  | utcNowIsoUnequal _ => String
  | newActionId => String
  | currentPayload _ _ => Except Raised Payload
  | callbackStarts _ => Unit
  | execute _ _ => Except Raised (Option ResultPayload)

/-- What the environment contributes to a call. -/
inductive Choice
  | store
  /-- Which of several matching rows a query yields. -/
  | row (index : ℕ)
  | authorization (decision : AuthorizationDecision)
  | time (now : String)
  | uuid (hex : String)
  | payload (result : Except Raised Payload)
  | result (result : Except Raised (Option ResultPayload))

variable {ι : Type}

/-- The payload a domain rebuilds carries one of its own tags. -/
def Domain.builds (domain : Domain) (payload : Payload) : Bool :=
  domain.payloadTags.any fun tag => payload.get? "action_type" = some (some tag)

/-- The effect of a call of session `i`. `none` where the environment's choice is of
the wrong kind or out of its range. -/
def Call.exec (i : ι) (w : World ι) : (call : Call) → Choice → Option (call.Answer × World ι)
  | getGovernedAction actionId, .store =>
    match w.actions.get? actionId with
    | some record => some (some record, w)
    | none => some (none, w.noteAbsent i actionId)
  -- the memory store yields the first match, SQL whichever row comes first
  | getPendingGovernedAction actionType target, .row index =>
    let found := w.pendingMatches actionType target
    some (found[index % found.length]?, w)
  | transitionGovernedAction actionId expectedStatus record expectedClaimedAt, .store =>
    match w.admits actionId expectedStatus expectedClaimedAt with
    | some before => some (true, w.move i actionId before record)
    | none => some (false, w)
  | upsertGovernedAction record, .store => some ((), w.store i record)
  | authorizeRequest _, .authorization decision => some (decision, w)
  | utcNowIso, .time now => some (now, w.tick now)
  | utcNowIsoUnequal stale, .time now => if now = stale then none else some (now, w.tick now)
  -- random identifiers do not repeat
  | newActionId, .uuid hex =>
    if "gact_" ++ hex ∈ w.issued.map Prod.fst then none
    else some ("gact_" ++ hex, w.issue i ("gact_" ++ hex))
  | currentPayload domain _, .payload (.ok payload) =>
    if domain.builds payload then some (.ok payload, w) else none
  | currentPayload _ _, .payload (.error e) => some (.error e, w)
  | callbackStarts record, .store => some ((), w.start i record)
  | execute _ _, .result result => some (result, w)
  | _, _ => none

/-- What a call may answer and how it may leave the store. -/
def Call.Outcome (i : ι) (w w' : World ι) : (call : Call) → call.Answer → Prop
  | getGovernedAction actionId, answer =>
    answer = w.actions.get? actionId ∧
      w' = if answer = none then w.noteAbsent i actionId else w
  | getPendingGovernedAction actionType target, answer =>
    (∀ record, answer = some record → record ∈ w.pendingMatches actionType target) ∧ w' = w
  | transitionGovernedAction actionId expectedStatus record expectedClaimedAt, won =>
    (won = false ∧ w' = w) ∨
      won = true ∧ ∃ before, w.admits actionId expectedStatus expectedClaimedAt = some before ∧
        w' = w.move i actionId before record
  | upsertGovernedAction record, _ => w' = w.store i record
  | authorizeRequest _, _ => w' = w
  | utcNowIso, now => w' = w.tick now
  | utcNowIsoUnequal stale, now => now ≠ stale ∧ w' = w.tick now
  | newActionId, actionId => actionId ∉ w.issued.map Prod.fst ∧ w' = w.issue i actionId
  | currentPayload domain _, result =>
    (∀ payload, result = .ok payload → domain.builds payload) ∧ w' = w
  | callbackStarts record, _ => w' = w.start i record
  | execute _ _, _ => w' = w

theorem Call.outcome_of_exec {i : ι} {w w' : World ι} {call : Call} {choice : Choice}
    {r : call.Answer} (h : call.exec i w choice = some (r, w')) : call.Outcome i w w' r := by
  cases call <;> cases choice <;> simp only [exec, reduceCtorEq] at h
  case getGovernedAction.store =>
    split at h <;> rename_i hread <;>
      cases h <;> simp [Outcome, hread]
  case getPendingGovernedAction.row =>
    cases h
    exact ⟨fun record hrecord => List.mem_of_getElem? hrecord, rfl⟩
  case transitionGovernedAction.store =>
    split at h <;> cases h
    · exact .inr ⟨rfl, _, ‹_›, rfl⟩
    · exact .inl ⟨rfl, rfl⟩
  case utcNowIso.time =>
    cases h
    rfl
  case utcNowIsoUnequal.time | newActionId.uuid =>
    split_ifs at h with hfresh
    cases h
    exact ⟨hfresh, rfl⟩
  case currentPayload.payload result =>
    cases result <;> dsimp only at h
    · cases h
      exact ⟨nofun, rfl⟩
    · split_ifs at h with hbuilds
      cases h
      exact ⟨fun payload hpayload => Except.ok.inj hpayload ▸ hbuilds, rfl⟩
  all_goals exact (congrArg snd (some.inj h)).symm

/-- The governed-action store as a machine shared by the sessions `ι`. -/
def machine (ι : Type) : Machine Call.Answer ι (World ι) Choice where
  exec i w call choice := call.exec i w choice

/-- A service: a program over these calls that may raise. -/
abbrev Service (α : Type) := Prog.Raising Call.Answer Raised α

/-- Perform a call. -/
abbrev ask (call : Call) : Service call.Answer := Prog.ask call

end LotusAI.Governance
