import LotusAI.Governance.Actions
import LotusAI.Lib.Datetime
import LotusAI.Provider.Records

/-!
# Kill switches

`kill_switch_control`: an operator stops live execution in a scope, at once and alone; the
stop ends when it is cleared or when its expiry has passed. Every live execution and every
new submission reads all activations and refuses where one of them enforces.

An activation keeps its expiry as the text it was requested with. Activation accepts a
text that can be read as a date-time; enforcement compares what it reads with the current
instant, and the comparison has an answer only if both are of one kind.
-/

namespace LotusAI.KillSwitch

open Lib Governance Provider

/-! ### Records -/

/-- `KillSwitchSemantics`. -/
inductive KillSwitchSemantics
  | hardKill
  | drain
  deriving DecidableEq

/-- The stored text of a semantics. -/
def KillSwitchSemantics.value : KillSwitchSemantics → String
  | hardKill => "HARD_KILL"
  | drain => "DRAIN"

/-- `KillSwitchScope`. -/
inductive KillSwitchScope
  | allLiveText
  | provider
  | modelRevision
  | task
  | tenant
  | callerApp
  deriving DecidableEq

/-- The stored text of a scope. -/
def KillSwitchScope.value : KillSwitchScope → String
  | allLiveText => "ALL_LIVE_TEXT"
  | provider => "PROVIDER"
  | modelRevision => "MODEL_REVISION"
  | task => "TASK"
  | tenant => "TENANT"
  | callerApp => "CALLER_APP"

/-- `TARGETLESS_KILL_SWITCH_SCOPES`. -/
def targetlessKillSwitchScopes : List KillSwitchScope := [.allLiveText]

/-- `KillSwitchActivationRecord`. -/
structure KillSwitchActivation where
  switchId : String
  scope : KillSwitchScope
  semantics : KillSwitchSemantics
  target : Option String
  reason : String
  requestedBy : String
  approvedBy : Option String
  activatedAt : String
  expiresAtUtc : Option String
  expiryRecordedAt : Option String
  clearedAt : Option String
  clearedBy : Option String
  clearReason : Option String
  deriving DecidableEq

/-- `KillSwitchActivationRequest`. -/
structure KillSwitchActivationRequest where
  scope : KillSwitchScope
  semantics : KillSwitchSemantics
  target : Option String
  reason : String
  expiresAtUtc : Option String
  deriving DecidableEq

/-- The stored activations by switch id. -/
abbrev Activations := Dict String KillSwitchActivation

namespace Activations

/-- `upsert_activation`. -/
def upsertActivation (store : Activations) (activation : KillSwitchActivation) : Activations :=
  store.insert activation.switchId activation

/-- `list_activations`: newest first. -/
def listActivations (store : Activations) : List KillSwitchActivation :=
  store.values.insertionSort fun a b => b.activatedAt ≤ a.activatedAt

/-- The listing is exactly what is stored. -/
theorem listActivations_mem {store : Activations} {activation : KillSwitchActivation} :
    activation ∈ store.listActivations ↔ ∃ switchId, store.get? switchId = some activation := by
  rw [listActivations, List.mem_insertionSort, Dict.mem_values_iff]

end Activations

/-! ### Activation -/

/-- `require_authorized`, of a decision already made. -/
def requireAllowed (decision : AuthorizationDecision) : Except Raised Unit :=
  if decision.allowed then .ok () else .error (forbidden decision.summary)

/-- `_require_durable_store`. -/
def requireDurableStore (killSwitchStoreMode : String) : Except Raised Unit :=
  if killSwitchStoreMode = "sqlalchemy" then .ok ()
  else .error (conflict ("Kill-switch actions require " ++
    "LOTUS_AI_KILL_SWITCH_STORE_MODE=sqlalchemy so activations survive restarts and are " ++
    "shared across replicas."))

/-- A targetless scope takes no target; every other scope takes one that is not empty. -/
def requireTarget (scope : KillSwitchScope) (target : Option String) : Except Raised Unit :=
  if scope ∈ targetlessKillSwitchScopes then
    if target ≠ none then
      .error (unprocessable s!"Scope {scope.value} is targetless; do not supply a target.")
    else .ok ()
  else if truthy target = none then
    .error (unprocessable s!"Scope {scope.value} requires an explicit target.")
  else .ok ()

/-- `_require_valid_utc_instant`: only a text that cannot be read is refused. -/
def requireValidUtcInstant (iso : IsoFormat) (value : String) : Except Raised Unit :=
  match iso.parseUtc value with
  | .ok _ => .ok ()
  | .error .valueError => .error (unprocessable "expires_at_utc must be a UTC ISO-8601 instant.")
  | .error _ => .error (.other "Exception")

/-- The expiry of a request, if it names one. -/
def requireValidExpiry (iso : IsoFormat) (expiresAtUtc : Option String) : Except Raised Unit :=
  match expiresAtUtc with
  | none => .ok ()
  | some value => requireValidUtcInstant iso value

/-- `verified_caller_identity`. -/
def verifiedCallerIdentity (caller : AuthenticatedCaller) : String :=
  match truthy caller.credentialKeyId with
  | some keyId => s!"{caller.callerApp} (credential {keyId})"
  | none => s!"{caller.callerApp} ({caller.trustSource})"

/-- `activate_kill_switch`: the activation it stores, or why it refuses. The identifier is
`ksw_` and sixteen random hexadecimal digits. -/
def activateKillSwitch (iso : IsoFormat) (killSwitchStoreMode : String)
    (decision : AuthorizationDecision) (caller : AuthenticatedCaller)
    (request : KillSwitchActivationRequest) (hex now : String) :
    Except Raised KillSwitchActivation := do
  requireAllowed decision
  requireDurableStore killSwitchStoreMode
  requireTarget request.scope request.target
  requireValidExpiry iso request.expiresAtUtc
  return {
    switchId := "ksw_" ++ hex
    scope := request.scope
    semantics := request.semantics
    target := request.target
    reason := request.reason
    requestedBy := verifiedCallerIdentity caller
    approvedBy := none
    activatedAt := now
    expiresAtUtc := request.expiresAtUtc
    expiryRecordedAt := none
    clearedAt := none
    clearedBy := none
    clearReason := none }

/-! ### Clearance -/

/-- `_require_active_activation`, of what was read at the switch. -/
def requireActiveActivation (switchId : String) (found : Option KillSwitchActivation) :
    Except Raised KillSwitchActivation :=
  match found with
  | none => .error (notFound s!"No kill-switch activation exists for `{switchId}`.")
  | some activation =>
    if activation.clearedAt ≠ none then
      .error (conflict s!"Kill-switch activation `{switchId}` is already cleared.")
    else .ok activation

/-- `_clearance_payload`: pins the activation by its identity and its instant. -/
def clearancePayload (activation : KillSwitchActivation) (reason : String) : Payload :=
  (((((((Dict.empty.insert "action_type" (some GovernedActionType.killSwitchClear.value)).insert
    "switch_id" (some activation.switchId)).insert
    "scope" (some activation.scope.value)).insert
    "semantics" (some activation.semantics.value)).insert
    "target" activation.target).insert
    "activated_at" (some activation.activatedAt)).insert
    "clear_reason" (some reason))

/-- The record `_execute_clearance` writes over the one that was read. -/
def clearActivation (caller : AuthenticatedCaller) (clearReason : Option String) (now : String)
    (activation : KillSwitchActivation) : KillSwitchActivation :=
  let credentialKeyId := caller.credentialKeyId.getD "None"
  { activation with
    clearedAt := some now
    clearedBy := some s!"{caller.callerApp} (credential {credentialKeyId})"
    clearReason := clearReason }

/-! ### Enforcement -/

section Enforcement

variable (iso : IsoFormat)

/-- Whether an expiry lies after the current instant:
`_parse_utc(expires_at_utc) > _parse_utc(now)`. -/
def outlasts (expiresAtUtc now : String) : Except PythonError Bool := do
  let expiry ← iso.parseUtc expiresAtUtc
  let instant ← iso.parseUtc now
  instant.lt expiry

/-- `_is_enforcing`. -/
def isEnforcing (activation : KillSwitchActivation) (now : String) : Except PythonError Bool :=
  if activation.clearedAt ≠ none then .ok false
  else match activation.expiresAtUtc with
    | some expiresAtUtc => outlasts iso expiresAtUtc now
    | none => .ok true

/-- `ProviderExecutionRequest`, as far as the switches read it. -/
structure ScopedRequest where
  taskId : String
  tenantId : Option String
  callerApp : String
  deriving DecidableEq

variable (config : ExecutionConfig) (request : ScopedRequest)

/-- `_matches`, under the resolved execution config. -/
def matchesRequest (activation : KillSwitchActivation) : Bool :=
  match activation.scope with
  | .allLiveText => true
  | .provider => activation.target = config.providerId
  | .modelRevision => activation.target = (truthy config.modelVersion).or config.modelId
  | .task => activation.target = some request.taskId
  | .tenant => request.tenantId.isSome && activation.target = request.tenantId
  | .callerApp => activation.target = some request.callerApp

/-- What leaves the enforcement of the switches. -/
inductive EnforcementError
  | provider (error : ProviderError)
  | http (statusCode : ℕ) (detail : String)
  | uncaught (exception : PythonError)
  deriving DecidableEq

/-- The target named in a refusal, if there is one. -/
def targetNote (activation : KillSwitchActivation) : String :=
  match truthy activation.target with
  | some target => s!" target `{target}`"
  | none => ""

/-- The refusal of a live execution. -/
def refusal (activation : KillSwitchActivation) : EnforcementError :=
  .provider ⟨.killSwitchActive,
    s!"Kill switch `{activation.switchId}` is active for scope " ++
    s!"`{activation.scope.value}`{targetNote activation}: {activation.reason}"⟩

/-- The refusal of a new submission. -/
def intakeRefusal (activation : KillSwitchActivation) : EnforcementError :=
  .http 503 (s!"{FailureCategory.killSwitchActive.value}: kill switch " ++
    s!"`{activation.switchId}` ({activation.semantics.value}) is active for " ++
    s!"scope `{activation.scope.value}`{targetNote activation}; new async intake is " ++
    "refused until it clears.")

/-- The loop both enforcements run: the first activation that enforces and stands against
the request refuses it. An exception of the comparison leaves the loop. -/
def refuseWhere (against : KillSwitchActivation → Bool)
    (refuse : KillSwitchActivation → EnforcementError) (now : String) :
    List KillSwitchActivation → Except EnforcementError Unit
  | [] => .ok ()
  | activation :: rest =>
    match isEnforcing iso activation now with
    | .error e => .error (.uncaught e)
    | .ok false => refuseWhere against refuse now rest
    | .ok true =>
      if against activation then .error (refuse activation)
      else refuseWhere against refuse now rest

/-- An activation in scope of the request that no permit excuses. -/
def standsAgainst (drainCompletionPermitted : Bool) (activation : KillSwitchActivation) : Bool :=
  matchesRequest config request activation &&
    !(activation.semantics = .drain && drainCompletionPermitted)

/-- `enforce_kill_switches`. -/
def enforceKillSwitches (drainCompletionPermitted : Bool) (now : String) (store : Activations) :
    Except EnforcementError Unit :=
  refuseWhere iso (standsAgainst config request drainCompletionPermitted) refusal now
    store.listActivations

/-- `enforce_kill_switch_intake`: under either semantics. -/
def enforceKillSwitchIntake (now : String) (store : Activations) : Except EnforcementError Unit :=
  refuseWhere iso (matchesRequest config request) intakeRefusal now store.listActivations

/-! ### The status page -/

/-- `_record_expiry_if_lapsed`: the record to write, if the expiry has passed unrecorded. -/
def recordExpiryIfLapsed (now : String) (activation : KillSwitchActivation) :
    Except PythonError (Option KillSwitchActivation) :=
  if activation.clearedAt ≠ none ∨ activation.expiryRecordedAt ≠ none then .ok none
  else match activation.expiresAtUtc with
    | none => .ok none
    | some expiresAtUtc => do
      if ← outlasts iso expiresAtUtc now then return none
      else return some { activation with expiryRecordedAt := some now }

/-- The sweep: lapsed activations are written back one by one; an exception leaves the
writes before it in place. -/
def sweepExpiries (now : String) : List KillSwitchActivation → Activations →
    Except PythonError (List KillSwitchActivation) × Activations
  | [], store => (.ok [], store)
  | activation :: rest, store =>
    match recordExpiryIfLapsed iso now activation with
    | .error e => (.error e, store)
    | .ok none =>
      let (swept, store') := sweepExpiries now rest store
      (swept.map (activation :: ·), store')
    | .ok (some expired) =>
      let (swept, store') := sweepExpiries now rest (store.upsertActivation expired)
      (swept.map (expired :: ·), store')

/-- `KillSwitchStatusResponse`. -/
structure KillSwitchStatus where
  expiredCount : ℕ
  activeCount : ℕ
  activations : List KillSwitchActivation
  deriving DecidableEq

def countEnforcing (now : String) : List KillSwitchActivation → Except PythonError ℕ
  | [] => .ok 0
  | activation :: rest => do
    let enforcing ← isEnforcing iso activation now
    let others ← countEnforcing now rest
    return (if enforcing then 1 else 0) + others

/-- `build_kill_switch_status`. -/
def buildKillSwitchStatus (now : String) (store : Activations) :
    Except PythonError KillSwitchStatus × Activations :=
  match sweepExpiries iso now store.listActivations store with
  | (.error e, store') => (.error e, store')
  | (.ok activations, store') =>
    (do
      let activeCount ← countEnforcing iso now activations
      return ⟨activations.countP (·.expiryRecordedAt.isSome), activeCount, activations⟩,
      store')

end Enforcement

end LotusAI.KillSwitch
