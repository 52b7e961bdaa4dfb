import LotusAI.ControlPlane.Calls

/-!
# The operations of the control plane

`kill_switch_control`, `prompt_rollout_control`, `model_lifecycle_control`,
`ensure_model_catalogue_seeded` and `serving_policy_control`, call by call. What tightens the
posture takes one principal: an activation, a rollback, a safety transition, a degradation, a
removal. What loosens it is requested under one credential and approved under another; the
approval hands the governed-action service a builder that rebuilds the payload, and a callback
that applies the effect.

Four of the five approvals read the row they are about before they ask for the approval, and
both builder and callback work on that row. The addition to the serving policy reads the order
in the builder, and again in the callback.
-/

namespace LotusAI.ControlPlane

open Lib Governance Provider KillSwitch Prompts Catalogue

variable (sha256 : String → String)

/-- What the operations read of the settings. -/
structure ControlSettings where
  killSwitchStoreMode : String
  promptStoreMode : String
  evaluationRuntimeStoreMode : String
  modelCatalogueStoreMode : String
  seed : SeedSettings
  deriving DecidableEq

/-- The name of an exception that no operation catches. -/
def exceptionName : PythonError → String
  | .typeError => "TypeError"
  | .valueError => "ValueError"
  | .attributeError => "AttributeError"
  | .overflowError => "OverflowError"
  | .unicodeDecodeError => "UnicodeDecodeError"
  | .jsonDecodeError => "JSONDecodeError"
  | .recursionError => "RecursionError"
  | .timeoutError => "TimeoutError"
  | .connectionError => "ConnectionError"

/-- Let an exception of the language through. -/
def orUncaught {α : Type} (result : Except PythonError α) : Operation α :=
  orRaise (result.mapError fun e => .other (exceptionName e))

/-- `require_authorized(authorize_request(...))`. -/
def authorized (caller : AuthenticatedCaller) (capability : Capability)
    (taskId : Option String) : Operation AuthorizationDecision := do
  let decision ← ask (.authorizeRequest caller.callerApp capability taskId)
  requireAuthorized decision

/-! ### Governed actions -/

/-- A governed-action service as part of an operation. -/
def service {α : Type} (program : Service α) : Operation α :=
  ExceptT.mk (Prog.interpret (fun call => Prog.perform (Call.governed call)) program.run)

/-- How an approval carries out the calls of the governed-action service: it rebuilds the
payload and applies the effect itself. -/
def carryOut (build : GovernedActionRecord → Operation Payload)
    (effect : GovernedActionRecord → Operation Unit) :
    (call : Governance.Call) → Prog Call.Answer call.Answer
  | .currentPayload _ record => (build record).run
  | .execute _ record => ExceptT.run (do effect record; return none)
  | call => Prog.perform (Call.governed call)

/-- An approval names the action, the hash it has reviewed, and its attribution. -/
structure Approval where
  actionId : String
  actionHash : String
  approvedBy : Option String
  deriving DecidableEq

/-- What an approval of an action on `target` hands to the service. No operation of the
control plane resumes an interrupted claim. -/
def Approval.args (approval : Approval) (target : String) : ApprovalArgs where
  actionId := approval.actionId
  expectedTarget := target
  expectedHash := approval.actionHash
  attribution := approval.approvedBy
  resumeInterruptedClaim := false

/-- `approve_and_execute_governed_action`, with the builder and the callback of an operation. -/
def approveGoverned (caller : AuthenticatedCaller) (domain : Domain) (approval : Approval)
    (target : String) (build : GovernedActionRecord → Operation Payload)
    (effect : GovernedActionRecord → Operation Unit) : Operation GovernedActionRecord :=
  ExceptT.mk (Prog.interpret (carryOut build effect)
    (approveDomainAction sha256 caller domain (approval.args target)).run)

def requesterIdentity (record : GovernedActionRecord) : String :=
  let requesterKeyId := record.requesterKeyId.getD "None"
  s!"{record.requesterCallerApp} (credential {requesterKeyId})"

/-! ### Kill switches -/

/-- `activate_kill_switch`. -/
def activateKillSwitch (iso : IsoFormat) (settings : ControlSettings)
    (caller : AuthenticatedCaller) (request : KillSwitchActivationRequest) :
    Operation KillSwitchActivation := do
  let decision ← ask (.authorizeRequest caller.callerApp .providerControl none)
  let hex ← ask .uuidHex
  let now ← ask .utcNowIso
  let activation ← orRaise (KillSwitch.activateKillSwitch iso settings.killSwitchStoreMode decision
    caller request hex now)
  ask (.upsertActivation activation none)
  return activation

/-- `_require_active_activation`. -/
def requireActive (switchId : String) : Operation KillSwitchActivation := do
  let found ← ask (.getActivation switchId)
  orRaise (requireActiveActivation switchId found)

variable (settings : ControlSettings) (caller : AuthenticatedCaller)

/-- `request_kill_switch_clearance`. -/
def requestKillSwitchClearance (switchId reason : String) (requestedBy : Option String) :
    Operation GovernedActionRecord := do
  let _ ← authorized caller .providerControl none
  orRaise (requireDurableStore settings.killSwitchStoreMode)
  let activation ← requireActive switchId
  service (submitGovernedAction sha256 caller .killSwitchClear switchId
    (clearancePayload activation reason) requestedBy)

/-- `action_payload.get("clear_reason") or ""`. -/
def clearReason (payload : Payload) : String :=
  (truthy (payload.get? "clear_reason").join).getD ""

/-- The payload a clearance is rebuilt to. -/
def rebuildClearance (activation : KillSwitchActivation) (record : GovernedActionRecord) :
    Operation Payload :=
  pure (clearancePayload activation (clearReason record.actionPayload))

/-- `_execute_clearance`: the whole activation is written, as it was read. -/
def executeClearance (activation : KillSwitchActivation) (record : GovernedActionRecord) :
    Operation Unit := do
  let now ← ask .utcNowIso
  ask (.upsertActivation
    (clearActivation caller (record.actionPayload.get? "clear_reason").join now activation)
    (some record))

/-- `approve_kill_switch_clearance`. -/
def approveKillSwitchClearance (switchId : String) (approval : Approval) :
    Operation GovernedActionRecord := do
  let _ ← authorized caller .providerControl none
  orRaise (requireDurableStore settings.killSwitchStoreMode)
  let activation ← requireActive switchId
  approveGoverned sha256 caller .killSwitch approval switchId (rebuildClearance activation)
    (executeClearance caller activation)

/-- The sweep of the status page: each lapsed activation is written back as it was listed. -/
def recordExpiries (iso : IsoFormat) (now : String) :
    List KillSwitchActivation → Operation (List KillSwitchActivation)
  | [] => pure []
  | activation :: rest => do
    match ← orUncaught (recordExpiryIfLapsed iso now activation) with
    | none => return activation :: (← recordExpiries iso now rest)
    | some expired => do
      ask (.upsertActivation expired none)
      return expired :: (← recordExpiries iso now rest)

/-- `build_kill_switch_status`. -/
def buildKillSwitchStatus (iso : IsoFormat) : Operation KillSwitchStatus := do
  let now ← ask .utcNowIso
  let listed ← ask .listActivations
  let activations ← recordExpiries iso now listed
  let activeCount ← orUncaught (countEnforcing iso now activations)
  return ⟨activations.countP (·.expiryRecordedAt.isSome), activeCount, activations⟩

/-! ### Prompt rollout -/

/-- `_get_required_rollout_state`. -/
def requireRolloutState (taskId : String) : Operation PromptRolloutState := do
  let found ← ask (.getPromptRolloutState taskId)
  orRaise (requiredRolloutState taskId found)

/-- `_get_required_prompt_version`. -/
def requirePromptVersion (taskId promptVersion : String) : Operation PromptDescriptor := do
  let found ← ask (.getPromptVersion taskId promptVersion)
  orRaise (requiredPromptVersion taskId promptVersion found)

variable (state : PromptRolloutState) (taskId : String) (candidatePromptVersion : Option String)
  (reason requestedBy : String)

/-- `_build_promote_transition`. -/
def buildPromoteTransition (approvedBy : String) (authorization : AuthorizationDecision) :
    Operation RolloutTransition := do
  let gate ← ask .promptApprovalGate
  let candidateVersion ← orRaise (promotable gate state candidatePromptVersion)
  let found ← ask (.getPromptVersion taskId candidateVersion)
  let candidate ← orRaise (governedCandidate taskId candidateVersion found)
  let active ← requirePromptVersion taskId state.activePromptVersion
  let hex ← ask .uuidHex
  let now ← ask .utcNowIso
  return promoteTransition state candidate active taskId requestedBy approvedBy reason
    authorization hex now

/-- `_build_rollback_transition`. -/
def buildRollbackTransition (authorization : AuthorizationDecision) :
    Operation RolloutTransition := do
  let previousVersion ← orRaise (previousActive state taskId candidatePromptVersion)
  let active ← requirePromptVersion taskId state.activePromptVersion
  let previous ← requirePromptVersion taskId previousVersion
  let hex ← ask .uuidHex
  let now ← ask .utcNowIso
  return rollbackTransition state active previous taskId requestedBy reason authorization hex now

def saveTransition (transition : RolloutTransition) (cause : Option GovernedActionRecord) :
    Operation Unit := do
  let saved ← ask (.savePromptRolloutTransition transition cause)
  orRaise saved

/-- `PromptControlActionRequest`. -/
structure PromptControlActionRequest where
  taskId : String
  actionType : PromptControlActionType
  candidatePromptVersion : Option String
  reason : String
  deriving DecidableEq

/-- `apply_prompt_control_action`: a rollback; a promotion is turned away. -/
def applyPromptControlAction (request : PromptControlActionRequest) :
    Operation RolloutTransition := do
  let authorization ← authorized caller .promptControl (some request.taskId)
  match request.actionType with
  | .promoteCandidate =>
    throw (conflict ("Prompt promotion is a governed action: submit the intent via " ++
      "promote-requests and approve it with a distinct verified credential via " ++
      "promote-approvals."))
  | .rollbackToPreviousActive =>
    orRaise (requireDurablePromptControlPlane settings.promptStoreMode
      settings.evaluationRuntimeStoreMode request.actionType)
    let state ← requireRolloutState request.taskId
    let transition ← buildRollbackTransition state request.taskId request.candidatePromptVersion
      request.reason (verifiedCallerIdentity caller) authorization
    saveTransition transition none
    return transition

/-- `PromptPromotionIntentRequest`. -/
structure PromptPromotionIntent where
  taskId : String
  candidatePromptVersion : String
  reason : String
  requestedBy : Option String
  deriving DecidableEq

/-- `request_prompt_promotion`: the promotion is tried out before it is requested. -/
def requestPromptPromotion (request : PromptPromotionIntent) : Operation GovernedActionRecord := do
  let authorization ← authorized caller .promptControl (some request.taskId)
  orRaise (requireDurablePromptControlPlane settings.promptStoreMode
    settings.evaluationRuntimeStoreMode .promoteCandidate)
  let state ← requireRolloutState request.taskId
  let _ ← buildPromoteTransition state request.taskId (some request.candidatePromptVersion)
    request.reason (verifiedCallerIdentity caller) "pending-governed-approval" authorization
  service (submitGovernedAction sha256 caller .promptPromote request.taskId
    (promotionPayload request.taskId request.candidatePromptVersion state.activePromptVersion
      request.reason) request.requestedBy)

/-- The payload a promotion is rebuilt to. -/
def rebuildPromptPromotion (state : PromptRolloutState) (record : GovernedActionRecord) :
    Operation Payload :=
  pure (promotionPayload taskId (record.actionPayload.text "candidate_prompt_version")
    state.activePromptVersion (record.actionPayload.text "reason"))

/-- `_execute_promotion` of a prompt: the versions are read now, the state was read before. -/
def executePromptPromotion (state : PromptRolloutState) (authorization : AuthorizationDecision)
    (record : GovernedActionRecord) : Operation Unit := do
  let transition ← buildPromoteTransition state taskId
    (some (record.actionPayload.text "candidate_prompt_version"))
    (record.actionPayload.text "reason") (requesterIdentity record)
    (verifiedCallerIdentity caller) authorization
  saveTransition transition (some record)

/-- `approve_prompt_promotion`. -/
def approvePromptPromotion (approval : Approval) : Operation GovernedActionRecord := do
  let authorization ← authorized caller .promptControl (some taskId)
  orRaise (requireDurablePromptControlPlane settings.promptStoreMode
    settings.evaluationRuntimeStoreMode .promoteCandidate)
  let state ← requireRolloutState taskId
  approveGoverned sha256 caller .promptRollout approval taskId
    (rebuildPromptPromotion taskId state)
    (executePromptPromotion caller taskId state authorization)

/-! ### The model catalogue -/

/-- `_require_durable_catalogue_store`. -/
def requireDurableCatalogueStore (modelCatalogueStoreMode : String) : Except Raised Unit :=
  if modelCatalogueStoreMode = "sqlalchemy" then .ok ()
  else .error (conflict ("Model lifecycle transitions require " ++
    "LOTUS_AI_MODEL_CATALOGUE_STORE_MODE=sqlalchemy so governed state changes survive restarts."))

/-- The row that was read, or 404. -/
def foundEntry (entryId : String) : Option ModelCatalogueEntry → Except Raised ModelCatalogueEntry
  | some entry => .ok entry
  | none => .error (notFound s!"No model-catalogue entry exists for `{entryId}`.")

/-- `_get_required_catalogue_entry`. -/
def requireCatalogueEntry (entryId : String) : Operation ModelCatalogueEntry := do
  let found ← ask (.getEntry entryId)
  orRaise (foundEntry entryId found)

/-- The row under a key is the same candidate, or there is none. -/
def sameCandidate (row : ModelCatalogueEntry) : Option ModelCatalogueEntry → Except Raised Unit
  | none => .ok ()
  | some existing =>
    if existing.candidateIdV2 sha256 ≠ row.candidateIdV2 sha256 then
      .error (.other "CandidateIdentityConflictError")
    else .ok ()

/-- `upsert_model_catalogue_entry`: the guard reads the row once more, and the write replaces
it whole. -/
def upsertModelCatalogueEntry (row : ModelCatalogueEntry) (cause : EntryCause) :
    Operation Unit := do
  let existing ← ask (.getEntry row.entryId)
  orRaise (sameCandidate sha256 row existing)
  ask (.upsertEntry row cause)

/-- The two writes of `_record_lifecycle_transition`. -/
def recordTransition (row : ModelCatalogueEntry) (cause : EntryCause)
    (event : ModelLifecycleTransition) : Operation Unit := do
  upsertModelCatalogueEntry sha256 row cause
  ask (.appendLifecycleEvent event)

/-- The checks in front of every operation on a row, and the row. -/
def controlledEntry (entryId : String) : Operation ModelCatalogueEntry := do
  let _ ← authorized caller .providerControl none
  orRaise (requireDurableCatalogueStore settings.modelCatalogueStoreMode)
  requireCatalogueEntry entryId

/-- `apply_model_lifecycle_transition`. -/
def applyModelLifecycleTransition (entryId : String) (toState : ModelLifecycleState)
    (reason : String) : Operation (ModelCatalogueEntry × ModelLifecycleTransition) := do
  let entry ← controlledEntry settings caller entryId
  let now ← ask .utcNowIso
  let hex ← ask .uuidHex
  let outcome ← orRaise
    (transitionStep entry toState reason (verifiedCallerIdentity caller) hex now)
  recordTransition sha256 outcome.1 (.transition outcome.2) outcome.2
  return outcome

/-- `ModelPromotionIntentRequest`. -/
structure ModelPromotionIntent where
  toState : ModelLifecycleState
  evaluationRunId : String
  reason : String
  requestedBy : Option String
  deriving DecidableEq

/-- Only a promotion into service is requested as one. -/
def requirePromotionTarget (toState : ModelLifecycleState) : Except Raised Unit :=
  if toState ∈ modelServingPromotionTargets then .ok ()
  else .error (unprocessable (s!"{toState.value} is not a serving-promotion target; apply it " ++
    "as a single-principal transition via lifecycle-transitions."))

/-- `request_model_promotion`. -/
def requestModelPromotion (entryId : String) (request : ModelPromotionIntent) :
    Operation GovernedActionRecord := do
  let entry ← controlledEntry settings caller entryId
  orRaise (requirePromotionTarget request.toState)
  orRaise (validateLifecycleEdge entry request.toState)
  let run ← ask (.getRun request.evaluationRunId)
  orRaise (requirePassVerdictEvaluationRun request.evaluationRunId run)
  service (submitGovernedAction sha256 caller .modelLifecyclePromote entryId
    (promotionActionPayload entry request.toState request.evaluationRunId request.reason)
    request.requestedBy)

/-- `ModelLifecycleState(str(action_payload.get("to_state")))`. -/
def payloadToState (payload : Payload) : Except Raised ModelLifecycleState :=
  match lifecycleStateOf? (payload.text "to_state") with
  | some state => .ok state
  | none => .error (.other "ValueError")

/-- The payload a promotion is rebuilt to, from the row read before. -/
def rebuildModelPromotion (entry : ModelCatalogueEntry) (record : GovernedActionRecord) :
    Operation Payload := do
  let toState ← orRaise (payloadToState record.actionPayload)
  return promotionActionPayload entry toState (record.actionPayload.text "evaluation_run_id")
    (record.actionPayload.text "reason")

/-- `_execute_promotion` of a model, over the row read before. -/
def executeModelPromotion (entry : ModelCatalogueEntry) (record : GovernedActionRecord) :
    Operation Unit := do
  let toState ← orRaise (payloadToState record.actionPayload)
  let run ← ask (.getRun (record.actionPayload.text "evaluation_run_id"))
  let now ← ask .utcNowIso
  let hex ← ask .uuidHex
  let outcome ← orRaise (promotionStep entry toState
    (record.actionPayload.text "evaluation_run_id") run (record.actionPayload.text "reason")
    (requesterIdentity record) (verifiedCallerIdentity caller) hex now)
  recordTransition sha256 outcome.1 (.promotion record outcome.2) outcome.2

/-- `approve_model_promotion`. -/
def approveModelPromotion (entryId : String) (approval : Approval) :
    Operation GovernedActionRecord := do
  let entry ← controlledEntry settings caller entryId
  approveGoverned sha256 caller .modelLifecycle approval entryId (rebuildModelPromotion entry)
    (executeModelPromotion sha256 caller entry)

/-- `degrade_model_capability`. -/
def degradeModelCapability (entryId dimension reason : String) : Operation ModelCatalogueEntry := do
  let entry ← controlledEntry settings caller entryId
  let now ← ask .utcNowIso
  let updated ← orRaise
    (degradationStep entryId entry dimension reason (verifiedCallerIdentity caller) now)
  upsertModelCatalogueEntry sha256 updated (.degradation dimension)
  return updated

/-- `ModelCapabilityRestoreIntentRequest`. -/
structure CapabilityRestoreIntent where
  dimension : String
  evaluationRunId : String
  reason : String
  requestedBy : Option String
  deriving DecidableEq

/-- `request_model_capability_restore`. -/
def requestModelCapabilityRestore (entryId : String) (request : CapabilityRestoreIntent) :
    Operation GovernedActionRecord := do
  let entry ← controlledEntry settings caller entryId
  let degradation ← orRaise (requiredDegradation entry request.dimension)
  let run ← ask (.getRun request.evaluationRunId)
  orRaise (requirePassVerdictEvaluationRun request.evaluationRunId run)
  service (submitGovernedAction sha256 caller .modelCapabilityRestore entryId
    (capabilityRestorePayload entry degradation request.evaluationRunId request.reason)
    request.requestedBy)

/-- The payload a restore is rebuilt to, from the row read before. -/
def rebuildCapabilityRestore (entry : ModelCatalogueEntry) (record : GovernedActionRecord) :
    Operation Payload := do
  let degradation ← orRaise (requiredDegradation entry (record.actionPayload.text "dimension"))
  return capabilityRestorePayload entry degradation
    (record.actionPayload.text "evaluation_run_id") (record.actionPayload.text "reason")

/-- `_execute_restore`, over the row read before. -/
def executeCapabilityRestore (entry : ModelCatalogueEntry) (record : GovernedActionRecord) :
    Operation Unit := do
  let dimension := record.actionPayload.text "dimension"
  let run ← ask (.getRun (record.actionPayload.text "evaluation_run_id"))
  let now ← ask .utcNowIso
  let updated ← orRaise (restoreStep entry dimension
    (record.actionPayload.text "evaluation_run_id") run now)
  upsertModelCatalogueEntry sha256 updated (.restore record dimension)

/-- `approve_model_capability_restore`. -/
def approveModelCapabilityRestore (entryId : String) (approval : Approval) :
    Operation GovernedActionRecord := do
  let entry ← controlledEntry settings caller entryId
  approveGoverned sha256 caller .modelCapability approval entryId
    (rebuildCapabilityRestore entry) (executeCapabilityRestore sha256 entry)

/-- The write of a seeding round, if there is one. -/
def writeVerdict (seed : ModelCatalogueEntry) : SeedVerdict → Operation Unit
  | .create => upsertModelCatalogueEntry sha256 seed .seeding
  | .update candidate => upsertModelCatalogueEntry sha256 candidate .seeding
  | .identityConflict => pure ()
  | .unchanged => pure ()

/-- The rounds of a seeding pass. -/
def seedRounds : List ModelCatalogueEntry → SeedReport → Operation SeedReport
  | [], report => pure report
  | seed :: rest, report => do
    let existing ← ask (.getEntry seed.entryId)
    writeVerdict sha256 seed (reconcile sha256 seed existing)
    seedRounds rest (report.count (reconcile sha256 seed existing))

/-- `ensure_model_catalogue_seeded`. -/
def ensureModelCatalogueSeeded (settings : SeedSettings) : Operation SeedReport := do
  let now ← ask .utcNowIso
  let seeds ← orUncaught (buildSeedModelCatalogueEntries settings now)
  seedRounds sha256 seeds {}

/-! ### The serving policy -/

/-- The operative order and the version it follows, of the policy that was read. -/
def operativeOrder (settings : SeedSettings) : Option ServingPolicyVersion →
    List String × Option ℕ
  | some policy => (policy.orderedEntryIds, some policy.version)
  | none => (configuredOrder settings, none)

/-- `current_serving_order`. -/
def readServingOrder (settings : SeedSettings) : Operation (List String × Option ℕ) := do
  let policy ← ask .getCurrentServingPolicy
  return operativeOrder settings policy

/-- `resolve_catalogue_entry_by_identity`. -/
def resolveIdentity (identity : String) : Operation (Option ModelCatalogueEntry) :=
  if identity.startsWith candidateIdentityV2Prefix then ask (.getEntryByCandidateId identity)
  else ask (.getEntry identity)

def savePolicy (record : ServingPolicyVersion) (cause : Option GovernedActionRecord) :
    Operation Unit := do
  let saved ← ask (.saveServingPolicyVersion record cause)
  orRaise saved

/-- `request_serving_policy_identity_add`. -/
def requestServingPolicyIdentityAdd (entryId reason : String) (requestedBy : Option String) :
    Operation GovernedActionRecord := do
  let _ ← authorized caller .providerControl none
  let _ ← ensureModelCatalogueSeeded sha256 settings.seed
  let entry ← ask (.getEntry entryId)
  let operative ← readServingOrder settings.seed
  let payload ← orRaise (requestIdentityAdd sha256 entryId reason entry operative.1)
  service (submitGovernedAction sha256 caller .servingPolicyIdentityAdd entryId payload
    requestedBy)

/-- The payload an addition is rebuilt to, from the order as it is now. -/
def rebuildAddition (settings : SeedSettings) (record : GovernedActionRecord) :
    Operation Payload := do
  let operative ← readServingOrder settings
  let entry ← resolveIdentity record.target
  orRaise (additionPayload sha256 record.target record.actionPayload operative.1 entry)

/-- `_execute` of an addition: the order is read once more. -/
def executeAddition (settings : SeedSettings) (caller : AuthenticatedCaller)
    (record : GovernedActionRecord) : Operation Unit := do
  let operative ← readServingOrder settings
  let entry ← resolveIdentity record.target
  let now ← ask .utcNowIso
  let version ← orRaise (additionVersion sha256 record.target record.actionId
    record.requesterKeyId caller.credentialKeyId now operative entry)
  savePolicy version (some record)

/-- `approve_serving_policy_identity_add`. -/
def approveServingPolicyIdentityAdd (approval : Approval) : Operation GovernedActionRecord := do
  let _ ← authorized caller .providerControl none
  -- `_approval_target`
  let named ← service (requireGovernedAction approval.actionId)
  approveGoverned sha256 caller .servingPolicy approval named.target
    (rebuildAddition sha256 settings.seed) (executeAddition sha256 settings.seed caller)

/-- `remove_serving_policy_identity`. -/
def removeServingPolicyIdentity (entryId : String) : Operation ServingPolicyVersion := do
  let _ ← authorized caller .providerControl none
  let operative ← readServingOrder settings.seed
  let resolved ← resolveIdentity entryId
  let now ← ask .utcNowIso
  let requestedByKeyId := (truthy caller.credentialKeyId).getD (verifiedCallerIdentity caller)
  let version ← orRaise
    (removalVersion sha256 entryId requestedByKeyId now operative resolved)
  savePolicy version none
  return version

/-! ### Sessions -/

/-- One request to the control plane. Every other request to the governed-action services is
`governance`; the settings are those of the process that serves the request. -/
inductive Session
  | activate (iso : IsoFormat) (settings : ControlSettings) (caller : AuthenticatedCaller)
      (request : KillSwitchActivationRequest)
  | requestClearance (settings : ControlSettings) (caller : AuthenticatedCaller)
      (switchId reason : String) (requestedBy : Option String)
  | approveClearance (settings : ControlSettings) (caller : AuthenticatedCaller)
      (switchId : String) (approval : Approval)
  | killSwitchStatus (iso : IsoFormat)
  | promptAction (settings : ControlSettings) (caller : AuthenticatedCaller)
      (request : PromptControlActionRequest)
  | requestPromptPromotion (settings : ControlSettings) (caller : AuthenticatedCaller)
      (request : PromptPromotionIntent)
  | approvePromptPromotion (settings : ControlSettings) (caller : AuthenticatedCaller)
      (taskId : String) (approval : Approval)
  | lifecycleTransition (settings : ControlSettings) (caller : AuthenticatedCaller)
      (entryId : String) (toState : ModelLifecycleState) (reason : String)
  | requestModelPromotion (settings : ControlSettings) (caller : AuthenticatedCaller)
      (entryId : String) (request : ModelPromotionIntent)
  | approveModelPromotion (settings : ControlSettings) (caller : AuthenticatedCaller)
      (entryId : String) (approval : Approval)
  | degrade (settings : ControlSettings) (caller : AuthenticatedCaller)
      (entryId dimension reason : String)
  | requestRestore (settings : ControlSettings) (caller : AuthenticatedCaller)
      (entryId : String) (request : CapabilityRestoreIntent)
  | approveRestore (settings : ControlSettings) (caller : AuthenticatedCaller)
      (entryId : String) (approval : Approval)
  | seed (settings : SeedSettings)
  | requestAdd (settings : ControlSettings) (caller : AuthenticatedCaller)
      (entryId reason : String) (requestedBy : Option String)
  | approveAdd (settings : ControlSettings) (caller : AuthenticatedCaller) (approval : Approval)
  | remove (settings : ControlSettings) (caller : AuthenticatedCaller) (entryId : String)
  | governance (session : Governance.Session)

/-- An operation whose reply is left out. -/
def Operation.discard {α : Type} (operation : Operation α) : Operation Unit := do
  let _ ← operation
  return ()

def Session.program : Session → Operation Unit
  | activate iso settings caller request =>
    (activateKillSwitch iso settings caller request).discard
  | requestClearance settings caller switchId reason requestedBy =>
    (requestKillSwitchClearance sha256 settings caller switchId reason requestedBy).discard
  | approveClearance settings caller switchId approval =>
    (approveKillSwitchClearance sha256 settings caller switchId approval).discard
  | killSwitchStatus iso => (buildKillSwitchStatus iso).discard
  | promptAction settings caller request =>
    (applyPromptControlAction settings caller request).discard
  | requestPromptPromotion settings caller request =>
    (ControlPlane.requestPromptPromotion sha256 settings caller request).discard
  | approvePromptPromotion settings caller taskId approval =>
    (ControlPlane.approvePromptPromotion sha256 settings caller taskId approval).discard
  | lifecycleTransition settings caller entryId toState reason =>
    (applyModelLifecycleTransition sha256 settings caller entryId toState reason).discard
  | requestModelPromotion settings caller entryId request =>
    (ControlPlane.requestModelPromotion sha256 settings caller entryId request).discard
  | approveModelPromotion settings caller entryId approval =>
    (ControlPlane.approveModelPromotion sha256 settings caller entryId approval).discard
  | degrade settings caller entryId dimension reason =>
    (degradeModelCapability sha256 settings caller entryId dimension reason).discard
  | requestRestore settings caller entryId request =>
    (requestModelCapabilityRestore sha256 settings caller entryId request).discard
  | approveRestore settings caller entryId approval =>
    (approveModelCapabilityRestore sha256 settings caller entryId approval).discard
  | seed settings => (ensureModelCatalogueSeeded sha256 settings).discard
  | requestAdd settings caller entryId reason requestedBy =>
    (requestServingPolicyIdentityAdd sha256 settings caller entryId reason requestedBy).discard
  | approveAdd settings caller approval =>
    (approveServingPolicyIdentityAdd sha256 settings caller approval).discard
  | remove settings caller entryId =>
    (removeServingPolicyIdentity sha256 settings caller entryId).discard
  | governance session => (service (session.program sha256)).discard

/-- A pool of sessions over given rows. -/
def pool {ι : Type} (sessions : ι → Session) (stores : Stores) :
    Machine.Config Call.Answer ι (World ι) (Except Raised Unit) where
  store := .start stores
  threads i := ((sessions i).program sha256).run

end LotusAI.ControlPlane
