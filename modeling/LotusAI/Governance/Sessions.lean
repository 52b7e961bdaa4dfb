import LotusAI.Governance.Actions

/-!
# The governed-action services

`governed_action_control` and `governed_claim_release`: a request is stored as a
pending action; an approval under another credential claims it, runs the domain's
callback and finalizes the record; a claim whose owner has disappeared is released
by a governed action of its own.
-/

namespace LotusAI.Governance

open Lib

variable (sha256 : String → String)

/-! ### Requests -/

/-- `_require_verified_governing_credential`. -/
def requireVerifiedGoverningCredential (caller : AuthenticatedCaller) : Service Unit :=
  if caller.credentialKeyId.getD "" = "" then
    throw (forbidden ("Governed actions require a verified caller credential; header-trusted " ++
      "identity cannot distinguish a requester from an approver."))
  else pure ()

variable (caller : AuthenticatedCaller)

def submittedRequest (actionType : GovernedActionType) (target : String) (payload : Payload)
    (attribution : Option String) (actionId requestedAt : String) : GovernedActionRequest where
  actionId := actionId
  actionType := actionType
  actorClass := .humanApproved
  target := target
  actionHash := computeGovernedActionHash sha256 payload
  actionPayload := payload
  requesterCallerApp := caller.callerApp
  requesterTrustSource := caller.trustSource
  requesterKeyId := caller.credentialKeyId
  requesterAttribution := attribution
  requestedAt := requestedAt

/-- Supersede the prior pending action, if there is one. Losing to a concurrent
claim or execution is not an error. -/
def supersedePrior (prior : Option GovernedActionRecord) (actionId : String) : Service Unit :=
  match prior with
  | none => pure ()
  | some prior => do
    let _ ← ask (.transitionGovernedAction prior.actionId .pending
      { prior with status := .superseded, supersededByActionId := some actionId } none)
    return ()

/-- `submit_governed_action`. -/
def submitGovernedAction (actionType : GovernedActionType) (target : String) (payload : Payload)
    (attribution : Option String) : Service GovernedActionRecord := do
  requireVerifiedGoverningCredential caller
  let actionId ← ask .newActionId
  let requestedAt ← ask .utcNowIso
  let record := (submittedRequest sha256 caller actionType target payload attribution actionId
    requestedAt).pending
  let prior ← ask (.getPendingGovernedAction actionType target)
  supersedePrior prior actionId
  ask (.upsertGovernedAction record)
  return record

variable (serviceIdentity : String) (actionType : GovernedActionType) (target : String)
  (payload : Payload)

def systemRecord (actionId requestedAt executedAt : String) : GovernedActionRecord where
  actionId := actionId
  actionType := actionType
  actorClass := .systemOriginated
  status := .executed
  target := target
  actionHash := computeGovernedActionHash sha256 payload
  actionPayload := payload
  requesterCallerApp := serviceIdentity
  requesterTrustSource := "service_runtime"
  requesterKeyId := none
  requesterAttribution := none
  requestedAt := requestedAt
  executedAt := some executedAt

/-- `record_system_originated_action`. -/
def recordSystemOriginatedAction : Service GovernedActionRecord :=
  if actionType ∈ humanGovernedActionTypes then
    throw (forbidden (s!"`{actionType.value}` is a human-governed action type; a system " ++
      "identity cannot originate or approve it."))
  else do
    let actionId ← ask .newActionId
    let requestedAt ← ask .utcNowIso
    let executedAt ← ask .utcNowIso
    let record := systemRecord sha256 serviceIdentity actionType target payload actionId
      requestedAt executedAt
    ask (.upsertGovernedAction record)
    return record

/-! ### Approval -/

/-- What an approval names: the exact action it reviewed. -/
structure ApprovalArgs where
  actionId : String
  expectedTarget : String
  expectedHash : String
  attribution : Option String
  resumeInterruptedClaim : Bool
  deriving DecidableEq

/-- The action an approval is about, or 404. -/
def requireGovernedAction (actionId : String) : Service GovernedActionRecord := do
  match ← ask (.getGovernedAction actionId) with
  | some record => return record
  | none => throw (notFound s!"No governed action exists for `{actionId}`.")

/-- `resuming_own_claim`: an explicit resume, by the claiming credential. -/
def resumingOwnClaim (args : ApprovalArgs) (record : GovernedActionRecord) : Bool :=
  args.resumeInterruptedClaim && record.status = .claimed &&
    record.approverKeyId = caller.credentialKeyId

/-- Why an approval does not fit the stored action, as far as the record itself tells. -/
def approvalRefusal (args : ApprovalArgs) (record : GovernedActionRecord) (resuming : Bool) :
    Option Raised :=
  if record.status ≠ .pending ∧ resuming = false then
    some (conflict (s!"Governed action `{args.actionId}` is {record.status.value}; only a " ++
      "PENDING action (or the claiming credential resuming its own interrupted claim) " ++
      "can be approved."))
  else if record.actorClass ≠ .humanApproved then
    some (conflict "A system-originated action has no approval step.")
  else if record.target ≠ args.expectedTarget then
    some (conflict (s!"Governed action `{args.actionId}` targets `{record.target}`, not " ++
      s!"`{args.expectedTarget}`; an approval cannot be redirected."))
  else if args.expectedHash ≠ record.actionHash then
    some (conflict ("The supplied action hash does not match the pending action. Approval " ++
      "binds to the exact action requested; review the pending action and approve its hash."))
  else none

def refuseIf : Option Raised → Service Unit
  | some e => throw e
  | none => pure ()

/-- The rebuilt payload must still have the action's hash. -/
def requireUnchanged (currentPayloadBuilder : GovernedActionRecord → Service Payload)
    (record : GovernedActionRecord) : Service Unit := do
  let payload ← currentPayloadBuilder record
  if computeGovernedActionHash sha256 payload = record.actionHash then pure ()
  else throw (conflict ("The action has changed since it was requested. The pending approval " ++
    "is not transferable to the changed action; submit a new request."))

/-- Requester and approver sign with different credentials. -/
def requireDistinctApprover (caller : AuthenticatedCaller) (record : GovernedActionRecord) :
    Service Unit :=
  if caller.credentialKeyId = record.requesterKeyId then
    throw (forbidden ("Approval requires a credential distinct from the requester's. The same " ++
      "signing credential cannot both request and approve a governed action."))
  else pure ()

/-- A fresh claim: the pending record with the approver's evidence. -/
def claimedBy (attribution : Option String) (record : GovernedActionRecord) (now : String) :
    GovernedActionRecord :=
  { record with
    status := .claimed
    approverCallerApp := some caller.callerApp
    approverTrustSource := some caller.trustSource
    approverKeyId := caller.credentialKeyId
    approverAttribution := attribution
    approvedAt := some now
    claimedAt := some now }

/-- Claim a pending action by compare-and-set. -/
def claimPending (args : ApprovalArgs) (record : GovernedActionRecord) (now : String) :
    Service GovernedActionRecord := do
  let won ← ask (.transitionGovernedAction args.actionId .pending
    (claimedBy caller args.attribution record now) none)
  if won then return claimedBy caller args.attribution record now
  else throw (conflict (s!"Governed action `{args.actionId}` was claimed, superseded or " ++
    "executed concurrently; this approval did not execute."))

/-- The claim instant a resume writes: a clock reading other than the stale one. -/
def rotatedInstant (stale now : String) : Service String :=
  if now = stale then ask (.utcNowIsoUnequal stale) else pure now

/-- Take over one's own interrupted claim by rotating its instant. -/
def rotateClaim (args : ApprovalArgs) (record : GovernedActionRecord) (now : String) :
    Service GovernedActionRecord :=
  let changedHands := conflict (s!"Governed action `{args.actionId}` changed hands while this " ++
    "resume started (another resume, a finalization, or a release won); " ++
    "this approval did not execute.")
  match record.claimedAt with
  | none => throw changedHands
  | some stale => do
    let rotated ← rotatedInstant stale now
    let won ← ask (.transitionGovernedAction args.actionId .claimed
      { record with claimedAt := some rotated } (some stale))
    if won then return { record with claimedAt := some rotated } else throw changedHands

/-- A resumed claim was validated when it was first made; the state its callback has already
changed would not rebuild to the old hash. -/
def requireFreshness (resuming : Bool)
    (currentPayloadBuilder : GovernedActionRecord → Service Payload)
    (record : GovernedActionRecord) : Service Unit :=
  if resuming then pure () else requireUnchanged sha256 currentPayloadBuilder record

/-- Win the claim, by rotating one's own or by claiming a pending action. -/
def takeClaim (resuming : Bool) (caller : AuthenticatedCaller) (args : ApprovalArgs)
    (record : GovernedActionRecord) (now : String) : Service GovernedActionRecord :=
  if resuming then rotateClaim args record now else claimPending caller args record now

/-- The completed evidence of an executed claim. -/
def executedRecord (claimed : GovernedActionRecord) (executedAt : String)
    (resultPayload : Option ResultPayload) : GovernedActionRecord :=
  { claimed with status := .executed, executedAt := some executedAt, resultPayload }

/-- The callback has run: stamp the evidence, fenced to the claim's own instant. -/
def finalizeClaim (actionId : String) (claimed : GovernedActionRecord)
    (resultPayload : Option ResultPayload) : Service GovernedActionRecord := do
  let executedAt ← ask .utcNowIso
  let won ← ask (.transitionGovernedAction actionId .claimed
    (executedRecord claimed executedAt resultPayload) claimed.claimedAt)
  if won then return executedRecord claimed executedAt resultPayload
  else throw (conflict (s!"Governed action `{actionId}` left its claim while executing; the " ++
    "domain effect ran but the execution evidence could not be finalized."))

/-- `approve_and_execute_governed_action`. The callback's outcome is what it leaves in
the closures that the result builder and the response read. -/
def approveAndExecuteGovernedAction {γ : Type} (args : ApprovalArgs)
    (currentPayloadBuilder : GovernedActionRecord → Service Payload)
    (execute : GovernedActionRecord → Service γ) (resultPayload : γ → Option ResultPayload) :
    Service (GovernedActionRecord × γ) := do
  requireVerifiedGoverningCredential caller
  let record ← requireGovernedAction args.actionId
  let resuming := resumingOwnClaim caller args record
  refuseIf (approvalRefusal args record resuming)
  requireFreshness sha256 resuming currentPayloadBuilder record
  requireDistinctApprover caller record
  let now ← ask .utcNowIso
  let claimed ← takeClaim resuming caller args record now
  ask (.callbackStarts claimed)
  let outcome ← execute claimed
  let executed ← finalizeClaim args.actionId claimed (resultPayload outcome)
  return (executed, outcome)

/-- A domain's `current_payload_builder`. -/
def domainPayload (domain : Domain) (record : GovernedActionRecord) : Service Payload := do
  let result ← ask (.currentPayload domain record)
  orRaise result

/-- A domain's `execute` callback. -/
def domainEffect (domain : Domain) (record : GovernedActionRecord) :
    Service (Option ResultPayload) := do
  let result ← ask (.execute domain record)
  orRaise result

/-- The approval of a domain's own action. -/
def approveDomainAction (caller : AuthenticatedCaller) (domain : Domain) (args : ApprovalArgs) :
    Service GovernedActionRecord := do
  let (executed, _) ← approveAndExecuteGovernedAction sha256 caller args (domainPayload domain)
    (domainEffect domain) id
  return executed

/-! ### Claim release -/

/-- `ClaimReleaseIntentRequest`. -/
structure ClaimReleaseIntentRequest where
  targetActionId : String
  reason : String
  requestedBy : Option String
  deriving DecidableEq

/-- `ClaimReleaseApprovalRequest`. -/
structure ClaimReleaseApprovalRequest where
  actionId : String
  actionHash : String
  approvedBy : Option String
  resumeInterruptedClaim : Bool
  deriving DecidableEq

/-- The entries of a release payload in the order the source writes them. -/
def releaseEntries (targetActionId targetActionHash : String)
    (targetClaimedAt frozenApproverKeyId : Option String) (reason : String) : Payload :=
  ((((((Dict.empty.insert "action_type" (some GovernedActionType.claimRelease.value)).insert
    "target_action_id" (some targetActionId)).insert
    "target_action_hash" (some targetActionHash)).insert
    "target_claimed_at" targetClaimedAt).insert
    "frozen_approver_key_id" frozenApproverKeyId).insert
    "reason" (some reason))

/-- `_release_payload`: the frozen claim's full identity. -/
def releasePayload (targetActionId targetActionHash targetClaimedAt frozenApproverKeyId
    reason : String) : Payload :=
  releaseEntries targetActionId targetActionHash (some targetClaimedAt)
    (some frozenApproverKeyId) reason

/-- `_require_provider_control_authorization`. -/
def requireProviderControlAuthorization (caller : AuthenticatedCaller) : Service Unit := do
  let decision ← ask (.authorizeRequest caller.callerApp)
  let _ ← requireAuthorized decision
  return ()

/-- `_refuse_frozen_credential`. -/
def refuseFrozenCredential (caller : AuthenticatedCaller) (frozenKeyId : Option String) :
    Service Unit :=
  if caller.credentialKeyId ≠ none ∧ caller.credentialKeyId = frozenKeyId then
    throw (forbidden ("The frozen claim's own credential cannot participate in its release; it " ++
      "already holds the resume path. Release requires two credentials distinct from the " ++
      "claim holder's."))
  else pure ()

/-- The pinned instant and credential of a claimed target, asserted to be there. -/
def pinnedClaim (target : GovernedActionRecord) : Service (String × String) :=
  match target.claimedAt, target.approverKeyId with
  | some claimedAt, some approverKeyId => pure (claimedAt, approverKeyId)
  | _, _ => throw (.other "AssertionError")

/-- Only a claimed action releases. -/
def requireClaimed (target : GovernedActionRecord) (targetActionId : String) : Service Unit :=
  if target.status = .claimed then pure ()
  else throw (conflict (s!"Governed action `{targetActionId}` is {target.status.value}; only a " ++
    "CLAIMED action releases."))

/-- `request_claim_release`. -/
def requestClaimRelease (caller : AuthenticatedCaller) (request : ClaimReleaseIntentRequest) :
    Service GovernedActionRecord := do
  requireProviderControlAuthorization caller
  let target ← requireGovernedAction request.targetActionId
  requireClaimed target request.targetActionId
  refuseFrozenCredential caller target.approverKeyId
  let pin ← pinnedClaim target
  submitGovernedAction sha256 caller .claimRelease request.targetActionId
    (releasePayload request.targetActionId target.actionHash pin.1 pin.2 request.reason)
    request.requestedBy

/-- The payload of a release whose target is no longer claimed; it matches no request. -/
def vanishedPayload (targetId reason : String) : Payload :=
  releaseEntries targetId "TARGET_NO_LONGER_CLAIMED" none none reason

/-- `_rebuild_payload` from the target as it is now. -/
def rebuiltReleasePayload (targetId reason : String) (target : Option GovernedActionRecord) :
    Payload :=
  match target with
  | none => vanishedPayload targetId reason
  | some target =>
    if target.status ≠ .claimed then vanishedPayload targetId reason
    else match target.claimedAt, target.approverKeyId with
      | some claimedAt, some approverKeyId =>
        releasePayload targetId target.actionHash claimedAt approverKeyId reason
      | _, _ => vanishedPayload targetId reason

/-- `_rebuild_payload`. -/
def rebuildPayload (record : GovernedActionRecord) : Service Payload := do
  let targetId := record.actionPayload.text "target_action_id"
  let target ← ask (.getGovernedAction targetId)
  return rebuiltReleasePayload targetId (record.actionPayload.text "reason") target

/-- The released target: pending again, its request untouched. -/
def releasedRecord (target : GovernedActionRecord) : GovernedActionRecord :=
  { target with
    status := .pending
    approverCallerApp := none
    approverTrustSource := none
    approverKeyId := none
    approverAttribution := none
    approvedAt := none
    claimedAt := none }

/-- The compare-and-set of a release, on the instant that resume and finalization use. -/
def releaseTarget (targetId pinnedClaimedAt : String) (target : Option GovernedActionRecord) :
    Service GovernedActionRecord :=
  match target with
  | none => throw (conflict (s!"The claim on `{targetId}` moved before the release executed; " ++
      "nothing was changed."))
  | some target =>
    if target.status ≠ .claimed then
      throw (conflict (s!"The claim on `{targetId}` moved before the release executed; " ++
        "nothing was changed."))
    else do
      let won ← ask (.transitionGovernedAction targetId .claimed (releasedRecord target)
        (some pinnedClaimedAt))
      if won then return releasedRecord target
      else throw (conflict (s!"The claim on `{targetId}` changed hands while the release " ++
        "executed (a resume or finalization won); nothing was changed."))

/-- `_execute_release`. -/
def executeRelease (record : GovernedActionRecord) : Service GovernedActionRecord := do
  let targetId := record.actionPayload.text "target_action_id"
  let target ← ask (.getGovernedAction targetId)
  releaseTarget targetId (record.actionPayload.text "target_claimed_at") target

/-- The result payload of an executed release. -/
def releaseResult (existing : Option GovernedActionRecord) (released : GovernedActionRecord) :
    ResultPayload :=
  let pinned : Payload := (existing.map (·.actionPayload)).getD .empty
  (((Dict.empty.insert "released_target_action_id" released.actionId).insert
    "frozen_approver_key_id" (pinned.text "frozen_approver_key_id")).insert
    "reason" (pinned.text "reason"))

/-- The recorded outcome that a repeated approval is answered with. -/
def recordedRelease (request : ClaimReleaseApprovalRequest)
    (existing : Option GovernedActionRecord) : Option (GovernedActionRecord × ResultPayload) :=
  match existing with
  | some record =>
    if record.status = .executed ∧ record.actionHash = request.actionHash then
      record.resultPayload.map (record, ·)
    else none
  | none => none

/-- `_release_response_from_result`. -/
def releaseResponseFromResult (record : GovernedActionRecord) (result : ResultPayload) :
    Service (GovernedActionRecord × GovernedActionRecord) := do
  let targetId := (result.get? "released_target_action_id").getD "None"
  match ← ask (.getGovernedAction targetId) with
  | some target => return (record, target)
  | none => throw (conflict s!"The released action `{targetId}` no longer exists.")

/-- The frozen credential may not approve; skipped for an action that was not found. -/
def refuseFrozenApprover (caller : AuthenticatedCaller) (existing : Option GovernedActionRecord) :
    Service Unit :=
  match existing with
  | some record =>
    refuseFrozenCredential caller (some (record.actionPayload.text "frozen_approver_key_id"))
  | none => pure ()

/-- Approve the release that was looked up as `existing`. -/
def approveFoundRelease (request : ClaimReleaseApprovalRequest)
    (existing : Option GovernedActionRecord) :
    Service (GovernedActionRecord × GovernedActionRecord) := do
  refuseFrozenApprover caller existing
  -- `_expected_target` reads the action once more
  let named ← requireGovernedAction request.actionId
  approveAndExecuteGovernedAction sha256 caller
    { actionId := request.actionId
      expectedTarget := named.target
      expectedHash := request.actionHash
      attribution := request.approvedBy
      resumeInterruptedClaim := request.resumeInterruptedClaim }
    rebuildPayload executeRelease fun released => some (releaseResult existing released)

/-- `approve_claim_release`. -/
def approveClaimRelease (caller : AuthenticatedCaller) (request : ClaimReleaseApprovalRequest) :
    Service (GovernedActionRecord × GovernedActionRecord) := do
  requireProviderControlAuthorization caller
  let existing ← ask (.getGovernedAction request.actionId)
  match recordedRelease request existing with
  | some (record, result) => releaseResponseFromResult record result
  | none => approveFoundRelease sha256 caller request existing

/-! ### Sessions -/

/-- One request to the governed-action services. Domains submit their own action
types; a claim release is submitted by `requestClaimRelease` alone. -/
inductive Session
  | submit (caller : AuthenticatedCaller) (actionType : GovernedActionType)
      (ownType : actionType ≠ .claimRelease) (target : String) (payload : Payload)
      (attribution : Option String)
  | approve (caller : AuthenticatedCaller) (domain : Domain) (args : ApprovalArgs)
  | requestRelease (caller : AuthenticatedCaller) (request : ClaimReleaseIntentRequest)
  | approveRelease (caller : AuthenticatedCaller) (request : ClaimReleaseApprovalRequest)
  | systemOriginated (serviceIdentity : String) (actionType : GovernedActionType)
      (target : String) (payload : Payload)

/-- The program of a session; its reply is the governed action of the response. -/
def Session.program : Session → Service GovernedActionRecord
  | submit caller actionType _ target payload attribution =>
    submitGovernedAction sha256 caller actionType target payload attribution
  | approve caller domain args => approveDomainAction sha256 caller domain args
  | requestRelease caller request => requestClaimRelease sha256 caller request
  | approveRelease caller request => do
    let (executed, _) ← approveClaimRelease sha256 caller request
    return executed
  | systemOriginated serviceIdentity actionType target payload =>
    recordSystemOriginatedAction sha256 serviceIdentity actionType target payload

def Session.approvesRelease : Session → String → Bool
  | approveRelease _ request, actionId => request.actionId = actionId
  | _, _ => false

/-- A pool of sessions over an empty store. -/
def pool {ι : Type} (sessions : ι → Session) :
    Machine.Config Call.Answer ι (World ι) (Except Raised GovernedActionRecord) where
  store := .initial
  threads i := ((sessions i).program sha256).run

end LotusAI.Governance
