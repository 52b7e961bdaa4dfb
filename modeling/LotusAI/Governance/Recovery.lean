import LotusAI.Governance.Sessions
import LotusAI.Budget.Conservation
import LotusAI.Lib.Checks
import LotusAI.Lib.Returns

/-!
# Recovery of an interrupted claim

An approval that has run its callback may stop before it stamps the action as executed. The
claiming credential then resumes its claim, and the callback runs a second time, on the state
its own first run has left. The reconciliation of a debit finds the row reconciled to its own
amount and goes on. The release of a claim finds its target pending, as it has itself made it,
and refuses: the released target cannot be told from one that was released by someone else.
-/

namespace LotusAI.Governance

open Lib Dict Call

/-! ### Reconciliation of a debit -/

/-- How numbers are read and printed. -/
structure Numerals where
  /-- `float(text)`; a text that is no number is a `ValueError`. -/
  float : String → Option ℚ
  /-- `int(text)`. -/
  int : String → Option ℤ
  /-- `_amount_str`: eight decimals. -/
  amountStr : ℚ → String

/-- What the services read of their surroundings. -/
structure Surroundings where
  num : Numerals
  adapter : Budget.Adapter
  budgetKey : String
  /-- `authorize_request` for provider control. -/
  authorize : String → AuthorizationDecision

/-- The text of a basis. -/
def basisValue : Budget.DebitBasis → String
  | .reservedMax => "RESERVED_MAX"
  | .unresolvedMax => "UNRESOLVED_MAX"
  | .actualUsage => "ACTUAL_USAGE"
  | .released => "RELEASED"
  | .reconciled => "RECONCILED"
  | .conservativeEstimate => "CONSERVATIVE_ESTIMATE"
  | .mixed => "MIXED"
  | .none => "NONE"

/-- The value that was read, or a `ValueError`. -/
def orValueError {α : Type} : Option α → Except Raised α
  | some a => .ok a
  | none => .error (.other "ValueError")

/-- `int(raw) if raw is not None else None`. -/
def Numerals.tokens (num : Numerals) (payload : Payload) (key : String) :
    Except Raised (Option ℤ) :=
  match payload.get? key with
  | some (some text) => (orValueError (num.int text)).map some
  | _ => .ok none

/-- `_reconciliation_payload`. -/
def reconciliationPayload (num : Numerals) (debitId : String) (evidencedAmountUsd : ℚ)
    (evidenceRef : String) (inputTokens outputTokens : Option ℤ) (exposureBasis : String)
    (heldAmountUsd : ℚ) : Payload :=
  (((((((Dict.empty.insert "action_type"
    (some GovernedActionType.budgetReconciliation.value)).insert
    "debit_id" (some debitId)).insert
    "evidenced_amount_usd" (some (num.amountStr evidencedAmountUsd))).insert
    "evidence_ref" (some evidenceRef)).insert
    "input_tokens" (inputTokens.map toString)).insert
    "output_tokens" (outputTokens.map toString)).insert
    "exposure_basis" (some exposureBasis)).insert
    "held_amount_usd" (some (num.amountStr heldAmountUsd))

/-- `_rebuild_payload`. A row that is gone has the basis `ABSENT` and holds nothing. -/
def rebuildReconciliationPayload (env : Surroundings) (ledger : Budget.Store)
    (record : GovernedActionRecord) : Except Raised Payload := do
  let pinned := record.actionPayload
  let row := ledger.attemptDebits.get? (pinned.text "debit_id")
  let evidenced ← orValueError (env.num.float (pinned.text "evidenced_amount_usd"))
  let inputTokens ← env.num.tokens pinned "input_tokens"
  let outputTokens ← env.num.tokens pinned "output_tokens"
  return reconciliationPayload env.num (pinned.text "debit_id") evidenced
    (pinned.text "evidence_ref") inputTokens outputTokens
    ((row.map fun row => basisValue row.basis).getD "ABSENT")
    ((row.map (·.amountUsd)).getD 0)

/-- `reconcile_attempt_spend`. -/
def reconcileAttemptSpend (env : Surroundings) (ledger : Budget.Store) (debitId : String)
    (evidence : Budget.Evidence) : Bool × Budget.Store :=
  match env.adapter with
  | .memory => Budget.Memory.reconcileAttemptDebit ledger debitId env.budgetKey evidence
  | .sqlalchemy => Budget.Sql.reconcileAttemptDebit ledger debitId env.budgetKey evidence

/-- The figures that the payload of a reconciliation pins. -/
structure PinnedFigures where
  debitId : String
  evidenced : ℚ
  held : ℚ
  inputTokens : Option ℤ
  outputTokens : Option ℤ

/-- The figures, read from the payload. -/
def pinnedFigures (num : Numerals) (pinned : Payload) : Except Raised PinnedFigures := do
  let evidenced ← orValueError (num.float (pinned.text "evidenced_amount_usd"))
  let held ← orValueError (num.float (pinned.text "held_amount_usd"))
  let inputTokens ← num.tokens pinned "input_tokens"
  let outputTokens ← num.tokens pinned "output_tokens"
  return ⟨pinned.text "debit_id", evidenced, held, inputTokens, outputTokens⟩

/-- The evidence of a reconciliation at an instant. It names no rate card. -/
def PinnedFigures.evidence (figures : PinnedFigures) (now : String) : Budget.Evidence where
  amountUsd := figures.evidenced
  inputTokens := figures.inputTokens
  outputTokens := figures.outputTokens
  rateCardRef := none
  recordedAt := now

/-- The result of a reconciliation; what it released is told from the pinned amounts. -/
def PinnedFigures.result (num : Numerals) (figures : PinnedFigures) : ResultPayload :=
  ((Dict.empty.insert "debit_id" figures.debitId).insert
    "evidenced_amount_usd" (num.amountStr figures.evidenced)).insert
    "released_amount_usd" (num.amountStr (Budget.round8 (figures.held - figures.evidenced)))

/-- A row that stands reconciled to the evidenced amount. -/
def PinnedFigures.settledBy (figures : PinnedFigures) (row : Option Budget.AttemptDebitRecord) :
    Bool :=
  row.any fun current => current.basis = .reconciled ∧
    Budget.round8 current.amountUsd = Budget.round8 figures.evidenced

/-- The effect of a reconciliation with its figures. -/
def reconcileFigures (env : Surroundings) (figures : PinnedFigures) (now : String)
    (ledger : Budget.Store) : Except Raised ResultPayload × Budget.Store :=
  let out := reconcileAttemptSpend env ledger figures.debitId (figures.evidence now)
  if out.1 = false ∧ ¬ figures.settledBy (out.2.attemptDebits.get? figures.debitId) then
    (.error (conflict (s!"Attempt debit `{figures.debitId}` was resolved by other means while " ++
      "this approval executed; no release was applied.")), out.2)
  else (.ok (figures.result env.num), out.2)

/-- `_execute_reconciliation`. -/
def executeReconciliation (env : Surroundings) (record : GovernedActionRecord) (now : String)
    (ledger : Budget.Store) : Except Raised ResultPayload × Budget.Store :=
  match pinnedFigures env.num record.actionPayload with
  | .error e => (.error e, ledger)
  | .ok figures => reconcileFigures env figures now ledger

/-! ### The stores -/

variable {ι : Type}

/-- The governed actions, and the ledger of attempt debits. -/
structure Stores (ι : Type) where
  world : World ι
  ledger : Budget.Store

/-- The effect of a call. A reconciliation acts on the ledger; everything else is what it is
for the governed actions alone. -/
def Stores.exec (env : Surroundings) (i : ι) (s : Stores ι) :
    (call : Call) → Choice → Option (call.Answer × Stores ι)
  | .authorizeRequest callerApp, _ => some (env.authorize callerApp, s)
  | .currentPayload .budgetReconciliation record, .store =>
    some (rebuildReconciliationPayload env s.ledger record, s)
  | .currentPayload .budgetReconciliation _, _ => none
  | .execute .budgetReconciliation record, .time now =>
    let out := executeReconciliation env record now s.ledger
    some (out.1.map some, { s with ledger := out.2 })
  | .execute .budgetReconciliation _, _ => none
  | call, choice => (call.exec i s.world choice).map fun out => (out.1, { s with world := out.2 })

def stores (ι : Type) (env : Surroundings) : Machine Call.Answer ι (Stores ι) Choice where
  exec i s call choice := s.exec env i call choice

variable {record : GovernedActionRecord} {env : Surroundings}

/-- A rebuilt payload carries the tag of its domain. -/
theorem builds_rebuildReconciliationPayload {ledger : Budget.Store}
    {payload : Payload} (h : rebuildReconciliationPayload env ledger record = .ok payload) :
    Domain.budgetReconciliation.builds payload := by
  obtain ⟨evidenced, -, h⟩ := bind_eq_ok.mp h
  obtain ⟨inputTokens, -, h⟩ := bind_eq_ok.mp h
  obtain ⟨outputTokens, -, h⟩ := bind_eq_ok.mp h
  cases h
  simp [Domain.builds, Domain.payloadTags, reconciliationPayload, get?_insert]

/-- The governed actions move as in the store of their own, under some choice. -/
theorem exec_governance {i : ι} {s s' : Stores ι} {call : Call}
    {choice : Choice} {r : call.Answer}
    (h : (stores ι env).exec i s call choice = some (r, s')) :
    ∃ choice', call.exec i s.world choice' = some (r, s'.world) := by
  change s.exec env i call choice = some (r, s') at h
  unfold Stores.exec at h
  split at h
  case h_1 callerApp =>
    cases h
    exact ⟨.authorization _, rfl⟩
  case h_2 record =>
    cases h
    refine ⟨.payload (rebuildReconciliationPayload env s.ledger record), ?_⟩
    cases hrebuilt : rebuildReconciliationPayload env s.ledger record with
    | error e => rfl
    | ok payload => exact if_pos (builds_rebuildReconciliationPayload hrebuilt)
  case h_3 => cases h
  case h_4 record now =>
    cases h
    exact ⟨.result _, rfl⟩
  case h_5 => cases h
  case h_6 =>
    obtain ⟨⟨r', w'⟩, hexec, hout⟩ := Option.map_eq_some_iff.mp h
    cases hout
    exact ⟨choice, hexec⟩

/-! ### Approvals that resume -/

/-- The kinds of actions whose approvals take `resume_interrupted_claim`, and whose callbacks are
modelled. -/
inductive Recoverable
  | budgetReconciliation
  | claimRelease
  deriving DecidableEq

/-- `BudgetReconciliationApprovalRequest`, which has the fields of a release's. -/
abbrev BudgetReconciliationApprovalRequest := ClaimReleaseApprovalRequest

def ClaimReleaseApprovalRequest.args (request : ClaimReleaseApprovalRequest)
    (expectedTarget : String) : ApprovalArgs where
  actionId := request.actionId
  expectedTarget := expectedTarget
  expectedHash := request.actionHash
  attribution := request.approvedBy
  resumeInterruptedClaim := request.resumeInterruptedClaim

variable (sha256 : String → String) {request : ClaimReleaseApprovalRequest}
  {claimed : GovernedActionRecord}

/-- `approve_budget_reconciliation`. An executed action is answered from its result. -/
def approveBudgetReconciliation (caller : AuthenticatedCaller)
    (request : BudgetReconciliationApprovalRequest) : Service GovernedActionRecord := do
  requireProviderControlAuthorization caller
  let existing ← ask (.getGovernedAction request.actionId)
  match recordedRelease request existing with
  | some (record, _) => return record
  | none => do
    let named ← requireGovernedAction request.actionId
    approveDomainAction sha256 caller .budgetReconciliation (request.args named.target)

namespace Recoverable

/-- The payload builder of a kind. -/
def builder : Recoverable → GovernedActionRecord → Service Payload
  | budgetReconciliation => domainPayload .budgetReconciliation
  | claimRelease => rebuildPayload

/-- The callback of a kind, with the result payload it gives rise to. -/
def callback : Recoverable → GovernedActionRecord → Service (Option ResultPayload)
  | budgetReconciliation => domainEffect .budgetReconciliation
  | claimRelease => fun record => do
    let released ← executeRelease record
    return some (releaseResult (some record) released)

/-- The approval of a kind. -/
def approve (caller : AuthenticatedCaller) (request : ClaimReleaseApprovalRequest) :
    Recoverable → Service GovernedActionRecord
  | budgetReconciliation => approveBudgetReconciliation sha256 caller request
  | claimRelease => do
    let (executed, _) ← approveClaimRelease sha256 caller request
    return executed

end Recoverable

/-- An approval up to its claim. -/
def claimAction (caller : AuthenticatedCaller) (args : ApprovalArgs)
    (currentPayloadBuilder : GovernedActionRecord → Service Payload) :
    Service GovernedActionRecord := do
  requireVerifiedGoverningCredential caller
  let record ← requireGovernedAction args.actionId
  let resuming := resumingOwnClaim caller args record
  refuseIf (approvalRefusal args record resuming)
  requireFreshness sha256 resuming currentPayloadBuilder record
  requireDistinctApprover caller record
  let now ← ask .utcNowIso
  takeClaim resuming caller args record now

/-- The callback of a claim. -/
def runCallback {γ : Type} (execute : GovernedActionRecord → Service γ)
    (claimed : GovernedActionRecord) : Service (GovernedActionRecord × γ) := do
  ask (.callbackStarts claimed)
  let outcome ← execute claimed
  return (claimed, outcome)

/-- An approval up to the end of its callback. -/
def claimAndRun {γ : Type} (caller : AuthenticatedCaller) (args : ApprovalArgs)
    (currentPayloadBuilder : GovernedActionRecord → Service Payload)
    (execute : GovernedActionRecord → Service γ) : Service (GovernedActionRecord × γ) := do
  let claimed ← claimAction sha256 caller args currentPayloadBuilder
  runCallback execute claimed

/-- The finalization of a claim whose callback has ended. -/
def finalizeRun {γ : Type} (actionId : String) (resultPayload : γ → Option ResultPayload)
    (ran : GovernedActionRecord × γ) : Service (GovernedActionRecord × γ) := do
  let executed ← finalizeClaim actionId ran.1 (resultPayload ran.2)
  return (executed, ran.2)

/-- An approval is its claim and callback, and then its finalization. -/
theorem approveAndExecuteGovernedAction_eq {γ : Type} (caller : AuthenticatedCaller)
    (args : ApprovalArgs) (builder : GovernedActionRecord → Service Payload)
    (execute : GovernedActionRecord → Service γ) (resultPayload : γ → Option ResultPayload) :
    approveAndExecuteGovernedAction sha256 caller args builder execute resultPayload =
      claimAndRun sha256 caller args builder execute >>=
        finalizeRun args.actionId resultPayload := by
  simp only [approveAndExecuteGovernedAction, claimAndRun, claimAction, runCallback, finalizeRun,
    bind_assoc, pure_bind]

/-! ### Calls that change nothing an approval reads -/

/-- The same governed actions and the same ledger. -/
structure Stores.Same (s s' : Stores ι) : Prop where
  actions : s'.world.actions = s.world.actions
  ledger : s'.ledger = s.ledger

/-- One governed action was written, and the ledger is the same. -/
structure Stores.Wrote (actionId : String) (record : GovernedActionRecord) (s s' : Stores ι) :
    Prop where
  actions : s'.world.actions = s.world.actions.insert actionId record
  ledger : s'.ledger = s.ledger

/-- The calls that change neither the governed actions nor the ledger. -/
def Call.reads : Call → Bool
  | transitionGovernedAction _ _ _ _ => false
  | upsertGovernedAction _ => false
  | execute _ _ => false
  | _ => true

section Calls

variable {env : Surroundings} {i : ι} {s s' : Stores ι} {call : Call} {choice : Choice}
  {r : call.Answer}

/-- Only a reconciliation touches the ledger. -/
theorem ledger_of_exec (h : (stores ι env).exec i s call choice = some (r, s'))
    (hcall : ∀ record, call ≠ .execute .budgetReconciliation record) : s'.ledger = s.ledger := by
  change s.exec env i call choice = some (r, s') at h
  unfold Stores.exec at h
  split at h
  case h_1 | h_2 => cases h; rfl
  case h_3 | h_5 => cases h
  case h_4 record now => exact absurd rfl (hcall record)
  case h_6 =>
    obtain ⟨⟨r', w'⟩, -, hout⟩ := Option.map_eq_some_iff.mp h
    cases hout
    rfl

/-- A call that reads moves no governed action. -/
theorem Call.Outcome.actions_eq {w w' : World ι} (h : call.Outcome i w w' r) (hreads : call.reads) :
    w'.actions = w.actions := by
  cases call with
  | getGovernedAction actionId =>
    rw [h.2]
    split_ifs <;> rfl
  | authorizeRequest callerApp | utcNowIso | callbackStarts record =>
    cases h
    rfl
  | getPendingGovernedAction actionType target | currentPayload domain record =>
    rw [h.2]
  | utcNowIsoUnequal stale | newActionId =>
    rw [h.2]
    rfl
  | transitionGovernedAction actionId status record claimedAt | upsertGovernedAction record
  | execute domain record =>
    cases hreads

theorem same_of_exec (h : (stores ι env).exec i s call choice = some (r, s'))
    (hreads : call.reads) :
    s.Same s' := by
  obtain ⟨choice', hexec⟩ := exec_governance h
  refine ⟨(outcome_of_exec hexec).actions_eq hreads, ledger_of_exec h ?_⟩
  rintro record rfl
  cases hreads

/-- A call that only reads leaves the stores as they were, for the rest of the program. -/
theorem returns_read (hreads : call.reads) :
    (stores ι env).Returns i (ask call) (fun _ s' => s.Same s') s :=
  .ask fun _ _ _ hexec => same_of_exec hexec hreads

end Calls

/-! ### The claim of an approval -/

/-- A claim is held by the caller, who reviewed the action and did not request it. -/
structure HeldBy (caller : AuthenticatedCaller) (expectedHash : String)
    (claimed : GovernedActionRecord) : Prop where
  verified : caller.credentialKeyId.getD "" ≠ ""
  status : claimed.status = .claimed
  instant : claimed.claimedAt.isSome
  holder : claimed.approverKeyId = caller.credentialKeyId
  human : claimed.actorClass = .humanApproved
  hash : claimed.actionHash = expectedHash
  requester : caller.credentialKeyId ≠ claimed.requesterKeyId

/-- The action has just been claimed by the caller. -/
structure Claims (caller : AuthenticatedCaller) (args : ApprovalArgs) (s : Stores ι)
    (claimed : GovernedActionRecord) (s' : Stores ι) : Prop
    extends HeldBy caller args.expectedHash claimed, s.Wrote args.actionId claimed s' where
  pinned : ∃ record, s.world.actions.get? args.actionId = some record ∧
    claimed.actionPayload = record.actionPayload

/-- An approval that fits the stored action. -/
theorem approvalRefusal_eq_none_iff {args : ApprovalArgs} {resuming : Bool} :
    approvalRefusal args record resuming = none ↔
      (record.status = .pending ∨ resuming = true) ∧ record.actorClass = .humanApproved ∧
        record.target = args.expectedTarget ∧ args.expectedHash = record.actionHash := by
  unfold approvalRefusal
  split_ifs <;> simp_all
  tauto

section Claim

variable {env : Surroundings} {i : ι} {s : Stores ι} {caller : AuthenticatedCaller}
  {args : ApprovalArgs} {record : GovernedActionRecord} (kind : Recoverable) (actionId : String)

theorem returns_getGovernedAction :
    (stores ι env).Returns i (ask (.getGovernedAction actionId))
      (fun found s' => found = s.world.actions.get? actionId ∧ s.Same s') s := by
  refine .ask fun choice found s' hexec => ?_
  obtain ⟨choice', hgoverned⟩ := exec_governance hexec
  exact ⟨(outcome_of_exec hgoverned).1, same_of_exec hexec rfl⟩

theorem returns_requireGovernedAction :
    (stores ι env).Returns i (requireGovernedAction actionId)
      (fun record s' => s.world.actions.get? actionId = some record ∧ s.Same s') s := by
  refine .bind (returns_getGovernedAction actionId) ?_
  rintro found s' ⟨hfound, hsame⟩
  cases found with
  | none => exact .throw
  | some record => exact .pure ⟨hfound.symm, hsame⟩

theorem returns_builder :
    (stores ι env).Returns i (kind.builder record) (fun _ s' => s.Same s') s := by
  cases kind with
  | budgetReconciliation =>
    refine .bind (returns_read rfl) fun result s' hsame => ?_
    cases result with
    | error e => exact .throw
    | ok payload => exact .pure hsame
  | claimRelease => exact .bind (returns_read rfl) fun target s' hsame => .pure hsame

variable {s' s'' : Stores ι} (now : String)

theorem Stores.Same.trans (h : s.Same s') (h' : s'.Same s'') : s.Same s'' :=
  ⟨h'.actions.trans h.actions, h'.ledger.trans h.ledger⟩

theorem Stores.Wrote.of_same {actionId : String} (hsame : s.Same s')
    (h : s'.Wrote actionId record s'') : s.Wrote actionId record s'' :=
  ⟨hsame.actions ▸ h.actions, h.ledger.trans hsame.ledger⟩

theorem returns_requireFreshness (resuming : Bool) :
    (stores ι env).Returns i (requireFreshness sha256 resuming kind.builder record)
      (fun _ s' => s.Same s') s := by
  refine .ite (fun _ => .pure ⟨rfl, rfl⟩) fun _ => ?_
  refine .bind (returns_builder kind) fun payload s' hsame => ?_
  exact .ite (fun _ => .pure hsame) fun _ => .throw

/-- A compare-and-set that was won has written its record. -/
theorem returns_transition {actionId : String} {status : GovernedActionStatus}
    {claimedAt : Option String} :
    (stores ι env).Returns i (ask (.transitionGovernedAction actionId status record claimedAt))
      (fun won s' => won = true → s.Wrote actionId record s') s := by
  refine .ask fun choice won s' hexec hwon => ?_
  obtain ⟨choice', hgoverned⟩ := exec_governance hexec
  rcases outcome_of_exec hgoverned with ⟨hlost, -⟩ | ⟨-, before, -, hmoved⟩
  · exact absurd hwon (hlost ▸ Bool.false_ne_true)
  · refine ⟨by rw [hmoved]; rfl, ledger_of_exec hexec fun record h => ?_⟩
    cases h

/-- Rotating one's own claim keeps everything but its instant. -/
theorem returns_rotateClaim :
    (stores ι env).Returns i (rotateClaim args record now)
      (fun claimed s' => (∃ instant, claimed = { record with claimedAt := some instant }) ∧
        s.Wrote args.actionId claimed s') s := by
  unfold rotateClaim
  cases record.claimedAt with
  | none => exact .throw
  | some stale =>
    refine .bind (R := fun _ s' => s.Same s')
      (.ite (fun _ => returns_read rfl) fun _ => .pure ⟨rfl, rfl⟩) fun rotated mid hmid => ?_
    refine .bind returns_transition fun won s' hwon => ?_
    exact .ite (fun hw => .pure ⟨⟨rotated, rfl⟩, (hwon hw).of_same hmid⟩) fun _ => .throw

theorem returns_claimPending :
    (stores ι env).Returns i (claimPending caller args record now)
      (fun claimed s' => claimed = claimedBy caller args.attribution record now ∧
        s.Wrote args.actionId claimed s') s := by
  refine .bind returns_transition fun won s' hwon => ?_
  exact .ite (fun hw => .pure ⟨rfl, hwon hw⟩) fun _ => .throw

/-- Whichever way the claim was won, its holder is the caller. -/
theorem returns_takeClaim
    (hrecord : s.world.actions.get? args.actionId = some record)
    (hverified : caller.credentialKeyId.getD "" ≠ "")
    (hfits : approvalRefusal args record (resumingOwnClaim caller args record) = none)
    (hdistinct : caller.credentialKeyId ≠ record.requesterKeyId) :
    (stores ι env).Returns i
      (takeClaim (resumingOwnClaim caller args record) caller args record now)
      (fun claimed s' => Claims caller args s claimed s') s := by
  obtain ⟨-, hhuman, -, hhash⟩ := approvalRefusal_eq_none_iff.mp hfits
  refine .ite (fun hresuming => ?_) fun _ => ?_
  · apply (returns_rotateClaim now).mono
    rintro claimed s' ⟨⟨instant, rfl⟩, hwrote⟩
    simp only [resumingOwnClaim, Bool.and_eq_true, decide_eq_true_eq] at hresuming
    exact ⟨⟨hverified, hresuming.1.2, rfl, hresuming.2, hhuman, hhash.symm, hdistinct⟩, hwrote,
      record, hrecord, rfl⟩
  · refine (returns_claimPending now).mono ?_
    rintro claimed s' ⟨rfl, hwrote⟩
    exact ⟨⟨hverified, rfl, rfl, rfl, hhuman, hhash.symm, hdistinct⟩, hwrote, record, hrecord, rfl⟩

theorem Claims.of_same (hsame : s.Same s') (h : Claims caller args s' claimed s'') :
    Claims caller args s claimed s'' :=
  ⟨h.toHeldBy, h.toWrote.of_same hsame, hsame.actions ▸ h.pinned⟩

theorem returns_claimAction :
    (stores ι env).Returns i (claimAction sha256 caller args kind.builder)
      (fun claimed s' => Claims caller args s claimed s') s := by
  refine .bind (R := fun _ s' => caller.credentialKeyId.getD "" ≠ "" ∧ s.Same s')
    (.ite (fun _ => .throw) fun hverified => .pure ⟨hverified, rfl, rfl⟩) ?_
  rintro - s₁ ⟨hverified, hsame₁⟩
  refine .bind (returns_requireGovernedAction args.actionId) ?_
  rintro record s₂ ⟨hrecord, hsame₂⟩
  refine .bind (R := fun _ s' => approvalRefusal args record
    (resumingOwnClaim caller args record) = none ∧ s₂.Same s') ?_ ?_
  · cases hrefusal : approvalRefusal args record (resumingOwnClaim caller args record) with
    | none => exact .pure ⟨rfl, rfl, rfl⟩
    | some e => exact .throw
  rintro - s₃ ⟨hfits, hsame₃⟩
  refine .bind (returns_requireFreshness sha256 kind _) fun _ s₄ hsame₄ => ?_
  refine .bind (R := fun _ s' => caller.credentialKeyId ≠ record.requesterKeyId ∧ s₄.Same s')
    (.ite (fun _ => .throw) fun hdistinct => .pure ⟨hdistinct, rfl, rfl⟩) ?_
  rintro - s₅ ⟨hdistinct, hsame₅⟩
  refine .bind (returns_read rfl) fun now s₆ hsame₆ => ?_
  have hread : s₁.Same s₆ :=
    hsame₂.trans (hsame₃.trans (hsame₄.trans (hsame₅.trans hsame₆)))
  have hstored : s₆.world.actions.get? args.actionId = some record := hread.actions ▸ hrecord
  refine (returns_takeClaim now hstored hverified hfits hdistinct).mono ?_
  exact fun claimed s' hclaims => hclaims.of_same (hsame₁.trans hread)

end Claim

/-! ### A release that runs again -/

section Release

variable {env : Surroundings} {i : ι} {s : Stores ι} {caller : AuthenticatedCaller}
  {args : ApprovalArgs} {record : GovernedActionRecord} {actionId : String}

/-- The target of a release, as its payload names it. -/
def GovernedActionRecord.releaseTargetId (record : GovernedActionRecord) : String :=
  record.actionPayload.text "target_action_id"

/-- A release that was carried out found its target claimed, and leaves it pending. -/
theorem returns_executeRelease :
    (stores ι env).Returns i (executeRelease record)
      (fun _ s' => ∃ target, s.world.actions.get? record.releaseTargetId = some target ∧
        target.status = .claimed ∧ s'.world.actions =
          s.world.actions.insert record.releaseTargetId (releasedRecord target)) s := by
  refine .bind (returns_getGovernedAction record.releaseTargetId) ?_
  rintro found mid ⟨hfound, hsame⟩
  cases found with
  | none => exact .throw
  | some target =>
    refine .ite (fun _ => .throw) fun hstatus => .bind returns_transition fun won s' hwon => ?_
    rw [← hsame.actions]
    exact .ite (fun hw => .pure ⟨target, hsame.actions ▸ hfound.symm, not_not.mp hstatus,
      (hwon hw).actions⟩) fun _ => .throw

/-- A claim can be finalized only while it stands. -/
theorem returns_finalizeClaim
    {result : Option ResultPayload} :
    (stores ι env).Returns i (finalizeClaim actionId claimed result)
      (fun _ _ => ∃ current, s.world.actions.get? actionId = some current ∧
        current.status = .claimed) s := by
  refine .bind (returns_read rfl) fun executedAt mid hsame => ?_
  refine .bind (R := fun won _ => won = true → ∃ current,
    s.world.actions.get? actionId = some current ∧ current.status = .claimed)
    (.ask fun choice won s' hexec hwon => ?_) fun won s' hwon => ?_
  · obtain ⟨choice', hgoverned⟩ := exec_governance hexec
    rcases outcome_of_exec hgoverned with ⟨hlost, -⟩ | ⟨-, before, hadmits, -⟩
    · exact absurd hwon (hlost ▸ Bool.false_ne_true)
    · obtain ⟨hget, hstatus, -⟩ := World.admits_eq_some hadmits
      exact ⟨before, hsame.actions ▸ hget, hstatus⟩
  · exact .ite (fun hw => .pure (hwon hw)) fun _ => .throw

/-- The target of the release is not claimed any more, or it is the release itself. -/
structure ReleasedTarget (actionId : String) (s : Stores ι) (stored : GovernedActionRecord) :
    Prop where
  lookup : s.world.actions.get? actionId = some stored
  unfinished : stored.status ≠ .executed
  released : stored.releaseTargetId ≠ actionId → ∀ target,
    s.world.actions.get? stored.releaseTargetId = some target → target.status ≠ .claimed

variable {stored : GovernedActionRecord}

theorem ReleasedTarget.of_same {s' : Stores ι} (hsame : s.Same s')
    (h : ReleasedTarget actionId s stored) : ReleasedTarget actionId s' stored :=
  ⟨hsame.actions ▸ h.lookup, h.unfinished, hsame.actions ▸ h.released⟩

/-- A release whose callback has ended stands beside its pending target. -/
theorem returns_claimAndRun_release :
    (stores ι env).Returns i (claimAndRun sha256 caller args Recoverable.claimRelease.builder
        Recoverable.claimRelease.callback)
      (fun _ s' => ∃ stored, ReleasedTarget args.actionId s' stored) s := by
  refine .bind (returns_claimAction sha256 .claimRelease) fun claimed s₁ hclaims => ?_
  refine .bind (returns_read rfl) fun _ s₂ hsame => ?_
  refine .bind (R := fun _ s' => ∃ target,
    s₂.world.actions.get? claimed.releaseTargetId = some target ∧ s'.world.actions =
      s₂.world.actions.insert claimed.releaseTargetId (releasedRecord target)) ?_ ?_
  · refine .bind returns_executeRelease ?_
    rintro released s' ⟨target, hget, -, hactions⟩
    exact .pure ⟨target, hget, hactions⟩
  rintro outcome s₃ ⟨target, hget, hactions⟩
  have hbefore : s₂.world.actions.get? args.actionId = some claimed := by
    rw [hsame.actions, hclaims.actions, get?_insert_self]
  refine .pure ?_
  by_cases hself : claimed.releaseTargetId = args.actionId
  · rw [hself, hbefore, Option.some.injEq] at hget
    subst hget
    refine ⟨releasedRecord claimed, ?_, nofun, fun hne => absurd hself hne⟩
    rw [hactions, hself, get?_insert_self]
  · refine ⟨claimed, ?_, ?_, fun _ found hfound => ?_⟩
    · rw [hactions, get?_insert_of_ne _ (Ne.symm hself), hbefore]
    · rw [hclaims.status]
      nofun
    · rw [hactions, get?_insert_self, Option.some.injEq] at hfound
      rw [← hfound]
      nofun

/-- Run again, the callback of the release raises, or takes the release's own claim away. -/
theorem returns_releaseCallback (hreleased : ReleasedTarget args.actionId s stored) :
    (stores ι env).Returns i
      (claimAndRun sha256 caller args Recoverable.claimRelease.builder executeRelease)
      (fun _ s' => ∃ current, s'.world.actions.get? args.actionId = some current ∧
        current.status = .pending) s := by
  refine .bind (returns_claimAction sha256 .claimRelease) fun claimed s₁ hclaims => ?_
  obtain ⟨record, hrecord, hpayload⟩ := hclaims.pinned
  obtain rfl : stored = record := Option.mem_unique hreleased.lookup hrecord
  have htargetId : claimed.releaseTargetId = stored.releaseTargetId := by
    rw [GovernedActionRecord.releaseTargetId, hpayload]
    rfl
  refine .bind (returns_read rfl) fun _ s₂ hsame => ?_
  refine .bind returns_executeRelease ?_
  rintro outcome s₃ ⟨target, hget, hstatus, hactions⟩
  refine .pure ?_
  rw [htargetId, hsame.actions, hclaims.actions] at hget
  by_cases hself : stored.releaseTargetId = args.actionId
  · refine ⟨releasedRecord target, ?_, rfl⟩
    rw [hactions, htargetId, hself, get?_insert_self]
  · rw [get?_insert_of_ne _ hself] at hget
    exact absurd hstatus (hreleased.released hself target hget)

/-- A release whose target is released does not return from its approval. -/
theorem returns_approveClaimRelease_again
    (hreleased : ReleasedTarget request.actionId s stored) :
    (stores ι env).Returns i (approveClaimRelease sha256 caller request)
      (fun _ _ => False) s := by
  refine .bind (R := fun _ s' => s.Same s') ?_ fun _ s₁ hsame₁ => ?_
  · refine .bind (returns_read rfl) fun decision s' hsame => ?_
    refine .bind (.ite ?_ ?_) fun _ s'' hsame'' => .pure hsame''
    · exact fun _ => .pure hsame
    · exact fun _ => .throw
  refine .bind (returns_getGovernedAction request.actionId) ?_
  rintro found s₂ ⟨rfl, hsame₂⟩
  have hrecorded : recordedRelease request (s₁.world.actions.get? request.actionId) = none := by
    rw [(hreleased.of_same hsame₁).lookup]
    exact if_neg fun h => hreleased.unfinished h.1
  rw [hrecorded]
  refine .bind (R := fun _ s' => s₂.Same s') ?_ fun _ s₃ hsame₃ => ?_
  · unfold refuseFrozenApprover
    split
    · exact .ite (fun _ => .throw) fun _ => .pure ⟨rfl, rfl⟩
    · exact .pure ⟨rfl, rfl⟩
  refine .bind (returns_requireGovernedAction request.actionId) ?_
  rintro named s₄ ⟨-, hsame₄⟩
  rw [approveAndExecuteGovernedAction_eq]
  have hreleased₄ : ReleasedTarget request.actionId s₄ stored :=
    hreleased.of_same (hsame₁.trans (hsame₂.trans (hsame₃.trans hsame₄)))
  refine .bind (returns_releaseCallback sha256 hreleased₄) ?_
  rintro ran s₅ ⟨current, hcurrent, hpending⟩
  refine .bind returns_finalizeClaim ?_
  rintro executed s₆ ⟨claimed, hclaimed, hstatus⟩
  obtain rfl : current = claimed := Option.mem_unique hcurrent hclaimed
  rw [hpending] at hstatus
  cases hstatus

end Release

/-! ### A reconciliation that runs again -/

section Reconciliation

variable {env : Surroundings} {ledger ledger' : Budget.Store} {figures : PinnedFigures}
  {now now' : String} {result : ResultPayload}

/-- A reconciled row is not reconciled again. -/
theorem reconcileAttemptSpend_of_reconciled {debitId : String} {evidence : Budget.Evidence}
    {row : Budget.AttemptDebitRecord} (hrow : ledger.attemptDebits.get? debitId = some row)
    (hbasis : row.basis = .reconciled) :
    reconcileAttemptSpend env ledger debitId evidence = (false, ledger) := by
  have hresolve (adjust : Budget.Store → ℚ → Budget.Store) :
      Budget.resolveDebit ledger debitId Budget.DebitBasis.reconcilable .reconciled evidence
        adjust = (false, ledger) := by
    unfold Budget.resolveDebit
    rw [hrow]
    dsimp only
    rw [hbasis]
    exact if_neg (by decide)
  unfold reconcileAttemptSpend
  cases env.adapter with
  | memory | sqlalchemy => exact hresolve _

/-- Either nothing was done, or the row stands reconciled to the evidenced amount. -/
theorem reconcileAttemptSpend_cases (env : Surroundings) (ledger : Budget.Store)
    (debitId : String) (evidence : Budget.Evidence) :
    reconcileAttemptSpend env ledger debitId evidence = (false, ledger) ∨
      ∃ settled row, reconcileAttemptSpend env ledger debitId evidence = (true, settled) ∧
        settled.attemptDebits.get? debitId = some row ∧ row.basis = .reconciled ∧
        row.amountUsd = evidence.amountUsd := by
  have hresolve {adjust : Budget.Store → ℚ → Budget.Store}
      (hadjust : ∀ s delta, (adjust s delta).attemptDebits = s.attemptDebits) :
      Budget.resolveDebit ledger debitId Budget.DebitBasis.reconcilable .reconciled evidence
          adjust = (false, ledger) ∨
        ∃ settled row, Budget.resolveDebit ledger debitId Budget.DebitBasis.reconcilable
            .reconciled evidence adjust = (true, settled) ∧
          settled.attemptDebits.get? debitId = some row ∧ row.basis = .reconciled ∧
          row.amountUsd = evidence.amountUsd := by
    unfold Budget.resolveDebit
    cases ledger.attemptDebits.get? debitId with
    | none => exact .inl rfl
    | some row =>
      dsimp only
      split_ifs
      · refine .inr ⟨_, row.resolved .reconciled evidence, rfl, ?_, rfl, rfl⟩
        rw [hadjust]
        exact get?_insert_self ..
      · exact .inl rfl
  unfold reconcileAttemptSpend
  cases env.adapter with
  | memory => exact hresolve fun s delta => rfl
  | sqlalchemy => exact hresolve fun s delta => Budget.attemptDebits_adjustBudgetSpend ..

/-- After a successful reconciliation the row is settled by its figures. -/
theorem settledBy_of_reconcileFigures
    (h : reconcileFigures env figures now ledger = (.ok result, ledger')) :
    result = figures.result env.num ∧
      figures.settledBy (ledger'.attemptDebits.get? figures.debitId) := by
  unfold reconcileFigures at h
  rcases reconcileAttemptSpend_cases env ledger figures.debitId (figures.evidence now) with
    hkept | ⟨settled, row, hdone, hrow, hbasis, hamount⟩
  · rw [hkept] at h
    dsimp only at h
    split_ifs at h with hmoved
    · cases h
    · obtain ⟨hresult, rfl⟩ := Prod.mk.inj h
      refine ⟨(Except.ok.inj hresult).symm, ?_⟩
      by_contra hunsettled
      exact hmoved ⟨rfl, hunsettled⟩
  · rw [hdone] at h
    obtain ⟨hresult, rfl⟩ := Prod.mk.inj h
    refine ⟨(Except.ok.inj hresult).symm, ?_⟩
    rw [hrow]
    exact decide_eq_true ⟨hbasis, congrArg Budget.round8 hamount⟩

/-- A settled row is left alone, and answered for with the same result. -/
theorem reconcileFigures_of_settledBy
    (h : figures.settledBy (ledger.attemptDebits.get? figures.debitId)) :
    reconcileFigures env figures now ledger = (.ok (figures.result env.num), ledger) := by
  have hkept : reconcileAttemptSpend env ledger figures.debitId (figures.evidence now) =
      (false, ledger) := by
    cases hrow : ledger.attemptDebits.get? figures.debitId with
    | none =>
      rw [hrow] at h
      cases h
    | some row =>
      rw [hrow] at h
      exact reconcileAttemptSpend_of_reconciled hrow (of_decide_eq_true h).1
  unfold reconcileFigures
  rw [hkept]
  exact if_neg fun hlost => hlost.2 h

/-- A second reconciliation repeats the answer of the first, and changes nothing. -/
theorem executeReconciliation_again {record' : GovernedActionRecord}
    (hpayload : record'.actionPayload = record.actionPayload)
    (h : executeReconciliation env record now ledger = (.ok result, ledger')) :
    executeReconciliation env record' now' ledger' = (.ok result, ledger') := by
  unfold executeReconciliation at h ⊢
  rw [hpayload]
  cases hfigures : pinnedFigures env.num record.actionPayload with
  | error e =>
    rw [hfigures] at h
    cases h
  | ok figures =>
    rw [hfigures] at h
    obtain ⟨rfl, hsettled⟩ := settledBy_of_reconcileFigures h
    exact reconcileFigures_of_settledBy hsettled

end Reconciliation

/-! ### Steps of a resume -/

section Resume

variable {env : Surroundings} {i : ι} {s : Stores ι} {caller : AuthenticatedCaller}
  {args : ApprovalArgs} {claimed : GovernedActionRecord}

theorem Stores.Same.refl (s : Stores ι) : s.Same s := ⟨rfl, rfl⟩

theorem delivers_getGovernedAction (actionId : String) :
    (stores ι env).Delivers i (ask (.getGovernedAction actionId))
      (fun found s' => found = s.world.actions.get? actionId ∧ s.Same s') s := by
  refine .ask ⟨.store, ?_⟩ fun choice found s' hexec => ?_
  · cases hget : s.world.actions.get? actionId with
    | none => exact ⟨none, _, by simp only [stores, Stores.exec, exec, hget]; rfl⟩
    | some record => exact ⟨some record, _, by simp only [stores, Stores.exec, exec, hget]; rfl⟩
  · obtain ⟨choice', hgoverned⟩ := exec_governance hexec
    exact ⟨(outcome_of_exec hgoverned).1, same_of_exec hexec rfl⟩

variable {actionId : String} {result : ResultPayload}

theorem delivers_requireGovernedAction (hget : s.world.actions.get? actionId = some claimed) :
    (stores ι env).Delivers i (requireGovernedAction actionId)
      (fun record s' => record = claimed ∧ s.Same s') s := by
  refine .bind (delivers_getGovernedAction actionId) ?_
  rintro found s' ⟨rfl, hsame⟩
  rw [hget]
  exact .pure ⟨rfl, hsame⟩

theorem delivers_utcNowIso :
    (stores ι env).Delivers i (ask .utcNowIso) (fun _ s' => s.Same s') s :=
  .ask ⟨.time "", _, _, rfl⟩ fun _ _ _ hexec => same_of_exec hexec rfl

/-- The clock moves on: some reading differs from the stale one. -/
theorem delivers_rotatedInstant (stale now : String) :
    (stores ι env).Delivers i (rotatedInstant stale now) (fun _ s' => s.Same s') s := by
  unfold rotatedInstant
  split_ifs
  · refine .ask ⟨.time (stale ++ "'"), stale ++ "'", ⟨s.world.tick (stale ++ "'"), s.ledger⟩, ?_⟩
      fun _ _ _ hexec => same_of_exec hexec rfl
    change Option.map _ (if stale ++ "'" = stale then none else _) = _
    rw [if_neg (by simp)]
    rfl
  · exact .pure (.refl s)

/-- A compare-and-set on the claim as it stands is won. -/
theorem delivers_transition
    (hget : s.world.actions.get? actionId = some claimed) (hstatus : claimed.status = .claimed) :
    (stores ι env).Delivers i
      (ask (.transitionGovernedAction actionId .claimed record claimed.claimedAt))
      (fun won s' => won = true ∧ s.Wrote actionId record s') s := by
  have hadmits : s.world.admits actionId .claimed claimed.claimedAt = some claimed := by
    simp [World.admits, hget, hstatus]
  refine .ask ⟨.store, true, ⟨s.world.move i actionId claimed record, s.ledger⟩, ?_⟩
    fun choice won s' h => ?_
  · simp [stores, Stores.exec, exec, hadmits]
  · cases choice <;> simp [stores, Stores.exec, exec, hadmits] at h
    obtain ⟨rfl, rfl⟩ := h
    exact ⟨rfl, rfl, rfl⟩

theorem delivers_rotateClaim (hheld : HeldBy caller args.expectedHash claimed)
    (hget : s.world.actions.get? args.actionId = some claimed) (now : String) :
    (stores ι env).Delivers i (rotateClaim args claimed now)
      (fun rotated s' => (∃ instant, rotated = { claimed with claimedAt := some instant }) ∧
        s.Wrote args.actionId rotated s') s := by
  obtain ⟨stale, hstale⟩ := Option.isSome_iff_exists.mp hheld.instant
  unfold rotateClaim
  rw [hstale]
  refine .bind (delivers_rotatedInstant stale now) fun instant mid hsame => ?_
  rw [← hstale]
  refine .bind (delivers_transition (hsame.actions ▸ hget) hheld.status) ?_
  rintro won s' ⟨rfl, hwrote⟩
  exact .pure ⟨⟨instant, rfl⟩, hwrote.of_same hsame⟩

/-- The holder of a claim takes it over. -/
theorem delivers_claimAction (builder : GovernedActionRecord → Service Payload)
    (hheld : HeldBy caller args.expectedHash claimed)
    (hget : s.world.actions.get? args.actionId = some claimed)
    (hresume : args.resumeInterruptedClaim = true) (htarget : claimed.target = args.expectedTarget) :
    (stores ι env).Delivers i (claimAction sha256 caller args builder)
      (fun rotated s' => (∃ instant, rotated = { claimed with claimedAt := some instant }) ∧
        s.Wrote args.actionId rotated s') s := by
  have hresuming : resumingOwnClaim caller args claimed = true := by
    simp [resumingOwnClaim, hresume, hheld.status, hheld.holder]
  have hfits : approvalRefusal args claimed (resumingOwnClaim caller args claimed) = none :=
    approvalRefusal_eq_none_iff.mpr ⟨.inr hresuming, hheld.human, htarget, hheld.hash.symm⟩
  refine .bind (R := fun _ s' => s.Same s') ?_ fun _ s₁ hsame₁ => ?_
  · unfold requireVerifiedGoverningCredential
    rw [if_neg hheld.verified]
    exact .pure (.refl s)
  refine .bind (delivers_requireGovernedAction (hsame₁.actions ▸ hget)) ?_
  rintro record s₂ ⟨rfl, hsame₂⟩
  dsimp only
  rw [hfits, hresuming]
  refine .bind (R := fun _ s' => s₂.Same s') (.pure (.refl s₂)) fun _ s₃ hsame₃ => ?_
  refine .bind (R := fun _ s' => s₃.Same s') (.pure (.refl s₃)) fun _ s₄ hsame₄ => ?_
  refine .bind (R := fun _ s' => s₄.Same s') ?_ fun _ s₅ hsame₅ => ?_
  · unfold requireDistinctApprover
    rw [if_neg hheld.requester]
    exact .pure (.refl s₄)
  refine .bind delivers_utcNowIso fun now s₆ hsame₆ => ?_
  have hread : s.Same s₆ := hsame₁.trans (hsame₂.trans (hsame₃.trans (hsame₄.trans
    (hsame₅.trans hsame₆))))
  refine (delivers_rotateClaim hheld (hread.actions ▸ hget) now).mono ?_
  exact fun rotated s' ⟨hrotated, hwrote⟩ => ⟨hrotated, hwrote.of_same hread⟩

/-- The callback of a reconciliation that was carried out before. -/
theorem delivers_domainEffect (result : ResultPayload)
    (heffect : ∀ now, executeReconciliation env claimed now s.ledger = (.ok result, s.ledger)) :
    (stores ι env).Delivers i (domainEffect .budgetReconciliation claimed)
      (fun out s' => out = some result ∧ s.Same s') s := by
  have hexec (choice : Choice) (out : Except Raised (Option ResultPayload)) (s' : Stores ι)
      (h : (stores ι env).exec i s (.execute .budgetReconciliation claimed) choice =
        some (out, s')) : out = .ok (some result) ∧ s' = s := by
    cases choice <;> cases h
    rename_i now
    rw [heffect now]
    exact ⟨rfl, rfl⟩
  refine .bind (R := fun out s' => out = .ok (some result) ∧ s' = s)
    (.ask ⟨.time "", _, _, rfl⟩ hexec) ?_
  rintro out s' ⟨rfl, rfl⟩
  exact .pure ⟨rfl, .refl s'⟩

/-- A standing claim is finalized. -/
theorem delivers_finalizeClaim {result : Option ResultPayload}
    (hget : s.world.actions.get? actionId = some claimed) (hstatus : claimed.status = .claimed) :
    (stores ι env).Delivers i (finalizeClaim actionId claimed result)
      (fun executed s' => (∃ executedAt, executed = executedRecord claimed executedAt result) ∧
        s.Wrote actionId executed s') s := by
  refine .bind delivers_utcNowIso fun executedAt mid hsame => ?_
  refine .bind (delivers_transition (hsame.actions ▸ hget) hstatus) ?_
  rintro won s' ⟨rfl, hwrote⟩
  exact .pure ⟨⟨executedAt, rfl⟩, hwrote.of_same hsame⟩

/-- The action is executed with the result, and nothing else has changed. -/
structure Recovered (actionId : String) (result : Option ResultPayload) (s : Stores ι)
    (executed : GovernedActionRecord) (s' : Stores ι) : Prop where
  status : executed.status = .executed
  result : executed.resultPayload = result
  stored : s'.world.actions.get? actionId = some executed
  others : ∀ other, other ≠ actionId →
    s'.world.actions.get? other = s.world.actions.get? other
  ledger : s'.ledger = s.ledger

/-- The claim of a reconciliation whose callback has ended. -/
structure ReconciledClaim (env : Surroundings) (caller : AuthenticatedCaller)
    (args : ApprovalArgs) (claimed : GovernedActionRecord) (result : ResultPayload)
    (s : Stores ι) : Prop extends HeldBy caller args.expectedHash claimed where
  lookup : s.world.actions.get? args.actionId = some claimed
  effect : ∃ now ledger, executeReconciliation env claimed now ledger = (.ok result, s.ledger)

/-- A resumed reconciliation runs its callback, which changes nothing. -/
theorem delivers_claimAndRun (hclaim : ReconciledClaim env caller args claimed result s)
    (hresume : args.resumeInterruptedClaim = true) (htarget : claimed.target = args.expectedTarget) :
    (stores ι env).Delivers i (claimAndRun sha256 caller args (domainPayload .budgetReconciliation)
        (domainEffect .budgetReconciliation))
      (fun ran s' => (∃ instant, ran.1 = { claimed with claimedAt := some instant }) ∧
        ran.2 = some result ∧ s.Wrote args.actionId ran.1 s') s := by
  obtain ⟨now₀, ledger₀, heffect⟩ := hclaim.effect
  refine .bind (delivers_claimAction sha256 _ hclaim.toHeldBy hclaim.lookup hresume htarget) ?_
  rintro rotated s₁ ⟨⟨instant, rfl⟩, hwrote⟩
  refine .bind
    (.ask ⟨.store, _, _, rfl⟩ fun _ _ _ hexec => same_of_exec hexec rfl) fun _ s₂ hsame => ?_
  -- The payload is that of the first run, and the ledger is what that run left.
  refine .bind (delivers_domainEffect result fun now => ?_) ?_
  · rw [hsame.ledger, hwrote.ledger]
    exact executeReconciliation_again rfl heffect
  · rintro out s₃ ⟨rfl, hsame'⟩
    have hsame₃ := hsame.trans hsame'
    exact .pure ⟨⟨instant, rfl⟩, rfl, hsame₃.actions ▸ hwrote.actions,
      hsame₃.ledger.trans hwrote.ledger⟩

/-- A resumed reconciliation ends as the interrupted one would have. -/
theorem delivers_resume (hclaim : ReconciledClaim env caller args claimed result s)
    (hresume : args.resumeInterruptedClaim = true) (htarget : claimed.target = args.expectedTarget) :
    (stores ι env).Delivers i (approveDomainAction sha256 caller .budgetReconciliation args)
      (Recovered args.actionId (some result) s) s := by
  unfold approveDomainAction
  rw [approveAndExecuteGovernedAction_eq]
  refine .bind (R := fun ran s' => Recovered args.actionId (some result) s ran.1 s') ?_
    fun ran s' hrecovered => .pure hrecovered
  refine .bind (delivers_claimAndRun sha256 hclaim hresume htarget) ?_
  rintro ⟨rotated, out⟩ s₁ ⟨⟨instant, rfl⟩, rfl, ⟨hactions, hledger⟩⟩
  refine .bind (delivers_finalizeClaim ?_ hclaim.status) ?_
  · rw [hactions, get?_insert_self]
  rintro executed s₂ ⟨⟨executedAt, rfl⟩, ⟨hstored, hledger₂⟩⟩
  refine .pure ⟨rfl, rfl, ?_, fun other hother => ?_, hledger₂.trans hledger⟩
  · rw [hstored, get?_insert_self]
  · rw [hstored, get?_insert_of_ne _ hother, hactions, get?_insert_of_ne _ hother]

theorem Recovered.of_same {result : Option ResultPayload} {s' s'' : Stores ι}
    {executed : GovernedActionRecord} (hsame : s.Same s')
    (h : Recovered actionId result s' executed s'') : Recovered actionId result s executed s'' :=
  { h with
    others := hsame.actions ▸ h.others
    ledger := h.ledger.trans hsame.ledger }

theorem ReconciledClaim.of_same {s' : Stores ι} (hsame : s.Same s')
    (h : ReconciledClaim env caller args claimed result s) :
    ReconciledClaim env caller args claimed result s' :=
  { h with
    lookup := hsame.actions ▸ h.lookup
    effect := hsame.ledger ▸ h.effect }

/-- The approval of an interrupted reconciliation, resumed. -/
theorem delivers_approveBudgetReconciliation {request : BudgetReconciliationApprovalRequest}
    (hauthorized : (env.authorize caller.callerApp).allowed)
    (hclaim : ReconciledClaim env caller (request.args claimed.target) claimed result s)
    (hresume : request.resumeInterruptedClaim = true) :
    (stores ι env).Delivers i (approveBudgetReconciliation sha256 caller request)
      (Recovered request.actionId (some result) s) s := by
  refine .bind (R := fun _ s' => s.Same s') ?_ fun _ s₁ hsame₁ => ?_
  · refine .bind (R := fun decision s' => decision = env.authorize caller.callerApp ∧ s' = s)
      (.ask ⟨.store, _, _, rfl⟩ fun _ _ _ hexec => ?_) ?_
    · cases hexec
      exact ⟨rfl, rfl⟩
    · rintro decision s' ⟨rfl, rfl⟩
      unfold requireAuthorized
      rw [if_pos hauthorized]
      exact .pure (.refl s')
  refine .bind (delivers_getGovernedAction request.actionId) ?_
  rintro found s₂ ⟨rfl, hsame₂⟩
  have hrecorded : recordedRelease request (s₁.world.actions.get? request.actionId) = none := by
    rw [show s₁.world.actions.get? request.actionId = some claimed from
      (hclaim.of_same hsame₁).lookup]
    refine if_neg fun h => ?_
    rw [hclaim.status] at h
    cases h.1
  rw [hrecorded]
  refine .bind (delivers_requireGovernedAction (hclaim.of_same (hsame₁.trans hsame₂)).lookup) ?_
  rintro named s₃ ⟨rfl, hsame₃⟩
  have hread := hsame₁.trans (hsame₂.trans hsame₃)
  apply (delivers_resume sha256 (hclaim.of_same hread) hresume rfl).mono
  exact fun executed s' hrecovered => hrecovered.of_same hread

end Resume

/-! ### Which interrupted actions converge -/

section Convergence

variable (env : Surroundings) (i : ι) (kind : Recoverable) (caller : AuthenticatedCaller)

/-- The resume is sure to return, with the action executed, the given result, and everything else
as the interrupted approval has left it. -/
def Converges (request : ClaimReleaseApprovalRequest) (result : Option ResultPayload)
    (s : Stores ι) : Prop :=
  (stores ι env).Delivers i (kind.approve sha256 caller request)
    (Recovered request.actionId result s) s

variable {env i kind caller} {s₀ s₁ : Stores ι} {args : ApprovalArgs} {choices : List Choice}
  {claimed : GovernedActionRecord} {result : Option ResultPayload}

/-- An interrupted reconciliation stands claimed over the ledger it has settled. -/
theorem returns_claimAndRun_reconciliation :
    (stores ι env).Returns i (claimAndRun sha256 caller args
        Recoverable.budgetReconciliation.builder Recoverable.budgetReconciliation.callback)
      (fun ran s' => ∃ result, ran.2 = some result ∧
        ReconciledClaim env caller args ran.1 result s') s₀ := by
  refine .bind (returns_claimAction sha256 .budgetReconciliation) fun claimed s₁ hclaims => ?_
  refine .bind (returns_read rfl) fun _ s₂ hsame => ?_
  refine .bind (R := fun out s' => ∃ result, out = some result ∧
    s'.world.actions = s₂.world.actions ∧ ∃ now,
      executeReconciliation env claimed now s₂.ledger = (.ok result, s'.ledger)) ?_ ?_
  · refine .bind (R := fun out s' => s'.world.actions = s₂.world.actions ∧ ∃ now,
      (executeReconciliation env claimed now s₂.ledger).1.map some = out ∧
        (executeReconciliation env claimed now s₂.ledger).2 = s'.ledger)
      (.ask fun choice out s' hexec => ?_) ?_
    · cases choice <;> cases hexec
      exact ⟨rfl, _, rfl, rfl⟩
    · rintro out s' ⟨hactions, now, hout, hledger⟩
      cases heffect : (executeReconciliation env claimed now s₂.ledger).1 with
      | error e =>
        rw [heffect] at hout
        subst hout
        exact .throw
      | ok result =>
        rw [heffect] at hout
        subst hout
        exact .pure ⟨result, rfl, hactions, now, Prod.ext heffect hledger⟩
  · rintro out s₃ ⟨result, rfl, hactions, now, heffect⟩
    refine .pure ⟨result, rfl, hclaims.toHeldBy, ?_, now, s₂.ledger, heffect⟩
    rw [hactions, hsame.actions, hclaims.actions, get?_insert_self]

/-- A release that was carried out cannot be resumed. -/
theorem not_converges_release {resumer : AuthenticatedCaller} {result' : Option ResultPayload}
    (hrun : (stores ι env).run i (claimAndRun sha256 caller args Recoverable.claimRelease.builder
      Recoverable.claimRelease.callback).run s₀ choices = some (.ok (claimed, result), s₁))
    (haction : request.actionId = args.actionId) :
    ¬ Converges sha256 env i .claimRelease resumer request result' s₁ := by
  intro hconverges
  obtain ⟨stored, hreleased⟩ := (returns_claimAndRun_release sha256).of_run hrun
  rw [← haction] at hreleased
  obtain ⟨executed, s₂, -, hfalse⟩ := hconverges.of_returns
    (.bind (returns_approveClaimRelease_again sha256 hreleased) fun _ _ hfalse => hfalse.elim)
  exact hfalse

/-- An approval has run its callback and stops before it is stamped as executed; a caller with
the same credential resumes it. The resume converges for a reconciliation, and never for the
release of a claim. -/
theorem converges_iff {resumer : AuthenticatedCaller} {request : ClaimReleaseApprovalRequest}
    (hrun : (stores ι env).run i (claimAndRun sha256 caller args kind.builder kind.callback).run
      s₀ choices = some (.ok (claimed, result), s₁))
    (hcredential : resumer.credentialKeyId = caller.credentialKeyId)
    (hauthorized : (env.authorize resumer.callerApp).allowed)
    (haction : request.actionId = args.actionId) (hhash : request.actionHash = args.expectedHash)
    (hresume : request.resumeInterruptedClaim = true) :
    Converges sha256 env i kind resumer request result s₁ ↔ kind = .budgetReconciliation := by
  cases kind with
  | budgetReconciliation =>
    refine iff_of_true ?_ rfl
    obtain ⟨payload, rfl, hclaim⟩ := (returns_claimAndRun_reconciliation sha256).of_run hrun
    have hlookup : s₁.world.actions.get? request.actionId = some claimed :=
      haction ▸ hclaim.lookup
    have hresumed : ReconciledClaim env resumer (request.args claimed.target) claimed payload s₁ :=
      { verified := hcredential ▸ hclaim.verified
        status := hclaim.status
        instant := hclaim.instant
        holder := hcredential ▸ hclaim.holder
        human := hclaim.human
        hash := hclaim.hash.trans hhash.symm
        requester := hcredential ▸ hclaim.requester
        lookup := hlookup
        effect := hclaim.effect }
    exact delivers_approveBudgetReconciliation sha256 hauthorized hresumed hresume
  | claimRelease => exact iff_of_false (not_converges_release sha256 hrun haction) nofun

end Convergence

/-! ### A resumed reconciliation, and a release that stays claimed -/

/-- Amounts are read as whole dollars. -/
def sampleSurroundings : Surroundings where
  num :=
    { float := fun text => if text = "2" then some 2 else if text = "5" then some 5 else none
      int := fun _ => none
      amountStr := fun amount => if amount = 2 then "2" else if amount = 5 then "5" else "3" }
  adapter := .memory
  budgetKey := "b"
  authorize callerApp := { callerApp := callerApp, allowed := true, summary := "" }

/-- An operator with a credential. -/
def credentialed (credentialKeyId : String) : AuthenticatedCaller where
  callerApp := "ops"
  trustSource := "signed"
  credentialKeyId := some credentialKeyId

/-- A pending action that `k1` has requested. -/
def pendingAction (actionId : String) (actionType : GovernedActionType) (target : String)
    (payload : Payload) : GovernedActionRecord :=
  GovernedActionRequest.pending
    { actionId := actionId
      actionType := actionType
      actorClass := .humanApproved
      target := target
      actionHash := "h"
      actionPayload := payload
      requesterCallerApp := "ops"
      requesterTrustSource := "signed"
      requesterKeyId := some "k1"
      requesterAttribution := none
      requestedAt := "t0" }

/-- An approval of the action `a`. -/
def approvalOf (target : String) : ApprovalArgs where
  actionId := "a"
  expectedTarget := target
  expectedHash := "h"
  attribution := none
  resumeInterruptedClaim := false

/-- The explicit resume of the claim on `a`. -/
def resumeRequest : ClaimReleaseApprovalRequest where
  actionId := "a"
  actionHash := "h"
  approvedBy := none
  resumeInterruptedClaim := true

/-- Five dollars are held by the debit `d`; two were charged. -/
def reconciliationStores : Stores Unit where
  world :=
    { (.initial : World Unit) with
      actions := Dict.empty.insert "a" (pendingAction "a" .budgetReconciliation "d"
        (reconciliationPayload sampleSurroundings.num "d" 2 "invoice" none none "UNRESOLVED_MAX"
          5)) }
  ledger :=
    { attemptDebits := Dict.empty.insert "d"
        { debitId := "d", providerId := "p", basis := .unresolvedMax, amountUsd := 5,
          inputTokens := none, outputTokens := none, rateCardRef := "r", recordedAt := "t0",
          candidateEntryId := none, modelRevision := none, attemptIndex := none,
          candidateIdV2 := none }
      budgetStates := Dict.empty.insert "b" ⟨"b", 5, "t0"⟩ }

/-- `k2` approves the reconciliation and stops after its callback. -/
def interruptedReconciliation :
    Option (Except Raised (GovernedActionRecord × Option ResultPayload) × Stores Unit) :=
  (stores Unit sampleSurroundings).run () (claimAndRun (fun _ => "h") (credentialed "k2")
    (approvalOf "d") Recoverable.budgetReconciliation.builder
    Recoverable.budgetReconciliation.callback).run reconciliationStores
    [.store, .store, .time "t1", .store, .store, .time "t2"]

/-- A run of an approval up to the end of its callback, where it gets there. -/
def ranCallback (out : Option (Except Raised (GovernedActionRecord × Option ResultPayload) ×
    Stores Unit)) : Bool :=
  out.any fun end_ => end_.1.toOption.isSome

theorem exists_of_ranCallback
    {out : Option (Except Raised (GovernedActionRecord × Option ResultPayload) × Stores Unit)}
    (h : ranCallback out = true) :
    ∃ claimed result s, out = some (.ok (claimed, result), s) := by
  match out, h with
  | some (.ok (claimed, result), s), _ => exact ⟨claimed, result, s, rfl⟩

/-- The reconciliation of five held dollars to two is resumed. -/
theorem converges_reconciliation : ∃ claimed result s,
    interruptedReconciliation = some (.ok (claimed, result), s) ∧
      Converges (fun _ => "h") sampleSurroundings () .budgetReconciliation (credentialed "k2")
        resumeRequest result s := by
  obtain ⟨claimed, result, s, hrun⟩ := exists_of_ranCallback
    (show ranCallback interruptedReconciliation = true by decide +kernel)
  exact ⟨claimed, result, s, hrun, (converges_iff (fun _ => "h") hrun rfl rfl rfl rfl rfl).mpr rfl⟩

/-- The claim of `k3` on `x` is to be released. -/
def releaseStores : Stores Unit where
  world :=
    { (.initial : World Unit) with
      actions := (Dict.empty.insert "x" (claimedBy (credentialed "k3") none
        (pendingAction "x" .killSwitchClear "w" .empty) "t0")).insert "a"
        (pendingAction "a" .claimRelease "x" (releasePayload "x" "h" "t0" "k3" "gone")) }
  ledger := .empty

/-- `k2` approves the release and stops after its callback. -/
def interruptedRelease :
    Option (Except Raised (GovernedActionRecord × Option ResultPayload) × Stores Unit) :=
  (stores Unit sampleSurroundings).run () (claimAndRun (fun _ => "h") (credentialed "k2")
    (approvalOf "x") Recoverable.claimRelease.builder Recoverable.claimRelease.callback).run
    releaseStores [.store, .store, .time "t1", .store, .store, .store, .store]

/-- The status with which the release is resumed, and the states of the release and its target
after it. -/
def resumedRelease (s : Stores Unit) :
    Option (Option ℕ × Option GovernedActionStatus × Option GovernedActionStatus) :=
  ((stores Unit sampleSurroundings).run () (Recoverable.claimRelease.approve (fun _ => "h")
    (credentialed "k2") resumeRequest).run s [.store, .store, .store, .store, .time "t3", .store,
    .store, .store]).map fun out =>
      (match out.1 with
        | .error (.http status _) => some status
        | _ => none,
        (out.2.world.actions.get? "a").map (·.status),
        (out.2.world.actions.get? "x").map (·.status))

/-- The target is pending, and the resume of its release is refused for it: the release stays
claimed. -/
theorem released_claim_stays_claimed : ∃ claimed result s,
    interruptedRelease = some (.ok (claimed, result), s) ∧
      resumedRelease s = some (some 409, some .claimed, some .pending) ∧
      ¬ Converges (fun _ => "h") sampleSurroundings () .claimRelease (credentialed "k2")
        resumeRequest result s := by
  obtain ⟨claimed, result, s, hrun⟩ := exists_of_ranCallback
    (show ranCallback interruptedRelease = true by decide +kernel)
  refine ⟨claimed, result, s, hrun, ?_, not_converges_release _ hrun rfl⟩
  have hresumed : interruptedRelease.bind (fun out => resumedRelease out.2) =
      some (some 409, some .claimed, some .pending) := by decide +kernel
  rw [hrun] at hresumed
  exact hresumed

end LotusAI.Governance
