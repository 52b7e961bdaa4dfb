import LotusAI.Budget.Conservation
import LotusAI.Budget.Debits
import LotusAI.Provider.Gateway
import LotusAI.Provider.RateCards

/-!
# The provider transport

`post_openai_compatible_response`: post one request to a provider, again after a
retryable failure, and account for every attempt. Before an attempt its governed maximum
is reserved; at the boundary behind it the reservation is settled to reported usage,
released if the failure was not billable, or held.

What the transport calls is a program over `Call`. Metrics, spans, log lines and the
latency they report are left out; so are the checks of its caller's network permission.
-/

namespace LotusAI.Provider

open Lib Budget

/-! ### What a provider answers -/

/-- A JSON value. -/
inductive Json
  | null
  | bool (value : Bool)
  | int (value : ℤ)
  | float (text : String)
  | string (text : String)
  | array (items : List Json)
  | object (fields : List (String × Json))

/-- `as_int`. A boolean is an integer. -/
def asInt : Option Json → Option ℕ
  | some (.int value) => if 0 ≤ value then some value.toNat else none
  | some (.bool value) => some value.toNat
  | _ => none

/-- The input and output tokens a payload reports. -/
def usageOf (fields : List (String × Json)) : Option ℕ × Option ℕ :=
  match fields.lookup "usage" with
  | some (.object usage) =>
    (asInt (usage.lookup "input_tokens"), asInt (usage.lookup "output_tokens"))
  | _ => (none, none)

/-- How reading a body can fail. -/
inductive ReadFailure
  | timedOut
  | dropped
  deriving DecidableEq

/-- How `urlopen` and the reading of the answer can end. -/
inductive AttemptResult
  | responded (body : Except ReadFailure (List UInt8))
  | httpError (code : ℕ) (body : Except ReadFailure (List UInt8))
  | timeout
  | urlError
  deriving DecidableEq

/-- What the transport takes from libraries: reading dates, decoding and parsing bodies, and
the digest of a candidate's identity. -/
structure Libraries where
  iso : IsoFormat
  loads : List UInt8 → Except PythonError Json
  candidateDigest : String → String → String → Option String → String

/-- `derive_candidate_identity_v2`. -/
def Libraries.deriveCandidateIdentityV2 (lib : Libraries) (providerId modelFamily : String)
    (modelRevision : String) (deployment : Option String) : String :=
  "cand2_" ++ lib.candidateDigest providerId modelFamily modelRevision deployment

/-! ### Requests -/

/-- The arguments of `post_openai_compatible_response` and the enforcement configuration in
force. `debitExecutionId` is the caller's execution id, or the one minted for want of it. -/
structure TransportRequest where
  bodyBytes : ℕ
  body_nonempty : 0 < bodyBytes
  maxOutputTokens : ℕ
  apiKey : Option String
  requireApiKey : Bool
  timeoutSeconds : ℚ
  servingProviderId : String
  retryLimit : ℤ
  executionDeadlineAt : Option ℚ
  debitExecutionId : String
  costPosture : String
  modelRevision : Option String
  costCeilingUsd : Option ℚ
  deployment : Option String
  modelFamily : Option String
  budgetEnforced : Bool
  hardBudgetUsd : Option ℚ

namespace TransportRequest

variable (lib : Libraries) (request : TransportRequest)

/-- `bounded_retry_limit`. -/
def boundedRetryLimit : ℕ := request.retryLimit.toNat

/-- `candidate_entry_id`. -/
def candidateEntryId : String :=
  match truthy request.modelRevision with
  | some revision =>
    deriveModelCatalogueEntryId request.servingProviderId revision request.deployment
  | none => request.servingProviderId

/-- `candidate_id_v2`. -/
def candidateIdV2 : Option String :=
  match truthy request.modelRevision, truthy request.modelFamily with
  | some revision, some family =>
    some (lib.deriveCandidateIdentityV2 request.servingProviderId family revision
      request.deployment)
  | _, _ => none

def debitId (attemptIndex : ℕ) : String :=
  attemptDebitId request.debitExecutionId request.candidateEntryId attemptIndex
    (request.candidateIdV2 lib)

/-- The hard limit reservations observe. -/
def hardLimit : Option ℚ := if request.budgetEnforced then request.hardBudgetUsd else none

/-- The input estimate before any attempt has revealed usage. -/
def initialEstimate : ℕ := max 1 (request.bodyBytes / 4)

end TransportRequest

/-- One attempt as it is posted. -/
structure Posted where
  debitId : String
  bodyBytes : ℕ
  inputEstimate : ℕ
  maxOutputTokens : ℕ
  timeoutSeconds : ℚ
  deriving DecidableEq

/-! ### Calls -/

/-- The steps of the gateway that decide about a candidate or the request. -/
inductive Control
  | killSwitches (index : ℕ)
  | quota
  | budget
  | deadline (index : ℕ)
  | breaker (index : ℕ)
  | capability (index : ℕ)
  deriving DecidableEq

/-- What a served attempt leaves in the payload. -/
structure FailedAttempt where
  billableRisk : Bool
  inputTokens : Option ℕ
  outputTokens : Option ℕ
  debit : Option AttemptDebit

/-- The payload the transport returns. -/
structure ServedPayload where
  fields : List (String × Json)
  retryCount : ℕ
  failedAttempts : List FailedAttempt

/-- The calls. An estimate is asked for on behalf of an attempt. -/
inductive Call
  | monotonic
  | jitter
  | sleep (seconds : ℚ)
  | utcNow
  | estimateLiveTextCost (debitId : String) (modelRevision : Option String)
      (inputTokens outputTokens : ℕ)
  | sumAttemptDebits (front : String)
  | reserveAttemptDebit (record : AttemptDebitRecord) (hardLimitUsd : Option ℚ)
  | settleAttemptDebit (debitId : String) (basis : DebitBasis) (e : Evidence)
  | holdAttemptDebitUnresolved (debitId heldAt : String)
  | urlopen (posted : Posted)
  | control (step : Control)
  | bindCatalogueEntry (index : ℕ)
  | readPayload (index : ℕ) (payload : ServedPayload)

@[reducible] def Call.Answer : Call → Type
  | .monotonic => ℚ
  | .jitter => ℚ
  | .sleep _ => Unit
  | .utcNow => String
  | .estimateLiveTextCost .. => Except PythonError UsageCostEstimate
  | .sumAttemptDebits _ => ℚ
  | .reserveAttemptDebit .. => ReserveOutcome
  | .settleAttemptDebit .. => Bool
  | .holdAttemptDebitUnresolved .. => Bool
  | .urlopen _ => AttemptResult
  | .control _ => Except ProviderError Unit
  | .bindCatalogueEntry _ => Except ProviderError CatalogueEntry
  | .readPayload .. => Except ProviderError (ExecutionResponse ServedPayload)

/-- What the transport raises. -/
inductive TransportError
  | provider (error : ProviderError)
  | uncaught (error : PythonError)
  deriving DecidableEq

/-- Programs of the transport. -/
abbrev Transport := Prog.Raising Call.Answer TransportError

/-- Perform a call. -/
abbrev ask (call : Call) : Transport call.Answer := Prog.ask call

/-- Raise `ProviderExecutionError`. -/
def raise {α : Type} (category : FailureCategory) (message : String) : Transport α :=
  throw (.provider ⟨category, message⟩)

/-! ### Retry and backoff -/

/-- `RetryBackoffPlan.delay_before_retry`. -/
def delayBeforeRetry (retryIndex : ℕ) (jitter : ℚ) : ℚ :=
  min (1 / 4 * 2 ^ (retryIndex - 1)) 4 * (1 + 1 / 4 * jitter)

/-- `RetryBackoffPlan.total_deadline_seconds`. -/
def totalDeadlineSeconds (timeoutSeconds : ℚ) (retryLimit : ℕ) : ℚ :=
  timeoutSeconds * (retryLimit + 1) +
    ((List.range retryLimit).map fun index => min (1 / 4 * 2 ^ index) (4 : ℚ)).sum * (1 + 1 / 4)

/-- `RetryDecision`. -/
structure RetryDecision where
  permitted : Bool
  delaySeconds : ℚ

/-- `plan_retry`. -/
def planRetry (retryIndex : ℕ) (deadlineAt : ℚ) : Transport RetryDecision := do
  let jitter ← ask .jitter
  let delay := delayBeforeRetry retryIndex jitter
  let instant ← ask .monotonic
  return ⟨instant + delay ≤ deadlineAt, delay⟩

/-! ### Admission -/

section Rounds

variable (lib : Libraries) (request : TransportRequest)

/-- `estimate_live_text_cost` for one attempt. -/
def estimateFor (attemptIndex inputTokens outputTokens : ℕ) : Transport UsageCostEstimate := do
  match ← ask (.estimateLiveTextCost (request.debitId lib attemptIndex) request.modelRevision
    inputTokens outputTokens) with
  | .ok cost => return cost
  | .error e => throw (.uncaught e)

/-- The wait an attempt is allowed, unless the caller's deadline has passed. -/
def remainingTimeout (timeoutSeconds : ℚ) : Transport ℚ :=
  match request.executionDeadlineAt with
  | none => return timeoutSeconds
  | some deadline => do
    let now ← ask .monotonic
    if deadline - now ≤ 0 then
      raise .requestDeadlineExhausted
        ("The caller's max_latency_ms budget is exhausted; no further " ++
          "provider attempt may start.")
    else return min timeoutSeconds (deadline - now)

/-- Pre-attempt cost admission: the conservative estimate has to fit into what the ceiling
leaves. -/
def admitCost (attemptIndex inputEstimate : ℕ) (ceiling : ℚ) : Transport Unit := do
  let projected ← priceAttempt (estimateFor lib request attemptIndex) "conservative"
    ⟨none, none, true, inputEstimate, request.maxOutputTokens⟩
  match projected with
  | none =>
    raise .requestCostExhausted
      ("The caller declared max_estimated_cost_usd, but no effective " ++
        "rate card prices this candidate; the hard cost ceiling " ++
        "cannot be verified and fails closed.")
  | some debit => do
    let canonical ← ask (.sumAttemptDebits (canonicalFront request.debitExecutionId))
    let legacy ← ask (.sumAttemptDebits (legacyFront request.debitExecutionId))
    if ceiling < round8 (canonical + legacy + debit.amount.usd) then
      raise .requestCostExhausted
        ("The caller's max_estimated_cost_usd budget cannot support " ++
          "the next attempt at its conservative bound; no further " ++
          "attempt may start on this candidate.")
    else return ()

/-- The row of a reservation. -/
def reservationRecord (attemptIndex : ℕ) (reservation : AttemptDebit) (recordedAt : String) :
    AttemptDebitRecord where
  debitId := request.debitId lib attemptIndex
  providerId := request.servingProviderId
  basis := .reservedMax
  amountUsd := reservation.amount.usd
  inputTokens := some reservation.inputTokens
  outputTokens := some reservation.outputTokens
  rateCardRef := reservation.rateCardRef
  recordedAt := recordedAt
  candidateEntryId := some request.candidateEntryId
  modelRevision := request.modelRevision
  attemptIndex := some attemptIndex
  candidateIdV2 := request.candidateIdV2 lib

/-- Price the governed maximum, and reserve it: `require_priceable_admission` and
`reserve_attempt_spend`. -/
def reserveAttempt (attemptIndex : ℕ) : Transport Unit := do
  let reservation ← priceAttempt (estimateFor lib request attemptIndex) "conservative"
    ⟨none, none, true, request.bodyBytes, request.maxOutputTokens⟩
  match reservation with
  | none =>
    if request.budgetEnforced then
      raise .invalidBudgetConfiguration
        ("The live-provider hard budget is enforced but no effective rate card " ++
          "prices this candidate; admission fails closed rather than bypassing " ++
          "the limit.")
    else return ()
  | some debit => do
    let now ← ask .utcNow
    let admission ← ask (.reserveAttemptDebit
      (reservationRecord lib request attemptIndex debit now) request.hardLimit)
    if admission = .refused then
      raise .budgetExceeded
        ("The live-provider hard budget cannot support this attempt's " ++
          "governed maximum cost; admission is refused before the " ++
          "provider is called.")
    else return ()

/-! ### The boundary behind an attempt -/

/-- `settle_attempt_spend`. -/
def settleAttemptSpend (debitId : String) (debit : Option AttemptDebit) (billableRisk : Bool) :
    Transport Bool := do
  let now ← ask .utcNow
  match debit with
  | none =>
    if billableRisk then ask (.holdAttemptDebitUnresolved debitId now)
    else ask (.settleAttemptDebit debitId .released ⟨0, none, none, none, now⟩)
  | some debit =>
    -- reported usage is the only evidence that settles a reservation down
    if debit.basis ≠ .actualUsage then ask (.holdAttemptDebitUnresolved debitId now)
    else ask (.settleAttemptDebit debitId debit.basis ⟨debit.amount.usd,
      some debit.inputTokens, some debit.outputTokens, some debit.rateCardRef, now⟩)

/-- `_debit_boundary`. -/
def debitBoundary (attemptIndex inputEstimate : ℕ) (usage : Option ℕ × Option ℕ)
    (billableRisk : Bool) : Transport (Option AttemptDebit) := do
  let debit ← priceAttempt (estimateFor lib request attemptIndex) request.costPosture
    ⟨usage.1, usage.2, billableRisk, inputEstimate, request.maxOutputTokens⟩
  let _ ← settleAttemptSpend (request.debitId lib attemptIndex) debit billableRisk
  return debit

/-! ### Failures -/

/-- `failure_category_for_http_status`. -/
def failureCategoryForHttpStatus (code : ℕ) : FailureCategory :=
  if code = 429 then .providerRateLimited else .providerUpstreamError

/-- `is_retryable_provider_failure`. -/
def isRetryableProviderFailure (category : FailureCategory) (code : ℕ) : Bool :=
  category ∈ [.providerTimeout, .providerRateLimited] ||
    category = .providerUpstreamError && code ∈ [408, 500, 502, 503, 504]

/-- `safe_provider_error_message`. -/
def safeProviderErrorMessage (category : FailureCategory) (servingProviderId : String) : String :=
  match category with
  | .providerRateLimited => servingProviderId ++ " rate limit exceeded."
  | .providerTimeout =>
    servingProviderId ++ " request did not complete within the configured timeout."
  | _ => servingProviderId ++ " request failed at the upstream provider boundary."

/-- What the three arms that handle a failed attempt differ in. -/
structure Failure where
  category : FailureCategory
  retryable : Bool
  billableRisk : Bool
  usage : Option ℕ × Option ℕ
  /-- Whether the evidence handed on is stamped with the debit. -/
  stampsDebit : Bool

/-- The failure of an HTTP error with a payload: from 500 on, generation may have completed. -/
def httpFailure (code : ℕ) (fields : List (String × Json)) : Failure where
  category := failureCategoryForHttpStatus code
  retryable := isRetryableProviderFailure (failureCategoryForHttpStatus code) code
  billableRisk := 500 ≤ code
  usage := usageOf fields
  stampsDebit := true

def timeoutFailure : Failure := ⟨.providerTimeout, true, true, (none, none), true⟩

/-- A failure of the connection: the request reached no provider. -/
def urlFailure : Failure := ⟨.providerTimeout, true, false, (none, none), false⟩

/-- `load_error_payload`, and what the reading of a payload that is no object ends in. -/
def loadErrorPayload (body : Except ReadFailure (List UInt8)) :
    Except PythonError (List (String × Json)) :=
  match body with
  | .error .timedOut => .error .timeoutError
  | .error .dropped => .error .connectionError
  | .ok bytes =>
    match lib.loads bytes with
    | .ok (.object fields) => .ok fields
    | .ok _ => .error .attributeError
    | .error .jsonDecodeError => .ok []
    | .error e => .error e

/-- What the attempts so far leave for the next. -/
structure LoopState where
  inputEstimate : ℕ
  timeoutSeconds : ℚ
  failedAttempts : List FailedAttempt

/-- `_governed_deadline_stop`. -/
def governedDeadlineStop (retryable : Bool) (attemptIndex : ℕ) (delaySeconds : ℚ) :
    Transport Unit :=
  match request.executionDeadlineAt with
  | none => return ()
  | some deadline =>
    if retryable = false ∨ request.boundedRetryLimit ≤ attemptIndex then return ()
    else do
      let now ← ask .monotonic
      if now + delaySeconds ≤ deadline then return ()
      else
        raise .requestDeadlineExhausted
          ("The caller's max_latency_ms budget cannot support another retry; the " ++
            "provider attempt sequence stopped at the governed deadline.")

/-- A failed attempt: account for it, then retry or raise. Input tokens that a failed attempt
reports are the estimate from then on. -/
def failAttempt (attemptIndex : ℕ) (deadlineAt : ℚ) (state : LoopState) (failure : Failure) :
    Transport LoopState := do
  let decision ← planRetry (attemptIndex + 1) deadlineAt
  let inputEstimate := failure.usage.1.getD state.inputEstimate
  let debit ← debitBoundary lib request attemptIndex inputEstimate failure.usage
    failure.billableRisk
  if failure.retryable ∧ attemptIndex < request.boundedRetryLimit ∧ decision.permitted then do
    ask (.sleep decision.delaySeconds)
    return { state with
      inputEstimate := inputEstimate
      failedAttempts := state.failedAttempts ++ [⟨failure.billableRisk, failure.usage.1,
        failure.usage.2, if failure.stampsDebit then debit else none⟩] }
  else do
    governedDeadlineStop request failure.retryable attemptIndex decision.delaySeconds
    raise failure.category (safeProviderErrorMessage failure.category request.servingProviderId)

/-! ### The loop -/

/-- How a round ends that does not raise. -/
inductive Round
  | served (payload : ServedPayload)
  | retry (state : LoopState)

/-- What becomes of an attempt once its result is there. -/
def concludeAttempt (attemptIndex : ℕ) (deadlineAt : ℚ) (state : LoopState) :
    AttemptResult → Transport Round
  | .responded (.ok body) =>
    match lib.loads body with
    | .ok (.object fields) => do
      let _ ← debitBoundary lib request attemptIndex state.inputEstimate (usageOf fields) true
      return .served ⟨fields, attemptIndex, state.failedAttempts⟩
    -- no other JSON value takes the keys the transport adds
    | .ok _ => throw (.uncaught .typeError)
    | .error e => throw (.uncaught e)
  | .responded (.error .dropped) => throw (.uncaught .connectionError)
  | .responded (.error .timedOut) | .timeout => do
    return .retry (← failAttempt lib request attemptIndex deadlineAt state timeoutFailure)
  | .httpError code body =>
    match loadErrorPayload lib body with
    | .error e => throw (.uncaught e)
    | .ok fields => do
      return .retry (← failAttempt lib request attemptIndex deadlineAt state
        (httpFailure code fields))
  | .urlError => do
    return .retry (← failAttempt lib request attemptIndex deadlineAt state urlFailure)

/-- Everything before an attempt starts: the wait it is allowed. -/
def admitAttempt (attemptIndex : ℕ) (state : LoopState) : Transport ℚ := do
  let timeout ← remainingTimeout request state.timeoutSeconds
  if let some ceiling := request.costCeilingUsd then
    admitCost lib request attemptIndex state.inputEstimate ceiling
  reserveAttempt lib request attemptIndex
  return timeout

def attemptRound (attemptIndex : ℕ) (deadlineAt : ℚ) (state : LoopState) : Transport Round := do
  let timeout ← admitAttempt lib request attemptIndex state
  let result ← ask (.urlopen ⟨request.debitId lib attemptIndex, request.bodyBytes,
    state.inputEstimate, request.maxOutputTokens, timeout⟩)
  concludeAttempt lib request attemptIndex deadlineAt { state with timeoutSeconds := timeout }
    result

/-- The loop, with the number of rounds left. -/
def transportLoop (deadlineAt : ℚ) : ℕ → ℕ → LoopState → Transport ServedPayload
  | 0, _, _ =>
    raise .providerUpstreamError
      (safeProviderErrorMessage .providerUpstreamError request.servingProviderId)
  | rounds + 1, attemptIndex, state => do
    match ← attemptRound lib request attemptIndex deadlineAt state with
    | .served payload => return payload
    | .retry state' => transportLoop deadlineAt rounds (attemptIndex + 1) state'

/-- `post_openai_compatible_response`. -/
def postOpenaiCompatibleResponse : Transport ServedPayload :=
  if request.requireApiKey ∧ request.apiKey = none then
    raise .invalidLiveConfiguration
      ("Live provider credentials are not configured for " ++ request.servingProviderId ++ ".")
  else do
    let now ← ask .monotonic
    let planned := now + totalDeadlineSeconds request.timeoutSeconds request.boundedRetryLimit
    let deadlineAt := match request.executionDeadlineAt with
      | some deadline => min planned deadline
      | none => planned
    transportLoop lib request deadlineAt (request.boundedRetryLimit + 1) 0
      ⟨request.initialEstimate, request.timeoutSeconds, []⟩

end Rounds

end LotusAI.Provider
