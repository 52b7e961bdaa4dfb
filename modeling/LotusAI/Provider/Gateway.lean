import LotusAI.Http
import LotusAI.Lib.Dict
import LotusAI.Provider.Universe

/-!
# Ordered-fallback routing

`_execute_ordered_fallback`: enumerate the candidates of the derived universe, let the
kill switches veto candidates, enforce quota and budget once, and then try the remaining
candidates in order until one serves. Every ending carries a routing decision that says
what became of each candidate.

The steps the gateway calls are a parameter in an arbitrary monad: their outcomes may be
given in advance, or be programs themselves. Each is told the position of the candidate
it is for.
-/

namespace LotusAI.Provider

open Lib

variable {m : Type → Type} [Monad m] {ρ : Type}

/-! ### The routing decision -/

/-- `RoutingCandidateDescriptor`. -/
structure RoutingCandidate where
  providerId : String
  providerMode : String
  modelCatalogueEntryId : Option String
  modelRevision : Option String
  rejectionReason : Option FailureCategory
  deriving DecidableEq

/-- `RoutingStrategy`. -/
inductive RoutingStrategy
  | fixed
  | orderedFallback
  deriving DecidableEq

/-- `RoutingDecisionDescriptor`. -/
structure RoutingDecision where
  policyId : String
  policyVersion : String
  strategy : RoutingStrategy
  candidates : List RoutingCandidate
  requirementsEnforcedDimensions : List String
  requirementsUnenforcedDimensions : List String
  selectedProviderId : Option String
  selectedModelCatalogueEntryId : Option String
  decidedAt : String
  selectionReason : String
  fallbackPath : List String
  universeSource : UniverseSource
  universeExclusions : List Exclusion
  servingPolicyVersion : Option ℕ
  deriving DecidableEq

/-- `_candidate_entry_identity`. -/
def candidateEntryIdentity (config : ExecutionConfig) : Option String × Option String :=
  match truthy config.providerId, truthy config.modelId with
  | some providerId, some modelId =>
    let modelRevision := (truthy config.modelVersion).getD modelId
    (some (deriveModelCatalogueEntryId providerId modelRevision config.deployment),
      some modelRevision)
  | _, _ => (none, none)

/-- `ENFORCED_REQUIREMENT_DIMENSIONS`. -/
def enforcedRequirementDimensions : List String :=
  ["structured_output_required", "tool_calling_required", "max_latency_ms",
    "max_estimated_cost_usd"]

/-- `_requirement_enforcement_split` of the declared dimensions. -/
def requirementEnforcementSplit (declared : Option (List String)) : List String × List String :=
  match declared with
  | none => ([], [])
  | some dimensions =>
    ((dimensions.filter (· ∈ enforcedRequirementDimensions)).insertionSort (· ≤ ·),
      (dimensions.filter (· ∉ enforcedRequirementDimensions)).insertionSort (· ≤ ·))

/-- What a decision says of one candidate. -/
def routingCandidate (modeValue : String) (candidate : ExecutionConfig)
    (rejection : Option FailureCategory) : RoutingCandidate :=
  let (entryId, modelRevision) := candidateEntryIdentity candidate
  { providerId := (truthy candidate.providerId).getD "provider.unavailable"
    providerMode := modeValue
    modelCatalogueEntryId := entryId
    modelRevision := modelRevision
    rejectionReason := rejection }

/-- The candidate that served: its position, its config and its catalogue entry. -/
structure Serving where
  index : ℕ
  config : ExecutionConfig
  entry : CatalogueEntry
  deriving DecidableEq

/-- The statement of the selection or refusal. -/
def selectionReason (serving : Option Serving) (noCandidates : Bool) (fallbackPath : List String) :
    String :=
  match serving with
  | none =>
    if noCandidates then
      "Ordered-fallback policy: the derived candidate universe is empty - every " ++
      "policy-ordered identity was excluded (see universe_exclusions); execution refused."
    else
      "Ordered-fallback policy: every candidate was rejected or failed; execution refused."
  | some served =>
    if fallbackPath ≠ [] then
      "Ordered-fallback policy: an earlier candidate failed and a later candidate " ++
      "served; the fallback path names the failed provider(s)."
    else if served.index = 0 then
      "Ordered-fallback policy: the first candidate in the enumerated universe served."
    else
      "Ordered-fallback policy: an earlier candidate was rejected at preflight and " ++
      "a later candidate served; a preflight rejection is not a fallback."

/-- What a routing decision records besides the fate of its candidates. -/
structure RoutingContext where
  modeValue : String
  /-- The declared dimensions of the request's capability requirements. -/
  requirements : Option (List String)
  candidateUniverse : Option CandidateUniverse

/-- `_build_ordered_routing_decision`. -/
def buildOrderedRoutingDecision (context : RoutingContext)
    (candidates : List (ExecutionConfig × Option FailureCategory)) (serving : Option Serving)
    (fallbackPath : List String) (decidedAt : String) : RoutingDecision :=
  let (enforced, unenforced) := requirementEnforcementSplit context.requirements
  { policyId := "ordered_fallback_configured_alternate"
    policyVersion := "v1"
    strategy := .orderedFallback
    candidates := candidates.map fun (candidate, rejection) =>
      routingCandidate context.modeValue candidate rejection
    requirementsEnforcedDimensions := enforced
    requirementsUnenforcedDimensions := unenforced
    selectedProviderId := serving.bind (·.config.providerId)
    selectedModelCatalogueEntryId := serving.map (·.entry.entryId)
    decidedAt := decidedAt
    selectionReason := selectionReason serving candidates.isEmpty fallbackPath
    fallbackPath := fallbackPath
    universeSource := (context.candidateUniverse.map (·.source)).getD .configured
    universeExclusions := (context.candidateUniverse.map (·.exclusions)).getD []
    servingPolicyVersion := context.candidateUniverse.bind (·.servingPolicyVersion) }

/-! ### Endings -/

/-- What the gateway raises. -/
inductive GatewayError
  | http (statusCode : ℕ) (detail : String)
  /-- `ProviderGatewayUnavailableError`. -/
  | unavailable (detail : String) (decision : RoutingDecision)
  /-- An exception nobody meant to raise. -/
  | uncaught (exception : String)
  deriving DecidableEq

/-- `ProviderExecutionResponse`, with what the gateway stamps on it. -/
structure ExecutionResponse (ρ : Type) where
  content : ρ
  modelId : Option String
  modelVersion : Option String
  modelCatalogueEntryId : Option String
  modelRevisionPinned : Option Bool
  routingDecision : Option RoutingDecision
  deriving DecidableEq

def withRejections (candidates : List ExecutionConfig) (rejections : Dict ℕ FailureCategory) :
    List (ExecutionConfig × Option FailureCategory) :=
  candidates.zipIdx.map fun (candidate, index) => (candidate, rejections.get? index)

/-- `_ordered_refusal`. -/
def orderedRefusal (context : RoutingContext) (error : ProviderError)
    (candidates : List ExecutionConfig) (rejections : Dict ℕ FailureCategory)
    (fallbackPath : List String) (decidedAt : String) : GatewayError :=
  .unavailable s!"{error.category.value}: {error.message}"
    (buildOrderedRoutingDecision context (withRejections candidates rejections) none fallbackPath
      decidedAt)

/-- `_FAILURE_BY_UNIVERSE_EXCLUSION`, a dict without an entry for missing connection
material. -/
def failureByUniverseExclusion : ExclusionReason → Option FailureCategory
  | .modelNotCatalogued => some .modelNotCatalogued
  | .lifecycleIneligible => some .modelLifecycleIneligible
  | .policyExcluded => some .invalidLiveConfiguration
  | .connectionMaterialMissing => none

/-- The exclusion that gives an empty universe its category. -/
def firstPolicyIdentityExclusion (candidateUniverse : CandidateUniverse) : Option Exclusion :=
  candidateUniverse.exclusions.find? (·.reason ≠ .policyExcluded)

/-- `_empty_universe_refusal`. -/
def emptyUniverseRefusal (context : RoutingContext) (candidateUniverse : CandidateUniverse)
    (decidedAt : String) : GatewayError :=
  let category := match firstPolicyIdentityExclusion candidateUniverse with
    | some exclusion => failureByUniverseExclusion exclusion.reason
    | none => some .invalidLiveConfiguration
  match category with
  | none => .uncaught "KeyError"
  | some category =>
    let joined := "; ".intercalate (candidateUniverse.exclusions.map (·.detail))
    let detail := if joined = "" then "the derived candidate universe is empty" else joined
    .unavailable s!"{category.value}: {detail}"
      (buildOrderedRoutingDecision { context with candidateUniverse := some candidateUniverse } []
        none [] decidedAt)

/-! ### The loops -/

/-- The steps of the gateway. -/
structure Controls (m : Type → Type) (ρ : Type) where
  enforceKillSwitches : ℕ → ExecutionConfig → m (Except ProviderError Unit)
  enforceProviderQuota : m (Except ProviderError Unit)
  enforceProviderBudget : m (Except ProviderError Unit)
  requireBudgetRemaining : ℕ → m (Except ProviderError Unit)
  enforceProviderDegradationPreflight : ℕ → ExecutionConfig → m (Except ProviderError Unit)
  bindCatalogueEntry : ℕ → ExecutionConfig → m (Except ProviderError CatalogueEntry)
  enforceCapabilityRequirements : ℕ → CatalogueEntry → m (Except ProviderError Unit)
  execute : ℕ → ExecutionConfig → m (Except ProviderError (ExecutionResponse ρ))
  recordProviderFailure : FailureCategory → m Unit
  recordModelRevisionDrift : CatalogueEntry → Option String → m Unit
  recordSuccessfulProviderExecution : m Unit
  utcNow : m String

/-- What the kill switches left. -/
structure Vetoes where
  rejections : Dict ℕ FailureCategory
  eligible : List (ExecutionConfig × ℕ)
  errors : List ProviderError

/-- The loop over the kill switches. -/
def vetoLoop (controls : Controls m ρ) : List (ExecutionConfig × ℕ) → Vetoes → m Vetoes
  | [], vetoes => pure vetoes
  | (candidate, index) :: rest, vetoes => do
    match ← controls.enforceKillSwitches index candidate with
    | .error e => vetoLoop controls rest { vetoes with
        rejections := vetoes.rejections.insert index e.category
        errors := vetoes.errors ++ [e] }
    | .ok _ => vetoLoop controls rest { vetoes with
        eligible := vetoes.eligible ++ [(candidate, index)] }

/-- What the attempts so far left. -/
structure Attempts where
  rejections : Dict ℕ FailureCategory
  fallbackPath : List String
  errors : List ProviderError

/-- A candidate that did not serve, and was or was not executed. -/
def Attempts.reject (attempts : Attempts) (candidate : ExecutionConfig) (index : ℕ)
    (e : ProviderError) (executed : Bool) : Attempts where
  rejections := attempts.rejections.insert index e.category
  fallbackPath := match executed, truthy candidate.providerId with
    | true, some providerId => attempts.fallbackPath ++ [providerId]
    | _, _ => attempts.fallbackPath
  errors := attempts.errors ++ [e]

/-- The deadline, the circuit breaker, the catalogue entry and the capabilities, in order. -/
def preflight (controls : Controls m ρ) (candidate : ExecutionConfig) (index : ℕ) :
    m (Except ProviderError CatalogueEntry) := ExceptT.run do
  ExceptT.mk (controls.requireBudgetRemaining index)
  ExceptT.mk (controls.enforceProviderDegradationPreflight index candidate)
  let entry ← ExceptT.mk (controls.bindCatalogueEntry index candidate)
  ExceptT.mk (controls.enforceCapabilityRequirements index entry)
  return entry

/-- The loop over the eligible candidates: the first that serves, with its response, and what
the attempts before it left. -/
def attemptLoop (controls : Controls m ρ) : List (ExecutionConfig × ℕ) → Attempts →
    m (Option (Serving × ExecutionResponse ρ) × Attempts)
  | [], attempts => pure (none, attempts)
  | (candidate, index) :: rest, attempts => do
    match ← preflight controls candidate index with
    | .error e => attemptLoop controls rest (attempts.reject candidate index e false)
    | .ok entry =>
      match ← controls.execute index candidate with
      | .error e => do
        controls.recordProviderFailure e.category
        if e.category.isFallbackTrigger then
          attemptLoop controls rest (attempts.reject candidate index e true)
        else
          -- a deterministic refusal: the alternate cannot change it
          return (none, attempts.reject candidate index e true)
      | .ok response => return (some (⟨index, candidate, entry⟩, response), attempts)

/-! ### The gateway -/

/-- What an execution under the ordered-fallback policy starts from. -/
structure OrderedRequest where
  authorization : AuthorizationDecision
  /-- Findings on the fallback configuration and the connection material. -/
  findings : List String
  /-- Whether a complete fallback identity is configured. -/
  alternate : Bool
  config : ExecutionConfig
  modeValue : String
  requirements : Option (List String)
  candidateUniverse : CandidateUniverse
  /-- `derive_candidate_execution_config`. -/
  connection : String → Option ExecutionConfig

/-- The enumerated candidates. -/
def OrderedRequest.candidates (request : OrderedRequest) : List ExecutionConfig :=
  request.candidateUniverse.candidateEntryIds.filterMap request.connection

/-- The context of the decisions made over the universe. -/
def OrderedRequest.context (request : OrderedRequest) : RoutingContext :=
  ⟨request.modeValue, request.requirements, some request.candidateUniverse⟩

/-- Stamp the governed identity and the decision on a response. -/
def stampResponse (response : ExecutionResponse ρ) (entry : CatalogueEntry)
    (decision : RoutingDecision) : ExecutionResponse ρ :=
  { response with
    modelCatalogueEntryId := some entry.entryId
    modelRevisionPinned := some entry.revisionPinned
    modelVersion := some (response.modelVersion.getD entry.modelRevision)
    routingDecision := some decision }

def refuseWithLast (context : RoutingContext) (errors : List ProviderError)
    (candidates : List ExecutionConfig) (rejections : Dict ℕ FailureCategory)
    (fallbackPath : List String) (decidedAt : String) : GatewayError :=
  match errors.getLast? with
  | some error => orderedRefusal context error candidates rejections fallbackPath decidedAt
  | none => .uncaught "IndexError"

/-- The rejections when quota or budget refuse: every eligible candidate, for one reason. -/
def rejectAll (eligible : List (ExecutionConfig × ℕ)) (category : FailureCategory)
    (rejections : Dict ℕ FailureCategory) : Dict ℕ FailureCategory :=
  eligible.foldl (fun rejected entry => rejected.insert entry.2 category) rejections

/-- The part of the gateway after the kill switches: quota and budget once, then the
eligible candidates. -/
def serveEligible (controls : Controls m ρ) (request : OrderedRequest) (vetoes : Vetoes) :
    m (Except GatewayError (ExecutionResponse ρ)) := do
  let candidates := request.candidates
  let economics ← ExceptT.run do
    ExceptT.mk controls.enforceProviderQuota
    ExceptT.mk controls.enforceProviderBudget
  match economics with
  | .error e => do
    let now ← controls.utcNow
    return .error (orderedRefusal request.context e candidates
      (rejectAll vetoes.eligible e.category vetoes.rejections) [] now)
  | .ok _ => do
    let (served, attempts) ← attemptLoop controls vetoes.eligible ⟨vetoes.rejections, [], []⟩
    match served with
    | some (serving, response) => do
      controls.recordModelRevisionDrift serving.entry response.modelId
      let now ← controls.utcNow
      let decision := buildOrderedRoutingDecision request.context
        (withRejections candidates attempts.rejections) (some serving) attempts.fallbackPath now
      controls.recordSuccessfulProviderExecution
      return .ok (stampResponse response serving.entry decision)
    | none => do
      let now ← controls.utcNow
      return .error (refuseWithLast request.context attempts.errors candidates
        attempts.rejections attempts.fallbackPath now)

/-- `_execute_ordered_fallback`. -/
def executeOrderedFallback (controls : Controls m ρ) (request : OrderedRequest) :
    m (Except GatewayError (ExecutionResponse ρ)) :=
  if request.authorization.allowed = false then
    return .error (.http 403 request.authorization.summary)
  else if request.findings ≠ [] ∨ request.alternate = false then do
    let now ← controls.utcNow
    let joined := "; ".intercalate request.findings
    let detail := if joined = "" then
      "ordered_fallback requires a complete fallback identity and none is configured" else joined
    return .error (.unavailable
      s!"{FailureCategory.invalidLiveConfiguration.value}: {detail}"
      (buildOrderedRoutingDecision ⟨request.modeValue, request.requirements, none⟩
        [(request.config, some .invalidLiveConfiguration)] none [] now))
  else if request.candidates = [] then do
    let now ← controls.utcNow
    return .error (emptyUniverseRefusal request.context request.candidateUniverse now)
  else do
    let vetoes ← vetoLoop controls request.candidates.zipIdx ⟨.empty, [], []⟩
    if vetoes.eligible = [] then do
      let now ← controls.utcNow
      return .error (refuseWithLast request.context vetoes.errors request.candidates
        vetoes.rejections [] now)
    else serveEligible controls request vetoes

end LotusAI.Provider
