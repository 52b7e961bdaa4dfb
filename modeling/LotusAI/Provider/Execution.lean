import LotusAI.Provider.Rounds

/-!
# Live executions

`execute_text_generation` in the live modes: the fixed route, which serves the one
configured candidate, and the ordered-fallback route. Here both run over the transport:
each candidate that is executed posts its request, and every attempt of every candidate
is accounted for under one execution id.
-/

namespace LotusAI.Provider

open Lib

section Routes

variable {m : Type → Type} [Monad m] {ρ : Type}

/-! ### The fixed route -/

/-- What an execution under the fixed policy starts from. `executionConfig` is the configured
identity's config as the declared connection material resolves it. -/
structure FixedRequest where
  authorization : AuthorizationDecision
  /-- `connection_material_findings`. -/
  findings : List String
  config : ExecutionConfig
  executionConfig : ExecutionConfig
  modeValue : String
  requirements : Option (List String)

/-- The decisions of the fixed policy, over their one candidate. -/
def fixedRoutingDecision (request : FixedRequest) (candidate : RoutingCandidate)
    (selectedProviderId selectedEntryId : Option String) (selectionReason decidedAt : String) :
    RoutingDecision :=
  let (enforced, unenforced) := requirementEnforcementSplit request.requirements
  { policyId := "fixed_configured_mode"
    policyVersion := "v1"
    strategy := .fixed
    candidates := [candidate]
    requirementsEnforcedDimensions := enforced
    requirementsUnenforcedDimensions := unenforced
    selectedProviderId := selectedProviderId
    selectedModelCatalogueEntryId := selectedEntryId
    decidedAt := decidedAt
    selectionReason := selectionReason
    fallbackPath := []
    universeSource := .configured
    universeExclusions := []
    servingPolicyVersion := none }

/-- `_build_rejected_routing_decision`. -/
def buildRejectedRoutingDecision (request : FixedRequest) (category : FailureCategory)
    (decidedAt : String) : RoutingDecision :=
  fixedRoutingDecision request (routingCandidate request.modeValue request.config (some category))
    none none (s!"Fixed policy: the single configured candidate was rejected " ++
      s!"({category.value}); execution refused.") decidedAt

/-- `_build_fixed_routing_decision`. -/
def buildFixedRoutingDecision (request : FixedRequest) (selectedProviderId : String)
    (entry : CatalogueEntry) (decidedAt : String) : RoutingDecision :=
  fixedRoutingDecision request
    { providerId := selectedProviderId
      providerMode := request.modeValue
      modelCatalogueEntryId := some entry.entryId
      modelRevision := some entry.modelRevision
      rejectionReason := none }
    (some selectedProviderId) (some entry.entryId)
    (s!"Fixed policy: configured provider mode '{request.modeValue}' resolves to exactly " ++
      "one adapter; no alternative candidates exist under this policy.") decidedAt

/-- The controls in front of the one candidate. -/
def fixedPreflight (controls : Controls m ρ) (request : FixedRequest) :
    m (Except ProviderError CatalogueEntry) := ExceptT.run do
  ExceptT.mk (controls.enforceKillSwitches 0 request.config)
  ExceptT.mk controls.enforceProviderQuota
  ExceptT.mk controls.enforceProviderBudget
  ExceptT.mk (controls.enforceProviderDegradationPreflight 0 request.config)
  let entry ← ExceptT.mk (controls.bindCatalogueEntry 0 request.config)
  ExceptT.mk (controls.enforceCapabilityRequirements 0 entry)
  ExceptT.mk (controls.requireBudgetRemaining 0)
  return entry

/-- The fixed route of `execute_text_generation`. `providerIdOf` is the provider a response
names. -/
def executeFixed (controls : Controls m ρ) (providerIdOf : ρ → String) (request : FixedRequest) :
    m (Except GatewayError (ExecutionResponse ρ)) :=
  if request.authorization.allowed = false then
    return .error (.http 403 request.authorization.summary)
  else if request.findings ≠ [] then do
    let now ← controls.utcNow
    let joined := "; ".intercalate request.findings
    return .error (.unavailable s!"{FailureCategory.invalidLiveConfiguration.value}: {joined}"
      (buildRejectedRoutingDecision request .invalidLiveConfiguration now))
  else do
    match ← fixedPreflight controls request with
    | .error e => do
      let now ← controls.utcNow
      return .error (.unavailable s!"{e.category.value}: {e.message}"
        (buildRejectedRoutingDecision request e.category now))
    | .ok entry => do
      let decidedAt ← controls.utcNow
      match ← controls.execute 0 request.executionConfig with
      | .error e => do
        controls.recordProviderFailure e.category
        return .error (.unavailable s!"{e.category.value}: {e.message}"
          (buildFixedRoutingDecision request
            ((truthy request.config.providerId).getD "provider.unavailable") entry decidedAt))
      | .ok response => do
        controls.recordModelRevisionDrift entry response.modelId
        controls.recordSuccessfulProviderExecution
        return .ok (stampResponse response entry
          (buildFixedRoutingDecision request (providerIdOf response.content) entry decidedAt))

/-! ### Both routes -/

/-- A live request, by the configured routing strategy. -/
inductive LiveRoute
  | fixed (request : FixedRequest)
  | ordered (request : OrderedRequest)

/-- A request in a live mode; `blocked` says why live execution is not enabled. -/
structure LiveRequest where
  blocked : Option String
  route : LiveRoute

/-- `execute_text_generation` in the live modes. -/
def executeTextGeneration (controls : Controls m ρ) (providerIdOf : ρ → String)
    (request : LiveRequest) : m (Except GatewayError (ExecutionResponse ρ)) :=
  match request.blocked with
  | some reason => return .error (.http 503
      s!"{FailureCategory.liveExecutionNotEnabled.value}: {reason}")
  | none =>
    match request.route with
    | .fixed request => executeFixed controls providerIdOf request
    | .ordered request => executeOrderedFallback controls request

end Routes

/-! ### Properties that sequences keep -/

section Composition

/-- A property of programs that holds of those that do nothing, and of sequences of programs
it holds of. -/
structure Composes {m : Type → Type} [Monad m] (P : (α : Type) → m α → Prop) : Prop where
  pure : ∀ {α : Type} (a : α), P α (Pure.pure a)
  bind : ∀ {α β : Type} {x : m α} {f : α → m β}, P α x → (∀ a, P β (f a)) → P β (x >>= f)

variable {m : Type → Type} [Monad m] {ρ : Type} {P : (α : Type) → m α → Prop}

/-- A property holds of every step of the gateway. -/
structure Controls.Satisfy (P : (α : Type) → m α → Prop) (controls : Controls m ρ) : Prop where
  killSwitches : ∀ index config, P _ (controls.enforceKillSwitches index config)
  quota : P _ controls.enforceProviderQuota
  budget : P _ controls.enforceProviderBudget
  deadline : ∀ index, P _ (controls.requireBudgetRemaining index)
  breaker : ∀ index config, P _ (controls.enforceProviderDegradationPreflight index config)
  catalogue : ∀ index config, P _ (controls.bindCatalogueEntry index config)
  capability : ∀ index entry, P _ (controls.enforceCapabilityRequirements index entry)
  execute : ∀ index config, P _ (controls.execute index config)
  failure : ∀ category, P _ (controls.recordProviderFailure category)
  drift : ∀ entry modelId, P _ (controls.recordModelRevisionDrift entry modelId)
  success : P _ controls.recordSuccessfulProviderExecution
  utcNow : P _ controls.utcNow

variable {controls : Controls m ρ}

/-- A step that may refuse, in front of others. -/
theorem Composes.bindExcept (h : Composes P) {ε α β : Type} {x : m (Except ε α)}
    {f : α → ExceptT ε m β} (hx : P _ x) (hf : ∀ a, P _ (f a).run) :
    P _ (ExceptT.run (ExceptT.mk x >>= f)) := by
  refine h.bind hx fun result => ?_
  cases result with
  | ok a => exact hf a
  | error e => exact h.pure _

section Steps

variable (h : Composes P) (hcontrols : controls.Satisfy P) (l : List (ExecutionConfig × ℕ))
  (providerIdOf : ρ → String)

include h hcontrols

theorem composes_vetoLoop (vetoes : Vetoes) :
    P _ (vetoLoop controls l vetoes) := by
  induction l generalizing vetoes with
  | nil => exact h.pure vetoes
  | cons entry rest ih =>
    refine h.bind (hcontrols.killSwitches entry.2 entry.1) fun verdict => ?_
    cases verdict with
    | ok | error e => exact ih _

theorem composes_preflight (candidate : ExecutionConfig) (index : ℕ) :
    P _ (preflight controls candidate index) :=
  h.bindExcept (hcontrols.deadline index) fun _ =>
    h.bindExcept (hcontrols.breaker index candidate) fun _ =>
      h.bindExcept (hcontrols.catalogue index candidate) fun entry =>
        h.bindExcept (hcontrols.capability index entry) fun _ => h.pure _

theorem composes_attemptLoop (attempts : Attempts) :
    P _ (attemptLoop controls l attempts) := by
  induction l generalizing attempts with
  | nil => exact h.pure _
  | cons entry rest ih =>
    refine h.bind (composes_preflight h hcontrols entry.1 entry.2) fun verdict => ?_
    cases verdict with
    | error e => exact ih _
    | ok catalogued =>
      refine h.bind (hcontrols.execute _ _) fun result => ?_
      cases result with
      | ok response => exact h.pure _
      | error e =>
        refine h.bind (hcontrols.failure _) fun _ => ?_
        split_ifs
        · exact ih _
        · exact h.pure _

theorem composes_serveEligible (request : OrderedRequest) (vetoes : Vetoes) :
    P _ (serveEligible controls request vetoes) := by
  refine h.bind (h.bindExcept hcontrols.quota fun _ => hcontrols.budget) fun economics => ?_
  cases economics with
  | error e => exact h.bind hcontrols.utcNow fun _ => h.pure _
  | ok =>
    refine h.bind (composes_attemptLoop h hcontrols _ _) fun finish => ?_
    obtain ⟨served, attempts⟩ := finish
    cases served with
    | none => exact h.bind hcontrols.utcNow fun _ => h.pure _
    | some served =>
      exact h.bind (hcontrols.drift _ _) fun _ => h.bind hcontrols.utcNow fun _ =>
        h.bind hcontrols.success fun _ => h.pure _

theorem composes_executeOrderedFallback (request : OrderedRequest) :
    P _ (executeOrderedFallback controls request) := by
  unfold executeOrderedFallback
  split_ifs
  · exact h.pure _
  · exact h.bind hcontrols.utcNow fun _ => h.pure _
  · exact h.bind hcontrols.utcNow fun _ => h.pure _
  · refine h.bind (composes_vetoLoop h hcontrols _ _) fun vetoes => ?_
    split_ifs
    · exact h.bind hcontrols.utcNow fun _ => h.pure _
    · exact composes_serveEligible h hcontrols request vetoes

theorem composes_fixedPreflight (request : FixedRequest) :
    P _ (fixedPreflight controls request) :=
  h.bindExcept (hcontrols.killSwitches _ _) fun _ => h.bindExcept hcontrols.quota fun _ =>
    h.bindExcept hcontrols.budget fun _ => h.bindExcept (hcontrols.breaker _ _) fun _ =>
      h.bindExcept (hcontrols.catalogue _ _) fun _ =>
        h.bindExcept (hcontrols.capability _ _) fun _ =>
          h.bindExcept (hcontrols.deadline _) fun _ => h.pure _

theorem composes_executeFixed (request : FixedRequest) :
    P _ (executeFixed controls providerIdOf request) := by
  unfold executeFixed
  split_ifs
  · exact h.pure _
  · exact h.bind hcontrols.utcNow fun _ => h.pure _
  · refine h.bind (composes_fixedPreflight h hcontrols request) fun verdict => ?_
    cases verdict with
    | error e => exact h.bind hcontrols.utcNow fun _ => h.pure _
    | ok entry =>
      refine h.bind hcontrols.utcNow fun _ => h.bind (hcontrols.execute _ _) fun result => ?_
      cases result with
      | error e => exact h.bind (hcontrols.failure _) fun _ => h.pure _
      | ok response =>
        exact h.bind (hcontrols.drift _ _) fun _ => h.bind hcontrols.success fun _ => h.pure _

/-- What holds of every step and composes holds of an execution. -/
theorem composes_executeTextGeneration (request : LiveRequest) :
    P _ (executeTextGeneration controls providerIdOf request) := by
  unfold executeTextGeneration
  cases request.blocked with
  | some reason => exact h.pure _
  | none =>
    cases request.route with
    | fixed request => exact composes_executeFixed h hcontrols providerIdOf request
    | ordered request => exact composes_executeOrderedFallback h hcontrols request

end Steps

end Composition

/-! ### Executions over the transport -/

/-- Programs of an execution: whatever is no provider error escapes. -/
abbrev Execution := Prog.Raising Call.Answer PythonError

/-- Run a transport; its provider errors are results. -/
def Transport.attempt {α : Type} (transport : Transport α) :
    Execution (Except ProviderError α) := ExceptT.mk do
  match ← transport.run with
  | .ok a => return .ok (.ok a)
  | .error (.provider e) => return .ok (.error e)
  | .error (.uncaught e) => return .error e

/-- `_request_for_attempt`: an attempt waits no longer than the deadline allows, in whole
milliseconds, and the transport never less than a second. -/
def TransportRequest.forAttempt (request : TransportRequest) (now : ℚ) : TransportRequest :=
  match request.executionDeadlineAt with
  | none => request
  | some deadline =>
    let remainingMs := ((deadline - now) * 1000).num.tdiv ((deadline - now) * 1000).den
    { request with
      timeoutSeconds := min request.timeoutSeconds (max ((max remainingMs 1 : ℤ) / 1000) 1) }

variable (request : TransportRequest) (now : ℚ)

@[simp] theorem TransportRequest.forAttempt_debitExecutionId :
    (request.forAttempt now).debitExecutionId = request.debitExecutionId := by
  unfold TransportRequest.forAttempt
  split <;> rfl

@[simp] theorem TransportRequest.forAttempt_hardLimit :
    (request.forAttempt now).hardLimit = request.hardLimit := by
  unfold TransportRequest.forAttempt
  split <;> rfl

@[simp] theorem TransportRequest.forAttempt_costCeilingUsd :
    (request.forAttempt now).costCeilingUsd = request.costCeilingUsd := by
  unfold TransportRequest.forAttempt
  split <;> rfl

/-- `adapter.execute`: post the request of the candidate, and read the payload. -/
def executeCandidate (lib : Libraries) (requestOf : ℕ → TransportRequest) (index : ℕ) :
    Execution (Except ProviderError (ExecutionResponse ServedPayload)) := do
  let now ← Prog.ask (.monotonic : Call)
  match ← (postOpenaiCompatibleResponse lib ((requestOf index).forAttempt now)).attempt with
  | .error e => return .error e
  | .ok payload => Prog.ask (.readPayload index payload : Call)

/-- The steps of the gateway over the transport. What they record about providers and models
is kept apart from the ledger. -/
def executionControls (lib : Libraries) (requestOf : ℕ → TransportRequest) :
    Controls Execution ServedPayload where
  enforceKillSwitches index _ := Prog.ask (.control (.killSwitches index) : Call)
  enforceProviderQuota := Prog.ask (.control .quota : Call)
  enforceProviderBudget := Prog.ask (.control .budget : Call)
  requireBudgetRemaining index := Prog.ask (.control (.deadline index) : Call)
  enforceProviderDegradationPreflight index _ := Prog.ask (.control (.breaker index) : Call)
  bindCatalogueEntry index _ := Prog.ask (.bindCatalogueEntry index : Call)
  enforceCapabilityRequirements index _ := Prog.ask (.control (.capability index) : Call)
  execute index _ := executeCandidate lib requestOf index
  recordProviderFailure _ := pure ()
  recordModelRevisionDrift _ _ := pure ()
  recordSuccessfulProviderExecution := pure ()
  utcNow := Prog.ask (.utcNow : Call)

section Keeps

variable {ι : Type} [DecidableEq ι] {setting : Setting ι} {i : ι} {I E : View → Prop}

/-- From any view in `I` a program ends in one in `I`, or in `E` with an exception. -/
def Keeps (setting : Setting ι) (i : ι) (I E : View → Prop) (α : Type) (p : Execution α) : Prop :=
  ∀ v, I v → (accounting setting).wp i p.run
    (fun out v' => match out with | .ok _ => I v' | .error _ => E v') v

theorem composes_keeps (setting : Setting ι) (i : ι) (I E : View → Prop) :
    Composes (Keeps setting i I E) where
  pure _ _ hv := hv
  bind hx hf v hv := Locality.wp_seq (hx v hv) hf fun _ _ hv' => hv'

theorem keeps_silent {call : Call} (hsilent : call.silent) :
    Keeps setting i I E call.Answer (Prog.ask call) := by
  intro v hv
  obtain ⟨hpermitted, hsame⟩ := silent_same setting i hsilent v
  refine ⟨hpermitted, fun answer v' hstep => ?_⟩
  rw [hsame answer v' hstep]
  exact hv

/-- An execution keeps what each of its transports keeps. -/
theorem keeps_executeTextGeneration {requestOf : ℕ → TransportRequest}
    (htransport : ∀ index now v, I v → (accounting setting).wp i
      (postOpenaiCompatibleResponse setting.lib ((requestOf index).forAttempt now)).run
      (EndsIn I E) v)
    (providerIdOf : ServedPayload → String) (request : LiveRequest) :
    Keeps setting i I E _ (executeTextGeneration (executionControls setting.lib requestOf)
      providerIdOf request) := by
  have hcomposes := composes_keeps setting i I E
  have hattempt : ∀ index now, Keeps setting i I E _
      (postOpenaiCompatibleResponse setting.lib ((requestOf index).forAttempt now)).attempt := by
    intro index now v hv
    rw [Transport.attempt, ExceptT.run_mk, Locality.wp_bind]
    refine Locality.wp_mono (htransport index now v hv) fun out v' hout => ?_
    match out with
    | .ok a | .error (.provider e) | .error (.uncaught e) => exact hout
  refine composes_executeTextGeneration hcomposes
    { killSwitches := fun _ _ => keeps_silent rfl
      quota := keeps_silent rfl
      budget := keeps_silent rfl
      deadline := fun _ => keeps_silent rfl
      breaker := fun _ _ => keeps_silent rfl
      catalogue := fun _ _ => keeps_silent rfl
      capability := fun _ _ => keeps_silent rfl
      execute := fun index _ => ?_
      failure := fun _ => hcomposes.pure _
      drift := fun _ _ => hcomposes.pure _
      success := hcomposes.pure _
      utcNow := keeps_silent rfl } providerIdOf request
  refine hcomposes.bind (keeps_silent rfl) fun now => hcomposes.bind (hattempt index now) ?_
  intro result
  cases result with
  | error e => exact hcomposes.pure _
  | ok payload => exact keeps_silent rfl

end Keeps

end LotusAI.Provider
