import LotusAI.Catalogue.Entries
import LotusAI.Governance.Actions
import LotusAI.Lib.Checks

/-!
# Governed changes of a catalogue row

`model_lifecycle_control`, as far as it computes on one row: which lifecycle transitions are
allowed, what a transition, a promotion, a degradation and a restore make of the row they have
read, and the payloads that the two governed ones are approved under. Reading the row and
writing it back are calls of their own.
-/

namespace LotusAI.Catalogue

open Lib Provider Governance

def pythonList (texts : List String) : String :=
  "[" ++ ", ".intercalate (texts.map fun text => "'" ++ text ++ "'") ++ "]"

/-! ### Checks -/

def permittedTargets (state : ModelLifecycleState) : String :=
  match allowedModelLifecycleTransitions state with
  | [] => "none (terminal state)"
  | allowed => pythonList ((allowed.map (·.value)).insertionSort (· ≤ ·))

/-- `_validate_lifecycle_edge`. -/
def validateLifecycleEdge (entry : ModelCatalogueEntry) (toState : ModelLifecycleState) :
    Except Raised Unit :=
  if toState ∈ allowedModelLifecycleTransitions entry.lifecycleState then .ok ()
  else
    let targets := permittedTargets entry.lifecycleState
    .error (unprocessable (s!"Transition {entry.lifecycleState.value} -> {toState.value} is not " ++
      s!"allowed; permitted targets: {targets}."))

/-- What a promotion reads of an evaluation run. -/
structure RunVerdict where
  lifecycleStatus : String
  verdict : Option String
  deriving DecidableEq

/-- `_require_pass_verdict_evaluation_run`, of the run that was found. -/
def requirePassVerdictEvaluationRun (runId : String) (run : Option RunVerdict) :
    Except Raised Unit :=
  match run with
  | none => .error (unprocessable (s!"Evaluation run `{runId}` does not exist; promotion " ++
      "evidence must name a real evaluation run."))
  | some run =>
    if run.lifecycleStatus ≠ "COMPLETED" ∨ run.verdict ≠ some "PASS" then
      let verdict := (truthy run.verdict).getD "none"
      .error (unprocessable (s!"Evaluation run `{runId}` is {run.lifecycleStatus} with verdict " ++
        s!"{verdict}; promotion requires a COMPLETED run with verdict PASS."))
    else .ok ()

/-! ### Lifecycle -/

/-- The row and the event of `_record_lifecycle_transition`. The event id is `mlc_` and
sixteen random hexadecimal digits. -/
def recordLifecycleTransition (entry : ModelCatalogueEntry) (toState : ModelLifecycleState)
    (reason requestedBy : String) (approvedBy approvalEvidenceRef : Option String)
    (hex now : String) : ModelCatalogueEntry × ModelLifecycleTransition :=
  ({ entry with
      lifecycleState := toState
      lastUpdatedAt := now
      approvalEvidenceRefs := match truthy approvalEvidenceRef with
        | some ref => entry.approvalEvidenceRefs ++ [ref]
        | none => entry.approvalEvidenceRefs },
    { eventId := "mlc_" ++ hex
      entryId := entry.entryId
      fromState := entry.lifecycleState
      toState := toState
      reason := reason
      requestedBy := requestedBy
      approvedBy := approvedBy
      approvalEvidenceRef := approvalEvidenceRef
      recordedAt := now })

/-- `apply_model_lifecycle_transition`, of the row that was read: one principal, and no serving
promotion. -/
def transitionStep (entry : ModelCatalogueEntry) (toState : ModelLifecycleState)
    (reason requestedBy hex now : String) :
    Except Raised (ModelCatalogueEntry × ModelLifecycleTransition) := do
  if toState ∈ modelServingPromotionTargets then
    throw (conflict (s!"Transition to {toState.value} expands serving posture and must go " ++
      "through the governed two-step promotion flow (issue #245): state the intent " ++
      "via promotion-requests, then a distinct verified credential approves via " ++
      "promotion-approvals."))
  else
    validateLifecycleEdge entry toState
    return recordLifecycleTransition entry toState reason requestedBy none none hex now

/-- The effect of an approved promotion, of the row that was read. -/
def promotionStep (entry : ModelCatalogueEntry) (toState : ModelLifecycleState)
    (evaluationRunId : String) (run : Option RunVerdict) (reason requestedBy approvedBy hex
    now : String) : Except Raised (ModelCatalogueEntry × ModelLifecycleTransition) := do
  validateLifecycleEdge entry toState
  requirePassVerdictEvaluationRun evaluationRunId run
  return recordLifecycleTransition entry toState reason requestedBy (some approvedBy)
    (some s!"evaluation-run:{evaluationRunId}") hex now

/-- `_promotion_action_payload`: pins the state and the revision. -/
def promotionActionPayload (entry : ModelCatalogueEntry) (toState : ModelLifecycleState)
    (evaluationRunId reason : String) : Payload :=
  ((((((((((Dict.empty.insert
    "action_type" (some GovernedActionType.modelLifecyclePromote.value)).insert
    "entry_id" (some entry.entryId)).insert
    "from_state" (some entry.lifecycleState.value)).insert
    "to_state" (some toState.value)).insert
    "provider_id" (some entry.providerId)).insert
    "model_family" (some entry.modelFamily)).insert
    "model_revision" (some entry.modelRevision)).insert
    "deployment" entry.deployment).insert
    "evaluation_run_id" (some evaluationRunId)).insert
    "reason" (some reason))

/-! ### Capabilities -/

/-- `degrade_model_capability`, of the row that was read. -/
def degradationStep (entryId : String) (entry : ModelCatalogueEntry)
    (dimension reason degradedBy now : String) : Except Raised ModelCatalogueEntry :=
  if dimension ∉ degradableCapabilityDimensions then
    let routed := pythonList degradableCapabilityDimensions
    .error (unprocessable (s!"`{dimension}` is not a degradable capability dimension; " ++
      s!"requirement routing enforces: {routed}."))
  else match entry.capabilityDegradations.get? dimension with
    | some existing => .error (conflict (s!"Capability `{dimension}` on `{entryId}` is already " ++
        s!"degraded (by {existing.degradedBy} at {existing.degradedAt}); the active " ++
        "degradation's provenance is not overwritable."))
    | none => .ok { entry with
        capabilityDegradations := entry.capabilityDegradations.insert dimension
          ⟨dimension, reason, degradedBy, now⟩
        lastUpdatedAt := now }

/-- `_get_required_capability_degradation`. -/
def requiredDegradation (entry : ModelCatalogueEntry) (dimension : String) :
    Except Raised CapabilityDegradation :=
  match entry.capabilityDegradations.get? dimension with
  | some degradation => .ok degradation
  | none => .error (conflict (s!"Capability `{dimension}` on `{entry.entryId}` is not degraded; " ++
      "there is nothing to restore."))

/-- `_capability_restore_payload`: pins the degradation that is to be cleared. -/
def capabilityRestorePayload (entry : ModelCatalogueEntry) (degradation : CapabilityDegradation)
    (evaluationRunId reason : String) : Payload :=
  ((((((((Dict.empty.insert
    "action_type" (some GovernedActionType.modelCapabilityRestore.value)).insert
    "entry_id" (some entry.entryId)).insert
    "dimension" (some degradation.dimension)).insert
    "degradation_reason" (some degradation.reason)).insert
    "degraded_by" (some degradation.degradedBy)).insert
    "degraded_at" (some degradation.degradedAt)).insert
    "evaluation_run_id" (some evaluationRunId)).insert
    "reason" (some reason))

/-- The effect of an approved restore, of the row that was read. -/
def restoreStep (entry : ModelCatalogueEntry) (dimension evaluationRunId : String)
    (run : Option RunVerdict) (now : String) : Except Raised ModelCatalogueEntry := do
  requirePassVerdictEvaluationRun evaluationRunId run
  return { entry with
    capabilityDegradations := entry.capabilityDegradations.erase dimension
    lastUpdatedAt := now }

/-! ### Accepted steps -/

section Accepted

variable {entry : ModelCatalogueEntry} {toState : ModelLifecycleState}
  {evaluationRunId reason requestedBy approvedBy hex now : String} {run : Option RunVerdict}

theorem validateLifecycleEdge_eq_ok {u : Unit} :
    validateLifecycleEdge entry toState = .ok u ↔
      toState ∈ allowedModelLifecycleTransitions entry.lifecycleState := by
  unfold validateLifecycleEdge
  split_ifs with hallowed
  · exact ⟨fun _ => hallowed, fun _ => rfl⟩
  · exact ⟨nofun, fun h => absurd h hallowed⟩

variable {outcome : ModelCatalogueEntry × ModelLifecycleTransition} {dimension : String}
  {updated : ModelCatalogueEntry}

/-- A transition is accepted when it follows an allowed edge and is no serving promotion. -/
theorem transitionStep_eq_ok :
    transitionStep entry toState reason requestedBy hex now = .ok outcome ↔
      toState ∉ modelServingPromotionTargets ∧
        toState ∈ allowedModelLifecycleTransitions entry.lifecycleState ∧
        recordLifecycleTransition entry toState reason requestedBy none none hex now =
          outcome := by
  unfold transitionStep
  split_ifs with hpromotion
  · exact ⟨nofun, fun h => absurd hpromotion h.1⟩
  · rw [bind_eq_ok]
    constructor
    · rintro ⟨u, hedge, hout⟩
      exact ⟨hpromotion, validateLifecycleEdge_eq_ok.mp hedge, pure_eq_ok.mp hout⟩
    · rintro ⟨-, hedge, hout⟩
      exact ⟨(), validateLifecycleEdge_eq_ok.mpr hedge, pure_eq_ok.mpr hout⟩

/-- A promotion is accepted when it follows an allowed edge and a passed run stands behind it. -/
theorem promotionStep_eq_ok :
    promotionStep entry toState evaluationRunId run reason requestedBy approvedBy hex now =
        .ok outcome ↔
      toState ∈ allowedModelLifecycleTransitions entry.lifecycleState ∧
        requirePassVerdictEvaluationRun evaluationRunId run = .ok () ∧
        recordLifecycleTransition entry toState reason requestedBy (some approvedBy)
          (some s!"evaluation-run:{evaluationRunId}") hex now = outcome := by
  unfold promotionStep
  rw [bind_eq_ok]
  constructor
  · rintro ⟨u, hedge, hrest⟩
    obtain ⟨u', hrun, hout⟩ := bind_eq_ok.mp hrest
    exact ⟨validateLifecycleEdge_eq_ok.mp hedge, hrun, pure_eq_ok.mp hout⟩
  · rintro ⟨hedge, hrun, hout⟩
    exact ⟨(), validateLifecycleEdge_eq_ok.mpr hedge,
      bind_eq_ok.mpr ⟨(), hrun, pure_eq_ok.mpr hout⟩⟩

/-- A degradation is accepted on an enforced dimension that is not degraded yet. -/
theorem degradationStep_eq_ok {entryId degradedBy : String} :
    degradationStep entryId entry dimension reason degradedBy now = .ok updated ↔
      dimension ∈ degradableCapabilityDimensions ∧
        entry.capabilityDegradations.get? dimension = none ∧
        { entry with
          capabilityDegradations := entry.capabilityDegradations.insert dimension
            ⟨dimension, reason, degradedBy, now⟩
          lastUpdatedAt := now } = updated := by
  unfold degradationStep
  by_cases hdimension : dimension ∈ degradableCapabilityDimensions
  · rw [if_neg (not_not.mpr hdimension)]
    cases hfound : entry.capabilityDegradations.get? dimension with
    | some existing => exact ⟨nofun, fun h => nomatch h.2.1⟩
    | none => exact ⟨fun h => ⟨hdimension, rfl, Except.ok.inj h⟩, fun h => congrArg _ h.2.2⟩
  · rw [if_pos hdimension]
    exact ⟨nofun, fun h => absurd h.1 hdimension⟩

/-- A restore is accepted when a passed run stands behind it. -/
theorem restoreStep_eq_ok :
    restoreStep entry dimension evaluationRunId run now = .ok updated ↔
      requirePassVerdictEvaluationRun evaluationRunId run = .ok () ∧ { entry with
          capabilityDegradations := entry.capabilityDegradations.erase dimension
          lastUpdatedAt := now } = updated := by
  unfold restoreStep
  rw [bind_eq_ok]
  exact ⟨fun ⟨_, hrun, hout⟩ => ⟨hrun, pure_eq_ok.mp hout⟩,
    fun ⟨hrun, hout⟩ => ⟨(), hrun, pure_eq_ok.mpr hout⟩⟩

end Accepted

end LotusAI.Catalogue
