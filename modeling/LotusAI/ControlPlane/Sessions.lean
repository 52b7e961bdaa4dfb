import LotusAI.ControlPlane.Honesty

/-!
# Every operation makes honest calls

Each operation of the control plane is taken through its calls once: what it writes follows
from what it has read, and what a governed one writes was approved for it.
-/

namespace LotusAI.ControlPlane

open Lib Governance Provider KillSwitch Prompts Catalogue Yields List Locality

variable {sha256 : String → String} {ι : Type} [DecidableEq ι] {i : ι} {notes : Notes}
  {settings : ControlSettings} {caller : AuthenticatedCaller}

section Operations

variable [Fact (notes.pending = none)] {approval : Approval} {cause : Option GovernedActionRecord}
  {actionType : GovernedActionType} {reason : String} {requestedBy : Option String}
  {payload : Payload} {target : String}

theorem yields_authorized {capability : Capability} {taskId : Option String} :
    Behaves sha256 i (authorized caller capability taskId) notes := by
  refine yields_observe quiet rfl fun decision => ?_
  unfold requireAuthorized
  split_ifs
  · exact yields_pure trivial
  · exact yields_throw

theorem yields_service_submit {attribution : Option String} :
    Behaves sha256 i (service (submitGovernedAction sha256 caller actionType target payload
      attribution)) notes :=
  yields_submit

/-! ### Kill switches -/

section KillSwitches

variable {iso : IsoFormat} {switchId : String}

theorem yields_activateKillSwitch {request : KillSwitchActivationRequest} :
    Behaves sha256 i (activateKillSwitch iso settings caller request) notes := by
  refine yields_observe quiet rfl fun decision => ?_
  refine yields_observe quiet rfl fun hex => ?_
  refine yields_observe quiet rfl fun now => ?_
  refine yields_check fun activation _ => ?_
  exact yields_observe ⟨quiet, trivial⟩ rfl fun _ => yields_pure trivial

theorem requireActiveActivation_eq_ok {found : Option KillSwitchActivation}
    {activation : KillSwitchActivation}
    (h : requireActiveActivation switchId found = .ok activation) : found = some activation := by
  cases found with
  | none => cases h
  | some stored =>
    unfold requireActiveActivation at h
    dsimp only at h
    split_ifs at h
    exact congrArg some (Except.ok.inj h)

theorem yields_requireActive :
    Yields sha256 i (requireActive switchId) (fun activation notes' =>
      activation.switchId = switchId ∧
        Reading.activation switchId (some activation) ∈ notes'.readings) notes := by
  refine yields_call quiet fun found notes' hnoted => ?_
  obtain ⟨hkey, rfl⟩ := hnoted
  refine ⟨subset_cons_self .., yields_orRaise fun activation hactive => ?_⟩
  obtain rfl := requireActiveActivation_eq_ok hactive
  exact ⟨hkey activation rfl, (.head _)⟩

theorem yields_requestKillSwitchClearance :
    Behaves sha256 i (requestKillSwitchClearance sha256 settings caller switchId reason
      requestedBy) notes := by
  refine bind yields_authorized fun _ _ _ _ _ => ?_
  refine yields_check fun _ _ => ?_
  refine bind yields_requireActive fun activation _ _ _ _ => ?_
  exact yields_service_submit

/-- The activation of a clearance is the one that was read before, and approved. -/
theorem yields_approveKillSwitchClearance :
    Behaves sha256 i (approveKillSwitchClearance sha256 settings caller switchId
      approval) notes := by
  refine bind yields_authorized fun _ _ _ _ _ => ?_
  refine yields_check fun _ _ => ?_
  refine bind yields_requireActive fun activation read _ _ hread => ?_
  obtain ⟨rfl, hread⟩ := hread
  refine yields_approveGoverned (fun request payload _ =>
    clearancePayload activation (clearReason request.actionPayload) = payload)
    (fun record => yields_pure rfl) ?_
  intro claimed payload notes' _ hgrows hpayload happroves
  refine yields_observe quiet rfl fun now => ?_
  refine yields_ask ⟨quiet, activation, hgrows hread, hpayload ▸ happroves⟩ ?_
  intro _ notes'' hnoted
  rw [show notes'' = notes' from hnoted]
  exact ⟨quiet, List.Subset.refl _, trivial⟩

theorem yields_recordExpiries {now : String} (activations : List KillSwitchActivation) :
    Behaves sha256 i (recordExpiries iso now activations) notes := by
  induction activations generalizing notes with
  | nil => exact yields_pure trivial
  | cons activation rest ih =>
    refine yields_check fun lapsed _ => ?_
    cases lapsed with
    | none => exact ih.thenPure
    | some expired =>
      exact yields_observe ⟨quiet, trivial⟩ rfl fun _ => ih.thenPure

theorem yields_buildKillSwitchStatus : Behaves sha256 i (buildKillSwitchStatus iso) notes := by
  refine yields_observe quiet rfl fun now => ?_
  refine yields_observe quiet rfl fun listed => ?_
  refine (yields_recordExpiries listed).bind fun activations _ _ _ _ => ?_
  exact yields_check fun _ _ => yields_pure trivial

end KillSwitches

/-! ### Prompt rollout -/

section PromptRollout

variable {taskId : String}

theorem yields_requireRolloutState :
    Yields sha256 i (requireRolloutState taskId) (fun state notes' => state.taskId = taskId ∧
      Reading.rollout taskId (some state) ∈ notes'.readings) notes := by
  refine yields_call quiet fun found notes' hnoted => ?_
  obtain ⟨hkey, rfl⟩ := hnoted
  refine ⟨subset_cons_self .., ?_⟩
  cases found with
  | none => exact yields_throw
  | some state => exact yields_pure ⟨hkey state rfl, (.head _)⟩

theorem yields_requirePromptVersion {promptVersion : String} :
    Behaves sha256 i (requirePromptVersion taskId promptVersion) notes := by
  refine yields_call quiet fun found notes' hnoted => ?_
  obtain rfl := hnoted
  exact ⟨subset_cons_self .., yields_orRaise fun _ _ => trivial⟩

variable {authorization : AuthorizationDecision} {candidate : Option String} {requestedBy : String}
  {state : PromptRolloutState}

theorem yields_buildPromoteTransition {approvedBy : String} :
    Yields sha256 i (buildPromoteTransition state taskId candidate reason requestedBy approvedBy
      authorization) (fun transition _ => transition.state.taskId = state.taskId) notes := by
  refine yields_observe quiet rfl fun gate => ?_
  refine yields_check fun candidateVersion _ => ?_
  refine yields_call quiet fun found notes' hnoted => ?_
  obtain rfl := hnoted
  refine ⟨subset_cons_self .., yields_check fun candidate _ => ?_⟩
  refine bind yields_requirePromptVersion fun active _ _ _ _ => ?_
  refine yields_observe quiet rfl fun hex => ?_
  exact yields_observe quiet rfl fun now => yields_pure rfl

theorem yields_buildRollbackTransition :
    Behaves sha256 i (buildRollbackTransition state taskId candidate reason requestedBy
      authorization) notes := by
  refine yields_check fun previousVersion _ => ?_
  refine bind yields_requirePromptVersion fun active _ _ _ _ => ?_
  refine bind yields_requirePromptVersion fun previous _ _ _ _ => ?_
  refine yields_observe quiet rfl fun hex => ?_
  exact yields_observe quiet rfl fun now => yields_pure trivial

theorem yields_saveTransition {transition : RolloutTransition}
    (h : HonestRollout sha256 notes.readings transition cause) :
    Behaves sha256 i (saveTransition transition cause) notes :=
  yields_observe ⟨quiet, h⟩ rfl fun _ => yields_orRaise fun _ _ => trivial

theorem yields_applyPromptControlAction {request : PromptControlActionRequest} :
    Behaves sha256 i (applyPromptControlAction settings caller request) notes := by
  refine bind yields_authorized fun authorization _ _ _ _ => ?_
  cases request.actionType with
  | promoteCandidate => exact yields_throw
  | rollbackToPreviousActive =>
    refine yields_check fun _ _ => ?_
    refine bind yields_requireRolloutState fun state _ _ _ _ => ?_
    refine bind yields_buildRollbackTransition fun transition _ _ _ _ => ?_
    exact thenPure (yields_saveTransition trivial)

theorem yields_requestPromptPromotion {request : PromptPromotionIntent} :
    Behaves sha256 i (requestPromptPromotion sha256 settings caller request) notes := by
  refine bind yields_authorized fun authorization _ _ _ _ => ?_
  refine yields_check fun _ _ => ?_
  refine bind yields_requireRolloutState fun state _ _ _ _ => ?_
  refine bind yields_buildPromoteTransition fun _ _ _ _ _ => ?_
  exact yields_service_submit

/-- The rollout state of a promotion is the one that was read before, and approved. -/
theorem yields_approvePromptPromotion :
    Behaves sha256 i (approvePromptPromotion sha256 settings caller taskId approval) notes := by
  refine bind yields_authorized fun authorization _ _ _ _ => ?_
  refine yields_check fun _ _ => ?_
  refine bind yields_requireRolloutState fun state read _ _ hread => ?_
  obtain ⟨rfl, hread⟩ := hread
  refine yields_approveGoverned (fun request payload _ =>
    promotionPayload state.taskId (request.actionPayload.text "candidate_prompt_version")
      state.activePromptVersion (request.actionPayload.text "reason") = payload)
    (fun record => yields_pure rfl) ?_
  intro claimed payload notes' _ hgrows hpayload happroves
  refine bind yields_buildPromoteTransition fun transition notes'' _ hgrows' htask => ?_
  refine yields_saveTransition ⟨state, _, _, _, ?_, hpayload ▸ happroves⟩
  rw [htask]
  exact hgrows' (hgrows hread)

end PromptRollout

/-! ### The model catalogue -/

section Models

variable {cause : EntryCause} {row : ModelCatalogueEntry} {entryId reason : String}

/-- More readings leave a row honest. -/
theorem HonestEntry.mono {readings readings' : List Reading} (hgrows : readings ⊆ readings')
    (h : HonestEntry sha256 readings row cause) : HonestEntry sha256 readings' row cause := by
  cases cause with
  | transition event =>
    obtain ⟨baseline, toState, reason, requestedBy, hex, now, hread, hstep⟩ := h
    exact ⟨baseline, toState, reason, requestedBy, hex, now, hgrows hread, hstep⟩
  | promotion record event =>
    obtain ⟨baseline, toState, runId, run, reason, requestedBy, approvedBy, hex, now, hread,
      hrest⟩ := h
    exact ⟨baseline, toState, runId, run, reason, requestedBy, approvedBy, hex, now,
      hgrows hread, hrest⟩
  | degradation dimension =>
    obtain ⟨baseline, reason, degradedBy, now, hread, hstep⟩ := h
    exact ⟨baseline, reason, degradedBy, now, hgrows hread, hstep⟩
  | restore record dimension =>
    obtain ⟨baseline, degradation, runId, run, reason, now, hread, hrest⟩ := h
    exact ⟨baseline, degradation, runId, run, reason, now, hgrows hread, hrest⟩
  | seeding =>
    obtain ⟨seed, found, hread, hverdict⟩ := h
    exact ⟨seed, found, hgrows hread, hverdict⟩

/-- A row is written under the identity guard; its operation then owes the event of the
write. -/
theorem wp_upsertModelCatalogueEntry (hentry : HonestEntry sha256 notes.readings row cause) :
    (control sha256 ι).wp i (upsertModelCatalogueEntry sha256 row cause).run
      (fun result notes' => notes.readings ⊆ notes'.readings ∧ notes'.pending = match result with
          | .ok _ => cause.event?
          | .error _ => none) notes := by
  refine ⟨quiet, fun existing notes' hnoted => ?_⟩
  obtain ⟨-, rfl⟩ := hnoted
  change (control sha256 ι).wp i (ExceptT.run (orRaise (sameCandidate sha256 row existing) >>=
    fun _ => ask (.upsertEntry row cause))) _ _
  cases sameCandidate sha256 row existing with
  | error e => exact ⟨subset_cons_self .., quiet⟩
  | ok =>
    refine ⟨⟨quiet, hentry.mono (subset_cons_self ..)⟩, fun _ notes'' hnoted => ?_⟩
    obtain rfl := hnoted
    exact ⟨subset_cons_self .., rfl⟩

theorem yields_upsertModelCatalogueEntry (hevent : cause.event? = none)
    (hentry : HonestEntry sha256 notes.readings row cause) :
    Behaves sha256 i (upsertModelCatalogueEntry sha256 row cause) notes := by
  apply wp_mono (wp_upsertModelCatalogueEntry hentry)
  intro result notes' hresult
  refine ⟨?_, hresult.1, fun _ _ => trivial⟩
  cases result with
  | ok => exact hresult.2.trans hevent
  | error e => exact hresult.2

/-- The row, then the event that belongs to it. -/
theorem yields_recordTransition {event : ModelLifecycleTransition}
    (hevent : cause.event? = some event) (hentry : HonestEntry sha256 notes.readings row cause) :
    Behaves sha256 i (recordTransition sha256 row cause event) notes := by
  refine wp_seq (wp_upsertModelCatalogueEntry hentry) ?_ ?_
  · intro _ notes' hresult
    refine ⟨hresult.2.trans hevent, fun _ notes'' hnoted => ?_⟩
    obtain rfl := hnoted
    exact ⟨rfl, hresult.1, fun _ _ => trivial⟩
  · intro e notes' hresult
    exact ⟨hresult.2, hresult.1, nofun⟩

theorem yields_controlledEntry :
    Yields sha256 i (controlledEntry settings caller entryId) (fun entry notes' =>
      entry.entryId = entryId ∧ Reading.entry entryId (some entry) ∈ notes'.readings) notes := by
  refine bind yields_authorized fun _ _ _ _ _ => ?_
  refine yields_check fun _ _ => ?_
  refine yields_call quiet fun found notes' hnoted => ?_
  obtain ⟨hkey, rfl⟩ := hnoted
  refine ⟨subset_cons_self .., ?_⟩
  cases found with
  | none => exact yields_throw
  | some entry => exact yields_pure ⟨hkey entry rfl, (.head _)⟩

variable {toState : ModelLifecycleState} {approval : Approval} {found : Option ModelCatalogueEntry}
  {seed : ModelCatalogueEntry}

theorem entryId_of_transitionStep {entry : ModelCatalogueEntry} {requestedBy hex now : String}
    {outcome : ModelCatalogueEntry × ModelLifecycleTransition}
    (h : transitionStep entry toState reason requestedBy hex now = .ok outcome) :
    outcome.1.entryId = entry.entryId := by
  obtain ⟨-, -, rfl⟩ := transitionStep_eq_ok.mp h
  rfl

theorem yields_applyModelLifecycleTransition :
    Behaves sha256 i (applyModelLifecycleTransition sha256 settings caller entryId toState
      reason) notes := by
  refine bind yields_controlledEntry fun entry _ _ _ hread => ?_
  obtain ⟨rfl, hread⟩ := hread
  refine yields_observe quiet rfl fun now => ?_
  refine yields_observe quiet rfl fun hex => ?_
  refine yields_check fun outcome houtcome => ?_
  refine thenPure (yields_recordTransition rfl ?_)
  refine ⟨entry, toState, reason, verifiedCallerIdentity caller, hex, now, ?_, houtcome⟩
  rw [entryId_of_transitionStep houtcome]
  exact hread

theorem yields_requestModelPromotion {request : ModelPromotionIntent} :
    Behaves sha256 i (requestModelPromotion sha256 settings caller entryId request) notes := by
  refine bind yields_controlledEntry fun entry _ _ _ _ => ?_
  refine yields_check fun _ _ => ?_
  refine yields_check fun _ _ => ?_
  refine yields_observe quiet rfl fun run => ?_
  exact yields_check fun _ _ => yields_service_submit

/-- The row of a promotion is the one that was read before, and approved. -/
theorem yields_approveModelPromotion :
    Behaves sha256 i (approveModelPromotion sha256 settings caller entryId approval) notes := by
  refine bind yields_controlledEntry fun entry read _ _ hread => ?_
  obtain ⟨rfl, hread⟩ := hread
  refine yields_approveGoverned (fun request payload _ => ∃ toState,
    payloadToState request.actionPayload = .ok toState ∧
      promotionActionPayload entry toState (request.actionPayload.text "evaluation_run_id")
        (request.actionPayload.text "reason") = payload) ?_ ?_
  · intro record
    exact yields_check fun toState htoState => yields_pure ⟨toState, htoState, rfl⟩
  intro claimed payload notes' _ hgrows hvetted happroves
  obtain ⟨toState, htoState, rfl⟩ := hvetted
  refine yields_check fun toState' htoState' => ?_
  obtain rfl := Except.ok.inj (htoState.symm.trans htoState')
  refine yields_observe quiet rfl fun run => ?_
  refine yields_observe quiet rfl fun now => ?_
  refine yields_observe quiet rfl fun hex => ?_
  refine yields_check fun outcome houtcome => ?_
  refine yields_recordTransition rfl
    ⟨entry, toState, _, run, _, _, _, hex, now, ?_, houtcome, happroves⟩
  obtain ⟨-, -, rfl⟩ := promotionStep_eq_ok.mp houtcome
  exact hgrows hread

theorem yields_degradeModelCapability {dimension : String} :
    Behaves sha256 i (degradeModelCapability sha256 settings caller entryId dimension
      reason) notes := by
  refine bind yields_controlledEntry fun entry _ _ _ hread => ?_
  obtain ⟨rfl, hread⟩ := hread
  refine yields_observe quiet rfl fun now => ?_
  refine yields_check fun updated hupdated => ?_
  have hkey : updated.entryId = entry.entryId := by
    obtain ⟨-, -, rfl⟩ := degradationStep_eq_ok.mp hupdated
    rfl
  refine thenPure (yields_upsertModelCatalogueEntry rfl
    ⟨entry, reason, verifiedCallerIdentity caller, now, ?_, ?_⟩)
  · rw [hkey]
    exact hread
  · rw [hkey]
    exact hupdated

theorem yields_requestModelCapabilityRestore {request : CapabilityRestoreIntent} :
    Behaves sha256 i (requestModelCapabilityRestore sha256 settings caller entryId
      request) notes := by
  refine bind yields_controlledEntry fun entry _ _ _ _ => ?_
  refine yields_check fun degradation _ => ?_
  refine yields_observe quiet rfl fun run => ?_
  exact yields_check fun _ _ => yields_service_submit

/-- The row of a restore is the one that was read before, and approved. -/
theorem yields_approveModelCapabilityRestore :
    Behaves sha256 i (approveModelCapabilityRestore sha256 settings caller entryId
      approval) notes := by
  refine bind yields_controlledEntry fun entry read _ _ hread => ?_
  obtain ⟨rfl, hread⟩ := hread
  refine yields_approveGoverned (fun request payload _ => ∃ degradation,
    requiredDegradation entry (request.actionPayload.text "dimension") = .ok degradation ∧
      capabilityRestorePayload entry degradation (request.actionPayload.text "evaluation_run_id")
        (request.actionPayload.text "reason") = payload) ?_ ?_
  · intro record
    exact yields_check fun degradation hdegradation =>
      yields_pure ⟨degradation, hdegradation, rfl⟩
  intro claimed payload notes' _ hgrows hvetted happroves
  obtain ⟨degradation, hdegradation, rfl⟩ := hvetted
  refine yields_observe quiet rfl fun run => ?_
  refine yields_observe quiet rfl fun now => ?_
  refine yields_check fun updated hupdated => ?_
  refine yields_upsertModelCatalogueEntry rfl
    ⟨entry, degradation, _, run, _, now, ?_, hdegradation, hupdated, happroves⟩
  obtain ⟨-, rfl⟩ := restoreStep_eq_ok.mp hupdated
  exact hgrows hread

theorem entryId_of_update (h : reconcile sha256 seed found = .update row) :
    row.entryId = seed.entryId := by
  cases found with
  | none => cases h
  | some existing =>
    unfold reconcile at h
    dsimp only at h
    split_ifs at h
    cases h
    rfl

/-- A round of seeding writes what it makes of the row it has read. -/
theorem yields_writeVerdict (hread : Reading.entry seed.entryId found ∈ notes.readings) :
    Behaves sha256 i (writeVerdict sha256 seed (reconcile sha256 seed found)) notes := by
  cases hverdict : reconcile sha256 seed found with
  | create =>
    exact yields_upsertModelCatalogueEntry rfl ⟨seed, found, hread, .inl ⟨hverdict, rfl⟩⟩
  | update candidate =>
    refine yields_upsertModelCatalogueEntry rfl ⟨seed, found, ?_, .inr hverdict⟩
    rw [entryId_of_update hverdict]
    exact hread
  | identityConflict | unchanged => exact yields_pure trivial

theorem yields_seedRounds (seeds : List ModelCatalogueEntry) {report : SeedReport} :
    Behaves sha256 i (seedRounds sha256 seeds report) notes := by
  induction seeds generalizing notes report with
  | nil => exact yields_pure trivial
  | cons seed rest ih =>
    refine yields_call quiet fun found notes' hnoted => ?_
    obtain ⟨-, rfl⟩ := hnoted
    refine ⟨subset_cons_self .., ?_⟩
    exact bind (yields_writeVerdict (.head _)) fun _ _ _ _ _ => ih

theorem yields_ensureModelCatalogueSeeded {settings : SeedSettings} :
    Behaves sha256 i (ensureModelCatalogueSeeded sha256 settings) notes := by
  refine yields_observe quiet rfl fun now => ?_
  exact yields_check fun seeds _ => yields_seedRounds seeds

end Models

/-! ### The serving policy -/

section ServingPolicy

theorem yields_readServingOrder {settings : SeedSettings} :
    Yields sha256 i (readServingOrder settings) (fun operative notes' => ∃ policy,
      operative = operativeOrder settings policy ∧ Reading.policy policy ∈ notes'.readings)
      notes := by
  refine yields_call quiet fun policy notes' hnoted => ?_
  obtain rfl := hnoted
  exact ⟨subset_cons_self .., yields_pure ⟨policy, rfl, (.head _)⟩⟩

theorem yields_resolveIdentity {identity : String} :
    Yields sha256 i (resolveIdentity identity) (fun found notes' =>
      Reading.resolution identity found ∈ notes'.readings) notes := by
  unfold resolveIdentity Reading.resolution
  split_ifs
  · refine yields_ask quiet fun found notes' hnoted => ?_
    obtain rfl := hnoted
    exact ⟨quiet, subset_cons_self .., (.head _)⟩
  · refine yields_ask quiet fun found notes' hnoted => ?_
    obtain ⟨-, rfl⟩ := hnoted
    exact ⟨quiet, subset_cons_self .., (.head _)⟩

theorem yields_savePolicy {version : ServingPolicyVersion}
    (h : HonestPolicy sha256 notes.readings version cause) :
    Behaves sha256 i (savePolicy version cause) notes :=
  yields_observe ⟨quiet, h⟩ rfl fun _ => yields_orRaise fun _ _ => trivial

variable {entryId : String}

theorem yields_requestServingPolicyIdentityAdd :
    Behaves sha256 i (requestServingPolicyIdentityAdd sha256 settings caller entryId reason
      requestedBy) notes := by
  refine bind yields_authorized fun _ _ _ _ _ => ?_
  refine bind yields_ensureModelCatalogueSeeded fun _ _ _ _ _ => ?_
  refine yields_call quiet fun entry notes' hnoted => ?_
  obtain ⟨-, rfl⟩ := hnoted
  refine ⟨subset_cons_self .., ?_⟩
  refine bind yields_readServingOrder fun operative _ _ _ _ => ?_
  exact yields_check fun payload _ => yields_service_submit

/-- The version of an addition follows the order that its callback has read; the payload that
was approved followed the one that its builder has read. -/
theorem yields_approveServingPolicyIdentityAdd :
    Behaves sha256 i (approveServingPolicyIdentityAdd sha256 settings caller approval) notes := by
  refine bind yields_authorized fun _ _ _ _ _ => ?_
  refine bind yields_requireGovernedAction fun named _ _ _ _ => ?_
  refine yields_approveGoverned (fun request payload notes' => ∃ policy entry,
    Reading.policy policy ∈ notes'.readings ∧
      Reading.resolution request.target entry ∈ notes'.readings ∧
      additionPayload sha256 request.target request.actionPayload
        (operativeOrder settings.seed policy).1 entry = .ok payload) ?_ ?_
  · intro record
    refine bind yields_readServingOrder fun operative _ _ _ hpolicy => ?_
    obtain ⟨policy, rfl, hpolicy⟩ := hpolicy
    refine bind yields_resolveIdentity fun entry _ _ hgrows hentry => ?_
    exact yields_orRaise fun payload hpayload =>
      ⟨policy, entry, hgrows hpolicy, hentry, hpayload⟩
  intro claimed payload vetted _ _ hvetted happroves
  obtain ⟨policy, entry, hpolicy, hentry, hpayload⟩ := hvetted
  refine bind yields_readServingOrder fun operative _ _ hgrows₁ hpolicy' => ?_
  obtain ⟨policy', rfl, hpolicy'⟩ := hpolicy'
  refine bind yields_resolveIdentity fun entry' _ _ hgrows₂ hentry' => ?_
  refine yields_observe quiet rfl fun now => ?_
  refine yields_check fun version hversion => ?_
  exact yields_savePolicy ⟨settings.seed, policy, policy', entry, entry',
    caller.credentialKeyId, now, payload, hgrows₂ (hgrows₁ hpolicy), hgrows₂ hpolicy',
    hgrows₂ (hgrows₁ hentry), hentry', hpayload, happroves, hversion⟩

theorem yields_removeServingPolicyIdentity :
    Behaves sha256 i (removeServingPolicyIdentity sha256 settings caller entryId) notes := by
  refine bind yields_authorized fun _ _ _ _ _ => ?_
  refine bind yields_readServingOrder fun operative _ _ _ _ => ?_
  refine bind yields_resolveIdentity fun resolved _ _ _ _ => ?_
  refine yields_observe quiet rfl fun now => ?_
  refine yields_check fun version _ => ?_
  exact thenPure (yields_savePolicy trivial)

end ServingPolicy

/-! ### The other requests to the governed-action services -/

section Governance

variable {record : GovernedActionRecord} {request : ClaimReleaseApprovalRequest}

/-- The freshness check of a service whose builder makes calls to the store. -/
theorem yields_requireFreshness {resuming : Bool} {builder : GovernedActionRecord → Service Payload}
    (hbuilder : Behaves sha256 i (service (builder record)) notes) :
    Behaves sha256 i (service (requireFreshness sha256 resuming builder record)) notes := by
  cases resuming with
  | true => exact yields_pure trivial
  | false =>
    refine bindUnder hbuilder fun payload _ _ _ _ => ?_
    split_ifs
    · exact yields_pure trivial
    · exact yields_throw

/-- What a call answers is raised or returned. -/
theorem yields_under_orRaise {α : Type}
    {handle : (call : Governance.Call) → Prog Call.Answer call.Answer} {result : Except Raised α} :
    Behaves sha256 i (under handle (orRaise result)) notes := by
  cases result with
  | ok a => exact yields_pure trivial
  | error e => exact yields_throw

theorem yields_approveDomainAction {domain : Domain} {args : ApprovalArgs} :
    Behaves sha256 i (service (approveDomainAction sha256 caller domain args)) notes := by
  have happrove : Behaves sha256 i (service (approveAndExecuteGovernedAction sha256 caller args
      (domainPayload domain) (domainEffect domain) id)) notes := by
    refine yields_approveAndExecute (fun _ _ => True) (fun record _ => ?_) ?_
    · apply yields_requireFreshness
      exact yields_under_call rfl trivial fun _ _ => yields_under_orRaise
    · intro claimed notes' _ _ _ _
      exact yields_under_call rfl trivial fun _ _ => yields_under_orRaise
  exact bindUnder happrove fun _ _ _ _ _ => yields_pure trivial

theorem yields_providerControl :
    Behaves sha256 i (service (requireProviderControlAuthorization caller)) notes := by
  refine yields_under_call rfl trivial fun decision _ => ?_
  unfold requireAuthorized
  split_ifs
  · exact yields_pure trivial
  · exact yields_throw

theorem yields_requestClaimRelease {request : ClaimReleaseIntentRequest} :
    Behaves sha256 i (service (requestClaimRelease sha256 caller request)) notes := by
  refine bindUnder yields_providerControl fun _ _ _ _ _ => ?_
  refine bindUnder yields_requireGovernedAction
    fun target found _ _ _ => ?_
  apply yields_under_check isCheck_require
  apply yields_under_check isCheck_refuse
  have hpin : Behaves sha256 i (service (pinnedClaim target)) found := by
    unfold pinnedClaim
    split
    · exact yields_pure trivial
    · exact yields_throw
  exact bindUnder hpin fun _ _ _ _ _ => yields_submit

/-- The release of a claim writes the target back with its request untouched. -/
theorem yields_executeRelease : Behaves sha256 i (service (executeRelease record)) notes := by
  refine yields_under_call rfl trivial fun target htarget => ?_
  unfold releaseTarget
  cases target with
  | none => exact yields_throw
  | some target =>
    dsimp only
    split_ifs
    · exact yields_throw
    · refine yields_under_call rfl ?_ fun won _ => yields_won trivial
      exact htarget target rfl

theorem yields_approveFoundRelease {existing : Option GovernedActionRecord} :
    Behaves sha256 i (service (approveFoundRelease sha256 caller request existing)) notes := by
  have hrefuse : IsCheck (refuseFrozenApprover caller existing) := by
    cases existing with
    | none => exact .inl rfl
    | some record => exact isCheck_refuse
  apply yields_under_check hrefuse
  refine bindUnder yields_requireGovernedAction fun named _ _ _ _ => ?_
  refine yields_approveAndExecute (fun _ _ => True) (fun record _ => ?_) ?_
  · apply yields_requireFreshness
    exact yields_under_call rfl trivial fun _ _ => yields_pure trivial
  · intro claimed notes' _ _ _ _
    exact yields_executeRelease

theorem yields_approveClaimRelease :
    Behaves sha256 i (service (approveClaimRelease sha256 caller request)) notes := by
  refine bindUnder yields_providerControl fun _ _ _ _ _ => ?_
  refine yields_under_call rfl trivial fun existing _ => ?_
  cases recordedRelease request existing with
  | none => exact yields_approveFoundRelease
  | some recorded =>
    refine yields_under_call rfl trivial fun target _ => ?_
    cases target with
    | none => exact yields_throw
    | some target => exact yields_pure trivial

theorem yields_recordSystemOriginatedAction {serviceIdentity : String} :
    Behaves sha256 i (service (recordSystemOriginatedAction sha256 serviceIdentity actionType
      target payload)) notes := by
  unfold recordSystemOriginatedAction
  split_ifs
  · exact yields_throw
  · refine yields_under_call rfl trivial fun actionId _ => ?_
    refine yields_under_call rfl trivial fun requestedAt _ => ?_
    refine yields_under_call rfl trivial fun executedAt _ => ?_
    exact yields_under_call rfl rfl fun _ _ => yields_pure trivial

theorem yields_governance (session : Governance.Session) :
    Behaves sha256 i (service (session.program sha256)) notes := by
  cases session with
  | submit caller actionType ownType target payload attribution =>
    exact yields_service_submit
  | approve caller domain args => exact yields_approveDomainAction
  | requestRelease caller request => exact yields_requestClaimRelease
  | approveRelease caller request =>
    exact bindUnder yields_approveClaimRelease fun _ _ _ _ _ => yields_pure trivial
  | systemOriginated serviceIdentity actionType target payload =>
    exact yields_recordSystemOriginatedAction

end Governance

/-! ### Pools -/

/-- Every session makes honest calls only. -/
theorem yields_program (session : Session) : Behaves sha256 i (session.program sha256) notes := by
  cases session with
  | activate iso settings caller request => exact yields_activateKillSwitch.discard
  | requestClearance settings caller switchId reason requestedBy =>
    exact yields_requestKillSwitchClearance.discard
  | approveClearance settings caller switchId approval =>
    exact yields_approveKillSwitchClearance.discard
  | killSwitchStatus iso => exact yields_buildKillSwitchStatus.discard
  | promptAction settings caller request =>
    exact yields_applyPromptControlAction.discard
  | requestPromptPromotion settings caller request =>
    exact yields_requestPromptPromotion.discard
  | approvePromptPromotion settings caller taskId approval =>
    exact yields_approvePromptPromotion.discard
  | lifecycleTransition settings caller entryId toState reason =>
    exact yields_applyModelLifecycleTransition.discard
  | requestModelPromotion settings caller entryId request =>
    exact yields_requestModelPromotion.discard
  | approveModelPromotion settings caller entryId approval =>
    exact yields_approveModelPromotion.discard
  | degrade settings caller entryId dimension reason =>
    exact yields_degradeModelCapability.discard
  | requestRestore settings caller entryId request =>
    exact yields_requestModelCapabilityRestore.discard
  | approveRestore settings caller entryId approval =>
    exact yields_approveModelCapabilityRestore.discard
  | seed settings => exact yields_ensureModelCatalogueSeeded.discard
  | requestAdd settings caller entryId reason requestedBy =>
    exact yields_requestServingPolicyIdentityAdd.discard
  | approveAdd settings caller approval =>
    exact yields_approveServingPolicyIdentityAdd.discard
  | remove settings caller entryId => exact yields_removeServingPolicyIdentity.discard
  | governance session => exact (yields_governance session).discard

end Operations

section Pool

variable {sessions : ι → Session} {stores : Stores} {ok : ι → World ι → Call → Prop}
  {c : Machine.Config Call.Answer ι (World ι) (Except Raised Unit)}

theorem inv_pool : (control sha256 ι).inv (pool sha256 sessions stores).store :=
  fun _ _ h => nomatch h

theorem wp_pool (i : ι) :
    (control sha256 ι).wp i ((pool sha256 sessions stores).threads i)
      (fun _ notes => notes.pending = none)
      ((control sha256 ι).view i (pool sha256 sessions stores).store) :=
  wp_mono (@yields_program _ _ _ i _ ⟨rfl⟩ (sessions i)) fun _ _ h => h.1

/-- What is left of each thread makes honest calls, in every interleaving. -/
theorem locally_honest (hreach : (machine sha256 ι).Reach ok (pool sha256 sessions stores) c)
    (i : ι) :
    (control sha256 ι).wp i (c.threads i) (fun _ notes => notes.pending = none) (c.store.notes i) :=
  (reach inv_pool wp_pool hreach).2 i

/-- What every honest call keeps, made where `ok` allows it, holds along every interleaving. -/
theorem honest_invariant {J : World ι → Prop}
    (hreach : (machine sha256 ι).Reach ok (pool sha256 sessions stores) c)
    (start : J (.start stores))
    (keeps : ∀ i w (call : Call) (r : call.Answer) w', Honest sha256 (w.notes i) call →
      ok i w call → call.Outcome sha256 i w w' r → J w → J w') : J c.store :=
  invariant inv_pool wp_pool hreach start fun i w call _ r w' _ hcall hok hexec hw =>
      keeps i w call r w' hcall hok (Call.outcome_of_exec hexec) hw

end Pool

end LotusAI.ControlPlane
