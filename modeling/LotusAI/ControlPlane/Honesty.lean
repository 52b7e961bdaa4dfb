import LotusAI.ControlPlane.Operations
import LotusAI.Lib.LocalView

/-!
# What an operation knows when it writes

An operation writes a row that it has derived from rows it has read. Whatever the other
operations do in between, the derivation is part of its own run: which readings it has made, and
that a governed write was approved under the hash of the payload those readings give. This is
proved once for each operation, on its own notes.
-/

namespace LotusAI.ControlPlane

open Lib Governance KillSwitch Prompts Catalogue Locality Function

variable (sha256 : String → String)

/-! ### Bound actions -/

/-- The hash of an action is the hash of its payload. -/
def Bound (request : GovernedActionRequest) : Prop :=
  request.actionHash = computeGovernedActionHash sha256 request.actionPayload

/-- Every stored action is bound. -/
def AllBound {ι : Type} (governance : Governance.World ι) : Prop :=
  ∀ actionId record, governance.actions.get? actionId = some record →
    Bound sha256 record.toGovernedActionRequest

/-- The payload has the hash that the action was approved under. -/
structure Approves (payload : Payload) (record : GovernedActionRecord) : Prop where
  bound : Bound sha256 record.toGovernedActionRequest
  hash : computeGovernedActionHash sha256 payload = record.actionHash

/-- Only bound records are written. -/
def WritesBound : Governance.Call → Prop
  | .transitionGovernedAction _ _ record _ => Bound sha256 record.toGovernedActionRequest
  | .upsertGovernedAction record => Bound sha256 record.toGovernedActionRequest
  | _ => True

/-- Only bound records are answered. -/
def AnswersBound : (call : Governance.Call) → call.Answer → Prop
  | .getGovernedAction _, found =>
    ∀ record, found = some record → Bound sha256 record.toGovernedActionRequest
  | .getPendingGovernedAction _ _, found =>
    ∀ record, found = some record → Bound sha256 record.toGovernedActionRequest
  | _, _ => True

variable {sha256} {record : GovernedActionRecord} {call : Governance.Call}
  {claimed : GovernedActionRecord} {payload : Payload} {target : String} {ι : Type}

/-- What was approved is what the payload says, at every key. -/
theorem Approves.get?_eq (hsha : Function.Injective sha256)
    (h : Approves sha256 payload record) (key : String) :
    record.actionPayload.get? key = payload.get? key := by
  have hhash : computeGovernedActionHash sha256 payload =
      computeGovernedActionHash sha256 record.actionPayload := h.hash.trans h.bound
  exact get?_eq_of_canonicalJson_eq (hsha hhash).symm key

theorem AllBound.insert {w w' : Governance.World ι} (h : AllBound sha256 w)
    {actionId : String} (hrecord : Bound sha256 record.toGovernedActionRequest)
    (hactions : w'.actions = w.actions.insert actionId record) : AllBound sha256 w' := by
  unfold AllBound
  rw [hactions]
  exact Dict.forall_insert hrecord h

/-- A call that writes bound records keeps all of them bound, and answers bound ones. -/
theorem AllBound.outcome {i : ι} {w w' : Governance.World ι}
    {r : call.Answer} (h : AllBound sha256 w) (hcall : WritesBound sha256 call)
    (hout : call.Outcome i w w' r) : AllBound sha256 w' ∧ AnswersBound sha256 call r := by
  cases call with
  | getGovernedAction actionId =>
    obtain ⟨rfl, rfl⟩ := hout
    refine ⟨?_, fun record hfound => h actionId record hfound⟩
    split_ifs <;> exact h
  | getPendingGovernedAction actionType target =>
    obtain ⟨hmatch, rfl⟩ := hout
    refine ⟨h, fun record hfound => ?_⟩
    have hmem := List.mem_of_mem_filter (hmatch record hfound)
    obtain ⟨actionId, hstored⟩ := Dict.mem_values_iff.mp hmem
    exact h actionId record hstored
  | transitionGovernedAction actionId expectedStatus record expectedClaimedAt =>
    refine ⟨?_, trivial⟩
    rcases hout with ⟨-, rfl⟩ | ⟨-, before, -, rfl⟩
    · exact h
    · exact h.insert hcall rfl
  | upsertGovernedAction record => exact ⟨hout ▸ h.insert hcall rfl, trivial⟩
  | authorizeRequest callerApp | utcNowIso => exact ⟨hout ▸ h, trivial⟩
  | utcNowIsoUnequal stale | newActionId | currentPayload domain record =>
    exact ⟨hout.2 ▸ h, trivial⟩
  | callbackStarts record | execute domain record => exact ⟨hout ▸ h, trivial⟩

/-! ### Honest calls -/

section Honest

variable (sha256)

def Reading.resolution (identity : String) (found : Option ModelCatalogueEntry) : Reading :=
  if identity.startsWith candidateIdentityV2Prefix then .candidate identity found
  else .entry identity found

/-- A clearance was approved for the activation that was read. -/
def HonestActivation (readings : List Reading) (activation : KillSwitchActivation) :
    Option GovernedActionRecord → Prop
  | none => True
  | some record => ∃ baseline,
      Reading.activation activation.switchId (some baseline) ∈ readings ∧
      Approves sha256 (clearancePayload baseline (clearReason record.actionPayload)) record

/-- A promotion was approved for the rollout state that was read. -/
def HonestRollout (readings : List Reading) (transition : RolloutTransition) :
    Option GovernedActionRecord → Prop
  | none => True
  | some record => ∃ baseline taskId candidate reason,
      Reading.rollout transition.state.taskId (some baseline) ∈ readings ∧
      Approves sha256 (promotionPayload taskId candidate baseline.activePromptVersion reason)
        record

/-- A row is what its operation makes of the row that was read; a governed one was approved
for that row. -/
def HonestEntry (readings : List Reading) (row : ModelCatalogueEntry) : EntryCause → Prop
  | .transition event => ∃ baseline toState reason requestedBy hex now,
      Reading.entry row.entryId (some baseline) ∈ readings ∧
      transitionStep baseline toState reason requestedBy hex now = .ok (row, event)
  | .promotion record event => ∃ baseline toState evaluationRunId run reason requestedBy
      approvedBy hex now, Reading.entry row.entryId (some baseline) ∈ readings ∧
      promotionStep baseline toState evaluationRunId run reason requestedBy approvedBy hex now =
        .ok (row, event) ∧
      Approves sha256 (promotionActionPayload baseline toState evaluationRunId reason) record
  | .degradation dimension => ∃ baseline reason degradedBy now,
      Reading.entry row.entryId (some baseline) ∈ readings ∧
      degradationStep row.entryId baseline dimension reason degradedBy now = .ok row
  | .restore record dimension => ∃ baseline degradation evaluationRunId run reason now,
      Reading.entry row.entryId (some baseline) ∈ readings ∧
      requiredDegradation baseline dimension = .ok degradation ∧
      restoreStep baseline dimension evaluationRunId run now = .ok row ∧
      Approves sha256 (capabilityRestorePayload baseline degradation evaluationRunId reason)
        record
  | .seeding => ∃ seed found, Reading.entry row.entryId found ∈ readings ∧
      (reconcile sha256 seed found = .create ∧ row = seed ∨
        reconcile sha256 seed found = .update row)

/-- A version adds the candidate that was read to the order that was read; it was approved for
an order and a candidate that were read earlier. -/
def HonestPolicy (readings : List Reading) (version : ServingPolicyVersion) :
    Option GovernedActionRecord → Prop
  | none => True
  | some record => ∃ settings policy policy' entry entry' approverKeyId now payload,
      Reading.policy policy ∈ readings ∧ Reading.policy policy' ∈ readings ∧
      Reading.resolution record.target entry ∈ readings ∧
      Reading.resolution record.target entry' ∈ readings ∧
      additionPayload sha256 record.target record.actionPayload
        (operativeOrder settings policy).1 entry = .ok payload ∧
      Approves sha256 payload record ∧
      additionVersion sha256 record.target record.actionId record.requesterKeyId approverKeyId now
        (operativeOrder settings policy') entry' = .ok version

/-- The call follows from what its operation has noted. An operation that owes an event makes
no other call. -/
def Honest (notes : Notes) : Call → Prop
  | .appendLifecycleEvent event => notes.pending = some event
  | .governed call => notes.pending = none ∧ WritesBound sha256 call
  | .upsertActivation activation cause =>
    notes.pending = none ∧ HonestActivation sha256 notes.readings activation cause
  | .savePromptRolloutTransition transition cause =>
    notes.pending = none ∧ HonestRollout sha256 notes.readings transition cause
  | .upsertEntry row cause => notes.pending = none ∧ HonestEntry sha256 notes.readings row cause
  | .saveServingPolicyVersion version cause =>
    notes.pending = none ∧ HonestPolicy sha256 notes.readings version cause
  | _ => notes.pending = none

/-- What a call answers its operation, and what becomes of the operation's notes. -/
def Noted : (call : Call) → call.Answer → Notes → Notes → Prop
  | .governed call, answer, notes, notes' => AnswersBound sha256 call answer ∧ notes' = notes
  | .getActivation switchId, found, notes, notes' =>
    (∀ activation, found = some activation → activation.switchId = switchId) ∧
      notes' = notes.note (.activation switchId found)
  | .getPromptRolloutState taskId, found, notes, notes' =>
    (∀ state, found = some state → state.taskId = taskId) ∧
      notes' = notes.note (.rollout taskId found)
  | .getPromptVersion taskId promptVersion, found, notes, notes' =>
    notes' = notes.note (.version (taskId, promptVersion) found)
  | .getEntry entryId, found, notes, notes' =>
    (∀ entry, found = some entry → entry.entryId = entryId) ∧
      notes' = notes.note (.entry entryId found)
  | .getEntryByCandidateId candidateIdV2, found, notes, notes' =>
    notes' = notes.note (.candidate candidateIdV2 found)
  | .getCurrentServingPolicy, found, notes, notes' => notes' = notes.note (.policy found)
  | .upsertEntry _ cause, _, notes, notes' => notes' = { notes with pending := cause.event? }
  | .appendLifecycleEvent _, _, notes, notes' => notes' = { notes with pending := none }
  | _, _, notes, notes' => notes' = notes

end Honest

section Control

variable {ι : Type} [DecidableEq ι]

theorem noted_of_outcome {i : ι} {w w' : World ι} {call : Call} {r : call.Answer}
    (hbound : AllBound sha256 w.governance) (hcall : Honest sha256 (w.notes i) call)
    (hout : call.Outcome sha256 i w w' r) :
    AllBound sha256 w'.governance ∧ Noted sha256 call r (w.notes i) (w'.notes i) ∧
      ∀ j, j ≠ i → w'.notes j = w.notes j := by
  cases call with
  | governed call =>
    obtain ⟨governance, hout, rfl⟩ := hout
    obtain ⟨hbound', hanswer⟩ := hbound.outcome hcall.2 hout
    exact ⟨hbound', ⟨hanswer, rfl⟩, fun _ _ => rfl⟩
  | authorizeRequest _ _ _ | utcNowIso | uuidHex | promptApprovalGate | getRun _
  | listActivations | upsertActivation =>
    obtain rfl := hout
    exact ⟨hbound, rfl, fun _ _ => rfl⟩
  | getActivation | getPromptRolloutState =>
    obtain ⟨rfl, rfl⟩ := hout
    exact ⟨hbound, ⟨fun _ hfound => Table.key_of_get? hfound, update_self ..⟩,
      fun j hj => update_of_ne hj ..⟩
  | getEntry entryId =>
    obtain ⟨rfl, rfl⟩ := hout
    exact ⟨hbound, ⟨fun _ hfound => w.stores.entries.keyed _ _ hfound, update_self ..⟩,
      fun j hj => update_of_ne hj ..⟩
  | getPromptVersion | getEntryByCandidateId | getCurrentServingPolicy =>
    obtain ⟨rfl, rfl⟩ := hout
    exact ⟨hbound, update_self .., fun j hj => update_of_ne hj ..⟩
  | savePromptRolloutTransition transition cause =>
    rcases hout with rfl | ⟨prompts, -, rfl⟩ <;> exact ⟨hbound, rfl, fun _ _ => rfl⟩
  | saveServingPolicyVersion record cause =>
    rcases hout with rfl | ⟨-, rfl⟩ <;> exact ⟨hbound, rfl, fun _ _ => rfl⟩
  | upsertEntry | appendLifecycleEvent =>
    obtain rfl := hout
    exact ⟨hbound, update_self .., fun j hj => update_of_ne hj ..⟩

variable (sha256 ι) in
/-- The notes of an operation are its own part of the world. -/
def control : Locality (machine sha256 ι) Notes where
  inv w := AllBound sha256 w.governance
  view i w := w.notes i
  permitted _ call notes := Honest sha256 notes call
  step _ call answer notes notes' := Noted sha256 call answer notes notes'
  sound hbound hcall hexec := noted_of_outcome hbound hcall (Call.outcome_of_exec hexec)

end Control

/-! ### Operations that make honest calls -/

section Yields

variable {ι : Type} [DecidableEq ι] {i : ι} {α β : Type} {notes : Notes}

variable (sha256) in
/-- Operation `i` makes honest calls only and owes no event when it ends; where it returns a
value, `P` holds of it. What was noted stays noted. -/
def Yields (i : ι) (operation : Operation α) (P : α → Notes → Prop) (notes : Notes) : Prop :=
  (control sha256 ι).wp i operation.run (fun result notes' => notes'.pending = none ∧
    notes.readings ⊆ notes'.readings ∧ ∀ a, result = .ok a → P a notes') notes

variable (sha256) in
/-- Honest calls only, whatever is returned. -/
abbrev Behaves (i : ι) (operation : Operation α) (notes : Notes) : Prop :=
  Yields sha256 i operation (fun _ _ => True) notes

variable {P : α → Notes → Prop} {Q : β → Notes → Prop} {result : Except Raised α}
  {f : α → Operation β} {operation : Operation α} {call : Call}

/-- Where an operation goes on, no event is owed. -/
theorem quiet [h : Fact (notes.pending = none)] : notes.pending = none := h.out

/-- Sequences: the rest starts from what the first part has noted. -/
theorem Yields.bind (h : Yields sha256 i operation P notes)
    (hf : ∀ a notes', Fact (notes'.pending = none) → notes.readings ⊆ notes'.readings →
      P a notes' → Yields sha256 i (f a) Q notes') : Yields sha256 i (operation >>= f) Q notes := by
  refine wp_seq h ?_ ?_
  · intro a notes' hresult
    apply wp_mono (hf a notes' ⟨hresult.1⟩ hresult.2.1 (hresult.2.2 a rfl))
    intro result notes'' hrest
    exact ⟨hrest.1, List.Subset.trans hresult.2.1 hrest.2.1, hrest.2.2⟩
  · intro e notes' hresult
    exact ⟨hresult.1, hresult.2.1, nofun⟩

/-- A last call, which leaves no event owed. -/
theorem yields_ask {P : call.Answer → Notes → Prop} (hcall : Honest sha256 notes call)
    (h : ∀ r notes', Noted sha256 call r notes notes' →
      notes'.pending = none ∧ notes.readings ⊆ notes'.readings ∧ P r notes') :
    Yields sha256 i (ask call) P notes := by
  refine ⟨hcall, fun r notes' hnoted => ?_⟩
  obtain ⟨hquiet, hgrows, hP⟩ := h r notes' hnoted
  exact ⟨hquiet, hgrows, fun _ hr => Except.ok.inj hr ▸ hP⟩

/-- A call, and the rest. -/
theorem yields_call {f : call.Answer → Operation β} (hcall : Honest sha256 notes call)
    (h : ∀ r notes', Noted sha256 call r notes notes' →
      notes.readings ⊆ notes'.readings ∧ Yields sha256 i (f r) Q notes') :
    Yields sha256 i (ask call >>= f) Q notes := by
  refine ⟨hcall, fun r notes' hnoted => ?_⟩
  obtain ⟨hgrows, hrest⟩ := h r notes' hnoted
  refine wp_mono hrest fun result notes'' hresult => ?_
  exact ⟨hresult.1, List.Subset.trans hgrows hresult.2.1, hresult.2.2⟩

/-- A call that is answered without a note, and the rest. -/
theorem yields_observe {f : call.Answer → Operation β} (hcall : Honest sha256 notes call)
    (hnoted : Noted sha256 call = fun _ notes notes' => notes' = notes)
    (h : ∀ r, Yields sha256 i (f r) Q notes) : Yields sha256 i (ask call >>= f) Q notes := by
  refine yields_call hcall fun r notes' hr => ?_
  rw [hnoted] at hr
  obtain rfl := hr
  exact ⟨List.Subset.refl _, h r⟩

theorem yields_pure [Fact (notes.pending = none)] {a : α} (h : P a notes) :
    Yields sha256 i (pure a) P notes :=
  ⟨quiet, List.Subset.refl _, fun _ ha => Except.ok.inj ha ▸ h⟩

/-- An operation, and a value made of what it returns. -/
theorem Yields.thenPure {g : α → β} (h : Yields sha256 i operation P notes) :
    Behaves sha256 i (operation >>= fun a => pure (g a)) notes :=
  h.bind fun _ _ _ _ _ => yields_pure trivial

theorem Yields.discard (h : Yields sha256 i operation P notes) :
    Behaves sha256 i operation.discard notes := h.thenPure

variable [Fact (notes.pending = none)]

instance {reading : Reading} : Fact ((notes.note reading).pending = none) :=
  ‹Fact (notes.pending = none)›

theorem yields_throw {e : Raised} : Yields sha256 i (throw e : Operation α) P notes :=
  ⟨quiet, List.Subset.refl _, nofun⟩

/-- A check passes, or ends the operation. -/
theorem yields_orRaise (h : ∀ a, result = .ok a → P a notes) :
    Yields sha256 i (orRaise result) P notes := by
  cases result with
  | ok a => exact yields_pure (h a rfl)
  | error e => exact yields_throw

/-- A check, and the rest. -/
theorem yields_check (h : ∀ a, result = .ok a → Yields sha256 i (f a) Q notes) :
    Yields sha256 i (orRaise result >>= f) Q notes := by
  cases result with
  | ok a => exact h a rfl
  | error e => exact yields_throw

end Yields

/-! ### Governed-action services -/

section Services

variable {ι : Type} [DecidableEq ι] {i : ι} {α β γ : Type} {notes : Notes}

/-- A service whose calls are carried out by `handle`. -/
def under (handle : (call : Governance.Call) → Prog Call.Answer call.Answer)
    (program : Service α) : Operation α :=
  ExceptT.mk (Prog.interpret handle program.run)

/-- Calls that are the same for every domain. -/
def plain : Governance.Call → Bool
  | .currentPayload _ _ => false
  | .execute _ _ => false
  | _ => true

/-- Plain calls go to the store of governed actions. -/
def Lifts (handle : (call : Governance.Call) → Prog Call.Answer call.Answer) : Prop :=
  ∀ call, plain call → handle call = Prog.perform (Call.governed call)

instance {build : GovernedActionRecord → Operation Payload}
    {effect : GovernedActionRecord → Operation Unit} : Fact (Lifts (carryOut build effect)) where
  out call hplain := by
    cases call with
    | currentPayload domain record => cases hplain
    | execute domain record => cases hplain
    | _ => rfl

instance : Fact (Lifts fun call => Prog.perform (Call.governed call)) := ⟨fun _ _ => rfl⟩

variable {handle : (call : Governance.Call) → Prog Call.Answer call.Answer}
  {P : α → Notes → Prop} {Q : β → Notes → Prop}

theorem under_bind (program : Service α) (f : α → Service β) :
    under handle (program >>= f) = under handle program >>= fun a => under handle (f a) := by
  apply ExceptT.ext
  rw [under, ExceptT.run_mk, ExceptT.run_bind, Prog.interpret_bind, ExceptT.run_bind]
  refine congrArg _ (funext fun result => ?_)
  cases result <;> rfl

theorem Yields.bindUnder {program : Service α} {f : α → Service β}
    (h : Yields sha256 i (under handle program) P notes)
    (hf : ∀ a notes', Fact (notes'.pending = none) → notes.readings ⊆ notes'.readings →
      P a notes' → Yields sha256 i (under handle (f a)) Q notes') :
    Yields sha256 i (under handle (program >>= f)) Q notes := by
  rw [under_bind]
  exact h.bind hf

variable {e : Raised} {actionId : String} {args : ApprovalArgs} {f : call.Answer → Service β}

/-- A call, carried out by its handler, and the rest. -/
theorem yields_under_handled
    (h : (control sha256 ι).wp i (handle call) (fun r notes' =>
      notes.readings ⊆ notes'.readings ∧ Yields sha256 i (under handle (f r)) Q notes') notes) :
    Yields sha256 i (under handle (Governance.ask call >>= f)) Q notes := by
  unfold Yields under
  refine wp_bind.mpr (wp_mono h fun r notes' hr => wp_mono hr.2 ?_)
  intro result notes'' hrest
  exact ⟨hrest.1, List.Subset.trans hr.1 hrest.2.1, hrest.2.2⟩

variable [Fact (notes.pending = none)]

/-- A call that goes to the store, with what it writes bound, and the rest. -/
theorem yields_under_call (hlift : handle call = Prog.perform (Call.governed call))
    (hcall : WritesBound sha256 call)
    (h : ∀ r, AnswersBound sha256 call r → Yields sha256 i (under handle (f r)) Q notes) :
    Yields sha256 i (under handle (Governance.ask call >>= f)) Q notes := by
  apply yields_under_handled
  rw [hlift]
  refine ⟨⟨quiet, hcall⟩, fun r notes' hnoted => ?_⟩
  obtain ⟨hanswer, rfl⟩ := hnoted
  exact ⟨List.Subset.refl _, h r hanswer⟩

/-- A check made without a call. -/
def IsCheck (check : Service Unit) : Prop := check = pure () ∨ ∃ e, check = throw e

theorem isCheck_require {c : Prop} [Decidable c] : IsCheck (if c then pure () else throw e) := by
  split_ifs
  · exact .inl rfl
  · exact .inr ⟨e, rfl⟩

theorem isCheck_refuse {c : Prop} [Decidable c] : IsCheck (if c then throw e else pure ()) := by
  split_ifs
  · exact .inr ⟨e, rfl⟩
  · exact .inl rfl

/-- A check, and the rest. -/
theorem yields_under_check {check : Service Unit} {f : Unit → Service β} (hcheck : IsCheck check)
    (h : Yields sha256 i (under handle (f ())) Q notes) :
    Yields sha256 i (under handle (check >>= f)) Q notes := by
  obtain rfl | ⟨e, rfl⟩ := hcheck
  · exact h
  · exact yields_throw

theorem isCheck_refuseIf (refusal : Option Raised) : IsCheck (refuseIf refusal) := by
  cases refusal with
  | none => exact .inl rfl
  | some e => exact .inr ⟨e, rfl⟩

/-- The end of a compare-and-set: the record, if it was won. -/
theorem yields_won {won : Bool} {P : GovernedActionRecord → Notes → Prop} (h : P record notes) :
    Yields sha256 i (under handle (if won then pure record else throw e)) P notes := by
  split_ifs
  · exact yields_pure h
  · exact yields_throw

variable [hlifts : Fact (Lifts handle)] {caller : AuthenticatedCaller}

theorem lifts (hplain : plain call) : handle call = Prog.perform (Call.governed call) :=
  hlifts.out call hplain

theorem yields_requireGovernedAction :
    Yields sha256 i (under handle (requireGovernedAction actionId)) (fun record notes' =>
      notes' = notes ∧ Bound sha256 record.toGovernedActionRequest) notes := by
  refine yields_under_call (lifts rfl) trivial fun found hfound => ?_
  cases found with
  | some record => exact yields_pure ⟨rfl, hfound record rfl⟩
  | none => exact yields_throw

/-- A claim, fresh or rotated, is of the same request. -/
theorem yields_takeClaim {resuming : Bool}
    {now : String}
    (hbound : Bound sha256 record.toGovernedActionRequest) :
    Yields sha256 i (under handle (takeClaim resuming caller args record now))
      (fun claimed notes' => notes' = notes ∧
        claimed.toGovernedActionRequest = record.toGovernedActionRequest) notes := by
  cases resuming with
  | false => exact yields_under_call (lifts rfl) hbound fun won _ =>
      yields_won ⟨rfl, rfl⟩
  | true =>
    change Yields sha256 i (under handle (rotateClaim args record now)) _ notes
    unfold rotateClaim
    cases record.claimedAt with
    | none => exact yields_throw
    | some stale =>
      unfold rotatedInstant
      dsimp only
      split_ifs
      · refine yields_under_call (lifts rfl) trivial fun rotated _ => ?_
        exact yields_under_call (lifts rfl) hbound fun won _ => yields_won ⟨rfl, rfl⟩
      · exact yields_under_call (lifts rfl) hbound fun won _ => yields_won ⟨rfl, rfl⟩

theorem yields_finalizeClaim
    {result : Option ResultPayload}
    (hbound : Bound sha256 claimed.toGovernedActionRequest) :
    Behaves sha256 i (under handle (finalizeClaim actionId claimed result)) notes := by
  refine yields_under_call (lifts rfl) trivial fun now _ => ?_
  exact yields_under_call (lifts rfl) hbound fun won _ => yields_won trivial

/-- An approval: what its builder has established of the request holds when the callback
runs. -/
theorem yields_approveAndExecute
    {builder : GovernedActionRecord → Service Payload} {execute : GovernedActionRecord → Service γ}
    {result : γ → Option ResultPayload} (Vetted : GovernedActionRequest → Notes → Prop)
    (hfresh : ∀ record : GovernedActionRecord, Bound sha256 record.toGovernedActionRequest →
      Yields sha256 i (under handle (requireFreshness sha256
        (resumingOwnClaim caller args record) builder record))
        (fun _ notes' => Vetted record.toGovernedActionRequest notes') notes)
    (hexecute : ∀ (claimed : GovernedActionRecord) notes', Fact (notes'.pending = none) →
      notes.readings ⊆ notes'.readings → Bound sha256 claimed.toGovernedActionRequest →
      Vetted claimed.toGovernedActionRequest notes' →
      Behaves sha256 i (under handle (execute claimed)) notes') :
    Behaves sha256 i (under handle (approveAndExecuteGovernedAction sha256 caller args builder
      execute result)) notes := by
  apply yields_under_check isCheck_refuse
  refine yields_requireGovernedAction.bindUnder fun record notes' _ _ h => ?_
  obtain ⟨rfl, hbound⟩ := h
  apply yields_under_check (isCheck_refuseIf _)
  refine (hfresh record hbound).bindUnder fun _ vetted _ hgrows hvetted => ?_
  apply yields_under_check isCheck_refuse
  refine yields_under_call (lifts rfl) trivial fun now _ => ?_
  refine (yields_takeClaim hbound).bindUnder fun claimed notes' _ _ h => ?_
  obtain ⟨rfl, hrequest⟩ := h
  refine yields_under_call (lifts rfl) trivial fun _ _ => ?_
  rw [← hrequest] at hbound hvetted
  refine (hexecute claimed _ ‹_› hgrows hbound hvetted).bindUnder fun outcome done _ _ _ => ?_
  exact (yields_finalizeClaim hbound).bindUnder fun _ _ _ _ _ => yields_pure trivial

/-- A submission: the new record is bound, and so is the one it supersedes. -/
theorem yields_submit
    {actionType : GovernedActionType}
    {attribution : Option String} :
    Behaves sha256 i (under handle (submitGovernedAction sha256 caller actionType target payload
      attribution)) notes := by
  apply yields_under_check isCheck_refuse
  refine yields_under_call (lifts rfl) trivial fun actionId _ => ?_
  refine yields_under_call (lifts rfl) trivial fun requestedAt _ => ?_
  refine yields_under_call (lifts rfl) trivial fun prior hprior => ?_
  have hsupersede : Behaves sha256 i (under handle (supersedePrior prior actionId)) notes := by
    cases prior with
    | none => exact yields_pure trivial
    | some prior =>
      refine yields_under_call (lifts rfl) ?_ fun _ _ => ?_
      · exact hprior prior rfl
      · exact yields_pure trivial
  refine hsupersede.bindUnder fun _ notes' _ _ _ => ?_
  exact yields_under_call (lifts rfl) rfl fun _ _ => yields_pure trivial

end Services

/-! ### Approvals of the control plane -/

section Approvals

variable {ι : Type} [DecidableEq ι] {i : ι} {notes : Notes} {caller : AuthenticatedCaller}
  {build : GovernedActionRecord → Operation Payload} {domain : Domain}
  {effect : GovernedActionRecord → Operation Unit}

/-- The callback as the service sees it. -/
theorem yields_carriedEffect
    (h : Behaves sha256 i (effect claimed) notes) :
    Behaves sha256 i (under (carryOut build effect) (domainEffect domain claimed)) notes := by
  have hcallback : Behaves sha256 i (do effect claimed; return none :
      Operation (Option ResultPayload)) notes :=
    h.bind fun _ _ _ _ _ => yields_pure trivial
  refine yields_under_handled (wp_mono hcallback fun r notes' hr => ⟨hr.2.1, ?_⟩)
  have : Fact (notes'.pending = none) := ⟨hr.1⟩
  cases r with
  | ok result => exact yields_pure trivial
  | error e => exact yields_throw

variable (sha256) in
/-- A payload was rebuilt for the request, and it has the hash of the request. -/
def Rebuilt (Vetted : GovernedActionRequest → Payload → Notes → Prop)
    (request : GovernedActionRequest) (notes : Notes) : Prop :=
  ∃ payload, Vetted request payload notes ∧
    computeGovernedActionHash sha256 payload = request.actionHash

theorem yields_rebuilt
    {Vetted : GovernedActionRequest → Payload → Notes → Prop}
    (h : Yields sha256 i (build record) (Vetted record.toGovernedActionRequest) notes) :
    Yields sha256 i (under (carryOut build effect) (requireUnchanged sha256
      (domainPayload domain) record)) (fun _ notes' =>
        Rebuilt sha256 Vetted record.toGovernedActionRequest notes') notes := by
  have hpayload : Yields sha256 i (under (carryOut build effect) (domainPayload domain record))
      (Vetted record.toGovernedActionRequest) notes := by
    refine yields_under_handled (wp_mono h fun r notes' hr => ⟨hr.2.1, ?_⟩)
    have : Fact (notes'.pending = none) := ⟨hr.1⟩
    cases r with
    | ok payload => exact yields_pure (hr.2.2 payload rfl)
    | error e => exact yields_throw
  refine hpayload.bindUnder fun payload notes' _ _ hvetted => ?_
  split_ifs with hhash
  · exact yields_pure ⟨payload, hvetted, hhash⟩
  · exact yields_throw

variable [Fact (notes.pending = none)]

/-- An approval, from its builder and its callback: what the builder has established of the
payload holds when the callback runs, and the payload has the approved hash. -/
theorem yields_approveGoverned {approval : Approval}
    (Vetted : GovernedActionRequest → Payload → Notes → Prop)
    (hbuild : ∀ record : GovernedActionRecord,
      Yields sha256 i (build record) (Vetted record.toGovernedActionRequest) notes)
    (heffect : ∀ (claimed : GovernedActionRecord) payload notes', Fact (notes'.pending = none) →
      notes.readings ⊆ notes'.readings → Vetted claimed.toGovernedActionRequest payload notes' →
      Approves sha256 payload claimed →
      Behaves sha256 i (effect claimed) notes') :
    Behaves sha256 i (approveGoverned sha256 caller domain approval target build effect) notes := by
  have happrove : Behaves sha256 i (under (carryOut build effect)
      (approveAndExecuteGovernedAction sha256 caller (approval.args target)
        (domainPayload domain) (domainEffect domain) id)) notes := by
    -- nothing is resumed, so the payload is always rebuilt
    refine yields_approveAndExecute (Rebuilt sha256 Vetted)
      (fun record _ => yields_rebuilt (hbuild record)) ?_
    intro claimed notes' _ hgrows hbound hrebuilt
    obtain ⟨payload, hvetted, hhash⟩ := hrebuilt
    exact yields_carriedEffect (heffect claimed payload notes' ‹_› hgrows hvetted ⟨hbound, hhash⟩)
  exact happrove.bindUnder fun _ _ _ _ _ => yields_pure trivial

end Approvals

end LotusAI.ControlPlane
