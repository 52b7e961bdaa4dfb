import LotusAI.Governance.Steps

/-!
# The services keep the protocol

Every session, run against any others, only takes steps of the protocol. The
approval is where the argument lies: a fresh claim carries the evidence that was
checked before it, a resumed claim carries the evidence of the claim it takes over,
and a finalization is fenced to the session's own claim.
-/

namespace LotusAI.Governance

open Lib Protocol

variable {ι : Type} {sha256 : String → String} {sessions : ι → Session}
  {ok : ι → World ι → Call → Prop} {i : ι} {w w' : World ι}

/-! ### Checks -/

/-- The caller signs with a verified credential. -/
def AuthenticatedCaller.Verified (caller : AuthenticatedCaller) : Prop :=
  ∃ key, caller.credentialKeyId = some key ∧ key ≠ ""

/-- What a session keeps of an action it has read. -/
structure Read (sha256 : String → String) (sessions : ι → Session) (w : World ι)
    (actionId : String) (record : GovernedActionRecord) : Prop where
  known : Known sha256 sessions w record
  actionId_eq : record.actionId = actionId
  present : Present w actionId record.toGovernedActionRequest

variable {actionId now : String} {record claimed : GovernedActionRecord} {args : ApprovalArgs}
  {caller : AuthenticatedCaller} {attribution : Option String} {payload : Payload}

theorem Ledger.read (h : Ledger sha256 sessions w) (hget : w.actions.get? actionId = some record) :
    Read sha256 sessions w actionId record :=
  ⟨h.known _ _ hget, h.keyed _ _ hget, record, hget, rfl⟩

theorem Read.follows (h : Read sha256 sessions w actionId record) (hfollows : Follows i w w') :
    Read sha256 sessions w' actionId record :=
  ⟨h.known.mono hfollows.absent, h.actionId_eq, hfollows.present _ _ h.present⟩

section Checks

variable {β : Type} {Fact : β → World ι → Prop} {f : Unit → Service β}

theorem ensures_requireVerified (h : caller.Verified → Assures sha256 sessions ok i (f ()) Fact w) :
    Assures sha256 sessions ok i (requireVerifiedGoverningCredential caller >>= f) Fact w := by
  unfold requireVerifiedGoverningCredential
  split_ifs with hkey
  · exact ensures_throw_bind
  · apply ensures_pure_bind
    apply h
    cases hcred : caller.credentialKeyId with
    | none => simp [hcred] at hkey
    | some key => exact ⟨key, hcred, by simpa [hcred] using hkey⟩

theorem ensures_refuseIf {refusal : Option Raised}
    (h : refusal = none → Assures sha256 sessions ok i (f ()) Fact w) :
    Assures sha256 sessions ok i (refuseIf refusal >>= f) Fact w := by
  cases refusal with
  | none => exact ensures_pure_bind (h rfl)
  | some e => exact ensures_throw_bind

theorem ensures_requireDistinctApprover
    (h : caller.credentialKeyId ≠ record.requesterKeyId →
      Assures sha256 sessions ok i (f ()) Fact w) :
    Assures sha256 sessions ok i (requireDistinctApprover caller record >>= f) Fact w := by
  unfold requireDistinctApprover
  split_ifs with hsame
  · exact ensures_throw_bind
  · exact ensures_pure_bind (h hsame)

theorem ensures_refuseFrozenCredential {frozen : Option String}
    (h : (caller.Verified → frozen ≠ caller.credentialKeyId) →
      Assures sha256 sessions ok i (f ()) Fact w) :
    Assures sha256 sessions ok i (refuseFrozenCredential caller frozen >>= f) Fact w := by
  unfold refuseFrozenCredential
  split_ifs with hfrozen
  · exact ensures_throw_bind
  · apply ensures_pure_bind
    apply h
    rintro ⟨key, hkey, -⟩ hsame
    exact hfrozen ⟨by simp [hkey], hsame.symm⟩

theorem ensures_requireProviderControl
    (h : ∀ w', Follows i w w' → Assures sha256 sessions ok i (f ()) Fact w') :
    Assures sha256 sessions ok i (requireProviderControlAuthorization caller >>= f) Fact w := by
  have hdecided : Assures sha256 sessions ok i (requireProviderControlAuthorization caller)
      (fun _ w' => Follows i w w') w := by
    apply ensures_quiet (by intro _ _ _ hquiet; exact hquiet)
    intro w₁ decision _ hfollows₁ _
    unfold requireAuthorized
    split_ifs
    · exact ensures_pure_bind (ensures_pure fun w₂ _ hfollows₂ => hfollows₁.trans hfollows₂)
    · exact ensures_throw_bind
  exact hdecided.bind fun _ w' _ hfollows => h w' hfollows

end Checks

theorem ensures_requireGovernedAction (actionId : String) :
    Assures sha256 sessions ok i (requireGovernedAction actionId)
      (fun record w' => Read sha256 sessions w' actionId record ∧ Follows i w w') w := by
  apply ensures_getGovernedAction
  · intro w₁ record hledger hfollows₁ hget
    apply ensures_pure
    intro w₂ _ hfollows₂
    exact ⟨(hledger.read hget).follows hfollows₂, hfollows₁.trans hfollows₂⟩
  · intro w₁ _ _ _
    exact ensures_throw

variable {resuming : Bool} {resultPayload : Option ResultPayload}
  {currentPayloadBuilder : GovernedActionRecord → Service Payload} {actionType : GovernedActionType}
  {target requestedAt : String} {request : ClaimReleaseApprovalRequest}

/-- What passing the record's own checks means. -/
theorem approvalRefusal_eq_none (h : approvalRefusal args record resuming = none) :
    (record.status = .pending ∨ resuming = true) ∧ record.actorClass = .humanApproved := by
  unfold approvalRefusal at h
  split_ifs at h with hstatus hclass
  refine ⟨?_, by simpa using hclass⟩
  by_cases hpending : record.status = .pending
  · exact .inl hpending
  · exact .inr (by simpa [hpending] using hstatus)

/-! ### Claims -/

/-- A claim that session `i` has won. -/
structure Claim (sha256 : String → String) (sessions : ι → Session) (i : ι) (w : World ι)
    (actionId : String) (claimed : GovernedActionRecord) : Prop where
  read : Read sha256 sessions w actionId claimed
  won : Won i w claimed
  status : claimed.status = .claimed

theorem Claim.follows (h : Claim sha256 sessions i w actionId claimed) (hfollows : Follows i w w') :
    Claim sha256 sessions i w' actionId claimed :=
  ⟨h.read.follows hfollows, hfollows.won h.won, h.status⟩

/-- The approver is not the frozen credential of the release, or the check was skipped. -/
def Vetted (sessions : ι → Session) (caller : AuthenticatedCaller)
    (record : GovernedActionRecord) (w : World ι) : Prop :=
  record.actionType = .claimRelease →
    record.frozenApproverKeyId ≠ caller.credentialKeyId ∨ Excused sessions w record.actionId

theorem Vetted.follows (h : Vetted sessions caller record w) (hfollows : Follows i w w') :
    Vetted sessions caller record w' :=
  fun htype => (h htype).imp_right fun he => he.mono hfollows.absent

/-- A pending record with the evidence of a vetted, distinct, verified approver. -/
theorem known_claimedBy (hknown : Known sha256 sessions w record)
    (hpending : record.status = .pending) (hhuman : record.actorClass = .humanApproved)
    (hverified : caller.Verified) (hdistinct : caller.credentialKeyId ≠ record.requesterKeyId)
    (hvetted : Vetted sessions caller record w) :
    Known sha256 sessions w (claimedBy caller attribution record now) where
  requested := hknown.requested
  progressed := by
    obtain ⟨key, hkey, hne⟩ := hverified
    have hform := hknown.progressed.pending hpending
    constructor
    · exact nofun
    · intro _
      -- a pending record carries no evidence of an execution yet
      have hresult : record.resultPayload = none := by rw [hform]; rfl
      have hexecuted : record.executedAt = none := by rw [hform]; rfl
      have hsuperseded : record.supersededByActionId = none := by rw [hform]; rfl
      exact ⟨hhuman, rfl, hresult, hexecuted, hsuperseded⟩
    · intro _ _
      refine ⟨key, hkey, hne, fun hreq => hdistinct (hkey.trans hreq.symm), ?_⟩
      intro htype
      exact (hvetted htype).imp_left fun hfrozen => hkey ▸ hfrozen

/-- The compare-and-set of a claim ends in a claim, or in a refusal. -/
theorem ensures_claiming {expectedStatus : GovernedActionStatus} {expectedClaimedAt : Option String}
    {refusal : Raised} (hread : Read sha256 sessions w actionId claimed)
    (hclaimed : claimed.status = .claimed)
    (hexpected : expectedStatus = .pending ∨ expectedStatus = .claimed) :
    Assures sha256 sessions ok i (do
        let won ← ask (.transitionGovernedAction actionId expectedStatus claimed expectedClaimedAt)
        if won then return claimed else throw refusal)
      (fun result w' => Claim sha256 sessions i w' actionId result) w := by
  apply ensures_transition hread.known hread.present
  · rintro w₁ before _ _ _ rfl _
    rcases hexpected with hpending | hrunning
    · exact .claim hpending hclaimed
    · exact .rotate hrunning hclaimed
  · intro w₁ _ _
    exact ensures_throw
  · intro w₁ _ hfollows hwon
    apply ensures_pure
    intro w₂ _ hfollows₂
    exact Claim.follows ⟨hread.follows hfollows, hwon, hclaimed⟩ hfollows₂

theorem ensures_claimPending (hread : Read sha256 sessions w args.actionId record)
    (hpending : record.status = .pending) (hhuman : record.actorClass = .humanApproved)
    (hverified : caller.Verified) (hdistinct : caller.credentialKeyId ≠ record.requesterKeyId)
    (hvetted : Vetted sessions caller record w) :
    Assures sha256 sessions ok i (claimPending caller args record now)
      (fun claimed w' => Claim sha256 sessions i w' args.actionId claimed) w := by
  apply ensures_claiming _ rfl (.inl rfl)
  exact ⟨known_claimedBy hread.known hpending hhuman hverified hdistinct hvetted,
    hread.actionId_eq, hread.present⟩

/-- Rotating the instant keeps everything else of a claim. -/
theorem known_rotated {rotated : String} (hknown : Known sha256 sessions w record)
    (hclaimed : record.status = .claimed) :
    Known sha256 sessions w { record with claimedAt := some rotated } where
  requested := hknown.requested
  progressed := by
    obtain ⟨hhuman, -, hrest⟩ := hknown.progressed.claimed hclaimed
    refine ⟨fun hpending => ?_, fun _ => ⟨hhuman, rfl, hrest⟩,
      fun _ _ => hknown.progressed.approved hhuman (.inl hclaimed)⟩
    exact absurd (hpending.symm.trans hclaimed) (by decide)

theorem ensures_rotatedInstant (stale now : String) :
    Assures sha256 sessions ok i (rotatedInstant stale now)
      (fun _ w' => Follows i w w') w := by
  unfold rotatedInstant
  split_ifs
  · -- the answer is returned as it is
    refine ensures_observation ?_ ?_
    · rintro w w' now ⟨-, rfl⟩
      exact observes_tick w now
    · intro w₁ w₂ now _ _ _ _ hfollows
      exact ensures_pure fun w₃ _ hfollows₃ => hfollows.trans hfollows₃
  · exact ensures_pure fun _ _ hfollows => hfollows

theorem ensures_rotateClaim
    (hread : Read sha256 sessions w args.actionId record) (hclaimed : record.status = .claimed) :
    Assures sha256 sessions ok i (rotateClaim args record now)
      (fun claimed w' => Claim sha256 sessions i w' args.actionId claimed) w := by
  unfold rotateClaim
  cases hstale : record.claimedAt with
  | none => exact ensures_throw
  | some stale =>
    apply (ensures_rotatedInstant stale now).bind
    intro rotated w₁ _ hfollows
    have hread₁ := hread.follows hfollows
    have hrotated : Read sha256 sessions w₁ args.actionId
        { record with claimedAt := some rotated } :=
      ⟨known_rotated hread₁.known hclaimed, hread₁.actionId_eq, hread₁.present⟩
    exact ensures_claiming hrotated hclaimed (.inr rfl)

/-- The completed evidence of a claim. -/
theorem known_executedRecord {executedAt : String} (hknown : Known sha256 sessions w claimed)
    (hclaimed : claimed.status = .claimed) :
    Known sha256 sessions w (executedRecord claimed executedAt resultPayload) where
  requested := hknown.requested
  progressed := by
    obtain ⟨hhuman, -⟩ := hknown.progressed.claimed hclaimed
    exact ⟨nofun, nofun, fun _ _ => hknown.progressed.approved hhuman (.inl hclaimed)⟩

theorem ensures_finalizeClaim (hclaim : Claim sha256 sessions i w actionId claimed) :
    Assures sha256 sessions ok i
      (finalizeClaim actionId claimed resultPayload) (fun _ _ => True) w := by
  apply ensures_utcNowIso
  intro w₁ executedAt _ hfollows₁
  have hclaim₁ := hclaim.follows hfollows₁
  obtain ⟨-, hinstant, -⟩ := hclaim.read.known.progressed.claimed hclaim.status
  have hknown : Known sha256 sessions w₁ (executedRecord claimed executedAt resultPayload) :=
    known_executedRecord hclaim₁.read.known hclaim.status
  apply ensures_transition hknown hclaim₁.read.present
  · intro w₂ before hledger₂ hfollows₂ hget hstatus hclaimedAt
    refine .finalize hstatus rfl ⟨claimed, hfollows₂.won hclaim₁.won, hclaim.status, ?_,
      (hclaimedAt hinstant).symm⟩
    exact hclaim.read.actionId_eq.trans (hledger₂.keyed _ _ hget).symm
  · intro w₂ _ _
    exact ensures_throw
  · intro w₂ _ _ _
    exact ensures_pure fun _ _ _ => trivial

/-! ### Approval -/

theorem ensures_requireFreshness
    (hbuilder : Assures sha256 sessions ok i (currentPayloadBuilder record)
      (fun payload w' => (computeGovernedActionHash sha256 payload = record.actionHash →
        Vetted sessions caller record w') ∧ Follows i w w') w) :
    Assures sha256 sessions ok i (requireFreshness sha256 resuming currentPayloadBuilder record)
      (fun _ w' => (resuming = false → Vetted sessions caller record w') ∧ Follows i w w') w := by
  cases resuming with
  | true => exact ensures_pure fun _ _ hfollows => ⟨nofun, hfollows⟩
  | false =>
    apply hbuilder.bind
    rintro payload w₁ _ ⟨hvetted, hfollows₁⟩
    split_ifs with hhash
    · apply ensures_pure
      intro w₂ _ hfollows₂
      exact ⟨fun _ => (hvetted hhash).follows hfollows₂, hfollows₁.trans hfollows₂⟩
    · exact ensures_throw

/-- Winning the claim, fresh or resumed. -/
theorem ensures_takeClaim (hread : Read sha256 sessions w args.actionId record)
    (hpasses : approvalRefusal args record (resumingOwnClaim caller args record) = none)
    (hverified : caller.Verified) (hdistinct : caller.credentialKeyId ≠ record.requesterKeyId)
    (hvetted : resumingOwnClaim caller args record = false → Vetted sessions caller record w) :
    Assures sha256 sessions ok i
      (takeClaim (resumingOwnClaim caller args record) caller args record now)
      (fun claimed w' => Claim sha256 sessions i w' args.actionId claimed) w := by
  obtain ⟨hstatus, hhuman⟩ := approvalRefusal_eq_none hpasses
  cases hresuming : resumingOwnClaim caller args record with
  | true =>
    have hclaimed : record.status = .claimed := by
      simp only [resumingOwnClaim, Bool.and_eq_true, decide_eq_true_eq] at hresuming
      exact hresuming.1.2
    exact ensures_rotateClaim hread hclaimed
  | false =>
    have hpending : record.status = .pending := by simpa [hresuming] using hstatus
    exact ensures_claimPending hread hpending hhuman hverified hdistinct (hvetted hresuming)

/-- The approval keeps the protocol, given that its payload builder vets the approver of
a release and that its callback keeps the protocol. -/
theorem ensures_approveAndExecute {γ : Type} {execute : GovernedActionRecord → Service γ}
    {resultPayload : γ → Option ResultPayload}
    (hbuilder : ∀ record w', Follows i w w' → caller.Verified →
      Read sha256 sessions w' args.actionId record →
      Assures sha256 sessions ok i (currentPayloadBuilder record)
        (fun payload w'' => (computeGovernedActionHash sha256 payload = record.actionHash →
          Vetted sessions caller record w'') ∧ Follows i w' w'') w')
    (hexecute : ∀ claimed w', Assures sha256 sessions ok i (execute claimed)
      (fun _ w'' => Follows i w' w'') w') :
    Assures sha256 sessions ok i
      (approveAndExecuteGovernedAction sha256 caller args currentPayloadBuilder execute
        resultPayload) (fun _ _ => True) w := by
  apply ensures_requireVerified
  intro hverified
  apply (ensures_requireGovernedAction args.actionId).bind
  rintro record w₁ _ ⟨hread₁, hfollows₁⟩
  apply ensures_refuseIf
  intro hpasses
  apply (ensures_requireFreshness (hbuilder record w₁ hfollows₁ hverified hread₁)).bind
  rintro ⟨⟩ w₂ _ ⟨hvetted₂, hfollows₂⟩
  apply ensures_requireDistinctApprover
  intro hdistinct
  apply ensures_utcNowIso
  intro w₃ now _ hfollows₃
  have hread₃ := (hread₁.follows hfollows₂).follows hfollows₃
  have hvetted₃ : resumingOwnClaim caller args record = false →
      Vetted sessions caller record w₃ := fun hfresh => (hvetted₂ hfresh).follows hfollows₃
  apply (ensures_takeClaim hread₃ hpasses hverified hdistinct hvetted₃).bind
  intro claimed w₄ _ hclaim₄
  apply ensures_callbackStarts hclaim₄.won
  intro w₅ _ hfollows₅
  have hclaim₅ := hclaim₄.follows hfollows₅
  apply (hexecute claimed w₅).bind
  intro outcome w₆ _ hfollows₆
  apply (ensures_finalizeClaim (hclaim₅.follows hfollows₆)).bind
  intro executed w₇ _ _
  exact ensures_pure fun _ _ _ => trivial

/-- A payload with the hash of a release is a release payload, which no domain builds. -/
theorem vetted_of_builds (hsha : Function.Injective sha256) {domain : Domain}
    (hknown : Known sha256 sessions w record) (hbuilds : domain.builds payload)
    (hhash : computeGovernedActionHash sha256 payload = record.actionHash) :
    Vetted sessions caller record w' := by
  intro htype
  obtain ⟨htag, -⟩ := hknown.requested.release htype
  have htext : canonicalJson payload = canonicalJson record.actionPayload :=
    hsha (hhash.trans hknown.requested.hash)
  rw [← get?_eq_of_canonicalJson_eq htext] at htag
  obtain ⟨tag, hmem, hbuilt⟩ : ∃ tag ∈ domain.payloadTags,
      payload.get? "action_type" = some (some tag) := by
    simpa [Domain.builds] using hbuilds
  obtain rfl : GovernedActionType.claimRelease.value = tag := by simpa using htag.symm.trans hbuilt
  exact absurd hmem domain.claimRelease_notMem_payloadTags

theorem ensures_orRaise {α : Type} {Fact : α → World ι → Prop} {result : Except Raised α}
    (h : ∀ a, result = .ok a → ∀ w', Ledger sha256 sessions w' → Follows i w w' → Fact a w') :
    Assures sha256 sessions ok i (orRaise result) Fact w := by
  cases result with
  | ok a => exact ensures_pure (h a rfl)
  | error e => exact ensures_throw

theorem ensures_approveDomainAction (hsha : Function.Injective sha256)
    (caller : AuthenticatedCaller) (domain : Domain) (args : ApprovalArgs) :
    Assures sha256 sessions ok i
      (approveDomainAction sha256 caller domain args) (fun _ _ => True) w := by
  refine (ensures_approveAndExecute ?_ ?_).bind ?_
  · intro record w₁ _ _ hread
    apply ensures_quiet (by rintro _ _ _ ⟨-, hquiet⟩; exact hquiet)
    rintro w₂ result _ hfollows₂ ⟨hbuilds, -⟩
    apply ensures_orRaise
    intro payload hok w₃ _ hfollows₃
    exact ⟨vetted_of_builds hsha hread.known (hbuilds payload hok), hfollows₂.trans hfollows₃⟩
  · intro claimed w₁
    apply ensures_quiet (by intro _ _ _ hquiet; exact hquiet)
    intro w₂ result _ hfollows₂ _
    apply ensures_orRaise
    intro outcome _ w₃ _ hfollows₃
    exact hfollows₂.trans hfollows₃
  · rintro ⟨executed, outcome⟩ w₁ _ _
    exact ensures_pure fun _ _ _ => trivial

/-! ### Requests -/

theorem known_superseded {prior : GovernedActionRecord} (hknown : Known sha256 sessions w prior) :
    Known sha256 sessions w
      { prior with status := .superseded, supersededByActionId := some actionId } where
  requested := hknown.requested
  progressed := ⟨nofun, nofun, fun _ h => by
    rcases h with h | h <;> exact nomatch h⟩

theorem ensures_supersedePrior {prior : Option GovernedActionRecord}
    (hread : ∀ record, prior = some record → Read sha256 sessions w record.actionId record) :
    Assures sha256 sessions ok i (supersedePrior prior actionId)
      (fun _ w' => Follows i w w') w := by
  cases prior with
  | none => exact ensures_pure fun _ _ hfollows => hfollows
  | some record =>
    have hprior := hread record rfl
    have hknown : Known sha256 sessions w
        { record with status := .superseded, supersededByActionId := some actionId } :=
      known_superseded hprior.known
    apply ensures_transition hknown hprior.present
    · intro w₁ before _ _ _ hstatus _
      exact .supersede hstatus rfl
    · intro w₁ _ hfollows
      exact ensures_pure fun _ _ hfollows₂ => hfollows.trans hfollows₂
    · intro w₁ _ hfollows _
      exact ensures_pure fun _ _ hfollows₂ => hfollows.trans hfollows₂

/-- A request is stored as a pending action once its payload and requester are in order. -/
theorem ensures_submitGovernedAction
    (hrequested : caller.Verified → ∀ actionId requestedAt, Requested sha256
      (submittedRequest sha256 caller actionType target payload attribution actionId requestedAt)) :
    Assures sha256 sessions ok i
      (submitGovernedAction sha256 caller actionType target payload attribution)
      (fun _ _ => True) w := by
  apply ensures_requireVerified
  intro hverified
  apply ensures_newActionId
  intro w₁ actionId _ _ howns₁
  apply ensures_utcNowIso
  intro w₂ requestedAt _ hfollows₂
  have howns₂ := hfollows₂.owns _ howns₁
  apply ensures_quiet (by rintro _ _ _ ⟨-, hquiet⟩; exact hquiet)
  rintro w₃ prior hledger₃ hfollows₃ ⟨hmatches, -⟩
  have howns₃ := hfollows₃.owns _ howns₂
  have hprior : ∀ record, prior = some record →
      Read sha256 sessions w₃ record.actionId record := by
    intro record hrecord
    obtain ⟨hvalue, -⟩ := List.mem_filter.mp (hmatches record hrecord)
    obtain ⟨key, hget⟩ := Dict.mem_values_iff.mp hvalue
    obtain rfl := hledger₃.keyed _ _ hget
    exact hledger₃.read hget
  apply (ensures_supersedePrior hprior).bind
  intro _ w₄ _ hfollows₄
  have hrequest := hrequested hverified actionId requestedAt
  apply ensures_upsertGovernedAction
  · exact hfollows₄.owns _ howns₃
  · refine ⟨hrequest, fun _ => rfl, nofun, fun _ h => ?_⟩
    rcases h with h | h <;> exact nomatch h
  · exact nofun
  · intro w₅ _
    exact ensures_pure fun _ _ _ => trivial

theorem ensures_recordSystemOriginatedAction (serviceIdentity : String)
    (actionType : GovernedActionType) (target : String) (payload : Payload) :
    Assures sha256 sessions ok i
      (recordSystemOriginatedAction sha256 serviceIdentity actionType target payload)
      (fun _ _ => True) w := by
  unfold recordSystemOriginatedAction
  split_ifs with hhuman
  · exact ensures_throw
  · apply ensures_newActionId
    intro w₁ actionId _ _ howns₁
    apply ensures_utcNowIso
    intro w₂ requestedAt _ hfollows₂
    apply ensures_utcNowIso
    intro w₃ executedAt _ hfollows₃
    apply ensures_upsertGovernedAction
    · exact hfollows₃.owns _ (hfollows₂.owns _ howns₁)
    · -- a system action is of no human-governed type and has no approver to speak of
      have hrelease : actionType ≠ .claimRelease := by
        rintro rfl
        exact hhuman (by decide)
      exact ⟨⟨rfl, fun h => absurd h hhuman, nofun, fun h => absurd h hrelease⟩,
        nofun, nofun, nofun⟩
    · exact nofun
    · intro w₄ _
      exact ensures_pure fun _ _ _ => trivial

/-! ### Claim release -/

/-- The payload of a release pins its tag and the frozen credential. -/
theorem requested_release {targetActionId targetHash claimedAt frozen reason : String}
    (hverified : caller.Verified) (hfrozen : some frozen ≠ caller.credentialKeyId) :
    Requested sha256 (submittedRequest sha256 caller .claimRelease targetActionId
      (releasePayload targetActionId targetHash claimedAt frozen reason) attribution actionId
      requestedAt) where
  hash := rfl
  human _ := rfl
  requester _ := hverified
  release _ := ⟨rfl, frozen, rfl, fun h => hfrozen h.symm⟩

theorem ensures_requestClaimRelease (caller : AuthenticatedCaller)
    (request : ClaimReleaseIntentRequest) :
    Assures sha256 sessions ok i
      (requestClaimRelease sha256 caller request) (fun _ _ => True) w := by
  apply ensures_requireProviderControl
  intro w₁ _
  apply (ensures_requireGovernedAction request.targetActionId).bind
  rintro target w₂ - -
  unfold requireClaimed
  split_ifs
  · apply ensures_pure_bind
    apply ensures_refuseFrozenCredential
    intro hfrozen
    unfold pinnedClaim
    split
    · rename_i claimedAt approverKeyId _ happrover
      apply ensures_pure_bind
      apply ensures_submitGovernedAction
      intro hverified actionId requestedAt
      exact requested_release hverified (happrover ▸ hfrozen hverified)
    · exact ensures_throw_bind
  · exact ensures_throw_bind

theorem ensures_rebuildPayload (record : GovernedActionRecord) :
    Assures sha256 sessions ok i (rebuildPayload record)
      (fun _ w' => Follows i w w') w := by
  apply ensures_getGovernedAction
  · intro w₁ _ _ hfollows₁ _
    exact ensures_pure fun _ _ hfollows₂ => hfollows₁.trans hfollows₂
  · intro w₁ _ hfollows₁ _
    exact ensures_pure fun _ _ hfollows₂ => hfollows₁.trans hfollows₂

/-- A released claim is the pending action it was before the claim. -/
theorem known_releasedRecord {target : GovernedActionRecord}
    (hknown : Known sha256 sessions w target) (hclaimed : target.status = .claimed) :
    Known sha256 sessions w (releasedRecord target) where
  requested := hknown.requested
  progressed := by
    obtain ⟨-, -, hresult, hexecuted, hsuperseded⟩ := hknown.progressed.claimed hclaimed
    refine ⟨fun _ => ?_, nofun, fun _ h => ?_⟩
    · simp [releasedRecord, GovernedActionRequest.pending, hresult, hexecuted, hsuperseded]
    · rcases h with h | h <;> exact nomatch h

theorem ensures_executeRelease (record : GovernedActionRecord) :
    Assures sha256 sessions ok i (executeRelease record)
      (fun _ w' => Follows i w w') w := by
  apply ensures_getGovernedAction
  · intro w₁ target hledger₁ hfollows₁ hget
    unfold releaseTarget
    dsimp only
    split_ifs with hclaimed
    · exact ensures_throw
    · have hread := hledger₁.read hget
      have hknown := known_releasedRecord hread.known (not_not.mp hclaimed)
      apply ensures_transition hknown hread.present
      · intro w₂ before _ _ _ hstatus _
        exact .release hstatus rfl
      · intro w₂ _ _
        exact ensures_throw
      · intro w₂ _ hfollows₂ _
        exact ensures_pure fun _ _ hfollows₃ => (hfollows₁.trans hfollows₂).trans hfollows₃
  · intro w₁ _ _ _
    exact ensures_throw

/-- What the first lookup of a release approval settles: the approver is not the frozen
credential of the action found, or nothing was found and nothing compared. -/
def Cleared (sha256 : String → String) (sessions : ι → Session) (caller : AuthenticatedCaller)
    (actionId : String) (w : World ι) : Prop :=
  Excused sessions w actionId ∨ ∃ found, Read sha256 sessions w actionId found ∧
    (caller.Verified → some (found.actionPayload.text "frozen_approver_key_id") ≠
      caller.credentialKeyId)

theorem Cleared.follows (h : Cleared sha256 sessions caller actionId w)
    (hfollows : Follows i w w') :
    Cleared sha256 sessions caller actionId w' := by
  rcases h with hexcused | ⟨found, hread, hfrozen⟩
  · exact .inl (hexcused.mono hfollows.absent)
  · exact .inr ⟨found, hread.follows hfollows, hfrozen⟩

/-- Two reads of one action agree on its request, so the first lookup vets the second. -/
theorem Cleared.vetted (h : Cleared sha256 sessions caller actionId w) (hverified : caller.Verified)
    (hread : Read sha256 sessions w actionId record) : Vetted sessions caller record w := by
  intro htype
  rcases h with hexcused | ⟨found, hfound, hfrozen⟩
  · exact .inr (hread.actionId_eq ▸ hexcused)
  · left
    obtain ⟨stored, hstored, hsame⟩ := hread.present
    obtain ⟨stored', hstored', hsame'⟩ := hfound.present
    obtain rfl := Option.mem_unique hstored hstored'
    obtain ⟨-, frozen, hpinned, -⟩ := hread.known.requested.release htype
    have hpayload : found.actionPayload = record.actionPayload :=
      congrArg GovernedActionRequest.actionPayload (hsame'.symm.trans hsame)
    have htext : record.actionPayload.text "frozen_approver_key_id" = frozen := by
      rw [GovernedActionRequest.frozenApproverKeyId, Option.join_eq_some_iff] at hpinned
      rw [Payload.text, hpinned]
    rw [hpinned, ← htext, ← hpayload]
    exact hfrozen hverified

theorem ensures_approveFoundRelease {existing : Option GovernedActionRecord}
    (hfound : ∀ record, existing = some record → Read sha256 sessions w request.actionId record)
    (hmissing : existing = none → Excused sessions w request.actionId) :
    Assures sha256 sessions ok i
      (approveFoundRelease sha256 caller request existing) (fun _ _ => True) w := by
  suffices hrest : Cleared sha256 sessions caller request.actionId w →
      Assures sha256 sessions ok i (do
        let named ← requireGovernedAction request.actionId
        approveAndExecuteGovernedAction sha256 caller
          { actionId := request.actionId
            expectedTarget := named.target
            expectedHash := request.actionHash
            attribution := request.approvedBy
            resumeInterruptedClaim := request.resumeInterruptedClaim }
          rebuildPayload executeRelease fun released => some (releaseResult existing released))
        (fun _ _ => True) w by
    cases existing with
    | none => exact ensures_pure_bind (hrest (.inl (hmissing rfl)))
    | some record =>
      apply ensures_refuseFrozenCredential
      intro hfrozen
      exact hrest (.inr ⟨record, hfound record rfl, hfrozen⟩)
  intro hcleared
  apply (ensures_requireGovernedAction request.actionId).bind
  rintro named w₁ - ⟨-, hfollows₁⟩
  apply ensures_approveAndExecute
  · intro record w₂ hfollows₂ hverified hread
    have hvetted := ((hcleared.follows hfollows₁).follows hfollows₂).vetted hverified hread
    apply (ensures_rebuildPayload record).mono
    intro payload w₃ _ hfollows₃
    exact ⟨fun _ => hvetted.follows hfollows₃, hfollows₃⟩
  · exact fun claimed w₂ => ensures_executeRelease claimed

theorem ensures_approveClaimRelease (happroves : (sessions i).approvesRelease request.actionId) :
    Assures sha256 sessions ok i
      (approveClaimRelease sha256 caller request) (fun _ _ => True) w := by
  apply ensures_requireProviderControl
  intro w₁ _
  apply ensures_getGovernedAction
  · intro w₂ record hledger₂ _ hget
    cases recordedRelease request (some record) with
    | some outcome =>
      -- an executed release is answered from its record
      apply ensures_getGovernedAction
      · intro w₃ target _ _ _
        exact ensures_pure fun _ _ _ => trivial
      · intro w₃ _ _ _
        exact ensures_throw
    | none =>
      apply ensures_approveFoundRelease
      · rintro found ⟨⟩
        exact hledger₂.read hget
      · exact fun h => nomatch h
  · intro w₂ _ _ habsent
    exact ensures_approveFoundRelease (fun _ h => nomatch h) fun _ => ⟨i, happroves, habsent⟩

/-! ### Sessions -/

/-- A domain's own request is in order whatever its payload says. -/
theorem requested_domain (ownType : actionType ≠ .claimRelease) (hverified : caller.Verified) :
    Requested sha256 (submittedRequest sha256 caller actionType target payload attribution actionId
      requestedAt) where
  hash := rfl
  human _ := rfl
  requester _ := hverified
  release h := absurd h ownType

/-- Every session keeps the protocol. -/
theorem ensures_program (hsha : Function.Injective sha256) :
    Assures sha256 sessions ok i ((sessions i).program sha256)
      (fun _ _ => True) w := by
  cases hsession : sessions i with
  | submit caller actionType ownType target payload attribution =>
    apply ensures_submitGovernedAction
    intro hverified actionId requestedAt
    exact requested_domain ownType hverified
  | approve caller domain args => exact ensures_approveDomainAction hsha caller domain args
  | requestRelease caller request => exact ensures_requestClaimRelease caller request
  | approveRelease caller request =>
    have happroves : (sessions i).approvesRelease request.actionId := by
      simp [hsession, Session.approvesRelease]
    apply (ensures_approveClaimRelease happroves).bind
    rintro ⟨executed, released⟩ w₁ _ _
    exact ensures_pure fun _ _ _ => trivial
  | systemOriginated serviceIdentity actionType target payload =>
    exact ensures_recordSystemOriginatedAction serviceIdentity actionType target payload

/-- Any pool of sessions over the empty store keeps the protocol. -/
theorem safePool [DecidableEq ι] (hsha : Function.Injective sha256) :
    SafePool (protocol sha256 sessions ok) (machine ι) (fun _ _ _ => True)
      (pool sha256 sessions) where
  inv := ledger_initial sha256 sessions
  safe _ := Safe.mono (ensures_program hsha) fun _ _ _ _ => trivial

end LotusAI.Governance
