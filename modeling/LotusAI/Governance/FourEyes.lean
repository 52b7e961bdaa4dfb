import LotusAI.Governance.Safety

/-!
# Dual control

In every interleaving of requests, approvals, resumes and releases, a claimed or
executed action was requested and approved under two different credentials, and its
hash is that of its payload. For a claim release a third credential matters: the one
that holds the frozen claim must be neither requester nor approver.

The last part has a gap. `approve_claim_release` compares its caller with the frozen
credential only if its first lookup finds the action. The identifier of a release is
published, as the successor of the release it supersedes, before the release itself is
stored; an approval under the frozen credential that looks it up in between is never
compared, finds the action at its next lookup and goes through.
-/

namespace LotusAI.Governance

open Lib Protocol

variable {ι : Type} {sha256 : String → String} {sessions : ι → Session}

/-- The dual-control guarantee. -/
structure FourEyes (sha256 : String → String) (w : World ι) : Prop where
  /-- Two verified, distinct credentials stand behind every claimed or executed action. -/
  distinct : ∀ actionId record, w.actions.get? actionId = some record →
    record.actorClass = .humanApproved → record.status = .claimed ∨ record.status = .executed →
    ∃ requester approver, record.requesterKeyId = some requester ∧
      record.approverKeyId = some approver ∧ requester ≠ "" ∧ approver ≠ "" ∧
      requester ≠ approver
  /-- The evidence is self-verifying. -/
  hash : ∀ actionId record, w.actions.get? actionId = some record →
    record.actionHash = computeGovernedActionHash sha256 record.actionPayload
  /-- No human-governed action answers to a service identity. -/
  human : ∀ actionId record, w.actions.get? actionId = some record →
    record.actionType ∈ humanGovernedActionTypes → record.actorClass = .humanApproved
  /-- The frozen credential had no part in an executed release. -/
  release : ∀ actionId record, w.actions.get? actionId = some record →
    record.actionType = .claimRelease → record.status = .executed →
    ∃ frozen requester approver, record.frozenApproverKeyId = some frozen ∧
      record.requesterKeyId = some requester ∧ record.approverKeyId = some approver ∧
      requester ≠ approver ∧ requester ≠ frozen ∧ approver ≠ frozen

/-- No action is stored under an identifier that an approval of its release has already
looked up in vain. -/
def noLateRelease (sessions : ι → Session) (_ : ι) (w : World ι) : Call → Bool
  | .upsertGovernedAction record => w.absentReads.all fun read =>
      !(read.2 = record.actionId && (sessions read.1).approvesRelease record.actionId)
  | _ => true

/-- No stored action was excused from the comparison with the frozen credential. -/
def NoneExcused (sessions : ι → Session) (w : World ι) : Prop :=
  ∀ actionId, Excused sessions w actionId → w.actions.get? actionId = none

theorem NoneExcused.step {i : ι} {w w' : World ι} (h : NoneExcused sessions w)
    (hmove : Move (fun i w call => noLateRelease sessions i w call) i w w') :
    NoneExcused sessions w' := by
  intro actionId hexcused
  cases hmove with
  | observe observes =>
    -- a lookup only counts as in vain where there is nothing
    obtain ⟨j, happroves, hread⟩ := hexcused
    rw [observes.actions]
    rcases observes.missing _ hread with hbefore | hnone
    · exact h actionId ⟨j, happroves, hbefore⟩
    · exact hnone
  | issue => exact h actionId hexcused
  | store record allowed owns =>
    obtain ⟨j, happroves, hread⟩ := hexcused
    have hne : actionId ≠ record.actionId := by
      rintro rfl
      simpa [happroves] using List.all_eq_true.mp allowed _ hread
    exact (w.actions.get?_insert_of_ne hne record).trans (h actionId ⟨j, happroves, hread⟩)
  | move actionId' _ before after _ _ admitted =>
    have hnone := h actionId hexcused
    have hne : actionId ≠ actionId' := by
      rintro rfl
      exact nomatch hnone.symm.trans (World.admits_eq_some admitted).1
    exact (w.actions.get?_insert_of_ne hne after).trans hnone
  | start => exact h actionId hexcused

/-- A store of well-formed records, none of them excused, is under dual control. -/
theorem Ledger.fourEyes {w : World ι} (hledger : Ledger sha256 sessions w)
    (hnone : NoneExcused sessions w) : FourEyes sha256 w := by
  have hkeys : ∀ actionId record, w.actions.get? actionId = some record →
      record.actorClass = .humanApproved → record.status = .claimed ∨ record.status = .executed →
      ∃ requester approver, record.requesterKeyId = some requester ∧
        record.approverKeyId = some approver ∧ requester ≠ "" ∧ approver ≠ "" ∧
        requester ≠ approver ∧
        (record.actionType = .claimRelease → record.frozenApproverKeyId ≠ some approver) := by
    intro actionId record hget hhuman hstatus
    obtain ⟨hrequested, hprogressed⟩ := hledger.known actionId record hget
    obtain ⟨requester, hrequester, hrequester_ne⟩ := hrequested.requester hhuman
    obtain ⟨approver, happrover, happrover_ne, hdistinct, hfrozen⟩ :=
      hprogressed.approved hhuman hstatus
    refine ⟨requester, approver, hrequester, happrover, hrequester_ne, happrover_ne, ?_, ?_⟩
    · rintro rfl
      exact hdistinct hrequester
    · intro htype
      refine (hfrozen htype).resolve_right fun hexcused => ?_
      rw [hledger.keyed _ _ hget] at hexcused
      exact nomatch (hnone actionId hexcused).symm.trans hget
  constructor
  · intro actionId record hget hhuman hstatus
    obtain ⟨requester, approver, hrequester, happrover, hne, hne', hdistinct, -⟩ :=
      hkeys actionId record hget hhuman hstatus
    exact ⟨requester, approver, hrequester, happrover, hne, hne', hdistinct⟩
  · exact fun actionId record hget => (hledger.known actionId record hget).requested.hash
  · exact fun actionId record hget => (hledger.known actionId record hget).requested.human
  · intro actionId record hget htype hstatus
    have hrequested := (hledger.known actionId record hget).requested
    have hhuman : record.actorClass = .humanApproved := hrequested.human (by rw [htype]; decide)
    obtain ⟨requester, approver, hrequester, happrover, -, -, hdistinct, hfrozen⟩ :=
      hkeys actionId record hget hhuman (.inr hstatus)
    obtain ⟨-, frozen, hpinned, hrequester_frozen⟩ := hrequested.release htype
    refine ⟨frozen, requester, approver, hpinned, hrequester, happrover, hdistinct, ?_, ?_⟩
    · rintro rfl
      exact hrequester_frozen hrequester
    · rintro rfl
      exact hfrozen htype hpinned

/-- Dual control holds in every state that any interleaving of any sessions reaches, as
long as no action is stored under an identifier that an approval of its release has
already looked up in vain. -/
theorem fourEyes_of_reach [DecidableEq ι] (hsha : Function.Injective sha256)
    {c : Machine.Config Call.Answer ι (World ι) (Except Raised GovernedActionRecord)}
    (hreach : (machine ι).Reach (fun i w call => noLateRelease sessions i w call)
      (pool sha256 sessions) c) :
    FourEyes sha256 c.store := by
  have hpool : SafePool (protocol sha256 sessions fun i w call => noLateRelease sessions i w call)
      (machine ι) (fun _ _ _ => True) (pool sha256 sessions) := safePool hsha
  have hnone : NoneExcused sessions c.store := by
    refine hpool.invariant hreach ?_ ?_
    · rintro actionId ⟨j, -, hread⟩
      exact nomatch hread
    · intro i w w' _ _ hmove h
      exact h.step hmove
  exact (hpool.reach hreach).inv.fourEyes hnone

/-! ### Runs -/

section Runs

/-- A caller that signs with credential `key`. -/
def operator (key : String) : AuthenticatedCaller := ⟨"lotus-operator", "signed_credential", some key⟩

/-- The instant every clock reading of the runs below shows. -/
def sampleInstant : String := "2026-01-01T00:00:00+00:00"

/-- A provider-operations reset, as its domain writes it. -/
def resetPayload : Payload :=
  (Dict.empty.insert "action_type" (some "RESET_BUDGET")).insert "reason" (some "drill")

/-- The approval of the reset `gact_a`. -/
def resetApproval : ApprovalArgs where
  actionId := "gact_a"
  expectedTarget := "budget"
  expectedHash := computeGovernedActionHash id resetPayload
  attribution := none
  resumeInterruptedClaim := false

/-- The intent to release the claim that credential `holder` has on the reset. -/
def releaseIntent : ClaimReleaseIntentRequest := ⟨"gact_a", "holder is gone", none⟩

/-- The approval of that release under the identifier `actionId`. -/
def releaseApproval (actionId : String) : ClaimReleaseApprovalRequest where
  actionId := actionId
  actionHash := computeGovernedActionHash id (releasePayload "gact_a"
    (computeGovernedActionHash id resetPayload) sampleInstant "holder" "holder is gone")
  approvedBy := none
  resumeInterruptedClaim := false

def granted : Choice := .authorization ⟨"lotus-operator", true, "allowed"⟩

/-- A reset is requested and claimed under `holder`, whose callback does not return; its
release is requested twice, and approved under `approver`. -/
def releaseSessions (approver actionId : String) : ℕ → Session
  | 0 => .submit (operator "requester") .providerOperationsReset (by decide) "budget"
      resetPayload none
  | 1 => .approve (operator "holder") .providerOperations resetApproval
  | 2 => .requestRelease (operator "first") releaseIntent
  | 3 => .requestRelease (operator "second") releaseIntent
  | _ => .approveRelease (operator approver) (releaseApproval actionId)

/-- The reset is stored and claimed, and a release of the claim is stored as `gact_b`. -/
def frozenSteps : List (ℕ × Choice) :=
  [(0, .uuid "a"), (0, .time sampleInstant), (0, .row 0), (0, .store),
    (1, .store), (1, .payload (.ok resetPayload)), (1, .time sampleInstant), (1, .store),
    (1, .store),
    (2, granted), (2, .store), (2, .uuid "b"), (2, .time sampleInstant), (2, .row 0), (2, .store)]

/-- A third credential approves the release, start to end. -/
def releaseSteps : List (ℕ × Choice) :=
  frozenSteps ++ [(4, granted), (4, .store), (4, .store), (4, .store), (4, .store),
    (4, .time sampleInstant), (4, .store), (4, .store), (4, .store), (4, .store),
    (4, .time sampleInstant), (4, .store)]

/-- What an auditor compares: who requested and approved, and whose claim was frozen. -/
structure Evidence where
  actionType : GovernedActionType
  status : GovernedActionStatus
  requester : Option String
  approver : Option String
  frozen : Option String
  deriving DecidableEq

/-- The evidence of a stored action. -/
def evidence (w : World ι) (actionId : String) : Option Evidence :=
  (w.actions.get? actionId).map fun record => ⟨record.actionType, record.status,
    record.requesterKeyId, record.approverKeyId, record.frozenApproverKeyId⟩

theorem evidence_releaseSteps :
    ((machine ℕ).schedule (fun i w call => noLateRelease (releaseSessions "third" "gact_b") i w call)
      (pool id (releaseSessions "third" "gact_b")) releaseSteps).map
        (fun c => evidence c.store "gact_b") =
      some (some ⟨.claimRelease, .executed, some "first", some "third", some "holder"⟩) := by
  decide +kernel

/-- The guarantee at the end of a release that was requested and approved. -/
theorem fourEyes_releaseSteps : ∃ c, (machine ℕ).Reach
      (fun i w call => noLateRelease (releaseSessions "third" "gact_b") i w call)
      (pool id (releaseSessions "third" "gact_b")) c ∧
    evidence c.store "gact_b" =
      some ⟨.claimRelease, .executed, some "first", some "third", some "holder"⟩ ∧ FourEyes id c.store := by
  obtain ⟨c, hrun, hevidence⟩ := Option.map_eq_some_iff.mp evidence_releaseSteps
  have hreach := Machine.reach_of_schedule hrun
  exact ⟨c, hreach, hevidence, fourEyes_of_reach Function.injective_id hreach⟩

/-- The second request publishes its identifier `gact_c` when it supersedes `gact_b`; the
holder's approval looks it up before it is stored, and goes on once it is. -/
def lateSteps : List (ℕ × Choice) :=
  frozenSteps ++ [(3, granted), (3, .store), (3, .uuid "c"), (3, .time sampleInstant), (3, .row 0),
    (3, .store),
    (4, granted), (4, .store),
    (3, .store),
    (4, .store), (4, .store), (4, .store), (4, .time sampleInstant), (4, .store), (4, .store),
    (4, .store), (4, .store), (4, .time sampleInstant), (4, .store)]

theorem evidence_lateSteps :
    ((machine ℕ).schedule (fun _ _ _ => True) (pool id (releaseSessions "holder" "gact_c"))
      lateSteps).map (fun c => evidence c.store "gact_c") =
      some (some ⟨.claimRelease, .executed, some "second", some "holder", some "holder"⟩) := by
  decide +kernel

/-- The holder of a frozen claim approves and executes its release. -/
theorem exists_release_by_frozen : ∃ c,
    (machine ℕ).Reach (fun _ _ _ => True) (pool id (releaseSessions "holder" "gact_c")) c ∧
    evidence c.store "gact_c" =
      some ⟨.claimRelease, .executed, some "second", some "holder", some "holder"⟩ ∧ ¬ FourEyes id c.store := by
  obtain ⟨c, hrun, hevidence⟩ := Option.map_eq_some_iff.mp evidence_lateSteps
  refine ⟨c, Machine.reach_of_schedule hrun, hevidence, ?_⟩
  intro hfour
  obtain ⟨record, hget, hrecord⟩ := Option.map_eq_some_iff.mp hevidence
  simp only [Evidence.mk.injEq] at hrecord
  obtain ⟨htype, hstatus, -, happrover, hfrozen⟩ := hrecord
  obtain ⟨frozen, requester, approver, hfrozen', -, happrover', -, -, hne⟩ :=
    hfour.release "gact_c" record hget htype hstatus
  rw [hfrozen] at hfrozen'
  rw [happrover] at happrover'
  exact hne (Option.mem_unique happrover' hfrozen')

end Runs

end LotusAI.Governance
