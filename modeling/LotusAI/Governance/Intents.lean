import LotusAI.Governance.FourEyes

/-!
# One pending intent per target

A submission looks for a pending action of its type and target, supersedes what it
finds by a compare-and-set, and stores its own. Nothing holds the three calls
together: two submissions that look before either has stored both stay pending, and
a claim release returns an older action to pending whatever was requested since.
-/

namespace LotusAI.Governance

open Lib Protocol

variable {ι : Type} {sha256 : String → String} {sessions : ι → Session} {i : ι} {w w' : World ι}
  {actionId : String} {record : GovernedActionRecord}

/-- No two actions of one type and target are pending. -/
def SolePending (actions : Dict String GovernedActionRecord) : Prop :=
  ∀ actionId actionId' record record', actions.get? actionId = some record →
    actions.get? actionId' = some record' → record.status = .pending → record'.status = .pending →
    record.actionType = record'.actionType → record.target = record'.target → actionId = actionId'

/-- No approval by any credential, a resume included, gets past the stored record. -/
def GovernedActionRecord.NonApprovable (record : GovernedActionRecord) : Prop :=
  ∀ caller args, approvalRefusal args record (resumingOwnClaim caller args record) ≠ none

/-- A superseded action is still stored as it was. -/
def KeepsSuperseded (w w' : World ι) : Prop :=
  ∀ actionId record, w.actions.get? actionId = some record → record.status = .superseded →
    w'.actions.get? actionId = some record

/-- A write that leaves an action pending finds no action of its type and target pending. -/
def soleIntent (_ : ι) (w : World ι) : Call → Bool
  | .upsertGovernedAction record =>
    record.status ≠ .pending || (w.pendingMatches record.actionType record.target).isEmpty
  | .transitionGovernedAction actionId expectedStatus record expectedClaimedAt =>
    (w.admits actionId expectedStatus expectedClaimedAt).isNone || record.status ≠ .pending ||
      (w.pendingMatches record.actionType record.target).isEmpty
  | _ => true

/-! ### Steps -/

theorem SolePending.insert (h : SolePending w.actions) (hvacant : record.status ≠ .pending ∨
      w.pendingMatches record.actionType record.target = []) :
    SolePending (w.actions.insert actionId record) := by
  have hother : record.status = .pending → ∀ key stored, w.actions.get? key = some stored →
      stored.status = .pending → stored.actionType = record.actionType →
      stored.target ≠ record.target := by
    intro hpending key stored hget hstored htype htarget
    have hnone := hvacant.resolve_left (not_not_intro hpending)
    exact List.filter_eq_nil_iff.mp hnone stored (Dict.mem_values_iff.mpr ⟨key, hget⟩)
      (by simp [htype, htarget, hstored])
  intro key key' stored stored' hget hget' hpending hpending' htype htarget
  rw [Dict.get?_insert] at hget hget'
  split_ifs at hget hget' with hkey hkey' hkey'
  · exact hkey.trans hkey'.symm
  · cases hget
    exact absurd htarget.symm (hother hpending key' stored' hget' hpending' htype.symm)
  · cases hget'
    exact absurd htarget (hother hpending' key stored hget hpending htype)
  · exact h key key' stored stored' hget hget' hpending hpending' htype htarget

/-- Every compare-and-set replaces a pending or a claimed action. -/
theorem Legal.not_superseded {before after : GovernedActionRecord} (h : Legal i w before after) :
    before.status ≠ .superseded := by
  cases h <;> simp_all

theorem keepsSuperseded_insert {history : List (Event ι)}
    (hstored : ∀ stored, w.actions.get? actionId = some stored → stored.status ≠ .superseded) :
    KeepsSuperseded w { w with actions := w.actions.insert actionId record, history := history } := by
  intro key stored hget hsuperseded
  have hne : key ≠ actionId := by
    rintro rfl
    exact hstored stored hget hsuperseded
  exact (w.actions.get?_insert_of_ne hne record).trans hget

theorem Move.intents (hmove : Move (fun i w call => soleIntent i w call) i w w') :
    (SolePending w.actions → SolePending w'.actions) ∧ KeepsSuperseded w w' := by
  cases hmove with
  | observe observes =>
    simp only [KeepsSuperseded, observes.actions]
    exact ⟨id, fun _ _ hget _ => hget⟩
  | issue | start => exact ⟨id, fun _ _ hget _ => hget⟩
  | store record allowed owns =>
    refine ⟨fun h => h.insert (by simpa [soleIntent] using allowed), keepsSuperseded_insert ?_⟩
    intro stored hget
    exact nomatch owns.2.symm.trans hget
  | move actionId _ before after _ allowed admitted _ legal =>
    refine ⟨fun h => h.insert (by simpa [soleIntent, admitted] using allowed),
      keepsSuperseded_insert ?_⟩
    intro stored hget
    obtain rfl := Option.some.inj (hget.symm.trans (World.admits_eq_some admitted).1)
    exact legal.not_superseded

theorem nonApprovable_of_superseded (h : record.status = .superseded) :
    record.NonApprovable := by
  intro caller args
  simp [approvalRefusal, resumingOwnClaim, h]

section Runs

/-- Two requests for one reset. -/
def twinSessions : ℕ → Session := fun _ =>
  .submit (operator "requester") .providerOperationsReset nofun "budget" resetPayload none

/-- A submission up to its lookup. -/
def lookupSteps (session : ℕ) (hex : String) : List (ℕ × Choice) :=
  [(session, .uuid hex), (session, .time sampleInstant), (session, .row 0)]

/-- The type, target and status of a stored action. -/
def intent (w : World ι) (actionId : String) :
    Option (GovernedActionType × String × GovernedActionStatus) :=
  (w.actions.get? actionId).map fun record => (record.actionType, record.target, record.status)

theorem intents_sequential :
    ((machine ℕ).schedule (fun i w call => soleIntent i w call) (pool id twinSessions)
      (lookupSteps 0 "a" ++ [(0, .store)] ++ lookupSteps 1 "b" ++ [(1, .store), (1, .store)])).map
        (fun c => (intent c.store "gact_a", intent c.store "gact_b")) =
      some (some (.providerOperationsReset, "budget", .superseded),
        some (.providerOperationsReset, "budget", .pending)) := by
  decide +kernel

theorem intents_twin :
    ((machine ℕ).schedule (fun _ _ _ => True) (pool id twinSessions)
      (lookupSteps 0 "a" ++ lookupSteps 1 "b" ++ [(0, .store), (1, .store)])).map
        (fun c => (intent c.store "gact_a", intent c.store "gact_b")) =
      some (some (.providerOperationsReset, "budget", .pending),
        some (.providerOperationsReset, "budget", .pending)) := by
  decide +kernel

end Runs

end LotusAI.Governance
