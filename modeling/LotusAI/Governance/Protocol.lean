import LotusAI.Governance.Sessions
import LotusAI.Lib.RelyGuarantee
import Mathlib.Data.List.Infix

/-!
# The protocol of governed actions

What one call of a session may do to the store, seen from outside: it observes,
draws an identifier, stores a new action, wins a compare-and-set, or enters its
callback. `Move` states these steps with what a session must know to take them,
and nothing of the programs that take them. Around it stand the invariant of the
store and what a session relies on while others move.
-/

namespace LotusAI.Governance

open Lib List

variable {ι : Type}

/-! ### Records -/

/-- The frozen credential that a release request pins. -/
def GovernedActionRequest.frozenApproverKeyId (request : GovernedActionRequest) : Option String :=
  (request.actionPayload.get? "frozen_approver_key_id").join

/-- What a stored request satisfies from the start. -/
structure Requested (sha256 : String → String) (request : GovernedActionRequest) : Prop where
  hash : request.actionHash = computeGovernedActionHash sha256 request.actionPayload
  human : request.actionType ∈ humanGovernedActionTypes → request.actorClass = .humanApproved
  requester : request.actorClass = .humanApproved →
    ∃ key, request.requesterKeyId = some key ∧ key ≠ ""
  release : request.actionType = .claimRelease →
    request.actionPayload.get? "action_type" = some (some GovernedActionType.claimRelease.value) ∧
      ∃ frozen, request.frozenApproverKeyId = some frozen ∧ request.requesterKeyId ≠ some frozen

/-- The approver's evidence: a credential other than the requester's, and for a release
other than the frozen one, unless the action was `excused` from that check. -/
def Approved (excused : String → Prop) (record : GovernedActionRecord) : Prop :=
  ∃ key, record.approverKeyId = some key ∧ key ≠ "" ∧ record.requesterKeyId ≠ some key ∧
    (record.actionType = .claimRelease →
      record.frozenApproverKeyId ≠ some key ∨ excused record.actionId)

/-- What the evidence of a stored record satisfies in each status. -/
structure Progressed (excused : String → Prop) (record : GovernedActionRecord) : Prop where
  pending : record.status = .pending → record = record.toGovernedActionRequest.pending
  claimed : record.status = .claimed →
    record.actorClass = .humanApproved ∧ record.claimedAt.isSome ∧ record.resultPayload = none ∧
      record.executedAt = none ∧ record.supersededByActionId = none
  approved : record.actorClass = .humanApproved →
    record.status = .claimed ∨ record.status = .executed → Approved excused record

variable {excused excused' : String → Prop} {record : GovernedActionRecord}

theorem Approved.mono (h : Approved excused record)
    (himp : ∀ actionId, excused actionId → excused' actionId) : Approved excused' record := by
  obtain ⟨key, hkey, hne, hdistinct, hfrozen⟩ := h
  exact ⟨key, hkey, hne, hdistinct, fun htype => (hfrozen htype).imp_right (himp _)⟩

theorem Progressed.mono (h : Progressed excused record)
    (himp : ∀ actionId, excused actionId → excused' actionId) : Progressed excused' record :=
  ⟨h.pending, h.claimed, fun hclass hstatus => (h.approved hclass hstatus).mono himp⟩

/-! ### Histories -/

def Event.writes? (actionId : String) (event : Event ι) : Option (ι × GovernedActionRecord) :=
  event.write?.filter fun write => write.2.actionId = actionId

/-- The latest write to an action. -/
def lastWrite (history : List (Event ι)) (actionId : String) :
    Option (ι × GovernedActionRecord) :=
  history.findSome? (Event.writes? actionId)

theorem lastWrite_cons (event : Event ι) (history : List (Event ι)) (actionId : String) :
    lastWrite (event :: history) actionId =
      (event.writes? actionId).or (lastWrite history actionId) := by
  rw [lastWrite, findSome?_cons]
  cases event.writes? actionId <;> rfl

/-! ### The invariant -/

section Invariant

variable (sha256 : String → String) (sessions : ι → Session)

/-- A session approving this release looked its action up before it was stored, and so
never compared its credential with the frozen one. -/
def Excused (w : World ι) (actionId : String) : Prop :=
  ∃ i, (sessions i).approvesRelease actionId ∧ (i, actionId) ∈ w.absentReads

/-- A record that may be stored. -/
structure Known (w : World ι) (record : GovernedActionRecord) : Prop where
  requested : Requested sha256 record.toGovernedActionRequest
  progressed : Progressed (Excused sessions w) record

/-- The invariant of the store: records are well formed, stored under identifiers that
were handed out once, and are what the history last wrote. -/
structure Ledger (w : World ι) : Prop where
  keyed : ∀ actionId record, w.actions.get? actionId = some record → record.actionId = actionId
  known : ∀ actionId record, w.actions.get? actionId = some record → Known sha256 sessions w record
  issued : ∀ actionId record, w.actions.get? actionId = some record →
    actionId ∈ w.issued.map Prod.fst
  unique : (w.issued.map Prod.fst).Nodup
  recorded : ∀ actionId, w.actions.get? actionId = (lastWrite w.history actionId).map Prod.snd

theorem ledger_initial : Ledger sha256 sessions (.initial : World ι) where
  keyed _ _ h := nomatch h
  known _ _ h := nomatch h
  issued _ _ h := nomatch h
  unique := nodup_nil
  recorded _ := rfl

variable {sha256 sessions} in
theorem Excused.mono {w w' : World ι} {actionId : String} (h : Excused sessions w actionId)
    (hsub : w.absentReads ⊆ w'.absentReads) : Excused sessions w' actionId := by
  obtain ⟨i, happroves, hread⟩ := h
  exact ⟨i, happroves, hsub hread⟩

variable {sha256 sessions} in
theorem Known.mono {w w' : World ι}
    (h : Known sha256 sessions w record) (hsub : w.absentReads ⊆ w'.absentReads) :
    Known sha256 sessions w' record :=
  ⟨h.requested, h.progressed.mono fun _ he => he.mono hsub⟩

end Invariant

/-- An action with this request is stored. -/
def Present (w : World ι) (actionId : String) (request : GovernedActionRequest) : Prop :=
  ∃ record, w.actions.get? actionId = some record ∧ record.toGovernedActionRequest = request

/-- The identifier was handed to session `i` and is not in use yet. -/
def Owns (i : ι) (w : World ι) (actionId : String) : Prop :=
  (actionId, i) ∈ w.issued ∧ w.actions.get? actionId = none

/-- Session `i` won the compare-and-set that wrote this record. -/
def Won (i : ι) (w : World ι) (record : GovernedActionRecord) : Prop :=
  ∃ before, Event.moved i before record ∈ w.history

/-! ### What a session relies on -/

/-- What the others may do to the store while session `i` waits. -/
structure Follows (i : ι) (w w' : World ι) : Prop where
  present : ∀ actionId request, Present w actionId request → Present w' actionId request
  absent : w.absentReads ⊆ w'.absentReads
  history : w.history <:+ w'.history
  owns : ∀ actionId, Owns i w actionId → Owns i w' actionId

namespace Follows

variable {i : ι} {w w' w'' : World ι}

theorem refl (i : ι) (w : World ι) : Follows i w w :=
  ⟨fun _ _ h => h, fun _ h => h, suffix_rfl, fun _ h => h⟩

theorem trans (h : Follows i w w') (h' : Follows i w' w'') : Follows i w w'' where
  present actionId request hp := h'.present _ _ (h.present actionId request hp)
  absent _ hp := h'.absent (h.absent hp)
  history := h.history.trans h'.history
  owns actionId ho := h'.owns _ (h.owns actionId ho)

theorem won (h : Follows i w w') (hw : Won i w record) :
    Won i w' record := by
  obtain ⟨before, hmem⟩ := hw
  exact ⟨before, h.history.subset hmem⟩

end Follows

/-! ### Steps -/

/-- What a session must know to win a compare-and-set, by the statuses it moves between.
A finalization is fenced to the instant of the session's own claim. -/
inductive Legal (i : ι) (w : World ι) (before after : GovernedActionRecord) : Prop
  | claim (was : before.status = .pending) (becomes : after.status = .claimed)
  | rotate (was : before.status = .claimed) (becomes : after.status = .claimed)
  | release (was : before.status = .claimed) (becomes : after.status = .pending)
  | supersede (was : before.status = .pending) (becomes : after.status = .superseded)
  | finalize (was : before.status = .claimed) (becomes : after.status = .executed)
      (own : ∃ claimed, Won i w claimed ∧ claimed.status = .claimed ∧
        claimed.actionId = before.actionId ∧ claimed.claimedAt = before.claimedAt)

/-- Nothing was written; lookups may have found nothing. -/
structure Observes (w w' : World ι) : Prop where
  actions : w'.actions = w.actions
  history : w'.history = w.history
  issued : w'.issued = w.issued
  absent : w.absentReads ⊆ w'.absentReads
  missing : ∀ read ∈ w'.absentReads, read ∈ w.absentReads ∨ w.actions.get? read.2 = none

/-- One step of session `i`. `ok` is a condition the run imposes on its calls. -/
inductive Move (ok : ι → World ι → Call → Prop) (i : ι) (w : World ι) : World ι → Prop
  | observe {w' : World ι} (observes : Observes w w') : Move ok i w w'
  | issue (actionId : String) (fresh : actionId ∉ w.issued.map Prod.fst) :
      Move ok i w (w.issue i actionId)
  | store (record : GovernedActionRecord) (allowed : ok i w (.upsertGovernedAction record))
      (owns : Owns i w record.actionId) (unclaimed : record.status ≠ .claimed) :
      Move ok i w (w.store i record)
  | move (actionId : String) (expectedStatus : GovernedActionStatus)
      (before after : GovernedActionRecord) (expectedClaimedAt : Option String)
      (allowed : ok i w
        (.transitionGovernedAction actionId expectedStatus after expectedClaimedAt))
      (admitted : w.admits actionId expectedStatus expectedClaimedAt = some before)
      (sameRequest : after.toGovernedActionRequest = before.toGovernedActionRequest)
      (legal : Legal i w before after) : Move ok i w (w.move i actionId before after)
  | start (record : GovernedActionRecord) (won : Won i w record) :
      Move ok i w (w.start i record)

section Steps

variable {sha256 : String → String} {sessions : ι → Session} {ok : ι → World ι → Call → Prop}
  {i j : ι} {w w' : World ι} {actionId : String} {after before : GovernedActionRecord}

/-- Inserting a record of the same request keeps every request in place. -/
theorem Present.insert {actionId' : String} {request : GovernedActionRequest}
    (hbefore : w.actions.get? actionId' = some before)
    (same : after.toGovernedActionRequest = before.toGovernedActionRequest)
    (h : Present w actionId request) :
    ∃ record, (w.actions.insert actionId' after).get? actionId = some record ∧
      record.toGovernedActionRequest = request := by
  obtain ⟨record, hrecord, rfl⟩ := h
  rw [Dict.get?_insert]
  split_ifs with hid
  · subst hid
    obtain rfl := Option.mem_unique hbefore hrecord
    exact ⟨after, rfl, same⟩
  · exact ⟨record, hrecord, rfl⟩

/-- A compare-and-set is something every session, its own included, can rely on. -/
theorem follows_move (hbefore : w.actions.get? actionId = some before)
    (same : after.toGovernedActionRequest = before.toGovernedActionRequest) :
    Follows j w (w.move i actionId before after) where
  present _ _ h := h.insert hbefore same
  absent _ h := h
  history := suffix_cons _ _
  owns actionId' h := by
    refine ⟨h.1, ?_⟩
    have hne : actionId' ≠ actionId := by
      rintro rfl
      exact nomatch h.2.symm.trans hbefore
    exact (w.actions.get?_insert_of_ne hne after).trans h.2

theorem Observes.follows (h : Observes w w') : Follows j w w' where
  present _ _ hp := by simpa only [Present, h.actions] using hp
  absent := h.absent
  history := by rw [h.history]
  owns _ ho := by simpa only [Owns, h.actions, h.issued] using ho

theorem follows_issue : Follows j w (w.issue i actionId) where
  present _ _ h := h
  absent _ h := h
  history := suffix_rfl
  owns _ h := ⟨.tail _ h.1, h.2⟩

theorem follows_start : Follows j w (w.start i record) where
  present _ _ h := h
  absent _ h := h
  history := suffix_cons _ _
  owns _ h := h

/-- Storing under a new identifier disturbs nobody but its owner. -/
theorem follows_store (hunique : (w.issued.map Prod.fst).Nodup) (owns : Owns i w record.actionId)
    (hij : i ≠ j) : Follows j w (w.store i record) where
  present actionId request h := by
    obtain ⟨stored, hstored, hsame⟩ := h
    have hne : actionId ≠ record.actionId := by
      rintro rfl
      exact nomatch owns.2.symm.trans hstored
    exact ⟨stored, (w.actions.get?_insert_of_ne hne record).trans hstored, hsame⟩
  absent _ h := h
  history := suffix_cons _ _
  owns actionId h := by
    refine ⟨h.1, ?_⟩
    -- one identifier is not handed to two sessions
    have hne : actionId ≠ record.actionId := by
      rintro rfl
      exact hij (inj_on_of_nodup_map hunique owns.1 h.1 rfl |> congrArg Prod.snd)
    exact (w.actions.get?_insert_of_ne hne record).trans h.2

theorem Move.follows (hledger : Ledger sha256 sessions w) (h : Move ok i w w') (hij : i ≠ j) :
    Follows j w w' := by
  cases h with
  | observe observes => exact observes.follows
  | issue actionId => exact follows_issue
  | store record _ owns => exact follows_store hledger.unique owns hij
  | move actionId _ before after _ _ admitted sameRequest =>
    exact follows_move (World.admits_eq_some admitted).1 sameRequest
  | start record => exact follows_start

end Steps

/-- Invariant, rely and guarantee of the sessions. -/
def protocol (sha256 : String → String) (sessions : ι → Session)
    (ok : ι → World ι → Call → Prop) : Protocol Call ι (World ι) where
  inv := Ledger sha256 sessions
  ok := ok
  rely := Follows
  guar := Move ok
  rely_refl := Follows.refl
  rely_trans := Follows.trans
  guar_rely hij hinv _ hmove := hmove.follows hinv hij

/-- A program of a session keeps the protocol, and `Fact` holds of what it returns. -/
abbrev Assures {α : Type} (sha256 : String → String) (sessions : ι → Session)
    (ok : ι → World ι → Call → Prop) (i : ι) (program : Service α) (Fact : α → World ι → Prop)
    (w : World ι) : Prop :=
  (protocol sha256 sessions ok).Ensures (machine ι) i program Fact w

end LotusAI.Governance
