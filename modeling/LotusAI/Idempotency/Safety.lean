import LotusAI.Idempotency.Protocol

/-!
# The service keeps the protocol

Each step of `execute_workflow_pack_idempotently`, made in any state the other
executions may leave behind, keeps the repository coherent and is one they can rely
on. What the call is answered with is described by the record that stands behind it.
-/

namespace LotusAI.Idempotency

open Lib Protocol Call

variable {ι κ β π : Type} {codec : Codec κ β π} {requests : ι → Request κ}
  {i : ι} {w w' : World ι β π}

/-! ### Replies -/

/-- Execution `i` has completed no record. -/
def NoneCompleted (i : ι) (w : World ι β π) : Prop :=
  ∀ payload, Event.completed i payload ∉ w.history

/-- The completed record that a reply was read from. -/
structure Source (codec : Codec κ β π) (requests : ι → Request κ) (i : ι) (w : World ι β π)
    (scope : Scope) (record : Record π) (original : Response β) : Prop where
  scope_eq : scopeOf (requests i) = some scope
  stored : w.records.get? (codec.recordId scope) = some record
  completed : record.state = .completed
  payload : record.responsePayload = some (codec.dump original)
  fingerprint : record.requestFingerprint = codec.fingerprint (requests i)

/-- What a finished call can have been answered with. -/
inductive Reply (codec : Codec κ β π) (requests : ι → Request κ) (i : ι) (w : World ι β π) :
    Except Raised (Response β) → Prop
  | created (scope : Scope) (record : Record π) (response : Response β)
      (source : Source codec requests i w scope record response)
      (owned : (record.ownerToken, i) ∈ w.tokens)
      (descriptor : response.idempotency = some ⟨.created, codec.recordId scope,
        codec.fingerprint (requests i)⟩)
      (completed : Event.completed i (codec.dump response) ∈ w.history) :
      Reply codec requests i w (.ok response)
  | replayed (scope : Scope) (record : Record π) (original : Response β)
      (source : Source codec requests i w scope record original)
      (none : NoneCompleted i w) :
      Reply codec requests i w (.ok (withIdempotencyStatus original .replayed record.recordId
        record.requestFingerprint))
  | failed (e : Raised) (none : NoneCompleted i w) : Reply codec requests i w (.error e)
  | unkeyed (result : Except Raised (Response β)) (noScope : scopeOf (requests i) = none) :
      Reply codec requests i w result

variable {scope : Scope} {record : Record π} {result : Except Raised (Response β)}

/-- An answer from a record of the same fingerprint. -/
theorem reply_resolveExisting (hfaithful : codec.Faithful requests) {existing : Record π}
    (hcoherent : Coherent codec requests w) (hscope : scopeOf (requests i) = some scope)
    (hstored : w.records.get? (codec.recordId scope) = some existing)
    (hfingerprint : existing.requestFingerprint = codec.fingerprint (requests i))
    (hnone : NoneCompleted i w) :
    Reply codec requests i w (codec.resolveExistingReservation existing) := by
  unfold Codec.resolveExistingReservation
  split
  · rename_i hstate
    obtain ⟨_, response, -, hpayload, hchecksum, -, -⟩ :=
      hcoherent.retained _ _ hstored hstate
    rw [hpayload]
    simp only [hchecksum, ne_eq, not_true_eq_false, if_false, hfaithful.validate_dump]
    exact .replayed scope existing response ⟨hscope, hstored, hstate, hpayload, hfingerprint⟩ hnone
  · exact .failed _ hnone
  · exact .failed _ hnone

/-- The record of the session is the one an update of it finds. -/
theorem Holding.eq_current {recordId ownerToken : String} {current : Record π}
    (h : Holding i w recordId record)
    (hcurrent : w.ownedInProgress recordId ownerToken = some current) : record = current :=
  Option.some.inj (h.stored.symm.trans (World.ownedInProgress_eq_some hcurrent).1)

variable [DecidableEq ι]

theorem NoneCompleted.of_eventsOf
    (h : ∀ payload, Event.completed i payload ∉ eventsOf i w.history) : NoneCompleted i w := by
  intro payload hmem
  exact h payload ((mem_eventsOf rfl).mpr hmem)

theorem NoneCompleted.follows (h : NoneCompleted i w) (hfollows : Follows i w w') :
    NoneCompleted i w' := by
  intro payload hmem
  have hown := (mem_eventsOf (i := i) rfl).mpr hmem
  rw [hfollows.events] at hown
  exact h payload ((mem_eventsOf rfl).mp hown)

theorem Source.follows {original : Response β} (h : Source codec requests i w scope record original)
    (hfollows : Follows i w w') : Source codec requests i w' scope record original :=
  ⟨h.scope_eq, hfollows.completed _ _ h.stored h.completed, h.completed, h.payload, h.fingerprint⟩

theorem Reply.follows (h : Reply codec requests i w result) (hfollows : Follows i w w') :
    Reply codec requests i w' result := by
  cases h with
  | created scope record response source owned descriptor completed =>
    exact .created scope record response (source.follows hfollows) (hfollows.tokens _ owned)
      descriptor (hfollows.history.subset completed)
  | replayed scope record original source none =>
    exact .replayed scope record original (source.follows hfollows) (none.follows hfollows)
  | failed e none => exact .failed e (none.follows hfollows)
  | unkeyed _ noScope => exact .unkeyed _ noScope

/-- A program of session `i` keeps the protocol and ends with a reply. -/
abbrev Replies (codec : Codec κ β π) (requests : ι → Request κ) (i : ι)
    (program : Prog (Call.Answer κ β π) (Except Raised (Response β))) (w : World ι β π) : Prop :=
  (protocol codec requests).Safe (machine ι κ β π) i
    (fun result w' => Reply codec requests i w' result) program w

/-- A call that is done has its reply. -/
theorem safe_done (h : Reply codec requests i w result) :
    Replies codec requests i (.pure result) w :=
  fun _ _ hfollows => h.follows hfollows

/-! ### The service keeps the protocol -/

theorem guar_refl (w : World ι β π) : ∀ j, i ≠ j → Follows j w w := fun j _ => .refl j w

theorem safe_utcnow {f : String → Service κ β π (Response β)}
    (h : ∀ w' now, Coherent codec requests w' → Follows i w w' →
      Replies codec requests i (f now).run w') :
    Replies codec requests i (ExceptT.run (ask .utcnow >>= f)) w := by
  apply safe_ask
  intro w₁ hcoherent hfollows _ choice now w₂ hexec
  obtain rfl : w₂ = w₁ := outcome_of_exec hexec
  exact ⟨hcoherent, guar_refl w₂, h w₂ now hcoherent hfollows⟩

/-- The executor takes two steps: it is entered, and it is left. -/
theorem run_execute_bind {α : Type} (request : Request κ) (f : Ending β → Service κ β π α) :
    ExceptT.run (execute request >>= f) =
      .call (.beginExecute request) fun _ => .call (.endExecute request) fun ending =>
        (f ending).run := rfl

/-- The others can rely on an update of a record that is held. -/
theorem Holding.guar_save {recordId : String} {updated : Record π}
    (h : Holding i w recordId record) (hcoherent : Coherent codec requests w) :
    ∀ j, i ≠ j → Follows j w (w.save recordId updated) :=
  fun _ hij => h.follows_records hij hcoherent.unique fun _ hother => Dict.get?_insert_of_ne _ hother _

section

variable (hholding : Holding i w (codec.recordId scope) record) (hnone : NoneCompleted i w)
  {e : Raised}

include hholding hnone

/-- An execution that could not be retained raises; marking it may fail silently. -/
theorem safe_markIndeterminateAndRaise :
    Replies codec requests i
      (markIndeterminateAndRaise (codec.recordId scope) record.ownerToken e).run w := by
  apply safe_utcnow
  intro w₁ now _ hfollows₁
  apply safe_ask
  intro w₂ hcoherent₂ hfollows₂ _ choice answer w₃ hexec
  have hfollows := hfollows₁.trans hfollows₂
  have hholding₂ := hholding.follows hfollows
  have hnone₂ := hnone.follows hfollows
  rcases outcome_of_exec hexec with ⟨error, rfl, rfl⟩ | ⟨rfl, current, hcurrent, rfl⟩
  · exact ⟨hcoherent₂, guar_refl _, safe_done (.failed e hnone₂)⟩
  · obtain rfl := hholding₂.eq_current hcurrent
    exact ⟨hcoherent₂.save hholding₂ rfl rfl rfl nofun, hholding₂.guar_save hcoherent₂,
      safe_done (.failed e hnone₂)⟩

variable (hscope : scopeOf (requests i) = some scope)

include hscope

/-- A failed execution: released for an `HTTPException`, marked for anything else. -/
theorem safe_settleFailure (hended : Event.ended i (.raised e) ∈ w.history) :
    Replies codec requests i (settleFailure (codec.recordId scope) record.ownerToken e).run w := by
  cases e with
  | other text => exact safe_markIndeterminateAndRaise hholding hnone
  | http statusCode detail =>
    apply safe_ask
    intro w₁ hcoherent₁ hfollows₁ _ choice answer w₂ hexec
    have hholding₁ := hholding.follows hfollows₁
    have hnone₁ := hnone.follows hfollows₁
    rcases outcome_of_exec hexec with ⟨error, rfl, rfl⟩ | ⟨rfl, current, hcurrent, rfl⟩
    · exact ⟨hcoherent₁, guar_refl _, safe_done (.failed _ hnone₁)⟩
    · have hhttp : ReleasedByHttp (w₁.note (.released i)).history i :=
        ⟨(.head _), .raised (.http statusCode detail),
          .tail _ (hfollows₁.history.subset hended), rfl⟩
      refine ⟨hcoherent₁.noteReleased.release hscope hholding₁.note hhttp, ?_,
        safe_done (.failed _ ?_)⟩
      · intro j hij
        exact (hholding₁.follows_records hij hcoherent₁.unique fun _ hother =>
          Dict.get?_erase_of_ne _ hother).trans (follows_note hij)
      · intro payload hmem
        exact hnone₁ payload ((List.mem_cons.mp hmem).resolve_left nofun)

variable (hid : record.recordId = codec.recordId scope)
  (hfingerprint : record.requestFingerprint = codec.fingerprint (requests i))

include hid hfingerprint

/-- A returned response is retained and answered as created, or the failure to retain it is
marked. -/
theorem safe_retain {response : Response β} :
    Replies codec requests i
      (codec.retain (codec.recordId scope) record.ownerToken (codec.fingerprint (requests i))
        response).run w := by
  apply safe_utcnow
  intro w₁ now _ hfollows₁
  apply safe_ask
  intro w₂ hcoherent₂ hfollows₂ _ choice answer w₃ hexec
  have hfollows := hfollows₁.trans hfollows₂
  have hholding₂ := hholding.follows hfollows
  have hnone₂ := hnone.follows hfollows
  rcases outcome_of_exec hexec with ⟨error, rfl, rfl⟩ | ⟨rfl, current, hcurrent, rfl⟩
  · exact ⟨hcoherent₂, guar_refl _, safe_markIndeterminateAndRaise hholding₂ hnone₂⟩
  · obtain rfl := hholding₂.eq_current hcurrent
    -- the observation first, so that the saved record finds its event in the history
    refine ⟨(hcoherent₂.noteCompleted _).save hholding₂.note rfl rfl rfl fun _ =>
      ⟨_, hholding₂.owned, rfl, rfl, ?_, (.head _)⟩, ?_, safe_done (.created scope _ _
        ⟨hscope, Dict.get?_insert_self .., rfl, rfl, hfingerprint⟩ hholding₂.owned rfl
        (.head _))⟩
    · rw [withIdempotencyStatus, ← hid, ← hfingerprint]
      rfl
    · intro j hij
      exact (hholding₂.guar_save hcoherent₂ j hij).trans (follows_note hij)

/-- What follows the execution of a reserved request. -/
theorem safe_settle {ending : Ending β} (hended : Event.ended i ending ∈ w.history) :
    Replies codec requests i
      (codec.settle (codec.recordId scope) record.ownerToken (codec.fingerprint (requests i))
        ending).run w := by
  cases ending with
  | returned response => exact safe_retain hholding hnone hscope hid hfingerprint
  | raised e => exact safe_settleFailure hholding hnone hscope hended

omit hnone in
/-- Executing a reserved request. -/
theorem safe_execute_settle (hevents : eventsOf i w.history = [.reserved i]) :
    Replies codec requests i
      (ExceptT.run (execute (requests i) >>= codec.settle (codec.recordId scope)
        record.ownerToken (codec.fingerprint (requests i)))) w := by
  rw [run_execute_bind, Replies, safe_call]
  intro w₁ hcoherent₁ hfollows₁ _ choice answer w₂ hexec
  obtain rfl : w₂ = w₁.note (.began i) := outcome_of_exec hexec
  have hholding₁ := hholding.follows hfollows₁
  have hevents₁ := hfollows₁.events.trans hevents
  refine ⟨hcoherent₁.begin hscope hholding₁ hevents₁, fun j hij => follows_note hij, ?_⟩
  have hevents₂ : eventsOf i (w₁.note (.began i)).history = [.began i, .reserved i] := by
    rw [eventsOf_note_self (i := i) rfl, hevents₁]
  intro w₃ hcoherent₃ hfollows₃ _ choice ending w₄ hexec'
  obtain rfl : w₄ = w₃.note (.ended i ending) := outcome_of_exec hexec'
  have hevents₃ := hfollows₃.events.trans hevents₂
  have hholding₃ := hholding₁.note.follows hfollows₃
  refine ⟨hcoherent₃.finish ?_ ?_, fun j hij => follows_note hij, ?_⟩
  · intro ending' hmem
    rw [← mem_eventsOf (i := i) rfl, hevents₃] at hmem
    simp at hmem
  · intro _ _
    rw [← mem_eventsOf (i := i) rfl, hevents₃]
    simp
  · refine safe_settle hholding₃.note (NoneCompleted.of_eventsOf ?_) hscope hid hfingerprint
      (.head _)
    intro payload hmem
    rw [eventsOf_note_self (i := i) rfl, hevents₃] at hmem
    simp at hmem

end

theorem safe_orRaise (h : Reply codec requests i w result) :
    Replies codec requests i (orRaise result : Service κ β π (Response β)).run w := by
  cases result with
  | ok response | error e => exact safe_done h

/-- A call under a key. -/
theorem safe_executeReserved (hfaithful : codec.Faithful requests)
    (hscope : scopeOf (requests i) = some scope) (hevents : eventsOf i w.history = []) :
    Replies codec requests i (codec.executeReserved (requests i) scope).run w := by
  apply safe_utcnow
  intro w₁ timestamp _ hfollows₁
  apply safe_ask
  intro w₂ hcoherent₂ hfollows₂ _ choice ownerToken w₃ hexec
  obtain ⟨hfresh, rfl⟩ := outcome_of_exec hexec
  refine ⟨hcoherent₂.hand hfresh, fun _ _ => follows_hand, ?_⟩
  apply safe_ask
  intro w₄ hcoherent₄ hfollows₄ _ choice result w₅ hexec'
  have hevents₄ : eventsOf i w₄.history = [] := by
    rw [hfollows₄.events]
    exact (hfollows₁.trans hfollows₂).events.trans hevents
  have hnone₄ : NoneCompleted i w₄ := by
    apply NoneCompleted.of_eventsOf
    rw [hevents₄]
    exact nofun
  have howned₄ : (ownerToken, i) ∈ w₄.tokens := hfollows₄.tokens _ (.head _)
  rcases outcome_of_exec hexec' with
    ⟨e, rfl, rfl⟩ | ⟨rfl, hfree, rfl⟩ | ⟨existing, rfl, hstored, hfingerprint, rfl⟩
  · exact ⟨hcoherent₄, guar_refl _, safe_done (.failed _ hnone₄)⟩
  · refine ⟨hcoherent₄.reserve hscope howned₄ hfree, ?_, ?_⟩
    · intro j hij
      refine .trans (follows_records hij hcoherent₄.unique ?_ fun _ hother =>
        Dict.get?_insert_of_ne _ hother _) (follows_note hij)
      intro stored hstored
      exact nomatch hfree.symm.trans hstored
    · have hholding : Holding i (w₄.save (codec.recordId scope) _) (codec.recordId scope)
          (codec.proposed (requests i) scope ownerToken timestamp) :=
        ⟨Dict.get?_insert_self .., howned₄, rfl⟩
      have hevents₅ : eventsOf i ((w₄.save (codec.recordId scope)
          (codec.proposed (requests i) scope ownerToken timestamp)).note (.reserved i)).history =
          [.reserved i] := by
        rw [eventsOf_note_self (i := i) rfl]
        exact congrArg _ hevents₄
      exact (safe_execute_settle hholding.note hscope rfl rfl hevents₅ :)
  · exact ⟨hcoherent₄, guar_refl _, safe_orRaise
      (reply_resolveExisting hfaithful hcoherent₄ hscope hstored hfingerprint hnone₄)⟩

/-- A call without a key. -/
theorem safe_executeUnkeyed (hscope : scopeOf (requests i) = none)
    (hevents : eventsOf i w.history = []) :
    Replies codec requests i (executeUnkeyed (requests i) : Service κ β π (Response β)).run w := by
  rw [executeUnkeyed, run_execute_bind, Replies, safe_call]
  intro w₁ hcoherent₁ hfollows₁ _ choice answer w₂ hexec
  obtain rfl : w₂ = w₁.note (.began i) := outcome_of_exec hexec
  refine ⟨hcoherent₁.beginUnkeyed hscope, fun j hij => follows_note hij, ?_⟩
  intro w₃ hcoherent₃ hfollows₃ _ choice ending w₄ hexec'
  obtain rfl : w₄ = w₃.note (.ended i ending) := outcome_of_exec hexec'
  have hevents₃ : eventsOf i w₃.history = [.began i] := by
    rw [hfollows₃.events, eventsOf_note_self (i := i) rfl, hfollows₁.events, hevents]
  refine ⟨hcoherent₃.finish ?_ ?_, fun j hij => follows_note hij, ?_⟩
  · intro ending'
    rw [← mem_eventsOf (i := i) rfl, hevents₃]
    simp
  · intro scope hsome
    exact nomatch hscope.symm.trans hsome
  · cases ending with
    | returned response | raised e => exact safe_done (.unkeyed _ hscope)

/-- A call of the service. -/
theorem safe_executeIdempotently (hfaithful : codec.Faithful requests)
    (hevents : eventsOf i w.history = []) :
    Replies codec requests i (codec.executeIdempotently (requests i)).run w := by
  unfold Codec.executeIdempotently
  split
  · rename_i hkey
    exact safe_executeUnkeyed (by simp [scopeOf, hkey]) hevents
  · split
    · rename_i hscope
      exact safe_done (.unkeyed _ hscope)
    · rename_i scope hscope
      exact safe_executeReserved hfaithful hscope hevents

/-- Any number of calls over an empty repository. -/
theorem safePool (hfaithful : codec.Faithful requests) :
    SafePool (protocol codec requests) (machine ι κ β π)
      (fun i result w => Reply codec requests i w result) (codec.pool requests) where
  inv := coherent_initial codec requests
  safe _ := safe_executeIdempotently hfaithful rfl

end LotusAI.Idempotency
