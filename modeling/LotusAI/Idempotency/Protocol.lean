import LotusAI.Idempotency.Service
import LotusAI.Lib.RelyGuarantee
import Mathlib.Data.List.Infix

/-!
# Who may touch a reservation

The record of a scope is owned by the execution whose token it carries. While an
execution is at work, the others leave its record, its token and its own events
alone; they may neither change nor remove a completed record. Under that rule the
repository stays coherent: a reservation is owned until an `HTTPException` releases it,
and an execution begins only when every earlier one of its scope was released.
-/

namespace LotusAI.Idempotency

open Lib List Dict Option

variable {ι κ β π : Type}

section Events

variable [DecidableEq ι]

/-- The events of one execution. -/
def eventsOf (i : ι) (history : List (Event ι β π)) : List (Event ι β π) :=
  history.filter fun event => event.session = i

variable {event : Event ι β π} {history : List (Event ι β π)} {i : ι}

theorem mem_eventsOf (h : event.session = i) :
    event ∈ eventsOf i history ↔ event ∈ history := by
  simp [eventsOf, h]

theorem eventsOf_cons_self (h : event.session = i) :
    eventsOf i (event :: history) = event :: eventsOf i history := by
  simp [eventsOf, h]

theorem eventsOf_cons_of_ne (h : event.session ≠ i) :
    eventsOf i (event :: history) = eventsOf i history := by
  simp [eventsOf, h]

theorem eventsOf_note_self {w : World ι β π} (h : event.session = i) :
    eventsOf i (w.note event).history = event :: eventsOf i w.history :=
  eventsOf_cons_self h

end Events

/-! ### The invariant -/

section Invariant

variable (codec : Codec κ β π) (requests : ι → Request κ)

/-- Execution `i` owns the record stored under `recordId`. -/
def Owner (w : World ι β π) (recordId : String) (i : ι) : Prop :=
  ∃ record, w.records.get? recordId = some record ∧ (record.ownerToken, i) ∈ w.tokens

/-- Execution `i` ended in an `HTTPException` and its reservation was released. -/
def ReleasedByHttp (history : List (Event ι β π)) (i : ι) : Prop :=
  Event.released i ∈ history ∧ ∃ ending, Event.ended i ending ∈ history ∧ ending.isHttp

/-- The response that a completed record retains. -/
def Retains (w : World ι β π) (record : Record π) (i : ι) (response : Response β) : Prop :=
  (record.ownerToken, i) ∈ w.tokens ∧ record.responsePayload = some (codec.dump response) ∧
    record.responseChecksumSha256 = some (codec.checksum (codec.dump response)) ∧
    response.idempotency =
      some ⟨.created, record.recordId, record.requestFingerprint⟩ ∧
    Event.completed i (codec.dump response) ∈ w.history

/-- The invariant of the repository. -/
structure Coherent (w : World ι β π) : Prop where
  unique : (w.tokens.map Prod.fst).Nodup
  owner : ∀ recordId record, w.records.get? recordId = some record →
    ∃ i scope, (record.ownerToken, i) ∈ w.tokens ∧ scopeOf (requests i) = some scope ∧
      recordId = codec.recordId scope ∧ record.recordId = recordId ∧
      record.requestFingerprint = codec.fingerprint (requests i)
  retained : ∀ recordId record, w.records.get? recordId = some record →
    record.state = .completed → ∃ i response, Retains codec w record i response
  reserved : ∀ i scope, Event.reserved i ∈ w.history → scopeOf (requests i) = some scope →
    Owner w (codec.recordId scope) i ∨ ReleasedByHttp w.history i
  began : ∀ j earlier scope, (Event.began j :: earlier) <:+ w.history →
    scopeOf (requests j) = some scope →
    Event.reserved j ∈ earlier ∧ Event.began j ∉ earlier ∧
      (∀ ending, Event.ended j ending ∉ earlier) ∧
      ∀ i, i ≠ j → Event.reserved i ∈ earlier → scopeOf (requests i) = some scope →
        ReleasedByHttp earlier i
  ended : ∀ i ending earlier scope, (Event.ended i ending :: earlier) <:+ w.history →
    scopeOf (requests i) = some scope → Event.reserved i ∈ earlier
  endedOnce : ∀ i ending ending', Event.ended i ending ∈ w.history →
    Event.ended i ending' ∈ w.history → ending = ending'

theorem coherent_initial : Coherent codec requests (.initial : World ι β π) where
  unique := nodup_nil
  owner _ _ h := nomatch h
  retained _ _ h := nomatch h
  reserved _ _ h := nomatch h
  began _ _ _ h := by simp [World.initial] at h
  ended _ _ _ _ h := by simp [World.initial] at h
  endedOnce _ _ _ h := nomatch h

end Invariant

/-! ### What an execution relies on -/

/-- What the others may do while execution `i` waits. -/
structure Follows [DecidableEq ι] (i : ι) (w w' : World ι β π) : Prop where
  events : eventsOf i w'.history = eventsOf i w.history
  history : w.history <:+ w'.history
  tokens : ∀ token, (token, i) ∈ w.tokens → (token, i) ∈ w'.tokens
  held : ∀ recordId record, w.records.get? recordId = some record →
    (record.ownerToken, i) ∈ w.tokens → w'.records.get? recordId = some record
  completed : ∀ recordId record, w.records.get? recordId = some record →
    record.state = .completed → w'.records.get? recordId = some record

/-- Execution `i` owns a record that is still in progress. -/
structure Holding (i : ι) (w : World ι β π) (recordId : String) (record : Record π) : Prop where
  stored : w.records.get? recordId = some record
  owned : (record.ownerToken, i) ∈ w.tokens
  inProgress : record.state = .inProgress

variable {codec : Codec κ β π} {requests : ι → Request κ} {i j : ι}
  {w w' w'' : World ι β π} {recordId : String} {record : Record π} {event : Event ι β π}
  {token : String} {record' : Record π}

/-- A token is handed to one execution. -/
theorem token_owner_unique (hunique : (w.tokens.map Prod.fst).Nodup)
    (hi : (token, i) ∈ w.tokens) (hj : (token, j) ∈ w.tokens) : i = j :=
  congrArg Prod.snd (inj_on_of_nodup_map hunique hi hj rfl)

theorem Holding.note (h : Holding i w recordId record) :
    Holding i (w.note event) recordId record :=
  ⟨h.stored, h.owned, h.inProgress⟩

/-! ### Steps -/

namespace Coherent

variable (h : Coherent codec requests w) {scope : Scope}

include h

/-- Handing out a token. -/
theorem hand
    (fresh : token ∉ w.tokens.map Prod.fst) : Coherent codec requests (w.hand i token) where
  unique := nodup_cons.mpr ⟨fresh, h.unique⟩
  owner recordId record hget := by
    obtain ⟨i, scope, howned, hrest⟩ := h.owner recordId record hget
    exact ⟨i, scope, .tail _ howned, hrest⟩
  retained recordId record hget hstate := by
    obtain ⟨i, response, howned, hrest⟩ := h.retained recordId record hget hstate
    exact ⟨i, response, .tail _ howned, hrest⟩
  reserved i scope hmem hscope := by
    apply (h.reserved i scope hmem hscope).imp_left
    rintro ⟨record, hget, howned⟩
    exact ⟨record, hget, .tail _ howned⟩
  began := h.began
  ended := h.ended
  endedOnce := h.endedOnce

/-- Observing an event: what it adds to the history must be in order. -/
theorem note
    (reserved : ∀ i scope, event = .reserved i → scopeOf (requests i) = some scope →
      Owner w (codec.recordId scope) i)
    (began : ∀ j scope, event = .began j → scopeOf (requests j) = some scope →
      Event.reserved j ∈ w.history ∧ Event.began j ∉ w.history ∧
        (∀ ending, Event.ended j ending ∉ w.history) ∧
        ∀ i, i ≠ j → Event.reserved i ∈ w.history → scopeOf (requests i) = some scope →
          ReleasedByHttp w.history i)
    (ended : ∀ i ending, event = .ended i ending → (∀ ending', Event.ended i ending' ∉ w.history) ∧
        ∀ scope, scopeOf (requests i) = some scope → Event.reserved i ∈ w.history) :
    Coherent codec requests (w.note event) where
  unique := h.unique
  owner := h.owner
  retained recordId record hget hstate := by
    obtain ⟨i, response, howned, hpayload, hchecksum, hdescriptor, hmem⟩ :=
      h.retained recordId record hget hstate
    exact ⟨i, response, howned, hpayload, hchecksum, hdescriptor, .tail _ hmem⟩
  reserved i scope hmem hscope := by
    rcases mem_cons.mp hmem with heq | hmem
    · exact .inl (reserved i scope heq.symm hscope)
    · apply (h.reserved i scope hmem hscope).imp_right
      rintro ⟨hreleased, ending, hending, hhttp⟩
      exact ⟨.tail _ hreleased, ending, .tail _ hending, hhttp⟩
  began j earlier scope hsuffix hscope := by
    rcases suffix_cons_iff.mp hsuffix with heq | hsuffix
    · obtain ⟨rfl, rfl⟩ := cons.inj heq
      exact began j scope rfl hscope
    · exact h.began j earlier scope hsuffix hscope
  ended i ending earlier scope hsuffix hscope := by
    rcases suffix_cons_iff.mp hsuffix with heq | hsuffix
    · obtain ⟨rfl, rfl⟩ := cons.inj heq
      exact (ended i ending rfl).2 scope hscope
    · exact h.ended i ending earlier scope hsuffix hscope
  endedOnce i ending ending' hmem hmem' := by
    rcases mem_cons.mp hmem with heq | hmem <;> rcases mem_cons.mp hmem' with heq' | hmem'
    · exact (Event.ended.inj (heq.trans heq'.symm)).2
    · exact absurd hmem' ((ended i ending heq.symm).1 ending')
    · exact absurd hmem ((ended i ending' heq'.symm).1 ending)
    · exact h.endedOnce i ending ending' hmem hmem'

theorem noteCompleted (payload : π) :
    Coherent codec requests (w.note (.completed i payload)) :=
  h.note nofun nofun nofun

theorem noteReleased :
    Coherent codec requests (w.note (.released i)) :=
  h.note nofun nofun nofun

/-- Rewriting a record its execution holds, for the same request and under the same token. -/
theorem save (hholding : Holding i w recordId record) (htoken : record'.ownerToken = record.ownerToken)
    (hid : record'.recordId = record.recordId)
    (hfingerprint : record'.requestFingerprint = record.requestFingerprint)
    (retained : record'.state = .completed → ∃ response, Retains codec w record' i response) :
    Coherent codec requests (w.save recordId record') where
  unique := h.unique
  owner := by
    obtain ⟨owner, scope, howned, hscope, hrecordId, hstored, hprint⟩ :=
      h.owner recordId record hholding.stored
    exact forall_insert ⟨owner, scope, htoken ▸ howned, hscope, hrecordId,
      hid.trans hstored, hfingerprint.trans hprint⟩ h.owner
  retained := forall_insert (fun hstate => ⟨i, retained hstate⟩) h.retained
  reserved k scope hmem hscope := by
    apply (h.reserved k scope hmem hscope).imp_left
    rintro ⟨stored, hget, howned⟩
    rw [Owner, World.save]
    by_cases hsame : codec.recordId scope = recordId
    · subst hsame
      obtain rfl := mem_unique hholding.stored hget
      exact ⟨record', by simp, htoken ▸ howned⟩
    · exact ⟨stored, by rw [get?_insert_of_ne _ hsame]; exact hget, howned⟩
  began := h.began
  ended := h.ended
  endedOnce := h.endedOnce

/-- Reserving a free record. -/
theorem reserve {ownerToken timestamp : String}
    (hscope : scopeOf (requests i) = some scope) (howned : (ownerToken, i) ∈ w.tokens)
    (hfree : w.records.get? (codec.recordId scope) = none) :
    Coherent codec requests ((w.save (codec.recordId scope)
      (codec.proposed (requests i) scope ownerToken timestamp)).note (.reserved i)) := by
  have hsaved : Coherent codec requests (w.save (codec.recordId scope)
      (codec.proposed (requests i) scope ownerToken timestamp)) := by
    refine ⟨h.unique, forall_insert ⟨i, scope, howned, hscope, rfl, rfl, rfl⟩ h.owner,
      forall_insert nofun h.retained, ?_, h.began, h.ended,
      h.endedOnce⟩
    · intro k scope' hmem hscope'
      rcases h.reserved k scope' hmem hscope' with ⟨record, hget, hheld⟩ | hhttp
      · have hne : codec.recordId scope' ≠ codec.recordId scope := by
          intro heq
          rw [heq, hfree] at hget
          cases hget
        exact .inl ⟨record, by rw [World.save, get?_insert_of_ne _ hne]; exact hget, hheld⟩
      · exact .inr hhttp
  refine hsaved.note ?_ nofun nofun
  rintro k scope' ⟨⟩ hscope'
  obtain rfl := mem_unique hscope hscope'
  exact ⟨_, get?_insert_self .., howned⟩

/-- An execution outside every scope begins. -/
theorem beginUnkeyed (hscope : scopeOf (requests i) = none) :
    Coherent codec requests (w.note (.began i)) := by
  refine h.note nofun ?_ nofun
  rintro j scope ⟨⟩ hsome
  exact nomatch hscope.symm.trans hsome

/-- An execution ends, for the first time. -/
theorem finish {ending : Ending β} (hnew : ∀ ending', Event.ended i ending' ∉ w.history)
    (hreserved : ∀ scope, scopeOf (requests i) = some scope → Event.reserved i ∈ w.history) :
    Coherent codec requests (w.note (.ended i ending)) := by
  refine h.note nofun nofun ?_
  rintro k ending' ⟨⟩
  exact ⟨hnew, hreserved⟩

/-- Deleting the record of a released reservation. -/
theorem release (hscope : scopeOf (requests i) = some scope)
    (hholding : Holding i w (codec.recordId scope) record) (hhttp : ReleasedByHttp w.history i) :
    Coherent codec requests (w.delete (codec.recordId scope)) where
  unique := h.unique
  owner recordId stored hget := by
    rw [World.delete, get?_erase] at hget
    split_ifs at hget
    exact h.owner recordId stored hget
  retained recordId stored hget hstate := by
    rw [World.delete, get?_erase] at hget
    split_ifs at hget
    exact h.retained recordId stored hget hstate
  reserved k scope' hmem hscope' := by
    rcases h.reserved k scope' hmem hscope' with ⟨stored, hget, howned⟩ | hended
    · by_cases hsame : codec.recordId scope' = codec.recordId scope
      · -- the deleted record was ours
        rw [hsame] at hget
        obtain rfl := mem_unique hholding.stored hget
        obtain rfl := token_owner_unique h.unique howned hholding.owned
        exact .inr hhttp
      · exact .inl ⟨stored, by rw [World.delete, get?_erase_of_ne _ hsame]; exact hget, howned⟩
    · exact .inr hended
  began := h.began
  ended := h.ended
  endedOnce := h.endedOnce

end Coherent

variable [DecidableEq ι]

/-- An execution begins while it holds its record: every earlier reservation of the scope
was released after an `HTTPException`. -/
theorem Coherent.begin (h : Coherent codec requests w) {scope : Scope}
    (hscope : scopeOf (requests i) = some scope)
    (hholding : Holding i w (codec.recordId scope) record)
    (hevents : eventsOf i w.history = [.reserved i]) :
    Coherent codec requests (w.note (.began i)) := by
  have hreserved : (Event.reserved i : Event ι β π) ∈ w.history := by
    rw [← mem_eventsOf (i := i) rfl, hevents]
    exact mem_singleton_self _
  refine h.note nofun ?_ nofun
  rintro j scope' ⟨⟩ hscope'
  obtain rfl := mem_unique hscope hscope'
  refine ⟨hreserved, ?_, ?_, ?_⟩
  · rw [← mem_eventsOf (i := i) rfl, hevents]
    simp
  · intro ending
    rw [← mem_eventsOf (i := i) rfl, hevents]
    simp
  · intro k hne hmem hsame
    apply (h.reserved k scope hmem hsame).resolve_left
    rintro ⟨stored, hget, howned⟩
    obtain rfl := mem_unique hholding.stored hget
    exact hne (token_owner_unique h.unique howned hholding.owned)

/-! ### Steps as the others see them -/

theorem Follows.refl (i : ι) (w : World ι β π) : Follows i w w :=
  ⟨rfl, suffix_rfl, fun _ h => h, fun _ _ h _ => h, fun _ _ h _ => h⟩

theorem Follows.trans (h : Follows i w w') (h' : Follows i w' w'') : Follows i w w'' where
  events := h'.events.trans h.events
  history := h.history.trans h'.history
  tokens token ht := h'.tokens token (h.tokens token ht)
  held recordId record hget howned :=
    h'.held recordId record (h.held recordId record hget howned) (h.tokens _ howned)
  completed recordId record hget hstate :=
    h'.completed recordId record (h.completed recordId record hget hstate) hstate

theorem Holding.follows (h : Holding i w recordId record) (hfollows : Follows i w w') :
    Holding i w' recordId record :=
  ⟨hfollows.held _ _ h.stored h.owned, hfollows.tokens _ h.owned, h.inProgress⟩

theorem follows_hand : Follows j w (w.hand i token) :=
  ⟨rfl, suffix_rfl, fun _ h => .tail _ h, fun _ _ h _ => h, fun _ _ h _ => h⟩

theorem follows_note (h : event.session ≠ j) : Follows j w (w.note event) :=
  ⟨eventsOf_cons_of_ne h, suffix_cons _ _, fun _ h => h, fun _ _ h _ => h, fun _ _ h _ => h⟩

section Records

variable (hne : i ≠ j) (hunique : (w.tokens.map Prod.fst).Nodup)

include hne hunique

/-- Nobody else relies on a record that is free, or held by the execution that changes it. -/
theorem follows_records {records : Dict String (Record π)}
    (hmine : ∀ stored, w.records.get? recordId = some stored →
      (stored.ownerToken, i) ∈ w.tokens ∧ stored.state ≠ .completed)
    (hothers : ∀ other, other ≠ recordId → records.get? other = w.records.get? other) :
    Follows j w { w with records := records } := by
  refine ⟨rfl, suffix_rfl, fun _ h => h, ?_, ?_⟩
  · intro other stored hget howned
    refine (hothers other ?_).trans hget
    rintro rfl
    exact hne (token_owner_unique hunique (hmine stored hget).1 howned)
  · intro other stored hget hstate
    refine (hothers other ?_).trans hget
    rintro rfl
    exact (hmine stored hget).2 hstate

theorem Holding.follows_records (hholding : Holding i w recordId record)
    {records : Dict String (Record π)}
    (hothers : ∀ other, other ≠ recordId → records.get? other = w.records.get? other) :
    Follows j w { w with records := records } := by
  refine Idempotency.follows_records hne hunique (fun stored hstored => ?_) hothers
  obtain rfl := mem_unique hholding.stored hstored
  exact ⟨hholding.owned, by simp [hholding.inProgress]⟩

end Records

/-- Invariant, rely and guarantee: an execution may do what every other can rely on. -/
def protocol (codec : Codec κ β π) (requests : ι → Request κ) :
    Protocol (Call κ π) ι (World ι β π) where
  inv := Coherent codec requests
  ok _ _ _ := True
  rely := Follows
  guar i w w' := ∀ j, i ≠ j → Follows j w w'
  rely_refl := Follows.refl
  rely_trans := Follows.trans
  guar_rely hij _ _ hguar := hguar _ hij

end LotusAI.Idempotency
