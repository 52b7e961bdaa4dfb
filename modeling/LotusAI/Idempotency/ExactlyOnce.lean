import LotusAI.Idempotency.Safety

/-!
# Idempotent synchronous execution, over all interleavings

Any number of calls of the service, under any interleaving of the repository calls:
at most one execution of a scope is in progress, at most one response is returned as
created, every replay repeats that response, and another execution of the scope
begins only after the reservation before it was released by an `HTTPException`.
-/

namespace LotusAI.Idempotency

open Lib Protocol Option

variable {ι κ β π : Type}

/-! ### The guarantee -/

/-- Two calls whose caller, tenant and normalized key reserve the same record. -/
def SameScope (requests : ι → Request κ) (i j : ι) : Prop :=
  ∃ scope, scopeOf (requests i) = some scope ∧ scopeOf (requests j) = some scope

/-- The executor was entered by call `i` and not left yet. -/
def InProgress (history : List (Event ι β π)) (i : ι) : Prop :=
  Event.began i ∈ history ∧ ∀ ending, Event.ended i ending ∉ history

def Response.withStatus (response : Response β) (status : IdempotencyStatus) : Response β :=
  { response with
    idempotency := response.idempotency.map fun descriptor => { descriptor with status } }

/-- Call `i` has returned a response under an idempotency status. -/
def Answered (c : Machine.Config (Call.Answer κ β π) ι (World ι β π) (Except Raised (Response β)))
    (i : ι) (status : IdempotencyStatus) (response : Response β) : Prop :=
  c.threads i = .pure (.ok response) ∧
    ∃ descriptor, response.idempotency = some descriptor ∧ descriptor.status = status

/-- What is promised of a pool of calls. -/
structure ExactlyOnce (codec : Codec κ β π) (requests : ι → Request κ)
    (c : Machine.Config (Call.Answer κ β π) ι (World ι β π) (Except Raised (Response β))) :
    Prop where
  /-- At most one execution of a scope is in progress. -/
  inProgress : ∀ i j, SameScope requests i j → InProgress c.store.history i →
    InProgress c.store.history j → i = j
  /-- A call enters the executor at most once. -/
  entered : ∀ j earlier, SameScope requests j j →
    (Event.began j :: earlier) <:+ c.store.history → Event.began j ∉ earlier
  /-- At most one call of a scope returns a response as created. -/
  created : ∀ i j response response', SameScope requests i j →
    Answered c i .created response → Answered c j .created response' → i = j
  /-- An execution begins only after earlier ones that ended in an `HTTPException`. -/
  restarted : ∀ i j ending earlier, SameScope requests i j →
    (Event.began j :: earlier) <:+ c.store.history → Event.ended i ending ∈ earlier →
    ending.isHttp
  /-- A replay is the created response under another status. -/
  replayed : ∀ j response', SameScope requests j j → Answered c j .replayed response' →
    ∃ i response, SameScope requests i j ∧
      (requests i).toRequestInput = (requests j).toRequestInput ∧
      Event.completed i (codec.dump response) ∈ c.store.history ∧
      response' = response.withStatus .replayed ∧
      ∀ result, c.threads i = .pure result →
        result = .ok response ∧ Answered c i .created response
  /-- A scope that is reserved is not executed by another call until it is released. -/
  executed : ∀ i j earlier, SameScope requests i j → i ≠ j →
    (Event.began j :: earlier) <:+ c.store.history → Event.reserved i ∈ earlier →
    ReleasedByHttp earlier i
  /-- Until then a call with another request is not answered with a response either. -/
  answered : ∀ i j result, SameScope requests i j →
    (requests i).toRequestInput ≠ (requests j).toRequestInput →
    Event.reserved i ∈ c.store.history → ¬ ReleasedByHttp c.store.history i →
    c.threads j = .pure result → ∃ e, result = .error e

variable {codec : Codec κ β π} {requests : ι → Request κ} {i j : ι} {w : World ι β π}

theorem SameScope.symm (h : SameScope requests i j) : SameScope requests j i := by
  obtain ⟨scope, hi, hj⟩ := h
  exact ⟨scope, hj, hi⟩

theorem SameScope.left (h : SameScope requests i j) : SameScope requests i i := by
  obtain ⟨scope, hi, -⟩ := h
  exact ⟨scope, hi, hi⟩

/-! ### Orders of events -/

variable {history earlier : List (Event ι β π)} {original : Response β} {record : Record π}
  {scope : Scope} {event : Event ι β π} {descriptor : IdempotencyDescriptor} {response : Response β}
  {result : Except Raised (Response β)}

/-- An event has a moment: what came before it. -/
theorem exists_earlier (h : event ∈ history) : ∃ earlier, (event :: earlier) <:+ history := by
  obtain ⟨later, earlier, rfl⟩ := List.append_of_mem h
  exact ⟨earlier, later, rfl⟩

theorem suffix_of_cons_suffix (h : (event :: earlier) <:+ history) : earlier <:+ history :=
  (List.suffix_cons event earlier).trans h

/-- Of two executions of a scope, the one that began first was released by then. -/
theorem Coherent.released_of_began (h : Coherent codec requests w) (hscope : SameScope requests i j)
    (hne : i ≠ j) {earlier' : List (Event ι β π)} (hi : (Event.began i :: earlier) <:+ w.history)
    (hj : (Event.began j :: earlier') <:+ w.history)
    (horder : (Event.began i :: earlier) <:+ (Event.began j :: earlier')) :
    ReleasedByHttp earlier' i := by
  obtain ⟨scope, hscopei, hscopej⟩ := hscope
  have hbefore : (Event.began i :: earlier) <:+ earlier' := by
    rcases List.suffix_cons_iff.mp horder with heq | hsuffix
    · exact absurd (Event.began.inj (List.cons.inj heq).1) hne
    · exact hsuffix
  have hreserved := (h.began i earlier scope hi hscopei).1
  exact (h.began j earlier' scope hj hscopej).2.2.2 i hne
    ((suffix_of_cons_suffix hbefore).subset hreserved) hscopei

/-- Nothing is in progress that was released. -/
theorem not_inProgress_of_released (hsuffix : earlier <:+ history) (h : ReleasedByHttp earlier i) :
    ¬ InProgress history i := by
  obtain ⟨-, ending, hended, -⟩ := h
  intro hprogress
  exact hprogress.2 ending (hsuffix.subset hended)

theorem Coherent.inProgress_unique (h : Coherent codec requests w)
    (hscope : SameScope requests i j) (hi : InProgress w.history i)
    (hj : InProgress w.history j) : i = j := by
  obtain ⟨earlier, hearlier⟩ := exists_earlier hi.1
  obtain ⟨earlier', hearlier'⟩ := exists_earlier hj.1
  by_contra hne
  -- the two beginnings are comparable, whichever came first
  rcases List.suffix_or_suffix_of_suffix hearlier hearlier' with horder | horder
  · exact not_inProgress_of_released (suffix_of_cons_suffix hearlier')
      (h.released_of_began hscope hne hearlier hearlier' horder) hi
  · obtain ⟨scope, hscopei, hscopej⟩ := hscope
    exact not_inProgress_of_released (suffix_of_cons_suffix hearlier)
      (h.released_of_began ⟨scope, hscopej, hscopei⟩ (Ne.symm hne) hearlier' hearlier horder) hj

theorem Coherent.isHttp_of_ended (h : Coherent codec requests w) (hscope : SameScope requests i j)
    {ending : Ending β} (hj : (Event.began j :: earlier) <:+ w.history)
    (hended : Event.ended i ending ∈ earlier) : ending.isHttp := by
  obtain ⟨scope, hscopei, hscopej⟩ := hscope
  obtain ⟨-, -, hnotEnded, hreleased⟩ := h.began j earlier scope hj hscopej
  have hpast := suffix_of_cons_suffix hj
  have hne : i ≠ j := by
    rintro rfl
    exact hnotEnded ending hended
  obtain ⟨before, hbefore⟩ := exists_earlier hended
  have hreserved := h.ended i ending before scope (hbefore.trans hpast) hscopei
  obtain ⟨-, ending', hended', hhttp⟩ :=
    hreleased i hne ((suffix_of_cons_suffix hbefore).subset hreserved) hscopei
  rwa [h.endedOnce i ending ending' (hpast.subset hended) (hpast.subset hended')]

/-! ### Replies of a reached pool -/

theorem Codec.Faithful.dump_inj (hfaithful : codec.Faithful requests) {r r' : Response β}
    (h : codec.dump r = codec.dump r') : r = r' := by
  have := hfaithful.validate_dump r
  rw [h, hfaithful.validate_dump] at this
  exact (some.inj this).symm

/-- Two records behind replies of one scope are the same. -/
theorem Source.record_eq {scope' : Scope} {record' : Record π} {original' : Response β}
    (hscope : SameScope requests i j) (h : Source codec requests i w scope record original)
    (h' : Source codec requests j w scope' record' original') :
    scope = scope' ∧ record = record' := by
  obtain ⟨shared, hi, hj⟩ := hscope
  obtain rfl := mem_unique h.scope_eq hi
  obtain rfl := mem_unique h'.scope_eq hj
  exact ⟨rfl, mem_unique h.stored h'.stored⟩

/-- What stands behind a response returned as created. -/
theorem Reply.of_created (hscope : SameScope requests i i)
    (h : Reply codec requests i w (.ok response))
    (hdescriptor : response.idempotency = some descriptor) (hstatus : descriptor.status = .created) :
    ∃ scope record, Source codec requests i w scope record response ∧
      (record.ownerToken, i) ∈ w.tokens := by
  cases h with
  | created scope record _ source owned => exact ⟨scope, record, source, owned⟩
  | replayed =>
    cases hdescriptor
    exact nomatch hstatus
  | unkeyed _ noScope => exact nomatch noScope.symm.trans hscope.choose_spec.1

/-- What stands behind a response returned as replayed. -/
theorem Reply.of_replayed (hscope : SameScope requests i i)
    (h : Reply codec requests i w (.ok response))
    (hdescriptor : response.idempotency = some descriptor)
    (hstatus : descriptor.status = .replayed) :
    ∃ scope record original, Source codec requests i w scope record original ∧
      response = withIdempotencyStatus original .replayed record.recordId
        record.requestFingerprint := by
  cases h with
  | created scope record _ _ _ created =>
    obtain rfl := mem_unique created hdescriptor
    exact nomatch hstatus
  | replayed scope record original source => exact ⟨scope, record, original, source, rfl⟩
  | unkeyed _ noScope => exact nomatch noScope.symm.trans hscope.choose_spec.1

/-- A call that completed its record returned the response as created. -/
theorem Reply.of_completed {payload : π} (hscope : SameScope requests i i)
    (h : Reply codec requests i w result) (hcompleted : Event.completed i payload ∈ w.history) :
    ∃ scope record response, result = .ok response ∧
      Source codec requests i w scope record response ∧
      response.idempotency = some ⟨.created, codec.recordId scope,
        codec.fingerprint (requests i)⟩ := by
  cases h with
  | created scope record response source _ descriptor =>
    exact ⟨scope, record, response, rfl, source, descriptor⟩
  | replayed _ _ _ _ none | failed _ none => exact absurd hcompleted (none payload)
  | unkeyed _ noScope => exact nomatch noScope.symm.trans hscope.choose_spec.1

/-- The call that owns the record behind a reply, and what the record retains. -/
theorem Source.owner (hfaithful : codec.Faithful requests) (hcoherent : Coherent codec requests w)
    (h : Source codec requests j w scope record original) :
    ∃ i, SameScope requests i j ∧ (requests i).toRequestInput = (requests j).toRequestInput ∧
      Event.completed i (codec.dump original) ∈ w.history ∧
      original.idempotency = some ⟨.created, record.recordId, record.requestFingerprint⟩ := by
  obtain ⟨i, owned, howned, hscopei, hid, -, hfingerprint⟩ := hcoherent.owner _ _ h.stored
  obtain ⟨k, response, hretained, hpayload, -, hdescriptor, hcompleted⟩ :=
    hcoherent.retained _ _ h.stored h.completed
  obtain rfl := token_owner_unique hcoherent.unique howned hretained
  obtain rfl := hfaithful.dump_inj (mem_unique h.payload hpayload)
  obtain rfl := hfaithful.recordId_inj h.scope_eq hscopei hid
  exact ⟨i, ⟨scope, hscopei, h.scope_eq⟩,
    hfaithful.fingerprint_inj (hfingerprint.symm.trans h.fingerprint), hcompleted, hdescriptor⟩

/-- A reserved record that was not released is the one behind every reply of its scope. -/
theorem Source.reserved (hfaithful : codec.Faithful requests)
    (hcoherent : Coherent codec requests w) (h : Source codec requests j w scope record original)
    (hscope : SameScope requests i j) (hreserved : Event.reserved i ∈ w.history)
    (hheld : ¬ ReleasedByHttp w.history i) :
    (requests i).toRequestInput = (requests j).toRequestInput := by
  obtain ⟨shared, hi, hj⟩ := hscope
  obtain rfl := mem_unique h.scope_eq hj
  obtain ⟨stored, hstored, howned⟩ :=
    (hcoherent.reserved i scope hreserved hi).resolve_right hheld
  obtain rfl := mem_unique h.stored hstored
  obtain ⟨k, -, howner, -, -, -, hfingerprint⟩ := hcoherent.owner _ _ hstored
  obtain rfl := token_owner_unique hcoherent.unique howned howner
  exact hfaithful.fingerprint_inj (hfingerprint.symm.trans h.fingerprint)

variable [DecidableEq ι]
  {c : Machine.Config (Call.Answer κ β π) ι (World ι β π) (Except Raised (Response β))}

theorem reply_of_done (hpool : SafePool (protocol codec requests) (machine ι κ β π)
      (fun i result w => Reply codec requests i w result) c) (hdone : c.threads i = .pure result) :
    Reply codec requests i c.store result := by
  have hsafe := hpool.safe i
  rw [hdone] at hsafe
  exact hsafe c.store hpool.inv (Follows.refl i c.store)

/-- Any number of concurrent and repeated calls of `execute_workflow_pack_idempotently` execute
a scope exactly once, up to executions that ended in an `HTTPException`. -/
theorem exactlyOnce_of_reach (hfaithful : codec.Faithful requests)
    (hreach : (machine ι κ β π).Reach (fun _ _ _ => True) (codec.pool requests) c) :
    ExactlyOnce codec requests c := by
  have hpool := (safePool hfaithful).reach hreach
  have hcoherent : Coherent codec requests c.store := hpool.inv
  refine ⟨fun _ _ => hcoherent.inProgress_unique, ?entered, ?created,
    fun _ _ _ _ hscope => hcoherent.isHttp_of_ended hscope, ?replayed, ?executed, ?answered⟩
  case entered =>
    rintro j earlier ⟨scope, hscope, -⟩ hsuffix
    exact (hcoherent.began j earlier scope hsuffix hscope).2.1
  case created =>
    rintro i j response response' hscope ⟨hi, descriptor, hdescriptor, hstatus⟩
      ⟨hj, descriptor', hdescriptor', hstatus'⟩
    obtain ⟨_, record, source, howned⟩ :=
      (reply_of_done hpool hi).of_created hscope.left hdescriptor hstatus
    obtain ⟨_, record', source', howned'⟩ :=
      (reply_of_done hpool hj).of_created hscope.symm.left hdescriptor' hstatus'
    obtain ⟨-, rfl⟩ := source.record_eq hscope source'
    exact token_owner_unique hcoherent.unique howned howned'
  case replayed =>
    rintro j response' hscope ⟨hj, descriptor, hdescriptor, hstatus⟩
    obtain ⟨_, record, original, source, rfl⟩ :=
      (reply_of_done hpool hj).of_replayed hscope hdescriptor hstatus
    obtain ⟨i, hshared, hinput, hcompleted, horiginal⟩ := source.owner hfaithful hcoherent
    refine ⟨i, original, hshared, hinput, hcompleted, ?_, ?_⟩
    · simp [withIdempotencyStatus, Response.withStatus, horiginal]
    · intro result hi
      obtain ⟨_, record', response, rfl, source', hcreated⟩ :=
        (reply_of_done hpool hi).of_completed hshared.left hcompleted
      obtain ⟨-, rfl⟩ := source.record_eq hshared.symm source'
      obtain rfl := hfaithful.dump_inj (Option.mem_unique source.payload source'.payload)
      exact ⟨rfl, hi, _, hcreated, rfl⟩
  case executed =>
    rintro i j earlier ⟨scope, hscopei, hscopej⟩ hne hsuffix hreserved
    exact (hcoherent.began j earlier scope hsuffix hscopej).2.2.2 i hne hreserved hscopei
  case answered =>
    intro i j result hscope hdiffer hreserved hheld hj
    cases reply_of_done hpool hj with
    | created _ _ _ source | replayed _ _ _ source =>
      exact absurd (source.reserved hfaithful hcoherent hscope hreserved hheld) hdiffer
    | failed e => exact ⟨e, rfl⟩
    | unkeyed _ noScope => cases noScope.symm.trans hscope.choose_spec.2

/-! ### A run -/

/-- A codec that keeps requests, responses and digests readable. -/
def sampleCodec : Codec Unit ℕ (Response ℕ) where
  requestText input := canonicalJson
    ((Dict.empty.insert "caller_app" (some input.callerApp)).insert "tenant_id" input.tenantId)
  dump := id
  validate := some
  payloadText _ := ""
  sha256 := id

/-- The same keyed request, four times. -/
def sampleRequests : Fin 4 → Request Unit :=
  fun _ => ⟨⟨"app", none, ()⟩, some " k "⟩

theorem faithful_sampleCodec : sampleCodec.Faithful sampleRequests where
  sha256_injective := Function.injective_id
  shortDigest_injOn := by
    rintro _ ⟨i, scope, hi, rfl⟩ _ ⟨j, scope', hj, rfl⟩ _
    rw [mem_unique hi hj]
  requestText_injective := by
    rintro ⟨caller, tenant, ⟨⟩⟩ ⟨caller', tenant', ⟨⟩⟩ htext
    have hcaller := get?_eq_of_canonicalJson_eq htext "caller_app"
    have htenant := get?_eq_of_canonicalJson_eq htext "tenant_id"
    simp [Dict.get?_insert] at hcaller htenant
    simp [hcaller, htenant]
  validate_dump _ := rfl

/-- Reserving, up to the executor. -/
def reserveSteps (i : Fin 4) (token : String) : List (Fin 4 × Choice ℕ) :=
  [(i, .time "t"), (i, .uuid token), (i, .repository)]

/-- The first call fails and is released, the second one executes, the third one comes
while that is in progress and the fourth one after it. -/
def sampleSteps : List (Fin 4 × Choice ℕ) :=
  reserveSteps 0 "a" ++ [(0, .executor), (0, .ending (.raised (notFound "gone"))),
    (0, .repository)] ++
  reserveSteps 1 "b" ++ [(1, .executor)] ++ reserveSteps 2 "c" ++
  [(1, .ending (.returned ⟨7, none⟩)), (1, .time "t"), (1, .repository)] ++ reserveSteps 3 "d"

/-- The body and the status of what a call returned. -/
def outcome (result : Option (Except Raised (Response ℕ))) :
    Option (ℕ × Option IdempotencyStatus) :=
  match result with
  | some (.ok response) => some (response.body, response.idempotency.map (·.status))
  | _ => none

theorem outcomes_sampleSteps :
    ((machine (Fin 4) Unit ℕ (Response ℕ)).schedule (fun _ _ _ => True)
      (sampleCodec.pool sampleRequests) sampleSteps).map
        (fun c => (List.finRange 4).map fun i => outcome (c.threads i).result?) =
      some [none, some (7, some .created), none, some (7, some .replayed)] := by
  decide +kernel

/-- The guarantee on a run in which one call is released, one creates and one replays. -/
theorem exactlyOnce_sampleSteps : ∃ c,
    (machine (Fin 4) Unit ℕ (Response ℕ)).Reach (fun _ _ _ => True)
      (sampleCodec.pool sampleRequests) c ∧
    (List.finRange 4).map (fun i => outcome (c.threads i).result?) =
      [none, some (7, some .created), none, some (7, some .replayed)] ∧
    ExactlyOnce sampleCodec sampleRequests c := by
  obtain ⟨c, hrun, houtcomes⟩ := Option.map_eq_some_iff.mp outcomes_sampleSteps
  have hreach := Machine.reach_of_schedule hrun
  exact ⟨c, hreach, houtcomes, exactlyOnce_of_reach faithful_sampleCodec hreach⟩

end LotusAI.Idempotency
