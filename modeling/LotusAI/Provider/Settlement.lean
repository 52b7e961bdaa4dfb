import LotusAI.Provider.Rounds

/-!
# Every reservation is resolved

The transport promises to end with a response or a provider error, and to leave no
reservation pending: each is settled, released or held exactly once, and released only
behind a failure that is not billable.

It keeps the promise exactly if it has an arm for whatever it meets. A body the parser does
not expect, a connection that drops while the answer is read, or a rate card that cannot be
evaluated leaves through none of the arms: the exception is not a provider error, and the
reservation stays pending.
-/

namespace LotusAI.Provider

open Lib Budget View List Event

/-! ### The promise -/

/-- Whether an event resolves the reservation with this id. -/
def Event.resolves (debitId : String) : Event → Bool
  | resolved id _ _ => id = debitId
  | _ => false

/-- How often a reservation has been resolved. -/
def resolutions (debitId : String) (events : List Event) : ℕ :=
  events.countP (Event.resolves debitId)

/-- What the transport has an arm for. -/
def Event.benign (lib : Libraries) : Event → Bool
  | estimated outcome => outcome.toOption.isSome
  | attempted _ _ result => result.benign lib
  | _ => true

/-- The transport has an arm for everything in a journal. -/
def Benign (lib : Libraries) (events : List Event) : Prop := ∀ event ∈ events, event.benign lib

/-- Every release of a journal stands behind a failure that is not billable. -/
def Justified (events : List Event) : Prop :=
  ∀ id behind, .resolved id .released behind ∈ events →
    ∃ result, behind = some result ∧ result.nonBillable

/-- What the transport promises: it ends with a response or a provider error; a debit of its
execution is pending at the end only if it was before; each of its reservations was resolved
exactly once, and released only for a failure that is not billable. -/
structure TransportContract (start finish : View) (out : Except TransportError ServedPayload) :
    Prop where
  caught : ∀ e, out ≠ .error (.uncaught e)
  settled : ∀ id row, finish.debits.get? id = some row → row.basis = .reservedMax →
    ∃ before, start.debits.get? id = some before ∧ before.basis = .reservedMax
  once : ∀ id, .reserved id ∈ finish.events → resolutions id finish.events = 1
  justified : Justified finish.events

/-! ### Journals that go on -/

section Journal

variable {id : String} {events : List Event} {event : Event}

theorem resolutions_append (id : String) (events events' : List Event) :
    resolutions id (events ++ events') = resolutions id events + resolutions id events' :=
  countP_append

theorem resolutions_snoc_of_not (events : List Event) (h : event.resolves id = false) :
    resolutions id (events ++ [event]) = resolutions id events := by
  simp [resolutions, h]

theorem resolutions_snoc_self (events : List Event) (resolution : Resolution)
    (behind : Option AttemptResult) :
    resolutions id (events ++ [.resolved id resolution behind]) = resolutions id events + 1 := by
  simp [resolutions, resolves]

theorem Justified.append {events' : List Event} (h : Justified events) (h' : Justified events') :
    Justified (events ++ events') := by
  intro id behind hmem
  rcases mem_append.mp hmem with hold | hnew
  · exact h id behind hold
  · exact h' id behind hnew

end Journal

theorem View.get?_save_note (v : View) (debitId : String) (row : AttemptDebitRecord)
    (event : Event) :
    ((v.save debitId row).note event).debits.get? debitId = some row := by
  rw [note_debits, save_debits, Dict.get?_insert_self]

theorem View.get?_save_note_of_ne (v : View) {debitId id : String} (h : id ≠ debitId)
    (row : AttemptDebitRecord) (event : Event) :
    ((v.save debitId row).note event).debits.get? id = v.debits.get? id := by
  rw [note_debits, save_debits, Dict.get?_insert_of_ne _ h]

/-! ### Accounts -/

/-- The accounts of an execution between two calls. A pending debit was pending before the
start, or is the one in flight; a reservation is in flight, or has been resolved once. -/
structure Standing (tolerated : String → Prop) (inFlight : Option String) (v : View) : Prop where
  settled : ∀ id row, v.debits.get? id = some row → row.basis = .reservedMax →
    tolerated id ∨ inFlight = some id
  opened : ∀ id, inFlight = some id → resolutions id v.events = 0 ∧
    ∃ row, v.debits.get? id = some row ∧ row.basis = .reservedMax
  accounted : ∀ id, .reserved id ∈ v.events → inFlight = some id ∨
    resolutions id v.events = 1 ∧ ∃ row, v.debits.get? id = some row ∧ row.basis ≠ .reservedMax
  present : ∀ id, v.debits.get? id = none → resolutions id v.events = 0
  justified : Justified v.events

variable {events : List Event}

section Standing

variable {ι : Type} {setting : Setting ι} {tolerated : String → Prop} {inFlight : Option String}
  {v v' : View} {posted : Posted} {result : AttemptResult}

section

variable (h : Standing tolerated inFlight v) {debitId : String}

include h

/-- Nothing changes in the accounts where no reservation is made or resolved. -/
theorem Standing.of_append (hdebits : v'.debits = v.debits) (hevents : v'.events = v.events ++ events)
    (hquiet : ∀ event ∈ events, (∀ id, event.resolves id = false) ∧ ∀ id, event ≠ .reserved id) :
    Standing tolerated inFlight v' := by
  have hcount : ∀ id, resolutions id v'.events = resolutions id v.events := by
    intro id
    rw [hevents, resolutions_append, Nat.add_eq_left, resolutions, countP_eq_zero]
    intro event hevent
    rw [(hquiet event hevent).1 id]
    exact Bool.false_ne_true
  refine ⟨?_, ?_, ?_, ?_, ?_⟩
  · rw [hdebits]
    exact h.settled
  · intro id hid
    rw [hcount, hdebits]
    exact h.opened id hid
  · intro id hid
    rw [hcount, hdebits]
    rw [hevents] at hid
    rcases mem_append.mp hid with hold | hnew
    · exact h.accounted id hold
    · exact absurd rfl ((hquiet _ hnew).2 id)
  · intro id hid
    rw [hcount]
    rw [hdebits] at hid
    exact h.present id hid
  · rw [hevents]
    refine h.justified.append fun id behind hmem => ?_
    have := (hquiet _ hmem).1 id
    simp [resolves] at this

theorem Standing.quiet (hquiet : Quiet v v') :
    Standing tolerated inFlight v' := by
  obtain ⟨costs, hcosts⟩ := hquiet.events
  refine h.of_append hquiet.debits hcosts fun event hevent => ?_
  obtain ⟨cost, -, rfl⟩ := mem_map.mp hevent
  exact ⟨fun _ => rfl, nofun⟩

theorem Standing.attempt (posted : Posted)
    (result : AttemptResult) : Standing tolerated inFlight (v.attempt posted result) := by
  refine h.of_append rfl (note_events _ _) fun event hevent => ?_
  obtain rfl := mem_singleton.mp hevent
  exact ⟨fun _ => rfl, nofun⟩

omit h in
/-- A reservation is in flight once it is made. -/
theorem Standing.reserving (h : Standing tolerated none v)
    (hreserving : Reserving setting posted v v') :
    Standing tolerated none v' ∨ Standing tolerated (some posted.debitId) v' := by
  cases hreserving with
  | without => exact .inl h
  | reserved record _ fresh basis =>
    refine .inr ⟨?_, ?_, ?_, ?_, ?_⟩
    · intro id row hrow hpending
      by_cases hid : id = posted.debitId
      · exact .inr (by rw [hid])
      · rw [get?_save_note_of_ne _ hid] at hrow
        exact (h.settled id row hrow hpending).imp_right nofun
    · intro id hid
      cases hid
      refine ⟨?_, record, get?_save_note .., basis⟩
      -- a debit that did not exist has never been resolved
      rw [note_events, resolutions_snoc_of_not _ rfl]
      exact h.present _ fresh
    · intro id hid
      rw [note_events, resolutions_snoc_of_not _ rfl]
      by_cases heq : id = posted.debitId
      · exact .inl (by rw [heq])
      · refine .inr ?_
        have hold : reserved id ∈ v.events := by simpa [heq] using hid
        rw [get?_save_note_of_ne _ heq]
        exact (h.accounted id hold).resolve_left nofun
    · intro id hid
      rw [note_events, resolutions_snoc_of_not _ rfl]
      by_cases heq : id = posted.debitId
      · simp [heq] at hid
      · rw [get?_save_note_of_ne _ heq] at hid
        exact h.present id hid
    · refine h.justified.append fun id behind hmem => ?_
      simp at hmem

/-- A pending debit is resolved to one that is not. -/
theorem Standing.resolve (hflight : inFlight = none ∨ inFlight = some debitId)
    {row row' : AttemptDebitRecord} (hfound : v.debits.get? debitId = some row)
    (hpending : row.basis = .reservedMax) (hfinal : row'.basis ≠ .reservedMax)
    {resolution : Resolution} (hreleased : resolution = .released → result.nonBillable) :
    Standing tolerated none
      ((v.save debitId row').note (.resolved debitId resolution (some result))) := by
  -- whatever is in flight is the debit that is resolved
  have hothers : ∀ id, id ≠ debitId → inFlight ≠ some id := by
    rintro id hid rfl
    rcases hflight with hnone | hsome
    · cases hnone
    · exact hid (Option.some.inj hsome)
  have hcount : ∀ id, id ≠ debitId →
      resolutions id (v.events ++ [.resolved debitId resolution (some result)]) =
        resolutions id v.events := fun id hid =>
    resolutions_snoc_of_not _ (by simpa [resolves] using fun h => hid h.symm)
  refine ⟨?_, nofun, ?_, ?_, ?_⟩
  · intro id row'' hrow hbasis
    by_cases hid : id = debitId
    · subst hid
      rw [get?_save_note] at hrow
      cases hrow
      exact absurd hbasis hfinal
    · rw [get?_save_note_of_ne _ hid] at hrow
      exact .inl ((h.settled id row'' hrow hbasis).resolve_right (hothers id hid))
  · intro id hid
    have hold : reserved id ∈ v.events := by simpa using hid
    refine .inr ?_
    by_cases heq : id = debitId
    · subst heq
      refine ⟨?_, row', get?_save_note .., hfinal⟩
      rw [note_events, save_events, resolutions_snoc_self]
      -- had it been resolved before, it would not be pending
      rcases h.accounted id hold with hopen | ⟨-, row'', hrow, hbasis⟩
      · rw [(h.opened id hopen).1]
      · rw [hfound] at hrow
        cases hrow
        exact absurd hpending hbasis
    · rw [note_events, save_events, hcount id heq, get?_save_note_of_ne _ heq]
      exact (h.accounted id hold).resolve_left (hothers id heq)
  · intro id hid
    by_cases heq : id = debitId
    · simp [heq] at hid
    · rw [get?_save_note_of_ne _ heq] at hid
      rw [note_events, save_events, hcount id heq]
      exact h.present id hid
  · refine h.justified.append fun id behind hmem => ?_
    cases mem_singleton.mp hmem
    exact ⟨result, rfl, hreleased rfl⟩

omit h in
theorem Resolution.ofBasis_eq_released {basis : DebitBasis} :
    Resolution.ofBasis basis = .released ↔ basis = .released := by
  simp [Resolution.ofBasis]

/-- Behind its attempt, nothing is in flight. -/
theorem Standing.resolving
    (hflight : inFlight = none ∨ inFlight = some debitId)
    (hresolving : Resolving setting debitId result v v') : Standing tolerated none v' := by
  cases hresolving with
  | settled row basis e found pending final released =>
    exact h.resolve hflight found pending final fun hreleased =>
      released (Resolution.ofBasis_eq_released.mp hreleased)
  | held row heldAt found pending =>
    exact h.resolve hflight found pending (by simp) nofun
  | without none =>
    rcases hflight with rfl | rfl
    · exact h
    · obtain ⟨-, row, hrow, hbasis⟩ := h.opened debitId rfl
      exact absurd hbasis (none row hrow)

end

end Standing

/-! ### Benign journals -/

section Benign

variable {ι : Type} {setting : Setting ι} {lib : Libraries} {v v' : View} {posted : Posted}
  {result : AttemptResult}

theorem benign_snoc {event : Event} :
    Benign lib (events ++ [event]) ↔ Benign lib events ∧ event.benign lib := by
  simp [Benign, or_imp, forall_and]

theorem Quiet.benign (h : Quiet v v') (hbenign : Benign lib v.events) : Benign lib v'.events := by
  obtain ⟨costs, hcosts⟩ := h.events
  rw [hcosts]
  intro event hevent
  rcases mem_append.mp hevent with hold | hnew
  · exact hbenign event hold
  · obtain ⟨cost, -, rfl⟩ := mem_map.mp hnew
    rfl

theorem Reserving.benign (h : Reserving setting posted v v') (hbenign : Benign lib v.events) :
    Benign lib v'.events := by
  cases h with
  | reserved => exact benign_snoc.mpr ⟨hbenign, rfl⟩
  | without => exact hbenign

theorem Resolving.benign {debitId : String} (h : Resolving setting debitId result v v')
    (hbenign : Benign lib v.events) : Benign lib v'.events := by
  cases h with
  | settled | held => exact benign_snoc.mpr ⟨hbenign, rfl⟩
  | without => exact hbenign

end Benign

/-! ### Rounds and runs -/

/-- The transport has had an arm for everything, and its accounts are in order. -/
def InOrder (lib : Libraries) (tolerated : String → Prop) (v : View) : Prop :=
  Benign lib v.events ∧ Standing tolerated none v

section Runs

variable {ι : Type} {setting : Setting ι} {i : ι} {request : TransportRequest}
  {tolerated : String → Prop} {v v' : View}

/-- A round keeps the accounts in order, or meets something it has no arm for. -/
theorem RoundStep.stands {attemptIndex : ℕ} {state : LoopState}
    {out : Except TransportError Round} (h : RoundStep setting request attemptIndex state v out v')
    (horder : InOrder setting.lib tolerated v) :
    EndsIn (InOrder setting.lib tolerated) (fun v => ¬ Benign setting.lib v.events) out v' := by
  obtain ⟨hbenign, hstands⟩ := horder
  cases h with
  | declined quiet => exact ⟨quiet.benign hbenign, hstands.quiet quiet⟩
  | unpriced quiet | unsettled admitted => exact fun h => nomatch (benign_snoc.mp h).2
  | broken admitted harmful =>
    intro h
    have hbenign := (benign_snoc.mp h).2
    rw [benign, harmful] at hbenign
    cases hbenign
  | concluded admitted benign within quiet resolving caught next =>
    obtain ⟨mid, hquiet, hreserving⟩ := admitted.reserving
    have hready := hreserving.benign (hquiet.benign hbenign)
    refine endsIn_of_caught ⟨?_, ?_⟩ caught
    · exact resolving.benign (quiet.benign (benign_snoc.mpr ⟨hready, benign⟩))
    · rcases (hstands.quiet hquiet).reserving hreserving with hclosed | hopen
      · exact ((hclosed.attempt _ _).quiet quiet).resolving (.inl rfl) resolving
      · exact ((hopen.attempt _ _).quiet quiet).resolving (.inr rfl) resolving

/-- An execution that has noted nothing yet starts with its accounts in order. -/
theorem standing_start (hevents : v.events = []) :
    Standing (fun id => ∃ row, v.debits.get? id = some row ∧ row.basis = .reservedMax) none v where
  settled id row hrow hpending := .inl ⟨row, hrow, hpending⟩
  opened id hid := nomatch hid
  accounted id hid := by simp [hevents] at hid
  present id _ := by simp [hevents, resolutions]
  justified id behind hmem := by simp [hevents] at hmem

variable [DecidableEq ι]

/-- Without a regime the environment may answer anything. -/
theorem exec_isSome (hregime : setting.regime = none) (i : ι) (w : World ι) (call : Call)
    (ω : Answers) :
    ((ledgerMachine setting).exec i w call ω).isSome := by
  cases call with
  | estimateLiveTextCost debitId modelRevision inputTokens outputTokens =>
    simp [ledgerMachine, Setting.priced, hregime]
  | urlopen posted => simp [ledgerMachine, Setting.reports, hregime]
  | _ => rfl

/-- The promise is kept exactly where the accounts end in order. -/
theorem contract_iff_of_endsIn {lib : Libraries} {start : View}
    {out : Except TransportError ServedPayload} (h : EndsIn (InOrder lib
      fun id => ∃ row, start.debits.get? id = some row ∧ row.basis = .reservedMax)
      (fun v => ¬ Benign lib v.events) out v) :
    TransportContract start v out ↔ Benign lib v.events := by
  -- the accounts say all that is promised where no exception escapes
  have hkept : InOrder lib (fun id => ∃ row, start.debits.get? id = some row ∧
      row.basis = .reservedMax) v → (∀ e, out ≠ .error (.uncaught e)) →
      (TransportContract start v out ↔ Benign lib v.events) := by
    intro hended hcaught
    refine iff_of_true ⟨hcaught, ?_, ?_, hended.2.justified⟩ hended.1
    · intro id row hrow hpending
      exact (hended.2.settled id row hrow hpending).resolve_right nofun
    · intro id hid
      exact ((hended.2.accounted id hid).resolve_left nofun).1
  match out with
  | .error (.uncaught e) => exact iff_of_false (fun hcontract => hcontract.caught e rfl) h
  | .error (.provider e) | .ok payload => exact hkept h nofun

end Runs

/-! ### A body that is no object -/

/-- One dollar per thousand tokens. -/
def flatCard : RateCard where
  cardId := "card-flat"
  scopeKind := .defaultLiveText
  scopeTarget := none
  inputCostPer1kTokens := 1
  outputCostPer1kTokens := 1
  effectiveFromUtc := none
  effectiveToUtc := none
  input_nonneg := by norm_num
  output_nonneg := by norm_num

/-- A body that reports 900 input and 50 output tokens. -/
def usageBody : List UInt8 :=
  "\x7b\"usage\":\x7b\"input_tokens\":900,\"output_tokens\":50\x7d\x7d".toList.map
    fun c => UInt8.ofNat c.toNat

/-- Libraries that can read that body and an empty list, and nothing else. -/
def listLibraries : Libraries where
  iso := ⟨fun _ => none⟩
  loads body :=
    if body = [91, 93] then .ok (.array [])
    else if body = usageBody then
      .ok (.object [("usage", .object [("input_tokens", .int 900), ("output_tokens", .int 50)])])
    else .error .jsonDecodeError
  candidateDigest _ _ _ _ := "0"

/-- One execution on its own. -/
def singleExecution (regime : Option Regime) : Setting Unit :=
  .ofIds listLibraries .memory "live" (fun _ => "exe-1") (fun _ _ _ => rfl) (fun _ => by decide)
    regime

/-- A request of 4000 bytes for at most 100 tokens, not to be retried. -/
def plainRequest : TransportRequest where
  bodyBytes := 4000
  body_nonempty := by norm_num
  maxOutputTokens := 100
  apiKey := some "key"
  requireApiKey := true
  timeoutSeconds := 30
  servingProviderId := "openai"
  retryLimit := 0
  executionDeadlineAt := none
  debitExecutionId := "exe-1"
  costPosture := "conservative"
  modelRevision := some "m-1"
  costCeilingUsd := none
  deployment := none
  modelFamily := none
  budgetEnforced := false
  hardBudgetUsd := none

/-- An environment in which the flat card is in force and each attempt ends one way. -/
def answering (result : AttemptResult) : Answers where
  clock := 0
  jitter := 0
  now := "2026-01-01T00:00:00Z"
  instant := .aware 0
  cards := [flatCard]
  result := result
  verdict := .ok ()
  entry := .error ⟨.providerUpstreamError, ""⟩
  response := .error ⟨.providerUpstreamError, ""⟩

/-- No debit has been recorded and nothing noted. -/
def World.fresh : World Unit := ⟨.empty, fun _ => []⟩

/-- What an end raises. -/
def raised? {α : Type} : Except TransportError α → Option TransportError
  | .error e => some e
  | .ok _ => none

theorem eq_error_of_raised? {α : Type} {out : Except TransportError α} {e : TransportError}
    (h : raised? out = some e) : out = .error e := by
  cases out with
  | error e' => rw [Option.some.inj h]
  | ok a => cases h

end LotusAI.Provider
