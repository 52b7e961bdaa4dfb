import LotusAI.Provider.Execution
import LotusAI.Provider.Settlement

/-!
# The hard budget and the ceiling of a request

Any number of executions run at once on one ledger. As long as the card in force for an
attempt stays in force until it is settled, and providers report no more tokens than were
sent and permitted, an attempt settles to no more than it reserved; so the counter of the
budget never exceeds the hard limit.

The ceiling a caller sets is weaker. An attempt starts only if its estimate fits into what
the ceiling leaves, but what it reserves, and may be held at, is its governed maximum: the
estimate counts one token for four bytes of the body, the maximum one for each byte.
-/

namespace LotusAI.Provider

open Lib Budget View

/-! ### Pending reservations -/

/-- No reservation of the execution is pending, but for one id. -/
def ClearBut (exception : Option String) (v : View) : Prop :=
  ∀ id row, v.debits.get? id = some row → row.basis = .reservedMax → exception = some id

/-- No reservation of the execution is pending. -/
def Clear (v : View) : Prop := ClearBut none v

variable {out : Except TransportError Round} {id : String}

section Clear

variable {ι : Type} {setting : Setting ι} {request : TransportRequest} {v v' : View}
  {row : AttemptDebitRecord} {debitId : String}

theorem Clear.ne (h : Clear v) (hrow : v.debits.get? id = some row) :
    row.basis ≠ .reservedMax :=
  fun hpending => nomatch h id row hrow hpending

theorem clear_of_quiet {exception : Option String} (h : ClearBut exception v)
    (hquiet : Quiet v v') : ClearBut exception v' := by
  intro id row hrow
  rw [hquiet.debits] at hrow
  exact h id row hrow

theorem clear_of_reserving {posted : Posted} (h : Clear v)
    (hreserving : Reserving setting posted v v') : ClearBut (some posted.debitId) v' := by
  intro id row hrow hpending
  cases hreserving with
  | reserved record =>
    by_cases hid : id = posted.debitId
    · rw [hid]
    · rw [note_debits, save_debits, Dict.get?_insert_of_ne _ hid] at hrow
      exact absurd hpending (h.ne hrow)
  | without => exact absurd hpending (h.ne hrow)

/-- A debit that is resolved is not pending. -/
theorem clear_of_save (h : ClearBut (some debitId) v) (hrow : row.basis ≠ .reservedMax)
    (event : Event) : Clear ((v.save debitId row).note event) := by
  intro id row' hfound hpending
  rw [note_debits, save_debits, Dict.get?_insert] at hfound
  split_ifs at hfound with hid
  · cases hfound
    exact absurd hpending hrow
  · exact absurd (Option.some.inj (h id row' hfound hpending)).symm hid

theorem clear_of_resolving {result : AttemptResult} (h : ClearBut (some debitId) v)
    (hresolving : Resolving setting debitId result v v') : Clear v' := by
  cases hresolving with
  | settled row basis e _ _ final => exact clear_of_save h final _
  | held row heldAt => exact clear_of_save h (by simp) _
  | without none =>
    intro id row hrow hpending
    obtain rfl := Option.some.inj (h id row hrow hpending)
    exact absurd hpending (none row hrow)

/-- A round that ends as it should leaves nothing pending. -/
theorem RoundStep.clear {attemptIndex : ℕ} {state : LoopState}
    (h : RoundStep setting request attemptIndex state v out v') (hclear : Clear v) :
    EndsIn Clear (fun _ => True) out v' := by
  cases h with
  | declined quiet => exact clear_of_quiet hclear quiet
  | unpriced quiet | broken admitted harmful | unsettled admitted => trivial
  | concluded admitted benign within quiet resolving caught next =>
    rename_i ready after posted result
    obtain ⟨mid, hquiet, hreserving⟩ := admitted.reserving
    have hready := clear_of_reserving (clear_of_quiet hclear hquiet) hreserving
    have hattempt : ClearBut (some posted.debitId) (ready.attempt posted result) := hready
    exact endsIn_of_caught (clear_of_resolving (clear_of_quiet hattempt quiet) resolving) caught

end Clear

/-! ### The ceiling of a request -/

/-- What an attempt may be charged beyond the estimate it was admitted at. -/
def excess (regime : Regime) (posted : Posted) : ℚ :=
  maximumOf regime posted - estimateOf regime posted

/-- What an execution under a ceiling may have spent: nothing before its first attempt, and
then no more than the ceiling and the excess of the last. -/
def allowance (regime : Regime) (ceiling : ℚ) (events : List Event) : ℚ :=
  match lastAttempt events with
  | none => 0
  | some (posted, _) => ceiling + excess regime posted

/-- The spend of an execution against its ceiling. -/
structure Bounded (regime : Regime) (ceiling : ℚ) (v : View) : Prop where
  nonneg : ∀ id row, v.debits.get? id = some row → 0 ≤ row.amountUsd
  fits : ∀ posted others result, .attempted posted others result ∈ v.events →
    others + estimateOf regime posted ≤ ceiling
  spent : totalOf v.debits ≤ allowance regime ceiling v.events

section Ceiling

variable {ι : Type} {setting : Setting ι} {regime : Regime} {ceiling : ℚ}
  {request : TransportRequest} {v v' : View} {posted : Posted} {result : AttemptResult}

/-- An event that is no attempt changes nothing. -/
theorem Bounded.note (h : Bounded regime ceiling v) {event : Event}
    (hevent : event.attempt? = none) : Bounded regime ceiling (v.note event) := by
  refine ⟨h.nonneg, fun posted others result hmem => ?_, ?_⟩
  · rcases List.mem_append.mp hmem with hold | hnew
    · exact h.fits posted others result hold
    · rw [← List.mem_singleton.mp hnew] at hevent
      cases hevent
  · rw [allowance, note_events, lastAttempt_append_of_none _ hevent]
    exact h.spent

theorem Bounded.quiet (h : Bounded regime ceiling v) (hquiet : Quiet v v') :
    Bounded regime ceiling v' := by
  obtain ⟨costs, hcosts⟩ := hquiet.events
  refine ⟨?_, fun posted others result hmem => ?_, ?_⟩
  · rw [hquiet.debits]
    exact h.nonneg
  · rw [hcosts] at hmem
    rcases List.mem_append.mp hmem with hold | hnew
    · exact h.fits posted others result hold
    · obtain ⟨cost, -, hcost⟩ := List.mem_map.mp hnew
      cases hcost
  · rw [allowance, hquiet.lastAttempt_eq, hquiet.debits]
    exact h.spent

variable {debitId : String} {attemptIndex : ℕ} {state : LoopState}

/-- A debit is written with an amount that is not negative. -/
theorem nonneg_save (hnonneg : ∀ id row, v.debits.get? id = some row → 0 ≤ row.amountUsd)
    {row : AttemptDebitRecord} (hrow : 0 ≤ row.amountUsd) {row' : AttemptDebitRecord}
    (hfound : (v.save debitId row).debits.get? id = some row') : 0 ≤ row'.amountUsd :=
  Dict.forall_insert (P := fun _ row => 0 ≤ row.amountUsd) hrow hnonneg id row' hfound

/-- A reservation is no attempt. -/
theorem mem_of_reserving (h : Reserving setting posted v v') {posted' : Posted} {others : ℚ}
    (hmem : .attempted posted' others result ∈ v'.events) :
    .attempted posted' others result ∈ v.events := by
  cases h with
  | without => exact hmem
  | reserved => simpa using hmem

theorem othersOf_le (hnonneg : ∀ id row, v.debits.get? id = some row → 0 ≤ row.amountUsd)
    (debitId : String) : v.othersOf debitId ≤ totalOf v.debits := by
  rw [othersOf, sub_le_self_iff]
  cases hrow : (v.debits.get? debitId).filter (·.basis = .reservedMax) with
  | none => exact le_rfl
  | some row => exact hnonneg debitId row (Option.filter_eq_some_iff.mp hrow).1

/-- A reservation adds the maximum of its attempt at most, and nothing to the other debits. -/
theorem spent_of_reserving (hregime : setting.regime = some regime)
    (hnonneg : ∀ id row, v.debits.get? id = some row → 0 ≤ row.amountUsd)
    (h : Reserving setting posted v v') :
    (∀ id row, v'.debits.get? id = some row → 0 ≤ row.amountUsd) ∧
      totalOf v'.debits ≤ totalOf v.debits + maximumOf regime posted ∧
      v'.othersOf posted.debitId ≤ totalOf v.debits := by
  have hmaximum : 0 ≤ maximumOf regime posted := Amount.nonneg _
  cases h with
  | without => exact ⟨hnonneg, by linarith, othersOf_le hnonneg _⟩
  | reserved record _ fresh basis nonneg amount =>
    refine ⟨fun id row => nonneg_save hnonneg nonneg, ?_, ?_⟩
    · rw [note_debits, save_debits, totalOf_insert, fresh, amount regime hregime]
      simp
    · rw [othersOf, note_debits, save_debits, totalOf_insert, fresh,
        Dict.get?_insert_self]
      simp [Option.filter, basis]

/-- An attempt that was admitted fits, and is charged its maximum at most. -/
theorem Bounded.attempt {ready : View} (h : Bounded regime ceiling v)
    (hregime : setting.regime = some regime) (hceiling : request.costCeilingUsd = some ceiling)
    (hadmitted : Admitted setting request attemptIndex state v posted ready)
    (result : AttemptResult) : Bounded regime ceiling (ready.attempt posted result) := by
  obtain ⟨mid, hquiet, hreserving⟩ := hadmitted.reserving
  have hmid := h.quiet hquiet
  have hfits := hadmitted.fits ceiling hceiling regime hregime
  rw [← hquiet.debits] at hfits
  obtain ⟨hnonneg, hadds, hothers⟩ := spent_of_reserving hregime hmid.nonneg hreserving
  refine ⟨hnonneg, fun posted' others result' hmem => ?_, ?_⟩
  · rcases List.mem_append.mp hmem with hold | hnew
    · exact hmid.fits posted' others result' (mem_of_reserving hreserving hold)
    · cases List.mem_singleton.mp hnew
      linarith
  · rw [allowance, lastAttempt_attempt, attempt_debits]
    simp only [excess]
    linarith

/-- A resolution takes nothing that was not reserved. -/
theorem Bounded.resolving (h : Bounded regime ceiling v) (hregime : setting.regime = some regime)
    (hresolving : Resolving setting debitId result v v') : Bounded regime ceiling v' := by
  -- the debit is written with an amount no greater than before
  have hsave : ∀ row row' : AttemptDebitRecord, v.debits.get? debitId = some row →
      0 ≤ row'.amountUsd → row'.amountUsd ≤ row.amountUsd →
      Bounded regime ceiling (v.save debitId row') := by
    intro row row' hfound hnonneg hless
    refine ⟨fun id row => nonneg_save h.nonneg hnonneg, h.fits, ?_⟩
    have hspent := h.spent
    rw [save_debits, save_events, totalOf_insert, hfound]
    simp only [Option.map_some, Option.getD_some]
    linarith
  cases hresolving with
  | settled row basis e found _ _ _ nonneg amount =>
    exact (hsave row _ found nonneg (amount (by rw [hregime]; rfl))).note rfl
  | held row heldAt found =>
    exact (hsave row { row with basis := .unresolvedMax, recordedAt := heldAt } found
      (h.nonneg _ row found) le_rfl).note rfl
  | without => exact h

/-- Nothing has been spent where nothing is recorded. -/
theorem bounded_start (regime : Regime) (ceiling : ℚ) (hnone : ∀ id, v.debits.get? id = none)
    (hevents : v.events = []) : Bounded regime ceiling v where
  nonneg id row hrow := by
    rw [hnone id] at hrow
    cases hrow
  fits posted others result hmem := by
    rw [hevents] at hmem
    cases hmem
  spent := by
    have hvalues : v.debits.values = [] := by
      rw [List.eq_nil_iff_forall_not_mem]
      intro row hrow
      obtain ⟨id, hid⟩ := Dict.mem_values_iff.mp hrow
      rw [hnone id] at hid
      cases hid
    rw [totalOf, hvalues, allowance, hevents]
    rfl

/-- A round keeps an execution within what its ceiling allows, however it ends. -/
theorem RoundStep.bounded
    (h : RoundStep setting request attemptIndex state v out v')
    (hregime : setting.regime = some regime) (hceiling : request.costCeilingUsd = some ceiling)
    (hbounded : Bounded regime ceiling v) : Bounded regime ceiling v' := by
  cases h with
  | declined quiet => exact hbounded.quiet quiet
  | unpriced quiet => exact (hbounded.quiet quiet).note rfl
  | broken admitted harmful => exact hbounded.attempt hregime hceiling admitted _
  | unsettled admitted => exact (hbounded.attempt hregime hceiling admitted _).note rfl
  | concluded admitted benign within quiet resolving caught next =>
    exact ((hbounded.attempt hregime hceiling admitted _).quiet quiet).resolving hregime resolving

end Ceiling

/-! ### The pool -/

section Pool

variable {ι : Type} {setting : Setting ι}

/-- What the executions of a pool are asked for: a request for each, and for each candidate
what is posted for it. -/
structure Workload (ι : Type) where
  live : ι → LiveRequest
  posts : ι → ℕ → TransportRequest
  providerIdOf : ServedPayload → String

/-- The workload is posted under the ids of its executions, and observes the hard limit of the
regime. -/
structure Workload.Governed (workload : Workload ι) (setting : Setting ι) : Prop where
  execution : ∀ i index, (workload.posts i index).debitExecutionId = setting.executionId i
  limit : ∀ regime limit, setting.regime = some regime → regime.limit = some limit →
    ∀ i index, (workload.posts i index).hardLimit = some limit

/-- The executions of a workload, at work on one ledger. -/
def pool (setting : Setting ι) (workload : Workload ι) (w : World ι) :
    Machine.Config Call.Answer ι (World ι)
      (Except PythonError (Except GatewayError (ExecutionResponse ServedPayload))) where
  store := w
  threads i := (executeTextGeneration (executionControls setting.lib (workload.posts i))
    workload.providerIdOf (workload.live i)).run

variable [DecidableEq ι] {workload : Workload ι} {i : ι} {I E : View → Prop}

/-- An execution keeps what its rounds keep. -/
theorem Workload.Governed.keeps (h : workload.Governed setting) (hclear : ∀ v, I v → Clear v)
    (hround : ∀ {index now attemptIndex state v out v'}, I v →
      RoundStep setting ((workload.posts i index).forAttempt now) attemptIndex state v out v' →
      EndsIn I E out v') :
    Keeps setting i I E _ (executeTextGeneration
      (executionControls setting.lib (workload.posts i)) workload.providerIdOf
      (workload.live i)) := by
  refine keeps_executeTextGeneration (fun index now v hv => ?_) _ _
  refine wp_postOpenaiCompatibleResponse ?_ ?_ ?_ hround hv
  · rw [TransportRequest.forAttempt_debitExecutionId]
    exact h.execution i index
  · intro regime limit hregime hlimit
    rw [TransportRequest.forAttempt_hardLimit]
    exact h.limit regime limit hregime hlimit i index
  · exact fun v hv _ id row => (hclear v hv).ne

omit [DecidableEq ι] in
theorem soundLedger_of {regime : Regime} (hregime : setting.regime = some regime) {w : World ι}
    (hledger : ExactStore setting.budgetKey w.ledger)
    (hcounter : ∀ limit, regime.limit = some limit →
      w.ledger.counter setting.budgetKey ≤ limit) : SoundLedger setting w := by
  refine ⟨hledger, fun regime' limit hregime' hlimit => ?_⟩
  obtain rfl := Option.mem_unique hregime hregime'
  exact hcounter limit hlimit

/-- From a sound ledger with nothing pending for the executions, an attempt never settles to
more than it reserved, whatever the other executions do; under a hard limit the counter never
exceeds it. -/
theorem settled_le_reserved (setting : Setting ι) {regime : Regime}
    (hregime : setting.regime = some regime) (workload : Workload ι)
    (hgoverned : workload.Governed setting) (w : World ι)
    (hledger : ExactStore setting.budgetKey w.ledger)
    (hcounter : ∀ limit, regime.limit = some limit → w.ledger.counter setting.budgetKey ≤ limit)
    (hclear : ∀ i, Clear (viewOf setting i w))
    {c : Machine.Config Call.Answer ι (World ι)
      (Except PythonError (Except GatewayError (ExecutionResponse ServedPayload)))}
    (hreach : (ledgerMachine setting).Reach (fun _ _ _ => True) (pool setting workload w) c) :
    (∀ i debitId basis e k, c.threads i = .call (.settleAttemptDebit debitId basis e) k →
      ∀ row, c.store.ledger.attemptDebits.get? debitId = some row → row.basis = .reservedMax →
        e.amountUsd ≤ row.amountUsd) ∧
    ∀ limit, regime.limit = some limit →
      c.store.ledger.counter setting.budgetKey ≤ limit := by
  obtain ⟨hsound', hwp⟩ := Locality.reach (soundLedger_of hregime hledger hcounter)
    (fun i => hgoverned.keeps (fun v hv => hv) (fun hv hstep => hstep.clear hv) _ (hclear i)) hreach
  refine ⟨fun i debitId basis e k hnext row hrow hpending => ?_, fun limit hlimit => ?_⟩
  · -- a thread that is verified may perform its next call
    have hnow := hwp i
    rw [hnext] at hnow
    obtain ⟨howned, -, hamount⟩ := hnow.1
    exact hamount (by rw [hregime]; rfl) row ((get?_viewOf howned).trans hrow) hpending
  · exact hsound'.limited regime limit hregime hlimit

end Pool

/-! ### One execution -/

/-- The flat card is in force throughout. -/
def flatRegime (limit : Option ℚ) : Regime := ⟨fun _ => flatCard, limit⟩

/-- One execution under the flat card. -/
abbrev flatExecution (limit : Option ℚ) : Setting Unit := singleExecution (some (flatRegime limit))

/-- One execution, by the fixed route, under a hard limit of five dollars if there is one. -/
def singleWorkload (ceiling : Option ℚ) (limited : Bool) : Workload Unit where
  live _ :=
    { blocked := none
      route := .fixed
        { authorization := ⟨"lotus-desk", true, ""⟩
          findings := []
          config := ⟨some "openai", some "m-1", none, none⟩
          executionConfig := ⟨some "openai", some "m-1", none, none⟩
          modeValue := "openai"
          requirements := none } }
  posts _ _ := { plainRequest with
    costCeilingUsd := ceiling
    budgetEnforced := limited
    hardBudgetUsd := some 5 }
  providerIdOf _ := "openai"

/-- An environment in which all controls pass. -/
def passing (result : AttemptResult) : Answers :=
  { answering result with
    entry := .ok ⟨"openai:m-1", "cand2_0", "openai", "m-1", true, .production⟩ }

theorem governed_single (ceiling : Option ℚ) {limited : Bool} {limit : Option ℚ}
    (h : limit = if limited then some 5 else none) :
    (singleWorkload ceiling limited).Governed (flatExecution limit) where
  execution _ _ := rfl
  limit regime l hregime hl _ _ := by
    cases hregime
    rw [← hl, flatRegime, h]
    rfl

theorem clear_fresh (regime : Option Regime) (i : Unit) :
    Clear (viewOf (singleExecution regime) i .fresh) :=
  fun _ _ hrow => nomatch hrow

theorem exactStore_fresh : ExactStore "live" (World.fresh).ledger :=
  (Run.nil : Run .memory "live" [] .empty).exactStore

/-- Reported usage settles below the reservation, and the counter stays below the limit. -/
theorem settled_le_reserved_usage :
    ∃ c, (ledgerMachine (flatExecution (some 5))).Reach (fun _ _ _ => True)
        (pool (flatExecution (some 5)) (singleWorkload none true) .fresh) c ∧
      (c.store.ledger.attemptDebits.get? (plainRequest.debitId listLibraries 0)).map
        AttemptDebitRecord.basis = some .actualUsage ∧
      c.store.ledger.counter "live" ≤ 5 := by
  have hrun : ((ledgerMachine (flatExecution (some 5))).schedule
      (fun _ _ _ => True) (pool (flatExecution (some 5)) (singleWorkload none true) .fresh)
      (List.replicate 18 ((), passing (.responded (.ok usageBody))))).map
      (fun c => (c.store.ledger.attemptDebits.get? (plainRequest.debitId listLibraries 0)).map
        AttemptDebitRecord.basis) = some (some .actualUsage) := by
    decide +kernel
  obtain ⟨c, hschedule, hbasis⟩ := Option.map_eq_some_iff.mp hrun
  have hreach := Machine.reach_of_schedule hschedule
  exact ⟨c, hreach, hbasis, (settled_le_reserved _ rfl _ (governed_single none rfl) .fresh
    exactStore_fresh (fun limit hlimit => by cases hlimit; decide +kernel) (clear_fresh _)
    hreach).2 5 rfl⟩

end LotusAI.Provider
