import LotusAI.Provider.Accounting

/-!
# What a round of the transport does

A specification of each part of a round on the view of its execution, and of the round as
a whole: `RoundStep` lists the ways a round can go, with what each of them leaves of the
debits and of the journal. What holds of whole runs is derived from it.
-/

namespace LotusAI.Provider

open Lib Budget Locality

/-! ### The ways of a round -/

/-- Nothing happened but that prices were asked for. -/
structure Quiet (v v' : View) : Prop where
  debits : v'.debits = v.debits
  events : ∃ costs : List UsageCostEstimate,
    v'.events = v.events ++ costs.map fun cost => .estimated (.ok cost)

variable (v : View)

theorem Quiet.refl : Quiet v v := ⟨rfl, [], (List.append_nil _).symm⟩

variable {v' : View} (posted : Posted) (result : AttemptResult) {basis : DebitBasis}
  {regime : Regime}

theorem Quiet.trans {v v'' : View} (h : Quiet v v') (h' : Quiet v' v'') : Quiet v v'' := by
  obtain ⟨costs, hcosts⟩ := h.events
  obtain ⟨costs', hcosts'⟩ := h'.events
  refine ⟨h'.debits.trans h.debits, costs ++ costs', ?_⟩
  rw [hcosts', hcosts, List.map_append, List.append_assoc]

theorem Quiet.note_estimated (cost : UsageCostEstimate) :
    Quiet v (v.note (.estimated (.ok cost))) := ⟨rfl, [cost], rfl⟩

theorem Quiet.lastAttempt_eq {v : View} (h : Quiet v v') :
    lastAttempt v'.events = lastAttempt v.events := by
  obtain ⟨costs, hcosts⟩ := h.events
  rw [hcosts]
  simp [lastAttempt, List.filterMap_append, List.filterMap_map, Event.attempt?, Function.comp_def]

/-- An attempt is made. -/
def View.attempt (v : View) (posted : Posted) (result : AttemptResult) : View :=
  v.note (.attempted posted (v.othersOf posted.debitId) result)

@[simp] theorem View.attempt_debits :
    (v.attempt posted result).debits = v.debits := rfl

@[simp] theorem View.lastAttempt_attempt :
    lastAttempt (v.attempt posted result).events = some (posted, result) :=
  lastAttempt_append_attempted ..

/-- A failure that is stated not to be billable. -/
def AttemptResult.nonBillable : AttemptResult → Bool
  | .urlError => true
  | .httpError code _ => code < 500
  | _ => false

/-- A result the transport has an arm for, with a body it can read. -/
def AttemptResult.benign (lib : Libraries) : AttemptResult → Bool
  | .responded (.ok body) =>
    match lib.loads body with
    | .ok (.object _) => true
    | _ => false
  | .responded (.error .timedOut) => true
  | .responded (.error .dropped) => false
  | .httpError _ body => (loadErrorPayload lib body).toOption.isSome
  | .timeout => true
  | .urlError => true

/-- The attempt round `attemptIndex` posts. -/
def postedOf (lib : Libraries) (request : TransportRequest) (attemptIndex : ℕ) (state : LoopState)
    (timeout : ℚ) : Posted :=
  ⟨request.debitId lib attemptIndex, request.bodyBytes, state.inputEstimate,
    request.maxOutputTokens, timeout⟩

section Ways

variable {ι : Type} (setting : Setting ι) (request : TransportRequest) (attemptIndex : ℕ)

/-- The governed maximum of an attempt under the card in force. -/
def maximumOf (regime : Regime) (posted : Posted) : ℚ :=
  (exactPrice (regime.cardOf posted.debitId) posted.bodyBytes posted.maxOutputTokens).usd

/-- The conservative estimate of an attempt under the card in force. -/
def estimateOf (regime : Regime) (posted : Posted) : ℚ :=
  (exactPrice (regime.cardOf posted.debitId) posted.inputEstimate posted.maxOutputTokens).usd

/-- The reservation of an attempt, if one is made. -/
inductive Reserving (posted : Posted) (v : View) : View → Prop
  | reserved (record : AttemptDebitRecord) (debitId : record.debitId = posted.debitId)
      (fresh : v.debits.get? posted.debitId = none) (basis : record.basis = .reservedMax)
      (nonneg : 0 ≤ record.amountUsd)
      (amount : ∀ regime, setting.regime = some regime →
        record.amountUsd = maximumOf regime posted) :
      Reserving posted v ((v.save posted.debitId record).note (.reserved posted.debitId))
  | without : Reserving posted v v

/-- The resolution of a reservation behind a result, if there is one to resolve. -/
inductive Resolving (debitId : String) (result : AttemptResult) (v : View) : View → Prop
  | settled (row : AttemptDebitRecord) (basis : DebitBasis) (e : Evidence)
      (found : v.debits.get? debitId = some row) (pending : row.basis = .reservedMax)
      (final : basis ≠ .reservedMax) (released : basis = .released → result.nonBillable)
      (nonneg : 0 ≤ e.amountUsd)
      (amount : setting.regime.isSome → e.amountUsd ≤ row.amountUsd) :
      Resolving debitId result v ((v.save debitId (row.resolved basis e)).note
        (.resolved debitId (.ofBasis basis) (some result)))
  | held (row : AttemptDebitRecord) (heldAt : String)
      (found : v.debits.get? debitId = some row) (pending : row.basis = .reservedMax) :
      Resolving debitId result v ((v.save debitId
        { row with basis := .unresolvedMax, recordedAt := heldAt }).note
        (.resolved debitId .held (some result)))
  | without (none : ∀ row, v.debits.get? debitId = some row → row.basis ≠ .reservedMax) :
      Resolving debitId result v v

/-- The attempt fits into what the caller's ceiling leaves. -/
def Fits (posted : Posted) (v : View) : Prop :=
  ∀ ceiling, request.costCeilingUsd = some ceiling → ∀ regime, setting.regime = some regime →
    totalOf v.debits + estimateOf regime posted ≤ ceiling

/-- An attempt that is about to start: it fits, and has been reserved for where there is a
price. -/
structure Admitted (state : LoopState) (v : View) (posted : Posted) (ready : View) : Prop where
  debitId : posted.debitId = request.debitId setting.lib attemptIndex
  bytes : posted.bodyBytes = request.bodyBytes
  estimate : posted.inputEstimate = state.inputEstimate
  fits : Fits setting request posted v
  reserving : ∃ mid, Quiet v mid ∧ Reserving setting posted mid ready

/-- The ways a round can go, from the view it starts in. -/
inductive RoundStep (state : LoopState) (v : View) : Except TransportError Round → View → Prop
  /-- Refused before the attempt. -/
  | declined {e : ProviderError} {v' : View} (quiet : Quiet v v') :
      RoundStep state v (.error (.provider e)) v'
  /-- A price for the admission raised. -/
  | unpriced {e : PythonError} {mid : View} (quiet : Quiet v mid) :
      RoundStep state v (.error (.uncaught e)) (mid.note (.estimated (.error e)))
  /-- The result of the attempt raised. -/
  | broken {e : PythonError} {ready : View} {posted : Posted} {result : AttemptResult}
      (admitted : Admitted setting request attemptIndex state v posted ready)
      (harmful : result.benign setting.lib = false) :
      RoundStep state v (.error (.uncaught e)) (ready.attempt posted result)
  /-- The price for the boundary raised. -/
  | unsettled {e : PythonError} {ready : View} {posted : Posted} {result : AttemptResult}
      (admitted : Admitted setting request attemptIndex state v posted ready) :
      RoundStep state v (.error (.uncaught e))
        ((ready.attempt posted result).note (.estimated (.error e)))
  /-- The attempt was accounted for. -/
  | concluded {out : Except TransportError Round} {ready after v' : View} {posted : Posted}
      {result : AttemptResult}
      (admitted : Admitted setting request attemptIndex state v posted ready)
      (benign : result.benign setting.lib)
      (within : setting.regime.isSome → result.within setting.lib posted)
      (quiet : Quiet (ready.attempt posted result) after)
      (resolving : Resolving setting posted.debitId result after v')
      (caught : ∀ e, out ≠ .error (.uncaught e))
      (next : ∀ state', out = .ok (.retry state') →
        state'.inputEstimate = (reportedUsage setting.lib result).1.getD state.inputEstimate) :
      RoundStep state v out v'

end Ways

/-! ### Prices -/

section Prices

variable {ι : Type} {setting : Setting ι}

/-- What an attempt is priced as: the basis and the token counts. -/
def pricedAs (posture : String) (evidence : AttemptEvidence) : Option (DebitBasis × ℕ × ℕ) :=
  match evidence.inputTokens, evidence.outputTokens with
  | some inputTokens, some outputTokens => some (.actualUsage, inputTokens, outputTokens)
  | _, _ =>
    if posture = "conservative" ∧ evidence.billableRisk then
      some (.conservativeEstimate, evidence.fallbackInputEstimate, evidence.maxOutputTokens)
    else none

theorem priceAttempt_eq {m : Type → Type} [Monad m] (estimate : ℕ → ℕ → m UsageCostEstimate)
    (posture : String) (evidence : AttemptEvidence) :
    priceAttempt estimate posture evidence =
      match pricedAs posture evidence with
      | none => pure none
      | some (basis, inputTokens, outputTokens) => do
        let cost ← estimate inputTokens outputTokens
        return cost.debit? basis inputTokens outputTokens := by
  obtain ⟨inputTokens, outputTokens, billableRisk, fallback, maxOutput⟩ := evidence
  cases inputTokens with
  | none =>
    simp only [priceAttempt, pricedAs]
    split_ifs <;> rfl
  | some input =>
    cases outputTokens with
    | none =>
      simp only [priceAttempt, pricedAs]
      split_ifs <;> rfl
    | some output => rfl

/-- A debit carries the basis it is priced as, and under a regime the price of its card. -/
def PricedBy (setting : Setting ι) (debitId : String) (posture : String)
    (evidence : AttemptEvidence) (debit : AttemptDebit) : Prop :=
  ∃ basis inputTokens outputTokens,
    pricedAs posture evidence = some (basis, inputTokens, outputTokens) ∧ debit.basis = basis ∧
    ∀ regime, setting.regime = some regime →
      debit.amount = exactPrice (regime.cardOf debitId) inputTokens outputTokens

variable {inputTokens outputTokens : ℕ}

theorem pricedBy_of_estimate {debitId posture : String} {evidence : AttemptEvidence} {cost : UsageCostEstimate}
    (has : pricedAs posture evidence = some (basis, inputTokens, outputTokens))
    (hcost : ∀ regime, setting.regime = some regime →
      (.ok cost : Except PythonError UsageCostEstimate) =
        estimateWith (some (regime.cardOf debitId)) inputTokens outputTokens) {debit : AttemptDebit}
    (hdebit : cost.debit? basis inputTokens outputTokens = some debit) :
    PricedBy setting debitId posture evidence debit := by
  unfold UsageCostEstimate.debit? at hdebit
  split at hdebit
  · rename_i amount rateCardRef hamount href
    cases hdebit
    refine ⟨basis, inputTokens, outputTokens, has, rfl, fun regime hregime => ?_⟩
    have hestimate := hcost regime hregime
    unfold estimateWith price at hestimate
    split_ifs at hestimate with hfits
    · cases hestimate
      exact (Option.some.inj hamount).symm
    · cases hestimate
  · cases hdebit

/-- The price of usage that stays within what was sent is at most the governed maximum. -/
theorem price_le_maximumOf {posted : Posted} {result : AttemptResult}
    {lib : Libraries} (hwithin : result.within lib posted)
    (husage : reportedUsage lib result = (some inputTokens, some outputTokens)) :
    (exactPrice (regime.cardOf posted.debitId) inputTokens outputTokens).usd ≤
      maximumOf regime posted := by
  simp only [AttemptResult.within, husage, Option.all_some, Bool.and_eq_true,
    decide_eq_true_eq] at hwithin
  exact exactPrice_mono _ hwithin.1 hwithin.2

end Prices

/-! ### Resolutions -/

section Resolutions

variable {ι : Type} {setting : Setting ι} {v : View} {debitId : String} {done : Bool}
  {result : AttemptResult}

/-- What is done to a pending reservation behind an attempt. -/
theorem resolving_of_settles {e : Evidence}
    (hresolves : Resolves debitId (.ofBasis basis) (·.resolved basis e) done v v')
    (hlast : (lastAttempt v.events).map Prod.snd = some result) (hfinal : basis ≠ .reservedMax)
    (hreleased : basis = .released → result.nonBillable) (hnonneg : 0 ≤ e.amountUsd)
    (hamount : setting.regime.isSome → ∀ row, v.debits.get? debitId = some row →
      row.basis = .reservedMax → e.amountUsd ≤ row.amountUsd) :
    Resolving setting debitId result v v' := by
  rcases hresolves with ⟨-, row, hfound, hpending, rfl⟩ | ⟨-, rfl, hnone⟩
  · rw [hlast]
    exact .settled row basis e hfound hpending hfinal hreleased hnonneg fun hregime =>
      hamount hregime row hfound hpending
  · exact .without hnone

theorem resolving_of_holds {heldAt : String}
    (hresolves : Resolves debitId .held
      (fun row => { row with basis := .unresolvedMax, recordedAt := heldAt }) done v v')
    (hlast : (lastAttempt v.events).map Prod.snd = some result) :
    Resolving setting debitId result v v' := by
  rcases hresolves with ⟨-, row, hfound, hpending, rfl⟩ | ⟨-, rfl, hnone⟩
  · rw [hlast]
    exact .held row heldAt hfound hpending
  · exact .without hnone

/-- What is pending for an attempt that has been admitted is its governed maximum. -/
theorem Admitted.pending {request : TransportRequest} {attemptIndex : ℕ} {state : LoopState}
    {posted : Posted} {ready : View}
    (h : Admitted setting request attemptIndex state v posted ready)
    (hnone : setting.regime.isSome → ∀ id row, v.debits.get? id = some row →
      row.basis ≠ .reservedMax) (hregime : setting.regime = some regime) {row : AttemptDebitRecord}
    (hfound : ready.debits.get? posted.debitId = some row) (hbasis : row.basis = .reservedMax) :
    row.amountUsd = maximumOf regime posted := by
  obtain ⟨mid, hquiet, hreserving⟩ := h.reserving
  cases hreserving with
  | reserved record _ _ _ _ amount =>
    rw [View.note_debits, View.save_debits, Dict.get?_insert_self] at hfound
    cases hfound
    exact amount regime hregime
  | without =>
    rw [hquiet.debits] at hfound
    exact absurd hbasis (hnone (by rw [hregime]; rfl) _ row hfound)

end Resolutions

/-! ### How parts end -/

/-- A part of the transport ends in `I`, or in `E` with an exception it has no arm for. -/
def EndsIn {α : Type} (I E : View → Prop) (out : Except TransportError α) (v : View) : Prop :=
  match out with
  | .error (.uncaught _) => E v
  | _ => I v

theorem endsIn_of_caught {α : Type} {I E : View → Prop} {out : Except TransportError α} {v : View}
    (hv : I v) (hcaught : ∀ e, out ≠ .error (.uncaught e)) : EndsIn I E out v := by
  match out with
  | .error (.uncaught e) => exact absurd rfl (hcaught e)
  | .error (.provider e) | .ok a => exact hv

/-! ### Parts that only look -/

section Specs

variable {ι : Type} {setting : Setting ι} {i : ι} {request : TransportRequest} {β : Type} {v : View}

/-- The calls that change nothing an execution sees. -/
def Call.silent : Call → Bool
  | .monotonic | .jitter | .sleep _ | .utcNow | .control _ | .bindCatalogueEntry _ => true
  | .readPayload .. => true
  | _ => false

variable [DecidableEq ι] {call : Call} {executionId id : String} {billableRisk : Bool}

/-- They are always permitted, and leave the view as it is. -/
theorem silent_same (setting : Setting ι) (i : ι) (hsilent : call.silent) (v : View) :
    (accounting setting).permitted i call v ∧
      ∀ answer v', (accounting setting).step i call answer v v' → v' = v := by
  cases call with
  | monotonic | jitter | utcNow | sleep | control | bindCatalogueEntry | readPayload =>
    exact ⟨trivial, fun _ _ hstep => hstep⟩
  | _ => cases hsilent

theorem wp_silent (hsilent : call.silent) {f : call.Answer → Transport β}
    {Q : Except TransportError β → View → Prop}
    (h : ∀ answer, (accounting setting).wp i (f answer).run Q v) :
    (accounting setting).wp i (ExceptT.run (ask call >>= f)) Q v := by
  obtain ⟨hpermitted, hsame⟩ := silent_same setting i hsilent v
  refine ⟨hpermitted, fun answer v' hstep => ?_⟩
  rw [hsame answer v' hstep]
  exact h answer

theorem wp_planRetry (retryIndex : ℕ) (deadlineAt : ℚ)
    {Q : Except TransportError RetryDecision → View → Prop}
    (h : ∀ decision, Q (.ok decision) v) :
    (accounting setting).wp i (planRetry retryIndex deadlineAt).run Q v := by
  apply wp_silent rfl
  intro jitter
  apply wp_silent rfl
  intro instant
  exact h _

theorem wp_remainingTimeout (timeoutSeconds : ℚ) {Q : Except TransportError ℚ → View → Prop}
    (hok : ∀ timeout, Q (.ok timeout) v) (herror : ∀ e, Q (.error (.provider e)) v) :
    (accounting setting).wp i (remainingTimeout request timeoutSeconds).run Q v := by
  unfold remainingTimeout
  cases request.executionDeadlineAt with
  | none => exact hok _
  | some deadline =>
    apply wp_silent rfl
    intro now
    split_ifs
    · exact herror _
    · exact hok _

variable {Q : Except TransportError Unit → View → Prop}

theorem wp_governedDeadlineStop (retryable : Bool) (attemptIndex : ℕ) (delaySeconds : ℚ)
    (hok : Q (.ok ()) v) (herror : ∀ e, Q (.error (.provider e)) v) :
    (accounting setting).wp i
      (governedDeadlineStop request retryable attemptIndex delaySeconds).run Q v := by
  unfold governedDeadlineStop
  cases request.executionDeadlineAt with
  | none => exact hok
  | some deadline =>
    split_ifs
    · exact hok
    · apply wp_silent rfl
      intro now
      split_ifs
      · exact hok
      · exact herror _

/-- Pricing is quiet, unless the estimate raises. -/
theorem wp_priceAttempt (attemptIndex : ℕ) (posture : String) (evidence : AttemptEvidence)
    {Q : Except TransportError (Option AttemptDebit) → View → Prop}
    (hok : ∀ debit v', Quiet v v' →
      (∀ d, debit = some d →
        PricedBy setting (request.debitId setting.lib attemptIndex) posture evidence d) →
      Q (.ok debit) v')
    (herror : ∀ e, Q (.error (.uncaught e)) (v.note (.estimated (.error e)))) :
    (accounting setting).wp i
      (priceAttempt (estimateFor setting.lib request attemptIndex) posture evidence).run Q v := by
  rw [priceAttempt_eq]
  cases has : pricedAs posture evidence with
  | none => exact hok none v (.refl v) nofun
  | some priced =>
    obtain ⟨basis, inputTokens, outputTokens⟩ := priced
    refine ⟨trivial, fun outcome v' hstep => ?_⟩
    obtain ⟨rfl, hregime⟩ := hstep
    cases outcome with
    | ok cost =>
      exact hok _ _ (Quiet.note_estimated v cost) fun d hd => pricedBy_of_estimate has hregime hd
    | error e => exact herror e

/-! ### Admission -/

theorem ownedBy_of_canonicalFront (h : beginsWith (canonicalFront executionId) id) :
    ownedBy executionId id := by
  rw [ownedBy, h, Bool.true_or]

theorem ownedBy_of_legacyFront (h : beginsWith (legacyFront executionId) id) :
    ownedBy executionId id := by
  rw [ownedBy, h, Bool.or_true]

variable (hexecution : request.debitExecutionId = setting.executionId i)
  (attemptIndex inputEstimate : ℕ) {result : AttemptResult}

include hexecution

/-- Cost admission is quiet, and lets an attempt pass only if its estimate fits. -/
theorem wp_admitCost (ceiling : ℚ)
    (hok : ∀ v', Quiet v v' →
      (∀ regime, setting.regime = some regime → totalOf v.debits +
        (exactPrice (regime.cardOf (request.debitId setting.lib attemptIndex)) inputEstimate
          request.maxOutputTokens).usd ≤ ceiling) → Q (.ok ()) v')
    (hdeclined : ∀ e v', Quiet v v' → Q (.error (.provider e)) v')
    (herror : ∀ e, Q (.error (.uncaught e)) (v.note (.estimated (.error e)))) :
    (accounting setting).wp i
      (admitCost setting.lib request attemptIndex inputEstimate ceiling).run Q v := by
  rw [admitCost, wp_bindRaising]
  refine wp_priceAttempt attemptIndex _ _ (fun debit v' hquiet hdebit => ?_) herror
  cases debit with
  | none => exact hdeclined _ v' hquiet
  | some debit =>
    obtain ⟨basis, inputTokens, outputTokens, has, -, hamount⟩ := hdebit debit rfl
    obtain ⟨rfl, rfl, rfl⟩ : basis = .conservativeEstimate ∧ inputTokens = inputEstimate ∧
        outputTokens = request.maxOutputTokens := by
      simpa [pricedAs, eq_comm] using has
    -- the two sums are what is recorded for the execution
    refine wp_ask.mpr ⟨trivial, fun canonical v₁ hcanonical =>
      wp_ask.mpr ⟨trivial, fun legacy v₂ hlegacy => ?_⟩⟩
    obtain ⟨rfl, hgrid, howned, hsum⟩ := hcanonical
    obtain ⟨rfl, hgrid', -, hsum'⟩ := hlegacy
    have htotal : canonical + legacy = totalOf v.debits := by
      rw [hexecution] at hsum hsum'
      rw [hsum fun id => ownedBy_of_canonicalFront, hsum' fun id => ownedBy_of_legacyFront,
        totalOf_fronts howned, hquiet.debits]
    split_ifs with hexceeds
    · exact hdeclined _ _ hquiet
    · refine hok _ hquiet fun regime hregime => ?_
      rw [round8_of_onGrid ((hgrid.add hgrid').add debit.amount.exact), htotal,
        hamount regime hregime] at hexceeds
      exact not_lt.mp hexceeds

section

variable (hlimit : ∀ regime limit, setting.regime = some regime → regime.limit = some limit →
  request.hardLimit = some limit)

include hlimit

/-- A reservation is made before the attempt where there is a price, or the attempt is
refused. -/
theorem wp_reserveAttempt (attemptIndex : ℕ)
    (state : LoopState) (timeout : ℚ)
    (hok : ∀ mid ready, Quiet v mid →
      Reserving setting (postedOf setting.lib request attemptIndex state timeout) mid ready →
      Q (.ok ()) ready) (hdeclined : ∀ e v', Quiet v v' → Q (.error (.provider e)) v')
    (herror : ∀ e, Q (.error (.uncaught e)) (v.note (.estimated (.error e)))) :
    (accounting setting).wp i (reserveAttempt setting.lib request attemptIndex).run Q v := by
  rw [reserveAttempt, wp_bindRaising]
  refine wp_priceAttempt attemptIndex _ _ (fun debit mid hquiet hdebit => ?_) herror
  cases debit with
  | none =>
    split_ifs
    · exact hdeclined _ mid hquiet
    · exact hok mid mid hquiet .without
  | some debit =>
    obtain ⟨basis, inputTokens, outputTokens, has, -, hamount⟩ := hdebit debit rfl
    obtain ⟨rfl, rfl, rfl⟩ : basis = .conservativeEstimate ∧ inputTokens = request.bodyBytes ∧
        outputTokens = request.maxOutputTokens := by
      simpa [pricedAs, eq_comm] using has
    apply wp_silent rfl
    intro now
    have howned : ownedBy (setting.executionId i) (request.debitId setting.lib attemptIndex) := by
      rw [← hexecution]
      exact ownedBy_attemptDebitId ..
    refine wp_ask.mpr
      ⟨⟨howned, debit.amount.exact, hlimit⟩, fun outcome ready hreserve => ?_⟩
    rcases hreserve with ⟨rfl, hfresh, rfl⟩ | ⟨hother, rfl⟩
    · refine hok mid _ hquiet (.reserved _ rfl hfresh rfl debit.amount.nonneg ?_)
      intro regime hregime
      exact congrArg Amount.usd (hamount regime hregime)
    · split_ifs
      · exact hdeclined _ _ hquiet
      · exact hok _ _ hquiet .without

theorem wp_admitAttempt
    (attemptIndex : ℕ) (state : LoopState) {Q : Except TransportError ℚ → View → Prop}
    (hok : ∀ timeout ready, Admitted setting request attemptIndex state v
      (postedOf setting.lib request attemptIndex state timeout) ready → Q (.ok timeout) ready)
    (hdeclined : ∀ e v', Quiet v v' → Q (.error (.provider e)) v')
    (herror : ∀ e mid, Quiet v mid →
      Q (.error (.uncaught e)) (mid.note (.estimated (.error e)))) :
    (accounting setting).wp i (admitAttempt setting.lib request attemptIndex state).run Q v := by
  rw [admitAttempt, wp_bindRaising]
  refine wp_remainingTimeout _ (fun timeout => ?_) fun e => hdeclined e v (.refl v)
  -- what is left once the attempt is known to fit
  have hreserve : ∀ mid, Quiet v mid →
      Fits setting request (postedOf setting.lib request attemptIndex state timeout) v →
      (accounting setting).wp i (ExceptT.run (do
        reserveAttempt setting.lib request attemptIndex
        return timeout)) Q mid := by
    intro mid hquiet hfits
    rw [wp_bindRaising]
    refine wp_reserveAttempt hexecution hlimit attemptIndex state timeout ?_ ?_ ?_
    · intro mid' ready hquiet' hreserving
      exact hok timeout ready ⟨rfl, rfl, rfl, hfits, mid', hquiet.trans hquiet', hreserving⟩
    · exact fun e v' hquiet' => hdeclined e v' (hquiet.trans hquiet')
    · exact fun e => herror e mid hquiet
  cases hceiling : request.costCeilingUsd with
  | none =>
    refine hreserve v (.refl v) fun ceiling hsome => ?_
    rw [hceiling] at hsome
    cases hsome
  | some ceiling =>
    dsimp only
    rw [wp_bindRaising]
    refine wp_admitCost hexecution attemptIndex _ ceiling ?_ hdeclined fun e => herror e v (.refl v)
    intro mid hquiet hfits
    refine hreserve mid hquiet fun ceiling' hsome regime hregime => ?_
    obtain rfl := Option.mem_unique hceiling hsome
    exact hfits regime hregime

end

/-! ### The boundary -/

omit hexecution in
/-- The settlement behind an attempt resolves its reservation. Reported usage is settled to its
price, a failure that is not billable is released, everything else is held. -/
theorem wp_settleAttemptSpend {debitId : String} (howned : ownedBy (setting.executionId i) debitId)
    {debit : Option AttemptDebit}
    (hlast : (lastAttempt v.events).map Prod.snd = some result)
    (hrisk : billableRisk = false → result.nonBillable)
    (hrow : setting.regime.isSome → ∀ row, v.debits.get? debitId = some row →
      row.basis = .reservedMax → 0 ≤ row.amountUsd ∧
        ∀ d, debit = some d → d.basis = .actualUsage → d.amount.usd ≤ row.amountUsd)
    {Q : Except TransportError Bool → View → Prop}
    (hok : ∀ done v', Resolving setting debitId result v v' → Q (.ok done) v') :
    (accounting setting).wp i (settleAttemptSpend debitId debit billableRisk).run Q v := by
  apply wp_silent rfl
  intro now
  have hhold : (accounting setting).wp i
      (ExceptT.run (ask (.holdAttemptDebitUnresolved debitId now))) Q v :=
    ⟨howned, fun done v' hstep => hok done v' (resolving_of_holds hstep hlast)⟩
  cases debit with
  | none =>
    split_ifs with hbillable
    · exact hhold
    · refine ⟨⟨howned, OnGrid.zero, ?_⟩, fun done v' hstep => hok done v' ?_⟩
      · exact fun hregime row hfound hpending => (hrow hregime row hfound hpending).1
      · exact resolving_of_settles hstep hlast (by decide)
          (fun _ => hrisk (by simpa using hbillable)) le_rfl
          fun hregime row hfound hpending => (hrow hregime row hfound hpending).1
  | some debit =>
    dsimp only
    split_ifs with hbasis
    · exact hhold
    · have hactual : debit.basis = .actualUsage := not_not.mp hbasis
      refine ⟨⟨howned, debit.amount.exact, ?_⟩, fun done v' hstep => hok done v' ?_⟩
      · exact fun hregime row hfound hpending =>
          (hrow hregime row hfound hpending).2 debit rfl hactual
      · refine resolving_of_settles hstep hlast ?_ ?_ debit.amount.nonneg
          fun hregime row hfound hpending => (hrow hregime row hfound hpending).2 debit rfl hactual
        · rw [hactual]
          decide
        · rw [hactual]
          exact nofun

/-- The boundary behind an attempt prices its evidence and resolves its reservation. -/
theorem wp_debitBoundary {usage : Option ℕ × Option ℕ}
    {posted : Posted}
    (hid : posted.debitId = request.debitId setting.lib attemptIndex)
    (hlast : lastAttempt v.events = some (posted, result))
    (husage : usage = reportedUsage setting.lib result)
    (hrisk : billableRisk = false → result.nonBillable)
    (hwithin : setting.regime.isSome → result.within setting.lib posted)
    (hpending : ∀ regime, setting.regime = some regime → ∀ row,
      v.debits.get? posted.debitId = some row → row.basis = .reservedMax →
      row.amountUsd = maximumOf regime posted)
    {Q : Except TransportError (Option AttemptDebit) → View → Prop}
    (hok : ∀ debit after v', Quiet v after → Resolving setting posted.debitId result after v' →
      Q (.ok debit) v') (herror : ∀ e, Q (.error (.uncaught e)) (v.note (.estimated (.error e)))) :
    (accounting setting).wp i (debitBoundary setting.lib request attemptIndex inputEstimate usage
      billableRisk).run Q v := by
  subst husage
  rw [debitBoundary, wp_bindRaising]
  refine wp_priceAttempt attemptIndex _ _ (fun debit after hquiet hdebit => ?_) herror
  rw [← hid] at hdebit ⊢
  have howned : ownedBy (setting.executionId i) posted.debitId := by
    rw [hid, ← hexecution]
    exact ownedBy_attemptDebitId ..
  dsimp only
  rw [wp_bindRaising]
  have hafter : (lastAttempt after.events).map Prod.snd = some result := by
    rw [hquiet.lastAttempt_eq, hlast]
    rfl
  refine wp_settleAttemptSpend howned hafter hrisk ?_
    fun done v' hresolving => hok debit after v' hquiet hresolving
  · intro hregime row hfound hbasis
    obtain ⟨regime, hsome⟩ := Option.isSome_iff_exists.mp hregime
    rw [hquiet.debits] at hfound
    rw [hpending regime hsome row hfound hbasis]
    refine ⟨Amount.nonneg _, fun d hd hactual => ?_⟩
    obtain ⟨basis, inputTokens, outputTokens, has, rfl, hamount⟩ := hdebit d hd
    rw [hactual] at has
    rw [hamount regime hsome]
    apply price_le_maximumOf (hwithin hregime)
    -- only usage reported in full is priced as actual
    unfold pricedAs at has
    split at has
    · rename_i input output hinput houtput
      cases has
      exact Prod.ext hinput houtput
    · split_ifs at has
      cases has

/-! ### Rounds -/

section Round

variable {attemptIndex : ℕ} {state : LoopState} {posted : Posted} {result : AttemptResult}
  (deadlineAt : ℚ)

/-- A failed attempt is accounted for, and then retried or reported. -/
theorem wp_failAttempt (failure : Failure)
    (hid : posted.debitId = request.debitId setting.lib attemptIndex)
    (hlast : lastAttempt v.events = some (posted, result))
    (husage : failure.usage = reportedUsage setting.lib result)
    (hrisk : failure.billableRisk = false → result.nonBillable)
    (hwithin : setting.regime.isSome → result.within setting.lib posted)
    (hpending : ∀ regime, setting.regime = some regime → ∀ row,
      v.debits.get? posted.debitId = some row → row.basis = .reservedMax →
      row.amountUsd = maximumOf regime posted)
    {Q : Except TransportError LoopState → View → Prop}
    (hdone : ∀ out after v', (∀ e, out ≠ .error (.uncaught e)) →
      (∀ state', out = .ok state' → state'.inputEstimate =
        (reportedUsage setting.lib result).1.getD state.inputEstimate) →
      Quiet v after → Resolving setting posted.debitId result after v' → Q out v')
    (herror : ∀ e, Q (.error (.uncaught e)) (v.note (.estimated (.error e)))) :
    (accounting setting).wp i
      (failAttempt setting.lib request attemptIndex deadlineAt state failure).run Q v := by
  rw [failAttempt, wp_bindRaising]
  refine wp_planRetry _ _ fun decision => ?_
  dsimp only
  rw [wp_bindRaising]
  refine wp_debitBoundary hexecution attemptIndex _ hid hlast husage hrisk hwithin hpending ?_
    herror
  intro debit after v' hquiet hresolving
  have hraise : ∀ e, Q (.error (.provider e)) v' := fun e =>
    hdone _ after v' nofun nofun hquiet hresolving
  dsimp only
  generalize (if failure.stampsDebit then debit else none) = stamped
  split_ifs
  · apply wp_silent rfl
    intro _
    refine hdone _ after v' nofun (fun state' h => ?_) hquiet hresolving
    cases h
    rw [← husage]
  · rw [wp_bindRaising]
    apply wp_governedDeadlineStop
    · exact hraise _
    · exact hraise

/-- What becomes of an attempt that has been admitted. -/
theorem wp_concludeAttempt {start ready : View} {state' : LoopState}
    (hstate : state'.inputEstimate = state.inputEstimate)
    (hadmitted : Admitted setting request attemptIndex state start posted ready)
    (hnone : setting.regime.isSome → ∀ id row, start.debits.get? id = some row →
      row.basis ≠ .reservedMax)
    (hwithin : setting.regime.isSome → result.within setting.lib posted) :
    (accounting setting).wp i
      (concludeAttempt setting.lib request attemptIndex deadlineAt state' result).run
      (RoundStep setting request attemptIndex state start) (ready.attempt posted result) := by
  have hlast := View.lastAttempt_attempt ready posted result
  have hpending : ∀ regime, setting.regime = some regime → ∀ row,
      (ready.attempt posted result).debits.get? posted.debitId = some row →
      row.basis = .reservedMax → row.amountUsd = maximumOf regime posted :=
    fun regime hregime row => hadmitted.pending hnone hregime
  -- the arms for failures differ only in what they make of the failure
  have hfail : ∀ failure : Failure, result.benign setting.lib →
      failure.usage = reportedUsage setting.lib result →
      (failure.billableRisk = false → result.nonBillable) →
      (accounting setting).wp i (ExceptT.run (do
        return Round.retry (← failAttempt setting.lib request attemptIndex deadlineAt state'
          failure))) (RoundStep setting request attemptIndex state start)
        (ready.attempt posted result) := by
    intro failure hbenign husage hrisk
    rw [wp_bindRaising]
    refine wp_failAttempt hexecution deadlineAt failure hadmitted.debitId hlast husage hrisk
      hwithin hpending ?_ fun e => .unsettled hadmitted
    intro out after v' hcaught hnext hquiet hresolving
    cases out with
    | ok next =>
      refine .concluded hadmitted hbenign hwithin hquiet hresolving nofun ?_
      intro state'' h
      obtain rfl := Round.retry.inj (Except.ok.inj h)
      rw [hnext next rfl, hstate]
    | error e =>
      refine .concluded hadmitted hbenign hwithin hquiet hresolving ?_ nofun
      rintro e' h
      exact hcaught e' (congrArg _ (Except.error.inj h))
  cases result with
  | responded body =>
    cases body with
    | error failure =>
      cases failure with
      | timedOut => exact hfail timeoutFailure rfl rfl nofun
      | dropped => exact RoundStep.broken hadmitted rfl
    | ok body =>
      simp only [concludeAttempt]
      cases hloads : setting.lib.loads body with
      | error e => exact RoundStep.broken hadmitted (by simp [AttemptResult.benign, hloads])
      | ok value =>
        cases value with
        | object fields =>
          rw [wp_bindRaising]
          refine wp_debitBoundary hexecution attemptIndex _ hadmitted.debitId hlast
            (by simp [reportedUsage, hloads]) (fun h => by cases h) hwithin hpending ?_
            fun e => RoundStep.unsettled hadmitted
          intro debit after v' hquiet hresolving
          exact RoundStep.concluded hadmitted (by simp [AttemptResult.benign, hloads]) hwithin
            hquiet hresolving nofun nofun
        | null | bool | int | float | string | array =>
          exact RoundStep.broken hadmitted (by simp [AttemptResult.benign, hloads])
  | httpError code body =>
    simp only [concludeAttempt]
    cases hload : loadErrorPayload setting.lib body with
    | error e =>
      exact RoundStep.broken hadmitted (by simp [AttemptResult.benign, hload, Except.toOption])
    | ok fields =>
      refine hfail (httpFailure code fields)
        (by simp [AttemptResult.benign, hload, Except.toOption])
        (by simp [reportedUsage, hload, httpFailure]) fun h => ?_
      simpa [httpFailure, AttemptResult.nonBillable] using h
  | timeout => exact hfail timeoutFailure rfl rfl nofun
  | urlError => exact hfail urlFailure rfl rfl fun _ => rfl

/-- A round goes one of the ways listed. -/
theorem wp_attemptRound (hlimit : ∀ regime limit, setting.regime = some regime →
      regime.limit = some limit → request.hardLimit = some limit)
    (attemptIndex : ℕ) (deadlineAt : ℚ) (state : LoopState)
    (hnone : setting.regime.isSome → ∀ id row, v.debits.get? id = some row →
      row.basis ≠ .reservedMax) :
    (accounting setting).wp i
      (attemptRound setting.lib request attemptIndex deadlineAt state).run
      (RoundStep setting request attemptIndex state v) v := by
  rw [attemptRound, wp_bindRaising]
  refine wp_admitAttempt hexecution hlimit attemptIndex state (fun timeout ready hadmitted => ?_)
    (fun e v' hquiet => .declined hquiet) fun e mid hquiet => .unpriced hquiet
  refine wp_ask.mpr ⟨trivial, fun result v' hstep => ?_⟩
  obtain ⟨rfl, hwithin⟩ := hstep
  exact wp_concludeAttempt hexecution deadlineAt rfl hadmitted hnone hwithin

end Round

/-! ### Runs -/

section Runs

variable {I E : View → Prop} (hlimit : ∀ regime limit, setting.regime = some regime →
    regime.limit = some limit → request.hardLimit = some limit)
  (hnone : ∀ v, I v → setting.regime.isSome → ∀ id row, v.debits.get? id = some row →
    row.basis ≠ .reservedMax)
  (hround : ∀ {attemptIndex state v out v'}, I v →
    RoundStep setting request attemptIndex state v out v' → EndsIn I E out v')

include hlimit hnone hround

/-- The loop keeps what a round keeps. -/
theorem wp_transportLoop (deadlineAt : ℚ) (rounds attemptIndex : ℕ) (state : LoopState)
    (hv : I v) :
    (accounting setting).wp i
      (transportLoop setting.lib request deadlineAt rounds attemptIndex state).run
      (EndsIn I E) v := by
  induction rounds generalizing attemptIndex state v with
  | zero => exact hv
  | succ rounds ih =>
    refine wp_seq
      (wp_attemptRound hexecution hlimit attemptIndex deadlineAt state (hnone v hv)) ?_ ?_
    · intro round v' hstep
      have hv' : I v' := hround hv hstep
      cases round with
      | served payload => exact hv'
      | retry state' => exact ih (attemptIndex + 1) state' hv'
    · intro e v' hstep
      have hended := hround hv hstep
      cases e with
      | provider e | uncaught e => exact hended

/-- And so does the transport. -/
theorem wp_postOpenaiCompatibleResponse (hv : I v) :
    (accounting setting).wp i (postOpenaiCompatibleResponse setting.lib request).run
      (EndsIn I E) v := by
  unfold postOpenaiCompatibleResponse
  split_ifs
  · exact hv
  · apply wp_silent rfl
    intro now
    exact wp_transportLoop hexecution hlimit hnone hround _ _ _ _ hv

end Runs

end Specs

end LotusAI.Provider
