import LotusAI.Lib.LocalView
import LotusAI.Provider.Transport

/-!
# Executions over the ledger

The machine the transport runs on: the ledger of attempt debits, shared by all
executions, and an environment that answers everything else. Each execution keeps a
journal of what it was told and of what became of its reservations.

An execution only touches the debits whose ids count for it. Its view is those debits and
its journal, and what a call does can be said on that view alone.
-/

namespace LotusAI.Provider

open Lib Budget

/-! ### Journals -/

/-- How a reservation is resolved. -/
inductive Resolution
  | settled
  | released
  | held
  deriving DecidableEq

/-- What an execution notes. -/
inductive Event
  /-- A price was asked for. -/
  | estimated (outcome : Except PythonError UsageCostEstimate)
  /-- A reservation was made. -/
  | reserved (debitId : String)
  /-- An attempt was made, with this much recorded besides its own reservation. -/
  | attempted (posted : Posted) (others : ℚ) (result : AttemptResult)
  /-- A reservation was resolved, behind the attempt that had this result. -/
  | resolved (debitId : String) (resolution : Resolution) (behind : Option AttemptResult)

/-- The attempt an event is about. -/
def Event.attempt? : Event → Option (Posted × AttemptResult)
  | attempted posted _ result => some (posted, result)
  | _ => none

/-- The last attempt of a journal. -/
def lastAttempt (events : List Event) : Option (Posted × AttemptResult) :=
  (events.filterMap Event.attempt?).getLast?

variable (events : List Event)

@[simp] theorem lastAttempt_append_attempted (posted : Posted) (others : ℚ)
    (result : AttemptResult) :
    lastAttempt (events ++ [.attempted posted others result]) = some (posted, result) := by
  simp [lastAttempt, Event.attempt?]

theorem lastAttempt_append_of_none {event : Event}
    (h : event.attempt? = none) : lastAttempt (events ++ [event]) = lastAttempt events := by
  simp [lastAttempt, h]

/-! ### The machine -/

def reportedUsage (lib : Libraries) : AttemptResult → Option ℕ × Option ℕ
  | .responded (.ok body) =>
    match lib.loads body with
    | .ok (.object fields) => usageOf fields
    | _ => (none, none)
  | .httpError _ body =>
    match loadErrorPayload lib body with
    | .ok fields => usageOf fields
    | .error _ => (none, none)
  | _ => (none, none)

/-- No more input tokens than bytes were sent, and no more output tokens than permitted. -/
def AttemptResult.within (lib : Libraries) (posted : Posted) (result : AttemptResult) : Bool :=
  (reportedUsage lib result).1.all (· ≤ posted.bodyBytes) &&
    (reportedUsage lib result).2.all (· ≤ posted.maxOutputTokens)

/-- What may be assumed of the environment: the card in force for an attempt stays in force
from its admission to its settlement, and reported usage stays within what was sent. All
reservations may observe one hard limit. -/
structure Regime where
  cardOf : String → RateCard
  limit : Option ℚ

/-- What is fixed: the libraries, the adapter of the ledger, and the id of each execution.
No debit id counts for two executions. -/
structure Setting (ι : Type) where
  lib : Libraries
  adapter : Adapter
  budgetKey : String
  executionId : ι → String
  apart : ∀ {i j id}, ownedBy (executionId i) id → ownedBy (executionId j) id → i = j
  regime : Option Regime

/-- Distinct execution ids without a colon keep the debits of executions apart. -/
def Setting.ofIds {ι : Type} (lib : Libraries) (adapter : Adapter) (budgetKey : String)
    (executionId : ι → String) (distinct : Function.Injective executionId)
    (plain : ∀ i, ':' ∉ (executionId i).toList) (regime : Option Regime) : Setting ι where
  lib := lib
  adapter := adapter
  budgetKey := budgetKey
  executionId := executionId
  apart howned howned' :=
    distinct (executionId_eq_of_ownedBy (plain _) (plain _) howned howned')
  regime := regime

/-- What the environment answers to a call. -/
structure Answers where
  clock : ℚ
  jitter : ℚ
  now : String
  instant : Datetime
  cards : List RateCard
  result : AttemptResult
  verdict : Except ProviderError Unit
  entry : Except ProviderError CatalogueEntry
  response : Except ProviderError (ExecutionResponse ServedPayload)

/-- The ledger and the journal of each execution. -/
structure World (ι : Type) where
  ledger : Store
  events : ι → List Event

/-- The debits and the journal of one execution. -/
structure View where
  debits : Dict String AttemptDebitRecord
  events : List Event

namespace View

/-- The journal goes on. -/
def note (v : View) (event : Event) : View := { v with events := v.events ++ [event] }

/-- A debit is written. -/
def save (v : View) (debitId : String) (row : AttemptDebitRecord) : View :=
  { v with debits := v.debits.insert debitId row }

/-- What is recorded besides a pending reservation. -/
def othersOf (v : View) (debitId : String) : ℚ :=
  totalOf v.debits - (((v.debits.get? debitId).filter (·.basis = .reservedMax)).map
    AttemptDebitRecord.amountUsd).getD 0

variable (v : View) (event : Event)

@[simp] theorem note_debits : (v.note event).debits = v.debits := rfl

@[simp] theorem note_events :
    (v.note event).events = v.events ++ [event] := rfl

@[simp] theorem save_debits (debitId : String) (row : AttemptDebitRecord) :
    (v.save debitId row).debits = v.debits.insert debitId row := rfl

@[simp] theorem save_events (debitId : String) (row : AttemptDebitRecord) :
    (v.save debitId row).events = v.events := rfl

end View

/-- What a settlement with this basis is. -/
def Resolution.ofBasis (basis : DebitBasis) : Resolution :=
  if basis = .released then .released else .settled

section Machine

variable {ι : Type} [DecidableEq ι] (setting : Setting ι)

/-- The view of an execution. -/
def viewOf (i : ι) (w : World ι) : View :=
  ⟨w.ledger.attemptDebits.restrict (ownedBy (setting.executionId i)), w.events i⟩

/-- An execution notes an event. -/
def World.note (w : World ι) (i : ι) (event : Event) : World ι :=
  { w with events := Function.update w.events i (w.events i ++ [event]) }

/-- Whether the environment may answer a lookup with these cards. -/
def Setting.priced (debitId : String) (modelRevision : Option String) (ω : Answers) : Bool :=
  match setting.regime with
  | none => true
  | some regime => resolveEffectiveLiveTextCard setting.lib.iso ω.cards modelRevision ω.instant =
      .ok (some (regime.cardOf debitId))

/-- Whether the environment may answer an attempt with this result. -/
def Setting.reports (posted : Posted) (ω : Answers) : Bool :=
  setting.regime.isNone || ω.result.within setting.lib posted

/-- The answer to a reservation. -/
def reserveOutcomeOf : Outcome → ReserveOutcome
  | .reserve outcome => outcome
  | .answered _ => .refused

/-- The answer to a resolution. -/
def doneOf : Outcome → Bool
  | .reserve _ => false
  | .answered done => done

/-- Perform a ledger operation and note an event if it was not refused. -/
def performLedger (i : ι) (w : World ι) (op : Operation) (event : Event) : Outcome × World ι :=
  let (outcome, ledger) := setting.adapter.apply setting.budgetKey w.ledger op
  if outcome.isRefusal then (outcome, { w with ledger := ledger })
  else (outcome, World.note { w with ledger := ledger } i event)

def ledgerMachine : Machine Call.Answer ι (World ι) Answers where
  exec i w call ω :=
    match call with
    | .monotonic => some (ω.clock, w)
    | .jitter => some (ω.jitter, w)
    | .sleep _ => some ((), w)
    | .utcNow => some (ω.now, w)
    | .estimateLiveTextCost debitId modelRevision inputTokens outputTokens =>
      if setting.priced debitId modelRevision ω then
        let outcome := estimateLiveTextCost setting.lib.iso ω.cards ω.instant modelRevision
          inputTokens outputTokens
        some (outcome, w.note i (.estimated outcome))
      else none
    | .sumAttemptDebits front => some (sumAttemptDebits w.ledger.attemptDebits front, w)
    | .reserveAttemptDebit record hardLimitUsd =>
      let (outcome, w') := performLedger setting i w (.reserve record hardLimitUsd)
        (.reserved record.debitId)
      some (reserveOutcomeOf outcome, w')
    | .settleAttemptDebit debitId basis e =>
      let (outcome, w') := performLedger setting i w (.settle debitId basis e)
        (.resolved debitId (.ofBasis basis) ((lastAttempt (w.events i)).map Prod.snd))
      some (doneOf outcome, w')
    | .holdAttemptDebitUnresolved debitId heldAt =>
      let (outcome, w') := performLedger setting i w (.hold debitId heldAt)
        (.resolved debitId .held ((lastAttempt (w.events i)).map Prod.snd))
      some (doneOf outcome, w')
    | .urlopen posted =>
      if setting.reports posted ω then
        some (ω.result, w.note i
          (.attempted posted ((viewOf setting i w).othersOf posted.debitId) ω.result))
      else none
    | .control _ => some (ω.verdict, w)
    | .bindCatalogueEntry _ => some (ω.entry, w)
    | .readPayload .. => some (ω.response, w)

/-! ### Calls on a view -/

/-- What an execution has to know to perform a call: it writes its own debits, in exact
amounts. Under a regime it settles no reservation to more than was reserved, and its
reservations observe the hard limit. -/
def Permitted (i : ι) : Call → View → Prop
  | .reserveAttemptDebit record hardLimitUsd, _ =>
    ownedBy (setting.executionId i) record.debitId ∧ OnGrid 8 record.amountUsd ∧
      ∀ regime limit, setting.regime = some regime → regime.limit = some limit →
        hardLimitUsd = some limit
  | .settleAttemptDebit debitId _ e, v =>
    ownedBy (setting.executionId i) debitId ∧ OnGrid 8 e.amountUsd ∧
      (setting.regime.isSome → ∀ row, v.debits.get? debitId = some row →
        row.basis = .reservedMax → e.amountUsd ≤ row.amountUsd)
  | .holdAttemptDebitUnresolved debitId _, _ => ownedBy (setting.executionId i) debitId
  | _, _ => True

/-- A pending reservation is resolved to a row, or there is none to resolve. -/
def Resolves (debitId : String) (resolution : Resolution)
    (resolve : AttemptDebitRecord → AttemptDebitRecord) (done : Bool) (v v' : View) : Prop :=
  done = true ∧ (∃ row, v.debits.get? debitId = some row ∧ row.basis = .reservedMax ∧
    v' = (v.save debitId (resolve row)).note
      (.resolved debitId resolution ((lastAttempt v.events).map Prod.snd))) ∨
  done = false ∧ v' = v ∧ ∀ row, v.debits.get? debitId = some row → row.basis ≠ .reservedMax

/-- What a call may answer, and what it makes of the view of its caller. -/
def Step (i : ι) : (call : Call) → call.Answer → View → View → Prop
  | .estimateLiveTextCost debitId _ inputTokens outputTokens, outcome, v, v' =>
    v' = v.note (.estimated outcome) ∧ ∀ regime, setting.regime = some regime →
      outcome = estimateWith (some (regime.cardOf debitId)) inputTokens outputTokens
  | .sumAttemptDebits front, sum, v, v' =>
    v' = v ∧ OnGrid 8 sum ∧
      (∀ id row, v.debits.get? id = some row → ownedBy (setting.executionId i) id) ∧
      ((∀ id, beginsWith front id → ownedBy (setting.executionId i) id) →
        sum = totalOf (v.debits.restrict (beginsWith front)))
  | .reserveAttemptDebit record _, outcome, v, v' =>
    outcome = .reserved ∧ v.debits.get? record.debitId = none ∧
      v' = (v.save record.debitId record).note (.reserved record.debitId) ∨
    outcome ≠ .reserved ∧ v' = v
  | .settleAttemptDebit debitId basis e, done, v, v' =>
    Resolves debitId (.ofBasis basis) (·.resolved basis e) done v v'
  | .holdAttemptDebitUnresolved debitId heldAt, done, v, v' =>
    Resolves debitId .held (fun row => { row with basis := .unresolvedMax, recordedAt := heldAt })
      done v v'
  | .urlopen posted, result, v, v' =>
    v' = v.note (.attempted posted (v.othersOf posted.debitId) result) ∧
      (setting.regime.isSome → result.within setting.lib posted)
  | _, _, v, v' => v' = v

/-- What holds of the ledger between two calls. -/
structure SoundLedger (w : World ι) : Prop where
  exact : ExactStore setting.budgetKey w.ledger
  limited : ∀ regime limit, setting.regime = some regime → regime.limit = some limit →
    w.ledger.counter setting.budgetKey ≤ limit

end Machine

/-! ### Refused resolutions -/

theorem resolveDebit_fst (s : Store) (debitId : String) (accepted : DebitBasis → Bool)
    (basis : DebitBasis) (e : Evidence) (adjust : Store → ℚ → Store) :
    (resolveDebit s debitId accepted basis e adjust).1 =
      (s.attemptDebits.get? debitId).any fun row => accepted row.basis := by
  unfold resolveDebit
  cases s.attemptDebits.get? debitId with
  | none => rfl
  | some row =>
    dsimp only
    split_ifs with h <;> simp [h]

variable {adapter : Adapter} {budgetKey debitId : String} {row : AttemptDebitRecord} {s : Store}
  {basis : DebitBasis} {heldAt : String} {e : Evidence}

/-- A settlement is refused only if there is no pending reservation. -/
theorem settle_answers_false
    (h : (adapter.apply budgetKey s (.settle debitId basis e)).1 = .answered false)
    (hrow : s.attemptDebits.get? debitId = some row) : row.basis ≠ .reservedMax := by
  intro hbasis
  have hdone : ∀ adjust,
      (resolveDebit s debitId DebitBasis.settleable basis e adjust).1 = true := by
    intro adjust
    rw [resolveDebit_fst, hrow]
    simp [DebitBasis.settleable, hbasis]
  cases adapter with
  | memory => simp [Adapter.apply, Memory.settleAttemptDebit, hdone] at h
  | sqlalchemy => simp [Adapter.apply, Sql.settleAttemptDebit, hdone] at h

theorem hold_answers_false
    (h : (adapter.apply budgetKey s (.hold debitId heldAt)).1 = .answered false)
    (hrow : s.attemptDebits.get? debitId = some row) : row.basis ≠ .reservedMax := by
  intro hbasis
  cases adapter <;> simp [Adapter.apply, holdAttemptDebitUnresolved, hrow, hbasis] at h

theorem exists_apply_reserve (adapter : Adapter) (budgetKey : String) (s : Store)
    (record : AttemptDebitRecord) (limit : Option ℚ) :
    ∃ outcome ledger, adapter.apply budgetKey s (.reserve record limit) =
      (.reserve outcome, ledger) := by
  cases adapter <;> exact ⟨_, _, rfl⟩

theorem exists_apply_settle (adapter : Adapter) (budgetKey : String) (s : Store) (debitId : String)
    (basis : DebitBasis) (e : Evidence) :
    ∃ done ledger, adapter.apply budgetKey s (.settle debitId basis e) =
      (.answered done, ledger) := by
  cases adapter <;> exact ⟨_, _, rfl⟩

theorem exists_apply_hold (adapter : Adapter) (budgetKey : String) (s : Store)
    (debitId heldAt : String) :
    ∃ done ledger, adapter.apply budgetKey s (.hold debitId heldAt) =
      (.answered done, ledger) := by
  cases adapter <;> exact ⟨_, _, rfl⟩

/-! ### The machine respects the views -/

section Locality

variable {ι : Type} {setting : Setting ι} {i j : ι} {w w' : World ι} {debitId : String}
  {row : AttemptDebitRecord} {ledger : Store} {op : Operation}

/-- A debit that counts for the execution is written in its view. -/
theorem viewOf_insert_self (howned : ownedBy (setting.executionId i) debitId)
    (hrows : ledger.attemptDebits = w.ledger.attemptDebits.insert debitId row) :
    viewOf setting i { w with ledger := ledger } = (viewOf setting i w).save debitId row := by
  simp only [viewOf, View.save, hrows, Dict.restrict_insert_of_pos _ howned]

/-- And in no other view. -/
theorem viewOf_insert_of_ne (hj : j ≠ i) (howned : ownedBy (setting.executionId i) debitId)
    (hrows : ledger.attemptDebits = w.ledger.attemptDebits.insert debitId row) :
    viewOf setting j { w with ledger := ledger } = viewOf setting j w := by
  have hother : ownedBy (setting.executionId j) debitId = false := by
    rw [← Bool.not_eq_true]
    exact fun h => hj (setting.apart h howned)
  simp only [viewOf, hrows, Dict.restrict_insert_of_neg _ hother]

theorem get?_viewOf (howned : ownedBy (setting.executionId i) debitId) :
    (viewOf setting i w).debits.get? debitId = w.ledger.attemptDebits.get? debitId := by
  simp [viewOf, Dict.get?_restrict, howned]

theorem sound_sum (hsound : SoundLedger setting w) (front : String) :
    Step setting i (.sumAttemptDebits front) (sumAttemptDebits w.ledger.attemptDebits front)
      (viewOf setting i w) (viewOf setting i w) := by
  refine ⟨rfl, OnGrid.places _ _, fun id row hrow => ?_, fun hfront => ?_⟩
  · rw [viewOf, Dict.get?_restrict] at hrow
    split_ifs at hrow with howned
    exact howned
  · have hexact : ∀ id row, (viewOf setting i w).debits.get? id = some row →
        OnGrid 8 row.amountUsd := by
      intro id row hrow
      rw [viewOf, Dict.get?_restrict] at hrow
      split_ifs at hrow
      exact hsound.exact.rows id row hrow
    rw [← sumAttemptDebits_restrict w.ledger.attemptDebits front hfront]
    exact sumAttemptDebits_eq hexact front

variable [DecidableEq ι]

theorem viewOf_note_self (event : Event) :
    viewOf setting i (w.note i event) = (viewOf setting i w).note event := by
  simp [viewOf, World.note, View.note]

theorem viewOf_note_of_ne (hj : j ≠ i) (event : Event) :
    viewOf setting j (w.note i event) = viewOf setting j w := by
  simp [viewOf, World.note, Function.update_of_ne hj]

variable {outcome : Outcome} {event : Event}

/-- What a ledger operation on one debit does, given its effect on the ledger. -/
theorem performLedger_of_insert (event : Event) (howned : ownedBy (setting.executionId i) debitId)
    (happly : setting.adapter.apply setting.budgetKey w.ledger op = (outcome, ledger))
    (hdone : outcome.isRefusal = false)
    (hrows : ledger.attemptDebits = w.ledger.attemptDebits.insert debitId row) :
    (performLedger setting i w op event).1 = outcome ∧
    (performLedger setting i w op event).2.ledger = ledger ∧
    viewOf setting i (performLedger setting i w op event).2 =
      ((viewOf setting i w).save debitId row).note event ∧
    ∀ j, j ≠ i → viewOf setting j (performLedger setting i w op event).2 = viewOf setting j w := by
  simp only [performLedger, happly, hdone, Bool.false_eq_true, if_false]
  refine ⟨trivial, rfl, ?_, fun j hj => ?_⟩
  · rw [viewOf_note_self, viewOf_insert_self howned hrows]
  · rw [viewOf_note_of_ne hj, viewOf_insert_of_ne hj howned hrows]

/-- A refused operation changes nothing. -/
theorem performLedger_of_refusal
    (happly : setting.adapter.apply setting.budgetKey w.ledger op = (outcome, w.ledger))
    (hrefused : outcome.isRefusal) : performLedger setting i w op event = (outcome, w) := by
  simp only [performLedger, happly, hrefused, if_true]

section

variable (hsound : SoundLedger setting w)

include hsound

theorem sound_reserve {record : AttemptDebitRecord} {hardLimitUsd : Option ℚ}
    (hpermitted : Permitted setting i (.reserveAttemptDebit record hardLimitUsd)
      (viewOf setting i w)) :
    let out := performLedger setting i w (.reserve record hardLimitUsd) (.reserved record.debitId)
    SoundLedger setting out.2 ∧
    Step setting i (.reserveAttemptDebit record hardLimitUsd) (reserveOutcomeOf out.1)
      (viewOf setting i w) (viewOf setting i out.2) ∧
    ∀ j, j ≠ i → viewOf setting j out.2 = viewOf setting j w := by
  obtain ⟨howned, hexact, hlimit⟩ := hpermitted
  have heffect : Effect setting.budgetKey w.ledger (.reserve record hardLimitUsd) _ _ :=
    effect_of_apply hsound.exact setting.adapter hexact
  have hstore := heffect.exactStore hsound.exact hexact
  obtain ⟨outcome, ledger, happly⟩ := exists_apply_reserve setting.adapter setting.budgetKey
    w.ledger record hardLimitUsd
  rw [happly] at heffect hstore
  cases heffect with
  | unchanged refused =>
    rw [performLedger_of_refusal happly refused]
    refine ⟨hsound, .inr ⟨?_, rfl⟩, fun j _ => rfl⟩
    rintro rfl
    cases refused
  | reserved fresh within rows counter backed =>
    obtain ⟨houtcome, hledger, hview, hothers⟩ :=
      performLedger_of_insert (.reserved record.debitId) howned happly rfl rows
    refine ⟨⟨by rwa [hledger], ?_⟩, ?_, hothers⟩
    · intro regime limit hregime hregimeLimit
      rw [hledger, counter]
      exact within limit (hlimit regime limit hregime hregimeLimit)
    · rw [houtcome, hview]
      exact .inl ⟨rfl, by rw [get?_viewOf howned]; exact fresh, rfl⟩

/-- What a refused resolution leaves, and why it was refused. -/
theorem sound_of_refused {done : Bool} {resolution : Resolution}
    {resolve : AttemptDebitRecord → AttemptDebitRecord}
    (happly : setting.adapter.apply setting.budgetKey w.ledger op = (.answered done, w.ledger))
    (hrefused : (Outcome.answered done).isRefusal)
    (hnone : ∀ row, (viewOf setting i w).debits.get? debitId = some row →
      row.basis ≠ .reservedMax) :
    let out := performLedger setting i w op event
    SoundLedger setting out.2 ∧
    Resolves debitId resolution resolve (doneOf out.1) (viewOf setting i w)
      (viewOf setting i out.2) ∧
    ∀ j, j ≠ i → viewOf setting j out.2 = viewOf setting j w := by
  rw [performLedger_of_refusal happly hrefused]
  have hdone : done = false := by simpa [Outcome.isRefusal] using hrefused
  exact ⟨hsound, .inr ⟨hdone, rfl, hnone⟩, fun j _ => rfl⟩

theorem sound_settle
    (hpermitted : Permitted setting i (.settleAttemptDebit debitId basis e) (viewOf setting i w)) :
    let out := performLedger setting i w (.settle debitId basis e)
      (.resolved debitId (.ofBasis basis) ((lastAttempt (w.events i)).map Prod.snd))
    SoundLedger setting out.2 ∧
    Step setting i (.settleAttemptDebit debitId basis e) (doneOf out.1) (viewOf setting i w)
      (viewOf setting i out.2) ∧
    ∀ j, j ≠ i → viewOf setting j out.2 = viewOf setting j w := by
  obtain ⟨howned, hexact, hreserved⟩ := hpermitted
  have heffect : Effect setting.budgetKey w.ledger (.settle debitId basis e) _ _ :=
    effect_of_apply hsound.exact setting.adapter hexact
  have hstore := heffect.exactStore hsound.exact hexact
  obtain ⟨done, ledger, happly⟩ := exists_apply_settle setting.adapter setting.budgetKey
    w.ledger debitId basis e
  have hfalse : done = false → ∀ row, (viewOf setting i w).debits.get? debitId = some row →
      row.basis ≠ .reservedMax := by
    rintro rfl row hrow
    rw [get?_viewOf howned] at hrow
    exact settle_answers_false (congrArg Prod.fst happly) hrow
  rw [happly] at heffect hstore
  cases heffect with
  | unchanged refused =>
    exact sound_of_refused hsound happly refused
      (hfalse (by simpa [Outcome.isRefusal] using refused))
  | resolved op_eq found rows counter backed =>
    rename_i id basis' e' row
    cases op_eq with
    | inr hreconcile => cases hreconcile.1
    | inl hsettle =>
      obtain ⟨hop, hpending⟩ := hsettle
      cases hop
      have hbasis : row.basis = .reservedMax := by simpa [DebitBasis.settleable] using hpending
      have hview := get?_viewOf (w := w) howned
      obtain ⟨houtcome, hledger, hnext, hothers⟩ := performLedger_of_insert
        (.resolved debitId (.ofBasis basis) ((lastAttempt (w.events i)).map Prod.snd))
        howned happly rfl rows
      refine ⟨⟨by rwa [hledger], ?_⟩, ?_, hothers⟩
      · intro regime limit hregime hregimeLimit
        have hamount := hreserved (by rw [hregime]; rfl) row (hview.trans found) hbasis
        have hbefore := hsound.limited regime limit hregime hregimeLimit
        rw [hledger, counter]
        linarith
      · rw [houtcome, hnext]
        exact .inl ⟨rfl, row, hview.trans found, hbasis, rfl⟩

theorem sound_hold
    (howned : ownedBy (setting.executionId i) debitId) :
    let out := performLedger setting i w (.hold debitId heldAt)
      (.resolved debitId .held ((lastAttempt (w.events i)).map Prod.snd))
    SoundLedger setting out.2 ∧
    Step setting i (.holdAttemptDebitUnresolved debitId heldAt) (doneOf out.1)
      (viewOf setting i w) (viewOf setting i out.2) ∧
    ∀ j, j ≠ i → viewOf setting j out.2 = viewOf setting j w := by
  have heffect : Effect setting.budgetKey w.ledger (.hold debitId heldAt) _ _ :=
    effect_of_apply hsound.exact setting.adapter trivial
  have hstore := heffect.exactStore hsound.exact trivial
  obtain ⟨done, ledger, happly⟩ := exists_apply_hold setting.adapter setting.budgetKey
    w.ledger debitId heldAt
  have hfalse : done = false → ∀ row, (viewOf setting i w).debits.get? debitId = some row →
      row.basis ≠ .reservedMax := by
    rintro rfl row hrow
    rw [get?_viewOf howned] at hrow
    exact hold_answers_false (congrArg Prod.fst happly) hrow
  rw [happly] at heffect hstore
  cases heffect with
  | unchanged refused =>
    exact sound_of_refused hsound happly refused
      (hfalse (by simpa [Outcome.isRefusal] using refused))
  | resolved op_eq => rcases op_eq with ⟨h, -⟩ | ⟨h, -⟩ <;> cases h
  | held found basis rows counters =>
    rename_i row
    obtain ⟨houtcome, hledger, hnext, hothers⟩ := performLedger_of_insert
      (.resolved debitId .held ((lastAttempt (w.events i)).map Prod.snd))
      howned happly rfl rows
    refine ⟨⟨by rwa [hledger], ?_⟩, ?_, hothers⟩
    · intro regime limit hregime hregimeLimit
      rw [hledger, Store.counter, counters]
      exact hsound.limited regime limit hregime hregimeLimit
    · rw [houtcome, hnext]
      exact .inl ⟨rfl, row, (get?_viewOf howned).trans found, basis, rfl⟩

end

/-- The machine acts on views as `Step` says, and keeps the ledger sound. -/
def accounting (setting : Setting ι) : Locality (ledgerMachine setting) View where
  inv := SoundLedger setting
  view := viewOf setting
  permitted := Permitted setting
  step := Step setting
  sound {i w call ω r w'} hsound hpermitted hexec := by
    cases call with
    | reserveAttemptDebit record hardLimitUsd =>
      cases hexec
      exact sound_reserve hsound hpermitted
    | settleAttemptDebit debitId basis e =>
      cases hexec
      exact sound_settle hsound hpermitted
    | holdAttemptDebitUnresolved debitId heldAt =>
      cases hexec
      exact sound_hold hsound hpermitted
    | sumAttemptDebits front =>
      cases hexec
      exact ⟨hsound, sound_sum hsound front, fun j _ => rfl⟩
    | estimateLiveTextCost debitId modelRevision inputTokens outputTokens =>
      by_cases hpriced : setting.priced debitId modelRevision ω
      · simp only [ledgerMachine, hpriced, if_true] at hexec
        cases hexec
        refine ⟨⟨hsound.exact, hsound.limited⟩, ⟨viewOf_note_self _, fun regime hregime => ?_⟩,
          fun j hj => viewOf_note_of_ne hj _⟩
        have hcard : resolveEffectiveLiveTextCard setting.lib.iso ω.cards modelRevision
            ω.instant = .ok (some (regime.cardOf debitId)) := by
          simpa [Setting.priced, hregime] using hpriced
        exact estimateLiveTextCost_of_card hcard inputTokens outputTokens
      · simp [ledgerMachine, hpriced] at hexec
    | urlopen posted =>
      by_cases hreports : setting.reports posted ω
      · simp only [ledgerMachine, hreports, if_true] at hexec
        cases hexec
        refine ⟨⟨hsound.exact, hsound.limited⟩, ⟨viewOf_note_self _, fun hregime => ?_⟩,
          fun j hj => viewOf_note_of_ne hj _⟩
        obtain ⟨regime, hsome⟩ := Option.isSome_iff_exists.mp hregime
        simpa [Setting.reports, hsome] using hreports
      · simp [ledgerMachine, hreports] at hexec
    | monotonic | jitter | sleep _ | utcNow | control _ | bindCatalogueEntry _ =>
      cases hexec
      exact ⟨hsound, rfl, fun j _ => rfl⟩
    | readPayload _ _ =>
      cases hexec
      exact ⟨hsound, rfl, fun j _ => rfl⟩

end Locality

end LotusAI.Provider
