import LotusAI.Budget.Conservation
import LotusAI.Budget.Debits

/-!
# Budget resets

An operator may reset the budget. The SQL adapter deletes the counter and keeps the debits,
so that a debit reserved before a reset can still be settled, released or reconciled after
it. The reset means to start a new count; but a debit from before it takes its difference
from whatever counter it finds, and if that is already the new one, it takes headroom from
the debits reserved since.

The counter is always the sum of the debits reserved since the latest reset, and of what
older debits have carried over into it. It under-counts exactly if that is a release.
-/

namespace LotusAI.Budget

open Lib Dict

/-! ### Watched stores -/

/-- A ledger operation, or `RESET_BUDGET`. -/
inductive ControlledOperation
  | ledger (op : Operation)
  | resetBudget
  deriving DecidableEq

/-- The amounts are exact, and none is negative. -/
def ControlledOperation.Exact : ControlledOperation → Prop
  | ledger (.reserve record _) => OnGrid 8 record.amountUsd ∧ 0 ≤ record.amountUsd
  | ledger (.settle _ _ e) => OnGrid 8 e.amountUsd ∧ 0 ≤ e.amountUsd
  | ledger (.reconcile _ e) => OnGrid 8 e.amountUsd ∧ 0 ≤ e.amountUsd
  | ledger (.hold _ _) => True
  | resetBudget => True

/-- The debit an operation resolves, and the amount it resolves it to. -/
def Operation.target? : Operation → Option (String × ℚ)
  | settle debitId _ e => some (debitId, e.amountUsd)
  | reconcile debitId e => some (debitId, e.amountUsd)
  | _ => none

/-- The debit an operation reserves. -/
def Operation.reserves? : Operation → Option String
  | reserve record _ => some record.debitId
  | _ => none

/-- A store, the debits reserved since the latest reset, and by how much older debits have
moved the counter since it was started again. -/
structure Watch where
  store : Store
  since : List String
  drift : ℚ
  deriving DecidableEq

namespace Watch

/-- Before the first operation. -/
def start : Watch := ⟨.empty, [], 0⟩

/-- What the debits reserved since the latest reset add up to. -/
def sinceTotal (w : Watch) : ℚ := totalOf (w.store.attemptDebits.restrict (· ∈ w.since))

variable (budgetKey : String)

/-- By how much an operation that is done moves the counter for a debit from before the
latest reset. Where there is no counter, it moves none. -/
def carried (w : Watch) (op : Operation) : ℚ :=
  match op.target? with
  | none => 0
  | some (debitId, amount) =>
    if debitId ∈ w.since ∨ w.store.budgetStates.get? budgetKey = none then 0
    else amount - ((w.store.attemptDebits.get? debitId).map AttemptDebitRecord.amountUsd).getD 0

/-- Perform an operation on the SQL adapter, and keep watch. -/
def perform (w : Watch) : ControlledOperation → Watch
  | .ledger op =>
    let (outcome, store) := Adapter.sqlalchemy.apply budgetKey w.store op
    if outcome.isRefusal then { w with store := store }
    else ⟨store, op.reserves?.toList ++ w.since, w.drift + w.carried budgetKey op⟩
  | .resetBudget => ⟨(Sql.resetBudgetState w.store budgetKey).2, [], 0⟩

/-- Perform operations in order. -/
def performAll (ops : List ControlledOperation) : Watch := ops.foldl (perform budgetKey) start

end Watch

/-- The counter is not negative, and covers the debits reserved since the latest reset. -/
def NeverUndercounts (budgetKey : String) (w : Watch) : Prop :=
  0 ≤ w.store.counter budgetKey ∧ w.sinceTotal ≤ w.store.counter budgetKey

/-! ### Totals of the debits since -/

section Totals

variable {debits : Dict String AttemptDebitRecord} {since : List String} {debitId : String}
  {row row' : AttemptDebitRecord}

/-- A debit that is new counts from then on. -/
theorem totalOf_since_reserve (hfresh : debits.get? debitId = none) :
    totalOf ((debits.insert debitId row).restrict (· ∈ debitId :: since)) =
      totalOf (debits.restrict (· ∈ since)) + row.amountUsd := by
  have hsame : debits.restrict (· ∈ debitId :: since) = debits.restrict (· ∈ since) := by
    apply eq_of_entries_eq
    apply List.filter_congr
    intro e he
    have hne : e.1 ≠ debitId := by
      intro heq
      rw [← heq, get?_eq_some_iff.mpr he] at hfresh
      cases hfresh
    simp [hne]
  have hnone : (debits.restrict (· ∈ since)).get? debitId = none := by
    rw [get?_restrict]
    split_ifs
    · exact hfresh
    · rfl
  rw [restrict_insert_of_pos _ (by simp), hsame, totalOf_insert, hnone]
  simp

/-- A debit that is rewritten moves the total if it counts, and does not if it does not. -/
theorem totalOf_since_rewrite (hfound : debits.get? debitId = some row) :
    totalOf ((debits.insert debitId row').restrict (· ∈ since)) =
      totalOf (debits.restrict (· ∈ since)) +
        if debitId ∈ since then row'.amountUsd - row.amountUsd else 0 := by
  by_cases hsince : debitId ∈ since
  · have hrow : (debits.restrict (· ∈ since)).get? debitId = some row := by
      rw [get?_restrict, if_pos (by simpa using hsince), hfound]
    rw [restrict_insert_of_pos _ (by simpa using hsince), totalOf_insert, hrow,
      if_pos hsince]
    rfl
  · rw [restrict_insert_of_neg _ (by simpa using hsince), if_neg hsince, add_zero]

theorem totalOf_nonneg (hnonneg : ∀ id row, debits.get? id = some row → 0 ≤ row.amountUsd) :
    0 ≤ totalOf debits := by
  apply List.sum_nonneg
  intro amount hamount
  obtain ⟨row, hrow, rfl⟩ := List.mem_map.mp hamount
  obtain ⟨id, hid⟩ := mem_values_iff.mp hrow
  exact hnonneg id row hid

end Totals

/-! ### The balance -/

/-- The counter is what was reserved since the latest reset, and what was carried over. -/
structure Balanced (budgetKey : String) (w : Watch) : Prop where
  rows : ∀ id row, w.store.attemptDebits.get? id = some row →
    OnGrid 8 row.amountUsd ∧ 0 ≤ row.amountUsd
  exact : OnGrid 8 (w.store.counter budgetKey)
  idle : w.store.budgetStates.get? budgetKey = none → w.since = [] ∧ w.drift = 0
  split : w.store.counter budgetKey = w.sinceTotal + w.drift

section Balance

variable {budgetKey : String} {w : Watch}

theorem balanced_start : Balanced budgetKey .start where
  rows _ _ hrow := nomatch hrow
  exact := OnGrid.zero
  idle _ := ⟨rfl, rfl⟩
  split := (add_zero _).symm

theorem Balanced.reset (h : Balanced budgetKey w) :
    Balanced budgetKey (w.perform budgetKey .resetBudget) := by
  have hcounter : (w.perform budgetKey .resetBudget).store.counter budgetKey = 0 := by
    simp [Watch.perform, Sql.resetBudgetState, Store.counter]
  refine ⟨h.rows, ?_, fun _ => ⟨rfl, rfl⟩, ?_⟩
  · rw [hcounter]
    exact OnGrid.zero
  · rw [hcounter]
    simp [Watch.perform, Watch.sinceTotal, totalOf, restrict, values]

variable {id : String} {row : AttemptDebitRecord} {store : Store} {op : Operation}
  {outcome : Outcome} {amount : ℚ}

/-- Rows stay exact where one is written with an exact amount. -/
theorem Balanced.rows_insert (h : Balanced budgetKey w) {debitId : String}
    (hexact : OnGrid 8 row.amountUsd) (hnonneg : 0 ≤ row.amountUsd) {row' : AttemptDebitRecord}
    (hfound : (w.store.attemptDebits.insert debitId row).get? id = some row') :
    OnGrid 8 row'.amountUsd ∧ 0 ≤ row'.amountUsd :=
  forall_insert ⟨hexact, hnonneg⟩ h.rows id row' hfound

/-- A reservation adds to the counter and to what was reserved since. -/
theorem Balanced.reserve (h : Balanced budgetKey w) {record : AttemptDebitRecord}
    (hamount : OnGrid 8 record.amountUsd ∧ 0 ≤ record.amountUsd)
    (fresh : w.store.attemptDebits.get? record.debitId = none)
    (rows : store.attemptDebits = w.store.attemptDebits.insert record.debitId record)
    (counter : store.counter budgetKey = w.store.counter budgetKey + record.amountUsd)
    (backed : (store.budgetStates.get? budgetKey).isSome) :
    Balanced budgetKey ⟨store, record.debitId :: w.since, w.drift⟩ := by
  refine ⟨fun id row hrow => ?_, ?_, fun hnone => ?_, ?_⟩
  · rw [rows] at hrow
    exact h.rows_insert hamount.1 hamount.2 hrow
  · rw [counter]
    exact h.exact.add hamount.1
  · rw [hnone] at backed
    cases backed
  · rw [counter, h.split, Watch.sinceTotal, Watch.sinceTotal, rows, totalOf_since_reserve fresh]
    ring

/-- A resolution moves the counter for a debit reserved since, or is carried over. -/
theorem Balanced.resolve (h : Balanced budgetKey w) (row' : AttemptDebitRecord)
    (hamount : OnGrid 8 row'.amountUsd ∧ 0 ≤ row'.amountUsd)
    (found : w.store.attemptDebits.get? id = some row)
    (rows : store.attemptDebits = w.store.attemptDebits.insert id row')
    (counter : store.counter budgetKey =
      w.store.counter budgetKey + (row'.amountUsd - row.amountUsd))
    (backed : (store.budgetStates.get? budgetKey).isSome) :
    Balanced budgetKey ⟨store, w.since,
      w.drift + if id ∈ w.since then 0 else row'.amountUsd - row.amountUsd⟩ := by
  refine ⟨fun id row hrow => ?_, ?_, fun hnone => ?_, ?_⟩
  · rw [rows] at hrow
    exact h.rows_insert hamount.1 hamount.2 hrow
  · rw [counter]
    exact h.exact.add (hamount.1.sub (h.rows id row found).1)
  · rw [hnone] at backed
    cases backed
  · rw [counter, h.split, Watch.sinceTotal, Watch.sinceTotal, rows, totalOf_since_rewrite found]
    split_ifs <;> ring

/-- Where the counter stays, the amount stays or nothing has been reserved since. -/
theorem Balanced.rewrite (h : Balanced budgetKey w) (row' : AttemptDebitRecord)
    (hamount : OnGrid 8 row'.amountUsd ∧ 0 ≤ row'.amountUsd)
    (found : w.store.attemptDebits.get? id = some row)
    (rows : store.attemptDebits = w.store.attemptDebits.insert id row')
    (counters : store.budgetStates = w.store.budgetStates)
    (hsame : id ∈ w.since → row'.amountUsd = row.amountUsd) :
    Balanced budgetKey ⟨store, w.since, w.drift⟩ := by
  have hcounter : store.counter budgetKey = w.store.counter budgetKey := by
    rw [Store.counter, counters, Store.counter]
  refine ⟨fun id row hrow => ?_, ?_, fun hnone => ?_, ?_⟩
  · rw [rows] at hrow
    exact h.rows_insert hamount.1 hamount.2 hrow
  · rw [hcounter]
    exact h.exact
  · rw [counters] at hnone
    exact h.idle hnone
  · rw [hcounter, h.split, Watch.sinceTotal, Watch.sinceTotal, rows, totalOf_since_rewrite found]
    split_ifs with hsince
    · rw [hsame hsince, sub_self, add_zero]
    · rw [add_zero]

/-- Without a counter, the update behind a settlement matches no row. -/
theorem resolveDebit_idle {s : Store} (hnone : s.budgetStates.get? budgetKey = none)
    (debitId : String) (accepted : DebitBasis → Bool) (basis : DebitBasis) (e : Evidence) :
    let out := resolveDebit s debitId accepted basis e fun s' delta =>
      Sql.adjustBudgetSpend s' budgetKey delta e.recordedAt
    out = (false, s) ∨ ∃ row, s.attemptDebits.get? debitId = some row ∧
      out = (true, s.saveDebit debitId (row.resolved basis e)) := by
  unfold resolveDebit
  cases hrow : s.attemptDebits.get? debitId with
  | none => exact .inl rfl
  | some row =>
    dsimp only
    split_ifs
    · refine .inr ⟨row, rfl, ?_⟩
      simp [Sql.adjustBudgetSpend, Store.saveDebit, hnone]
    · exact .inl rfl

/-- The amounts of an operation that resolves a debit. -/
theorem ControlledOperation.Exact.target (h : (ledger op).Exact)
    (htarget : op.target? = some (id, amount)) : OnGrid 8 amount ∧ 0 ≤ amount := by
  cases op with
  | settle _ _ e | reconcile _ e =>
    cases htarget
    exact h
  | reserve | hold => cases htarget

theorem ControlledOperation.Exact.operation (h : (ledger op).Exact) : op.Exact := by
  cases op with
  | settle | reconcile | reserve => exact h.1
  | hold => trivial

theorem Watch.perform_of_apply
    (happly : Adapter.sqlalchemy.apply budgetKey w.store op = (outcome, store)) :
    w.perform budgetKey (.ledger op) = if outcome.isRefusal then { w with store := store }
      else ⟨store, op.reserves?.toList ++ w.since, w.drift + w.carried budgetKey op⟩ := by
  simp only [Watch.perform, happly]

/-- What is carried over by the resolution of a debit. -/
theorem Watch.carried_of_target (htarget : op.target? = some (id, amount))
    (hrow : w.store.attemptDebits.get? id = some row) :
    w.carried budgetKey op = if id ∈ w.since ∨ w.store.budgetStates.get? budgetKey = none then 0
      else amount - row.amountUsd := by
  simp [Watch.carried, htarget, hrow]

theorem Operation.reserves?_of_target {target : String × ℚ} (htarget : op.target? = some target) :
    op.reserves? = none := by
  cases op with
  | settle | reconcile => rfl
  | reserve | hold => cases htarget

/-- The effects of operations keep the balance; only a resolution asks for a counter. -/
theorem Balanced.of_effect (h : Balanced budgetKey w) (hop : (ControlledOperation.ledger op).Exact) (happly : Adapter.sqlalchemy.apply budgetKey w.store op = (outcome, store))
    (heffect : Effect budgetKey w.store op outcome store)
    (hcounter : op.target?.isSome → w.store.budgetStates.get? budgetKey ≠ none) :
    Balanced budgetKey (w.perform budgetKey (.ledger op)) := by
  rw [Watch.perform_of_apply happly]
  cases heffect with
  | unchanged refused =>
    rw [if_pos refused]
    exact h
  | reserved fresh within rows counter backed =>
    have hreserved := h.reserve hop fresh rows counter backed
    simpa [Outcome.isRefusal, Operation.reserves?, Watch.carried, Operation.target?] using hreserved
  | resolved op_eq found rows counter backed =>
    rename_i id basis e row
    have htarget : op.target? = some (id, e.amountUsd) := by
      rcases op_eq with ⟨rfl, -⟩ | ⟨rfl, -⟩ <;> rfl
    have hstarted := hcounter (by rw [htarget]; rfl)
    have hresolved := h.resolve (row.resolved basis e) (hop.target htarget) found rows counter
      backed
    rw [if_neg (by simp [Outcome.isRefusal]), Watch.carried_of_target htarget found,
      Operation.reserves?_of_target htarget]
    simpa [hstarted, AttemptDebitRecord.resolved] using hresolved
  | held found basis rows counters =>
    rename_i id heldAt row
    have hheld := h.rewrite { row with basis := .unresolvedMax, recordedAt := heldAt }
      (h.rows id row found) found rows counters fun _ => rfl
    simpa [Outcome.isRefusal, Operation.reserves?, Watch.carried, Operation.target?] using hheld

/-- Where there is no counter, nothing has been reserved since, and a resolution moves
nothing. -/
theorem Balanced.of_idle (h : Balanced budgetKey w)
    (hnone : w.store.budgetStates.get? budgetKey = none)
    (hop : (ControlledOperation.ledger op).Exact) {e : Evidence}
    (htarget : op.target? = some (id, e.amountUsd)) {accepted : DebitBasis → Bool}
    {basis : DebitBasis}
    (happly : Adapter.sqlalchemy.apply budgetKey w.store op =
      (resolveDebit w.store id accepted basis e fun s' delta =>
        Sql.adjustBudgetSpend s' budgetKey delta e.recordedAt).map .answered (fun s => s)) :
    Balanced budgetKey (w.perform budgetKey (.ledger op)) := by
  rcases resolveDebit_idle hnone id accepted basis e with hrefused | ⟨row, hrow, hdone⟩
  · rw [hrefused] at happly
    rw [Watch.perform_of_apply happly]
    exact h
  · rw [hdone] at happly
    rw [Watch.perform_of_apply happly, if_neg (by simp [Outcome.isRefusal]),
      Watch.carried_of_target htarget hrow, Operation.reserves?_of_target htarget,
      if_pos (.inr hnone), add_zero]
    refine h.rewrite (row.resolved basis e) (hop.target htarget) hrow rfl rfl fun hsince => ?_
    rw [(h.idle hnone).1] at hsince
    cases hsince

/-- Every operation keeps the balance. -/
theorem Balanced.perform (h : Balanced budgetKey w) {op : ControlledOperation} (hop : op.Exact) :
    Balanced budgetKey (w.perform budgetKey op) := by
  cases op with
  | resetBudget => exact h.reset
  | ledger op =>
    cases hcounter : w.store.budgetStates.get? budgetKey with
    | some state =>
      have hexact : ExactStore budgetKey w.store := by
        refine ⟨h.exact, fun id row hrow => (h.rows id row hrow).1, fun _ _ _ => ?_⟩
        rw [hcounter]
        rfl
      refine h.of_effect hop rfl (effect_of_apply hexact .sqlalchemy hop.operation) fun _ => ?_
      rw [hcounter]
      exact Option.some_ne_none state
    | none =>
      cases op with
      | reserve record limit =>
        exact h.of_effect hop rfl (effect_reserve_sql h.exact hop.1 limit) fun htarget =>
          nomatch htarget
      | hold id heldAt =>
        exact h.of_effect hop rfl (effect_hold id heldAt) nofun
      | settle id basis e | reconcile id e => exact h.of_idle hcounter hop rfl rfl

theorem balanced_performAll {ops : List ControlledOperation} (hops : ∀ op ∈ ops, op.Exact) :
    Balanced budgetKey (Watch.performAll budgetKey ops) := by
  -- from the front, so that the induction follows the run
  induction ops using List.reverseRecOn with
  | nil => exact balanced_start
  | append_singleton ops op ih =>
    rw [Watch.performAll, List.foldl_append]
    exact (ih fun o ho => hops o (List.mem_append_left _ ho)).perform (hops op (by simp))

/-- After any sequence of operations and resets, the counter is not negative and covers the
debits reserved since the latest reset exactly if what older debits have carried over into it
is no release. -/
theorem neverUndercounts_iff (budgetKey : String) (ops : List ControlledOperation)
    (hops : ∀ op ∈ ops, op.Exact) :
    NeverUndercounts budgetKey (Watch.performAll budgetKey ops) ↔
      0 ≤ (Watch.performAll budgetKey ops).drift := by
  have hbalanced : Balanced budgetKey _ := balanced_performAll hops
  have hsince : 0 ≤ (Watch.performAll budgetKey ops).sinceTotal := by
    apply totalOf_nonneg
    intro id row hrow
    rw [Dict.get?_restrict] at hrow
    split_ifs at hrow
    exact (hbalanced.rows id row hrow).2
  rw [NeverUndercounts, hbalanced.split]
  constructor
  · intro hcovers
    linarith [hcovers.2]
  · intro hdrift
    exact ⟨by linarith, by linarith⟩

end Balance

/-! ### A settlement behind a reset -/

/-- A reservation of this many dollars. -/
def reservationOf (debitId : String) (amountUsd : ℚ) : Operation :=
  .reserve ⟨debitId, "openai", .reservedMax, amountUsd, none, none, "card-1",
    "2026-01-01T00:00:00Z", none, none, none, none⟩ none

def releaseOf (debitId : String) : Operation :=
  .settle debitId .released ⟨0, none, none, none, "2026-01-01T00:00:00Z"⟩

variable (debitId : String)

theorem exact_reservationOf (dollars : ℕ) :
    (ControlledOperation.ledger (reservationOf debitId dollars)).Exact :=
  ⟨⟨dollars * 10 ^ 8, by push_cast; norm_num⟩, by simp⟩

theorem exact_releaseOf :
    (ControlledOperation.ledger (releaseOf debitId)).Exact :=
  ⟨OnGrid.zero, le_rfl⟩

/-- A debit released between a reset and the first reservation behind it carries nothing
over. -/
theorem neverUndercounts_released_early : NeverUndercounts "live" (Watch.performAll "live"
    [.ledger (reservationOf "a" (5 : ℕ)), .resetBudget, .ledger (releaseOf "a"),
      .ledger (reservationOf "b" (1 : ℕ))]) := by
  refine (neverUndercounts_iff "live" _ ?_).mpr (by decide +kernel)
  intro op hop
  simp only [List.mem_cons, List.not_mem_nil, or_false] at hop
  rcases hop with rfl | rfl | rfl | rfl
  · exact exact_reservationOf "a" 5
  · trivial
  · exact exact_releaseOf "a"
  · exact exact_reservationOf "b" 1

/-- Released behind it, the old debit takes five dollars from a counter of one. -/
theorem undercounts_released_late :
    (Watch.performAll "live" [.ledger (reservationOf "a" (5 : ℕ)), .resetBudget,
      .ledger (reservationOf "b" (1 : ℕ)), .ledger (releaseOf "a")]).store.counter "live" = -4 ∧
    (Watch.performAll "live" [.ledger (reservationOf "a" (5 : ℕ)), .resetBudget,
      .ledger (reservationOf "b" (1 : ℕ)), .ledger (releaseOf "a")]).sinceTotal = 1 := by
  decide +kernel

end LotusAI.Budget
