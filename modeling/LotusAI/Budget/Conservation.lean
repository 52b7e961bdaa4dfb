import LotusAI.Budget.Ledger

/-!
# Conservation of the hard budget

Runs of the ledger on one budget key, through either adapter. The counter is the
sum of the debit rows after every step; no debit is charged or adjusted twice;
and when settlements stay within what was reserved, a hard limit observed by
every reservation is never exceeded.
-/

namespace LotusAI.Budget

open Lib Store List

/-! ### Operations -/

/-- The two stores the operations run on. -/
inductive Adapter
  | memory
  | sqlalchemy
  deriving DecidableEq

/-- An operation on the ledger. -/
inductive Operation
  | reserve (record : AttemptDebitRecord) (hardLimitUsd : Option ℚ)
  | settle (debitId : String) (basis : DebitBasis) (e : Evidence)
  | hold (debitId heldAt : String)
  | reconcile (debitId : String) (e : Evidence)
  deriving DecidableEq

/-- What an operation answers. -/
inductive Outcome
  | reserve (outcome : ReserveOutcome)
  | answered (done : Bool)
  deriving DecidableEq

/-- `DUPLICATE`, `REFUSED` and `False`. -/
def Outcome.isRefusal : Outcome → Bool
  | reserve .reserved => false
  | reserve _ => true
  | answered done => !done

/-- Perform an operation through an adapter. -/
def Adapter.apply (budgetKey : String) (s : Store) : Adapter → Operation → Outcome × Store
  | memory, .reserve record limit =>
    (Memory.reserveAttemptDebit s record budgetKey limit).map .reserve id
  | memory, .settle debitId basis e =>
    (Memory.settleAttemptDebit s debitId budgetKey basis e).map .answered id
  | memory, .reconcile debitId e =>
    (Memory.reconcileAttemptDebit s debitId budgetKey e).map .answered id
  | sqlalchemy, .reserve record limit =>
    (Sql.reserveAttemptDebit s record budgetKey limit).map .reserve id
  | sqlalchemy, .settle debitId basis e =>
    (Sql.settleAttemptDebit s debitId budgetKey basis e).map .answered id
  | sqlalchemy, .reconcile debitId e =>
    (Sql.reconcileAttemptDebit s debitId budgetKey e).map .answered id
  | _, .hold debitId heldAt => (holdAttemptDebitUnresolved s debitId heldAt).map .answered id

/-- The amounts of an operation are exact multiples of `1e-8`. -/
def Operation.Exact : Operation → Prop
  | reserve record _ => OnGrid 8 record.amountUsd
  | settle _ _ e => OnGrid 8 e.amountUsd
  | hold _ _ => True
  | reconcile _ e => OnGrid 8 e.amountUsd

/-! ### Effects -/

/-- A store whose amounts are exact and whose counter exists once there is a debit. -/
structure ExactStore (budgetKey : String) (s : Store) : Prop where
  counter : OnGrid 8 (s.counter budgetKey)
  rows : ∀ id row, s.attemptDebits.get? id = some row → OnGrid 8 row.amountUsd
  backed : ∀ id row, s.attemptDebits.get? id = some row → (s.budgetStates.get? budgetKey).isSome

/-- What an operation can do to an exact store. -/
inductive Effect (budgetKey : String) (s : Store) : Operation → Outcome → Store → Prop
  | unchanged {op : Operation} {outcome : Outcome} (refused : outcome.isRefusal) :
      Effect budgetKey s op outcome s
  | reserved {record : AttemptDebitRecord} {limit : Option ℚ} {s' : Store}
      (fresh : s.attemptDebits.get? record.debitId = none)
      (within : ∀ l, limit = some l → s.counter budgetKey + record.amountUsd ≤ l)
      (rows : s'.attemptDebits = s.attemptDebits.insert record.debitId record)
      (counter : s'.counter budgetKey = s.counter budgetKey + record.amountUsd)
      (backed : (s'.budgetStates.get? budgetKey).isSome) :
      Effect budgetKey s (.reserve record limit) (.reserve .reserved) s'
  | resolved {op : Operation} {id : String} {basis : DebitBasis} {e : Evidence}
      {row : AttemptDebitRecord} {s' : Store}
      (op_eq : op = .settle id basis e ∧ row.basis.settleable ∨
        op = .reconcile id e ∧ basis = .reconciled ∧ row.basis.reconcilable)
      (found : s.attemptDebits.get? id = some row)
      (rows : s'.attemptDebits = s.attemptDebits.insert id (row.resolved basis e))
      (counter : s'.counter budgetKey = s.counter budgetKey + (e.amountUsd - row.amountUsd))
      (backed : (s'.budgetStates.get? budgetKey).isSome) :
      Effect budgetKey s op (.answered true) s'
  | held {id heldAt : String} {row : AttemptDebitRecord} {s' : Store}
      (found : s.attemptDebits.get? id = some row) (basis : row.basis = .reservedMax)
      (rows : s'.attemptDebits = s.attemptDebits.insert id
        { row with basis := .unresolvedMax, recordedAt := heldAt })
      (counters : s'.budgetStates = s.budgetStates) :
      Effect budgetKey s (.hold id heldAt) (.answered true) s'

variable (s : Store) (record : BudgetStateRecord)

@[simp] theorem counter_saveDebit (id k : String) (row : AttemptDebitRecord) :
    (s.saveDebit id row).counter k = s.counter k := rfl

@[simp] theorem counter_saveBudget :
    (s.saveBudget record).counter record.budgetKey = record.currentSpendUsd := by
  simp [saveBudget, counter]

theorem isSome_saveBudget :
    ((s.saveBudget record).budgetStates.get? record.budgetKey).isSome := by
  simp [saveBudget]

theorem round8_of_onGrid {x : ℚ} (hx : OnGrid 8 x) : round8 x = x :=
  Rounding.halfEven.places_of_onGrid hx

theorem roundedSpendSql_of_onGrid {x : ℚ} (hx : OnGrid 8 x) : roundedSpendSql x = x :=
  Rounding.halfAway.places_of_onGrid hx

section Effects

variable {budgetKey : String} {s : Store} {record : AttemptDebitRecord} {amount : ℚ}

/-- On exact amounts the in-memory counter moves by exactly the amount. -/
theorem counter_addBudgetSpend (hcounter : OnGrid 8 (s.counter budgetKey))
    (hamount : OnGrid 8 amount) (at' : String) :
    (Memory.addBudgetSpend s budgetKey amount at').counter budgetKey =
      s.counter budgetKey + amount := by
  rw [Memory.addBudgetSpend, round8_of_onGrid (hcounter.add hamount)]
  exact counter_saveBudget s ⟨budgetKey, _, at'⟩

/-- On exact amounts an SQL counter that exists moves by exactly the amount. -/
theorem counter_adjustBudgetSpend (hcounter : OnGrid 8 (s.counter budgetKey))
    (hbacked : (s.budgetStates.get? budgetKey).isSome) (hamount : OnGrid 8 amount)
    (at' : String) :
    (Sql.adjustBudgetSpend s budgetKey amount at').counter budgetKey =
      s.counter budgetKey + amount ∧
    ((Sql.adjustBudgetSpend s budgetKey amount at').budgetStates.get? budgetKey).isSome := by
  obtain ⟨state, hstate⟩ := Option.isSome_iff_exists.mp hbacked
  have hvalue : s.counter budgetKey = state.currentSpendUsd := by simp [counter, hstate]
  simp only [Sql.adjustBudgetSpend, hstate]
  rw [hvalue] at hcounter ⊢
  rw [roundedSpendSql_of_onGrid (hcounter.add hamount)]
  exact ⟨counter_saveBudget s ⟨budgetKey, _, at'⟩, isSome_saveBudget s ⟨budgetKey, _, at'⟩⟩

theorem effect_reserve_memory (h : ExactStore budgetKey s)
    (hamount : OnGrid 8 record.amountUsd) (limit : Option ℚ) :
    Effect budgetKey s (.reserve record limit)
      (.reserve (Memory.reserveAttemptDebit s record budgetKey limit).1)
      (Memory.reserveAttemptDebit s record budgetKey limit).2 := by
  unfold Memory.reserveAttemptDebit
  split_ifs with hdup hlimit
  · exact .unchanged rfl
  · exact .unchanged rfl
  · have hsum := counter_addBudgetSpend h.counter hamount
      record.recordedAt
    refine .reserved (by simpa using hdup) (fun l hl => ?_) rfl hsum (isSome_saveBudget _ _)
    rw [hl, round8_of_onGrid (h.counter.add hamount)] at hlimit
    simpa using hlimit

theorem effect_reserve_sql (hcounter : OnGrid 8 (s.counter budgetKey)) (hamount : OnGrid 8 record.amountUsd) (limit : Option ℚ) :
    Effect budgetKey s (.reserve record limit)
      (.reserve (Sql.reserveAttemptDebit s record budgetKey limit).1)
      (Sql.reserveAttemptDebit s record budgetKey limit).2 := by
  unfold Sql.reserveAttemptDebit
  by_cases hdup : (s.attemptDebits.get? record.debitId).isSome
  · rw [if_pos hdup]
    exact .unchanged rfl
  have hfresh : s.attemptDebits.get? record.debitId = none := by simpa using hdup
  cases hstate : s.budgetStates.get? budgetKey with
  | some state =>
    have hvalue : s.counter budgetKey = state.currentSpendUsd := by simp [counter, hstate]
    have hexact := roundedSpendSql_of_onGrid (hvalue ▸ hcounter.add hamount)
    dsimp only
    split_ifs with hlimit
    · refine .reserved hfresh (fun l hl => ?_) rfl ?_ (isSome_saveBudget _ _)
      · simpa [hl, hexact, hvalue] using hlimit
      · rw [counter_saveDebit, hvalue, hexact]
        exact counter_saveBudget s ⟨budgetKey, _, record.recordedAt⟩
    · exact .unchanged rfl
  | none =>
    have hvalue : s.counter budgetKey = 0 := by simp [counter, hstate]
    have hexact := round8_of_onGrid hamount
    split_ifs with hlimit
    · exact .unchanged rfl
    · refine .reserved hfresh (fun l hl => ?_) rfl ?_ (isSome_saveBudget _ _)
      · simpa [hl, hexact, hvalue] using hlimit
      · rw [counter_saveDebit, hvalue, hexact, zero_add]
        exact counter_saveBudget s ⟨budgetKey, _, record.recordedAt⟩

variable {op : Operation} {outcome : Outcome} {s' : Store}

/-- Settlements and reconciliations, given what the adapter does to the counter. -/
theorem effect_resolve (h : ExactStore budgetKey s) {id : String} {basis : DebitBasis}
    {e : Evidence} (accepted : DebitBasis → Bool) (adjust : Store → ℚ → Store)
    (hamount : OnGrid 8 e.amountUsd)
    (hop : ∀ row : AttemptDebitRecord, accepted row.basis →
      op = .settle id basis e ∧ row.basis.settleable ∨
        op = .reconcile id e ∧ basis = .reconciled ∧ row.basis.reconcilable)
    (hrows : ∀ s delta, (adjust s delta).attemptDebits = s.attemptDebits)
    (hadjust : ∀ s delta, OnGrid 8 (s.counter budgetKey) →
      (s.budgetStates.get? budgetKey).isSome → OnGrid 8 delta →
        (adjust s delta).counter budgetKey = s.counter budgetKey + delta ∧
          ((adjust s delta).budgetStates.get? budgetKey).isSome) :
    Effect budgetKey s op (.answered (resolveDebit s id accepted basis e adjust).1)
      (resolveDebit s id accepted basis e adjust).2 := by
  unfold resolveDebit
  cases hrow : s.attemptDebits.get? id with
  | none => exact .unchanged rfl
  | some row =>
    dsimp only
    split_ifs with haccepted
    · have hdelta : OnGrid 8 (e.amountUsd - row.amountUsd) := hamount.sub (h.rows id row hrow)
      obtain ⟨hcounter, hbacked⟩ := hadjust (s.saveDebit id (row.resolved basis e))
        (e.amountUsd - row.amountUsd) h.counter (h.backed id row hrow) hdelta
      rw [round8_of_onGrid hdelta]
      exact .resolved (hop row haccepted) hrow (hrows _ _) hcounter hbacked
    · exact .unchanged rfl

theorem effect_hold (id heldAt : String) :
    Effect budgetKey s (.hold id heldAt) (.answered (holdAttemptDebitUnresolved s id heldAt).1)
      (holdAttemptDebitUnresolved s id heldAt).2 := by
  unfold holdAttemptDebitUnresolved
  cases hrow : s.attemptDebits.get? id with
  | none => exact .unchanged rfl
  | some row =>
    dsimp only
    split_ifs with hbasis
    · exact .held hrow hbasis rfl rfl
    · exact .unchanged rfl

theorem attemptDebits_adjustBudgetSpend (k : String) (delta : ℚ) (at' : String) :
    (Sql.adjustBudgetSpend s k delta at').attemptDebits = s.attemptDebits := by
  unfold Sql.adjustBudgetSpend
  split <;> rfl

/-- Both adapters have these effects and no others. -/
theorem effect_of_apply (h : ExactStore budgetKey s) (adapter : Adapter) (hop : op.Exact) :
    Effect budgetKey s op (adapter.apply budgetKey s op).1 (adapter.apply budgetKey s op).2 := by
  cases op with
  | hold id heldAt => cases adapter <;> exact effect_hold id heldAt
  | reserve record limit =>
    cases adapter with
    | memory => exact effect_reserve_memory h hop limit
    | sqlalchemy => exact effect_reserve_sql h.counter hop limit
  | settle id basis e =>
    cases adapter with
    | memory =>
      exact effect_resolve h DebitBasis.settleable
        (fun s' delta => Memory.addBudgetSpend s' budgetKey delta e.recordedAt) hop
        (fun row hrow => .inl ⟨rfl, hrow⟩) (fun _ _ => rfl) fun s delta hcounter _ hdelta =>
          ⟨counter_addBudgetSpend hcounter hdelta _, isSome_saveBudget _ _⟩
    | sqlalchemy =>
      exact effect_resolve h DebitBasis.settleable
        (fun s' delta => Sql.adjustBudgetSpend s' budgetKey delta e.recordedAt) hop
        (fun row hrow => .inl ⟨rfl, hrow⟩) (fun _ _ => attemptDebits_adjustBudgetSpend ..)
        fun s delta hcounter hbacked hdelta =>
          counter_adjustBudgetSpend hcounter hbacked hdelta _
  | reconcile id e =>
    cases adapter with
    | memory =>
      exact effect_resolve h DebitBasis.reconcilable
        (fun s' delta => Memory.addBudgetSpend s' budgetKey delta e.recordedAt) hop
        (fun row hrow => .inr ⟨rfl, rfl, hrow⟩) (fun _ _ => rfl) fun s delta hcounter _ hdelta =>
          ⟨counter_addBudgetSpend hcounter hdelta _, isSome_saveBudget _ _⟩
    | sqlalchemy =>
      exact effect_resolve h DebitBasis.reconcilable
        (fun s' delta => Sql.adjustBudgetSpend s' budgetKey delta e.recordedAt) hop
        (fun row hrow => .inr ⟨rfl, rfl, hrow⟩) (fun _ _ => attemptDebits_adjustBudgetSpend ..)
        fun s delta hcounter hbacked hdelta =>
          counter_adjustBudgetSpend hcounter hbacked hdelta _

section

variable (heffect : Effect budgetKey s op outcome s')

include heffect

/-- An effect keeps the store exact. -/
theorem Effect.exactStore (h : ExactStore budgetKey s)
    (hop : op.Exact) : ExactStore budgetKey s' := by
  cases heffect with
  | unchanged => exact h
  | reserved fresh within rows counter backed =>
    exact ⟨counter ▸ h.counter.add hop, rows ▸ Dict.forall_insert hop h.rows, fun _ _ _ => backed⟩
  | resolved op_eq found rows counter backed =>
    rename_i debitId basis e oldRow
    have he : OnGrid 8 e.amountUsd := by
      rcases op_eq with ⟨rfl, -⟩ | ⟨rfl, -⟩ <;> exact hop
    have hdelta := he.sub (h.rows _ _ found)
    exact ⟨counter ▸ h.counter.add hdelta, rows ▸ Dict.forall_insert he h.rows, fun _ _ _ => backed⟩
  | held found basis rows counters =>
    have hbacked := h.backed _ _ found
    have hheld := h.rows _ _ found
    refine ⟨?_, rows ▸ Dict.forall_insert hheld h.rows, fun _ _ _ => counters ▸ hbacked⟩
    rw [counter, counters]
    exact h.counter

/-- An effect moves the counter and the rows by the same amount. -/
theorem Effect.counter_eq_total
    (h : s.counter budgetKey = s.total) : s'.counter budgetKey = s'.total := by
  cases heffect with
  | unchanged => exact h
  | reserved fresh within rows counter backed =>
    rw [counter, total, rows, Dict.sum_values_insert, fresh, h]
    simp [total]
  | resolved op_eq found rows counter backed =>
    rw [counter, total, rows, Dict.sum_values_insert, found, h]
    simp [total, AttemptDebitRecord.resolved]
  | held found basis rows counters =>
    rw [counter, counters, total, rows, Dict.sum_values_insert, found]
    simpa [total, counter] using h

/-- A refusal changes nothing. -/
theorem Effect.eq_of_refusal (h : outcome.isRefusal) :
    s' = s := by
  cases heffect with
  | unchanged => rfl
  | reserved | resolved | held => cases h

end

end Effects

/-! ### Histories -/

/-- An operation and what it was answered. -/
structure Entry where
  op : Operation
  outcome : Outcome
  deriving DecidableEq

/-- The histories of an adapter on one budget key from the empty store, all amounts exact,
and the stores they lead to. -/
inductive Run (adapter : Adapter) (budgetKey : String) : List Entry → Store → Prop
  | nil : Run adapter budgetKey [] .empty
  | snoc {history : List Entry} {s : Store} (op : Operation)
      (run : Run adapter budgetKey history s) (exact : op.Exact) :
      Run adapter budgetKey (history ++ [⟨op, (adapter.apply budgetKey s op).1⟩])
        (adapter.apply budgetKey s op).2

/-- The history and the store of a list of operations performed in order. -/
def Adapter.replay (adapter : Adapter) (budgetKey : String) (ops : List Operation) :
    List Entry × Store :=
  ops.foldl (fun (history, s) op =>
    let (outcome, s') := adapter.apply budgetKey s op
    (history ++ [⟨op, outcome⟩], s')) ([], .empty)

theorem run_replay (adapter : Adapter) (budgetKey : String) {ops : List Operation}
    (hops : ∀ op ∈ ops, op.Exact) :
    Run adapter budgetKey (adapter.replay budgetKey ops).1 (adapter.replay budgetKey ops).2 := by
  induction ops using reverseRecOn with
  | nil => exact .nil
  | append_singleton ops op ih =>
    rw [Adapter.replay, foldl_append]
    exact .snoc op (ih fun o ho => hops o (mem_append_left _ ho)) (hops op (by simp))

/-- The entry charged this debit. -/
def Entry.reserves (id : String) : Entry → Bool
  | ⟨.reserve record _, .reserve .reserved⟩ => record.debitId = id
  | _ => false

/-- The entry moved the counter by this debit's settlement. -/
def Entry.adjusts (id : String) : Entry → Bool
  | ⟨.settle debitId _ _, .answered true⟩ => debitId = id
  | ⟨.reconcile debitId _, .answered true⟩ => debitId = id
  | _ => false

variable {id : String} {op : Operation} {outcome : Outcome}

theorem Entry.reserves_of_refusal (h : outcome.isRefusal) :
    Entry.reserves id ⟨op, outcome⟩ = false := by
  rcases outcome with (_ | _ | _) | (_ | _) <;> cases op <;> first | rfl | cases h

theorem Entry.adjusts_of_refusal (h : outcome.isRefusal) :
    Entry.adjusts id ⟨op, outcome⟩ = false := by
  rcases outcome with (_ | _ | _) | (_ | _) <;> cases op <;> first | rfl | cases h

/-- The services reserve with basis `RESERVED_MAX` and settle with `ACTUAL_USAGE` or
`RELEASED`, never back to a pending basis. -/
def Operation.Governed : Operation → Prop
  | reserve record _ => record.basis = .reservedMax
  | settle _ basis _ => basis = .actualUsage ∨ basis = .released
  | _ => True

section Resolutions

variable {basis old : DebitBasis} {e : Evidence}
  (hop : op = .settle id basis e ∧ old.settleable ∨
    op = .reconcile id e ∧ basis = .reconciled ∧ old.reconcilable)

include hop

/-- What is resolved was pending. -/
theorem reconcilable_of_resolved : old.reconcilable := by
  rcases hop with ⟨-, hsettle⟩ | ⟨-, -, hreconcile⟩
  · simp_all [DebitBasis.settleable, DebitBasis.reconcilable]
  · exact hreconcile

/-- A governed resolution leaves the pending bases for good. -/
theorem not_reconcilable_of_governed (hgov : op.Governed) : basis.reconcilable = false := by
  rcases hop with ⟨rfl, -⟩ | ⟨-, rfl, -⟩
  · rcases hgov with rfl | rfl <;> rfl
  · rfl

end Resolutions

/-- Every reservation observes the hard limit `l`. -/
def Operation.Limited (l : ℚ) : Operation → Prop
  | reserve _ limit => limit = some l
  | _ => True

/-- The evidenced amount of a settlement or a reconciliation of this debit. -/
def Operation.evidence? (id : String) : Operation → Option ℚ
  | settle debitId _ e => if debitId = id then some e.amountUsd else none
  | reconcile debitId e => if debitId = id then some e.amountUsd else none
  | _ => none

/-- No settlement or reconciliation exceeds what was reserved for its debit. -/
def WithinReserved (history : List Entry) : Prop :=
  ∀ record limit, ⟨.reserve record limit, .reserve .reserved⟩ ∈ history →
    ∀ entry ∈ history, ∀ amount, entry.op.evidence? record.debitId = some amount →
      amount ≤ record.amountUsd

/-- What holds after every history. -/
structure Conserved (adapter : Adapter) (budgetKey : String) (history : List Entry)
    (s : Store) : Prop where
  counter_eq_total : s.counter budgetKey = s.total
  refusal_unchanged : ∀ op, op.Exact → (adapter.apply budgetKey s op).1.isRefusal →
    (adapter.apply budgetKey s op).2 = s
  charged_once : ∀ id, history.countP (Entry.reserves id) ≤ 1
  adjusted_once : (∀ entry ∈ history, entry.op.Governed) →
    ∀ id, history.countP (Entry.adjusts id) ≤ 1
  bounded : ∀ l, 0 ≤ l → (∀ entry ∈ history, entry.op.Governed ∧ entry.op.Limited l) →
    WithinReserved history → s.counter budgetKey ≤ l

namespace Run

variable {adapter : Adapter} {budgetKey : String} {history : List Entry} {s : Store}

theorem exactStore (run : Run adapter budgetKey history s) : ExactStore budgetKey s := by
  induction run with
  | nil => exact ⟨OnGrid.zero, by simp [empty], by simp [empty]⟩
  | snoc op _ hop ih => exact (effect_of_apply ih adapter hop).exactStore ih hop

/-- Induction over the effects of a run. -/
@[elab_as_elim]
theorem effectInduction
    {motive : ∀ history s, Run adapter budgetKey history s → Prop} (nil : motive [] .empty .nil)
    (snoc : ∀ before mid op outcome s' run run', Effect budgetKey mid op outcome s' →
      motive before mid run → motive (before ++ [⟨op, outcome⟩]) s' run')
    (run : Run adapter budgetKey history s) : motive history s run := by
  induction run with
  | nil => exact nil
  | snoc op run hop ih =>
    exact snoc _ _ op _ _ run _ (effect_of_apply run.exactStore adapter hop) ih

theorem counter_eq_total (run : Run adapter budgetKey history s) :
    s.counter budgetKey = s.total := by
  induction run using effectInduction with
  | nil => rfl
  | snoc before mid op outcome s' run run' heffect ih => exact heffect.counter_eq_total ih

/-- A debit is charged by exactly one entry once it has a row, and by none before. -/
theorem countP_reserves (run : Run adapter budgetKey history s) (id : String) :
    history.countP (Entry.reserves id) =
      if (s.attemptDebits.get? id).isSome then 1 else 0 := by
  induction run using effectInduction with
  | nil => simp [empty]
  | snoc before mid op outcome s' run run' heffect ih =>
    rw [countP_append, ih, countP_singleton]
    cases heffect with
    | unchanged refused =>
      simp [Entry.reserves_of_refusal refused]
    | reserved fresh within rows counter backed =>
      rename_i record limit
      rw [rows, Dict.get?_insert]
      by_cases hid : id = record.debitId
      · subst hid; simp [Entry.reserves, fresh]
      · simp [Entry.reserves, hid, Ne.symm hid]
    | resolved op_eq found rows counter backed =>
      rename_i debitId basis e row
      rw [rows, Dict.get?_insert]
      have hno : Entry.reserves id ⟨op, .answered true⟩ = false := by
        rcases op_eq with ⟨rfl, -⟩ | ⟨rfl, -⟩ <;> rfl
      by_cases hid : id = debitId
      · subst hid; simp [hno, found]
      · simp [hno, hid]
    | held found basis rows counters =>
      rename_i debitId heldAt row
      rw [rows, Dict.get?_insert]
      by_cases hid : id = debitId
      · subst hid; simp [Entry.reserves, found]
      · simp [Entry.reserves, hid]

/-- A debit that was adjusted was adjusted once and is no longer pending. -/
theorem countP_adjusts (run : Run adapter budgetKey history s)
    (hgov : ∀ entry ∈ history, entry.op.Governed) (id : String) :
    history.countP (Entry.adjusts id) = 0 ∨ history.countP (Entry.adjusts id) = 1 ∧
      ∃ row, s.attemptDebits.get? id = some row ∧ row.basis.reconcilable = false := by
  induction run using effectInduction with
  | nil => exact .inl rfl
  | snoc before mid op outcome s' run run' heffect ih =>
    have hbefore := ih fun entry hentry => hgov entry (mem_append_left _ hentry)
    have hop' : op.Governed := hgov ⟨op, _⟩ (mem_append_right _ (mem_singleton_self _))
    cases heffect with
    | unchanged refused => simpa [Entry.adjusts_of_refusal refused] using hbefore
    | reserved fresh within rows counter backed =>
      rename_i record limit
      rw [rows, Dict.get?_insert]
      by_cases hid : id = record.debitId
      · subst hid
        have hzero : before.countP (Entry.adjusts record.debitId) = 0 := by
          rcases hbefore with hzero | ⟨-, row, hrow, -⟩
          · exact hzero
          · rw [fresh] at hrow; cases hrow
        exact .inl (by simp [hzero, Entry.adjusts])
      · simpa [Entry.adjusts, hid] using hbefore
    | resolved op_eq found rows counter backed =>
      rename_i debitId basis e row
      rw [rows, Dict.get?_insert]
      have hadjusts : Entry.adjusts id ⟨op, .answered true⟩ = decide (debitId = id) := by
        rcases op_eq with ⟨rfl, -⟩ | ⟨rfl, -⟩ <;> rfl
      by_cases hid : id = debitId
      · subst hid
        have hpending := reconcilable_of_resolved op_eq
        have hdone := not_reconcilable_of_governed op_eq hop'
        have hzero : before.countP (Entry.adjusts id) = 0 := by
          rcases hbefore with hzero | ⟨-, row', hrow', hresolved⟩
          · exact hzero
          · rw [found] at hrow'
            cases hrow'
            rw [hpending] at hresolved
            cases hresolved
        refine .inr ⟨by simp [hzero, hadjusts], row.resolved basis e, by simp, hdone⟩
      · simpa [hadjusts, hid, Ne.symm hid] using hbefore
    | held found basis rows counters =>
      rename_i debitId heldAt row
      rw [rows, Dict.get?_insert]
      by_cases hid : id = debitId
      · subst hid
        rcases hbefore with hzero | ⟨-, row', hrow', hresolved⟩
        · exact .inl (by simp [hzero, Entry.adjusts])
        · rw [found] at hrow'
          cases hrow'
          rw [basis] at hresolved
          cases hresolved
      · simpa [Entry.adjusts, hid] using hbefore

/-- A pending row still carries the amount it was reserved with. -/
theorem exists_reservation (run : Run adapter budgetKey history s)
    (hgov : ∀ entry ∈ history, entry.op.Governed) {row : AttemptDebitRecord}
    (hrow : s.attemptDebits.get? id = some row) (hpending : row.basis.reconcilable) :
    ∃ record limit, ⟨.reserve record limit, .reserve .reserved⟩ ∈ history ∧
      record.debitId = id ∧ record.amountUsd = row.amountUsd := by
  induction run using effectInduction generalizing row with
  | nil => simp [empty] at hrow
  | snoc before mid op outcome s' run run' heffect ih =>
    have hbefore := @ih fun entry hentry => hgov entry (mem_append_left _ hentry)
    have hop' : op.Governed := hgov ⟨op, _⟩ (mem_append_right _ (mem_singleton_self _))
    have hold : ∀ {row' : AttemptDebitRecord}, mid.attemptDebits.get? id = some row' →
        row'.basis.reconcilable → row'.amountUsd = row.amountUsd →
        ∃ record limit,
          ⟨.reserve record limit, .reserve .reserved⟩ ∈ before ++ [(⟨op, outcome⟩ : Entry)] ∧
            record.debitId = id ∧ record.amountUsd = row.amountUsd := by
      intro row' hrow' hpending' hamount
      obtain ⟨record, limit, hmem, hid, heq⟩ := hbefore hrow' hpending'
      exact ⟨record, limit, mem_append_left _ hmem, hid, heq.trans hamount⟩
    cases heffect with
    | unchanged => exact hold hrow hpending rfl
    | reserved fresh within rows counter backed =>
      rename_i record limit
      rw [rows, Dict.get?_insert] at hrow
      split_ifs at hrow with hid
      · cases hrow
        exact ⟨row, limit, by simp, hid.symm, rfl⟩
      · exact hold hrow hpending rfl
    | resolved op_eq found rows counter backed =>
      rename_i debitId basis e oldRow
      rw [rows, Dict.get?_insert] at hrow
      split_ifs at hrow with hid
      · cases hrow
        have hdone := not_reconcilable_of_governed op_eq hop'
        rw [AttemptDebitRecord.resolved, hdone] at hpending
        cases hpending
      · exact hold hrow hpending rfl
    | held found basis rows counters =>
      rename_i debitId heldAt oldRow
      rw [rows, Dict.get?_insert] at hrow
      split_ifs at hrow with hid
      · cases hrow
        subst hid
        exact hold found (by rw [basis]; rfl) rfl
      · exact hold hrow hpending rfl

/-- A settlement within its reservation never raises the counter, so the limit that every
reservation passed still holds. -/
theorem counter_le (run : Run adapter budgetKey history s) {l : ℚ} (hl : 0 ≤ l)
    (hops : ∀ entry ∈ history, entry.op.Governed ∧ entry.op.Limited l)
    (hwithin : WithinReserved history) : s.counter budgetKey ≤ l := by
  induction run using effectInduction with
  | nil => exact hl
  | snoc before mid op outcome s' run run' heffect ih =>
    have hbefore : mid.counter budgetKey ≤ l := by
      refine ih (fun entry hentry => hops entry (mem_append_left _ hentry)) ?_
      intro record limit hrecord entry hentry
      exact hwithin record limit (mem_append_left _ hrecord) entry
        (mem_append_left _ hentry)
    have hop' := hops ⟨op, outcome⟩ (mem_append_right _ (mem_singleton_self _))
    cases heffect with
    | unchanged => exact hbefore
    | reserved fresh within rows counter backed =>
      rw [counter]
      exact within l hop'.2
    | resolved op_eq found rows counter backed =>
      rename_i id basis e row
      have hpending := reconcilable_of_resolved op_eq
      obtain ⟨record, limit, hmem, hid, hamount⟩ := run.exists_reservation
        (fun entry hentry => (hops entry (mem_append_left _ hentry)).1) found hpending
      have hevidence : op.evidence? record.debitId = some e.amountUsd := by
        rcases op_eq with ⟨rfl, -⟩ | ⟨rfl, -⟩ <;> simp [Operation.evidence?, hid]
      have hle := hwithin record limit (mem_append_left _ hmem) ⟨op, .answered true⟩
        (by simp) _ hevidence
      linarith
    | held found basis rows counters =>
      rw [counter, counters]
      exact hbefore

end Run

/-- The hard budget is conserved: after every history the counter is the sum of the debit
rows, refusals change nothing, each debit is charged and adjusted at most once, and a limit
that every reservation observed is not exceeded. -/
theorem conserved_of_run (adapter : Adapter) (budgetKey : String) (history : List Entry)
    (s : Store) (run : Run adapter budgetKey history s) :
    Conserved adapter budgetKey history s where
  counter_eq_total := run.counter_eq_total
  refusal_unchanged op hop hrefusal :=
    (effect_of_apply run.exactStore adapter hop).eq_of_refusal hrefusal
  charged_once id := by
    rw [run.countP_reserves id]
    split_ifs <;> omega
  adjusted_once hgov id := by
    rcases run.countP_adjusts hgov id with hzero | ⟨hone, -⟩ <;> omega
  bounded l hl hops hwithin := run.counter_le hl hops hwithin

/-! A debit of two cents that is reserved under a limit of five and settled to one. -/

def sampleDebit : AttemptDebitRecord where
  debitId := "adbt:exec-1:openai:0"
  providerId := "openai"
  basis := .reservedMax
  amountUsd := 2 / 100
  inputTokens := some 400
  outputTokens := some 100
  rateCardRef := "card-1"
  recordedAt := "2026-01-05T09:00:00Z"
  candidateEntryId := some "openai"
  modelRevision := none
  attemptIndex := some 0
  candidateIdV2 := none

def sampleUsage : Evidence where
  amountUsd := 1 / 100
  inputTokens := some 120
  outputTokens := some 60
  rateCardRef := some "card-1"
  recordedAt := "2026-01-05T09:00:02Z"

def sampleOperations : List Operation :=
  [.reserve sampleDebit (some (5 / 100)), .settle sampleDebit.debitId .actualUsage sampleUsage]

theorem exact_sampleOperations : ∀ op ∈ sampleOperations, op.Exact := by
  intro op hop
  simp only [sampleOperations, mem_cons, not_mem_nil, or_false] at hop
  rcases hop with rfl | rfl
  · exact ⟨2000000, by norm_num [sampleDebit]⟩
  · exact ⟨1000000, by norm_num [sampleUsage]⟩

theorem replay_sampleOperations :
    (Adapter.sqlalchemy.replay "global" sampleOperations).1 =
      [⟨.reserve sampleDebit (some (5 / 100)), .reserve .reserved⟩,
        ⟨.settle sampleDebit.debitId .actualUsage sampleUsage, .answered true⟩] := by
  decide +kernel

theorem withinReserved_sampleOperations :
    WithinReserved (Adapter.sqlalchemy.replay "global" sampleOperations).1 := by
  rw [replay_sampleOperations]
  intro record limit hrecord entry hentry amount hamount
  obtain ⟨rfl, rfl⟩ : record = sampleDebit ∧ limit = some (5 / 100) := by simpa using hrecord
  simp only [mem_cons, not_mem_nil, or_false] at hentry
  rcases hentry with rfl | rfl
  · simp [Operation.evidence?] at hamount
  · obtain rfl : sampleUsage.amountUsd = amount := by simpa [Operation.evidence?] using hamount
    norm_num [sampleUsage, sampleDebit]

/-- The theorem applies to a history that charges and adjusts the counter under a limit. -/
theorem conserved_sampleOperations :
    (Adapter.sqlalchemy.replay "global" sampleOperations).2.counter "global" = 1 / 100 ∧
      (Adapter.sqlalchemy.replay "global" sampleOperations).2.counter "global" ≤ 5 / 100 := by
  refine ⟨by decide +kernel, ?_⟩
  have conserved := conserved_of_run _ _ _ _ (run_replay .sqlalchemy "global" exact_sampleOperations)
  refine conserved.bounded (5 / 100) (by norm_num) ?_ withinReserved_sampleOperations
  rw [replay_sampleOperations]
  intro entry hentry
  simp only [List.mem_cons, List.not_mem_nil, or_false] at hentry
  rcases hentry with rfl | rfl
  · exact ⟨rfl, rfl⟩
  · exact ⟨.inl rfl, trivial⟩

end LotusAI.Budget
