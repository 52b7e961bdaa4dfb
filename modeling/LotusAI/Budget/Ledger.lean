import LotusAI.Lib.Decimal
import LotusAI.Lib.Dict

/-!
# The attempt-debit ledger

Every provider attempt reserves its governed maximum before the provider is
called, and resolves it afterwards: settled to evidenced usage, released, held
as unresolved exposure, or reconciled by an operator. Each debit is a row; a
counter per budget key carries the total. Two adapters store them, in memory and
in SQL, with the same operations and slightly different counter arithmetic.

Amounts are exact rationals; the source rounds them to eight decimals.
-/

namespace LotusAI.Budget

open Lib

/-- The evidence a debit row's amount rests on. -/
inductive DebitBasis
  | reservedMax
  | unresolvedMax
  | actualUsage
  | released
  | reconciled
  | conservativeEstimate
  | mixed
  | none
  deriving DecidableEq

/-- `ProviderAttemptDebitRecord`. -/
structure AttemptDebitRecord where
  debitId : String
  providerId : String
  basis : DebitBasis
  amountUsd : ℚ
  inputTokens : Option ℤ
  outputTokens : Option ℤ
  rateCardRef : String
  recordedAt : String
  candidateEntryId : Option String
  modelRevision : Option String
  attemptIndex : Option ℕ
  candidateIdV2 : Option String
  deriving DecidableEq

/-- `ProviderBudgetStateRecord`. -/
structure BudgetStateRecord where
  budgetKey : String
  currentSpendUsd : ℚ
  updatedAt : String
  deriving DecidableEq

/-- The budget part of a provider-operations repository. -/
structure Store where
  budgetStates : Dict String BudgetStateRecord
  attemptDebits : Dict String AttemptDebitRecord
  deriving DecidableEq

/-- The store before the first reservation. -/
def Store.empty : Store := ⟨.empty, .empty⟩

/-- What a budget key has been charged. -/
def Store.counter (s : Store) (budgetKey : String) : ℚ :=
  ((s.budgetStates.get? budgetKey).map BudgetStateRecord.currentSpendUsd).getD 0

/-- What the debit rows add up to. -/
def Store.total (s : Store) : ℚ := (s.attemptDebits.values.map AttemptDebitRecord.amountUsd).sum

/-- `round(_, 8)`. -/
def round8 : ℚ → ℚ := Rounding.halfEven.places 8

/-- `_rounded_spend_sql`. -/
def roundedSpendSql : ℚ → ℚ := Rounding.halfAway.places 8

/-- The answers of `reserve_attempt_debit`. -/
inductive ReserveOutcome
  | reserved
  | duplicate
  | refused
  deriving DecidableEq

/-- The evidence a settlement or a reconciliation brings. -/
structure Evidence where
  amountUsd : ℚ
  inputTokens : Option ℤ
  outputTokens : Option ℤ
  rateCardRef : Option String
  recordedAt : String
  deriving DecidableEq

/-- A row resolved by evidence; it keeps its rate card where the evidence names none. -/
def AttemptDebitRecord.resolved (row : AttemptDebitRecord) (basis : DebitBasis) (e : Evidence) :
    AttemptDebitRecord :=
  { row with
    basis := basis
    amountUsd := e.amountUsd
    inputTokens := e.inputTokens
    outputTokens := e.outputTokens
    rateCardRef := e.rateCardRef.getD row.rateCardRef
    recordedAt := e.recordedAt }

def Store.saveDebit (s : Store) (debitId : String) (row : AttemptDebitRecord) : Store :=
  { s with attemptDebits := s.attemptDebits.insert debitId row }

/-- Write a counter. -/
def Store.saveBudget (s : Store) (record : BudgetStateRecord) : Store :=
  { s with budgetStates := s.budgetStates.insert record.budgetKey record }

/-- Settlements and reconciliations: a row with one of the accepted bases is rewritten and
the counter moves by the difference. The adapters differ in `adjust`. -/
def resolveDebit (s : Store) (debitId : String) (accepted : DebitBasis → Bool)
    (basis : DebitBasis) (e : Evidence) (adjust : Store → ℚ → Store) : Bool × Store :=
  match s.attemptDebits.get? debitId with
  | none => (false, s)
  | some row =>
    if accepted row.basis then
      let delta := round8 (e.amountUsd - row.amountUsd)
      (true, adjust (s.saveDebit debitId (row.resolved basis e)) delta)
    else (false, s)

/-- `hold_attempt_debit_unresolved`: the amount stays on the row and in the counter. -/
def holdAttemptDebitUnresolved (s : Store) (debitId heldAt : String) : Bool × Store :=
  match s.attemptDebits.get? debitId with
  | none => (false, s)
  | some row =>
    if row.basis = .reservedMax then
      (true, s.saveDebit debitId { row with basis := .unresolvedMax, recordedAt := heldAt })
    else (false, s)

/-- The bases a settlement accepts. -/
def DebitBasis.settleable (basis : DebitBasis) : Bool := basis = .reservedMax

/-- The bases a reconciliation accepts. -/
def DebitBasis.reconcilable (basis : DebitBasis) : Bool :=
  basis = .unresolvedMax ∨ basis = .reservedMax

/-! ### The in-memory adapter -/

namespace Memory

def addBudgetSpend (s : Store) (budgetKey : String) (amountUsd : ℚ) (updatedAt : String) : Store :=
  s.saveBudget ⟨budgetKey, round8 (s.counter budgetKey + amountUsd), updatedAt⟩

def reserveAttemptDebit (s : Store) (record : AttemptDebitRecord) (budgetKey : String)
    (hardLimitUsd : Option ℚ) : ReserveOutcome × Store :=
  if (s.attemptDebits.get? record.debitId).isSome then (.duplicate, s)
  else if hardLimitUsd.any fun limit =>
      limit < round8 (s.counter budgetKey + record.amountUsd) then (.refused, s)
  else (.reserved, addBudgetSpend (s.saveDebit record.debitId record) budgetKey record.amountUsd
    record.recordedAt)

def settleAttemptDebit (s : Store) (debitId budgetKey : String) (basis : DebitBasis)
    (e : Evidence) : Bool × Store :=
  resolveDebit s debitId DebitBasis.settleable basis e fun s' delta =>
    addBudgetSpend s' budgetKey delta e.recordedAt

def reconcileAttemptDebit (s : Store) (debitId budgetKey : String) (e : Evidence) : Bool × Store :=
  resolveDebit s debitId DebitBasis.reconcilable .reconciled e fun s' delta =>
    addBudgetSpend s' budgetKey delta e.recordedAt

end Memory

/-! ### The SQL adapter

Each method is one transaction. Its statements are guarded on what it has read, so a
transaction that commits had the table to itself; one that keeps meeting contention
raises after four tries, having changed nothing. -/

namespace Sql

/-- `UPDATE … SET current_spend_usd = round(current_spend_usd + delta)`: no row, no effect. -/
def adjustBudgetSpend (s : Store) (budgetKey : String) (delta : ℚ) (updatedAt : String) : Store :=
  match s.budgetStates.get? budgetKey with
  | none => s
  | some state =>
    s.saveBudget ⟨budgetKey, roundedSpendSql (state.currentSpendUsd + delta), updatedAt⟩

def reserveAttemptDebit (s : Store) (record : AttemptDebitRecord) (budgetKey : String)
    (hardLimitUsd : Option ℚ) : ReserveOutcome × Store :=
  if (s.attemptDebits.get? record.debitId).isSome then (.duplicate, s)
  else match s.budgetStates.get? budgetKey with
  | some state =>
    -- the guarded update: it matches the row only while the limit still holds
    if hardLimitUsd.all fun limit =>
        roundedSpendSql (state.currentSpendUsd + record.amountUsd) ≤ limit then
      (.reserved, (s.saveBudget ⟨budgetKey,
        roundedSpendSql (state.currentSpendUsd + record.amountUsd),
        record.recordedAt⟩).saveDebit record.debitId record)
    else (.refused, s)
  | none =>
    if hardLimitUsd.any fun limit => limit < round8 record.amountUsd then (.refused, s)
    else (.reserved, (s.saveBudget ⟨budgetKey, round8 record.amountUsd,
      record.recordedAt⟩).saveDebit record.debitId record)

def settleAttemptDebit (s : Store) (debitId budgetKey : String) (basis : DebitBasis)
    (e : Evidence) : Bool × Store :=
  resolveDebit s debitId DebitBasis.settleable basis e fun s' delta =>
    adjustBudgetSpend s' budgetKey delta e.recordedAt

def reconcileAttemptDebit (s : Store) (debitId budgetKey : String) (e : Evidence) : Bool × Store :=
  resolveDebit s debitId DebitBasis.reconcilable .reconciled e fun s' delta =>
    adjustBudgetSpend s' budgetKey delta e.recordedAt

/-- The number of rows deleted, and what is left. The debits stay. -/
def resetBudgetState (s : Store) (budgetKey : String) : ℕ × Store :=
  (if (s.budgetStates.get? budgetKey).isSome then 1 else 0,
    { s with budgetStates := s.budgetStates.erase budgetKey })

end Sql

end LotusAI.Budget
