import LotusAI.Budget.Ledger
import LotusAI.Provider.Records
import Mathlib.Data.String.Basic

/-!
# The debits of an execution

A debit is named after the execution, the candidate and the attempt it is for. The
execution comes first, so that the debits of one execution are those whose ids begin
with one of two texts, one for each generation of ids.
-/

namespace LotusAI.Budget

open Lib List Dict

/-- `text.startswith(front)`. -/
def beginsWith (front text : String) : Bool := front.toList.isPrefixOf text.toList

/-- What the ids of an execution's debits begin with, if they name the canonical candidate. -/
def canonicalFront (executionId : String) : String :=
  "adbt2:" ++ executionId ++ ":"

/-- What they begin with if they do not. -/
def legacyFront (executionId : String) : String := "adbt:" ++ executionId ++ ":"

/-- `_attempt_debit_id`. -/
def attemptDebitId (executionId candidateEntryId : String) (attemptIndex : ℕ)
    (candidateIdV2 : Option String) : String :=
  match Provider.truthy candidateIdV2 with
  | some candidateId => canonicalFront executionId ++ s!"{candidateId}:{attemptIndex}"
  | none => legacyFront executionId ++ s!"{candidateEntryId}:{attemptIndex}"

/-- `sum_attempt_debits`. -/
def sumAttemptDebits (debits : Dict String AttemptDebitRecord) (front : String) : ℚ :=
  round8 ((debits.restrict (beginsWith front)).values.map AttemptDebitRecord.amountUsd).sum

/-- `spent_for_execution`. -/
def spentForExecution (debits : Dict String AttemptDebitRecord) (executionId : String) : ℚ :=
  sumAttemptDebits debits (canonicalFront executionId) +
    sumAttemptDebits debits (legacyFront executionId)

/-- The ids that count for an execution. -/
def ownedBy (executionId debitId : String) : Bool :=
  beginsWith (canonicalFront executionId) debitId || beginsWith (legacyFront executionId) debitId

def totalOf (debits : Dict String AttemptDebitRecord) : ℚ :=
  (debits.values.map AttemptDebitRecord.amountUsd).sum

/-! ### Ids -/

theorem beginsWith_iff {front text : String} :
    beginsWith front text ↔ ∃ rest, text.toList = front.toList ++ rest := by
  rw [beginsWith, isPrefixOf_iff_prefix, prefix_iff_exists_eq_append]

theorem beginsWith_append (front text : String) : beginsWith front (front ++ text) :=
  beginsWith_iff.mpr ⟨text.toList, String.toList_append⟩

theorem ownedBy_attemptDebitId (executionId candidateEntryId : String) (attemptIndex : ℕ)
    (candidateIdV2 : Option String) :
    ownedBy executionId
      (attemptDebitId executionId candidateEntryId attemptIndex candidateIdV2) := by
  unfold ownedBy attemptDebitId
  split
  · rw [beginsWith_append, Bool.true_or]
  · rw [beginsWith_append, Bool.or_true]

theorem toList_canonicalFront (executionId : String) :
    (canonicalFront executionId).toList = "adbt2:".toList ++ (executionId.toList ++ [':']) := by
  simp [canonicalFront, String.toList_append]

theorem toList_legacyFront (executionId : String) :
    (legacyFront executionId).toList = "adbt:".toList ++ (executionId.toList ++ [':']) := by
  simp [legacyFront, String.toList_append]

/-- A text up to its first colon is read back. -/
theorem eq_of_append_colon {a b x y : List Char} (ha : ':' ∉ a) (hb : ':' ∉ b)
    (h : a ++ ':' :: x = b ++ ':' :: y) : a = b := by
  have htake : ∀ {l rest : List Char}, ':' ∉ l →
      (l ++ ':' :: rest).takeWhile (· ≠ ':') = l := by
    intro l rest hl
    rw [takeWhile_append_of_pos]
    · simp
    · intro c hc
      have hne : c ≠ ':' := fun heq => hl (heq ▸ hc)
      simpa using hne
  rw [← htake ha, h, htake hb]

variable {executionId : String} {debits : Dict String AttemptDebitRecord}
  {executionId' debitId : String}

/-- The two generations of ids never meet. -/
theorem not_canonical_of_legacy
    (h : beginsWith (legacyFront executionId) debitId) :
    beginsWith (canonicalFront executionId') debitId = false := by
  rw [← Bool.not_eq_true]
  intro hcanonical
  obtain ⟨rest, hrest⟩ := beginsWith_iff.mp h
  obtain ⟨rest', hrest'⟩ := beginsWith_iff.mp hcanonical
  rw [hrest, toList_legacyFront, toList_canonicalFront] at hrest'
  simp at hrest'

/-- Execution ids without colons are told apart by the ids of their debits. -/
theorem executionId_eq_of_ownedBy
    (hcolon : ':' ∉ executionId.toList) (hcolon' : ':' ∉ executionId'.toList)
    (h : ownedBy executionId debitId) (h' : ownedBy executionId' debitId) :
    executionId = executionId' := by
  apply String.toList_inj.mp
  rw [ownedBy, Bool.or_eq_true] at h h'
  cases h with
  | inl hcanonical =>
    obtain ⟨rest, hrest⟩ := beginsWith_iff.mp hcanonical
    cases h' with
    | inl hcanonical' =>
      obtain ⟨rest', hrest'⟩ := beginsWith_iff.mp hcanonical'
      rw [hrest, toList_canonicalFront, toList_canonicalFront] at hrest'
      exact eq_of_append_colon hcolon hcolon' (by simpa using hrest')
    | inr hlegacy' =>
      rw [not_canonical_of_legacy hlegacy'] at hcanonical
      cases hcanonical
  | inr hlegacy =>
    obtain ⟨rest, hrest⟩ := beginsWith_iff.mp hlegacy
    cases h' with
    | inl hcanonical' =>
      rw [not_canonical_of_legacy hlegacy] at hcanonical'
      cases hcanonical'
    | inr hlegacy' =>
      obtain ⟨rest', hrest'⟩ := beginsWith_iff.mp hlegacy'
      rw [hrest, toList_legacyFront, toList_legacyFront] at hrest'
      exact eq_of_append_colon hcolon hcolon' (by simpa using hrest')

/-! ### Sums -/

theorem sumAttemptDebits_restrict (debits : Dict String AttemptDebitRecord) {p : String → Bool}
    (front : String) (h : ∀ id, beginsWith front id → p id) :
    sumAttemptDebits (debits.restrict p) front = sumAttemptDebits debits front := by
  have hentries : (debits.restrict p).restrict (beginsWith front) =
      debits.restrict (beginsWith front) := by
    apply eq_of_entries_eq
    simp only [restrict, filter_filter]
    apply filter_congr
    intro e _
    cases hfront : beginsWith front e.1 with
    | false => simp
    | true => simp [h _ hfront]
  rw [sumAttemptDebits, hentries, ← sumAttemptDebits]

/-- A debit that is written moves the total from its old amount to its new one. -/
theorem totalOf_insert (debits : Dict String AttemptDebitRecord) (debitId : String)
    (row : AttemptDebitRecord) :
    totalOf (debits.insert debitId row) = totalOf debits +
      (row.amountUsd - ((debits.get? debitId).map AttemptDebitRecord.amountUsd).getD 0) :=
  sum_values_insert _ debits debitId row

theorem onGrid_totalOf (hexact : ∀ id row, debits.get? id = some row → OnGrid 8 row.amountUsd) :
    OnGrid 8 (totalOf debits) := by
  have hsum : ∀ l : List AttemptDebitRecord, (∀ row ∈ l, OnGrid 8 row.amountUsd) →
      OnGrid 8 (l.map AttemptDebitRecord.amountUsd).sum := by
    intro l hl
    induction l with
    | nil => exact OnGrid.zero
    | cons row rest ih =>
      exact (hl row (.head _)).add (ih fun r hr => hl r (.tail _ hr))
  apply hsum
  intro row hrow
  obtain ⟨id, hid⟩ := mem_values_iff.mp hrow
  exact hexact id row hid

theorem sumAttemptDebits_eq (hexact : ∀ id row, debits.get? id = some row → OnGrid 8 row.amountUsd)
    (front : String) :
    sumAttemptDebits debits front = totalOf (debits.restrict (beginsWith front)) := by
  refine Rounding.halfEven.places_of_onGrid (onGrid_totalOf fun id row hrow => ?_)
  rw [get?_restrict] at hrow
  split_ifs at hrow
  exact hexact id row hrow

/-- A list of amounts splits into those that satisfy a test and those that do not. -/
theorem sum_filter_add_sum_filter (l : List (String × AttemptDebitRecord)) (p q : String → Bool)
    (hpq : ∀ e ∈ l, p e.1 = !q e.1) :
    ((l.filter fun e => p e.1).map fun e => e.2.amountUsd).sum +
      ((l.filter fun e => q e.1).map fun e => e.2.amountUsd).sum =
        (l.map fun e => e.2.amountUsd).sum := by
  induction l with
  | nil => simp
  | cons e rest ih =>
    have hrest := ih fun e' he' => hpq e' (.tail _ he')
    have he := hpq e (.head _)
    cases hq : q e.1 with
    | true =>
      simp only [he, hq, Bool.not_true, filter_cons, Bool.false_eq_true, if_false, if_true,
        map_cons, sum_cons]
      linarith
    | false =>
      simp only [he, hq, Bool.not_false, filter_cons, Bool.false_eq_true, if_false, if_true,
        map_cons, sum_cons]
      linarith

/-- Debits that count for an execution are each of exactly one generation. -/
theorem totalOf_fronts (howned : ∀ id row, debits.get? id = some row → ownedBy executionId id) :
    totalOf (debits.restrict (beginsWith (canonicalFront executionId))) +
      totalOf (debits.restrict (beginsWith (legacyFront executionId))) = totalOf debits := by
  have hsplit := sum_filter_add_sum_filter debits.entries
    (beginsWith (canonicalFront executionId)) (beginsWith (legacyFront executionId)) (by
      intro e he
      have hown := howned e.1 e.2 (get?_eq_some_iff.mpr he)
      cases hl : beginsWith (legacyFront executionId) e.1 with
      | true => rw [not_canonical_of_legacy hl, Bool.not_true]
      | false => simpa [ownedBy, hl] using hown)
  simpa [totalOf, values, restrict, Function.comp_def] using hsplit

/-- The spend of an execution is the total of the debits that count for it. -/
theorem spentForExecution_restrict
    (hexact : ∀ id row, debits.get? id = some row → OnGrid 8 row.amountUsd) (executionId : String) :
    spentForExecution debits executionId =
      totalOf (debits.restrict (ownedBy executionId)) := by
  have hcanonical := sumAttemptDebits_restrict debits (p := ownedBy executionId)
    (canonicalFront executionId) fun id h => by rw [ownedBy, h, Bool.true_or]
  have hlegacy := sumAttemptDebits_restrict debits (p := ownedBy executionId)
    (legacyFront executionId) fun id h => by rw [ownedBy, h, Bool.or_true]
  have hown : ∀ id row, (debits.restrict (ownedBy executionId)).get? id = some row →
      ownedBy executionId id ∧ OnGrid 8 row.amountUsd := by
    intro id row hrow
    rw [get?_restrict] at hrow
    split_ifs at hrow with howned
    exact ⟨howned, hexact id row hrow⟩
  rw [spentForExecution, ← hcanonical, ← hlegacy,
    sumAttemptDebits_eq fun id row hrow => (hown id row hrow).2,
    sumAttemptDebits_eq fun id row hrow => (hown id row hrow).2]
  exact totalOf_fronts fun id row hrow => (hown id row hrow).1

end LotusAI.Budget
