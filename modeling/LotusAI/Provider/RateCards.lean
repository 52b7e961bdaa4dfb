import LotusAI.Budget.Ledger
import LotusAI.Lib.Datetime
import Mathlib.Data.List.Sort

/-!
# Rate cards and the price of an attempt

Usage is priced by the rate card in force for the routed model revision, and by the
default card where no card is scoped to that revision. An attempt is priced in evidence
order: by the usage the provider reported, or conservatively, or not at all.

Prices are exact rationals rounded to eight decimals. What floating point adds is kept
where it can be observed: a token count beyond the range of a double raises.
-/

namespace LotusAI.Provider

open Lib Budget

/-! ### Cards -/

/-- `RateCardScopeKind`. -/
inductive RateCardScopeKind
  | defaultLiveText
  | modelRevision
  | embeddingDefault
  deriving DecidableEq

/-- `RateCard`, as far as pricing reads it. The contract accepts no negative price. -/
structure RateCard where
  cardId : String
  scopeKind : RateCardScopeKind
  scopeTarget : Option String
  inputCostPer1kTokens : ℚ
  outputCostPer1kTokens : ℚ
  effectiveFromUtc : Option String
  effectiveToUtc : Option String
  input_nonneg : 0 ≤ inputCostPer1kTokens
  output_nonneg : 0 ≤ outputCostPer1kTokens
  deriving DecidableEq

section Resolution

variable (iso : IsoFormat)

/-- Whether a card is in force at an instant. -/
def RateCard.isEffective (card : RateCard) (instant : Datetime) : Except PythonError Bool := do
  if let some start := card.effectiveFromUtc then
    if ← instant.lt (← iso.parseUtc start) then return false
  if let some stop := card.effectiveToUtc then
    if ← (← iso.parseUtc stop).le instant then return false
  return true

/-- When a card came into force; a card without a start is older than any other. -/
def RateCard.startKey (card : RateCard) : Except PythonError (WithBot ℤ) :=
  match card.effectiveFromUtc with
  | none => .ok ⊥
  | some start => do return ((← iso.parseUtc start).reading : ℤ)

/-- Latest start first, and the greater card id where two start together. -/
def laterCard (a b : WithBot ℤ × RateCard) : Prop :=
  b.1 < a.1 ∨ a.1 = b.1 ∧ b.2.cardId ≤ a.2.cardId

instance : DecidableRel laterCard := fun a b =>
  @instDecidableOr _ _ (WithBot.decidableLT b.1 a.1)
    (inferInstanceAs (Decidable (a.1 = b.1 ∧ b.2.cardId ≤ a.2.cardId)))

/-- `_effective_candidates`. -/
def effectiveCandidates (cards : List RateCard) (scopeKind : RateCardScopeKind)
    (scopeTarget : Option String) (instant : Datetime) : Except PythonError (List RateCard) := do
  let inScope := cards.filter fun card =>
    card.scopeKind = scopeKind ∧ card.scopeTarget = scopeTarget
  let candidates ← inScope.filterM fun card => card.isEffective iso instant
  let keyed ← candidates.mapM fun card => return ((← card.startKey iso), card)
  return (keyed.insertionSort laterCard).map Prod.snd

/-- `resolve_effective_live_text_card`, over the cards stored and the instant it is asked
for. -/
def resolveEffectiveLiveTextCard (cards : List RateCard) (modelRevision : Option String)
    (instant : Datetime) : Except PythonError (Option RateCard) := do
  if let some revision := modelRevision then
    let forRevision ← effectiveCandidates iso cards .modelRevision (some revision) instant
    if let some card := forRevision.head? then return some card
  let defaults ← effectiveCandidates iso cards .defaultLiveText none instant
  return defaults.head?

end Resolution

/-! ### Prices -/

/-- An amount the accounting produces. -/
structure Amount where
  usd : ℚ
  exact : OnGrid 8 usd
  nonneg : 0 ≤ usd
  deriving DecidableEq

/-- The price of token counts, rounded to eight decimals. -/
def exactPrice (card : RateCard) (inputTokens outputTokens : ℕ) : Amount where
  usd := round8 (inputTokens / 1000 * card.inputCostPer1kTokens +
    outputTokens / 1000 * card.outputCostPer1kTokens)
  exact := OnGrid.places _ _
  nonneg := by
    have hinput := card.input_nonneg
    have houtput := card.output_nonneg
    exact Rounding.places_nonneg _ _ (by positivity)

/-- More tokens never cost less. -/
theorem exactPrice_mono (card : RateCard) {inputTokens inputTokens' outputTokens outputTokens' : ℕ}
    (hinput : inputTokens ≤ inputTokens') (houtput : outputTokens ≤ outputTokens') :
    (exactPrice card inputTokens outputTokens).usd ≤
      (exactPrice card inputTokens' outputTokens').usd := by
  have hi : (inputTokens : ℚ) ≤ inputTokens' := by exact_mod_cast hinput
  have ho : (outputTokens : ℚ) ≤ outputTokens' := by exact_mod_cast houtput
  have hcostInput := card.input_nonneg
  have hcostOutput := card.output_nonneg
  apply Rounding.places_mono
  gcongr

/-- Integers from here on do not convert to a double. -/
@[irreducible] def floatLimit : ℕ := 2 ^ 1024 - 2 ^ 970

/-- `_price`. -/
def price (card : RateCard) (inputTokens outputTokens : ℕ) : Except PythonError Amount :=
  if inputTokens < floatLimit ∧ outputTokens < floatLimit then
    .ok (exactPrice card inputTokens outputTokens)
  else .error .overflowError

/-- `UsageCostEstimate`. -/
structure UsageCostEstimate where
  estimatedCostUsd : Option Amount
  rateCardRef : Option String
  deriving DecidableEq

/-- `UNKNOWN_COST`. -/
def UsageCostEstimate.unknown : UsageCostEstimate := ⟨none, none⟩

/-- The estimate of a card that may be missing. -/
def estimateWith (card : Option RateCard) (inputTokens outputTokens : ℕ) :
    Except PythonError UsageCostEstimate :=
  match card with
  | none => .ok .unknown
  | some card => do
    let amount ← price card inputTokens outputTokens
    return ⟨some amount, some card.cardId⟩

/-- `estimate_live_text_cost`, over the cards stored and the instant it is called at. -/
def estimateLiveTextCost (iso : IsoFormat) (cards : List RateCard) (instant : Datetime)
    (modelRevision : Option String) (inputTokens outputTokens : ℕ) :
    Except PythonError UsageCostEstimate := do
  let card ← resolveEffectiveLiveTextCard iso cards modelRevision instant
  estimateWith card inputTokens outputTokens

theorem estimateLiveTextCost_of_card {iso : IsoFormat} {cards : List RateCard} {instant : Datetime}
    {modelRevision : Option String} {card : Option RateCard}
    (h : resolveEffectiveLiveTextCard iso cards modelRevision instant = .ok card)
    (inputTokens outputTokens : ℕ) :
    estimateLiveTextCost iso cards instant modelRevision inputTokens outputTokens =
      estimateWith card inputTokens outputTokens := by
  unfold estimateLiveTextCost
  rw [h]
  exact pure_bind _ _

/-! ### Attempts -/

/-- `AttemptDebit`. -/
structure AttemptDebit where
  amount : Amount
  basis : DebitBasis
  inputTokens : ℕ
  outputTokens : ℕ
  rateCardRef : String
  deriving DecidableEq

/-- The debit of an estimate, if it names an amount and a card. -/
def UsageCostEstimate.debit? (cost : UsageCostEstimate) (basis : DebitBasis)
    (inputTokens outputTokens : ℕ) : Option AttemptDebit :=
  match cost.estimatedCostUsd, cost.rateCardRef with
  | some amount, some rateCardRef => some ⟨amount, basis, inputTokens, outputTokens, rateCardRef⟩
  | _, _ => none

/-- What an attempt is priced from. -/
structure AttemptEvidence where
  inputTokens : Option ℕ
  outputTokens : Option ℕ
  billableRisk : Bool
  fallbackInputEstimate : ℕ
  maxOutputTokens : ℕ

/-- `price_attempt`, given how usage is estimated. -/
def priceAttempt {m : Type → Type} [Monad m] (estimate : ℕ → ℕ → m UsageCostEstimate)
    (posture : String) (evidence : AttemptEvidence) : m (Option AttemptDebit) :=
  match evidence.inputTokens, evidence.outputTokens with
  | some inputTokens, some outputTokens => do
    let cost ← estimate inputTokens outputTokens
    return cost.debit? .actualUsage inputTokens outputTokens
  | _, _ =>
    if posture = "conservative" ∧ evidence.billableRisk then do
      let cost ← estimate evidence.fallbackInputEstimate evidence.maxOutputTokens
      return cost.debit? .conservativeEstimate evidence.fallbackInputEstimate
        evidence.maxOutputTokens
    else return none

end LotusAI.Provider
