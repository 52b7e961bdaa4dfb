import LotusAI.Lib.Dict
import LotusAI.Provider.Records

/-!
# The circuit breaker

Failures in a row open the breaker of a candidate, and it refuses executions until the deadline
that is stamped then. What is left of the cooldown is counted in whole seconds, and less than one
second counts as nothing: the breaker closes a second early.
-/

namespace LotusAI.Provider

open Lib Option

/-- `ProviderDegradationStateRecord`, without the instant of the last update. Instants are in
microseconds: the texts that are stored read back as they were written. -/
structure DegradationRecord where
  consecutiveFailureCount : ℕ
  lastFailureCategory : Option FailureCategory
  circuitOpenUntil : Option ℤ
  timeoutFailureCount : ℕ
  rateLimitedFailureCount : ℕ
  upstreamErrorFailureCount : ℕ
  deriving DecidableEq

/-- `ProviderEnforcementThresholds`, as far as the breaker reads it. -/
structure EnforcementThresholds where
  degradationEnforced : Bool
  degradedFailureCountThreshold : Option ℤ
  circuitOpenFailureCountThreshold : Option ℤ
  circuitOpenSeconds : Option ℤ
  deriving DecidableEq

/-- The postures of a breaker. -/
inductive DegradationStatus
  | documentedOnly
  | invalid
  | circuitOpen
  | degradedUpstream
  | normal
  deriving DecidableEq

/-- `ProviderDegradationState`, as far as enforcement reads it. -/
structure DegradationState where
  status : DegradationStatus
  enforcementEnabled : Bool
  configurationValid : Bool
  circuitOpenRemainingSeconds : Option ℤ
  deriving DecidableEq

/-- Both thresholds are positive and in order, and the cooldown is not negative. -/
def EnforcementThresholds.valid (thresholds : EnforcementThresholds) : Bool :=
  thresholds.degradedFailureCountThreshold.any (0 < ·) &&
    thresholds.circuitOpenFailureCountThreshold.any (0 < ·) &&
    (thresholds.degradedFailureCountThreshold.all fun degraded =>
      thresholds.circuitOpenFailureCountThreshold.all (degraded ≤ ·)) &&
    thresholds.circuitOpenSeconds.any (0 ≤ ·)

/-- The deadline that is stamped at an instant. -/
def EnforcementThresholds.deadline (thresholds : EnforcementThresholds) (now : ℤ) : ℤ :=
  now + thresholds.circuitOpenSeconds.getD 0 * 1000000

/-- `_remaining_circuit_open_seconds`. -/
def remainingCircuitOpenSeconds (circuitOpenUntil : Option ℤ) (now : ℤ) : Option ℤ :=
  (circuitOpenUntil.map fun deadline => (deadline - now).tdiv 1000000).filter (0 < ·)

/-- `_resolve_provider_degradation_state`. A cooldown that was served answers for the failures
that opened the breaker. -/
def resolveProviderDegradationState (thresholds : EnforcementThresholds)
    (record : DegradationRecord) (now : ℤ) : DegradationState :=
  if thresholds.degradationEnforced = false then ⟨.documentedOnly, false, true, none⟩
  else if thresholds.valid = false then ⟨.invalid, true, false, none⟩
  else match remainingCircuitOpenSeconds record.circuitOpenUntil now with
  | some remaining => ⟨.circuitOpen, true, true, some remaining⟩
  | none =>
    let effective := if record.circuitOpenUntil.isSome then 0 else record.consecutiveFailureCount
    if thresholds.circuitOpenFailureCountThreshold.getD 0 ≤ effective then
      ⟨.circuitOpen, true, true, none⟩
    else if thresholds.degradedFailureCountThreshold.getD 0 ≤ effective then
      ⟨.degradedUpstream, true, true, none⟩
    else ⟨.normal, true, true, none⟩

section Operations

variable (thresholds : EnforcementThresholds) (key : String) (now : ℤ)
  (store : Dict String DegradationRecord)

/-- `_load_degradation_record`. -/
def loadDegradationRecord : DegradationRecord := (store.get? key).getD ⟨0, none, none, 0, 0, 0⟩

/-- `_open_circuit`. -/
def openCircuit : Dict String DegradationRecord :=
  store.insert key { loadDegradationRecord key store with
    circuitOpenUntil := some (thresholds.deadline now) }

/-- `_reclaim_elapsed_cooldown`. -/
def reclaimElapsedCooldown : Dict String DegradationRecord :=
  let record := loadDegradationRecord key store
  if record.circuitOpenUntil = none ∨
      (remainingCircuitOpenSeconds record.circuitOpenUntil now).isSome then store
  else store.insert key { record with
    consecutiveFailureCount := 0, lastFailureCategory := none, circuitOpenUntil := none }

/-- `record_degradation_failure`. -/
def recordDegradationFailure (category : FailureCategory) : Dict String DegradationRecord :=
  let current := loadDegradationRecord key store
  store.insert key
    ⟨current.consecutiveFailureCount + 1, some category, current.circuitOpenUntil,
      current.timeoutFailureCount + if category = .providerTimeout then 1 else 0,
      current.rateLimitedFailureCount + if category = .providerRateLimited then 1 else 0,
      current.upstreamErrorFailureCount + if category = .providerUpstreamError then 1 else 0⟩

/-- `_tracked_failure_categories`. -/
def FailureCategory.tracked (category : FailureCategory) : Bool :=
  category ∈ [providerTimeout, providerRateLimited, providerUpstreamError]

/-- `record_provider_failure`. -/
def recordProviderFailure (category : FailureCategory) : Dict String DegradationRecord :=
  if category.tracked = false then store
  else
    let recorded := recordDegradationFailure key (reclaimElapsedCooldown key now store) category
    let state := resolveProviderDegradationState thresholds (loadDegradationRecord key recorded) now
    if state.enforcementEnabled && state.configurationValid && state.status = .circuitOpen then
      openCircuit thresholds key now recorded
    else recorded

/-- `enforce_provider_degradation_preflight`. A breaker that is open without a deadline is given
one. -/
def enforceProviderDegradationPreflight :
    Except ProviderError Unit × Dict String DegradationRecord :=
  let state := resolveProviderDegradationState thresholds (loadDegradationRecord key store) now
  if state.enforcementEnabled = false then (.ok (), store)
  else if state.configurationValid = false then
    (.error ⟨.circuitOpen, "Live-provider degradation controls are configured inconsistently " ++
      "and cannot be enforced safely."⟩, store)
  else if state.status = .circuitOpen then
    (.error ⟨.circuitOpen, "Live-provider circuit breaker is currently open due to repeated " ++
      "upstream failures."⟩,
      if state.circuitOpenRemainingSeconds = none then openCircuit thresholds key now store
      else store)
  else (.ok (), store)

end Operations

/-! ### The cooldown -/

/-- Executions are refused up to the deadline that was stamped at `start`, and a failure from then
on is the first of a new budget. -/
structure HoldsCooldown (thresholds : EnforcementThresholds) (key : String) (start now : ℤ)
    (store : Dict String DegradationRecord) : Prop where
  refuses : (∃ message, (enforceProviderDegradationPreflight thresholds key now store).1 =
    .error ⟨.circuitOpen, message⟩) ↔ now < thresholds.deadline start
  fresh : thresholds.deadline start ≤ now → ∀ category : FailureCategory, category.tracked →
    (loadDegradationRecord key
      (recordProviderFailure thresholds key now store category)).consecutiveFailureCount = 1

section Cooldown

variable {thresholds : EnforcementThresholds} {key : String} {start now deadline : ℤ}
  {store later : Dict String DegradationRecord} {record : DegradationRecord}

@[simp] theorem loadDegradationRecord_insert :
    loadDegradationRecord key (store.insert key record) = record := by
  rw [loadDegradationRecord, Dict.get?_insert_self, getD_some]

theorem remaining_isSome_iff :
    (remainingCircuitOpenSeconds (some deadline) now).isSome ↔ now + 1000000 ≤ deadline := by
  rw [remainingCircuitOpenSeconds, map_some, isSome_filter, any_some,
    decide_eq_true_eq, Int.tdiv_eq_ediv]
  have hsign : Int.sign 1000000 = 1 := rfl
  split_ifs <;> omega

/-- A failure after the cooldown was served is the first one. -/
theorem count_recordProviderFailure {category : FailureCategory} (htracked : category.tracked)
    (hdeadline : (loadDegradationRecord key store).circuitOpenUntil = some deadline)
    (hserved : deadline ≤ now) :
    (loadDegradationRecord key
      (recordProviderFailure thresholds key now store category)).consecutiveFailureCount = 1 := by
  have hnone : ¬ (remainingCircuitOpenSeconds (some deadline) now).isSome := by
    rw [remaining_isSome_iff]
    omega
  have hreclaimed : (loadDegradationRecord key
      (reclaimElapsedCooldown key now store)).consecutiveFailureCount = 0 := by
    simp [reclaimElapsedCooldown, hdeadline, hnone]
  unfold recordProviderFailure
  split_ifs with huntracked
  · rw [htracked] at huntracked
    cases huntracked
  · dsimp only
    split_ifs <;> simp [openCircuit, recordDegradationFailure, hreclaimed]

variable (henforced : thresholds.degradationEnforced) (hvalid : thresholds.valid)

include henforced hvalid

/-- With a deadline that is stamped, the breaker is open exactly if a second is left. -/
theorem resolve_stamped (hdeadline : record.circuitOpenUntil = some deadline) :
    ∃ status remaining, resolveProviderDegradationState thresholds record now =
      ⟨status, true, true, remaining⟩ ∧ (status = .circuitOpen ↔ now + 1000000 ≤ deadline) := by
  rw [← remaining_isSome_iff, resolveProviderDegradationState, hdeadline, henforced, hvalid]
  cases remainingCircuitOpenSeconds (some deadline) now with
  | some remaining => exact ⟨_, _, rfl, by simp⟩
  | none =>
    obtain ⟨limit, hlimit, hpositive⟩ : ∃ limit,
        thresholds.circuitOpenFailureCountThreshold = some limit ∧ 0 < limit := by
      simp only [EnforcementThresholds.valid, Bool.and_eq_true, any_eq_true,
        decide_eq_true_eq] at hvalid
      exact hvalid.1.1.2
    have hbelow : ¬ limit ≤ 0 := by omega
    simp only [hlimit, isSome_some, reduceIte, Bool.true_eq_false, getD_some,
      Nat.cast_zero, hbelow]
    split_ifs <;> exact ⟨_, _, rfl, by simp⟩

/-- While nothing else writes the row, the breaker keeps its cooldown exactly outside the last
second before the deadline. -/
theorem holdsCooldown_iff (now : ℤ)
    (hrow : later.get? key = (openCircuit thresholds key start store).get? key) :
    HoldsCooldown thresholds key start now later ↔
      now + 1000000 ≤ thresholds.deadline start ∨ thresholds.deadline start ≤ now := by
  have hdeadline : (loadDegradationRecord key later).circuitOpenUntil =
      some (thresholds.deadline start) := by
    rw [loadDegradationRecord, hrow, openCircuit, Dict.get?_insert_self, Option.getD_some]
  have hrefuses : (∃ message, (enforceProviderDegradationPreflight thresholds key now later).1 =
      .error ⟨.circuitOpen, message⟩) ↔ now + 1000000 ≤ thresholds.deadline start := by
    obtain ⟨status, remaining, hstate, hopen⟩ := resolve_stamped henforced hvalid hdeadline
    rw [← hopen, enforceProviderDegradationPreflight, hstate]
    by_cases hstatus : status = .circuitOpen <;> simp [hstatus]
  constructor
  · intro h
    have hiff := hrefuses.symm.trans h.refuses
    omega
  · intro houtside
    refine ⟨hrefuses.trans (by omega), fun hserved category htracked => ?_⟩
    exact count_recordProviderFailure htracked hdeadline hserved

end Cooldown

/-- Three failures open the breaker for five seconds. -/
def threeFailures : EnforcementThresholds := ⟨true, some 2, some 3, some 5⟩

theorem holdsCooldown_at_start :
    HoldsCooldown threeFailures "k" 0 0 (openCircuit threeFailures "k" 0 .empty) :=
  (holdsCooldown_iff rfl rfl 0 rfl).mpr (by decide)

/-- A microsecond into the last second of its cooldown, the breaker lets an execution through. -/
theorem closes_early :
    ¬ HoldsCooldown threeFailures "k" 0 4000001 (openCircuit threeFailures "k" 0 .empty) := by
  intro h
  obtain ⟨message, hrefused⟩ := h.refuses.mpr (by decide)
  cases hrefused

end LotusAI.Provider
