import Mathlib.Data.Int.ConditionallyCompleteOrder
import Mathlib.Data.Rat.Floor
import Mathlib.Tactic.Positivity

/-!
# Rounding to a fixed number of decimals

Amounts of money kept on a decimal grid. A rounding rule sends a rational number
to a nearby integer; what arithmetic on amounts needs of it is only that it is
monotone and leaves integers alone. Those two facts are fields of the rule, so
that everything below holds for any rule, and two common ones are given.
-/

namespace LotusAI.Lib

/-- A rule that rounds to an integer: monotone, and exact on integers. -/
structure Rounding where
  toInt : ℚ → ℤ
  monotone : Monotone toInt
  intCast : ∀ n : ℤ, toInt n = n

namespace Rounding

/-! ### Ties to even -/

/-- The nearest integer, ties to the even one. -/
def halfEvenInt (x : ℚ) : ℤ :=
  if Int.fract x < 1 / 2 then ⌊x⌋
  else if 1 / 2 < Int.fract x then ⌊x⌋ + 1
  else if ⌊x⌋ % 2 = 0 then ⌊x⌋ else ⌊x⌋ + 1

theorem floor_le_halfEvenInt (x : ℚ) : ⌊x⌋ ≤ halfEvenInt x := by
  unfold halfEvenInt
  split_ifs <;> omega

theorem halfEvenInt_le_floor_add_one (x : ℚ) : halfEvenInt x ≤ ⌊x⌋ + 1 := by
  unfold halfEvenInt
  split_ifs <;> omega

theorem halfEvenInt_monotone : Monotone halfEvenInt := by
  intro x y hxy
  rcases (Int.floor_mono hxy).lt_or_eq with hlt | heq
  · have hx := halfEvenInt_le_floor_add_one x
    have hy := floor_le_halfEvenInt y
    omega
  -- on one unit interval the fractional parts decide
  · have hfract : Int.fract x ≤ Int.fract y := by
      rw [Int.fract, Int.fract, heq]
      linarith
    unfold halfEvenInt
    rw [heq]
    split_ifs <;> first | omega | (exfalso; linarith)

/-- Ties to even, as Python's `round`. -/
def halfEven : Rounding where
  toInt := halfEvenInt
  monotone := halfEvenInt_monotone
  intCast n := by simp [halfEvenInt]

/-! ### Ties away from zero -/

/-- The nearest integer, ties away from zero. -/
def halfAwayInt (x : ℚ) : ℤ := if 0 ≤ x then ⌊x + 1 / 2⌋ else ⌈x - 1 / 2⌉

theorem halfAwayInt_monotone : Monotone halfAwayInt := by
  intro x y hxy
  unfold halfAwayInt
  split_ifs with hx hy hy
  · exact Int.floor_mono (by linarith)
  · exact absurd (hx.trans hxy) hy
  · have hlow : ⌈x - 1 / 2⌉ ≤ 0 := Int.ceil_le.mpr (by push_cast; linarith)
    have hhigh : 0 ≤ ⌊y + 1 / 2⌋ := Int.le_floor.mpr (by push_cast; linarith)
    exact hlow.trans hhigh
  · exact Int.ceil_mono (by linarith)

/-- Ties away from zero, as SQL's `round`. -/
def halfAway : Rounding where
  toInt := halfAwayInt
  monotone := halfAwayInt_monotone
  intCast n := by
    have hfloor : ⌊(n : ℚ) + 1 / 2⌋ = n := by
      rw [Int.floor_intCast_add]
      norm_num
    have hceil : ⌈(n : ℚ) - 1 / 2⌉ = n := by
      rw [sub_eq_add_neg, Int.ceil_intCast_add]
      norm_num
    unfold halfAwayInt
    rw [hfloor, hceil, ite_self]

/-! ### Decimals -/

/-- Round to `k` decimals. -/
def places (ρ : Rounding) (k : ℕ) (x : ℚ) : ℚ := ρ.toInt (x * 10 ^ k) / 10 ^ k

variable (ρ : Rounding) (k : ℕ)

theorem places_mono : Monotone (ρ.places k) := by
  intro x y hxy
  have hpow : (0 : ℚ) < 10 ^ k := by positivity
  have hint : ρ.toInt (x * 10 ^ k) ≤ ρ.toInt (y * 10 ^ k) :=
    ρ.monotone (mul_le_mul_of_nonneg_right hxy hpow.le)
  unfold places
  gcongr

@[simp] theorem places_zero : ρ.places k 0 = 0 := by
  have h := ρ.intCast 0
  simp only [Int.cast_zero] at h
  simp [places, h]

theorem places_nonneg {x : ℚ} (hx : 0 ≤ x) : 0 ≤ ρ.places k x := by
  have h := ρ.places_mono k hx
  rwa [places_zero] at h

end Rounding

/-! ### The grid -/

/-- A number with at most `k` decimals. -/
def OnGrid (k : ℕ) (x : ℚ) : Prop := ∃ n : ℤ, x = n / 10 ^ k

namespace OnGrid

variable {k : ℕ} {x y : ℚ}

theorem zero : OnGrid k 0 := ⟨0, by simp⟩

theorem add (hx : OnGrid k x) (hy : OnGrid k y) : OnGrid k (x + y) := by
  obtain ⟨n, rfl⟩ := hx
  obtain ⟨m, rfl⟩ := hy
  exact ⟨n + m, by push_cast; ring⟩

theorem sub (hx : OnGrid k x) (hy : OnGrid k y) : OnGrid k (x - y) := by
  obtain ⟨n, rfl⟩ := hx
  obtain ⟨m, rfl⟩ := hy
  exact ⟨n - m, by push_cast; ring⟩

/-- Rounding lands on the grid. -/
theorem places (ρ : Rounding) (x : ℚ) : OnGrid k (ρ.places k x) := ⟨_, rfl⟩

end OnGrid

/-- Rounding changes nothing on the grid. -/
theorem Rounding.places_of_onGrid (ρ : Rounding) {k : ℕ} {x : ℚ} (hx : OnGrid k x) :
    ρ.places k x = x := by
  obtain ⟨n, rfl⟩ := hx
  have hpow : (10 : ℚ) ^ k ≠ 0 := by positivity
  rw [places, div_mul_cancel₀ _ hpow, ρ.intCast]

end LotusAI.Lib
