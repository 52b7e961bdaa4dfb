import LotusAI.Lib.Decimal
import Mathlib.Data.Int.Log

/-!
# Doubles

The values of IEEE 754 doubles: rationals, two infinities, and what is no number. A result is the
exact one, rounded to 53 significant bits with ties to even. A comparison with what is no number
fails, whichever way round it is made.
-/

namespace LotusAI.Lib

/-- The value of a double. -/
inductive Double
  | nan
  | infinite (negative : Bool)
  | finite (value : ℚ)
  deriving DecidableEq

namespace Double

/-- `a < b`. -/
def lt : Double → Double → Bool
  | finite a, finite b => a < b
  | infinite true, finite _ => true
  | finite _, infinite false => true
  | infinite true, infinite false => true
  | _, _ => false

/-- `a <= b`. -/
def le : Double → Double → Bool
  | finite a, finite b => a ≤ b
  | nan, _ => false
  | _, nan => false
  | infinite true, _ => true
  | _, infinite false => true
  | _, _ => false

/-- The double nearest to a rational. -/
def ofRat (q : ℚ) : Double :=
  let exponent := max (Int.log 2 |q| - 52) (-1074)
  let rounded := Rounding.halfEvenInt (q / 2 ^ exponent) * (2 : ℚ) ^ exponent
  if 2 ^ 1024 ≤ |rounded| then infinite (rounded < 0) else finite rounded

/-- `float` of an integer, unless it is out of range. -/
def ofInt? (n : ℤ) : Option Double :=
  match ofRat n with
  | finite value => some (finite value)
  | _ => none

/-- `a - b`. -/
def sub : Double → Double → Double
  | finite a, finite b => ofRat (a - b)
  | nan, _ => nan
  | _, nan => nan
  | infinite p, infinite q => if p = q then nan else infinite p
  | infinite p, finite _ => infinite p
  | finite _, infinite q => infinite !q

@[simp] theorem not_lt_nan (a : Double) : a.lt nan = false := by
  rcases a with _ | (_ | _) | _ <;> rfl

@[simp] theorem not_nan_le (a : Double) : nan.le a = false := by cases a <;> rfl

variable {a b : Double}

/-- Numbers are in order one way or the other. -/
theorem le_eq_not_lt (ha : a ≠ nan) (hb : b ≠ nan) : a.le b = !b.lt a := by
  rcases a with _ | (_ | _) | x <;> rcases b with _ | (_ | _) | y <;>
    simp_all [le, lt, ← not_lt]

theorem ofRat_ne_nan (q : ℚ) : ofRat q ≠ nan := by
  unfold ofRat
  dsimp only
  split_ifs <;> simp

/-- A difference across a rational is a number. -/
theorem sub_ne_nan {q : ℚ} (ha : (finite q).lt a) (hb : b.le (finite q)) :
    a.sub b ≠ nan := by
  rcases a with _ | (_ | _) | x <;> rcases b with _ | (_ | _) | y <;>
    simp_all [le, lt, sub, ofRat_ne_nan]

/-- A bounded difference across a rational is from a rational. -/
theorem exists_finite {q bound : ℚ} (ha : (finite q).lt a) (hb : b.le (finite q))
    (hbound : (a.sub b).le (finite bound)) : ∃ value, a = finite value := by
  rcases a with _ | (_ | _) | x <;> rcases b with _ | (_ | _) | y <;>
    simp_all [le, lt, sub]

theorem ofInt?_ne_nan (n : ℤ) : ofInt? n ≠ some nan := by
  unfold ofInt?
  split <;> simp

end Double

end LotusAI.Lib
