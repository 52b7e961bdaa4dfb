import Mathlib.Data.Int.Notation
import Mathlib.Order.Basic

/-!
# Date-times with and without a zone

A date-time is an instant on the time line, or a reading of a wall clock in no
particular zone. Two of a kind compare; one of each do not, and comparing them is
an error of its own, which a check that only asks whether a text can be read does
not exclude.
-/

namespace LotusAI.Lib

/-- The exceptions of the language and its libraries. -/
inductive PythonError
  | typeError
  | valueError
  | attributeError
  | overflowError
  | unicodeDecodeError
  | jsonDecodeError
  | recursionError
  | timeoutError
  | connectionError
  deriving DecidableEq

/-- A date-time, in microseconds. -/
inductive Datetime
  | aware (instant : ℤ)
  | naive (wall : ℤ)
  deriving DecidableEq

namespace Datetime

/-- The reading, in either kind. -/
def reading : Datetime → ℤ
  | aware instant => instant
  | naive wall => wall

/-- Whether the date-time names an instant. -/
def isAware : Datetime → Bool
  | aware _ => true
  | naive _ => false

/-- `a < b`. -/
def lt (a b : Datetime) : Except PythonError Bool :=
  if a.isAware = b.isAware then .ok (a.reading < b.reading) else .error .typeError

/-- `a <= b`. -/
def le (a b : Datetime) : Except PythonError Bool :=
  if a.isAware = b.isAware then .ok (a.reading ≤ b.reading) else .error .typeError

end Datetime

/-- A reader of ISO 8601 texts; a text it cannot read is a `ValueError`. -/
structure IsoFormat where
  fromisoformat : String → Option Datetime

/-- `value.replace("Z", "+00:00")`. -/
def spellUtcOffset (value : String) : String :=
  String.ofList (value.toList.flatMap fun c => if c = 'Z' then "+00:00".toList else [c])

/-- `datetime.fromisoformat(value.replace("Z", "+00:00"))`. -/
def IsoFormat.parseUtc (iso : IsoFormat) (value : String) : Except PythonError Datetime :=
  match iso.fromisoformat (spellUtcOffset value) with
  | some parsed => .ok parsed
  | none => .error .valueError

/-- The text can be read, and stands for an instant before the limit. A reading without a zone is
one of UTC; a text that cannot be read stands for none. -/
def IsoFormat.readsBefore (iso : IsoFormat) (text : String) (limit : ℤ) : Bool :=
  match iso.parseUtc text with
  | .ok parsed => parsed.reading < limit
  | .error _ => false

/-- What is not read as earlier than a limit is not read as earlier than one before it. -/
theorem IsoFormat.readsBefore_mono {iso : IsoFormat} {text : String} {limit limit' : ℤ}
    (hle : limit' ≤ limit) (h : iso.readsBefore text limit = false) :
    iso.readsBefore text limit' = false := by
  unfold readsBefore at h ⊢
  cases hparsed : iso.parseUtc text with
  | error e => rfl
  | ok parsed =>
    simp only [hparsed, decide_eq_false_iff_not] at h ⊢
    omega

end LotusAI.Lib
