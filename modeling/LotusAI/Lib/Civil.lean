import Mathlib.Data.String.Basic
import Mathlib.Tactic.IntervalCases

/-!
# Civil date-times and their ISO 8601 texts

Date-times of the proleptic Gregorian calendar in UTC, with microseconds, in the years a
date library represents. They are compared and moved along the time line as counts of
microseconds, and written as texts. The writer leaves the fraction out where it is zero, so
there are two shapes of text.
-/

namespace LotusAI.Lib

open List

/-! ### Decimals of a fixed width -/

/-- The last `width` decimal digits of a number. -/
def fixedDigits : ℕ → ℕ → List Char
  | 0, _ => []
  | width + 1, n => fixedDigits width (n / 10) ++ [Nat.digitChar (n % 10)]

variable {a b width year month : ℕ} (leap : Bool)

theorem digitChar_lt_iff (ha : a < 10) (hb : b < 10) :
    Nat.digitChar a < Nat.digitChar b ↔ a < b := by
  interval_cases a <;> interval_cases b <;> decide

theorem digitChar_eq_iff (ha : a < 10) (hb : b < 10) :
    Nat.digitChar a = Nat.digitChar b ↔ a = b := by
  interval_cases a <;> interval_cases b <;> decide

/-- Numbers that fit the width are compared before what follows them. -/
theorem fixedDigits_append_lt {n m : ℕ} (hn : n < 10 ^ width) (hm : m < 10 ^ width)
    {rest rest' : List Char} :
    fixedDigits width n ++ rest < fixedDigits width m ++ rest' ↔
      n < m ∨ n = m ∧ rest < rest' := by
  induction width generalizing n m rest rest' with
  | zero =>
    obtain rfl : n = 0 := by omega
    obtain rfl : m = 0 := by omega
    simp [fixedDigits]
  | succ width ih =>
    simp only [fixedDigits, append_assoc, singleton_append]
    -- the leading digits are those of the quotients, one place narrower
    rw [ih (by omega) (by omega), cons_lt_cons_iff,
      digitChar_lt_iff (Nat.mod_lt n (by decide)) (Nat.mod_lt m (by decide)),
      digitChar_eq_iff (Nat.mod_lt n (by decide)) (Nat.mod_lt m (by decide))]
    by_cases hrest : rest < rest' <;> simp only [hrest, and_true, and_false, or_false] <;> omega

theorem isDigit_of_mem_fixedDigits {n : ℕ} {c : Char} (hc : c ∈ fixedDigits width n) :
    c.isDigit := by
  induction width generalizing n with
  | zero => simp [fixedDigits] at hc
  | succ width ih =>
    rcases mem_append.mp hc with hfront | hlast
    · exact ih hfront
    · rw [mem_singleton.mp hlast, Nat.isDigit_digitChar]
      simpa using Nat.mod_lt n (by decide)

/-! ### Days -/

/-- `_is_leap`. -/
def isLeap (year : ℕ) : Bool := year % 4 = 0 ∧ (year % 100 ≠ 0 ∨ year % 400 = 0)

/-- `_days_in_month`. -/
def daysInMonth (leap : Bool) : ℕ → ℕ
  | 2 => if leap then 29 else 28
  | 4 | 6 | 9 | 11 => 30
  | _ => 31

/-- `_days_before_month`. -/
def daysBeforeMonth (leap : Bool) : ℕ → ℕ
  | 0 => 0
  | 1 => 0
  | month + 1 => daysBeforeMonth leap month + daysInMonth leap month

/-- `_days_before_year`. -/
def daysBeforeYear (year : ℕ) : ℕ :=
  (year - 1) * 365 + (year - 1) / 4 - (year - 1) / 100 + (year - 1) / 400

/-- The number of days of a year. -/
def daysInYear (leap : Bool) : ℕ := if leap then 366 else 365

theorem daysBeforeYear_succ (hpos : 1 ≤ year) :
    daysBeforeYear (year + 1) = daysBeforeYear year + daysInYear (isLeap year) := by
  obtain ⟨y, rfl⟩ : ∃ y, year = y + 1 := ⟨year - 1, by omega⟩
  have h4 : (y + 1) / 4 = y / 4 + if (y + 1) % 4 = 0 then 1 else 0 := by split_ifs <;> omega
  have h100 : (y + 1) / 100 = y / 100 + if (y + 1) % 100 = 0 then 1 else 0 := by
    split_ifs <;> omega
  have h400 : (y + 1) / 400 = y / 400 + if (y + 1) % 400 = 0 then 1 else 0 := by
    split_ifs <;> omega
  have hle : y / 100 ≤ y * 365 := by omega
  simp only [daysBeforeYear, Nat.add_sub_cancel, h4, h100, h400, daysInYear, isLeap,
    decide_eq_true_eq]
  by_cases hmod4 : (y + 1) % 4 = 0
  · by_cases hmod100 : (y + 1) % 100 = 0
    · by_cases hmod400 : (y + 1) % 400 = 0 <;> simp [hmod4, hmod100, hmod400] <;> omega
    · have hmod400 : (y + 1) % 400 ≠ 0 := by omega
      simp [hmod4, hmod100, hmod400]
      omega
  · have hmod100 : (y + 1) % 100 ≠ 0 := by omega
    have hmod400 : (y + 1) % 400 ≠ 0 := by omega
    simp [hmod4, hmod100, hmod400]
    omega

theorem daysBeforeYear_mono {year' : ℕ} (h : year ≤ year') :
    daysBeforeYear year ≤ daysBeforeYear year' := by
  refine monotone_nat_of_le_succ (fun y => ?_) h
  cases y with
  | zero => exact Nat.zero_le _
  | succ y =>
    rw [daysBeforeYear_succ (Nat.succ_pos y)]
    exact Nat.le_add_right _ _

/-- A month ends before a later one begins. -/
theorem daysBeforeMonth_add_le {month' : ℕ} (hpos : 1 ≤ month) (hlt : month < month')
    (hle : month' ≤ 12) :
    daysBeforeMonth leap month + daysInMonth leap month ≤ daysBeforeMonth leap month' := by
  have htable : ∀ leap : Bool, ∀ month < 13, ∀ month' < 13, 1 ≤ month → month < month' →
      daysBeforeMonth leap month + daysInMonth leap month ≤ daysBeforeMonth leap month' := by
    decide
  exact htable leap month (by omega) month' (by omega) hpos hlt

/-- Every month lies within the year. -/
theorem daysBeforeMonth_add_le_daysInYear (hpos : 1 ≤ month) (hle : month ≤ 12) :
    daysBeforeMonth leap month + daysInMonth leap month ≤ daysInYear leap := by
  have htable : ∀ leap : Bool, ∀ month < 13, 1 ≤ month →
      daysBeforeMonth leap month + daysInMonth leap month ≤ daysInYear leap := by decide
  exact htable leap month (by omega) hpos

/-- A day of the calendar, in the years from 1 to 9999. -/
structure CivilDate where
  year : ℕ
  month : ℕ
  day : ℕ
  year_mem : 1 ≤ year ∧ year ≤ 9999
  month_mem : 1 ≤ month ∧ month ≤ 12
  day_mem : 1 ≤ day ∧ day ≤ daysInMonth (isLeap year) month
  deriving DecidableEq

namespace CivilDate

/-- `toordinal`: the first day of year 1 is day 1. -/
def ordinal (d : CivilDate) : ℕ :=
  daysBeforeYear d.year + daysBeforeMonth (isLeap d.year) d.month + d.day

/-- The day of the year lies within the year. -/
theorem dayOfYear_mem (d : CivilDate) :
    1 ≤ daysBeforeMonth (isLeap d.year) d.month + d.day ∧
      daysBeforeMonth (isLeap d.year) d.month + d.day ≤ daysInYear (isLeap d.year) := by
  have hyear := daysBeforeMonth_add_le_daysInYear (isLeap d.year) d.month_mem.1 d.month_mem.2
  have hday := d.day_mem
  omega

variable {d e : CivilDate}

theorem ordinal_lt_of_year_lt (h : d.year < e.year) : d.ordinal < e.ordinal := by
  have hd := d.dayOfYear_mem
  have he := e.dayOfYear_mem
  have hsucc := daysBeforeYear_succ d.year_mem.1
  have hmono := daysBeforeYear_mono (show d.year + 1 ≤ e.year from h)
  unfold ordinal
  omega

theorem ordinal_lt_of_month_lt (hyear : d.year = e.year) (h : d.month < e.month) :
    d.ordinal < e.ordinal := by
  have hstep := daysBeforeMonth_add_le (isLeap e.year) d.month_mem.1 h e.month_mem.2
  have hd := d.day_mem
  have he := e.day_mem
  unfold ordinal
  rw [hyear] at hd ⊢
  omega

theorem ordinal_lt_of_day_lt (hyear : d.year = e.year) (hmonth : d.month = e.month)
    (h : d.day < e.day) : d.ordinal < e.ordinal := by
  unfold ordinal
  rw [hyear, hmonth]
  omega

/-- Days follow each other in the order of their fields. -/
theorem ordinal_lt_iff (d e : CivilDate) :
    d.ordinal < e.ordinal ↔ d.year < e.year ∨ d.year = e.year ∧
      (d.month < e.month ∨ d.month = e.month ∧ d.day < e.day) := by
  constructor
  · intro h
    by_contra hnot
    rcases Nat.lt_trichotomy e.year d.year with hyear | hyear | hyear
    · exact absurd (ordinal_lt_of_year_lt hyear) (by omega)
    · rcases Nat.lt_trichotomy e.month d.month with hmonth | hmonth | hmonth
      · exact absurd (ordinal_lt_of_month_lt hyear hmonth) (by omega)
      · rcases Nat.lt_trichotomy e.day d.day with hday | hday | hday
        · exact absurd (ordinal_lt_of_day_lt hyear hmonth hday) (by omega)
        · unfold ordinal at h
          rw [hyear, hmonth, hday] at h
          omega
        · exact hnot (.inr ⟨hyear.symm, .inr ⟨hmonth.symm, by omega⟩⟩)
      · exact hnot (.inr ⟨hyear.symm, .inl hmonth⟩)
    · exact hnot (.inl hyear)
  · rintro (hyear | ⟨hyear, hmonth | ⟨hmonth, hday⟩⟩)
    · exact ordinal_lt_of_year_lt hyear
    · exact ordinal_lt_of_month_lt hyear hmonth
    · exact ordinal_lt_of_day_lt hyear hmonth hday

theorem ordinal_inj (h : d.ordinal = e.ordinal) :
    d.year = e.year ∧ d.month = e.month ∧ d.day = e.day := by
  have hde := (ordinal_lt_iff d e).not.mp (by omega)
  have hed := (ordinal_lt_iff e d).not.mp (by omega)
  omega

end CivilDate

/-! ### Days from their number -/

/-- `_MAXORDINAL`, the number of 31 December 9999. -/
def maxOrdinal : ℕ := 3652059

/-- The month of a day of the year, counted from 0: the estimate is exact or one too large. -/
def monthOfDay (leap : Bool) (n : ℕ) : ℕ :=
  let month := (n + 50) / 32
  if daysBeforeMonth leap month > n then month - 1 else month

/-- The year of a day number counted from 0, and the day of that year counted from 0. A day number
is taken apart into whole cycles of 400, 100 and 4 years and of single ones. The last day of a
cycle would start one more year, or century, than the cycle has. -/
def yearAndDay (n : ℕ) : ℕ × ℕ :=
  let n400 := n / 146097
  let r400 := n % 146097
  let n100 := r400 / 36524
  let r100 := r400 % 36524
  let n4 := r100 / 1461
  let r4 := r100 % 1461
  let n1 := r4 / 365
  let year := 400 * n400 + 100 * n100 + 4 * n4 + n1 + 1
  if n1 = 4 ∨ n100 = 4 then (year - 1, 365) else (year, r4 % 365)

namespace CivilDate

/-- The day of these fields, if there is one. -/
def ofFields (year month day : ℕ) : Option CivilDate :=
  if h : (1 ≤ year ∧ year ≤ 9999) ∧ (1 ≤ month ∧ month ≤ 12) ∧
      1 ≤ day ∧ day ≤ daysInMonth (isLeap year) month then
    some ⟨year, month, day, h.1, h.2.1, h.2.2⟩
  else none

theorem ofFields_self (d : CivilDate) : ofFields d.year d.month d.day = some d :=
  dif_pos ⟨d.year_mem, d.month_mem, d.day_mem⟩

/-- `fromordinal`, for day numbers counted from 0. -/
def ofDays (n : ℕ) : Option CivilDate :=
  let leap := isLeap (yearAndDay n).1
  let month := monthOfDay leap (yearAndDay n).2
  ofFields (yearAndDay n).1 month ((yearAndDay n).2 - daysBeforeMonth leap month + 1)

end CivilDate

/-! ### Date-times -/

/-- A date-time in UTC with microseconds. -/
structure CivilDatetime extends CivilDate where
  hour : ℕ
  minute : ℕ
  second : ℕ
  microsecond : ℕ
  hour_lt : hour < 24
  minute_lt : minute < 60
  second_lt : second < 60
  microsecond_lt : microsecond < 1000000
  deriving DecidableEq

namespace CivilDatetime

/-- The whole seconds since the first instant of year 1. -/
def seconds (t : CivilDatetime) : ℕ :=
  (t.ordinal - 1) * 86400 + t.hour * 3600 + t.minute * 60 + t.second

/-- The microseconds since the first instant of year 1. -/
def micros (t : CivilDatetime) : ℕ := t.seconds * 1000000 + t.microsecond

/-- One date-time is before, or not after, another as it is on the time line. -/
instance : LT CivilDatetime := ⟨fun t u => t.micros < u.micros⟩

instance : LE CivilDatetime := ⟨fun t u => t.micros ≤ u.micros⟩

variable {t u : CivilDatetime} {n : ℕ}

theorem lt_def : t < u ↔ t.micros < u.micros := Iff.rfl

theorem le_def : t ≤ u ↔ t.micros ≤ u.micros := Iff.rfl

theorem lt_iff :
    t < u ↔ t.seconds < u.seconds ∨ t.seconds = u.seconds ∧ t.microsecond < u.microsecond := by
  have ht := t.microsecond_lt
  have hu := u.microsecond_lt
  rw [lt_def, micros, micros]
  omega

theorem one_le_ordinal (d : CivilDate) : 1 ≤ d.ordinal := by
  have h := d.dayOfYear_mem
  unfold CivilDate.ordinal
  omega

/-- Seconds follow each other in the order of the fields. -/
theorem seconds_lt_iff (t u : CivilDatetime) :
    t.seconds < u.seconds ↔ t.year < u.year ∨ t.year = u.year ∧ (t.month < u.month ∨
      t.month = u.month ∧ (t.day < u.day ∨ t.day = u.day ∧ (t.hour < u.hour ∨ t.hour = u.hour ∧
        (t.minute < u.minute ∨ t.minute = u.minute ∧ t.second < u.second)))) := by
  have ht := one_le_ordinal t.toCivilDate
  have hu := one_le_ordinal u.toCivilDate
  have := t.hour_lt
  have := t.minute_lt
  have := t.second_lt
  have := u.hour_lt
  have := u.minute_lt
  have := u.second_lt
  have hclock : t.seconds < u.seconds ↔ t.ordinal < u.ordinal ∨ t.ordinal = u.ordinal ∧
      (t.hour < u.hour ∨ t.hour = u.hour ∧
        (t.minute < u.minute ∨ t.minute = u.minute ∧ t.second < u.second)) := by
    unfold seconds
    omega
  have hsame : t.ordinal = u.ordinal ↔
      t.year = u.year ∧ t.month = u.month ∧ t.day = u.day := by
    refine ⟨CivilDate.ordinal_inj, fun ⟨hyear, hmonth, hday⟩ => ?_⟩
    simp only [CivilDate.ordinal, hyear, hmonth, hday]
  rw [hclock, CivilDate.ordinal_lt_iff, hsame]
  simp only [or_assoc, and_assoc, and_or_left]

/-- The second names its fields. -/
theorem seconds_eq_iff (t u : CivilDatetime) :
    t.seconds = u.seconds ↔ t.year = u.year ∧ t.month = u.month ∧ t.day = u.day ∧
      t.hour = u.hour ∧ t.minute = u.minute ∧ t.second = u.second := by
  have htu := seconds_lt_iff t u
  have hut := seconds_lt_iff u t
  omega

/-! ### Moving along the time line -/

/-- The date-time at a place on the time line. After the year 9999 there is none. -/
def ofMicros (n : ℕ) : Option CivilDatetime :=
  if n / 86400000000 < maxOrdinal then
    (CivilDate.ofDays (n / 86400000000)).map fun d =>
      { d with
        hour := n / 1000000 % 86400 / 3600
        minute := n / 1000000 % 3600 / 60
        second := n / 1000000 % 60
        microsecond := n % 1000000
        hour_lt := by omega
        minute_lt := by omega
        second_lt := by omega
        microsecond_lt := by omega }
  else none

/-- `t + timedelta(seconds=seconds)`; past the last date-time it is an `OverflowError`. -/
def addSeconds (t : CivilDatetime) (seconds : ℕ) : Option CivilDatetime :=
  ofMicros (t.micros + seconds * 1000000)

/-! ### Texts -/

/-- The text up to the second. -/
def chars (t : CivilDatetime) : List Char :=
  fixedDigits 4 t.year ++ ('-' :: (fixedDigits 2 t.month ++ ('-' :: (fixedDigits 2 t.day ++
    ('T' :: (fixedDigits 2 t.hour ++ (':' :: (fixedDigits 2 t.minute ++
      (':' :: fixedDigits 2 t.second)))))))))

/-- The fraction of the second, which is left out where it is zero. -/
def fraction (t : CivilDatetime) : List Char :=
  if t.microsecond = 0 then [] else '.' :: fixedDigits 6 t.microsecond

/-- `t.isoformat()`. -/
def isoformat (t : CivilDatetime) : String :=
  String.ofList (t.chars ++ (t.fraction ++ "+00:00".toList))

/-- Every field fits the width it is written with. -/
theorem fields_fit (t : CivilDatetime) :
    t.year < 10 ^ 4 ∧ t.month < 10 ^ 2 ∧ t.day < 10 ^ 2 ∧ t.hour < 10 ^ 2 ∧ t.minute < 10 ^ 2 ∧
      t.second < 10 ^ 2 ∧ t.microsecond < 10 ^ 6 := by
  have htable : ∀ leap : Bool, ∀ month < 13, daysInMonth leap month < 100 := by decide
  have hmonth := t.month_mem
  have hyear := t.year_mem
  have hday := t.day_mem
  have hlast := htable (isLeap t.year) t.month (by omega)
  have hhour := t.hour_lt
  have hminute := t.minute_lt
  have hsecond := t.second_lt
  have hmicrosecond := t.microsecond_lt
  omega

/-- Texts are told apart by their seconds first, and then by what follows them. -/
theorem chars_append_lt (t u : CivilDatetime) (rest rest' : List Char) :
    t.chars ++ rest < u.chars ++ rest' ↔
      t.seconds < u.seconds ∨ t.seconds = u.seconds ∧ rest < rest' := by
  obtain ⟨hyear, hmonth, hday, hhour, hminute, hsecond, -⟩ := t.fields_fit
  obtain ⟨hyear', hmonth', hday', hhour', hminute', hsecond', -⟩ := u.fields_fit
  simp only [chars, append_assoc, cons_append]
  rw [fixedDigits_append_lt hyear hyear', cons_lt_cons_iff,
    fixedDigits_append_lt hmonth hmonth', cons_lt_cons_iff,
    fixedDigits_append_lt hday hday', cons_lt_cons_iff,
    fixedDigits_append_lt hhour hhour', cons_lt_cons_iff,
    fixedDigits_append_lt hminute hminute', cons_lt_cons_iff,
    fixedDigits_append_lt hsecond hsecond', seconds_lt_iff, seconds_eq_iff]
  simp only [lt_irrefl, true_and, false_or, or_assoc, and_assoc, and_or_left]

/-- Within a second the fraction decides, where both texts have one. -/
theorem fraction_append_lt (ht : t.microsecond ≠ 0) (hu : u.microsecond ≠ 0)
    {rest rest' : List Char} :
    t.fraction ++ rest < u.fraction ++ rest' ↔
      t.microsecond < u.microsecond ∨ t.microsecond = u.microsecond ∧ rest < rest' := by
  obtain ⟨-, -, -, -, -, -, hfit⟩ := t.fields_fit
  obtain ⟨-, -, -, -, -, -, hfit'⟩ := u.fields_fit
  rw [fraction, if_neg ht, fraction, if_neg hu, cons_append, cons_append,
    cons_lt_cons_iff, fixedDigits_append_lt hfit hfit']
  simp

/-! ### Reading a text back -/

/-- A reader takes what it reads off the front of a text. -/
abbrev TextReader := StateT (List Char) Option

/-- One decimal digit. -/
def digit : TextReader ℕ
  | [] => none
  | c :: rest => if c.isDigit then some (c.toNat - 48, rest) else none

/-- A number of so many digits. -/
def number : ℕ → TextReader ℕ
  | 0 => pure 0
  | width + 1 => do
    let front ← number width
    let last ← digit
    return front * 10 + last

/-- One given character. -/
def literal (expected : Char) : TextReader Unit
  | [] => none
  | c :: rest => if c = expected then some ((), rest) else none

/-- The microseconds, where there is a fraction. -/
def microseconds : TextReader ℕ
  | '.' :: rest => number 6 rest
  | text => some (0, text)

/-- The fields of a date-time, up to the offset. -/
def fields : TextReader CivilDatetime := do
  let year ← number 4
  literal '-'
  let month ← number 2
  literal '-'
  let day ← number 2
  literal 'T'
  let hour ← number 2
  literal ':'
  let minute ← number 2
  literal ':'
  let second ← number 2
  let microsecond ← microseconds
  let date ← StateT.lift (CivilDate.ofFields year month day)
  if h : hour < 24 ∧ minute < 60 ∧ second < 60 ∧ microsecond < 1000000 then
    return { date with
      hour := hour, minute := minute, second := second, microsecond := microsecond
      hour_lt := h.1, minute_lt := h.2.1, second_lt := h.2.2.1, microsecond_lt := h.2.2.2 }
  else StateT.lift none

/-- `datetime.fromisoformat`, on the texts that `isoformat` writes for UTC. -/
def fromIsoformat (text : String) : Option CivilDatetime :=
  match fields.run text.toList with
  | some (t, rest) => if rest = "+00:00".toList then some t else none
  | none => none

theorem digit_digitChar (hn : n < 10) (rest : List Char) :
    digit (Nat.digitChar n :: rest) = some (n, rest) := by
  have hdigit : (Nat.digitChar n).isDigit := by simpa [Nat.isDigit_digitChar] using hn
  simp only [digit, hdigit, if_true, Nat.toNat_digitChar_of_lt_ten hn]
  simp

theorem number_fixedDigits (hn : n < 10 ^ width) (rest : List Char) :
    number width (fixedDigits width n ++ rest) = some (n, rest) := by
  induction width generalizing n rest with
  | zero =>
    obtain rfl : n = 0 := by omega
    rfl
  | succ width ih =>
    simp only [fixedDigits, append_assoc, singleton_append, number]
    change (number width _ >>= fun x => (digit x.2 >>= fun y => some (x.1 * 10 + y.1, y.2))) = _
    rw [ih (by omega)]
    change (digit _ >>= fun y => some (n / 10 * 10 + y.1, y.2)) = _
    rw [digit_digitChar (Nat.mod_lt n (by decide))]
    simp [Nat.div_add_mod']

variable {α : Type}

theorem run_number_bind (hn : n < 10 ^ width) (rest : List Char) (f : ℕ → TextReader α) :
    (number width >>= f).run (fixedDigits width n ++ rest) = (f n).run rest := by
  change (number width _ >>= fun x => (f x.1).run x.2) = _
  rw [number_fixedDigits hn]
  rfl

theorem run_literal_bind (c : Char) (rest : List Char) (f : Unit → TextReader α) :
    (literal c >>= f).run (c :: rest) = (f ()).run rest := by
  change (literal c (c :: rest) >>= fun x => (f x.1).run x.2) = _
  rw [literal, if_pos rfl]
  rfl

theorem microseconds_fraction (t : CivilDatetime) :
    microseconds (t.fraction ++ "+00:00".toList) = some (t.microsecond, "+00:00".toList) := by
  unfold fraction
  split_ifs with hzero
  · rw [hzero]
    rfl
  · obtain ⟨-, -, -, -, -, -, hfit⟩ := t.fields_fit
    exact number_fixedDigits hfit _

/-- A written text is read back. -/
theorem fromIsoformat_isoformat (t : CivilDatetime) : fromIsoformat t.isoformat = some t := by
  obtain ⟨hyear, hmonth, hday, hhour, hminute, hsecond, -⟩ := t.fields_fit
  have hread : fields.run t.isoformat.toList = some (t, "+00:00".toList) := by
    simp only [fields, isoformat, String.toList_ofList, chars, append_assoc, cons_append]
    rw [run_number_bind hyear, run_literal_bind, run_number_bind hmonth, run_literal_bind,
      run_number_bind hday, run_literal_bind, run_number_bind hhour, run_literal_bind,
      run_number_bind hminute, run_literal_bind, run_number_bind hsecond, StateT.run_bind]
    change microseconds (t.fraction ++ "+00:00".toList) >>= _ = _
    rw [microseconds_fraction]
    simp only [Option.bind_eq_bind, Option.bind_some, CivilDate.ofFields_self, t.hour_lt,
      t.minute_lt, t.second_lt, t.microsecond_lt, and_self, dite_true]
    rfl
  rw [fromIsoformat, hread]
  exact if_pos rfl

end CivilDatetime

end LotusAI.Lib
