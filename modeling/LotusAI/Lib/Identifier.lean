import Mathlib.Data.String.Basic

/-!
# Identifiers with a zero-padded serial number

An identifier built as `base ++ tag ++ serial`, where the serial is printed in
decimal and padded with zeros to a minimum width. The width is a minimum, not a
maximum: a serial above it keeps all its digits. Such an identifier is read back
unambiguously from its right end as long as the tag ends in a character that is
not a digit, whatever the base contains.
-/

namespace LotusAI.Lib

open List

/-- `n` in decimal, padded with zeros on the left to at least `width` digits. -/
def zeroPad (width n : ℕ) : String := String.ofList (n.repr.toList.leftpad width '0')

variable (width n : ℕ) {sep : Char}

theorem toList_zeroPad :
    (zeroPad width n).toList =
      replicate (width - (Nat.toDigits 10 n).length) '0' ++ Nat.toDigits 10 n := by
  simp [zeroPad, leftpad, Nat.toList_repr]

theorem isDigit_of_mem_zeroPad {width n : ℕ} {c : Char} (hc : c ∈ (zeroPad width n).toList) :
    c.isDigit := by
  rw [toList_zeroPad, mem_append] at hc
  rcases hc with hzero | hdigit
  · rw [eq_of_mem_replicate hzero]; decide
  · exact Nat.isDigit_of_mem_toDigits (by decide) (by decide) hdigit

/-- The decimal value of a padded serial is the serial. -/
theorem ofDigitChars_zeroPad :
    Nat.ofDigitChars 10 (zeroPad width n).toList 0 = n := by
  rw [toList_zeroPad, Nat.ofDigitChars_append, Nat.ofDigitChars_replicate_zero, Nat.mul_zero,
    Nat.ofDigitChars_toDigits (by decide) (by decide)]

/-- Padding loses no serial number. -/
theorem zeroPad_injective (width : ℕ) : Function.Injective (zeroPad width) := by
  intro n m h
  rw [← ofDigitChars_zeroPad width n, h, ofDigitChars_zeroPad]

/-- A block of digits after a non-digit is the longest digit suffix. -/
theorem takeWhile_reverse_append_digits {front digits : List Char}
    (hsep : sep.isDigit = false) (hdigits : ∀ c ∈ digits, c.isDigit) :
    (front ++ sep :: digits).reverse.takeWhile Char.isDigit = digits.reverse := by
  rw [reverse_append, reverse_cons, append_assoc,
    takeWhile_append_of_pos (by simpa using hdigits)]
  simp [hsep]

/-- Two texts that end in digits after the same kind of separator agree in both parts. -/
theorem append_digits_inj {front front' digits digits' : List Char} {sep' : Char}
    (hsep : sep.isDigit = false) (hsep' : sep'.isDigit = false)
    (hdigits : ∀ c ∈ digits, c.isDigit) (hdigits' : ∀ c ∈ digits', c.isDigit)
    (h : front ++ sep :: digits = front' ++ sep' :: digits') :
    front ++ [sep] = front' ++ [sep'] ∧ digits = digits' := by
  have hd : digits = digits' := by
    have hrev : (front ++ sep :: digits).reverse.takeWhile Char.isDigit = digits.reverse :=
      takeWhile_reverse_append_digits hsep hdigits
    rw [h, takeWhile_reverse_append_digits hsep' hdigits'] at hrev
    exact (reverse_injective hrev).symm
  subst hd
  have hfront : (front ++ [sep]) ++ digits = (front' ++ [sep']) ++ digits := by simpa using h
  exact ⟨append_cancel_right hfront, rfl⟩

/-- `base`, a tag and a padded serial number, run together. -/
def serialId (base tag : String) (n : ℕ) : String := base ++ tag ++ zeroPad 3 n

/-- An identifier determines its base and its serial, provided the tag ends in a
character that is not a digit. The base may contain digits and tags of its own. -/
theorem serialId_inj {tag : String} {init : List Char}
    (htag : tag.toList = init ++ [sep]) (hsep : sep.isDigit = false)
    {base base' : String} {n n' : ℕ} (h : serialId base tag n = serialId base' tag n') :
    base = base' ∧ n = n' := by
  have hlist : (base.toList ++ init) ++ sep :: (zeroPad 3 n).toList =
      (base'.toList ++ init) ++ sep :: (zeroPad 3 n').toList := by
    simpa [serialId, String.toList_append, htag] using congrArg String.toList h
  obtain ⟨hfront, hdigits⟩ := append_digits_inj hsep hsep
    (fun _ => isDigit_of_mem_zeroPad) (fun _ => isDigit_of_mem_zeroPad) hlist
  refine ⟨String.toList_inj.mp ?_, zeroPad_injective 3 (String.toList_inj.mp hdigits)⟩
  simpa using hfront

end LotusAI.Lib
