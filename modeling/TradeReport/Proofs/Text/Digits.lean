import Mathlib.Data.List.Basic
import Mathlib.Data.Nat.Digits.Defs
import TradeReport.Text.Digits
/-!
# Numbers in digits

A number is written without a zero in front (`isNumeral_toDigits`), or with zeros in front up to a width
(`ofDigitChars_zeroPadded`). Digits end where something else follows, so a text that begins with a number tells which
digits belong to it (`eq_of_digits_append`).
-/

namespace TradeReport

/-- A whole number as it is written: digits, and no zero in front of others. -/
structure IsNumeral (digits : List Char) : Prop where
  nonempty : digits ≠ []
  isDigit : ∀ c ∈ digits, c.isDigit = true
  noZero : digits.head? = some '0' → digits.length = 1

/-- Only zero is written with a zero in front. -/
theorem eq_zero_of_head?_toDigits {n : ℕ} (h : (Nat.toDigits 10 n).head? = some '0') : n = 0 := by
  induction n using Nat.strong_induction_on with
  | _ n ih =>
    rcases Nat.lt_or_ge n 10 with hdigit | hmore
    · rw [Nat.toDigits_of_lt_base hdigit, List.head?_singleton, Option.some.injEq] at h
      have hzero : ∀ digit < 10, Nat.digitChar digit = '0' → digit = 0 := by decide
      exact hzero n hdigit h
    · rw [Nat.toDigits_of_base_le (by decide) hmore, List.head?_append_of_ne_nil _ Nat.toDigits_ne_nil] at h
      have hfront := ih (n / 10) (by omega) h
      omega

theorem isNumeral_toDigits (n : ℕ) : IsNumeral (Nat.toDigits 10 n) := by
  refine ⟨Nat.toDigits_ne_nil, fun c hc => Nat.isDigit_of_mem_toDigits (by decide) (by decide) hc, fun hzero => ?_⟩
  obtain rfl := eq_zero_of_head?_toDigits hzero
  rfl

/-! ## Zeros in front -/

theorem length_zeroPadded (width value : ℕ) :
    (zeroPadded width value).length = max width (Nat.toDigits 10 value).length := by
  rw [zeroPadded, List.length_append, List.length_replicate]
  omega

theorem le_length_zeroPadded (width value : ℕ) : width ≤ (zeroPadded width value).length := by
  rw [length_zeroPadded]
  exact Nat.le_max_left _ _

theorem isDigit_of_mem_zeroPadded {width value : ℕ} {c : Char} (h : c ∈ zeroPadded width value) :
    c.isDigit = true := by
  rcases List.mem_append.1 h with hzero | hdigit
  · rw [List.eq_of_mem_replicate hzero]
    rfl
  · exact Nat.isDigit_of_mem_toDigits (by decide) (by decide) hdigit

theorem ofDigitChars_zeroPadded (width value : ℕ) : Nat.ofDigitChars 10 (zeroPadded width value) 0 = value := by
  rw [zeroPadded, Nat.ofDigitChars_append, Nat.ofDigitChars_replicate_zero, Nat.mul_zero,
    Nat.ofDigitChars_ten_toDigits]

/-- Zeros are put in front only as far as the width reaches. -/
theorem length_of_head?_zeroPadded {width value : ℕ} (hwidth : 0 < width)
    (h : (zeroPadded width value).head? = some '0') : (zeroPadded width value).length = width := by
  simp only [zeroPadded] at h ⊢
  rcases Nat.lt_or_ge (Nat.toDigits 10 value).length width with hpadded | hfull
  · rw [List.length_append, List.length_replicate]
    omega
  · rw [Nat.sub_eq_zero_of_le hfull, List.replicate_zero, List.nil_append] at h ⊢
    obtain rfl := eq_zero_of_head?_toDigits h
    rw [Nat.toDigits_zero, List.length_singleton] at hfull ⊢
    omega

/-! ## Digits in front of something else -/

theorem eq_of_digits_append {front front' back back' : List Char} {c c' : Char}
    (hfront : ∀ d ∈ front, d.isDigit = true) (hfront' : ∀ d ∈ front', d.isDigit = true) (hc : c.isDigit = false)
    (hc' : c'.isDigit = false) (h : front ++ c :: back = front' ++ c' :: back') : front = front' := by
  have hdigits := congrArg (List.takeWhile Char.isDigit) h
  rwa [List.takeWhile_append_of_pos hfront, List.takeWhile_append_of_pos hfront',
    List.takeWhile_cons_of_neg (by simp [hc]), List.takeWhile_cons_of_neg (by simp [hc']), List.append_nil,
    List.append_nil] at hdigits

end TradeReport
