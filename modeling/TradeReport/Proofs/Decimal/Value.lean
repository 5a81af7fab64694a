import Mathlib.Algebra.Order.Field.Rat
import Mathlib.Order.Compare
import Mathlib.Tactic.FieldSimp
import Mathlib.Tactic.NormNum
import Mathlib.Tactic.Positivity
import Mathlib.Tactic.Push
import Mathlib.Tactic.Ring
import TradeReport.Decimal.Basic
/-!
# The value of a decimal

A decimal stands for the fraction `toRat`, and figures are compared by nothing else: the order, the test for
zero and the comparison that fills are sorted by are those of the fractions. Two decimals of one value may still
be written with different places.
-/

namespace TradeReport

@[simp] theorem cast_tenPower (exponent : ℕ) : ((tenPower exponent : ℕ) : ℚ) = 10 ^ exponent :=
  Nat.cast_pow 10 exponent

theorem tenPower_pos (exponent : ℕ) : 0 < tenPower exponent :=
  Nat.pow_pos (by decide)

namespace Decimal

theorem toRat_eq (a : Decimal) : a.toRat = a.signed / 10 ^ a.scale := by
  rw [toRat, Rat.mkRat_eq_div, cast_tenPower]

def signFactor (negative : Bool) : ℚ :=
  if negative then -1 else 1

theorem toRat_eq_sign_mul (a : Decimal) :
    a.toRat = signFactor a.negative * (a.mantissa / 10 ^ a.scale) := by
  rw [toRat_eq, signed, signFactor]
  split
  · push_cast
    ring
  · push_cast
    ring

private theorem abs_signFactor (negative : Bool) : |signFactor negative| = 1 := by
  cases negative <;> simp [signFactor]

theorem abs_toRat (a : Decimal) : |a.toRat| = a.mantissa / 10 ^ a.scale := by
  rw [toRat_eq_sign_mul, abs_mul, abs_signFactor, one_mul, abs_of_nonneg (by positivity)]

theorem toRat_eq_zero_iff (a : Decimal) : a.toRat = 0 ↔ a.mantissa = 0 := by
  rw [← abs_eq_zero, abs_toRat, div_eq_zero_iff]
  simp

theorem isZero_iff (a : Decimal) : a.isZero = true ↔ a.toRat = 0 := by
  rw [toRat_eq_zero_iff, isZero, beq_iff_eq]

@[simp] theorem toRat_zero : zero.toRat = 0 := by
  rw [toRat_eq_zero_iff]
  rfl

theorem toRat_one : one.toRat = 1 := by
  rw [toRat_eq]
  norm_num [one, signed]

theorem toRat_neg (a : Decimal) : a.neg.toRat = -a.toRat := by
  unfold neg
  split
  · rename_i hzero
    rw [(isZero_iff a).1 hzero, neg_zero]
  · rw [toRat_eq_sign_mul, toRat_eq_sign_mul]
    cases a.negative <;> simp [signFactor]

private theorem signed_scaled (a : Decimal) {places : ℕ} (h : a.scale ≤ places) :
    ((a.signed * tenPower (places - a.scale) : ℤ) : ℚ) = a.toRat * 10 ^ places := by
  rw [toRat_eq, ← pow_mul_pow_sub 10 h, Int.cast_mul, Int.cast_natCast, cast_tenPower]
  field_simp

theorem aligned_fst (a b : Decimal) : (((aligned a b).1 : ℤ) : ℚ) = a.toRat * 10 ^ max a.scale b.scale :=
  signed_scaled a (Nat.le_max_left _ _)

theorem aligned_snd (a b : Decimal) : (((aligned a b).2 : ℤ) : ℚ) = b.toRat * 10 ^ max a.scale b.scale :=
  signed_scaled b (Nat.le_max_right _ _)

private theorem aligned_lt_iff (a b : Decimal) : (aligned a b).1 < (aligned a b).2 ↔ a.toRat < b.toRat := by
  rw [← Int.cast_lt (R := ℚ), aligned_fst, aligned_snd]
  exact mul_lt_mul_iff_left₀ (by positivity)

private theorem aligned_eq_iff (a b : Decimal) : (aligned a b).1 = (aligned a b).2 ↔ a.toRat = b.toRat := by
  rw [← Int.cast_inj (α := ℚ), aligned_fst, aligned_snd]
  exact mul_left_inj' (by positivity)

theorem lt_iff_toRat_lt {a b : Decimal} : a < b ↔ a.toRat < b.toRat :=
  aligned_lt_iff a b

theorem le_iff_toRat_le {a b : Decimal} : a ≤ b ↔ a.toRat ≤ b.toRat := by
  show (aligned a b).1 ≤ (aligned a b).2 ↔ _
  rw [le_iff_lt_or_eq, le_iff_lt_or_eq, aligned_lt_iff, aligned_eq_iff]

theorem toRat_larger (a b : Decimal) : (a.larger b).toRat = max a.toRat b.toRat := by
  unfold larger
  split
  · rename_i hlt
    rw [max_eq_right (lt_iff_toRat_lt.1 hlt).le]
  · rename_i hle
    rw [max_eq_left (not_lt.1 (mt lt_iff_toRat_lt.2 hle))]

theorem compareValue_eq (a b : Decimal) : compareValue a b = compare a.toRat b.toRat := by
  unfold compareValue
  rcases lt_trichotomy a.toRat b.toRat with h | h | h
  · rw [compare_lt_iff_lt.2 h, compare_lt_iff_lt.2 ((aligned_lt_iff a b).2 h)]
  · rw [compare_eq_iff_eq.2 h, compare_eq_iff_eq.2 ((aligned_eq_iff a b).2 h)]
  · have hgt : (aligned a b).2 < (aligned a b).1 := by
      refine lt_of_le_of_ne (not_lt.1 fun hlt => ?_) fun heq => ?_
      · exact (h.trans ((aligned_lt_iff a b).1 hlt)).false
      · exact h.ne' ((aligned_eq_iff a b).1 heq.symm)
    rw [compare_gt_iff_gt.2 h, compare_gt_iff_gt.2 hgt]

end Decimal

end TradeReport
