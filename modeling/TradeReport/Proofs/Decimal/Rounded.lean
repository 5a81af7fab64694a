import TradeReport.Proofs.Decimal.Nearest
import TradeReport.Proofs.Decimal.Value
/-!
# Fractions as decimals

The decimal that a fraction becomes: the nearest one with the largest number of places, at most 28, that leaves
its mantissa in range, and none when not even the whole part fits. The functions here know nothing of mantissas
and places of operands, so whatever is stated through `rounded?` depends on values only. A fraction that is a
decimal already stays as it is (`rounded?_of_representable`).
-/

namespace TradeReport

theorem mantissaBound_eq : mantissaBound = 79228162514264337593543950336 := by decide

def roundedAt (x : ℚ) (places : ℕ) : ℚ :=
  nearestEven (x * 10 ^ places) / 10 ^ places

/-- Rounded to so many places, the fraction has a mantissa in range. -/
def FitsAt (x : ℚ) (places : ℕ) : Prop :=
  |nearestEven (x * 10 ^ places)| < mantissaBound

instance (x : ℚ) (places : ℕ) : Decidable (FitsAt x places) :=
  inferInstanceAs (Decidable (_ < _))

/-- The fraction rounded to the most places, up to the given number, at which it fits. -/
def roundedWithin (x : ℚ) : ℕ → Option ℚ
  | 0 => if FitsAt x 0 then some (roundedAt x 0) else none
  | places + 1 =>
    if FitsAt x (places + 1) then some (roundedAt x (places + 1)) else roundedWithin x places

/-- The value of the decimal that a fraction is rounded to, absent when it is too large. -/
def rounded? (x : ℚ) : Option ℚ :=
  roundedWithin x maxScale

/-- The values that decimals have. -/
def Representable (x : ℚ) : Prop :=
  ∃ (n : ℤ) (places : ℕ), places ≤ maxScale ∧ |n| < mantissaBound ∧ x = n / 10 ^ places

private theorem abs_nearestEven (x : ℚ) : |nearestEven x| = nearestEven |x| := by
  rcases le_total 0 x with h | h
  · rw [abs_of_nonneg h, abs_of_nonneg]
    exact le_nearestEven (by exact_mod_cast h)
  · have hneg : 0 ≤ nearestEven (-x) := le_nearestEven (by push_cast; linarith)
    rw [abs_of_nonpos h, nearestEven_neg, abs_of_nonpos]
    rw [nearestEven_neg] at hneg
    omega

private theorem fitsAt_neg (x : ℚ) (places : ℕ) : FitsAt (-x) places ↔ FitsAt x places := by
  rw [FitsAt, neg_mul, nearestEven_neg, abs_neg, FitsAt]

theorem FitsAt.of_succ {x : ℚ} {places : ℕ} (h : FitsAt x (places + 1)) : FitsAt x places := by
  rw [FitsAt, abs_nearestEven] at h ⊢
  by_contra hlarge
  have hhalf := sub_half_le_of_le_nearestEven (not_lt.1 hlarge)
  have hpower : |x * 10 ^ (places + 1)| = |x * 10 ^ places| * 10 := by
    rw [pow_succ, ← mul_assoc, abs_mul, abs_of_pos (show (0 : ℚ) < 10 by norm_num)]
  have hbound : ((mantissaBound : ℕ) : ℚ) = 79228162514264337593543950336 := by
    exact_mod_cast mantissaBound_eq
  rw [hpower] at h
  push_cast at hhalf
  refine absurd (le_nearestEven (n := (mantissaBound : ℤ)) ?_) (not_le.2 h)
  push_cast
  linarith

theorem FitsAt.of_le {x : ℚ} {fewer places : ℕ} (hle : fewer ≤ places) (h : FitsAt x places) :
    FitsAt x fewer := by
  induction places, hle using Nat.le_induction with
  | base => exact h
  | succ places _ ih => exact ih h.of_succ

private theorem roundedWithin_of_fitsAt {x : ℚ} {places : ℕ} (h : FitsAt x places) :
    roundedWithin x places = some (roundedAt x places) := by
  cases places with
  | zero => rw [roundedWithin, if_pos h]
  | succ places => rw [roundedWithin, if_pos h]

/-- Where the next place does not fit, no further place does. -/
theorem rounded?_eq_some {x : ℚ} {places : ℕ} (hplaces : places ≤ maxScale) (hfits : FitsAt x places)
    (hmost : places = maxScale ∨ ¬FitsAt x (places + 1)) :
    rounded? x = some (roundedAt x places) := by
  rcases hmost with rfl | hmost
  · exact roundedWithin_of_fitsAt hfits
  · suffices h : ∀ more, places ≤ more →
        roundedWithin x more = some (roundedAt x places) from h maxScale hplaces
    intro more hmore
    induction more, hmore using Nat.le_induction with
    | base => exact roundedWithin_of_fitsAt hfits
    | succ more hmore ih =>
      have hover : ¬FitsAt x (more + 1) := fun h => hmost (h.of_le (by omega))
      rw [roundedWithin, if_neg hover]
      exact ih

theorem roundedWithin_eq_none_iff {x : ℚ} (places : ℕ) : roundedWithin x places = none ↔ ¬FitsAt x 0 := by
  induction places with
  | zero =>
    rw [roundedWithin]
    split <;> simp_all
  | succ places ih =>
    rw [roundedWithin]
    split
    · rename_i hfits
      simp [hfits.of_le (Nat.zero_le _)]
    · exact ih

theorem rounded?_eq_none {x : ℚ} (h : ¬FitsAt x 0) : rounded? x = none :=
  (roundedWithin_eq_none_iff maxScale).2 h

private theorem fitsAt_zero_iff (x : ℚ) : FitsAt x 0 ↔ |x| < mantissaBound - 1 / 2 := by
  have heven : (mantissaBound : ℤ) % 2 = 0 := by decide
  have hbound := le_nearestEven_iff_of_even (x := |x|) heven
  rw [Int.cast_natCast] at hbound
  rw [FitsAt, pow_zero, mul_one, abs_nearestEven, ← not_le, hbound, not_le]

/-- A fraction has no decimal exactly when it rounds to the bound of mantissas or beyond. -/
theorem rounded?_eq_none_iff {x : ℚ} : rounded? x = none ↔ (mantissaBound : ℚ) - 1 / 2 ≤ |x| := by
  rw [rounded?, roundedWithin_eq_none_iff, fitsAt_zero_iff, not_lt]

theorem roundedAt_of_mul_eq {x : ℚ} {places : ℕ} {n : ℤ} (h : x * 10 ^ places = n) :
    roundedAt x places = x := by
  rw [roundedAt, h, nearestEven_intCast, ← h]
  field_simp

/-- A decimal is rounded to itself, whatever zeros it could be written with. -/
theorem rounded?_of_representable {x : ℚ} (h : Representable x) : rounded? x = some x := by
  obtain ⟨n, places, hplaces, hn, hx⟩ := h
  have hexact : ∀ more, places ≤ more → x * 10 ^ more = ((n * 10 ^ (more - places) : ℤ) : ℚ) := by
    intro more hmore
    rw [hx, ← pow_mul_pow_sub 10 hmore]
    push_cast
    field_simp
  suffices hall : ∀ more, places ≤ more → roundedWithin x more = some x from hall maxScale hplaces
  intro more hmore
  induction more, hmore using Nat.le_induction with
  | base =>
    have hfits : FitsAt x places := by
      rw [FitsAt, hexact places le_rfl, nearestEven_intCast]
      simpa using hn
    rw [roundedWithin_of_fitsAt hfits, roundedAt_of_mul_eq (hexact places le_rfl)]
  | succ more hmore ih =>
    by_cases hfits : FitsAt x (more + 1)
    · rw [roundedWithin_of_fitsAt hfits, roundedAt_of_mul_eq (hexact (more + 1) (by omega))]
    · rw [roundedWithin, if_neg hfits]
      exact ih

theorem roundedAt_neg (x : ℚ) (places : ℕ) : roundedAt (-x) places = -roundedAt x places := by
  rw [roundedAt, neg_mul, nearestEven_neg, Int.cast_neg, neg_div, roundedAt]

theorem rounded?_neg (x : ℚ) : rounded? (-x) = (rounded? x).map (-·) := by
  suffices h : ∀ places, roundedWithin (-x) places = (roundedWithin x places).map (-·) from h maxScale
  intro places
  induction places with
  | zero =>
    simp only [roundedWithin, fitsAt_neg, roundedAt_neg]
    split <;> rfl
  | succ places ih =>
    simp only [roundedWithin, fitsAt_neg, roundedAt_neg, ih]
    split <;> rfl

/-- A sign is put back after rounding. -/
theorem rounded?_signFactor_mul (negative : Bool) (x : ℚ) :
    rounded? (Decimal.signFactor negative * x) = (rounded? x).map (Decimal.signFactor negative * ·) := by
  cases negative with
  | false => simp [Decimal.signFactor]
  | true => simp [Decimal.signFactor, rounded?_neg]

theorem Decimal.representable (a : Decimal) : Representable a.toRat := by
  refine ⟨a.signed, a.scale, a.scale_le, ?_, a.toRat_eq⟩
  have hmantissa := a.mantissa_lt
  unfold Decimal.signed
  split
  · rw [abs_neg, Nat.abs_cast]
    exact_mod_cast hmantissa
  · rw [Nat.abs_cast]
    exact_mod_cast hmantissa

@[simp] theorem rounded?_toRat (a : Decimal) : rounded? a.toRat = some a.toRat :=
  rounded?_of_representable a.representable

end TradeReport
