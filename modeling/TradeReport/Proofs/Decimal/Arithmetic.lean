import TradeReport.Decimal.Arithmetic
import TradeReport.Proofs.Decimal.Rounded
/-!
# Sums, differences and products are rounded once

Each operation gives the decimal that its exact result is rounded to, and overflows where there is none
(`toRat_add?`, `toRat_sub?`, `toRat_mul?`). So a result depends on the values of the operands and not on the
places they are written with, and an exact result that is a decimal is returned as it is.
-/

namespace TradeReport

theorem Rounding.le_quotient (rule : Rounding) (numerator denominator : ℕ) :
    numerator / denominator ≤ rule.quotient numerator denominator := by
  unfold quotient
  cases rule <;> dsimp only <;> (try split) <;> omega

/-- A fraction that reaches the bound only by rounding keeps one place less, and rounds to this mantissa
there. -/
theorem nearestEven_of_carry {x : ℚ} (hlow : (mantissaBound : ℤ) ≤ nearestEven (x * 10))
    (hhigh : x * 10 < mantissaBound) : nearestEven x = 7922816251426433759354395034 := by
  have hhalf := sub_half_le_of_le_nearestEven hlow
  have hbound : ((mantissaBound : ℕ) : ℚ) = 79228162514264337593543950336 := by
    exact_mod_cast mantissaBound_eq
  rw [Int.cast_natCast] at hhalf
  rw [hbound] at hhalf hhigh
  apply nearestEven_eq_of_abs_sub_lt
  rw [abs_lt]
  push_cast
  constructor
  · linarith
  · linarith

namespace Decimal

theorem toRat_ofParts? (negative : Bool) {mantissa scale : ℕ} (hmantissa : mantissa < mantissaBound)
    (hscale : scale ≤ maxScale) :
    (ofParts? negative mantissa scale).map toRat = some (signFactor negative * (mantissa / 10 ^ scale)) := by
  rw [ofParts?, dif_pos ⟨hmantissa, hscale⟩, Option.map_some, toRat_eq_sign_mul]

/-! ## Fitting a mantissa -/

private theorem digitsOver_eq_some {mantissa drop steps found : ℕ} (h : digitsOver mantissa drop steps = some found) :
    drop ≤ found ∧ found ≤ drop + steps ∧ mantissa / tenPower found < mantissaBound ∧
      (drop < found → mantissaBound ≤ mantissa / tenPower (found - 1)) := by
  induction steps generalizing drop with
  | zero =>
    unfold digitsOver at h
    split at h
    · obtain rfl := Option.some.inj h
      exact ⟨le_rfl, le_rfl, ‹_›, fun hlt => absurd hlt (lt_irrefl _)⟩
    · simp at h
  | succ steps ih =>
    unfold digitsOver at h
    split at h
    · obtain rfl := Option.some.inj h
      exact ⟨le_rfl, by omega, ‹_›, fun hlt => absurd hlt (lt_irrefl _)⟩
    · rename_i hover
      obtain ⟨hle, hsteps, hfits, hmost⟩ := ih h
      refine ⟨by omega, by omega, hfits, fun _ => ?_⟩
      rcases hle.eq_or_lt with rfl | hlt
      · exact not_lt.1 hover
      · exact hmost hlt

private theorem digitsOver_eq_none {mantissa drop steps : ℕ} (h : digitsOver mantissa drop steps = none) :
    mantissaBound ≤ mantissa / tenPower (drop + steps) := by
  induction steps generalizing drop with
  | zero =>
    unfold digitsOver at h
    split at h
    · simp at h
    · exact not_lt.1 ‹_›
  | succ steps ih =>
    unfold digitsOver at h
    split at h
    · simp at h
    · rw [show drop + (steps + 1) = drop + 1 + steps by omega]
      exact ih h

/-- Dropping digits of a mantissa is multiplying its fraction by the places that stay. -/
theorem scaled_eq {mantissa scale drop : ℕ} (h : drop ≤ scale) :
    (mantissa : ℚ) / 10 ^ scale * 10 ^ (scale - drop) = mantissa / tenPower drop := by
  rw [cast_tenPower, ← pow_sub_mul_pow 10 h]
  field_simp

private theorem nearestEven_scaled {mantissa scale drop : ℕ} (h : drop ≤ scale) :
    nearestEven ((mantissa : ℚ) / 10 ^ scale * 10 ^ (scale - drop))
      = Rounding.halfEven.quotient mantissa (tenPower drop) := by
  rw [scaled_eq h, nearestEven_div mantissa (tenPower_pos drop)]

private theorem fitsAt_scaled {mantissa scale drop : ℕ} (h : drop ≤ scale) :
    FitsAt ((mantissa : ℚ) / 10 ^ scale) (scale - drop) ↔
      Rounding.halfEven.quotient mantissa (tenPower drop) < mantissaBound := by
  rw [FitsAt, nearestEven_scaled h, Nat.abs_cast]
  exact_mod_cast Iff.rfl

theorem roundedAt_scaled {mantissa scale drop : ℕ} (h : drop ≤ scale) :
    roundedAt ((mantissa : ℚ) / 10 ^ scale) (scale - drop)
      = Rounding.halfEven.quotient mantissa (tenPower drop) / 10 ^ (scale - drop) := by
  rw [roundedAt, nearestEven_scaled h]
  push_cast
  rfl

/-- The fewest digits that have to go leave the most places that fit. -/
theorem rounded?_scaled {mantissa scale drop : ℕ} (hdrop : drop ≤ scale) (hleast : scale - maxScale ≤ drop)
    (hfits : Rounding.halfEven.quotient mantissa (tenPower drop) < mantissaBound)
    (hmost : scale - maxScale < drop → mantissaBound ≤ mantissa / tenPower (drop - 1)) :
    rounded? ((mantissa : ℚ) / 10 ^ scale)
      = some ((Rounding.halfEven.quotient mantissa (tenPower drop) : ℕ) / 10 ^ (scale - drop) : ℚ) := by
  rw [← roundedAt_scaled hdrop]
  have hplaces : scale - drop ≤ maxScale := by omega
  rcases hleast.eq_or_lt with heq | hlt
  · by_cases hscale : maxScale ≤ scale
    · exact rounded?_eq_some hplaces ((fitsAt_scaled hdrop).2 hfits) (Or.inl (by omega))
    · -- Nothing is dropped, so the fraction is a decimal as it stands.
      have hzero : drop = 0 := by omega
      subst hzero
      have hvalue : (mantissa : ℚ) / 10 ^ scale * 10 ^ (scale - 0) = ((mantissa : ℤ) : ℚ) := by
        rw [scaled_eq (Nat.zero_le _)]
        simp
      have hmantissa : mantissa < mantissaBound :=
        lt_of_le_of_lt (by simpa using Rounding.halfEven.le_quotient mantissa (tenPower 0)) hfits
      rw [roundedAt_of_mul_eq hvalue]
      refine rounded?_of_representable ⟨mantissa, scale, by omega, ?_, by push_cast; rfl⟩
      rw [Nat.abs_cast]
      exact_mod_cast hmantissa
  · refine rounded?_eq_some hplaces ((fitsAt_scaled hdrop).2 hfits) (Or.inr ?_)
    rw [show scale - drop + 1 = scale - (drop - 1) by omega, fitsAt_scaled (by omega)]
    have hlarge := Rounding.halfEven.le_quotient mantissa (tenPower (drop - 1))
    have hover := hmost hlt
    omega

private theorem quotient_mantissaBound :
    Rounding.halfEven.quotient mantissaBound 10 = 7922816251426433759354395034 := by
  decide

/-- A mantissa that rounds up to the bound gives up one place more. -/
theorem rounded?_scaled_carry {mantissa scale drop : ℕ} (hdrop : drop < scale) (hleast : scale - maxScale ≤ drop)
    (hbelow : mantissa / tenPower drop < mantissaBound)
    (hover : mantissaBound ≤ Rounding.halfEven.quotient mantissa (tenPower drop)) :
    rounded? ((mantissa : ℚ) / 10 ^ scale)
      = some ((Rounding.halfEven.quotient (Rounding.halfEven.quotient mantissa (tenPower drop)) 10 : ℕ)
          / 10 ^ (scale - drop - 1) : ℚ) := by
  have hcarried : Rounding.halfEven.quotient mantissa (tenPower drop) = mantissaBound := by
    have hle := Rounding.halfEven.quotient_le_succ mantissa (tenPower drop)
    omega
  have hplaces : (10 : ℚ) ^ (scale - drop) = 10 ^ (scale - drop - 1) * 10 := by
    rw [← pow_succ]
    congr 1
    omega
  have hnext : nearestEven ((mantissa : ℚ) / 10 ^ scale * 10 ^ (scale - drop - 1))
      = 7922816251426433759354395034 := by
    apply nearestEven_of_carry
    · rw [mul_assoc, ← hplaces, nearestEven_scaled hdrop.le]
      exact_mod_cast hover
    · rw [mul_assoc, ← hplaces, scaled_eq hdrop.le, div_lt_iff₀ (by exact_mod_cast tenPower_pos drop)]
      exact_mod_cast (Nat.div_lt_iff_lt_mul (tenPower_pos drop)).1 hbelow
  have hfits : FitsAt ((mantissa : ℚ) / 10 ^ scale) (scale - drop - 1) := by
    rw [FitsAt, hnext, mantissaBound_eq]
    norm_num
  rw [hcarried, quotient_mantissaBound, rounded?_eq_some (by omega) hfits (Or.inr ?_), roundedAt, hnext]
  · push_cast
    rfl
  · rw [show scale - drop - 1 + 1 = scale - drop by omega, fitsAt_scaled hdrop.le]
    omega

private theorem toRat_fit? (negative : Bool) (mantissa scale : ℕ) :
    (fit? negative mantissa scale).map toRat
      = rounded? (signFactor negative * ((mantissa : ℚ) / 10 ^ scale)) := by
  rw [rounded?_signFactor_mul]
  unfold fit?
  have hspan : scale - maxScale + min scale maxScale = scale := by omega
  cases hdigits : digitsOver mantissa (scale - maxScale) (min scale maxScale) with
  | none =>
    have hlarge := digitsOver_eq_none hdigits
    rw [hspan] at hlarge
    have hover : ¬FitsAt ((mantissa : ℚ) / 10 ^ scale) 0 := by
      rw [show (0 : ℕ) = scale - scale by omega, fitsAt_scaled le_rfl, not_lt]
      exact hlarge.trans (Rounding.halfEven.le_quotient _ _)
    rw [rounded?_eq_none hover]
    rfl
  | some drop =>
    obtain ⟨hleast, hdrop, hbelow, hmost⟩ := digitsOver_eq_some hdigits
    rw [hspan] at hdrop
    simp only [Option.bind_eq_bind, Option.bind_some]
    split
    · rename_i hfits
      rw [rounded?_scaled hdrop hleast hfits hmost, toRat_ofParts? negative hfits (by omega)]
      rfl
    · rename_i hover
      rw [not_lt] at hover
      split
      · rename_i hplaces
        have hnone : ¬FitsAt ((mantissa : ℚ) / 10 ^ scale) 0 := by
          rw [← hplaces, fitsAt_scaled hdrop]
          exact not_lt.2 hover
        rw [rounded?_eq_none hnone]
        rfl
      · rename_i hplaces
        rw [rounded?_scaled_carry (by omega) hleast hbelow hover, toRat_ofParts? negative _ (by omega)]
        · rfl
        · have hle := Rounding.halfEven.quotient_le_succ mantissa (tenPower drop)
          rw [show Rounding.halfEven.quotient mantissa (tenPower drop) = mantissaBound by omega,
            quotient_mantissaBound, mantissaBound_eq]
          norm_num

/-! ## The operations -/

private theorem signFactor_mul_natAbs (n : ℤ) : signFactor (decide (n < 0)) * (n.natAbs : ℚ) = n := by
  rw [Nat.cast_natAbs, Int.cast_abs, signFactor]
  by_cases h : n < 0
  · rw [if_pos (by simpa using h), abs_of_neg (by exact_mod_cast h)]
    ring
  · rw [if_neg (by simpa using h), abs_of_nonneg (by exact_mod_cast not_lt.1 h), one_mul]

theorem signFactor_bne (left right : Bool) :
    signFactor (left != right) = signFactor left * signFactor right := by
  cases left <;> cases right <;> simp [signFactor]

theorem signFactor_and_bne_zero (negative : Bool) (mantissa : ℕ) (power : ℚ) :
    signFactor (negative && mantissa != 0) * (mantissa / power) = signFactor negative * (mantissa / power) := by
  rcases eq_or_ne mantissa 0 with rfl | h
  · simp
  · rw [bne_iff_ne.2 h, Bool.and_true]

/-- A sum is rounded once. -/
theorem toRat_add? (a b : Decimal) : (add? a b).map toRat = rounded? (a.toRat + b.toRat) := by
  unfold add?
  by_cases ha : a.isZero
  · rw [if_pos ha, (isZero_iff a).1 ha, zero_add, rounded?_toRat]
    rfl
  · rw [if_neg ha]
    by_cases hb : b.isZero
    · rw [if_pos hb, (isZero_iff b).1 hb, add_zero, rounded?_toRat]
      rfl
    · rw [if_neg hb, toRat_fit?, ← mul_div_assoc, signFactor_mul_natAbs]
      push_cast
      rw [aligned_fst, aligned_snd, ← add_mul, mul_div_cancel_right₀ _ (by positivity)]

theorem toRat_sub? (a b : Decimal) : (sub? a b).map toRat = rounded? (a.toRat - b.toRat) := by
  unfold sub?
  by_cases ha : a.isZero
  · rw [if_pos ha, (isZero_iff a).1 ha, zero_sub, ← toRat_neg, rounded?_toRat]
    rfl
  · rw [if_neg ha, toRat_add?, toRat_neg, sub_eq_add_neg]

/-- Short mantissas leave so few digits behind 28 places that dropping them all at once is the rounding. -/
theorem toRat_shortProduct? (negative : Bool) {mantissa : ℕ} (scale : ℕ)
    (hmantissa : mantissa < shortBound * shortBound) :
    (shortProduct? negative mantissa scale).map toRat
      = rounded? (signFactor negative * ((mantissa : ℚ) / 10 ^ scale)) := by
  have hshort : mantissa < 18446744073709551616 := hmantissa
  have hbound : mantissa < mantissaBound := by
    rw [mantissaBound_eq]
    omega
  have hmax : maxScale = 28 := rfl
  rw [rounded?_signFactor_mul]
  unfold shortProduct?
  by_cases hscale : maxScale < scale
  · have hfits : Rounding.halfEven.quotient mantissa (tenPower (scale - maxScale)) < mantissaBound := by
      have hle := Rounding.halfEven.quotient_le_succ mantissa (tenPower (scale - maxScale))
      have hdiv := Nat.div_le_self mantissa (tenPower (scale - maxScale))
      rw [mantissaBound_eq]
      omega
    rw [rounded?_scaled (Nat.sub_le scale maxScale) le_rfl hfits (fun h => absurd h (lt_irrefl _)),
      show scale - (scale - maxScale) = maxScale by omega]
    split
    · rename_i hnothing
      have hpower : tenPower 20 ≤ tenPower (scale - maxScale) := Nat.pow_le_pow_right (by decide) (by omega)
      have hlarge : 2 * mantissa < tenPower (scale - maxScale) := by
        refine lt_of_lt_of_le ?_ hpower
        rw [show tenPower 20 = 100000000000000000000 by decide]
        omega
      have hzero : Rounding.halfEven.quotient mantissa (tenPower (scale - maxScale)) = 0 := by
        simp only [Rounding.quotient, Nat.div_eq_of_lt (show mantissa < tenPower (scale - maxScale) by omega),
          Nat.mod_eq_of_lt (show mantissa < tenPower (scale - maxScale) by omega)]
        rw [if_neg (by omega)]
      rw [hzero]
      simp
    · simp only [toRat_ofParts? _ hfits le_rfl, Option.map_some]
      rw [signFactor_and_bne_zero]
  · rw [if_neg (by omega), if_neg hscale, toRat_ofParts? negative hbound (by omega),
      rounded?_of_representable ⟨mantissa, scale, by omega, ?_, by push_cast; rfl⟩]
    · rfl
    · rw [Nat.abs_cast]
      exact_mod_cast hbound

/-- A product is rounded once. -/
theorem toRat_mul? (a b : Decimal) : (mul? a b).map toRat = rounded? (a.toRat * b.toRat) := by
  have hvalue : a.toRat * b.toRat
      = signFactor (a.negative != b.negative)
          * (((a.mantissa * b.mantissa : ℕ) : ℚ) / 10 ^ (a.scale + b.scale)) := by
    rw [toRat_eq_sign_mul, toRat_eq_sign_mul, signFactor_bne, pow_add]
    push_cast
    ring
  unfold mul?
  by_cases hzero : a.isZero || b.isZero
  · have hproduct : a.toRat * b.toRat = 0 := by
      rw [mul_eq_zero, ← isZero_iff, ← isZero_iff]
      simpa using hzero
    rw [if_pos hzero, hproduct, ← toRat_zero, rounded?_toRat]
    rfl
  · rw [if_neg hzero, hvalue]
    dsimp only
    split
    · rename_i hshort
      exact toRat_shortProduct? _ _ (Nat.mul_lt_mul'' hshort.1 hshort.2)
    · exact toRat_fit? _ _ _

end Decimal

end TradeReport
