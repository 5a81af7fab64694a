import TradeReport.Proofs.Decimal.Shortened
import TradeReport.Proofs.Decimal.Text
/-!
# Percentages

A ratio is multiplied by a hundred and then rounded to two places. The product is exact wherever there is one: it has
two places less than the ratio, so no digit of a mantissa is lost (`exists_mul_hundred`). What is shown is therefore
rounded once (`percentText_roundedOnce`), and only a product that is too large for a decimal cannot be shown.
-/

namespace TradeReport

/-- A percentage as it is written: digits with a point before the last two, and a sign if it is negative. -/
def IsPercentage (value : ℚ) (text : String) : Prop :=
  ∃ whole places : List Char, IsNumeral whole ∧ places.length = 2 ∧ (∀ c ∈ places, c.isDigit = true) ∧
    |value| = (Nat.ofDigitChars 10 (whole ++ places) 0 : ℕ) / 100 ∧
    text.toList = (if value < 0 then ['-'] else []) ++ whole ++ '.' :: places ++ ['%']

namespace Decimal

variable {a product : Decimal}

/-! ## The written figure -/

private theorem exists_pointed (mantissa scale : ℕ) :
    ∃ whole places, IsNumeral whole ∧ places.length = scale ∧ (∀ c ∈ places, c.isDigit = true) ∧
      Nat.ofDigitChars 10 (whole ++ places) 0 = mantissa ∧
      pointed mantissa scale = if scale = 0 then whole else whole ++ '.' :: places := by
  have hlength := le_length_zeroPadded (scale + 1) mantissa
  have hdigits : ∀ c ∈ zeroPadded (scale + 1) mantissa, c.isDigit = true := fun c hc => isDigit_of_mem_zeroPadded hc
  refine ⟨_, _, ⟨?_, fun c hc => hdigits c (List.mem_of_mem_take hc), fun hzero => ?_⟩, ?_,
    fun c hc => hdigits c (List.mem_of_mem_drop hc), ?_, rfl⟩
  · rw [← List.length_pos_iff, List.length_take]
    omega
  · rw [List.head?_take, if_neg (by omega)] at hzero
    have hpadded := length_of_head?_zeroPadded (by omega : 0 < scale + 1) hzero
    rw [List.length_take]
    omega
  · rw [List.length_drop]
    omega
  · rw [List.take_append_drop, ofDigitChars_zeroPadded]

private theorem negative_iff_of_isPlain (h : a.IsPlain) : a.negative = true ↔ a.toRat < 0 := by
  have hpower : (0 : ℚ) < 10 ^ a.scale := by positivity
  rw [toRat_eq, div_lt_iff₀ hpower, zero_mul, Int.cast_lt_zero, signed]
  cases hzero : a.isZero with
  | true =>
    have hmantissa : a.mantissa = 0 := by simpa [isZero] using hzero
    simp [h hzero, hmantissa]
  | false =>
    have hmantissa : a.mantissa ≠ 0 := by simpa [isZero] using hzero
    cases a.negative with
    | true => simp [Nat.pos_of_ne_zero hmantissa]
    | false => simp

/-- Zeros are put where two places are not reached. -/
theorem withTwoPlaces_eq {whole places : List Char} (hscale : a.scale ≤ 2) (hlength : places.length = a.scale)
    (hwritten : pointed a.mantissa a.scale = if a.scale = 0 then whole else whole ++ '.' :: places) :
    a.withTwoPlaces = (if a.negative then ['-'] else [])
      ++ whole ++ '.' :: (places ++ List.replicate (2 - a.scale) '0') := by
  obtain ⟨negative, mantissa, scale, _, _⟩ := a
  dsimp only at hscale hlength hwritten
  simp only [withTwoPlaces, hwritten]
  match scale, hscale, hlength with
  | 0, _, hlength =>
    obtain rfl := List.eq_nil_of_length_eq_zero hlength
    cases negative <;> simp
  | 1, _, _ => cases negative <;> simp
  | 2, _, _ => cases negative <;> simp

theorem isPercentage_withTwoPlaces (hscale : a.scale ≤ 2) (hplain : a.IsPlain) :
    IsPercentage a.toRat (String.ofList (a.withTwoPlaces ++ ['%'])) := by
  obtain ⟨whole, places, hwhole, hlength, hdigits, hvalue, hwritten⟩ := exists_pointed a.mantissa a.scale
  refine ⟨whole, places ++ List.replicate (2 - a.scale) '0', hwhole, ?_, ?_, ?_, ?_⟩
  · rw [List.length_append, List.length_replicate]
    omega
  · rw [List.forall_mem_append]
    refine ⟨hdigits, fun c hc => ?_⟩
    rw [List.eq_of_mem_replicate hc]
    rfl
  · rw [← List.append_assoc, Nat.ofDigitChars_append, hvalue, Nat.ofDigitChars_replicate_zero, abs_toRat,
      div_eq_div_iff (by positivity) (by norm_num), show (100 : ℚ) = 10 ^ 2 by norm_num,
      ← pow_mul_pow_sub 10 hscale]
    push_cast
    ring
  · simp only [String.toList_ofList, withTwoPlaces_eq hscale hlength hwritten, negative_iff_of_isPlain hplain]

/-! ## The product -/

private theorem toRat_mul_hundred (a : Decimal) : a.toRat * hundred.toRat = 100 * a.toRat := by
  rw [mul_comm, show hundred.toRat = 100 by norm_num [toRat_eq, hundred, signed]]

theorem exists_mul_hundred (h : |100 * a.toRat| < mantissaBound) :
    ∃ product, a.mul hundred = .ok product ∧ product.toRat = 100 * a.toRat := by
  rw [← toRat_mul_hundred] at h ⊢
  -- Two places of the ratio are used up by the hundred, and the rest of its mantissa stays as it is.
  have hdigits : a.toRat * hundred.toRat * 10 ^ (a.scale - 2) = ((a.signed * 10 ^ (2 - a.scale) : ℤ) : ℚ) := by
    have hpower : (100 : ℚ) * 10 ^ (a.scale - 2) = 10 ^ (2 - a.scale) * 10 ^ a.scale := by
      rw [show (100 : ℚ) = 10 ^ 2 by norm_num, ← pow_add, ← pow_add]
      congr 1
      omega
    rw [toRat_mul_hundred, mul_right_comm, hpower, toRat_eq]
    push_cast
    field_simp
  have hsize : 10 ^ (a.scale - 2) * |a.toRat * hundred.toRat| < mantissaBound := by
    rcases Nat.lt_or_ge a.scale 2 with hfew | hmany
    · rwa [Nat.sub_eq_zero_of_le hfew.le, pow_zero, one_mul]
    · have hpower : (10 : ℚ) ^ (a.scale - 2) * 100 = 10 ^ a.scale := by
        rw [show (100 : ℚ) = 10 ^ 2 by norm_num, ← pow_add, Nat.sub_add_cancel hmany]
      rw [toRat_mul_hundred, abs_mul, abs_of_pos (by norm_num : (0 : ℚ) < 100), ← mul_assoc, hpower, abs_toRat,
        mul_div_cancel₀ _ (by positivity)]
      exact_mod_cast a.mantissa_lt
  exact exists_mul ⟨⟨_, hdigits⟩, le_rfl⟩ ((Nat.sub_le _ _).trans a.scale_le) hsize

private theorem isPlain_mul_hundred (h : a.mul hundred = .ok product) (hvalue : product.toRat = 100 * a.toRat) :
    product.IsPlain := by
  intro hzero
  rw [isZero_iff, hvalue, mul_eq_zero_iff_left (by norm_num), ← isZero_iff] at hzero
  rw [mul, mul?, hzero, Bool.true_or, if_pos rfl] at h
  obtain rfl := Except.ok.inj h
  rfl

private theorem scale_roundTo_le (rule : Rounding) (places : ℕ) (a : Decimal) :
    (a.roundTo rule places).scale ≤ places := by
  unfold roundTo
  split
  · assumption
  · exact le_rfl

theorem IsPlain.roundTo (h : a.IsPlain) (rule : Rounding) (places : ℕ) : (a.roundTo rule places).IsPlain := by
  unfold Decimal.roundTo
  split
  · exact h
  · intro hzero
    dsimp only
    have hnothing : rule.quotient a.mantissa (tenPower (a.scale - places)) = 0 := by simpa [isZero] using hzero
    cases hsign : a.isZero with
    | true => simp [h hsign]
    | false =>
      have hmantissa : a.mantissa ≠ 0 := by simpa [isZero] using hsign
      rw [hnothing, beq_eq_false_iff_ne.2 hmantissa, bne_self_eq_false, Bool.or_false, Bool.and_false]

/-- A percentage is the product with a hundred, exact as it is, rounded once to two places. It is missing exactly where
no decimal can hold the product. -/
theorem percentText_roundedOnce (ratio : Decimal) :
    ((∃ cause, percentText ratio = .error cause) ↔ (mantissaBound : ℚ) ≤ |100 * ratio.toRat|) ∧
      ∀ text, percentText ratio = .ok text →
        (∃ product, ratio.mul hundred = .ok product ∧ product.toRat = 100 * ratio.toRat) ∧
        ∃ shown, IsNearestEven (1 / 100) (100 * ratio.toRat) shown ∧ IsPercentage shown text := by
  rcases lt_or_ge |100 * ratio.toRat| mantissaBound with hroom | hlarge
  · obtain ⟨product, hproduct, hvalue⟩ := exists_mul_hundred hroom
    have htext : percentText ratio
        = .ok (String.ofList ((product.roundTo .halfEven 2).withTwoPlaces ++ ['%'])) := by
      rw [percentText, hproduct]
      rfl
    refine ⟨iff_of_false ?_ hroom.not_ge, fun text hshown => ⟨⟨product, hproduct, hvalue⟩, _, ?_,
      Except.ok.inj (htext.symm.trans hshown) ▸ isPercentage_withTwoPlaces (scale_roundTo_le .halfEven 2 product)
        ((isPlain_mul_hundred hproduct hvalue).roundTo .halfEven 2)⟩⟩
    · rintro ⟨cause, hcause⟩
      rw [htext] at hcause
      cases hcause
    · have hnearest := isNearestEven_roundTo product 2
      rwa [hvalue, show (10 : ℚ) ^ 2 = 100 by norm_num] at hnearest
  · obtain ⟨cause, hcause⟩ : ∃ cause, ratio.mul hundred = .error cause := by
      rw [mul_overflows_iff, toRat_mul_hundred]
      linarith
    have hmissing : percentText ratio = .error cause := by
      rw [percentText, hcause]
      rfl
    refine ⟨iff_of_true ⟨cause, hmissing⟩ hlarge, fun text hshown => ?_⟩
    rw [hmissing] at hshown
    cases hshown

end Decimal

end TradeReport
