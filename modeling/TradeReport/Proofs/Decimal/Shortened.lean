import TradeReport.Proofs.Decimal.Monotone
/-!
# Fewer places

A decimal with fewer places is a multiple of its last place: the one nearest to what it was
(`isNearestEven_roundTo`), or the last one on the way there from zero (`toRat_roundTo_truncate`). Cutting off is the
same on both sides of zero, so what is said of it is said above zero and carried over by `cutTo_neg`.
-/

namespace TradeReport

variable {step x y : ℚ}

/-! ## Cut off towards zero -/

def towardsZero (x : ℚ) : ℤ :=
  if 0 ≤ x then ⌊x⌋ else ⌈x⌉

private theorem towardsZero_of_nonneg (h : 0 ≤ x) : towardsZero x = ⌊x⌋ :=
  if_pos h

@[simp] theorem towardsZero_intCast (n : ℤ) : towardsZero n = n := by
  unfold towardsZero
  split <;> simp

private theorem towardsZero_neg (x : ℚ) : towardsZero (-x) = -towardsZero x := by
  unfold towardsZero
  rcases lt_trichotomy x 0 with h | rfl | h
  · rw [if_pos (neg_nonneg.2 h.le), if_neg (not_le.2 h), Int.floor_neg]
  · simp
  · rw [if_neg (not_le.2 (neg_neg_of_pos h)), if_pos h.le, Int.ceil_neg]

/-- The last multiple of a step on the way from zero to a fraction. -/
def cutTo (step x : ℚ) : ℚ :=
  towardsZero (x / step) * step

theorem cutTo_neg (step x : ℚ) : cutTo step (-x) = -cutTo step x := by
  rw [cutTo, neg_div, towardsZero_neg, Int.cast_neg, neg_mul, cutTo]

private theorem cutTo_signFactor_mul (negative : Bool) (step x : ℚ) :
    cutTo step (Decimal.signFactor negative * x) = Decimal.signFactor negative * cutTo step x := by
  cases negative with
  | false => simp [Decimal.signFactor]
  | true => simp [Decimal.signFactor, cutTo_neg]

section Step

variable (hstep : 0 < step)
include hstep

theorem cutTo_intCast_mul (n : ℤ) : cutTo step (n * step) = n * step := by
  rw [cutTo, mul_div_cancel_right₀ _ hstep.ne', towardsZero_intCast]

theorem cutTo_of_nonneg (hx : 0 ≤ x) : cutTo step x = ⌊x / step⌋ * step := by
  rw [cutTo, towardsZero_of_nonneg (div_nonneg hx hstep.le)]

theorem cutTo_le (hx : 0 ≤ x) : cutTo step x ≤ x := by
  rw [cutTo_of_nonneg hstep hx, ← le_div_iff₀ hstep]
  exact Int.floor_le _

private theorem lt_cutTo_add (hx : 0 ≤ x) : x < cutTo step x + step := by
  rw [cutTo_of_nonneg hstep hx, ← add_one_mul, ← div_lt_iff₀ hstep]
  exact Int.lt_floor_add_one _

theorem cutTo_mono (hx : 0 ≤ x) (h : x ≤ y) : cutTo step x ≤ cutTo step y := by
  rw [cutTo_of_nonneg hstep hx, cutTo_of_nonneg hstep (hx.trans h)]
  have hfloor : ⌊x / step⌋ ≤ ⌊y / step⌋ := Int.floor_mono (div_le_div_of_nonneg_right h hstep.le)
  exact mul_le_mul_of_nonneg_right (by exact_mod_cast hfloor) hstep.le

/-- A multiple on the way is not passed back over. -/
theorem intCast_mul_le_cutTo {n : ℤ} (hn : 0 ≤ n) (h : n * step ≤ x) : n * step ≤ cutTo step x := by
  have hnonneg : 0 ≤ (n : ℚ) * step := mul_nonneg (by exact_mod_cast hn) hstep.le
  have hmono := cutTo_mono hstep hnonneg h
  rwa [cutTo_intCast_mul hstep] at hmono

theorem cutTo_nonneg (hx : 0 ≤ x) : 0 ≤ cutTo step x := by
  have hzero := intCast_mul_le_cutTo hstep (n := 0) le_rfl (by simpa using hx)
  simpa using hzero

theorem abs_cutTo_le (x : ℚ) : |cutTo step x| ≤ |x| := by
  rcases le_total 0 x with hx | hx
  · rw [abs_of_nonneg (cutTo_nonneg hstep hx), abs_of_nonneg hx]
    exact cutTo_le hstep hx
  · have hneg := neg_nonneg.2 hx
    rw [← abs_neg, ← cutTo_neg, ← abs_neg x, abs_of_nonneg (cutTo_nonneg hstep hneg), abs_of_nonneg hneg]
    exact cutTo_le hstep hneg

theorem abs_sub_cutTo_lt (x : ℚ) : |x - cutTo step x| < step := by
  rcases le_total 0 x with hx | hx
  · rw [abs_of_nonneg (sub_nonneg.2 (cutTo_le hstep hx))]
    linarith [lt_cutTo_add hstep hx]
  · have hneg := neg_nonneg.2 hx
    have hlt := lt_cutTo_add hstep hneg
    have hle := cutTo_le hstep hneg
    rw [cutTo_neg] at hlt hle
    rw [abs_of_nonpos (by linarith)]
    linarith

end Step

/-! ## The nearest multiple -/

/-- The multiple of a step nearest to a fraction, and the even one of two that are equally near. -/
def IsNearestEven (step x nearest : ℚ) : Prop :=
  ∃ n : ℤ, nearest = n * step ∧ ∀ m : ℤ, m ≠ n →
    |x - n * step| < |x - m * step| ∨ (|x - n * step| = |x - m * step| ∧ Even n)

private theorem abs_sub_nearestEven_le (x : ℚ) : |x - nearestEven x| ≤ 1 / 2 := by
  have hlow : (nearestEven x : ℚ) - 1 / 2 ≤ x := sub_half_le_of_le_nearestEven le_rfl
  have hhigh := le_nearestEven_add_half x
  rw [abs_le]
  constructor
  · linarith
  · linarith

private theorem even_nearestEven (h : |x - nearestEven x| = 1 / 2) : Even (nearestEven x) := by
  have hfloor : x - ⌊x⌋ = Int.fract x := rfl
  rw [Int.even_iff]
  unfold nearestEven at h ⊢
  split at h
  · rename_i hup
    rw [if_pos hup]
    have hhalf : Int.fract x = 1 / 2 := by
      rw [Int.cast_add, Int.cast_one, ← sub_sub, hfloor, abs_sub_comm,
        abs_of_pos (by linarith [Int.fract_lt_one x])] at h
      linarith
    rw [hhalf] at hup
    obtain ⟨-, hodd⟩ := hup.resolve_left (by norm_num)
    omega
  · rename_i hdown
    rw [if_neg hdown]
    rw [hfloor, abs_of_nonneg (Int.fract_nonneg x)] at h
    rw [h] at hdown
    have hodd : ¬⌊x⌋ % 2 = 1 := fun hodd => hdown (.inr ⟨by norm_num, hodd⟩)
    omega

theorem isNearestEven_roundedAt (x : ℚ) (places : ℕ) : IsNearestEven (1 / 10 ^ places) x (roundedAt x places) := by
  have hpower : (0 : ℚ) < 10 ^ places := by positivity
  refine ⟨nearestEven (x * 10 ^ places), by rw [roundedAt, mul_one_div], fun m hm => ?_⟩
  -- All distances are compared where the step is one.
  have hscaled : ∀ n : ℤ, |x - n * (1 / 10 ^ places)| = |x * 10 ^ places - n| / 10 ^ places := by
    intro n
    rw [← abs_of_pos hpower, ← abs_div, abs_of_pos hpower, sub_div, mul_div_cancel_right₀ _ hpower.ne', mul_one_div]
  rw [hscaled, hscaled, div_lt_div_iff_of_pos_right hpower, div_left_inj' hpower.ne']
  set nearest := nearestEven (x * 10 ^ places) with hnearest
  have hclose := abs_sub_nearestEven_le (x * 10 ^ places)
  rw [← hnearest] at hclose
  have hapart : (1 : ℚ) ≤ |(nearest : ℚ) - m| := by
    have hpos : 0 < |nearest - m| := abs_pos.2 (sub_ne_zero.2 hm.symm)
    exact_mod_cast Int.add_one_le_iff.2 hpos
  have htriangle : |(nearest : ℚ) - m| ≤ |x * 10 ^ places - nearest| + |x * 10 ^ places - m| := by
    rw [abs_sub_comm (x * 10 ^ places) nearest]
    exact abs_sub_le _ _ _
  rcases lt_or_ge |x * 10 ^ places - nearest| |x * 10 ^ places - m| with hlt | hge
  · exact .inl hlt
  · have hhalf : |x * 10 ^ places - nearest| = 1 / 2 := by linarith
    exact .inr ⟨by linarith, even_nearestEven hhalf⟩

/-! ## Rounded decimals -/

namespace Decimal

variable {a : Decimal} {places : ℕ}

theorem roundTo_of_scale_le (rule : Rounding) (h : a.scale ≤ places) : a.roundTo rule places = a :=
  dif_pos h

theorem toRat_roundTo (rule : Rounding) (h : places < a.scale) : (a.roundTo rule places).toRat
    = signFactor a.negative * (rule.quotient a.mantissa (tenPower (a.scale - places)) / 10 ^ places) := by
  rw [roundTo, dif_neg (not_le.2 h), toRat_eq_sign_mul]
  dsimp only
  -- A sign is taken off only where nothing is left for it to change.
  by_cases hnothing : rule.quotient a.mantissa (tenPower (a.scale - places)) = 0
  · rw [hnothing, Nat.cast_zero, zero_div, mul_zero, mul_zero]
  · rw [bne_iff_ne.2 hnothing, Bool.true_or, Bool.and_true]

theorem toRat_roundTo_truncate (a : Decimal) (places : ℕ) :
    (a.roundTo .truncate places).toRat = cutTo (1 / 10 ^ places) a.toRat := by
  have hstep : (0 : ℚ) < 1 / 10 ^ places := by positivity
  rcases le_or_gt a.scale places with h | h
  · obtain ⟨n, hn⟩ := (Within.of_scale h).whole
    have hmultiple : a.toRat = n * (1 / 10 ^ places) := by rw [← hn]; field_simp
    rw [roundTo_of_scale_le _ h, hmultiple, cutTo_intCast_mul hstep]
  · have hscaled : (a.mantissa : ℚ) / 10 ^ a.scale / (1 / 10 ^ places)
        = a.mantissa / tenPower (a.scale - places) := by
      rw [← scaled_eq (Nat.sub_le a.scale places), Nat.sub_sub_self h.le, div_div_eq_mul_div, div_one]
    rw [toRat_roundTo _ h, toRat_eq_sign_mul, cutTo_signFactor_mul, cutTo_of_nonneg hstep (by positivity), hscaled,
      mul_one_div, Rat.floor_natCast_div_natCast]
    rfl

theorem toRat_roundTo_halfEven (a : Decimal) (places : ℕ) :
    (a.roundTo .halfEven places).toRat = roundedAt a.toRat places := by
  rcases le_or_gt a.scale places with h | h
  · obtain ⟨n, hn⟩ := (Within.of_scale h).whole
    rw [roundTo_of_scale_le _ h, roundedAt_of_mul_eq hn]
  · have hscaled : roundedAt ((a.mantissa : ℚ) / 10 ^ a.scale) (a.scale - (a.scale - places)) = _ :=
      roundedAt_scaled (Nat.sub_le a.scale places)
    rw [Nat.sub_sub_self h.le] at hscaled
    rw [toRat_roundTo _ h, toRat_eq_sign_mul, ← hscaled]
    cases a.negative with
    | false => simp [signFactor]
    | true => simp [signFactor, roundedAt_neg]

theorem isNearestEven_roundTo (a : Decimal) (places : ℕ) :
    IsNearestEven (1 / 10 ^ places) a.toRat (a.roundTo .halfEven places).toRat :=
  toRat_roundTo_halfEven a places ▸ isNearestEven_roundedAt a.toRat places

end Decimal

end TradeReport
