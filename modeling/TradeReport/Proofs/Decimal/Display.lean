import TradeReport.Decimal.Display
import TradeReport.Proofs.Decimal.Shortened
/-!
# Figures for display

Without a precision a figure is cut off at the step of its band of magnitudes (`smartRound_within_step`). A band begins
at a multiple of its step, so what is cut off inside it stays above all that lies below, and a larger figure is not
displayed as a smaller one (`exists_start`). The bounds themselves are in no band and are shown as whole numbers. Two of
them are none, 0.01 and 0.0001, and come out as zero, below smaller figures: these are all the exceptions
(`smartRound_le_iff`).
-/

namespace TradeReport

/-- The step at which a figure of some magnitude is cut off. -/
def displayStep (magnitude : ℚ) : ℚ :=
  if 100 < magnitude ∧ magnitude < 10000 then 1 / 10
  else if 1 < magnitude ∧ magnitude < 100 then 1 / 100
  else if 1 / 100 < magnitude ∧ magnitude < 1 then 1 / 10000
  else if 1 / 10000 < magnitude ∧ magnitude < 1 / 100 then 1 / 100000
  else if 0 < magnitude ∧ magnitude < 1 / 10000 then 1 / 100000000
  else 1

/-- A bound between two bands that is no whole number. -/
def IsFractionalBound (x : ℚ) : Prop :=
  x = 1 / 100 ∨ x = 1 / 10000

theorem displayStep_pos (x : ℚ) : 0 < displayStep x := by
  unfold displayStep
  split_ifs <;> norm_num

/-- What is displayed of a fraction when no precision is given. -/
def displayed (x : ℚ) : ℚ :=
  cutTo (displayStep |x|) x

variable {x y : ℚ}

private theorem displayed_neg (x : ℚ) : displayed (-x) = -displayed x := by
  rw [displayed, abs_neg, cutTo_neg, displayed]

private theorem displayed_of_nonneg (hx : 0 ≤ x) : displayed x = cutTo (displayStep x) x := by
  rw [displayed, abs_of_nonneg hx]

private theorem displayed_nonneg (hx : 0 ≤ x) : 0 ≤ displayed x :=
  cutTo_nonneg (displayStep_pos _) hx

private theorem displayed_le (hx : 0 ≤ x) : displayed x ≤ x :=
  cutTo_le (displayStep_pos _) hx

private theorem displayed_of_isFractionalBound (h : IsFractionalBound x) : displayed x = 0 := by
  rcases h with rfl | rfl
  · rw [displayed_of_nonneg (by norm_num), show displayStep (1 / 100) = 1 by norm_num [displayStep],
      cutTo_of_nonneg one_pos (by norm_num)]
    norm_num
  · rw [displayed_of_nonneg (by norm_num), show displayStep (1 / 10000) = 1 by norm_num [displayStep],
      cutTo_of_nonneg one_pos (by norm_num)]
    norm_num

/-! ## Order -/

private theorem exists_start_of_band {start step : ℚ} (hmultiple : ∃ n : ℤ, 0 ≤ n ∧ start = n * step) (hpos : 0 < step)
    (habove : start < y) (hband : ∀ x, start < x → x ≤ y → displayStep x = step) :
    ∃ start, start ≤ displayed y ∧ ∀ x, start < x → x ≤ y → displayStep x = displayStep y := by
  obtain ⟨n, hn, rfl⟩ := hmultiple
  have hown : displayStep y = step := hband y habove le_rfl
  have hy : 0 ≤ y := (mul_nonneg (by exact_mod_cast hn) hpos.le).trans habove.le
  refine ⟨n * step, ?_, fun x hx hle => (hband x hx hle).trans hown.symm⟩
  rw [displayed_of_nonneg hy, hown]
  exact intCast_mul_le_cutTo hpos hn habove.le

private theorem exists_start_of_whole (hwhole : ∃ n : ℤ, 0 ≤ n ∧ y = n) (hstep : displayStep y = 1) :
    ∃ start, start ≤ displayed y ∧ ∀ x, start < x → x ≤ y → displayStep x = displayStep y := by
  obtain ⟨n, hn, rfl⟩ := hwhole
  have hkept := cutTo_intCast_mul one_pos n
  rw [mul_one] at hkept
  refine ⟨n, ?_, fun x hx hle => absurd hle (not_le.2 hx)⟩
  rw [displayed_of_nonneg (by exact_mod_cast hn), hstep]
  exact hkept.ge

/-- From somewhere below what is displayed of a fraction, all steps up to the fraction are the same. -/
theorem exists_start (hy : 0 ≤ y) (hbound : ¬IsFractionalBound y) :
    ∃ start, start ≤ displayed y ∧ ∀ x, start < x → x ≤ y → displayStep x = displayStep y := by
  rcases lt_trichotomy 10000 y with h | rfl | htenThousand
  · refine exists_start_of_band ⟨10000, by norm_num, by norm_num⟩ one_pos h fun x hx _ => ?_
    rw [displayStep, if_neg, if_neg, if_neg, if_neg, if_neg]
    all_goals intro h; linarith
  · exact exists_start_of_whole ⟨10000, by norm_num, by norm_num⟩ (by norm_num [displayStep])
  rcases lt_trichotomy 100 y with h | rfl | hhundred
  · refine exists_start_of_band ⟨1000, by norm_num, by norm_num⟩ (show (0 : ℚ) < 1 / 10 by norm_num) h
      fun x hx hle => ?_
    rw [displayStep, if_pos ⟨hx, by linarith⟩]
  · exact exists_start_of_whole ⟨100, by norm_num, by norm_num⟩ (by norm_num [displayStep])
  rcases lt_trichotomy 1 y with h | rfl | hone
  · refine exists_start_of_band ⟨100, by norm_num, by norm_num⟩ (show (0 : ℚ) < 1 / 100 by norm_num) h
      fun x hx hle => ?_
    rw [displayStep, if_neg, if_pos ⟨hx, by linarith⟩]
    intro h; linarith
  · exact exists_start_of_whole ⟨1, by norm_num, by norm_num⟩ (by norm_num [displayStep])
  rcases lt_trichotomy (1 / 100) y with h | rfl | hhundredth
  · refine exists_start_of_band ⟨100, by norm_num, by norm_num⟩ (show (0 : ℚ) < 1 / 10000 by norm_num) h
      fun x hx hle => ?_
    rw [displayStep, if_neg, if_neg, if_pos ⟨hx, by linarith⟩]
    all_goals intro h; linarith
  · exact absurd (.inl rfl) hbound
  rcases lt_trichotomy (1 / 10000) y with h | rfl | htenThousandth
  · refine exists_start_of_band ⟨10, by norm_num, by norm_num⟩ (show (0 : ℚ) < 1 / 100000 by norm_num) h
      fun x hx hle => ?_
    rw [displayStep, if_neg, if_neg, if_neg, if_pos ⟨hx, by linarith⟩]
    all_goals intro h; linarith
  · exact absurd (.inr rfl) hbound
  rcases hy.eq_or_lt with rfl | hpos
  · exact exists_start_of_whole ⟨0, le_rfl, by norm_num⟩ (by norm_num [displayStep])
  · refine exists_start_of_band ⟨0, le_rfl, by norm_num⟩ (show (0 : ℚ) < 1 / 100000000 by norm_num) hpos
      fun x hx hle => ?_
    rw [displayStep, if_neg, if_neg, if_neg, if_neg, if_pos ⟨hx, by linarith⟩]
    all_goals intro h; linarith

private theorem displayed_mono_of_nonneg (hx : 0 ≤ x) (h : x ≤ y) (hbound : ¬IsFractionalBound y) :
    displayed x ≤ displayed y := by
  obtain ⟨start, hstart, hsame⟩ := exists_start (hx.trans h) hbound
  rcases le_or_gt x start with hbelow | habove
  · exact (displayed_le hx).trans (hbelow.trans hstart)
  · rw [displayed_of_nonneg hx, displayed_of_nonneg (hx.trans h), hsame x habove h]
    exact cutTo_mono (displayStep_pos y) hx h

private theorem displayed_le_iff_of_nonneg (hx : 0 ≤ x) (h : x ≤ y) :
    displayed x ≤ displayed y ↔ ¬(IsFractionalBound y ∧ 0 < displayed x) := by
  by_cases hbound : IsFractionalBound y
  · rw [displayed_of_isFractionalBound hbound, and_iff_right hbound, not_lt]
  · exact iff_of_true (displayed_mono_of_nonneg hx h hbound) fun hboth => hbound hboth.1

theorem not_isFractionalBound (hx : x ≤ 0) : ¬IsFractionalBound x := by
  rintro (rfl | rfl) <;> norm_num at hx

theorem displayed_le_iff (h : x ≤ y) : displayed x ≤ displayed y ↔
    ¬(IsFractionalBound y ∧ 0 < displayed x) ∧ ¬(IsFractionalBound (-x) ∧ displayed y < 0) := by
  rcases le_total 0 x with hx | hx
  · have hbelow : ¬(IsFractionalBound (-x) ∧ displayed y < 0) :=
      fun hboth => not_isFractionalBound (neg_nonpos.2 hx) hboth.1
    rw [displayed_le_iff_of_nonneg hx h, and_iff_left hbelow]
  · have hdisplayed : displayed x ≤ 0 := by
      have hneg := displayed_nonneg (neg_nonneg.2 hx)
      rw [displayed_neg] at hneg
      exact neg_nonneg.1 hneg
    rcases le_total 0 y with hy | hy
    · have hnonneg := displayed_nonneg hy
      exact iff_of_true (hdisplayed.trans hnonneg)
        ⟨fun hboth => absurd hboth.2 (not_lt.2 hdisplayed), fun hboth => absurd hboth.2 (not_lt.2 hnonneg)⟩
    -- Below zero all is as above it, the other way round.
    · have habove : ¬(IsFractionalBound y ∧ 0 < displayed x) := fun hboth => not_isFractionalBound hy hboth.1
      have hmirrored := displayed_le_iff_of_nonneg (neg_nonneg.2 hy) (neg_le_neg h)
      rw [displayed_neg, displayed_neg, neg_le_neg_iff, neg_pos] at hmirrored
      rw [hmirrored, and_iff_right habove]

namespace Decimal

theorem toRat_abs (a : Decimal) : a.abs.toRat = |a.toRat| := by
  rw [abs_toRat, toRat_eq]
  rfl

private theorem one_div_bandPlaces (a : Decimal) : 1 / 10 ^ bandPlaces a = displayStep a.toRat := by
  have hhundred : hundred.toRat = 100 := by norm_num [toRat_eq, hundred, signed]
  have htenThousand : tenThousand.toRat = 10000 := by norm_num [toRat_eq, tenThousand, signed]
  have hhundredth : hundredth.toRat = 1 / 100 := by norm_num [toRat_eq, hundredth, signed]
  have htenThousandth : tenThousandth.toRat = 1 / 10000 := by norm_num [toRat_eq, tenThousandth, signed]
  unfold bandPlaces displayStep
  simp only [bands, List.find?_cons, List.find?_nil, lt_iff_toRat_lt, hhundred, htenThousand, hhundredth,
    htenThousandth, toRat_zero, toRat_one]
  split_ifs <;> simp only [*, and_self, decide_true, decide_false] <;> norm_num

theorem toRat_smartRound_none (a : Decimal) : (smartRound none a).toRat = displayed a.toRat := by
  rw [smartRound, toRat_roundTo_truncate, one_div_bandPlaces, toRat_abs, displayed]

/-- With a precision, figures are displayed in their order. Without one, only a figure on a fractional bound is out of
order: nothing is left of it, while something may be left of figures nearer to zero. -/
theorem smartRound_le_iff (precision : Option ℕ) {a b : Decimal} (h : a ≤ b) :
    smartRound precision a ≤ smartRound precision b ↔
      (precision = none →
        ¬(IsFractionalBound b.toRat ∧ zero < smartRound none a) ∧
          ¬(IsFractionalBound (-a.toRat) ∧ smartRound none b < zero)) := by
  rw [le_iff_toRat_le] at h
  cases precision with
  | none =>
    simp only [le_iff_toRat_le, lt_iff_toRat_lt, toRat_smartRound_none, toRat_zero, forall_const]
    exact displayed_le_iff h
  | some places =>
    refine iff_of_true ?_ nofun
    rw [le_iff_toRat_le, smartRound, smartRound, toRat_roundTo_halfEven, toRat_roundTo_halfEven]
    exact roundedAt_mono h places

def fiveThousandths : Decimal := ⟨false, 5, 3, by decide, by decide⟩

theorem smartRound_le_iff_fiveThousandths :
    (fiveThousandths ≤ hundredth ∧ ¬smartRound none fiveThousandths ≤ smartRound none hundredth) ∧
      fiveThousandths ≤ two ∧ smartRound none fiveThousandths ≤ smartRound none two := by
  have hhundredth : fiveThousandths ≤ hundredth := by decide
  have htwo : fiveThousandths ≤ two := by decide
  refine ⟨⟨hhundredth, fun hkept => ?_⟩, htwo, (smartRound_le_iff none htwo).2 fun _ => ⟨?_, ?_⟩⟩
  · have hbound : IsFractionalBound hundredth.toRat := .inl (by norm_num [toRat_eq, hundredth, signed])
    exact ((smartRound_le_iff none hhundredth).1 hkept rfl).1 ⟨hbound, by decide +kernel⟩
  · norm_num [IsFractionalBound, toRat_eq, two, signed]
  · norm_num [IsFractionalBound, toRat_eq, fiveThousandths, signed]

theorem not_smartRound_monotone :
    ¬∀ (precision : Option ℕ) (a b : Decimal), a ≤ b → smartRound precision a ≤ smartRound precision b := by
  intro h
  exact absurd (h none fiveThousandths hundredth (by decide)) (by decide +kernel)

/-! ## Distance -/

/-- What is displayed of a figure that is cut off at a step. -/
structure IsCutOff (step : ℚ) (a shown : Decimal) : Prop where
  abs_le : |shown.toRat| ≤ |a.toRat|
  sign : shown.toRat = 0 ∨ shown.negative = a.negative
  multiple : ∃ n : ℤ, shown.toRat = n * step
  near : |a.toRat - shown.toRat| < step

theorem negative_roundTo (rule : Rounding) (places : ℕ) (a : Decimal) :
    (a.roundTo rule places).toRat = 0 ∨ (a.roundTo rule places).negative = a.negative := by
  rcases le_or_gt a.scale places with h | h
  · rw [roundTo_of_scale_le rule h]
    exact .inr rfl
  · rw [toRat_eq_zero_iff, roundTo, dif_neg (not_le.2 h)]
    dsimp only
    by_cases hnothing : rule.quotient a.mantissa (tenPower (a.scale - places)) = 0
    · exact .inl hnothing
    · rw [bne_iff_ne.2 hnothing, Bool.true_or, Bool.and_true]
      exact .inr rfl

/-- Without a precision a figure is cut off at the step of its magnitude. With one it is left as it is when it has no
more places, and otherwise rounded to the nearest multiple of the last one. -/
theorem smartRound_within_step (a : Decimal) :
    IsCutOff (displayStep |a.toRat|) a (smartRound none a) ∧
      ∀ places, (a.scale ≤ places → smartRound (some places) a = a) ∧
        (places < a.scale → IsNearestEven (1 / 10 ^ places) a.toRat (smartRound (some places) a).toRat) := by
  have hstep := displayStep_pos |a.toRat|
  refine ⟨⟨?_, negative_roundTo .truncate _ a, ?_, ?_⟩, fun places => ⟨roundTo_of_scale_le .halfEven, fun _ => ?_⟩⟩
  · rw [toRat_smartRound_none]
    exact abs_cutTo_le hstep _
  · rw [toRat_smartRound_none]
    exact ⟨_, rfl⟩
  · rw [toRat_smartRound_none]
    exact abs_sub_cutTo_lt hstep _
  · exact isNearestEven_roundTo a places

end Decimal

end TradeReport
