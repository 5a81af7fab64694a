import TradeReport.Proofs.Decimal.Operation
/-!
# Rounding keeps the order

A smaller fraction is never rounded to a larger decimal (`rounded?_mono`). To the same places this is so because the
nearest whole number is monotone. A larger fraction may have to do with fewer places, and then it has left the room of
the next place, which the smaller one has not. Since a decimal is rounded to itself, a quotient stays between the
decimals that it lies between, and it is in range when they are (`Decimal.exists_ratio_between`).
-/

namespace TradeReport

variable {x y a b : ℚ} {places fewer : ℕ}

theorem le_nearestEven_add_half (x : ℚ) : x ≤ nearestEven x + 1 / 2 := by
  have hhalf : ((nearestEven (-x) : ℤ) : ℚ) - 1 / 2 ≤ -x := sub_half_le_of_le_nearestEven le_rfl
  rw [nearestEven_neg] at hhalf
  push_cast at hhalf
  linarith

theorem nearestEven_mono (h : x ≤ y) : nearestEven x ≤ nearestEven y := by
  by_contra hlarger
  have hstep : nearestEven y + 1 ≤ nearestEven x := Int.add_one_le_iff.2 (not_le.1 hlarger)
  have hstepCast : (nearestEven y : ℚ) + 1 ≤ nearestEven x := by exact_mod_cast hstep
  have hlow : (nearestEven x : ℚ) - 1 / 2 ≤ x := sub_half_le_of_le_nearestEven le_rfl
  have hhigh := le_nearestEven_add_half y
  -- Each nearest number is at most a half away, so both fractions are the middle between the two.
  obtain rfl : x = y := by linarith
  exact hlarger le_rfl

theorem roundedAt_mono (h : x ≤ y) (places : ℕ) : roundedAt x places ≤ roundedAt y places := by
  have hscaled : x * 10 ^ places ≤ y * 10 ^ places := mul_le_mul_of_nonneg_right h (by positivity)
  exact div_le_div_of_nonneg_right (by exact_mod_cast nearestEven_mono hscaled) (by positivity)

/-! ## Between two numbers of places -/

theorem abs_roundedAt_lt (h : FitsAt x places) (hfewer : fewer ≤ places) :
    |roundedAt x places| < mantissaBound / 10 ^ fewer := by
  have hmantissa : |(nearestEven (x * 10 ^ places) : ℚ)| < mantissaBound := by
    rw [FitsAt, ← Int.cast_lt (R := ℚ), Int.cast_abs, Int.cast_natCast] at h
    exact h
  calc |roundedAt x places| = |(nearestEven (x * 10 ^ places) : ℚ)| / 10 ^ places := by
        rw [roundedAt, abs_div, abs_of_pos (show (0 : ℚ) < 10 ^ places by positivity)]
    _ < mantissaBound / 10 ^ places := div_lt_div_of_pos_right hmantissa (by positivity)
    _ ≤ mantissaBound / 10 ^ fewer :=
        div_le_div_of_nonneg_left (by positivity) (by positivity) (pow_le_pow_right₀ (by norm_num) hfewer)

/-- What does not fit at the next place has reached the bound that it sets, even rounded to one place less. -/
theorem bound_le_roundedAt (hx : 0 ≤ x) (h : ¬FitsAt x (places + 1)) :
    (mantissaBound : ℚ) / 10 ^ (places + 1) ≤ roundedAt x places := by
  have hbound : ((mantissaBound : ℕ) : ℚ) = 79228162514264337593543950336 := by exact_mod_cast mantissaBound_eq
  have hlarge : (mantissaBound : ℚ) - 1 / 2 ≤ x * 10 ^ places * 10 := by
    rw [FitsAt, not_lt, abs_of_nonneg (le_nearestEven (by push_cast; positivity))] at h
    have hhalf := sub_half_le_of_le_nearestEven h
    rwa [pow_succ, ← mul_assoc, Int.cast_natCast] at hhalf
  have hnearest : (7922816251426433759354395034 : ℤ) ≤ nearestEven (x * 10 ^ places) := by
    rw [le_nearestEven_iff_of_even (by decide)]
    push_cast
    linarith
  have hcast : (7922816251426433759354395034 : ℚ) ≤ nearestEven (x * 10 ^ places) := by exact_mod_cast hnearest
  rw [roundedAt, pow_succ, ← div_div, div_right_comm]
  refine div_le_div_of_nonneg_right ?_ (by positivity)
  linarith

theorem FitsAt.of_between (hx : 0 ≤ x) (h : x ≤ y) (hfits : FitsAt y places) : FitsAt x places := by
  have hscaled : x * 10 ^ places ≤ y * 10 ^ places := mul_le_mul_of_nonneg_right h (by positivity)
  have hnonneg : 0 ≤ nearestEven (x * 10 ^ places) := le_nearestEven (by push_cast; positivity)
  exact (abs_le_abs_of_nonneg hnonneg (nearestEven_mono hscaled)).trans_lt hfits

/-- A decimal that a fraction is rounded to has the most places at which the fraction fits. -/
theorem exists_places_of_roundedWithin {most : ℕ} (h : roundedWithin x most = some a) :
    ∃ places ≤ most, FitsAt x places ∧ a = roundedAt x places ∧ (places = most ∨ ¬FitsAt x (places + 1)) := by
  induction most with
  | zero =>
    rw [roundedWithin] at h
    split at h
    · rename_i hfits
      exact ⟨0, le_rfl, hfits, (Option.some.inj h).symm, .inl rfl⟩
    · cases h
  | succ most ih =>
    rw [roundedWithin] at h
    split at h
    · rename_i hfits
      exact ⟨most + 1, le_rfl, hfits, (Option.some.inj h).symm, .inl rfl⟩
    · rename_i hover
      obtain ⟨places, hplaces, hfits, hvalue, hmost⟩ := ih h
      refine ⟨places, hplaces.trans (Nat.le_succ most), hfits, hvalue, .inr ?_⟩
      rcases hmost with rfl | hmost
      · exact hover
      · exact hmost

private theorem rounded?_mono_of_nonneg (hx : 0 ≤ x) (h : x ≤ y) (ha : rounded? x = some a)
    (hb : rounded? y = some b) : a ≤ b := by
  obtain ⟨more, hmore, hfits, rfl, hmost⟩ := exists_places_of_roundedWithin ha
  obtain ⟨places, hplaces, hfits', rfl, hmost'⟩ := exists_places_of_roundedWithin hb
  rcases lt_trichotomy places more with hlt | rfl | hgt
  -- The larger fraction has fewer places: it has reached a bound that the smaller one stays below.
  · have hover : ¬FitsAt y (places + 1) := hmost'.resolve_left (by omega)
    exact (le_abs_self _).trans ((abs_roundedAt_lt hfits hlt).le.trans (bound_le_roundedAt (hx.trans h) hover))
  · exact roundedAt_mono h _
  -- It cannot have more, since the smaller one then had room for them too.
  · have hroom : FitsAt x (more + 1) := (hfits'.of_le hgt).of_between hx h
    exact absurd hroom (hmost.resolve_left (by omega))

theorem rounded?_zero : rounded? 0 = some 0 := by
  have hzero := rounded?_toRat .zero
  rwa [Decimal.toRat_zero] at hzero

/-- A smaller fraction is not rounded to a larger decimal. -/
theorem rounded?_mono (h : x ≤ y) (ha : rounded? x = some a) (hb : rounded? y = some b) : a ≤ b := by
  rcases le_total 0 x with hx | hx
  · exact rounded?_mono_of_nonneg hx h ha hb
  · have hneg : rounded? (-x) = some (-a) := by rw [rounded?_neg, ha, Option.map_some]
    rcases le_total 0 y with hy | hy
    · have ha' : 0 ≤ -a := rounded?_mono_of_nonneg le_rfl (neg_nonneg.2 hx) rounded?_zero hneg
      have hb' : 0 ≤ b := rounded?_mono_of_nonneg le_rfl hy rounded?_zero hb
      exact (neg_nonneg.1 ha').trans hb'
    · have hneg' : rounded? (-y) = some (-b) := by rw [rounded?_neg, hb, Option.map_some]
      exact neg_le_neg_iff.1 (rounded?_mono_of_nonneg (neg_nonneg.2 hy) (neg_le_neg h) hneg' hneg)

/-! ## Quotients between decimals -/

namespace Decimal

variable {least greatest numerator denominator : Decimal}

/-- What lies between two decimals is rounded to a decimal between them. -/
theorem exists_rounded?_between (hleast : least.toRat ≤ x) (hgreatest : x ≤ greatest.toRat) :
    ∃ a, rounded? x = some a ∧ least.toRat ≤ a ∧ a ≤ greatest.toRat := by
  cases ha : rounded? x with
  | none =>
    have hfar := rounded?_eq_none_iff.1 ha
    have hrange : ∀ bound : Decimal, |bound.toRat| < (mantissaBound : ℚ) - 1 / 2 := by
      intro bound
      rw [← not_le, ← rounded?_eq_none_iff, rounded?_toRat]
      simp
    have hinside := abs_lt.2 ⟨(abs_lt.1 (hrange least)).1.trans_le hleast,
      hgreatest.trans_lt (abs_lt.1 (hrange greatest)).2⟩
    exact absurd hfar (not_le.2 hinside)
  | some a =>
    exact ⟨a, rfl, rounded?_mono hleast (rounded?_toRat least) ha, rounded?_mono hgreatest ha (rounded?_toRat greatest)⟩

/-- A quotient is computed, and stays between the decimals that the exact one lies between. -/
theorem exists_ratio_between (hpos : 0 < denominator.toRat)
    (hleast : least.toRat * denominator.toRat ≤ numerator.toRat)
    (hgreatest : numerator.toRat ≤ greatest.toRat * denominator.toRat) :
    ∃ ratio, numerator.ratio? denominator = some ratio ∧ least ≤ ratio ∧ ratio ≤ greatest := by
  obtain ⟨a, ha, hlow, hhigh⟩ :=
    exists_rounded?_between ((le_div_iff₀ hpos).2 hleast) ((div_le_iff₀ hpos).2 hgreatest)
  have hratio := toRat_ratio? numerator denominator
  rw [if_neg hpos.ne', ha] at hratio
  obtain ⟨ratio, hsome, rfl⟩ := Option.map_eq_some_iff.1 hratio
  exact ⟨ratio, hsome, le_iff_toRat_le.2 hlow, le_iff_toRat_le.2 hhigh⟩

end Decimal

end TradeReport
