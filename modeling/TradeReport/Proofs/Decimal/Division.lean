import TradeReport.Proofs.Decimal.Arithmetic
/-!
# Quotients are rounded once

Long division draws up to nine digits at a time and stops where the remainder vanishes, where 28 places are
drawn or where the mantissa is full. Its digits and the rest that is left always make up the exact quotient
(`PartialQuotient`), so wherever it stops the result is the decimal that the quotient is rounded to
(`toRat_div?`). How the digits were grouped, and so the places of the operands, leaves no trace in the value.
-/

namespace TradeReport

private theorem one_le_ten_zpow {exponent : ℤ} (h : 0 ≤ exponent) : (1 : ℚ) ≤ 10 ^ exponent :=
  one_le_zpow₀ (by norm_num) h

private theorem not_fitsAt_of_le {x : ℚ} {places : ℕ} (h : (mantissaBound : ℚ) ≤ x * 10 ^ places) :
    ¬FitsAt x places := by
  have hx : (mantissaBound : ℤ) ≤ nearestEven (x * 10 ^ places) := le_nearestEven (by exact_mod_cast h)
  rw [FitsAt, not_lt]
  exact hx.trans (le_abs_self _)

/-- A value that is out of range at no more than zero places fits nowhere. -/
theorem rounded?_eq_none_of_le {x : ℚ} {scale : ℤ} (hscale : scale ≤ 0)
    (h : (mantissaBound : ℚ) ≤ x * 10 ^ scale) : rounded? x = none := by
  apply rounded?_eq_none
  apply not_fitsAt_of_le
  rw [pow_zero, mul_one]
  have hbound : (0 : ℚ) ≤ mantissaBound := Nat.cast_nonneg _
  have hpower : x * 10 ^ scale * 10 ^ (-scale) = x := by
    rw [mul_assoc, ← zpow_add₀ (by norm_num), add_neg_cancel, zpow_zero, mul_one]
  calc (mantissaBound : ℚ) ≤ x * 10 ^ scale := h
    _ ≤ x * 10 ^ scale * 10 ^ (-scale) :=
        le_mul_of_one_le_right (hbound.trans h) (one_le_ten_zpow (by omega))
    _ = x := hpower

namespace Decimal

/-! ## Room for digits -/

private theorem digitRoom_spec (quotient digits : ℕ) :
    quotient * tenPower (digitRoom quotient digits) < mantissaBound ∨ digitRoom quotient digits = 0 := by
  induction digits with
  | zero => exact Or.inr rfl
  | succ digits ih =>
    unfold digitRoom
    split
    · exact Or.inl ‹_›
    · exact ih

/-- One digit more than there is room for is out of range. -/
theorem bound_le_of_digitRoom_lt {quotient digits : ℕ} (h : digitRoom quotient digits < digits) :
    mantissaBound ≤ quotient * tenPower (digitRoom quotient digits + 1) := by
  induction digits with
  | zero => omega
  | succ digits ih =>
    unfold digitRoom at h ⊢
    split
    · rename_i hroom
      rw [if_pos hroom] at h
      omega
    · rename_i hroom
      rcases (digitRoom_le quotient digits).eq_or_lt with heq | hlt
      · rw [heq]
        exact not_lt.1 hroom
      · exact ih hlt

/-- The quotient `x` in the middle of a division: digits drawn so far, the rest that is left over the divisor,
and the places of the digits. -/
structure PartialQuotient (x : ℚ) (divisor quotient rest : ℕ) (scale : ℤ) : Prop where
  rest_lt : rest < divisor
  scale_le : scale ≤ maxScale
  value : x * 10 ^ scale = quotient + rest / divisor

/-- What a division has to end with: the parts of the decimal that `x` is rounded to, or nothing when there is
none. -/
def Divided (x : ℚ) : Option (ℕ × ℤ × Bool) → Prop
  | none => rounded? x = none
  | some (mantissa, scale, _) =>
    ∃ places : ℕ, scale = places ∧ places ≤ maxScale ∧ mantissa < mantissaBound ∧
      rounded? x = some ((mantissa : ℚ) / 10 ^ places)

namespace PartialQuotient

variable {x : ℚ} {divisor quotient rest : ℕ} {scale : ℤ}

private theorem divisor_pos (h : PartialQuotient x divisor quotient rest scale) : 0 < divisor :=
  Nat.zero_lt_of_lt h.rest_lt

private theorem part_nonneg (_ : PartialQuotient x divisor quotient rest scale) : (0 : ℚ) ≤ rest / divisor := by
  positivity

private theorem part_lt_one (h : PartialQuotient x divisor quotient rest scale) : (rest : ℚ) / divisor < 1 := by
  rw [div_lt_one (by exact_mod_cast h.divisor_pos)]
  exact_mod_cast h.rest_lt

theorem quotient_le (h : PartialQuotient x divisor quotient rest scale) : (quotient : ℚ) ≤ x * 10 ^ scale := by
  rw [h.value]
  exact le_add_of_nonneg_right h.part_nonneg

/-- More digits: those the rest yields are put behind the ones already drawn. -/
theorem draw (h : PartialQuotient x divisor quotient rest scale) (digits : ℕ)
    (hdigits : scale + digits ≤ maxScale) :
    PartialQuotient x divisor (quotient * tenPower digits + rest * tenPower digits / divisor)
      (rest * tenPower digits % divisor) (scale + digits) := by
  have hpos := h.divisor_pos
  refine ⟨Nat.mod_lt _ hpos, hdigits, ?_⟩
  have hsplit : ((rest * tenPower digits : ℕ) : ℚ)
      = divisor * (rest * tenPower digits / divisor : ℕ) + (rest * tenPower digits % divisor : ℕ) := by
    exact_mod_cast (Nat.div_add_mod _ _).symm
  have hcast : (divisor : ℚ) ≠ 0 := by exact_mod_cast hpos.ne'
  rw [zpow_add₀ (by norm_num), zpow_natCast, ← mul_assoc, h.value, add_mul, div_mul_eq_mul_div]
  have hten : (rest : ℚ) * 10 ^ digits = ((rest * tenPower digits : ℕ) : ℚ) := by
    rw [Nat.cast_mul, cast_tenPower]
  rw [hten, hsplit, add_div, mul_div_cancel_left₀ _ hcast]
  push_cast
  rw [cast_tenPower]
  ring

theorem rounded?_eq_none (h : PartialQuotient x divisor quotient rest scale) {more : ℕ}
    (hover : mantissaBound ≤ quotient * tenPower more) (hmore : scale + more ≤ 0) : rounded? x = none := by
  apply rounded?_eq_none_of_le hmore
  have hcast : (mantissaBound : ℚ) ≤ quotient * 10 ^ more := by
    rw [← cast_tenPower]
    exact_mod_cast hover
  rw [zpow_add₀ (by norm_num), zpow_natCast, ← mul_assoc]
  exact hcast.trans (mul_le_mul_of_nonneg_right h.quotient_le (by positivity))

private theorem value_at {places : ℕ} (h : PartialQuotient x divisor quotient rest places) :
    x * 10 ^ places = quotient + rest / divisor := by
  rw [← zpow_natCast]
  exact h.value

theorem divided_of_rest_zero {places : ℕ} (h : PartialQuotient x divisor quotient 0 places)
    (hquotient : quotient < mantissaBound) (drawn : Bool) : Divided x (some (quotient, places, drawn)) := by
  have hplaces : places ≤ maxScale := by exact_mod_cast h.scale_le
  have hvalue : x = quotient / 10 ^ places := by
    rw [eq_div_iff (by positivity), h.value_at]
    simp
  refine ⟨places, rfl, hplaces, hquotient, ?_⟩
  rw [rounded?_of_representable ⟨quotient, places, hplaces, ?_, by rw [hvalue, Int.cast_natCast]⟩, ← hvalue]
  rw [Nat.abs_cast]
  exact_mod_cast hquotient

theorem value_div {places : ℕ} (h : PartialQuotient x divisor quotient rest places) :
    x * 10 ^ places = ((divisor * quotient + rest : ℕ) : ℚ) / divisor := by
  have hcast : (divisor : ℚ) ≠ 0 := by exact_mod_cast h.divisor_pos.ne'
  rw [h.value_at]
  push_cast
  field_simp

private theorem div_divisor (h : PartialQuotient x divisor quotient rest scale) :
    (divisor * quotient + rest) / divisor = quotient := by
  rw [Nat.mul_add_div h.divisor_pos, Nat.div_eq_of_lt h.rest_lt, Nat.add_zero]

private theorem mod_divisor (h : PartialQuotient x divisor quotient rest scale) :
    (divisor * quotient + rest) % divisor = rest := by
  rw [Nat.mul_add_mod, Nat.mod_eq_of_lt h.rest_lt]

/-- The rest decides how the digits drawn so far are rounded. -/
theorem nearestEven_eq {places : ℕ} (h : PartialQuotient x divisor quotient rest places) :
    nearestEven (x * 10 ^ places)
      = (if 2 * rest > divisor ∨ (2 * rest = divisor ∧ quotient % 2 = 1) then quotient + 1 else quotient : ℕ) := by
  rw [h.value_div, nearestEven_div _ h.divisor_pos, Rounding.quotient]
  simp only [h.div_divisor, h.mod_divisor]

end PartialQuotient

/-! ## Where a division stops -/

section Stops

variable {x : ℚ} {divisor quotient rest places : ℕ} {scale : ℤ}

theorem divided_of_fitsAt {mantissa : ℕ} (hplaces : places ≤ maxScale)
    (hnearest : nearestEven (x * 10 ^ places) = mantissa) (hmantissa : mantissa < mantissaBound)
    (hmost : places = maxScale ∨ ¬FitsAt x (places + 1)) (drawn : Bool) :
    Divided x (some (mantissa, places, drawn)) := by
  have hfits : FitsAt x places := by
    rw [FitsAt, hnearest, Nat.abs_cast]
    exact_mod_cast hmantissa
  refine ⟨places, rfl, hplaces, hmantissa, ?_⟩
  rw [rounded?_eq_some hplaces hfits hmost, roundedAt, hnearest, Int.cast_natCast]

/-- No further place fits: 28 are drawn, or the mantissa has no room for one more digit. -/
theorem full_of_no_room (h : PartialQuotient x divisor quotient rest places)
    (hroom : digitRoom quotient (min 9 ((maxScale : ℤ) - places).toNat) = 0) :
    places = maxScale ∨ ¬FitsAt x (places + 1) := by
  have hscale : places ≤ maxScale := by exact_mod_cast h.scale_le
  by_cases hmost : places = maxScale
  · exact Or.inl hmost
  · right
    have hten := bound_le_of_digitRoom_lt (show digitRoom quotient (min 9 ((maxScale : ℤ) - places).toNat)
      < min 9 ((maxScale : ℤ) - places).toNat by omega)
    rw [hroom] at hten
    apply not_fitsAt_of_le
    rw [pow_succ, ← mul_assoc]
    have hquotient := h.quotient_le
    rw [zpow_natCast] at hquotient
    calc (mantissaBound : ℚ) ≤ quotient * 10 := by exact_mod_cast hten
      _ ≤ x * 10 ^ places * 10 := by linarith

theorem divided_of_full (h : PartialQuotient x divisor quotient rest places)
    (hfull : places = maxScale ∨ ¬FitsAt x (places + 1)) {rounded : ℕ}
    (hrounded : rounded
      = if 2 * rest > divisor ∨ (2 * rest = divisor ∧ quotient % 2 = 1) then quotient + 1 else quotient)
    (hfits : rounded < mantissaBound) : Divided x (some (rounded, places, true)) := by
  have hnearest : nearestEven (x * 10 ^ places) = rounded := by rw [h.nearestEven_eq, hrounded]
  exact divided_of_fitsAt (by exact_mod_cast h.scale_le) hnearest hfits hfull true

/-- Rounded up to the bound, a full mantissa gives up one place. -/
theorem divided_of_carry (h : PartialQuotient x divisor quotient rest places) (hquotient : quotient < mantissaBound)
    {rounded : ℕ} (hrounded : rounded
      = if 2 * rest > divisor ∨ (2 * rest = divisor ∧ quotient % 2 = 1) then quotient + 1 else quotient)
    (hover : ¬rounded < mantissaBound) :
    Divided x ((shedDigit? rounded places false).map fun shed => (shed.1, shed.2, true)) := by
  have hplaces : places ≤ maxScale := by exact_mod_cast h.scale_le
  have hcarried : rounded = mantissaBound := by
    split at hrounded <;> omega
  have hnearest : nearestEven (x * 10 ^ places) = mantissaBound := by
    rw [h.nearestEven_eq, ← hrounded, hcarried]
  have hnot : ¬FitsAt x places := by
    rw [FitsAt, hnearest, Nat.abs_cast]
    exact lt_irrefl _
  unfold shedDigit?
  dsimp only
  split
  · have hzero : places = 0 := by omega
    subst hzero
    exact rounded?_eq_none hnot
  · obtain ⟨fewer, rfl⟩ : ∃ fewer, places = fewer + 1 := ⟨places - 1, by omega⟩
    have hhigh : x * 10 ^ fewer * 10 < mantissaBound := by
      have hpart := h.part_lt_one
      have hle : (quotient : ℚ) + 1 ≤ mantissaBound := by exact_mod_cast hquotient
      rw [mul_assoc, ← pow_succ, h.value_at]
      linarith
    rw [pow_succ, ← mul_assoc] at hnearest
    have hdigits : (if rounded % 10 > 5 ∨ rounded % 10 = 5 ∧ (false = true ∨ rounded / 10 % 2 = 1) then
        rounded / 10 + 1 else rounded / 10) = 7922816251426433759354395034 := by
      rw [hcarried, mantissaBound_eq]
      norm_num
    rw [hdigits, show ((fewer + 1 : ℕ) : ℤ) - 1 = fewer by omega]
    refine divided_of_fitsAt (by omega) (nearestEven_of_carry hnearest.ge hhigh) ?_ (Or.inr hnot) true
    rw [mantissaBound_eq]
    norm_num

/-- One digit less: the digit that goes and the rest behind it decide how what stays is rounded. -/
theorem nearestEven_of_succ (h : PartialQuotient x divisor quotient rest (places + 1 : ℕ)) :
    nearestEven (x * 10 ^ places)
      = (if quotient % 10 > 5 ∨ (quotient % 10 = 5 ∧ ((rest != 0) = true ∨ quotient / 10 % 2 = 1)) then
          quotient / 10 + 1 else quotient / 10 : ℕ) := by
  have hlt := h.rest_lt
  have hpos := h.divisor_pos
  have hvalue : x * 10 ^ places = ((divisor * quotient + rest : ℕ) : ℚ) / (divisor * 10 : ℕ) := by
    rw [Nat.cast_mul, ← div_div, ← h.value_div, pow_succ, ← mul_assoc]
    exact (mul_div_cancel_right₀ _ (by norm_num)).symm
  rw [hvalue, nearestEven_div _ (by omega), Rounding.quotient]
  rw [← Nat.div_div_eq_div_mul, h.div_divisor, Nat.mod_mul, h.div_divisor, h.mod_divisor]
  have hcondition : (2 * (rest + divisor * (quotient % 10)) > divisor * 10 ∨
        2 * (rest + divisor * (quotient % 10)) = divisor * 10 ∧ quotient / 10 % 2 = 1) ↔
      (quotient % 10 > 5 ∨ (quotient % 10 = 5 ∧ ((rest != 0) = true ∨ quotient / 10 % 2 = 1))) := by
    rw [bne_iff_ne]
    rcases Nat.lt_trichotomy (quotient % 10) 5 with hdigit | hdigit | hdigit
    · have hle : divisor * (quotient % 10) ≤ divisor * 4 := Nat.mul_le_mul_left _ (by omega)
      omega
    · rw [hdigit]
      omega
    · have hle : divisor * 6 ≤ divisor * (quotient % 10) := Nat.mul_le_mul_left _ hdigit
      omega
  simp only [hcondition]

/-- A mantissa out of range sheds a digit, if it has a place to give up. -/
theorem divided_of_shed (h : PartialQuotient x divisor quotient rest scale) (hover : mantissaBound ≤ quotient)
    (hshort : quotient / 10 + 1 < mantissaBound) :
    Divided x ((shedDigit? quotient scale (rest != 0)).map fun shed => (shed.1, shed.2, true)) := by
  have hcast : (mantissaBound : ℚ) ≤ quotient := by exact_mod_cast hover
  unfold shedDigit?
  dsimp only
  split
  · exact h.rounded?_eq_none (show mantissaBound ≤ quotient * tenPower 0 by simpa using hover) (by omega)
  · obtain ⟨fewer, rfl⟩ : ∃ fewer : ℕ, scale = (fewer + 1 : ℕ) := ⟨(scale - 1).toNat, by omega⟩
    have hplaces : fewer + 1 ≤ maxScale := by exact_mod_cast h.scale_le
    have hnot : ¬FitsAt x (fewer + 1) := by
      apply not_fitsAt_of_le
      have hquotient := h.quotient_le
      rw [zpow_natCast] at hquotient
      exact hcast.trans hquotient
    rw [Option.map_some, show ((fewer + 1 : ℕ) : ℤ) - 1 = fewer by omega]
    refine divided_of_fitsAt (by omega) (nearestEven_of_succ h) ?_ (Or.inr hnot) true
    split <;> omega

end Stops

/-! ## The quotient -/

/-- Wherever long division stops, it ends with what the quotient is rounded to. -/
theorem divided_longDivision {x : ℚ} {divisor quotient rest : ℕ} {scale : ℤ} (drawn : Bool)
    (h : PartialQuotient x divisor quotient rest scale) (hquotient : quotient < mantissaBound) :
    Divided x (longDivision divisor quotient rest scale drawn) := by
  have hmax : maxScale = 28 := rfl
  fun_induction longDivision divisor quotient rest scale drawn with
  | case1 quotient scale drawn hscale =>
    -- The rest is used up and the digits are at or behind the point.
    obtain ⟨places, rfl⟩ : ∃ places : ℕ, scale = places := ⟨scale.toNat, by omega⟩
    exact h.divided_of_rest_zero hquotient drawn
  | case2 quotient scale drawn hscale digits quotient' hfits ih =>
    refine ih ?_ hfits
    simpa [quotient', digits] using h.draw digits (by omega)
  | case3 quotient scale drawn hscale digits quotient' hover =>
    exact h.rounded?_eq_none (not_lt.1 hover) (by omega)
  | case4 quotient rest scale drawn hrest wanted digits hoverflow =>
    -- There is no room for the digits that would lead to the point.
    have hlarge : mantissaBound ≤ quotient * tenPower (digits + 1) := bound_le_of_digitRoom_lt (by omega)
    exact h.rounded?_eq_none hlarge (by omega)
  | case5 quotient rest scale drawn hrest wanted digits hroom hdigits up rounded hfits =>
    obtain ⟨places, rfl⟩ : ∃ places : ℕ, scale = places := ⟨scale.toNat, by omega⟩
    exact divided_of_full h (full_of_no_room h hdigits) rfl hfits
  | case6 quotient rest scale drawn hrest wanted digits hroom hdigits up rounded hover =>
    obtain ⟨places, rfl⟩ : ∃ places : ℕ, scale = places := ⟨scale.toNat, by omega⟩
    exact divided_of_carry h hquotient rfl hover
  | case7 quotient rest scale drawn hrest wanted digits hroom hdigits numerator quotient' rest' hfits ih =>
    have hle : digits ≤ wanted := digitRoom_le quotient wanted
    exact ih (h.draw digits (by omega)) hfits
  | case8 quotient rest scale drawn hrest wanted digits hroom hdigits numerator quotient' rest' hover =>
    have hle : digits ≤ wanted := digitRoom_le quotient wanted
    refine divided_of_shed (h.draw digits (by omega)) (not_lt.1 hover) ?_
    -- The new digits are fewer than ten, and the old ones had room for as many.
    have hold : quotient * tenPower digits < mantissaBound :=
      (digitRoom_spec quotient wanted).resolve_right hdigits
    have hnew : rest * tenPower digits / divisor < tenPower digits := by
      rw [Nat.div_lt_iff_lt_mul h.divisor_pos, Nat.mul_comm (tenPower digits)]
      exact Nat.mul_lt_mul_of_pos_right h.rest_lt (tenPower_pos digits)
    have hpower : tenPower digits ≤ tenPower 9 := Nat.pow_le_pow_right (by decide) (by omega)
    rw [show tenPower 9 = 1000000000 by decide] at hpower
    have hbound := mantissaBound_eq
    change (quotient * tenPower digits + rest * tenPower digits / divisor) / 10 + 1 < mantissaBound
    omega

/-- Parts of a decimal without some of the zeros at their end. -/
structure Trimmed (before after : ℕ × ℕ) : Prop where
  mantissa_le : after.1 ≤ before.1
  scale_le : after.2 ≤ before.2
  value : (after.1 : ℚ) / 10 ^ after.2 = before.1 / 10 ^ before.2

namespace Trimmed

theorem refl (parts : ℕ × ℕ) : Trimmed parts parts :=
  ⟨le_rfl, le_rfl, rfl⟩

theorem trans {a b c : ℕ × ℕ} (hab : Trimmed a b) (hbc : Trimmed b c) : Trimmed a c :=
  ⟨hbc.mantissa_le.trans hab.mantissa_le, hbc.scale_le.trans hab.scale_le, hbc.value.trans hab.value⟩

theorem of_dvd {mantissa scale digits : ℕ} (hzeros : mantissa % tenPower digits = 0) (hscale : digits ≤ scale) :
    Trimmed (mantissa, scale) (mantissa / tenPower digits, scale - digits) := by
  refine ⟨Nat.div_le_self _ _, Nat.sub_le _ _, ?_⟩
  obtain ⟨kept, rfl⟩ := Nat.dvd_of_mod_eq_zero hzeros
  rw [Nat.mul_div_cancel_left _ (tenPower_pos digits)]
  dsimp only
  rw [← pow_mul_pow_sub 10 hscale, Nat.cast_mul, cast_tenPower]
  field_simp

end Trimmed

private theorem trimmed_run (digits power : ℕ) (parts : ℕ × ℕ) :
    Trimmed parts (dropZeroRuns.run digits power parts) := by
  unfold dropZeroRuns.run
  split
  · rename_i hrun
    exact Trimmed.of_dvd hrun.2.2 hrun.2.1
  · exact Trimmed.refl parts

private theorem trimmed_eights (times mantissa scale : ℕ) :
    Trimmed (mantissa, scale) (dropZeroRuns.eights times mantissa scale) := by
  induction times generalizing mantissa scale with
  | zero => exact Trimmed.refl _
  | succ times ih =>
    unfold dropZeroRuns.eights
    split
    · rename_i hrun
      have height : Trimmed (mantissa, scale) (mantissa / 100000000, scale - 8) :=
        Trimmed.of_dvd hrun.2.2 hrun.2.1
      exact height.trans (ih _ _)
    · exact Trimmed.refl _

private theorem trimmed_dropZeroRuns (mantissa scale : ℕ) : Trimmed (mantissa, scale) (dropZeroRuns mantissa scale) :=
  (((trimmed_eights 3 mantissa scale).trans (trimmed_run 4 16 _)).trans (trimmed_run 2 4 _)).trans
    (trimmed_run 1 2 _)

theorem partialQuotient_start (a : Decimal) {b : Decimal} (hb : b.toRat ≠ 0) :
    PartialQuotient (|a.toRat| / |b.toRat|) b.mantissa (a.mantissa / b.mantissa) (a.mantissa % b.mantissa)
      ((a.scale : ℤ) - b.scale) := by
  have hpos : 0 < b.mantissa := Nat.pos_of_ne_zero (mt (toRat_eq_zero_iff b).2 hb)
  have hcast : (b.mantissa : ℚ) ≠ 0 := by exact_mod_cast hpos.ne'
  have hscale := a.scale_le
  refine ⟨Nat.mod_lt _ hpos, by omega, ?_⟩
  have hsplit : (a.mantissa : ℚ)
      = b.mantissa * (a.mantissa / b.mantissa : ℕ) + (a.mantissa % b.mantissa : ℕ) := by
    exact_mod_cast (Nat.div_add_mod _ _).symm
  rw [abs_toRat, abs_toRat, zpow_sub₀ (by norm_num), zpow_natCast, zpow_natCast]
  have hquotient : (a.mantissa : ℚ) / 10 ^ a.scale / (b.mantissa / 10 ^ b.scale) * (10 ^ a.scale / 10 ^ b.scale)
      = a.mantissa / b.mantissa := by
    field_simp
  rw [hquotient, div_eq_iff hcast, add_mul, div_mul_cancel₀ _ hcast]
  linarith

private theorem signFactor_mul_abs (a : Decimal) : signFactor a.negative * |a.toRat| = a.toRat := by
  rw [abs_toRat, ← toRat_eq_sign_mul]

private theorem signFactor_div_abs (a b : Decimal) :
    signFactor (a.negative != b.negative) * (|a.toRat| / |b.toRat|) = a.toRat / b.toRat := by
  have hinv : (signFactor b.negative)⁻¹ = signFactor b.negative := by
    cases b.negative <;> norm_num [signFactor]
  calc signFactor (a.negative != b.negative) * (|a.toRat| / |b.toRat|)
      = signFactor a.negative * |a.toRat| / (signFactor b.negative * |b.toRat|) := by
        rw [signFactor_bne, mul_div_mul_comm, div_eq_mul_inv (signFactor a.negative), hinv]
    _ = a.toRat / b.toRat := by rw [signFactor_mul_abs, signFactor_mul_abs]

/-- A quotient is rounded once; there is none by zero. -/
theorem toRat_div? (a b : Decimal) :
    (div? a b).map toRat = if b.toRat = 0 then none else rounded? (a.toRat / b.toRat) := by
  unfold div?
  by_cases hb : b.toRat = 0
  · rw [if_pos ((isZero_iff b).2 hb), if_pos hb]
    rfl
  · rw [if_neg (mt (isZero_iff b).1 hb), if_neg hb]
    by_cases ha : a.isZero
    · rw [if_pos ha, (isZero_iff a).1 ha, zero_div, ← toRat_zero, rounded?_toRat]
      rfl
    · rw [if_neg ha, ← signFactor_div_abs, rounded?_signFactor_mul]
      have hquotient : a.mantissa / b.mantissa < mantissaBound :=
        lt_of_le_of_lt (Nat.div_le_self _ _) a.mantissa_lt
      have hdivided := divided_longDivision false (partialQuotient_start a hb) hquotient
      cases hlong : longDivision b.mantissa (a.mantissa / b.mantissa) (a.mantissa % b.mantissa)
          ((a.scale : ℤ) - b.scale) false with
      | none =>
        rw [hlong] at hdivided
        rw [show rounded? (|a.toRat| / |b.toRat|) = none from hdivided]
        rfl
      | some found =>
        obtain ⟨mantissa, scale, drawn⟩ := found
        rw [hlong] at hdivided
        obtain ⟨places, rfl, hplaces, hmantissa, hrounded⟩ := hdivided
        have htrimmed : Trimmed (mantissa, places)
            (if drawn then dropZeroRuns mantissa places else (mantissa, places)) := by
          split
          · exact trimmed_dropZeroRuns _ _
          · exact Trimmed.refl _
        simp only [Option.bind_eq_bind, Option.bind_some, Int.toNat_natCast]
        rw [toRat_ofParts? _ (lt_of_le_of_lt htrimmed.mantissa_le hmantissa) (htrimmed.scale_le.trans hplaces),
          signFactor_and_bne_zero, htrimmed.value, hrounded]
        rfl

end Decimal

end TradeReport
