import TradeReport.Proofs.Decimal.Shortened
/-!
# One over a decimal

A fraction is rounded to the most places that it fits at (`isRounded_of_rounded?`). A positive decimal is no smaller
than a unit of the last place, so one over it stays far below the bound of mantissas and can be computed
(`Decimal.exists_inverse`).
-/

namespace TradeReport

/-- The decimal that a fraction is rounded to: at the most places, up to 28, at which its mantissa is in range, the
nearest one, and of two that are equally near the even one. -/
def IsRounded (x a : ℚ) : Prop :=
  ∃ places ≤ maxScale, FitsAt x places ∧ (∀ more ≤ maxScale, places < more → ¬FitsAt x more) ∧
    IsNearestEven (1 / 10 ^ places) x a

theorem isRounded_of_rounded? {x a : ℚ} (h : rounded? x = some a) : IsRounded x a := by
  obtain ⟨places, hplaces, hfits, rfl, hmost⟩ := exists_places_of_roundedWithin h
  refine ⟨places, hplaces, hfits, fun more hmore hlt hroom => ?_, isNearestEven_roundedAt x places⟩
  rcases hmost with rfl | hover
  · exact absurd hlt (not_lt.2 hmore)
  · exact hover (hroom.of_le hlt)

namespace Decimal

variable {a : Decimal}

private theorem unit_le_toRat (h : 0 < a.toRat) : 1 / 10 ^ maxScale ≤ a.toRat := by
  have hmantissa : 1 ≤ a.mantissa := by
    rw [Nat.one_le_iff_ne_zero, Ne, ← toRat_eq_zero_iff]
    exact h.ne'
  calc (1 : ℚ) / 10 ^ maxScale ≤ 1 / 10 ^ a.scale :=
        div_le_div_of_nonneg_left zero_le_one (by positivity) (pow_le_pow_right₀ (by norm_num) a.scale_le)
    _ ≤ a.mantissa / 10 ^ a.scale := div_le_div_of_nonneg_right (by exact_mod_cast hmantissa) (by positivity)
    _ = a.toRat := by rw [← abs_toRat, abs_of_pos h]

theorem exists_inverse (h : 0 < a.toRat) :
    ∃ inverse, one.ratio? a = some inverse ∧ one.div a = .ok inverse ∧ IsRounded (1 / a.toRat) inverse.toRat := by
  have hle : 1 / a.toRat ≤ 10 ^ maxScale := by
    rw [one_div_le h (by positivity)]
    exact unit_le_toRat h
  have hrange : |1 / a.toRat| < (mantissaBound : ℚ) - 1 / 2 := by
    rw [abs_of_pos (one_div_pos.2 h)]
    refine hle.trans_lt ?_
    rw [mantissaBound_eq]
    norm_num [maxScale]
  have hratio := toRat_ratio? one a
  rw [if_neg h.ne', toRat_one] at hratio
  cases hrounded : rounded? (1 / a.toRat) with
  | none => exact absurd (rounded?_eq_none_iff.1 hrounded) (not_le.2 hrange)
  | some x =>
    rw [hrounded] at hratio
    obtain ⟨inverse, hinverse, rfl⟩ := Option.map_eq_some_iff.1 hratio
    have hquotient : div? one a = some inverse := hinverse
    refine ⟨inverse, hinverse, ?_, isRounded_of_rounded? hrounded⟩
    rw [div, hquotient]
    rfl

end Decimal

end TradeReport
