import Mathlib.Algebra.BigOperators.Ring.List
import Mathlib.Algebra.Order.BigOperators.Group.List
import Mathlib.Data.Set.Finite.Lemmas
import Mathlib.Data.Set.Finite.List
import TradeReport.Proofs.Decimal.Monotone
/-!
# Means

A mean of figures, weighted or not, lies where the figures lie, even when they are one unit of the last place away from
a limit (`exists_weightedMean`). It only takes that the sums which are divided are exact. The sum of a plain mean is
exact below 7.9, where it has room for all 28 places (`exists_mean`).
-/

namespace TradeReport

namespace Decimal

private theorem toRat_ofCount {count : ℕ} (h : count < 2 ^ 32) : (ofCount count).toRat = count := by
  rw [toRat_eq]
  have hmod : count % wordBound 32 = count := Nat.mod_eq_of_lt h
  simp [ofCount, signed, hmod]

/-- Between the smallest and the largest of some figures. -/
structure IsBetween (a : Decimal) (values : List Decimal) : Prop where
  least : ∃ least ∈ values, (∀ value ∈ values, least ≤ value) ∧ least ≤ a
  greatest : ∃ greatest ∈ values, (∀ value ∈ values, value ≤ greatest) ∧ a ≤ greatest

variable {values : List Decimal} {a : Decimal}

private theorem exists_least (h : values ≠ []) : ∃ least ∈ values, ∀ value ∈ values, least ≤ value := by
  obtain ⟨least, hleast, hall⟩ := Set.exists_min_image {value | value ∈ values} toRat (List.finite_toSet values)
    (List.exists_mem_of_ne_nil values h)
  exact ⟨least, hleast, fun value hvalue => le_iff_toRat_le.2 (hall value hvalue)⟩

private theorem exists_greatest (h : values ≠ []) : ∃ greatest ∈ values, ∀ value ∈ values, value ≤ greatest := by
  obtain ⟨greatest, hgreatest, hall⟩ := Set.exists_max_image {value | value ∈ values} toRat
    (List.finite_toSet values) (List.exists_mem_of_ne_nil values h)
  exact ⟨greatest, hgreatest, fun value hvalue => le_iff_toRat_le.2 (hall value hvalue)⟩

theorem IsBetween.perm {others : List Decimal} (h : a.IsBetween values) (hperm : values.Perm others) :
    a.IsBetween others := by
  obtain ⟨⟨least, hleast, hbelow, hle⟩, ⟨greatest, hgreatest, habove, hge⟩⟩ := h
  exact ⟨⟨least, hperm.mem_iff.1 hleast, fun value hvalue => hbelow value (hperm.mem_iff.2 hvalue), hle⟩,
    ⟨greatest, hperm.mem_iff.1 hgreatest, fun value hvalue => habove value (hperm.mem_iff.2 hvalue), hge⟩⟩

theorem IsBetween.le_of_forall_le {bound : Decimal} (h : a.IsBetween values)
    (hbound : ∀ value ∈ values, value ≤ bound) : a ≤ bound := by
  obtain ⟨greatest, hmem, -, hle⟩ := h.greatest
  have hgreatest := hbound greatest hmem
  rw [le_iff_toRat_le] at hle hgreatest ⊢
  exact hle.trans hgreatest

theorem IsBetween.lt_of_forall_lt {bound : Decimal} (h : a.IsBetween values)
    (hbound : ∀ value ∈ values, bound < value) : bound < a := by
  obtain ⟨least, hmem, -, hle⟩ := h.least
  have hleast := hbound least hmem
  rw [le_iff_toRat_le] at hle
  rw [lt_iff_toRat_lt] at hleast ⊢
  exact hleast.trans_le hle

/-! ## Weighted means -/

section Weighted

variable {ι : Type} {items : List ι} {numerator denominator : Decimal}

private theorem sum_weights_pos {weight : ι → ℚ} (hne : items ≠ []) (hpos : ∀ item ∈ items, 0 < weight item) :
    0 < (items.map weight).sum :=
  List.sum_pos _ (List.forall_mem_map.2 hpos) (by simpa using hne)

/-- A mean with positive weights lies between the figures that it is the mean of, also after rounding. -/
theorem exists_weightedMean (value : ι → Decimal) (weight : ι → ℚ) (hne : items ≠ [])
    (hpos : ∀ item ∈ items, 0 < weight item)
    (hnumerator : numerator.toRat = (items.map fun item => (value item).toRat * weight item).sum)
    (hdenominator : denominator.toRat = (items.map weight).sum) :
    ∃ average, numerator.ratio? denominator = some average ∧ average.IsBetween (items.map value) := by
  have hvalues : items.map value ≠ [] := by simpa using hne
  obtain ⟨least, hleast, hbelow⟩ := exists_least hvalues
  obtain ⟨greatest, hgreatest, habove⟩ := exists_greatest hvalues
  have htotal : 0 < denominator.toRat := hdenominator ▸ sum_weights_pos hne hpos
  have hlow : least.toRat * denominator.toRat ≤ numerator.toRat := by
    rw [hnumerator, hdenominator, ← List.sum_map_mul_left]
    refine List.sum_le_sum fun item hitem => mul_le_mul_of_nonneg_right ?_ (hpos item hitem).le
    exact le_iff_toRat_le.1 (hbelow _ (List.mem_map_of_mem hitem))
  have hhigh : numerator.toRat ≤ greatest.toRat * denominator.toRat := by
    rw [hnumerator, hdenominator, ← List.sum_map_mul_left]
    refine List.sum_le_sum fun item hitem => mul_le_mul_of_nonneg_right ?_ (hpos item hitem).le
    exact le_iff_toRat_le.1 (habove _ (List.mem_map_of_mem hitem))
  obtain ⟨average, haverage, hle, hge⟩ := exists_ratio_between htotal hlow hhigh
  exact ⟨average, haverage, ⟨least, hleast, hbelow, hle⟩, ⟨greatest, hgreatest, habove, hge⟩⟩

end Weighted

/-! ## Plain means of small figures -/

private theorem forall_whole (values : List Decimal) : ∀ x ∈ values.map toRat, ∃ n : ℤ, x * 10 ^ maxScale = n := by
  intro x hx
  obtain ⟨value, -, rfl⟩ := List.mem_map.1 hx
  exact (Within.of_scale value.scale_le).whole

private theorem exists_sum (hsize : (values.map (|·.toRat|)).sum < 79 / 10) :
    ∃ total, sum values = .ok total ∧ total.toRat = (values.map toRat).sum := by
  have hroom : (10 : ℚ) ^ maxScale * (|0| + ((values.map toRat).map (|·|)).sum) < mantissaBound := by
    rw [abs_zero, zero_add, List.map_map, mantissaBound_eq]
    have hsum : (values.map ((|·|) ∘ toRat)).sum < (79 / 10 : ℚ) := hsize
    norm_num at hsum ⊢
    linarith
  apply exists_of_value?
  rw [value?_sum, roundedSum_eq le_rfl ⟨0, by simp⟩ (forall_whole values) hroom, zero_add]

theorem exists_mean (hne : values ≠ []) (hcount : values.length < 2 ^ 32)
    (hsize : (values.map (|·.toRat|)).sum < 79 / 10) :
    ∃ average, mean? values = .ok (some average) ∧ average.IsBetween values := by
  obtain ⟨total, htotal, hvalue⟩ := exists_sum hsize
  obtain ⟨average, haverage, hbetween⟩ :
      ∃ average, total.ratio? (ofCount values.length) = some average ∧ average.IsBetween (values.map id) := by
    refine exists_weightedMean id (fun _ => 1) hne (fun _ _ => one_pos) ?_ ?_
    · simpa using hvalue
    · simp [toRat_ofCount hcount]
  rw [List.map_id] at hbetween
  refine ⟨average, ?_, hbetween⟩
  rw [mean?, htotal, ← haverage]
  rfl

theorem mean?_nil : mean? [] = .ok none := by
  decide

/-! ## Presence of plain means -/

/-- No quotient of a sum by a count is out of range: it is no farther from zero than the sum. -/
theorem exists_ratio_ofCount {count : ℕ} (total : Decimal) (hpos : 0 < count) (hcount : count < 2 ^ 32) :
    ∃ average, total.ratio? (ofCount count) = some average := by
  have hone : (1 : ℚ) ≤ (ofCount count).toRat := by
    rw [toRat_ofCount hcount]
    exact_mod_cast hpos
  rcases le_total 0 total.toRat with hsign | hsign
  · have hlow : zero.toRat * (ofCount count).toRat ≤ total.toRat := by
      rw [toRat_zero, zero_mul]
      exact hsign
    have hhigh : total.toRat ≤ total.toRat * (ofCount count).toRat := le_mul_of_one_le_right hsign hone
    obtain ⟨average, haverage, -⟩ := exists_ratio_between (zero_lt_one.trans_le hone) hlow hhigh
    exact ⟨average, haverage⟩
  · have hlow : total.toRat * (ofCount count).toRat ≤ total.toRat := by nlinarith
    have hhigh : total.toRat ≤ zero.toRat * (ofCount count).toRat := by
      rw [toRat_zero, zero_mul]
      exact hsign
    obtain ⟨average, haverage, -⟩ := exists_ratio_between (zero_lt_one.trans_le hone) hlow hhigh
    exact ⟨average, haverage⟩

theorem isSome_of_mean? {average : Option Decimal} (hcount : values.length < 2 ^ 32)
    (h : mean? values = .ok average) : average.isSome = true ↔ values ≠ [] := by
  obtain ⟨total, -, hratio⟩ := bind_eq_ok.1 h
  rw [← pure_eq_ok.1 hratio]
  constructor
  · rintro hsome rfl
    have hnone := pure_eq_ok.1 hratio
    rw [Except.ok.inj (h.symm.trans mean?_nil)] at hnone
    rw [hnone] at hsome
    cases hsome
  · intro hne
    obtain ⟨found, hfound⟩ := exists_ratio_ofCount total (List.length_pos_of_ne_nil hne) hcount
    rw [hfound]
    rfl

end Decimal

end TradeReport
