import Mathlib.Algebra.BigOperators.Group.List.Basic
import Mathlib.Algebra.Order.BigOperators.Group.List
import TradeReport.Decimal.Display
import TradeReport.Proofs.Decimal.Division
import TradeReport.Proofs.Outcome
/-!
# The operations of a calculation, by value

What a calculation sees of an operation is its value or an overflow. Either is determined by the values of the
operands: `value?_add` and its siblings say so for single operations, `value?_foldlM_add` for sums of lists. The
second half is about operations that lose nothing. A fraction is `Within` some places and a size when it has no
more places and is no larger; these bounds add up along a calculation, and as long as they stay in range every
operation is exact.
-/

namespace TradeReport

namespace Decimal

def value? (result : Except Overflow Decimal) : Option ℚ :=
  result.toOption.map toRat

@[simp] theorem value?_ok (a : Decimal) : value? (.ok a) = some a.toRat :=
  rfl

theorem exists_of_value? {result : Except Overflow Decimal} {x : ℚ} (h : value? result = some x) :
    ∃ a, result = .ok a ∧ a.toRat = x := by
  cases result with
  | error cause => simp [value?, Except.toOption] at h
  | ok a => exact ⟨a, rfl, Option.some.inj h⟩

theorem toRat_eq_of_value?_eq {result result' : Except Overflow Decimal} {a b : Decimal}
    (hvalue : value? result = value? result') (h : result = .ok a) (h' : result' = .ok b) : a.toRat = b.toRat := by
  rw [h, h', value?_ok, value?_ok] at hvalue
  exact Option.some.inj hvalue

private theorem value?_elim (found : Option Decimal) (cause : Overflow) :
    value? (found.elim (throw cause) pure) = found.map toRat := by
  cases found <;> rfl

theorem value?_add (a b : Decimal) : value? (a.add b) = rounded? (a.toRat + b.toRat) := by
  rw [add, value?_elim, toRat_add?]

theorem value?_sub (a b : Decimal) : value? (a.sub b) = rounded? (a.toRat - b.toRat) := by
  rw [sub, value?_elim, toRat_sub?]

theorem value?_mul (a b : Decimal) : value? (a.mul b) = rounded? (a.toRat * b.toRat) := by
  rw [mul, value?_elim, toRat_mul?]

theorem value?_div (a b : Decimal) :
    value? (a.div b) = if b.toRat = 0 then none else rounded? (a.toRat / b.toRat) := by
  rw [div, value?_elim, toRat_div?]

theorem value?_eq_none_iff {result : Except Overflow Decimal} :
    value? result = none ↔ ∃ cause, result = .error cause := by
  cases result with
  | error cause => simp [value?, Except.toOption]
  | ok a => simp

theorem mul_overflows_iff (a b : Decimal) :
    (∃ cause, a.mul b = .error cause) ↔ (mantissaBound : ℚ) - 1 / 2 ≤ |a.toRat * b.toRat| := by
  rw [← value?_eq_none_iff, value?_mul, rounded?_eq_none_iff]

theorem exists_add_zero (a : Decimal) {b : Decimal} (hb : b.toRat = 0) :
    ∃ c, a.add b = .ok c ∧ c.toRat = a.toRat :=
  exists_of_value? (by rw [value?_add, hb, add_zero, rounded?_toRat])

theorem exists_sub_zero (a : Decimal) {b : Decimal} (hb : b.toRat = 0) :
    ∃ c, a.sub b = .ok c ∧ c.toRat = a.toRat :=
  exists_of_value? (by rw [value?_sub, hb, sub_zero, rounded?_toRat])

theorem exists_zero_mul {a : Decimal} (ha : a.toRat = 0) (b : Decimal) :
    ∃ c, a.mul b = .ok c ∧ c.toRat = 0 :=
  exists_of_value? (by rw [value?_mul, ha, zero_mul, ← ha, rounded?_toRat])

theorem toRat_ratio? (a b : Decimal) :
    (a.ratio? b).map toRat = if b.toRat = 0 then none else rounded? (a.toRat / b.toRat) :=
  toRat_div? a b

end Decimal

/-! ## Sums -/

def roundedSum (start : ℚ) : List ℚ → Option ℚ
  | [] => some start
  | x :: rest => (rounded? (start + x)).bind fun sum => roundedSum sum rest

theorem Decimal.value?_foldlM_add (start : Decimal) (values : List Decimal) :
    value? (values.foldlM add start) = roundedSum start.toRat (values.map toRat) := by
  induction values generalizing start with
  | nil => rfl
  | cons a rest ih =>
    rw [List.foldlM_cons, List.map_cons, roundedSum, ← value?_add]
    cases start.add a with
    | error cause => rfl
    | ok sum => exact ih sum

theorem Decimal.value?_sum (values : List Decimal) : value? (sum values) = roundedSum 0 (values.map toRat) := by
  rw [sum, value?_foldlM_add, toRat_zero]

/-! ## Bounds under which nothing is lost -/

/-- A fraction with at most so many places and no larger than `size`. -/
structure Within (places : ℕ) (size x : ℚ) : Prop where
  whole : ∃ n : ℤ, x * 10 ^ places = n
  abs_le : |x| ≤ size

namespace Within

variable {places fewer more : ℕ} {s t x y : ℚ}

theorem mono (h : Within places s x) (hsize : s ≤ t) : Within places t x :=
  ⟨h.whole, h.abs_le.trans hsize⟩

theorem of_le (h : Within fewer s x) (hplaces : fewer ≤ places) : Within places s x := by
  obtain ⟨n, hn⟩ := h.whole
  refine ⟨⟨n * 10 ^ (places - fewer), ?_⟩, h.abs_le⟩
  rw [← Nat.add_sub_cancel' hplaces, pow_add, ← mul_assoc, hn, Nat.add_sub_cancel_left]
  push_cast
  rfl

theorem neg (h : Within places s x) : Within places s (-x) := by
  obtain ⟨n, hn⟩ := h.whole
  refine ⟨⟨-n, ?_⟩, (abs_neg x).trans_le h.abs_le⟩
  rw [neg_mul, hn, Int.cast_neg]

theorem add (hx : Within places s x) (hy : Within places t y) : Within places (s + t) (x + y) := by
  obtain ⟨m, hm⟩ := hx.whole
  obtain ⟨n, hn⟩ := hy.whole
  refine ⟨⟨m + n, ?_⟩, (abs_add_le x y).trans (add_le_add hx.abs_le hy.abs_le)⟩
  rw [add_mul, hm, hn, Int.cast_add]

theorem sub (hx : Within places s x) (hy : Within places t y) : Within places (s + t) (x - y) := by
  rw [sub_eq_add_neg]
  exact hx.add hy.neg

theorem mul (hx : Within fewer s x) (hy : Within more t y) : Within (fewer + more) (s * t) (x * y) := by
  obtain ⟨m, hm⟩ := hx.whole
  obtain ⟨n, hn⟩ := hy.whole
  refine ⟨⟨m * n, ?_⟩, ?_⟩
  · rw [pow_add, mul_mul_mul_comm, hm, hn, Int.cast_mul]
  · rw [abs_mul]
    exact mul_le_mul hx.abs_le hy.abs_le (abs_nonneg y) ((abs_nonneg x).trans hx.abs_le)

theorem sum {values : List ℚ} (h : ∀ x ∈ values, ∃ n : ℤ, x * 10 ^ places = n) :
    Within places (values.map abs).sum values.sum := by
  induction values with
  | nil => exact ⟨⟨0, by simp⟩, by simp⟩
  | cons x rest ih =>
    rw [List.forall_mem_cons] at h
    exact (Within.mk h.1 le_rfl).add (ih h.2)

theorem of_scale {a : Decimal} (hscale : a.scale ≤ places) : Within places |a.toRat| a.toRat := by
  have hown : Within a.scale |a.toRat| a.toRat := by
    refine ⟨⟨a.signed, ?_⟩, le_rfl⟩
    rw [Decimal.toRat_eq, div_mul_cancel₀ _ (by positivity)]
  exact hown.of_le hscale

/-- In range, such a fraction is the value of a decimal. -/
theorem representable (h : Within places s x) (hplaces : places ≤ maxScale)
    (hsize : 10 ^ places * s < mantissaBound) : Representable x := by
  obtain ⟨n, hn⟩ := h.whole
  refine ⟨n, places, hplaces, ?_, ?_⟩
  · have hle : |(n : ℚ)| ≤ 10 ^ places * s := by
      rw [← hn, abs_mul, abs_of_pos (show (0 : ℚ) < 10 ^ places by positivity), mul_comm]
      exact mul_le_mul_of_nonneg_left h.abs_le (by positivity)
    rw [← Int.cast_lt (R := ℚ), Int.cast_abs, Int.cast_natCast]
    exact hle.trans_lt hsize
  · rw [eq_div_iff (by positivity), hn]

end Within

namespace Decimal

variable {places : ℕ} {size : ℚ} {a b : Decimal}

theorem exists_add (h : Within places size (a.toRat + b.toRat)) (hplaces : places ≤ maxScale)
    (hsize : 10 ^ places * size < mantissaBound) : ∃ c, a.add b = .ok c ∧ c.toRat = a.toRat + b.toRat :=
  exists_of_value? (by rw [value?_add, rounded?_of_representable (h.representable hplaces hsize)])

theorem exists_sub (h : Within places size (a.toRat - b.toRat)) (hplaces : places ≤ maxScale)
    (hsize : 10 ^ places * size < mantissaBound) : ∃ c, a.sub b = .ok c ∧ c.toRat = a.toRat - b.toRat :=
  exists_of_value? (by rw [value?_sub, rounded?_of_representable (h.representable hplaces hsize)])

theorem exists_mul (h : Within places size (a.toRat * b.toRat)) (hplaces : places ≤ maxScale)
    (hsize : 10 ^ places * size < mantissaBound) : ∃ c, a.mul b = .ok c ∧ c.toRat = a.toRat * b.toRat :=
  exists_of_value? (by rw [value?_mul, rounded?_of_representable (h.representable hplaces hsize)])

end Decimal

/-- A sum whose terms are small enough together is exact at every step. -/
theorem roundedSum_eq {places : ℕ} {start : ℚ} {values : List ℚ} (hplaces : places ≤ maxScale)
    (hstart : ∃ n : ℤ, start * 10 ^ places = n) (hvalues : ∀ x ∈ values, ∃ n : ℤ, x * 10 ^ places = n)
    (hsize : 10 ^ places * (|start| + (values.map abs).sum) < mantissaBound) :
    roundedSum start values = some (start + values.sum) := by
  induction values generalizing start with
  | nil => simp [roundedSum]
  | cons x rest ih =>
    rw [List.forall_mem_cons] at hvalues
    rw [List.map_cons, List.sum_cons] at hsize
    have hsum : Within places (|start| + |x|) (start + x) :=
      (Within.mk hstart le_rfl).add (Within.mk hvalues.1 le_rfl)
    have hrest : (0 : ℚ) ≤ (rest.map abs).sum := List.sum_nonneg (by simp)
    have hlarger : (10 : ℚ) ^ places * (|start + x| + (rest.map abs).sum)
        ≤ 10 ^ places * (|start| + (|x| + (rest.map abs).sum)) :=
      mul_le_mul_of_nonneg_left (by linarith [hsum.abs_le]) (by positivity)
    have hhead : (10 : ℚ) ^ places * (|start| + |x|) ≤ 10 ^ places * (|start| + (|x| + (rest.map abs).sum)) :=
      mul_le_mul_of_nonneg_left (by linarith) (by positivity)
    rw [roundedSum, rounded?_of_representable (hsum.representable hplaces (hhead.trans_lt hsize)),
      Option.bind_some, ih hsum.whole hvalues.2 (hlarger.trans_lt hsize), List.sum_cons, add_assoc]

end TradeReport
