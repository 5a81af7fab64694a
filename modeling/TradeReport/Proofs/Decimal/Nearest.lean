import Mathlib.Algebra.Order.Floor.Ring
import Mathlib.Data.Rat.Floor
import Mathlib.Tactic.FieldSimp
import Mathlib.Tactic.Linarith
import Mathlib.Tactic.Push
import Mathlib.Tactic.Ring
import TradeReport.Decimal.Rounding
/-!
# The nearest whole number

The rounding that all arithmetic on decimals ends with, as a function of exact fractions. A half goes to the
even neighbour, so the rule is symmetric around zero (`nearestEven_neg`). On a quotient of natural numbers it is
the rounding of the library (`nearestEven_div`). Everything else is reached through two bounds: a fraction at
least a whole number rounds to at least that number, and likewise from above.
-/

namespace TradeReport

/-- The whole number nearest to a fraction; a half goes to the even neighbour. -/
def nearestEven (x : ℚ) : ℤ :=
  if 1 < 2 * Int.fract x ∨ (2 * Int.fract x = 1 ∧ ⌊x⌋ % 2 = 1) then ⌊x⌋ + 1 else ⌊x⌋

theorem nearestEven_eq {x : ℚ} {n : ℤ} (hlow : (n : ℚ) ≤ x) (hhigh : x < n + 1) :
    nearestEven x = if 1 < 2 * (x - n) ∨ (2 * (x - n) = 1 ∧ n % 2 = 1) then n + 1 else n := by
  have hfloor : ⌊x⌋ = n := Int.floor_eq_iff.2 ⟨hlow, hhigh⟩
  simp only [nearestEven, Int.fract, hfloor]

private theorem floor_le_nearestEven (x : ℚ) : ⌊x⌋ ≤ nearestEven x := by
  unfold nearestEven
  split <;> omega

@[simp] theorem nearestEven_intCast (n : ℤ) : nearestEven n = n := by
  rw [nearestEven_eq le_rfl (by linarith)]
  simp

theorem le_nearestEven {x : ℚ} {n : ℤ} (h : (n : ℚ) ≤ x) : n ≤ nearestEven x :=
  (Int.le_floor.2 h).trans (floor_le_nearestEven x)

theorem sub_half_le_of_le_nearestEven {x : ℚ} {n : ℤ} (h : n ≤ nearestEven x) : (n : ℚ) - 1 / 2 ≤ x := by
  have hfloor : (⌊x⌋ : ℚ) ≤ x := Int.floor_le x
  unfold nearestEven at h
  split at h
  · rename_i hup
    have hcast : (n : ℚ) ≤ ⌊x⌋ + 1 := by exact_mod_cast h
    have hhalf : 1 ≤ 2 * Int.fract x := by
      rcases hup with hup | hup
      · exact hup.le
      · exact hup.1.ge
    have hfract : Int.fract x = x - ⌊x⌋ := rfl
    linarith
  · have hcast : (n : ℚ) ≤ ⌊x⌋ := by exact_mod_cast h
    linarith

/-- An even number is reached from a half below it. -/
theorem le_nearestEven_iff_of_even {x : ℚ} {n : ℤ} (heven : n % 2 = 0) :
    n ≤ nearestEven x ↔ (n : ℚ) - 1 / 2 ≤ x := by
  refine ⟨sub_half_le_of_le_nearestEven, fun h => ?_⟩
  by_cases hn : (n : ℚ) ≤ x
  · exact le_nearestEven hn
  · have hlow : ((n - 1 : ℤ) : ℚ) ≤ x := by push_cast; linarith
    have hhigh : x < ((n - 1 : ℤ) : ℚ) + 1 := by push_cast; linarith
    rw [nearestEven_eq hlow hhigh, if_pos]
    · omega
    · push_cast
      rcases h.lt_or_eq with hmore | hhalf
      · exact .inl (by linarith)
      · exact .inr ⟨by linarith, by omega⟩

theorem nearestEven_eq_of_abs_sub_lt {x : ℚ} {n : ℤ} (h : |x - n| < 1 / 2) : nearestEven x = n := by
  obtain ⟨hlow, hhigh⟩ := abs_lt.1 h
  by_cases hn : (n : ℚ) ≤ x
  · rw [nearestEven_eq hn (by linarith), if_neg]
    intro h
    rcases h with hup | hup
    · linarith
    · linarith [hup.1]
  · have hbelow : ((n - 1 : ℤ) : ℚ) ≤ x := by push_cast; linarith
    have habove : x < ((n - 1 : ℤ) : ℚ) + 1 := by push_cast; linarith
    rw [nearestEven_eq hbelow habove, if_pos]
    · omega
    · left
      push_cast
      linarith

theorem nearestEven_neg (x : ℚ) : nearestEven (-x) = -nearestEven x := by
  obtain ⟨n, hlow, hhigh⟩ : ∃ n : ℤ, (n : ℚ) ≤ x ∧ x < n + 1 := ⟨⌊x⌋, Int.floor_le x, Int.lt_floor_add_one x⟩
  rcases hlow.eq_or_lt with rfl | hlow'
  · rw [nearestEven_intCast, ← Int.cast_neg, nearestEven_intCast]
  · have hlow_neg : ((-n - 1 : ℤ) : ℚ) ≤ -x := by push_cast; linarith
    have hhigh_neg : -x < ((-n - 1 : ℤ) : ℚ) + 1 := by push_cast; linarith
    rw [nearestEven_eq hlow hhigh, nearestEven_eq hlow_neg hhigh_neg]
    push_cast
    rcases lt_trichotomy (2 * (x - n)) 1 with hhalf | hhalf | hhalf
    · rw [if_pos (Or.inl (by linarith)), if_neg (by rintro (h | h) <;> linarith [h])]
      omega
    · have hhalf_neg : 2 * (-x - (-(n : ℚ) - 1)) = 1 := by linarith
      simp only [hhalf, hhalf_neg, lt_self_iff_false, true_and, false_or]
      split <;> split <;> omega
    · rw [if_neg (by rintro (h | h) <;> linarith [h]), if_pos (Or.inl hhalf)]
      omega

/-- On a quotient of natural numbers this is the rounding that the arithmetic is written with. -/
theorem nearestEven_div (numerator : ℕ) {denominator : ℕ} (h : 0 < denominator) :
    nearestEven ((numerator : ℚ) / denominator) = Rounding.halfEven.quotient numerator denominator := by
  have hpos : (0 : ℚ) < denominator := by exact_mod_cast h
  set whole := numerator / denominator with hwhole
  set rest := numerator % denominator with hrest
  have hsplit : (numerator : ℚ) = denominator * whole + rest := by
    exact_mod_cast (Nat.div_add_mod numerator denominator).symm
  have hlt : (rest : ℚ) < denominator := by exact_mod_cast Nat.mod_lt numerator h
  have hx : (numerator : ℚ) / denominator = whole + rest / denominator := by
    rw [hsplit]
    field_simp
  have hpart : (0 : ℚ) ≤ rest / denominator := by positivity
  have hpart_lt : (rest : ℚ) / denominator < 1 := (div_lt_one hpos).2 hlt
  rw [hx, nearestEven_eq (n := (whole : ℤ)) (by push_cast; linarith) (by push_cast; linarith)]
  have hmore : 1 < 2 * ((whole : ℚ) + rest / denominator - (whole : ℤ)) ↔ 2 * rest > denominator := by
    rw [show 2 * ((whole : ℚ) + rest / denominator - (whole : ℤ)) = 2 * rest / denominator by push_cast; ring,
      one_lt_div hpos]
    exact_mod_cast Iff.rfl
  have hhalf : 2 * ((whole : ℚ) + rest / denominator - (whole : ℤ)) = 1 ↔ 2 * rest = denominator := by
    rw [show 2 * ((whole : ℚ) + rest / denominator - (whole : ℤ)) = 2 * rest / denominator by push_cast; ring,
      div_eq_one_iff_eq hpos.ne']
    exact_mod_cast Iff.rfl
  have hodd : (whole : ℤ) % 2 = 1 ↔ whole % 2 = 1 := by omega
  simp only [hmore, hhalf, hodd, Rounding.quotient, ← hwhole, ← hrest]
  split <;> simp

end TradeReport
