import TradeReport.Decimal.Basic
/-!
# Rounding to fewer places

Every rounding of the library is one rounding of a quotient of natural numbers. The sign is put back
afterwards, so the rules are symmetric around zero. A figure rounded to nothing is a plain zero, while a zero with
a sign stays as it is.
-/

namespace TradeReport

inductive Rounding where
  /-- To the nearest; a half goes to the even neighbour. -/
  | halfEven
  /-- To the nearest; a half goes away from zero. -/
  | halfAway
  /-- Towards zero. -/
  | truncate
  deriving DecidableEq, Repr

/-- `numerator / denominator` as a whole number, rounded by the given rule. -/
def Rounding.quotient (rule : Rounding) (numerator denominator : Nat) : Nat :=
  let whole := numerator / denominator
  let rest := numerator % denominator
  match rule with
  | .halfEven =>
    if 2 * rest > denominator ∨ (2 * rest = denominator ∧ whole % 2 = 1) then whole + 1 else whole
  | .halfAway => if 2 * rest ≥ denominator then whole + 1 else whole
  | .truncate => whole

theorem Rounding.quotient_le_succ (rule : Rounding) (numerator denominator : Nat) :
    rule.quotient numerator denominator ≤ numerator / denominator + 1 := by
  unfold quotient
  cases rule <;> simp only <;> (try split) <;> omega

private theorem quotient_power_lt {mantissa places : Nat} (rule : Rounding)
    (hmantissa : mantissa < mantissaBound) (hplaces : 0 < places) :
    rule.quotient mantissa (tenPower places) < mantissaBound := by
  have hten : 10 ≤ tenPower places := Nat.le_pow hplaces
  have hdiv : mantissa / tenPower places ≤ mantissa / 10 := Nat.div_le_div_left hten (by decide)
  have hle := rule.quotient_le_succ mantissa (tenPower places)
  have hbound : 2 ≤ mantissaBound := by decide
  omega

namespace Decimal

/-- At most `places` places; a decimal that has no more is left as it is. -/
def roundTo (rule : Rounding) (places : Nat) (a : Decimal) : Decimal :=
  if h : a.scale ≤ places then
    a
  else
    let mantissa := rule.quotient a.mantissa (tenPower (a.scale - places))
    { negative := a.negative && (mantissa != 0 || a.mantissa == 0)
      mantissa := mantissa
      scale := places
      mantissa_lt := quotient_power_lt rule a.mantissa_lt (by omega)
      scale_le := Nat.le_trans (Nat.le_of_not_le h) a.scale_le }

/-- Without the zeros at the end of the places. -/
def trimZeros (a : Decimal) : Decimal :=
  let drop := dropped a.scale a.mantissa
  { a with
    mantissa := a.mantissa / tenPower drop
    scale := a.scale - drop
    mantissa_lt := Nat.lt_of_le_of_lt (Nat.div_le_self _ _) a.mantissa_lt
    scale_le := Nat.le_trans (Nat.sub_le _ _) a.scale_le }
where
  /-- How many of the last `places` digits of the mantissa are zeros at its end. -/
  dropped : Nat → Nat → Nat
    | 0, _ => 0
    | places + 1, mantissa =>
      if mantissa % 10 = 0 then dropped places (mantissa / 10) + 1 else 0

end Decimal

end TradeReport
