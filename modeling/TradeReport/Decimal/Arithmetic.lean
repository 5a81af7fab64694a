import TradeReport.Decimal.Rounding
/-!
# Arithmetic on decimals

Sums, differences and products are computed exactly on the mantissas and then fitted into the range of a
decimal, which drops as few places as possible and rounds once to the even neighbour. A result whose whole
part does not fit is an overflow. A quotient is found digit by digit; see `Decimal.div?`.
-/

namespace TradeReport

/-- The operation whose result has a whole part that no decimal can hold. -/
inductive Overflow where
  | addition
  | subtraction
  | multiplication
  | division
  deriving DecidableEq, Repr

def Overflow.message : Overflow → String
  | .addition => "Addition overflowed"
  | .subtraction => "Subtraction overflowed"
  | .multiplication => "Multiplication overflowed"
  | .division => "Division overflowed"

namespace Decimal

/-- The fewest digits, at least `drop`, to take from the end of `mantissa` so that the rest is in range.
Absent when more than `drop + steps` are needed. -/
def digitsOver (mantissa drop : Nat) : Nat → Option Nat
  | 0 => if mantissa / tenPower drop < mantissaBound then some drop else none
  | steps + 1 =>
    if mantissa / tenPower drop < mantissaBound then some drop else digitsOver mantissa (drop + 1) steps

/-- `± mantissa / 10 ^ scale` as a decimal with as many of the places as fit, rounded to the even
neighbour. Rounding can reach the bound itself, and then one place more is dropped. -/
def fit? (negative : Bool) (mantissa scale : Nat) : Option Decimal := do
  let drop ← digitsOver mantissa (scale - maxScale) (min scale maxScale)
  let rounded := Rounding.halfEven.quotient mantissa (tenPower drop)
  let places := scale - drop
  if rounded < mantissaBound then
    ofParts? negative rounded places
  else if places = 0 then
    none
  else
    ofParts? negative (Rounding.halfEven.quotient rounded 10) (places - 1)

/-- A zero adds nothing, not even its places. -/
def add? (a b : Decimal) : Option Decimal :=
  if a.isZero then
    some b
  else if b.isZero then
    some a
  else
    let sum := (aligned a b).1 + (aligned a b).2
    fit? (decide (sum < 0)) sum.natAbs (max a.scale b.scale)

def sub? (a b : Decimal) : Option Decimal :=
  if a.isZero then
    some b.neg
  else
    add? a b.neg

/-- Mantissas below this bound multiply without the general fitting of a product. -/
abbrev shortBound : Nat := wordBound 32

/-- Two short mantissas: a product with more than 47 places is nothing, and one with more than 28 is
rounded to 28. -/
def shortProduct? (negative : Bool) (mantissa scale : Nat) : Option Decimal :=
  if scale > 47 then
    some zero
  else if scale > maxScale then
    let rounded := Rounding.halfEven.quotient mantissa (tenPower (scale - maxScale))
    ofParts? (negative && rounded != 0) rounded maxScale
  else
    ofParts? negative mantissa scale

/-- A product of short mantissas that is rounded to nothing has no sign, while any other keeps that of its factors. -/
def mul? (a b : Decimal) : Option Decimal :=
  if a.isZero || b.isZero then
    some zero
  else
    let negative := a.negative != b.negative
    let mantissa := a.mantissa * b.mantissa
    let scale := a.scale + b.scale
    if a.mantissa < shortBound ∧ b.mantissa < shortBound then
      shortProduct? negative mantissa scale
    else
      fit? negative mantissa scale

/-! ## Division -/

/-- The most digits, up to the given number, that `quotient` can take on. -/
def digitRoom (quotient : Nat) : Nat → Nat
  | 0 => 0
  | digits + 1 =>
    if quotient * tenPower (digits + 1) < mantissaBound then digits + 1 else digitRoom quotient digits

theorem digitRoom_le (quotient digits : Nat) : digitRoom quotient digits ≤ digits := by
  induction digits with
  | zero => simp [digitRoom]
  | succ digits ih =>
    unfold digitRoom
    split
    · omega
    · omega

/-- One digit fewer than the mantissa and its places, when that leaves any places: rounded up past the
half, and at the half when something follows or the digit before is odd. -/
def shedDigit? (mantissa : Nat) (scale : Int) (more : Bool) : Option (Nat × Int) :=
  let whole := mantissa / 10
  let digit := mantissa % 10
  let up := digit > 5 ∨ (digit = 5 ∧ (more ∨ whole % 2 = 1))
  if scale ≤ 0 then none else some (if up then whole + 1 else whole, scale - 1)

/-- Long division by `divisor` with nine digits at a time: a quotient so far, its remainder and its places.
The flag tells whether a digit was drawn from the remainder. Absent on overflow. -/
def longDivision (divisor quotient rest : Nat) (scale : Int) (drawn : Bool) :
    Option (Nat × Int × Bool) :=
  if rest = 0 then
    if scale ≥ 0 then
      some (quotient, scale, drawn)
    else
      let digits := min 9 (-scale).toNat
      let quotient' := quotient * tenPower digits
      if quotient' < mantissaBound then
        longDivision divisor quotient' 0 (scale + digits) drawn
      else
        none
  else
    let wanted := min 9 (maxScale - scale).toNat
    let digits := digitRoom quotient wanted
    if digits < 9 ∧ scale + digits < 0 then
      none
    else if hdigits : digits = 0 then
      let up := 2 * rest > divisor ∨ (2 * rest = divisor ∧ quotient % 2 = 1)
      let rounded := if up then quotient + 1 else quotient
      if rounded < mantissaBound then
        some (rounded, scale, true)
      else
        (shedDigit? rounded scale false).map fun shed => (shed.1, shed.2, true)
    else
      let numerator := rest * tenPower digits
      let quotient' := quotient * tenPower digits + numerator / divisor
      let rest' := numerator % divisor
      if quotient' < mantissaBound then
        longDivision divisor quotient' rest' (scale + digits) true
      else
        (shedDigit? quotient' (scale + digits) (rest' != 0)).map fun shed => (shed.1, shed.2, true)
  termination_by (maxScale - scale).toNat
  decreasing_by
    · omega
    · have hroom : digits ≤ min 9 (maxScale - scale).toNat := digitRoom_le quotient wanted
      change ((maxScale : Int) - (scale + (digits : Int))).toNat < ((maxScale : Int) - scale).toNat
      omega

/-- Zeros at the end of a drawn quotient are taken off in runs of eight, four, two and one, a run only when
the matching power of two shows it may be there. -/
def dropZeroRuns (mantissa scale : Nat) : Nat × Nat :=
  let (mantissa, scale) := eights 3 mantissa scale
  let (mantissa, scale) := run 4 16 (mantissa, scale)
  let (mantissa, scale) := run 2 4 (mantissa, scale)
  run 1 2 (mantissa, scale)
where
  run (digits power : Nat) (parts : Nat × Nat) : Nat × Nat :=
    if parts.1 % power = 0 ∧ parts.2 ≥ digits ∧ parts.1 % tenPower digits = 0 then
      (parts.1 / tenPower digits, parts.2 - digits)
    else
      parts
  eights : Nat → Nat → Nat → Nat × Nat
    | 0, mantissa, scale => (mantissa, scale)
    | times + 1, mantissa, scale =>
      if mantissa % wordBound 32 = 0 ∧ scale ≥ 8 ∧ mantissa % 100000000 = 0 then
        eights times (mantissa / 100000000) (scale - 8)
      else
        (mantissa, scale)

/-- The quotient, absent for a zero divisor and on overflow. An exact quotient keeps the places that the
division ends with, so one half is `0.50`; another is rounded where its digits end. -/
def div? (a b : Decimal) : Option Decimal := do
  if b.isZero then
    none
  else if a.isZero then
    some zero
  else
    let (quotient, scale, drawn) ←
      longDivision b.mantissa (a.mantissa / b.mantissa) (a.mantissa % b.mantissa)
        ((a.scale : Int) - b.scale) false
    let (mantissa, places) :=
      if drawn then dropZeroRuns quotient scale.toNat else (quotient, scale.toNat)
    ofParts? ((a.negative != b.negative) && mantissa != 0) mantissa places

/-! ## The operations of a calculation -/

def add (a b : Decimal) : Except Overflow Decimal :=
  (add? a b).elim (throw .addition) pure

def sub (a b : Decimal) : Except Overflow Decimal :=
  (sub? a b).elim (throw .subtraction) pure

def mul (a b : Decimal) : Except Overflow Decimal :=
  (mul? a b).elim (throw .multiplication) pure

def div (a b : Decimal) : Except Overflow Decimal :=
  (div? a b).elim (throw .division) pure

/-- The sum of a list, added from the left to zero. -/
def sum (values : List Decimal) : Except Overflow Decimal :=
  values.foldlM add zero

end Decimal

end TradeReport
