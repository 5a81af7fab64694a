import TradeReport.Json.Value
import TradeReport.Decimal.Text
import TradeReport.Binary64.Shortest
/-!
# Reading binary fractions

Two readers of different care. The text of a query, a setting or an argument is read as the nearest double.
A JSON number is read faster and less exactly: its first digits as a whole number of 64 bits, scaled by one
power of ten. A decimal becomes a double for the gauge that shows it.
-/

namespace TradeReport.Binary64

def infinity : Float := 1.0 / 0.0

/-- The double nearest to `± digits * 10 ^ exponent`. An exponent beyond the range of doubles is cut off, so
that no power of ten grows without need. -/
def nearest (negative : Bool) (digits : Nat) (exponent : Int) : Float :=
  let length : Int := (Nat.toDigits 10 digits).length
  let magnitude : Float :=
    if digits = 0 then 0.0
    else if exponent + length > 400 then infinity
    else if exponent + length < -400 then 0.0
    else Float.ofScientific digits (decide (exponent < 0)) exponent.natAbs
  if negative then -magnitude else magnitude

/-! ## The nearest double -/

/-- The digits at the front of a text as a number, their count, and the rest. -/
def leadingDigits (value count : Nat) : List Char → Nat × Nat × List Char
  | [] => (value, count, [])
  | c :: rest =>
    match Decimal.digit? c with
    | some digit => leadingDigits (value * 10 + digit) (count + 1) rest
    | none => (value, count, c :: rest)

def lowered (text : List Char) : List Char :=
  text.map Char.toLower

def specialValue? (text : List Char) : Option Float :=
  if lowered text = "inf".toList ∨ lowered text = "infinity".toList then some infinity
  else if lowered text = "nan".toList then some (0.0 / 0.0)
  else none

/-- The power of ten after the digits; none is a power of zero. -/
def exponent? : List Char → Option Int
  | [] => some 0
  | c :: rest =>
    if c = 'e' ∨ c = 'E' then
      let (negative, digits) := Decimal.splitSign rest
      match leadingDigits 0 0 digits with
      | (_, 0, _) => none
      | (value, _, []) => some (if negative then -(value : Int) else value)
      | _ => none
    else
      none

def magnitude? (negative : Bool) (text : List Char) : Option Float := do
  let (whole, wholeCount, rest) := leadingDigits 0 0 text
  let (digits, places, rest) :=
    match rest with
    | '.' :: rest => leadingDigits whole 0 rest
    | rest => (whole, 0, rest)
  if wholeCount + places = 0 then
    none
  else
    return nearest negative digits ((← exponent? rest) - places)

/-- A sign, digits with a point among them, and an exponent; or a name of a value that is no number. -/
def ofChars? (text : List Char) : Option Float :=
  let (negative, body) := Decimal.splitSign text
  match specialValue? body with
  | some x => some (if negative then -x else x)
  | none => magnitude? negative body

/-! ## JSON numbers -/

/-- A whole number of 64 bits, and the power of ten that goes with it. -/
structure Scaled where
  significand : Nat
  exponent : Int

/-- The digits of a whole part. From the first digit that does not fit on, digits only raise the exponent. -/
def Scaled.takeWhole (digits : List (Fin 10)) : Scaled :=
  go ⟨0, 0⟩ digits
where
  go (so : Scaled) : List (Fin 10) → Scaled
    | [] => so
    | d :: rest =>
      if so.exponent = 0 ∧ so.significand * 10 + d.val < wordBound 64 then
        go ⟨so.significand * 10 + d.val, 0⟩ rest
      else
        go ⟨so.significand, so.exponent + 1⟩ rest

/-- The digits after the point, up to the first that does not fit. -/
def Scaled.takeFraction (so : Scaled) : List (Fin 10) → Scaled
  | [] => so
  | d :: rest =>
    if so.significand * 10 + d.val < wordBound 64 then
      takeFraction ⟨so.significand * 10 + d.val, so.exponent - 1⟩ rest
    else
      so

/-- One multiplication or division by a power of ten up to 308; a smaller power takes several. Absent when
the number is out of range. -/
def Scaled.toFloat? (so : Scaled) : Option Float :=
  let start := Float.ofNat so.significand
  if so.exponent > 308 then
    if so.significand = 0 then some start else none
  else if so.exponent ≥ 0 then
    let scaled := start * Float.ofScientific 1 false so.exponent.toNat
    if scaled.isInf then none else some scaled
  else
    some (divided start so.exponent.natAbs)
where
  divided (x : Float) (places : Nat) : Float :=
    if h : places > 308 then
      if x == 0.0 then x else divided (x / Float.ofScientific 1 false 308) (places - 308)
    else
      x / Float.ofScientific 1 false places
  termination_by places
  decreasing_by omega

/-- Exponents are read in 32 bits with a sign. -/
abbrev exponentBound : Int := wordBound 31

def digitsOf (n : Nat) : List (Fin 10) :=
  (Nat.toDigits 10 n).map fun c => Fin.ofNat 10 (c.toNat - '0'.toNat)

/-- A JSON number as a double. Absent when it is too large. -/
def ofNumber? (n : Json.Number) : Option Float := do
  let so := (Scaled.takeWhole (digitsOf n.whole)).takeFraction n.fraction
  let exponent := n.exponent.getD 0
  let magnitude ←
    if exponent ≥ exponentBound then
      if so.significand = 0 then some 0.0 else none
    else if exponent ≤ -exponentBound then
      some 0.0
    else
      Scaled.toFloat? ⟨so.significand, so.exponent + exponent⟩
  return if n.negative then -magnitude else magnitude

/-! ## Decimals -/

/-- `10.0 ^ exponent` by squaring, with the roundings of each step. -/
def powerOfTen (exponent : Nat) : Float :=
  go 5 1.0 10.0 exponent
where
  go : Nat → Float → Float → Nat → Float
    | 0, result, _, _ => result
    | steps + 1, result, base, n =>
      let result := if n % 2 = 1 then result * base else result
      if n / 2 = 0 then result else go steps result (base * base) (n / 2)

/-- The double that stands for a decimal: whole part and places are converted apart, and their sum is rounded
to the places again. -/
def ofDecimal (a : Decimal) : Float :=
  let magnitude :=
    if a.scale = 0 then
      Float.ofNat a.mantissa
    else
      let power := tenPower a.scale
      let whole := Float.ofNat (a.mantissa / power)
      let part := Float.ofNat (a.mantissa % power) / Float.ofNat power
      if part == 0.0 then
        whole
      else
        let ten := powerOfTen a.scale
        ((whole + part) * ten).round / ten
  if a.negative then -magnitude else magnitude

end TradeReport.Binary64
