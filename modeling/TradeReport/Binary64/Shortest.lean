import TradeReport.Word
/-!
# The shortest text of a binary fraction

A finite double is `m * 2 ^ q`. The reals that read back as this double form an interval around it, whose
ends belong to it exactly when `m` is even. The text is a decimal inside that interval with as few digits as
possible: the nearest such decimal, and of two equally near ones the larger, written without an exponent.
-/

namespace TradeReport.Binary64

/-- The magnitude `numerator / denominator` with its neighbourhood: the numerators of the ends over the same
denominator, and whether the ends belong to it. -/
structure Neighbourhood where
  low : Nat
  value : Nat
  high : Nat
  denominator : Nat
  closed : Bool

/-- The neighbourhood of `m * 2 ^ q`. Below a power of two the next double is only half as far away. -/
def neighbourhood (m : Nat) (q : Int) (atPower : Bool) : Neighbourhood :=
  let up : Nat := twoPower (q - 2).toNat
  let down : Nat := twoPower (2 - q).toNat
  { low := (if atPower then 4 * m - 1 else 4 * m - 2) * up
    value := 4 * m * up
    high := (4 * m + 2) * up
    denominator := down
    closed := decide (m % 2 = 0) }

/-- The significand, the exponent and whether the significand is a power of two whose lower neighbour has a
smaller exponent. -/
def parts (bits : Nat) : Nat × Int × Bool :=
  let biased : Nat := bits / wordBound 52 % wordBound 11
  let fraction : Nat := bits % wordBound 52
  if biased = 0 then
    (fraction, -1074, false)
  else
    (wordBound 52 + fraction, (biased : Int) - 1075, fraction = 0 && biased > 1)

/-- Whether `digits * 10 ^ exponent` lies in the neighbourhood. -/
def Neighbourhood.contains (around : Neighbourhood) (digits : Nat) (exponent : Int) : Bool :=
  let point := digits * tenPower exponent.toNat * around.denominator
  let scale := tenPower (-exponent).toNat
  if around.closed then
    around.low * scale ≤ point && point ≤ around.high * scale
  else
    around.low * scale < point && point < around.high * scale

/-- The two points of the grid of `10 ^ exponent` next to the value, the lower one first, and whether the
upper one is to be preferred: it is nearer, or equally near. -/
def Neighbourhood.onGrid (around : Neighbourhood) (exponent : Int) : Nat × Nat × Bool :=
  let unit := tenPower exponent.toNat * around.denominator
  let value := around.value * tenPower (-exponent).toNat
  let below := value / unit
  (below, below + 1, decide (2 * (value % unit) ≥ unit))

/-- The number of digits before the point, negative for a magnitude below a tenth: the exponent `e` with
`10 ^ (e - 1) ≤ value < 10 ^ e`. -/
def Neighbourhood.magnitude (around : Neighbourhood) : Int :=
  let guess : Int :=
    (Nat.toDigits 10 around.value).length - ((Nat.toDigits 10 around.denominator).length : Int)
  if around.value * tenPower (-guess).toNat < around.denominator * tenPower guess.toNat then guess
  else guess + 1

/-- The point of a grid that is nearest to the value. -/
def Neighbourhood.nearestOnGrid (around : Neighbourhood) (exponent : Int) : Nat :=
  let (below, above, nearerAbove) := around.onGrid exponent
  if nearerAbove then above else below

/-- The first grid, from the coarsest, with a point in the neighbourhood. On the last grid, which is finer than
the doubles, the nearest point is always in it. -/
def shortestFrom (around : Neighbourhood) (magnitude : Int) (digits : Nat) : Nat → Nat × Int
  | 0 => (around.nearestOnGrid (magnitude - digits), magnitude - digits)
  | more + 1 =>
    let exponent := magnitude - digits
    let (below, above, _) := around.onGrid exponent
    match around.contains below exponent, around.contains above exponent with
    | true, true => (around.nearestOnGrid exponent, exponent)
    | true, false => (below, exponent)
    | false, true => (above, exponent)
    | false, false => shortestFrom around magnitude (digits + 1) more

/-- `digits * 10 ^ exponent` without an exponent, and without zeros at the end of its places. -/
def positional (digits : Nat) (exponent : Int) : List Char :=
  if exponent ≥ 0 then
    Nat.toDigits 10 (digits * tenPower exponent.toNat)
  else
    let places := (-exponent).toNat
    let text := Nat.toDigits 10 digits
    let padded := List.replicate (places + 1 - text.length) '0' ++ text
    let whole := padded.take (padded.length - places)
    let fraction := (padded.drop (padded.length - places)).reverse.dropWhile (· == '0')
    if fraction.isEmpty then whole else whole ++ '.' :: fraction.reverse

/-- The text of the magnitude of a finite double. -/
def magnitudeText (bits : Nat) : List Char :=
  let (m, q, atPower) := parts bits
  if m = 0 then
    ['0']
  else
    let around := neighbourhood m q atPower
    let (digits, exponent) := shortestFrom around around.magnitude 1 16
    positional digits exponent

/-- The text of a double. -/
def toText (x : Float) : String :=
  let bits := x.toBits.toNat
  if x.isNaN then
    "NaN"
  else
    let sign := if bits ≥ wordBound 63 then ['-'] else []
    let body := if x.isInf then "inf".toList else magnitudeText bits
    String.ofList (sign ++ body)

end TradeReport.Binary64
