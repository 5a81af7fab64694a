import TradeReport.Decimal.Text
/-!
# Figures as a reader sees them

Ratios whose denominator vanishes are absent, never zero, and an absent figure is shown by a mark of its
own. Figures are shortened for display by their magnitude, percentages always have two places.
-/

namespace TradeReport

/-- The mark of an absent figure. -/
def notAvailable : String := "N/A"

/-- A figure that may be absent. -/
abbrev Figure := Option Decimal

namespace Decimal

/-- `numerator / denominator`; absent when the denominator is zero or the quotient overflows. -/
def ratio? (numerator denominator : Decimal) : Figure :=
  div? numerator denominator

/-- The arithmetic mean, absent for no values. -/
def mean? (values : List Decimal) : Except Overflow Figure := do
  return ratio? (← sum values) (ofCount values.length)

/-! ## Bands of magnitude -/

/-- A band of magnitudes between two bounds, both of them outside, and the places shown inside it. -/
structure Band where
  above : Decimal
  below : Decimal
  places : Nat

/-- The bands from the largest figures to the smallest. A figure in none of them, such as one on a bound, is
shown without places. -/
def bands : List Band :=
  [ ⟨hundred, tenThousand, 1⟩, ⟨one, hundred, 2⟩, ⟨hundredth, one, 4⟩, ⟨tenThousandth, hundredth, 5⟩,
    ⟨zero, tenThousandth, 8⟩ ]

/-- The places shown for a figure of the given magnitude. -/
def bandPlaces (magnitude : Decimal) : Nat :=
  match bands.find? fun band => band.above < magnitude ∧ magnitude < band.below with
  | some band => band.places
  | none => 0

/-- A figure for display: rounded to the even neighbour when a precision is given, and otherwise cut off
where its band ends. -/
def smartRound (precision : Option Nat) (value : Decimal) : Decimal :=
  match precision with
  | some places => value.roundTo .halfEven places
  | none => value.roundTo .truncate (bandPlaces value.abs)

/-! ## Texts of figures -/

/-- The written decimal with at least two places. -/
def withTwoPlaces (a : Decimal) : List Char :=
  let body := pointed a.mantissa a.scale
  let padded :=
    match a.scale with
    | 0 => body ++ ['.', '0', '0']
    | 1 => body ++ ['0']
    | _ => body
  if a.negative then '-' :: padded else padded

/-- A ratio as a percentage with two places. -/
def percentText (ratio : Decimal) : Except Overflow String := do
  let percentage ← ratio.mul hundred
  return String.ofList ((percentage.roundTo .halfEven 2).withTwoPlaces ++ ['%'])

end Decimal

namespace Figure

def toText (figure : Figure) : String :=
  figure.elim notAvailable Decimal.toText

def roundedText (precision : Option Nat) (figure : Figure) : String :=
  toText (figure.map (Decimal.smartRound precision))

def percentText (figure : Figure) : Except Overflow String :=
  figure.elim (pure notAvailable) Decimal.percentText

end Figure

end TradeReport
