import TradeReport.Word
/-!
# Decimal figures

A decimal is a sign, a mantissa of 96 bits and a count of at most 28 places after the point. The
count of places belongs to the figure: `1.5` and `1.50` have the same value and are two decimals.
Equality in the sense of `=` therefore tells them apart, while the order compares values.
-/

namespace TradeReport

/-- Mantissas stay below this bound. -/
abbrev mantissaBound : Nat := wordBound 96

/-- The most places a decimal can have. -/
abbrev maxScale : Nat := 28

@[ext]
structure Decimal where
  negative : Bool
  mantissa : Nat
  scale : Nat
  mantissa_lt : mantissa < mantissaBound
  scale_le : scale ≤ maxScale
  deriving DecidableEq

namespace Decimal

/-- The decimal of the given parts, if they are in range. -/
def ofParts? (negative : Bool) (mantissa scale : Nat) : Option Decimal :=
  if h : mantissa < mantissaBound ∧ scale ≤ maxScale then
    some ⟨negative, mantissa, scale, h.1, h.2⟩
  else
    none

def zero : Decimal := ⟨false, 0, 0, by decide, by decide⟩

def one : Decimal := ⟨false, 1, 0, by decide, by decide⟩

def two : Decimal := ⟨false, 2, 0, by decide, by decide⟩

def hundred : Decimal := ⟨false, 100, 0, by decide, by decide⟩

def tenThousand : Decimal := ⟨false, 10000, 0, by decide, by decide⟩

def hundredth : Decimal := ⟨false, 1, 2, by decide, by decide⟩

def tenThousandth : Decimal := ⟨false, 1, 4, by decide, by decide⟩

instance : Inhabited Decimal := ⟨zero⟩

/-- The power of ten with `exponent` zeros, for the exponents that a mantissa can hold. -/
def tenToThe? (exponent : Nat) : Option Decimal :=
  ofParts? false (tenPower exponent) 0

/-- Counts are kept in 32 bits, so every count is a decimal. -/
def ofCount (count : Nat) : Decimal :=
  ⟨false, count % wordBound 32, 0, Nat.lt_trans (Nat.mod_lt _ (by decide)) (by decide), by decide⟩

/-- The mantissa with its sign. -/
def signed (a : Decimal) : Int :=
  if a.negative then -(a.mantissa : Int) else a.mantissa

/-- The value of a decimal as an exact fraction. -/
def toRat (a : Decimal) : Rat :=
  mkRat a.signed (tenPower a.scale)

def isZero (a : Decimal) : Bool :=
  a.mantissa == 0

/-- The mantissas of two decimals, brought to a common count of places. -/
def aligned (a b : Decimal) : Int × Int :=
  let scale := max a.scale b.scale
  (a.signed * tenPower (scale - a.scale), b.signed * tenPower (scale - b.scale))

/-- Decimals are ordered by value, whatever places they are written with. -/
def compareValue (a b : Decimal) : Ordering :=
  compare (aligned a b).1 (aligned a b).2

instance : LT Decimal := ⟨fun a b => (aligned a b).1 < (aligned a b).2⟩

instance : LE Decimal := ⟨fun a b => (aligned a b).1 ≤ (aligned a b).2⟩

instance (a b : Decimal) : Decidable (a < b) :=
  inferInstanceAs (Decidable ((aligned a b).1 < (aligned a b).2))

instance (a b : Decimal) : Decidable (a ≤ b) :=
  inferInstanceAs (Decidable ((aligned a b).1 ≤ (aligned a b).2))

/-- The larger value; of two equal values, the one on the left. -/
def larger (a b : Decimal) : Decimal :=
  if a < b then b else a

/-- A zero keeps its sign, since it has none to change. -/
def neg (a : Decimal) : Decimal :=
  if a.isZero then a else { a with negative := !a.negative }

def abs (a : Decimal) : Decimal :=
  { a with negative := false }

end Decimal

end TradeReport
