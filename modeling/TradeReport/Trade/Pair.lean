import TradeReport.Calculation
import TradeReport.Table
/-!
# Trading pairs and markets

A trading pair is written as its two tokens with a dash between them. The symbol that a fill carries need not
be a pair; it is read where the tokens are needed.
-/

namespace TradeReport

abbrev Token := String

/-- Two tokens: the one that is traded, and the one that prices are given in. -/
@[ext]
structure Pair where
  base : Token
  quote : Token
  deriving DecidableEq, Repr

/-- The two sides of the first dash of a symbol. -/
def splitAtDash? (symbol : String) : Option (String × String) :=
  match symbol.toList.span (· != '-') with
  | (front, _ :: back) => some (String.ofList front, String.ofList back)
  | (_, []) => none

namespace Pair

/-- The pair that a symbol stands for: one dash, with text on both sides. Any other symbol is in the error. -/
def ofSymbol (symbol : String) : Except CalculationError Pair :=
  match splitAtDash? symbol with
  | some (base, quote) =>
    if base = "" ∨ quote = "" ∨ '-' ∈ quote.toList then throw (.invalidPair symbol) else return ⟨base, quote⟩
  | none => throw (.invalidPair symbol)

def ofSymbol? (symbol : String) : Option Pair :=
  (ofSymbol symbol).toOption

def symbol (pair : Pair) : String :=
  pair.base ++ "-" ++ pair.quote

/-- The symbol under which the price of `token` in this pair's quote is known. -/
def rateSymbol (pair : Pair) (token : Token) : String :=
  token ++ "-" ++ pair.quote

end Pair

/-- A symbol as it trades on one market. Listings are ordered by market first. -/
@[ext]
structure Listing where
  market : String
  symbol : String
  deriving DecidableEq, Repr

namespace Listing

instance : Ord Listing := ⟨compareLex (compareOn market) (compareOn symbol)⟩

instance : Std.TransOrd Listing :=
  inferInstanceAs (Std.TransCmp (compareLex (compareOn market) (compareOn symbol)))

end Listing

/-- The markets that hold no base asset: those named, and those whose name has an ending. -/
structure DerivativeMarkets where
  names : List String
  ending : Option String
  deriving Repr

namespace DerivativeMarkets

/-- An empty ending marks no market. -/
def ofNames (names : List String) (ending : Option String) : DerivativeMarkets :=
  ⟨names, ending.filter (· != "")⟩

def none : DerivativeMarkets := ofNames [] .none

def usual : DerivativeMarkets := ofNames [] (some "_perpetual")

def contains (markets : DerivativeMarkets) (market : String) : Bool :=
  markets.names.contains market
    || markets.ending.any fun ending => ending.toList.isSuffixOf market.toList

end DerivativeMarkets

end TradeReport
