import TradeReport.Decimal.Arithmetic
import TradeReport.Text.Blank
import TradeReport.Trade.Pair
/-!
# Fills

A fill is one executed trade as a strategy run recorded it. Fills are put in order of time before anything is
computed from them; fills of one moment are ordered by price, amount and order, so that the result does not
depend on how they were listed.
-/

namespace TradeReport

inductive Side where
  | buy
  | sell
  deriving DecidableEq, Repr, Inhabited

def Side.toText : Side → String
  | .buy => "BUY"
  | .sell => "SELL"

/-- A fee of a fixed amount. -/
structure FlatFee where
  token : Token
  amount : Decimal
  deriving DecidableEq

/-- What was charged for a fill: a share of its notional, flat fees, both or neither. A negative share is a
rebate. -/
structure Fee where
  percent : Option Decimal
  percentToken : Option Token
  flat : List FlatFee
  deriving DecidableEq

def Fee.free : Fee := ⟨none, none, []⟩

structure Fill where
  market : String
  symbol : String
  strategy : String
  side : Side
  price : Decimal
  amount : Decimal
  fee : Fee
  /-- Milliseconds since the epoch. -/
  time : Int64
  order : Option String
  exchangeTrade : Option String
  deriving DecidableEq

namespace Fill

/-- The value of a fill in quote units. -/
def notional (fill : Fill) : Except Overflow Decimal :=
  fill.price.mul fill.amount

/-- Known both to a market and to a strategy run. -/
def isResolvable (fill : Fill) : Bool :=
  !isBlank fill.market && !isBlank fill.strategy

def listing (fill : Fill) : Listing :=
  ⟨fill.market, fill.symbol⟩

def compareTime (a b : Fill) : Ordering :=
  compare a.time.toInt b.time.toInt

/-- By time, then price, then amount, then order. A fill without an order comes before one with any. -/
def compareChronology (a b : Fill) : Ordering :=
  (compareTime a b).then <|
    (a.price.compareValue b.price).then <|
      (a.amount.compareValue b.amount).then <| compare a.order b.order

end Fill

/-- Items in the order of their fills: by time, each group of one moment by price, amount and order. What
ties in all of these keeps its place. -/
def chronologicalBy (fillOf : α → Fill) (items : List α) : List α :=
  items.mergeSort fun a b => ((fillOf a).compareChronology (fillOf b)).isLE

def chronological (fills : List Fill) : List Fill :=
  chronologicalBy id fills

/-- The last of the fills with the latest time. -/
def latestFill? (fills : List Fill) : Option Fill :=
  fills.foldl
    (fun latest fill =>
      match latest with
      | none => some fill
      | some latest => if latest.time.toInt ≤ fill.time.toInt then some fill else some latest)
    none

end TradeReport
