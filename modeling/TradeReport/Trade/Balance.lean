import TradeReport.Decimal.Text
import TradeReport.Table
import TradeReport.Trade.Pair
/-!
# Balances

A snapshot is what one market holds at the time of a report. A strategy run records the two totals of its
pair now and then; the earliest and the latest of them bound the run.
-/

namespace TradeReport

/-- Holdings by token. -/
abbrev Snapshot := Table Token Decimal

/-- A token that is not listed is not held. -/
def Snapshot.held (snapshot : Snapshot) (token : Token) : Decimal :=
  (snapshot.get? token).getD .zero

/-- The totals that a run recorded at one time. -/
structure RecordedBalance where
  strategy : String
  base : Decimal
  quote : Decimal
  /-- Milliseconds since the epoch. -/
  time : Int64
  deriving DecidableEq

/-- The totals under the tokens of a pair. When both tokens are one, it holds the quote total. -/
def RecordedBalance.toSnapshot (balance : RecordedBalance) (pair : Pair) : Snapshot :=
  Table.ofList [(pair.base, balance.base), (pair.quote, balance.quote)]

/-- The first and the last record of a run. -/
structure BalanceBounds where
  earliest : RecordedBalance
  latest : RecordedBalance
  deriving DecidableEq

/-- The bounds of a list that is in order of time. -/
def BalanceBounds.ofOrdered? (balances : List RecordedBalance) : Option BalanceBounds := do
  return ⟨← balances.head?, ← balances.getLast?⟩

end TradeReport
