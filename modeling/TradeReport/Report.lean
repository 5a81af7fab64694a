import TradeReport.Calendar
import TradeReport.Fault
import TradeReport.Portfolio
/-!
# Reports

The window report has one entry for each listing that a run traded on since some time. The aggregated report
has one row for each run over its whole history; it can fail, and its failure is a value like any other.
-/

namespace TradeReport

/-- The times that a report covers, in milliseconds. -/
structure Window where
  start : Int
  current : Int
  deriving DecidableEq, Repr

def Window.duration (window : Window) : Int :=
  window.current - window.start

/-- The start of a window that goes back by some days from the present. Without days it is the given start of
the session. Days that lead to no date lead to the epoch. -/
def Window.startBack (days : Float) (session current : Int) : Int :=
  if days > 0 then
    let start := current - (days * 86400000).toInt64.toInt
    if start < earliestTime then 0 else start
  else
    session

structure WindowReport where
  window : Window
  markets : List Performance
  averageReturn : Figure
  deriving DecidableEq

namespace WindowReport

def entryListing (entry : Performance) : Listing :=
  ⟨entry.market, entry.pair.symbol⟩

/-- The entries in the order of their listings, and the mean of the returns that are defined. -/
def ofMarkets (window : Window) (entries : List Performance) : Except Overflow WindowReport := do
  let markets := entries.mergeSort fun a b => (compare (entryListing a) (entryListing b)).isLE
  let averageReturn ← Decimal.mean? (markets.filterMap (·.returnRatio))
  return ⟨window, markets, averageReturn⟩

/-- An average is worth showing for several entries only. -/
def showsAverage (report : WindowReport) : Bool :=
  report.markets.length > 1

end WindowReport

/-- The newest fills of a run, newest first, and whether there are more. -/
structure RecentTrades where
  trades : List Fill
  truncated : Bool
  deriving DecidableEq

structure AggregatedReport where
  window : Window
  rows : List PortfolioRow
  strategies : List String
  markets : List String
  strategiesByMarket : Table String (List String)

/-- What a reader of a failed report sees. -/
structure ReportFailure where
  error : String
  trace : Option String
  deriving DecidableEq, Repr

namespace ReportFailure

def noHistoricalData : ReportFailure :=
  { error := "No strategy config files found in trade history or no unique exchanges or no grouped "
      ++ "config files."
    trace := none }

def ofFault (fault : Fault) : ReportFailure :=
  ⟨fault.message, some fault.trace⟩

end ReportFailure

inductive FullReport where
  | aggregated (report : AggregatedReport)
  | failed (failure : ReportFailure)

def FullReport.isFailure : FullReport → Bool
  | .aggregated _ => false
  | .failed _ => true

end TradeReport
