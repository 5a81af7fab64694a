import TradeReport.Calendar
import TradeReport.Decimal.Display
/-!
# Activity

What a service and a monitor tell about their work, in the order in which it happens. Counters and gauges
follow from this record alone.
-/

namespace TradeReport

inductive ReportKind where
  | window
  | full
  | profitability
  | recentTrades
  deriving DecidableEq, Repr

def ReportKind.label : ReportKind → String
  | .window => "window"
  | .full => "full"
  | .profitability => "profitability"
  | .recentTrades => "recent_trades"

inductive Activity where
  | completed (kind : ReportKind) (latency : Nanoseconds)
  | failed (kind : ReportKind) (reason : String)
  /-- The latest reading of a run; an absent one clears what was read before. -/
  | averageReturn (scope : String) (reading : Figure)
  | killSwitchFired
  deriving DecidableEq

end TradeReport
