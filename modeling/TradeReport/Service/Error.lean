import TradeReport.Performance
import TradeReport.Calendar
import TradeReport.Fault
/-!
# Why there is no report

Nothing to report, balances that come too late or not at all, a log that cannot be read, and figures that
cannot be computed are kept apart, so that a caller never takes one for a return of zero.
-/

namespace TradeReport

inductive ReportError where
  | noActiveStrategy
  | noTrades
  /-- The limit is in nanoseconds. -/
  | networkTimeout (market : String) (limit : Nanoseconds)
  | balanceUnavailable (market : String) (cause : Fault)
  | source (cause : Fault)
  | emptyScope
  | invalidPair (symbol : String)
  | serviceStopped
  deriving DecidableEq, Repr

namespace ReportError

def message : ReportError → String
  | .noActiveStrategy => "No strategy is active; import a strategy config to report on"
  | .noTrades => "No past trades to report"
  | .networkTimeout market limit =>
    "Balance retrieval for " ++ market ++ " timed out after " ++ spanText limit
  | .balanceUnavailable market _ => "Balances for " ++ market ++ " are unavailable"
  | .source _ => "Trade record source failed"
  | .emptyScope => CalculationError.emptyScope.message
  | .invalidPair symbol => (CalculationError.invalidPair symbol).message
  | .serviceStopped => "Report service has stopped"

/-- The label under which failures are counted. -/
def reason : ReportError → String
  | .noActiveStrategy => "no_active_strategy"
  | .noTrades => "no_trades"
  | .networkTimeout _ _ => "network_timeout"
  | .balanceUnavailable _ _ => "balance_unavailable"
  | .source _ => "source"
  | .emptyScope | .invalidPair _ => "analytics"
  | .serviceStopped => "service_stopped"

def isTimeout : ReportError → Bool
  | .networkTimeout _ _ => true
  | _ => false

def cause? : ReportError → Option Fault
  | .balanceUnavailable _ cause | .source cause => some cause
  | _ => none

/-- The error with everything that caused it. -/
def toFault (error : ReportError) : Fault :=
  match error.cause? with
  | none => .ofMessage error.message
  | some cause => cause.within error.message

end ReportError

end TradeReport
