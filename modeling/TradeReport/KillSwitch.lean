import TradeReport.Service.Error
/-!
# The kill switch

A limit on the averaged return of a run. A return at the limit or below it fires the switch. Without a return
nothing can be told, and the switch never takes that for a return of zero.
-/

namespace TradeReport

/-- What is known of the profitability of a run: its averaged return, absent when no market has one, or the
error that kept it from being computed. -/
abbrev Profitability := Except ReportError Figure

inductive Decision where
  | proceed (averageReturn : Decimal)
  | trigger (averageReturn : Decimal)
  | unknown (reason : String)
  deriving DecidableEq

structure KillSwitch where
  /-- The limit as a ratio. -/
  limit : Decimal
  deriving DecidableEq

namespace KillSwitch

/-- The switch with a limit in percent. A hundredth of a decimal always exists, so the default is never
used. -/
def ofPercent (percent : Decimal) : KillSwitch :=
  ⟨(percent.ratio? .hundred).getD .zero⟩

/-- Why nothing can be told. A late balance is set apart from the other errors. -/
def unknownReason : Option ReportError → String
  | none => "no market has a defined return"
  | some error =>
    if error.isTimeout then "profitability unknown: " ++ error.message else error.message

def evaluate (killSwitch : KillSwitch) : Profitability → Decision
  | .ok (some averageReturn) =>
    if averageReturn ≤ killSwitch.limit then .trigger averageReturn else .proceed averageReturn
  | .ok none => .unknown (unknownReason none)
  | .error error => .unknown (unknownReason (some error))

end KillSwitch

end TradeReport
