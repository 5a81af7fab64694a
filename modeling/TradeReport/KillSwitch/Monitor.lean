import TradeReport.KillSwitch
import TradeReport.Service
/-!
# The monitor of a kill switch

A monitor checks the profitability of a run at the start and then at every interval, until the switch fires or
the monitor is told to stop. A check that takes longer than an interval is followed at once by the next one,
so that none is left out. A check that has begun is finished, even when the monitor is told to stop meanwhile.
-/

namespace TradeReport

/-- When checks are due, in milliseconds from the start. -/
structure Schedule where
  interval : Nat
  shutdown : Nat
  interval_pos : 0 < interval

namespace Schedule

/-- The most checks that can begin before the shutdown. -/
def checks (schedule : Schedule) : Nat :=
  (schedule.shutdown + schedule.interval - 1) / schedule.interval

end Schedule

structure Monitor where
  killSwitch : KillSwitch
  scope : Option String
  start : Int
  schedule : Schedule

namespace Monitor

/-- Checks one after the other, beginning with the one of the given number, until one fires: the averaged
return that it fired on. `wait` leads to the moment of a check, unless the shutdown comes first. -/
def watch (killSwitch : KillSwitch) (wait : Nat → s → Option s) (check : StateM s Profitability)
    (number : Nat) : Nat → StateM s (Option Decimal)
  | 0 => return none
  | left + 1 => do
    match wait number (← get) with
    | none => return none
    | some atCheck =>
      set atCheck
      match killSwitch.evaluate (← check) with
      | .trigger averageReturn => return some averageReturn
      | .proceed _ | .unknown _ => watch killSwitch wait check (number + 1) left

/-- The moment of a check is the one it is due at, or the present when that has passed. -/
def waitUntil (schedule : Schedule) (begun : Nat) (number : Nat) (service : Service σ) :
    Option (Service σ) :=
  let moment := max (begun + number * schedule.interval) service.elapsed.clock
  if moment < begun + schedule.shutdown then
    some { service with elapsed.clock := moment }
  else
    none

/-- Watches until the switch fires or the shutdown. That it fires is told once. -/
def keepWatch (killSwitch : KillSwitch) (wait : Nat → Service σ → Option (Service σ))
    (check : StateM (Service σ) Profitability) (checks : Nat) : StateM (Service σ) (Option Decimal) := do
  let fired ← watch killSwitch wait check 0 checks
  if fired.isSome then
    modify (Service.tell [.killSwitchFired])
  return fired

/-- The checks of a monitor are requests to the service. -/
def run (monitor : Monitor) (market : Market σ) : StateM (Service σ) (Option Decimal) := do
  let begun := (← get).elapsed.clock
  keepWatch monitor.killSwitch (waitUntil monitor.schedule begun)
    (Service.submit market (.profitability monitor.scope monitor.start)) monitor.schedule.checks

end Monitor

end TradeReport
