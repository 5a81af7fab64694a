import TradeReport.Config.Reader
import TradeReport.Http.Server
import TradeReport.KillSwitch.Monitor
import TradeReport.Report.Layout
/-!
# Instances

A configuration with its store opened is an instance: it knows where balances and rates come from, and what it
reports on. An instance makes a single report, or serves reports under the watch of a kill switch.
-/

namespace TradeReport

structure Instance where
  config : Config
  store : Store

namespace Instance

/-- The store is opened where the configuration says. -/
def ofConfig (disk : Disk) (config : Config) : Except Fault Instance := do
  let store ← (Store.openIn disk config.dataFolder).mapError
    (Fault.within "Failed to open trade store")
  return ⟨config, store⟩

/-- The instance of a configuration file. -/
def load (disk : Disk) (path : String) : Except Fault Instance := do
  let config ← (Config.load disk path).mapError (Fault.within "Failed to load configuration")
  ofConfig disk config

/-- Rates of the configuration come first, then the last prices of the log. -/
def oracle (self : Instance) : Oracle :=
  (Oracle.ofRates self.config.rates).orElse (Oracle.ofLastFill self.store.source)

def balances (self : Instance) : BalanceSource Unit :=
  match self.config.report.balanceOrigin with
  | .paper => .paper self.config.paperBalances
  | .recorded => .recorded self.store (self.config.report.activeStrategy.getD "")

/-- What requests at the present time are answered from. -/
def market (self : Instance) (now : Int) : Market Unit :=
  { source := self.store.source
    oracle := self.oracle
    balances := self.balances
    derivatives := self.config.report.derivatives
    timeout := self.config.report.timeout
    now }

/-! ## Single reports -/

/-- What a run of the program leads to: its exit code, what it printed, and the fault that it ended with. -/
structure Outcome where
  exitCode : Nat
  output : List String
  fault : Option Fault

namespace Outcome

def ofOutput (output : List String) : Outcome := ⟨0, output, none⟩

/-- A fault that the program tells before it ends. What was printed before stays. -/
def ofFault (output : List String) (fault : Fault) : Outcome := ⟨1, output, some fault⟩

/-- A figure that cannot be shown breaks the program off. -/
def brokenOff (output : List String) : Outcome := ⟨101, output, none⟩

end Outcome

/-- The window report of the active run, and its newest trades if they are asked for. That there is nothing to
report is no fault. -/
def history (self : Instance) (now : Int) (days : Float) (precision : Option Nat)
    (verbose : Bool) : StateM (Service Unit) Outcome := do
  let settings := self.config.report
  let start := Window.startBack days 0 now
  match ← Service.submit (self.market now) (.window settings.activeStrategy start) with
  | .error .noActiveStrategy => return .ofOutput [ReportError.noActiveStrategy.message]
  | .error .noTrades => return .ofOutput [ReportError.noTrades.message]
  | .error error => return .ofFault [] (error.toFault.within "Window report failed")
  | .ok report =>
    match report.layout (precision.or settings.defaultPrecision) with
    | .error _ => return .brokenOff []
    | .ok text =>
      if verbose then
        let request := Request.recentTrades settings.activeStrategy start settings.maxTradesDisplay
        match ← Service.submit (self.market now) request with
        | .error error =>
          return .ofFault [text] (error.toFault.within "Failed to list recent trades")
        | .ok recent => return .ofOutput [text, "", recent.layout]
      else
        return .ofOutput [text]

/-- The full report as a document. A failed report is a document too. -/
def fullReport (self : Instance) (now : Int) (days : Float) :
    StateM (Service Unit) Outcome := do
  let start := Window.startBack days 0 now
  let report ← Service.submit (self.market now) (.full start)
  match report.toJson with
  | .error _ => return .brokenOff []
  | .ok document => return .ofOutput [document.indented]

/-! ## Serving -/

/-- The routes of an instance that began to serve at some time. -/
def server (self : Instance) (begun : Int) : Http.Server :=
  { scope := self.config.report.activeStrategy
    sessionStart := begun
    defaultPrecision := self.config.report.defaultPrecision
    maxTradesDisplay := self.config.report.maxTradesDisplay
    showsMetrics := self.config.metrics.enabled }

/-- The kill switch, if the configuration sets a limit. -/
def killSwitch? (self : Instance) : Option KillSwitch :=
  self.config.report.killSwitchRate.map KillSwitch.ofPercent

end Instance

end TradeReport
