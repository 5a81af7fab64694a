import TradeReport.Calendar
import TradeReport.Decimal.Text
import TradeReport.Text.Blank
import TradeReport.Trade.Pair
/-!
# Configuration

What an instance is told before it starts: what to report on, where balances and rates come from, and where
records are kept. A configuration is checked as a whole before anything uses it, and the first rule that it
breaks is what its author is told.
-/

namespace TradeReport

/-- Where the balances of a report come from: from the configuration itself, or from the balance log. -/
inductive BalanceOrigin where
  | paper
  | recorded
  deriving DecidableEq, Repr

structure ReportSettings where
  /-- The run that window reports are about. -/
  activeStrategy : Option String := none
  /-- The longest wait for balances, in milliseconds. -/
  timeout : Nat := 30000
  defaultPrecision : Option Nat := none
  maxTradesDisplay : Nat := 500
  derivativeMarkets : List String := []
  derivativeEnding : String := "_perpetual"
  balanceOrigin : BalanceOrigin := .paper
  /-- The limit of the kill switch in percent; there is no switch without one. -/
  killSwitchRate : Option Decimal := none
  /-- The seconds between two checks of the kill switch. -/
  killSwitchInterval : Nat := 10
  /-- The requests that may wait for the service. -/
  requestQueue : Nat := 64

/-- The settings of a configuration that says nothing about reports. -/
def ReportSettings.usual : ReportSettings := {}

def ReportSettings.derivatives (settings : ReportSettings) : DerivativeMarkets :=
  .ofNames settings.derivativeMarkets (some settings.derivativeEnding)

structure MetricsSettings where
  enabled : Bool := true
  bindAddress : String := "0.0.0.0:9090"

def MetricsSettings.usual : MetricsSettings := {}

structure Config where
  name : String
  logLevel : String := "info"
  report : ReportSettings := .usual
  paperBalances : Table Token Decimal := Table.empty
  /-- Rates by the symbol of their pair. -/
  rates : Table String Decimal := Table.empty
  dataFolder : String := "data"
  metrics : MetricsSettings := .usual

/-! ## Rules -/

/-- A rule that a configuration breaks. -/
inductive ConfigError where
  | emptyName
  | noTimeout
  | noTradesDisplay
  | noRequestQueue
  | precisionTooLarge (precision : Nat)
  | blankStrategy
  | killSwitchRateOutOfRange (rate : Decimal)
  | noKillSwitchInterval
  | rateWithoutPair (symbol : String)
  | rateNotPositive (symbol : String)
  | negativeBalance (token : Token)
  | emptyDataFolder
  | emptyBindAddress
  deriving DecidableEq

def ConfigError.message : ConfigError → String
  | .emptyName => "bot.name must not be empty"
  | .noTimeout => "commands_timeout_ms must be positive"
  | .noTradesDisplay => "max_trades_display must be positive"
  | .noRequestQueue => "request_queue must be positive"
  | .precisionTooLarge precision =>
    "default_precision must be at most 28, got " ++ toString precision
  | .blankStrategy => "active_strategy must not be blank"
  | .killSwitchRateOutOfRange rate =>
    "kill_switch_rate must be a percentage in (-100, 100), got " ++ rate.toText
  | .noKillSwitchInterval => "kill_switch_interval_secs must be positive"
  | .rateWithoutPair symbol => "Rate key '" ++ symbol ++ "' must be a BASE-QUOTE pair"
  | .rateNotPositive symbol => "Rate for " ++ symbol ++ " must be positive"
  | .negativeBalance token => "Paper balance for " ++ token ++ " must not be negative"
  | .emptyDataFolder => "persistence.data_dir must not be empty"
  | .emptyBindAddress => "metrics.bind_address must not be empty"

namespace Config

/-- The error of a rule that must hold. -/
def demand (holds : Bool) (error : ConfigError) : Except ConfigError Unit :=
  if holds then return else throw error

def checkKillSwitch (settings : ReportSettings) : Except ConfigError Unit :=
  match settings.killSwitchRate with
  | none => return
  | some rate => do
    demand (decide (Decimal.hundred.neg < rate ∧ rate < Decimal.hundred))
      (.killSwitchRateOutOfRange rate)
    demand (settings.killSwitchInterval > 0) .noKillSwitchInterval

def checkReport (settings : ReportSettings) : Except ConfigError Unit := do
  demand (settings.timeout > 0) .noTimeout
  demand (settings.maxTradesDisplay > 0) .noTradesDisplay
  demand (settings.requestQueue > 0) .noRequestQueue
  settings.defaultPrecision.forM fun precision =>
    demand (precision ≤ maxScale) (.precisionTooLarge precision)
  settings.activeStrategy.forM fun strategy => demand (!isBlank strategy) .blankStrategy
  checkKillSwitch settings

/-- A rate needs a symbol with text on both sides of its first dash, and it must be positive. -/
def checkRate (entry : String × Decimal) : Except ConfigError Unit := do
  let isPair := (splitAtDash? entry.1).any fun (base, quote) => base != "" && quote != ""
  demand isPair (.rateWithoutPair entry.1)
  demand (decide (Decimal.zero < entry.2)) (.rateNotPositive entry.1)

def checkBalance (entry : Token × Decimal) : Except ConfigError Unit :=
  demand (decide (Decimal.zero ≤ entry.2)) (.negativeBalance entry.1)

/-- The first rule that is broken, if there is one. -/
def check (config : Config) : Except ConfigError Unit := do
  demand (config.name != "") .emptyName
  checkReport config.report
  config.rates.entries.forM checkRate
  config.paperBalances.entries.forM checkBalance
  demand (config.dataFolder != "") .emptyDataFolder
  demand (!config.metrics.enabled || config.metrics.bindAddress != "") .emptyBindAddress

end Config

end TradeReport
