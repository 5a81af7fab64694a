import TradeReport.Config
import TradeReport.Fault
import TradeReport.Store.Disk
import TradeReport.Toml.Reader
import TradeReport.Toml.Reading
import TradeReport.Trade.Record
/-!
# Reading a configuration

A configuration is written as settings. What is left out has a default, apart from the name; what is not known
is passed over; and a value of another kind than its setting is an error. A group of settings may also be given
as the list of its values.
-/

namespace TradeReport

open Toml (Body Flaw Item Reading)
open Toml.Reading (choice list natural text truth)

/-- Decimals are texts or numbers, and a number with a point is read by its text. -/
def Decimal.ofItem (item : Item) : Reading Decimal :=
  let kind := "a Decimal type representing a fixed-point number"
  let read (decimal : Option Decimal) : Reading Decimal :=
    match decimal with
    | some decimal => return decimal
    | none => Toml.Reading.wrongValue kind item
  match item with
  | .scalar _ (.text s) => read (Decimal.ofText? s)
  | .scalar _ (.whole n) => read (Decimal.ofWhole? n)
  | .scalar _ (.double x) => read (Decimal.ofText? (Binary64.toText x))
  | _ => Toml.Reading.wrongKind kind item

def BalanceOrigin.ofItem : Item → Reading BalanceOrigin :=
  choice [("paper", .paper), ("recorded", .recorded)]

/-! ## Groups -/

def ReportSettings.group : Toml.Reading.Group ReportSettings where
  title := "struct AnalyticsConfig"
  settings :=
    [ ("active_strategy", fun item settings => do
        return { settings with activeStrategy := some (← text item) }),
      ("commands_timeout_ms", fun item settings => do
        return { settings with timeout := ← natural 64 "u64" item }),
      ("default_precision", fun item settings => do
        return { settings with defaultPrecision := some (← natural 32 "u32" item) }),
      ("max_trades_display", fun item settings => do
        return { settings with maxTradesDisplay := ← natural 64 "usize" item }),
      ("derivative_markets", fun item settings => do
        return { settings with derivativeMarkets := ← list text item }),
      ("derivative_suffix", fun item settings => do
        return { settings with derivativeEnding := ← text item }),
      ("balance_source", fun item settings => do
        return { settings with balanceOrigin := ← BalanceOrigin.ofItem item }),
      ("kill_switch_rate", fun item settings => do
        return { settings with killSwitchRate := some (← Decimal.ofItem item) }),
      ("kill_switch_interval_secs", fun item settings => do
        return { settings with killSwitchInterval := ← natural 64 "u64" item }),
      ("request_queue", fun item settings => do
        return { settings with requestQueue := ← natural 64 "usize" item }) ]

def MetricsSettings.group : Toml.Reading.Group MetricsSettings where
  title := "struct MetricsConfig"
  settings :=
    [ ("enabled", fun item settings => do return { settings with enabled := ← truth item }),
      ("bind_address", fun item settings => do return { settings with bindAddress := ← text item }) ]

/-- The name of an instance, once it is known, and its level of logging. -/
structure Identity where
  name : Option String
  logLevel : String

def Identity.group : Toml.Reading.Group Identity where
  title := "struct BotConfig"
  settings :=
    [ ("name", fun item identity => do return { identity with name := some (← text item) }),
      ("log_level", fun item identity => do return { identity with logLevel := ← text item }) ]

/-- The name and the level of logging. The name must be there; it is the first of a list. -/
def Identity.ofItem (item : Item) : Reading (String × String) := do
  let identity ← Identity.group.read ⟨none, "info"⟩ item
  match identity.name, item with
  | some name, _ => return (name, identity.logLevel)
  | none, .list span _ => throw ⟨some span, .tooFew 0 "struct BotConfig with 2 elements"⟩
  | none, item => throw ⟨item.span?, .missing "name"⟩

def dataFolderGroup : Toml.Reading.Group String where
  title := "struct PersistenceConfig"
  settings := [("data_dir", fun item _ => text item)]

namespace Config

def decimals (item : Item) : Reading (Table String Decimal) :=
  Table.ofList <$> Toml.Reading.table Decimal.ofItem item

/-- What is known of a configuration: all but its name, which it may still lack. -/
structure Draft where
  identity : Option (String × String)
  rest : Config

def group : Toml.Reading.Group Draft where
  title := "struct AppConfig"
  settings :=
    [ ("bot", fun item draft => do return { draft with identity := some (← Identity.ofItem item) }),
      ("analytics", fun item draft => do
        return { draft with rest.report := ← ReportSettings.group.read .usual item }),
      ("paper_balances", fun item draft => do
        return { draft with rest.paperBalances := ← decimals item }),
      ("rates", fun item draft => do return { draft with rest.rates := ← decimals item }),
      ("persistence", fun item draft => do
        return { draft with rest.dataFolder := ← dataFolderGroup.read "data" item }),
      ("metrics", fun item draft => do
        return { draft with rest.metrics := ← MetricsSettings.group.read .usual item }) ]

def ofBody (body : Body) : Reading Config :=
  Toml.Reading.locate body.span do
    let draft ← group.ofMembers ⟨none, { name := "" }⟩ body.members
    match draft.identity with
    | some (name, logLevel) => return { draft.rest with name, logLevel }
    | none => throw ⟨none, .missing "bot"⟩

/-- What a text sets, or the first flaw of the text. -/
def settingsOf (text : List Char) : Except Flaw Config := do
  (ofBody (← Toml.read text)).mapError Toml.Mismatch.flaw

/-- The configuration that a text describes, if it keeps all rules. -/
def ofText (text : List Char) : Except Fault Config := do
  let config ← (settingsOf text).mapError fun flaw =>
    (Fault.ofMessage (flaw.report text)).within "Failed to parse config.toml"
  config.check.mapError fun error => Fault.ofMessage error.message
  return config

/-- The configuration in a file. -/
def load (disk : Disk) (path : String) : Except Fault Config := do
  let text ← (disk.read path).mapError fun cause =>
    (Fault.ofMessage cause.message).within ("Failed to read config file: " ++ path)
  ofText text

end Config

end TradeReport
