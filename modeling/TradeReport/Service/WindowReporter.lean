import TradeReport.Report
import TradeReport.Service.Error
import TradeReport.Source
/-!
# The window report

The fills of one run since some time, grouped by listing and valued at the present. Balances are fetched
for one group after the other, in the order of the listings. The first group that cannot be resolved decides
the outcome; there is no partial report.
-/

namespace TradeReport

/-- Why a request has no answer of its own: an error to report, or an overflow that no caller handles. -/
inductive Interruption where
  | error (error : ReportError)
  | overflow (cause : Overflow)
  deriving DecidableEq

def Interruption.ofCalculation : CalculationError → Interruption
  | .emptyScope => .error .emptyScope
  | .invalidPair symbol => .error (.invalidPair symbol)
  | .overflow cause => .overflow cause

/-- What a request is answered from. -/
structure Market (σ : Type) where
  source : TradeSource
  oracle : Oracle
  balances : BalanceSource σ
  derivatives : DerivativeMarkets
  /-- The longest wait for balances, in milliseconds. -/
  timeout : Nat
  /-- The time of the request. -/
  now : Int

/-- The milliseconds that have passed beside the state of the balance source. -/
structure Elapsed (σ : Type) where
  state : σ
  clock : Nat

/-- Answering a request takes time and may be interrupted. -/
abbrev Reporting (σ : Type) := ExceptT Interruption (StateM (Elapsed σ))

namespace Reporting

def fail (error : ReportError) : Reporting σ α :=
  throw (.error error)

def ofSource (result : Except Fault α) : Reporting σ α :=
  match result with
  | .ok a => pure a
  | .error cause => fail (.source cause)

def ofArithmetic (result : Except Overflow α) : Reporting σ α :=
  match result with
  | .ok a => pure a
  | .error cause => throw (.overflow cause)

def ofCalculation (result : Except CalculationError α) : Reporting σ α :=
  match result with
  | .ok a => pure a
  | .error cause => throw (.ofCalculation cause)

/-- The result of a request with an error of its own kind inside it. An overflow stays outside. -/
def settled (action : Reporting σ α) : StateM (Elapsed σ) (Except Overflow (Except ReportError α)) := do
  match ← action.run with
  | .ok a => return .ok (.ok a)
  | .error (.error error) => return .ok (.error error)
  | .error (.overflow cause) => return .error cause

end Reporting

/-- The groups of a list of fills, by listing. Fills of nobody are left out. -/
def groupByListing (fills : List Fill) : Table Listing (List Fill) :=
  Table.group Fill.listing (fills.filter Fill.isResolvable)

namespace Market

/-- What a balance source answers within the limit. An answer that comes with the limit is in time. -/
def fetch (market : Market σ) (name : String) : Reporting σ Snapshot := do
  let elapsed ← get
  let (reply, state) := (market.balances name).run elapsed.state
  set (Elapsed.mk state (elapsed.clock + min reply.delay market.timeout))
  if reply.delay > market.timeout then
    Reporting.fail (.networkTimeout name (market.timeout * nanosPerMilli))
  else
    match reply.outcome with
    | .ok holdings => pure holdings
    | .error cause => Reporting.fail (.balanceUnavailable name cause)

/-- The rates of the fee tokens that have one. -/
def feeRates (oracle : Oracle) (pair : Pair) (tokens : List Token) : Table Token Decimal :=
  Table.ofList (tokens.filterMap fun token =>
    (oracle (pair.rateSymbol token)).map fun rate => (token, rate))

/-- The price of the symbol, and the rates of the tokens that fees were paid in. -/
def pricing (market : Market σ) (symbol : String) (fills : List Fill) :
    Except CalculationError Pricing := do
  let pair ← Pair.ofSymbol symbol
  let ledger ← FeeLedger.ofFills pair fills
  return ⟨market.oracle symbol, feeRates market.oracle pair (ledger.foreignTokens pair)⟩

/-- The entry of one group. -/
def resolve (market : Market σ) (start : Int) (group : Listing × List Fill) :
    Reporting σ Performance := do
  let (listing, fills) := group
  let holdings ← market.fetch listing.market
  let pricing ← Reporting.ofCalculation (market.pricing listing.symbol fills)
  Reporting.ofCalculation
    (Performance.calculate market.derivatives listing fills holdings (Int64.ofInt start) pricing)

/-- The report on a run since `start`. -/
def windowReport (market : Market σ) (scope : Option String) (start : Int) :
    Reporting σ WindowReport := do
  match scope with
  | none => Reporting.fail .noActiveStrategy
  | some scope =>
    let fills ← Reporting.ofSource (market.source.tradesSince start (some scope) none)
    let groups := groupByListing fills
    if groups.isEmpty then
      Reporting.fail .noTrades
    else
      let entries ← groups.entries.mapM (market.resolve start)
      Reporting.ofArithmetic (WindowReport.ofMarkets ⟨start, market.now⟩ entries)

/-- The averaged return of a run since `start`. -/
def profitability (market : Market σ) (scope : Option String) (start : Int) :
    Reporting σ Figure := do
  return (← market.windowReport scope start).averageReturn

/-- At most `maxRows` of the newest fills. -/
def RecentTrades.ofNewest (maxRows : Nat) (fills : List Fill) : RecentTrades :=
  ⟨fills.take maxRows, fills.length > maxRows⟩

/-- The most rows that are counted. -/
abbrev mostRows : Nat := wordBound 64 - 1

/-- The newest fills of a run since `start`. One more than shown is asked for, as far as rows are counted, to know
whether there are more. -/
def recentTrades (market : Market σ) (scope : Option String) (start : Int) (maxRows : Nat) :
    Reporting σ RecentTrades := do
  match scope with
  | none => Reporting.fail .noActiveStrategy
  | some scope =>
    let fills ← Reporting.ofSource (market.source.tradesSince start (some scope) (some (min (maxRows + 1) mostRows)))
    return RecentTrades.ofNewest maxRows fills

end Market

end TradeReport
