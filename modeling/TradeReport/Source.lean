import TradeReport.Performance
import TradeReport.Store
/-!
# What a report draws on

A report asks three parties: the trade log, a source of balances and an oracle for prices. Each is described
here by its answers, with the ones that need no live exchange: fixed balances and rates, and those drawn from
the store.
-/

namespace TradeReport

/-! ## Recorded trades -/

/-- The questions that reports ask about recorded trades. -/
structure TradeSource where
  tradesSince : Int → Option String → Option Nat → Except Fault (List Fill)
  allTrades : Except Fault (List Fill)
  distinctStrategies : Except Fault (List String)
  distinctMarkets : Except Fault (List String)
  strategiesByMarket : Except Fault (Table String (List String))
  balanceBounds : String → Except Fault (Option BalanceBounds)

def Store.source (store : Store) : TradeSource :=
  { tradesSince := store.tradesSince
    allTrades := store.allTrades
    distinctStrategies := store.distinctStrategies
    distinctMarkets := store.distinctMarkets
    strategiesByMarket := store.strategiesByMarket
    balanceBounds := store.balanceBounds }

/-! ## Prices -/

/-- The current price of a symbol, if it is known. -/
abbrev Oracle := String → Figure

namespace Oracle

def none : Oracle := fun _ => .none

/-- A rate of its own, or one over the rate of the reversed symbol. -/
def ofRates (rates : Table String Decimal) : Oracle := fun symbol =>
  match rates.get? symbol with
  | some rate => some rate
  | .none =>
    match splitAtDash? symbol with
    | .none => .none
    | some (front, back) => (rates.get? (back ++ "-" ++ front)).bind Decimal.one.ratio?

/-- The price of the latest fill of the symbol, on any market and by any run. A log that cannot be read tells
no price. -/
def ofLastFill (source : TradeSource) : Oracle := fun symbol =>
  match source.allTrades with
  | .error _ => .none
  | .ok fills => (latestFill? (fills.filter (·.symbol == symbol))).map (·.price)

/-- The second oracle is asked when the first knows no price. -/
def orElse (first second : Oracle) : Oracle := fun symbol =>
  (first symbol).orElse fun _ => second symbol

end Oracle

/-! ## Balances -/

/-- The answer of a balance source, and the milliseconds until it comes. -/
structure BalanceReply where
  delay : Nat
  outcome : Except Fault Snapshot

/-- What one market holds, asked of a source that may change as it is asked. -/
abbrev BalanceSource (σ : Type) := String → StateM σ BalanceReply

namespace BalanceSource

/-- The same holdings on every market. -/
def paper (holdings : Snapshot) : BalanceSource σ := fun _ =>
  return ⟨0, .ok holdings⟩

/-- The last recorded balance of a run, under the tokens of its latest fill on the market. -/
def recordedHoldings (store : Store) (strategy market : String) : Except Fault Snapshot := do
  let fills ← store.tradesSince 0 (some strategy) none
  match latestFill? (fills.filter (·.market == market)) with
  | none => return Table.empty
  | some fill =>
    let pair ← (Pair.ofSymbol fill.symbol).mapError fun error =>
      (Fault.ofMessage error.message).within ("Recorded fill on " ++ market ++ " has an invalid symbol")
    match ← store.latestBalance strategy with
    | none => return Table.empty
    | some balance => return balance.toSnapshot pair

def recorded (store : Store) (strategy : String) : BalanceSource σ := fun market =>
  return ⟨0, recordedHoldings store strategy market⟩

end BalanceSource

end TradeReport
