import TradeReport.Performance
/-!
# Portfolio rows

One row sums up the whole recorded history of a strategy run. Its balances come from the balance log, so a row
needs no live market, and everything is valued at the price of the run's last fill.
-/

namespace TradeReport

/-- The balances of a run at its bounds; all absent when none were recorded. -/
structure RunBalances where
  startBase : Figure
  startQuote : Figure
  currentBase : Figure
  currentQuote : Figure
  deriving DecidableEq

def RunBalances.ofBounds : Option BalanceBounds → RunBalances
  | none => ⟨none, none, none, none⟩
  | some bounds =>
    ⟨some bounds.earliest.base, some bounds.earliest.quote, some bounds.latest.base,
      some bounds.latest.quote⟩

structure PortfolioRow where
  strategy : String
  market : String
  pair : Pair
  turnover : Turnover
  /-- Plain means of the prices of each side. -/
  averagePrice : Averages
  balances : RunBalances
  holdValue : Figure
  currentValue : Figure
  tradePnl : Figure
  feesPaid : Decimal
  totalPnl : Figure
  returnRatio : Figure
  holdings : Decimal
  averageCostBasis : Figure
  unrealizedPnl : Figure
  realizedPnl : Decimal
  netPnl : Decimal
  effectiveSellBuyPrice : Figure
  reentryQuote : Figure
  retracementTrigger : Figure
  latestPrice : Decimal
  latestBuyPrice : Figure
  peakPrice : Decimal
  deriving DecidableEq

namespace PortfolioRow

/-- The sums and marks over the fills of a run up to some fill. -/
structure Progress where
  turnover : Turnover
  feesPaid : Decimal
  peakPrice : Decimal
  latestBuyPrice : Figure

def Progress.add (quote : Token) (progress : Progress) (fill : Fill) : Except Overflow Progress := do
  let turnover ← progress.turnover.add fill
  let feesPaid ← progress.feesPaid.add (← fill.feeInQuote quote)
  return {
    turnover, feesPaid
    peakPrice := progress.peakPrice.larger fill.price
    latestBuyPrice := if fill.side = .buy then some fill.price else progress.latestBuyPrice }

/-- A figure from two others, absent when one of them is. -/
def combine (f : Decimal → Decimal → Except Overflow Decimal) :
    Figure → Figure → Except Overflow Figure
  | some a, some b => some <$> f a b
  | _, _ => return none

def meanPrice (fills : List Fill) : Except Overflow Figure :=
  Decimal.mean? (fills.map (·.price))

def averagePrices (fills : List Fill) : Except Overflow Averages := do
  return { buy := ← meanPrice (fills.filter (·.side = .buy))
           sell := ← meanPrice (fills.filter (·.side = .sell))
           total := ← meanPrice fills }

/-- The gain on holdings at a price, against what they cost on average. -/
def gain (holdings price basis : Decimal) : Except Overflow Decimal := do
  (← price.sub basis).mul holdings

/-- The middle of two prices. -/
def midpoint (a b : Decimal) : Except Overflow Decimal := do
  (← a.add b).div .two

/-- The row of fills that are in order, the last of which is given. -/
def ofOrdered (strategy : String) (pair : Pair) (last : Fill) (ordered : List Fill)
    (bounds : Option BalanceBounds) : Except Overflow PortfolioRow := do
  let latestPrice := last.price
  let progress ← ordered.foldlM (Progress.add pair.quote) ⟨.none, .zero, latestPrice, none⟩
  let turnover := progress.turnover
  let averagePrice ← averagePrices ordered
  let holdings ← turnover.base.buy.sub turnover.base.sell
  let averageCostBasis := turnover.quote.buy.ratio? holdings
  let unrealizedPnl ← averageCostBasis.mapM (gain holdings latestPrice)
  let realizedPnl ← turnover.quote.sell.sub turnover.quote.buy
  let effectiveSellBuyPrice ← combine Decimal.sub averagePrice.sell averagePrice.buy
  let balances := RunBalances.ofBounds bounds
  let marked := combine fun base quote => Performance.value base quote latestPrice
  let holdValue ← marked balances.startBase balances.startQuote
  let currentValue ← marked balances.currentBase balances.currentQuote
  let tradePnl ← combine Decimal.sub currentValue holdValue
  let totalPnl ← tradePnl.mapM fun pnl => pnl.sub progress.feesPaid
  let returnRatio := totalPnl.bind fun pnl => holdValue.bind pnl.ratio?
  let reentryQuote ← balances.currentQuote.mapM realizedPnl.add
  let netPnl ← realizedPnl.add (unrealizedPnl.getD .zero)
  let retracementTrigger ← progress.latestBuyPrice.mapM (midpoint progress.peakPrice)
  return {
    strategy
    market := last.market
    pair, turnover, averagePrice, balances, holdValue, currentValue, tradePnl
    feesPaid := progress.feesPaid
    totalPnl, returnRatio, holdings, averageCostBasis, unrealizedPnl, realizedPnl, netPnl
    effectiveSellBuyPrice, reentryQuote, retracementTrigger, latestPrice
    latestBuyPrice := progress.latestBuyPrice
    peakPrice := progress.peakPrice }

/-- The row of a run from all its fills. A run that traded several pairs stands under the market and the pair
of its last fill. -/
def compute (strategy : String) (fills : List Fill) (bounds : Option BalanceBounds) :
    Except CalculationError PortfolioRow := do
  let ordered := chronological fills
  match ordered.getLast? with
  | none => throw .emptyScope
  | some last =>
    let pair ← Pair.ofSymbol last.symbol
    ofOrdered strategy pair last ordered bounds

end PortfolioRow

end TradeReport
