import TradeReport.Decimal.Display
import TradeReport.Fees
import TradeReport.Trade.Balance
/-!
# Performance of one listing

What the fills of one pair on one market did over a window, given what the market holds now. What it held at
the start is inferred: the present balance less what the fills added to it. Deposits and withdrawals within
the window are not seen.
-/

namespace TradeReport

/-! ## What the fills sum up to -/

/-- Fills bought, fills sold, and all of them, counted on their own. -/
structure TradeCounts where
  buy : Nat
  sell : Nat
  total : Nat
  deriving DecidableEq, Repr

namespace TradeCounts

def none : TradeCounts := ⟨0, 0, 0⟩

def count (counts : TradeCounts) (side : Side) : TradeCounts :=
  let sided :=
    match side with
    | .buy => { counts with buy := counts.buy + 1 }
    | .sell => { counts with sell := counts.sell + 1 }
  { sided with total := counts.total + 1 }

end TradeCounts

/-- Amounts bought, amounts sold, and their common sum, which is rounded on its own. -/
structure Volume where
  buy : Decimal
  sell : Decimal
  total : Decimal
  deriving DecidableEq

namespace Volume

def none : Volume := ⟨.zero, .zero, .zero⟩

def add (volume : Volume) (side : Side) (amount : Decimal) : Except Overflow Volume := do
  let sided ←
    match side with
    | .buy => do pure { volume with buy := ← volume.buy.add amount }
    | .sell => do pure { volume with sell := ← volume.sell.add amount }
  return { sided with total := ← volume.total.add amount }

end Volume

/-- A figure for each side and for both together. -/
structure Averages where
  buy : Figure
  sell : Figure
  total : Figure
  deriving DecidableEq

/-- The sums over fills, in base units and in quote units. -/
structure Turnover where
  counts : TradeCounts
  base : Volume
  quote : Volume
  deriving DecidableEq

namespace Turnover

def none : Turnover := ⟨.none, .none, .none⟩

def add (turnover : Turnover) (fill : Fill) : Except Overflow Turnover := do
  let base ← turnover.base.add fill.side fill.amount
  let quote ← turnover.quote.add fill.side (← fill.notional)
  return ⟨turnover.counts.count fill.side, base, quote⟩

def ofFills (fills : List Fill) : Except Overflow Turnover :=
  fills.foldlM add none

/-- Prices weighted by volume. A side without volume has none. -/
def averagePrices (turnover : Turnover) : Averages :=
  { buy := turnover.quote.buy.ratio? turnover.base.buy
    sell := turnover.quote.sell.ratio? turnover.base.sell
    total := turnover.quote.total.ratio? turnover.base.total }

end Turnover

/-! ## The figures of a listing -/

/-- Prices known when the figures are computed: of the pair, unless the last fill has to stand in, and of the
tokens that fees were paid in. -/
structure Pricing where
  price : Figure
  rates : Table Token Decimal

structure Performance where
  market : String
  pair : Pair
  isDerivative : Bool
  windowStart : Int64
  turnover : Turnover
  netBase : Decimal
  netQuote : Decimal
  averagePrice : Averages
  startBase : Figure
  currentBase : Figure
  startQuote : Decimal
  currentQuote : Decimal
  startPrice : Decimal
  currentPrice : Decimal
  startBaseRatio : Figure
  currentBaseRatio : Figure
  holdValue : Decimal
  currentValue : Decimal
  tradePnl : Decimal
  fees : FeeLedger
  feeInQuote : Decimal
  unpricedTokens : List Token
  totalPnl : Decimal
  returnRatio : Figure
  deriving DecidableEq

namespace Performance

/-- What was held before a net change led to the current holding. -/
def startBalance (current net : Decimal) : Except Overflow Decimal :=
  current.sub net

/-- The value of holdings at a price, in quote units. -/
def value (base quote price : Decimal) : Except Overflow Decimal := do
  (← base.mul price).add quote

/-- The share of the value that is held in the base token. -/
def baseRatio (base quote price : Decimal) : Except Overflow Figure := do
  let baseValue ← base.mul price
  return baseValue.ratio? (← baseValue.add quote)

/-- The figures of fills that are in order and not empty. -/
def ofOrdered (derivatives : DerivativeMarkets) (market : String) (pair : Pair) (first last : Fill)
    (ordered : List Fill) (holdings : Snapshot) (windowStart : Int64) (pricing : Pricing) :
    Except Overflow Performance := do
  let startPrice := first.price
  let currentPrice := pricing.price.getD last.price
  let turnover ← Turnover.ofFills ordered
  let netBase ← turnover.base.buy.sub turnover.base.sell
  let netQuote ← turnover.quote.sell.sub turnover.quote.buy
  let currentBase := holdings.held pair.base
  let currentQuote := holdings.held pair.quote
  let startBase ← startBalance currentBase netBase
  let startQuote ← startBalance currentQuote netQuote
  let holdValue ← value startBase startQuote currentPrice
  let currentValue ← value currentBase currentQuote currentPrice
  let tradePnl ← currentValue.sub holdValue
  let fees ← FeeLedger.ofFills pair ordered
  let quoteFees ← fees.inQuote pair currentPrice pricing.rates
  let totalPnl ← tradePnl.sub quoteFees.total
  let startBaseRatio ← baseRatio startBase startQuote startPrice
  let currentBaseRatio ← baseRatio currentBase currentQuote currentPrice
  let isDerivative := derivatives.contains market
  let spotOnly (figure : Figure) : Figure := if isDerivative then none else figure
  return {
    market, pair, isDerivative, windowStart, turnover, netBase, netQuote
    averagePrice := turnover.averagePrices
    startBase := spotOnly (some startBase)
    currentBase := spotOnly (some currentBase)
    startQuote, currentQuote, startPrice, currentPrice
    startBaseRatio := spotOnly startBaseRatio
    currentBaseRatio := spotOnly currentBaseRatio
    holdValue, currentValue, tradePnl, fees
    feeInQuote := quoteFees.total
    unpricedTokens := quoteFees.unpriced
    totalPnl
    returnRatio := totalPnl.ratio? holdValue }

/-- The figures of one listing from its fills, whose order does not matter. No fills are an error before the
symbol is looked at. -/
def calculate (derivatives : DerivativeMarkets) (listing : Listing) (fills : List Fill)
    (holdings : Snapshot) (windowStart : Int64) (pricing : Pricing) :
    Except CalculationError Performance := do
  let ordered := chronological fills
  match ordered.head?, ordered.getLast? with
  | some first, some last =>
    let pair ← Pair.ofSymbol listing.symbol
    ofOrdered derivatives listing.market pair first last ordered holdings windowStart pricing
  | _, _ => throw .emptyScope

end Performance

end TradeReport
