import TradeReport.Report
import TradeReport.Trade.Record
/-!
# Reports as documents

The JSON form of reports. Figures are texts, and an absent one has its mark. Exact documents carry every place
of every figure. The document of a window report for display rounds the figures and names the quote token
behind values. A percentage can overflow, and then there is no document.
-/

namespace TradeReport

open Json (Value)

/-- An object with its members in the order of their names. Of two members with one name the later stays. -/
def document (members : List (String × Value)) : Value :=
  .record (Table.ofList members).entries

def textList (texts : List String) : Value :=
  .array (texts.map .text)

def Figure.toJson (figure : Figure) : Value :=
  .text figure.toText

/-! ## Exact documents -/

def TradeCounts.toJson (counts : TradeCounts) : Value :=
  document [("buy", .nat counts.buy), ("sell", .nat counts.sell), ("total", .nat counts.total)]

def Volume.toJson (volume : Volume) : Value :=
  document
    [ ("buy", volume.buy.toJson), ("sell", volume.sell.toJson), ("total", volume.total.toJson) ]

def Averages.toJson (averages : Averages) : Value :=
  document
    [ ("buy", averages.buy.toJson), ("sell", averages.sell.toJson), ("total", averages.total.toJson) ]

def Performance.toJson (perf : Performance) : Value :=
  document
    [ ("market", .text perf.market),
      ("trading_pair", .text perf.pair.symbol),
      ("base_token", .text perf.pair.base),
      ("quote_token", .text perf.pair.quote),
      ("is_derivative", .bool perf.isDerivative),
      ("window_start_ms", .int perf.windowStart.toInt),
      ("trades", perf.turnover.counts.toJson),
      ("base_volume", perf.turnover.base.toJson),
      ("quote_volume", perf.turnover.quote.toJson),
      ("net_base_change", perf.netBase.toJson),
      ("net_quote_change", perf.netQuote.toJson),
      ("average_price", perf.averagePrice.toJson),
      ("start_base_balance", perf.startBase.toJson),
      ("current_base_balance", perf.currentBase.toJson),
      ("start_quote_balance", perf.startQuote.toJson),
      ("current_quote_balance", perf.currentQuote.toJson),
      ("start_price", perf.startPrice.toJson),
      ("current_price", perf.currentPrice.toJson),
      ("start_base_ratio", perf.startBaseRatio.toJson),
      ("current_base_ratio", perf.currentBaseRatio.toJson),
      ("hold_value", perf.holdValue.toJson),
      ("current_value", perf.currentValue.toJson),
      ("trade_pnl", perf.tradePnl.toJson),
      ("fees", amountsToJson perf.fees),
      ("fee_in_quote", perf.feeInQuote.toJson),
      ("unpriced_fee_tokens", textList perf.unpricedTokens),
      ("total_pnl", perf.totalPnl.toJson),
      ("return_pct", perf.returnRatio.toJson) ]

def RunBalances.toJson (balances : RunBalances) : Value :=
  document
    [ ("start_base_balance", balances.startBase.toJson),
      ("start_quote_balance", balances.startQuote.toJson),
      ("current_base_balance", balances.currentBase.toJson),
      ("current_quote_balance", balances.currentQuote.toJson) ]

namespace PortfolioRow

def performanceToJson (row : PortfolioRow) : Except Overflow Value := do
  return document
    [ ("hold_portfolio_value", row.holdValue.toJson),
      ("current_portfolio_value", row.currentValue.toJson),
      ("trade_pnl", row.tradePnl.toJson),
      ("fees_paid", row.feesPaid.toJson),
      ("total_pnl", row.totalPnl.toJson),
      ("return_percentage", .text (← row.returnRatio.percentText)) ]

def accumulationToJson (row : PortfolioRow) : Value :=
  document
    [ ("total_holdings", row.holdings.toJson),
      ("total_quote_spent", row.turnover.quote.buy.toJson),
      ("total_quote_received", row.turnover.quote.sell.toJson),
      ("average_cost_basis", row.averageCostBasis.toJson) ]

def profitToJson (row : PortfolioRow) : Value :=
  document
    [ ("unrealized_pnl", row.unrealizedPnl.toJson),
      ("realized_pnl", row.realizedPnl.toJson),
      ("net_pnl", row.netPnl.toJson),
      ("effective_sell_buy_price", row.effectiveSellBuyPrice.toJson) ]

def recyclingToJson (row : PortfolioRow) : Value :=
  document
    [ ("quote_available_for_reentry", row.reentryQuote.toJson),
      ("retracement_buy_trigger_price", row.retracementTrigger.toJson),
      ("reinvestment_amount_per_cycle", row.reentryQuote.toJson) ]

def toJson (row : PortfolioRow) : Except Overflow Value := do
  return document
    [ ("strategy_id", .text row.strategy),
      ("market", .text row.market),
      ("trading_pair", .text row.pair.symbol),
      ("number_of_trades", row.turnover.counts.toJson),
      ("total_trade_volume",
        document [("base", row.turnover.base.toJson), ("quote", row.turnover.quote.toJson)]),
      ("average_price", row.averagePrice.toJson),
      ("balances", row.balances.toJson),
      ("performance", ← row.performanceToJson),
      ("accumulation_distribution", row.accumulationToJson),
      ("profit_performance", row.profitToJson),
      ("capital_recycling", row.recyclingToJson),
      ("latest_price", row.latestPrice.toJson),
      ("latest_buy_price", row.latestBuyPrice.toJson),
      ("peak_price", row.peakPrice.toJson) ]

end PortfolioRow

/-- The members that tell the times of a report. -/
def Window.members (window : Window) : List (String × Value) :=
  [ ("start_time", .text (timeText window.start)),
    ("current_time", .text (timeText window.current)),
    ("duration", .text (elapsedText window.duration)) ]

def WindowReport.toJson (report : WindowReport) : Except Overflow Value := do
  return document
    (report.window.members ++
      [ ("markets", .array (report.markets.map Performance.toJson)),
        ("average_return", .text (← report.averageReturn.percentText)) ])

def AggregatedReport.toJson (report : AggregatedReport) : Except Overflow Value := do
  let rows ← report.rows.mapM PortfolioRow.toJson
  return document
    (report.window.members ++
      [ ("markets", .array rows),
        ("unique_strategies", textList report.strategies),
        ("unique_markets", textList report.markets),
        ("strategies_by_market",
          document (report.strategiesByMarket.entries.map fun entry => (entry.1, textList entry.2))) ])

def ReportFailure.toJson (failure : ReportFailure) : Value :=
  document
    (("error", .text failure.error)
      :: (failure.trace.map fun trace => ("trace", Value.text trace)).toList)

def FullReport.toJson : FullReport → Except Overflow Value
  | .aggregated report => report.toJson
  | .failed failure => pure failure.toJson

def RecentTrades.toJson (recent : RecentTrades) : Value :=
  document
    [ ("trades", .array (recent.trades.map Fill.toJson)), ("truncated", .bool recent.truncated) ]

/-! ## The window report for display -/

namespace Performance

/-- What stands in for a figure that a derivative market does not have. -/
def notApplicable : String := "-"

def roundedText (precision : Option Nat) (value : Decimal) : String :=
  (value.smartRound precision).toText

/-- A rounded value with the quote token behind it. -/
def valueText (perf : Performance) (precision : Option Nat) (value : Decimal) : String :=
  roundedText precision value ++ " " ++ perf.pair.quote

def roundedVolume (precision : Option Nat) (volume : Volume) : Value :=
  document
    [ ("buy", .text (roundedText precision volume.buy)),
      ("sell", .text (roundedText precision volume.sell)),
      ("total", .text (roundedText precision volume.total)) ]

/-- A quantity at the start of the window and now, and what it changed by. -/
def roundedChange (precision : Option Nat) (start current change : Decimal) : Value :=
  document
    [ ("start", .text (roundedText precision start)),
      ("current", .text (roundedText precision current)),
      ("change", .text (roundedText precision change)) ]

def baseAssets (perf : Performance) (precision : Option Nat) : Value :=
  match perf.startBase, perf.currentBase with
  | some start, some current => roundedChange precision start current perf.netBase
  | _, _ => .text notApplicable

def ratioChange (perf : Performance) : Except Overflow Value := do
  if perf.isDerivative then
    return .text notApplicable
  else
    let start ← perf.startBaseRatio.percentText
    let current ← perf.currentBaseRatio.percentText
    let change ← PortfolioRow.combine Decimal.sub perf.currentBaseRatio perf.startBaseRatio
    return document
      [ ("start", .text start), ("current", .text current),
        ("change", .text (← change.percentText)) ]

def assets (perf : Performance) (precision : Option Nat) : Except Overflow Value := do
  let priceChange ← perf.currentPrice.sub perf.startPrice
  let ratio ← perf.ratioChange
  return document
    [ (perf.pair.base, perf.baseAssets precision),
      (perf.pair.quote,
        roundedChange precision perf.startQuote perf.currentQuote perf.netQuote),
      ("trading_pair_price",
        roundedChange precision perf.startPrice perf.currentPrice priceChange),
      ("base_asset_percentage", ratio) ]

def results (perf : Performance) (precision : Option Nat) : Except Overflow Value := do
  return document
    [ ("hold_portfolio_value", .text (perf.valueText precision perf.holdValue)),
      ("current_portfolio_value", .text (perf.valueText precision perf.currentValue)),
      ("trade_pnl", .text (perf.valueText precision perf.tradePnl)),
      ("fees_paid",
        .record (perf.fees.entries.map fun entry =>
          (entry.1, .text (roundedText precision entry.2)))),
      ("fees_in_quote", .text (perf.valueText precision perf.feeInQuote)),
      ("unpriced_fee_tokens", textList perf.unpricedTokens),
      ("total_pnl", .text (perf.valueText precision perf.totalPnl)),
      ("return_percentage", .text (← perf.returnRatio.percentText)) ]

def display (perf : Performance) (precision : Option Nat) : Except Overflow Value := do
  let assets ← perf.assets precision
  let results ← perf.results precision
  return document
    [ ("number_of_trades", perf.turnover.counts.toJson),
      ("total_trade_volume",
        document
          [ (perf.pair.base, roundedVolume precision perf.turnover.base),
            (perf.pair.quote, roundedVolume precision perf.turnover.quote) ]),
      ("average_price",
        document
          [ ("buy", .text (perf.averagePrice.buy.roundedText precision)),
            ("sell", .text (perf.averagePrice.sell.roundedText precision)),
            ("total", .text (perf.averagePrice.total.roundedText precision)) ]),
      ("assets", assets),
      ("performance", results) ]

/-- The name of an entry. -/
def title (perf : Performance) : String :=
  perf.market ++ " / " ++ perf.pair.symbol

end Performance

/-- The window report for display. The average is left out when it is not worth showing. -/
def WindowReport.display (report : WindowReport) (precision : Option Nat) :
    Except Overflow Value := do
  let markets ← report.markets.mapM fun perf => do return (perf.title, ← perf.display precision)
  let average ←
    if report.showsAverage then
      pure [("average_return", Value.text (← report.averageReturn.percentText))]
    else
      pure []
  return document (report.window.members ++ ("markets", document markets) :: average)

end TradeReport
