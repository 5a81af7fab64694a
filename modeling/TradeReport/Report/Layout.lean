import TradeReport.Report.Document
/-!
# Reports as text

The form of a window report for the terminal: its times, one block of three grids for each entry, and the
averaged return. A list of recent trades is a single grid.
-/

namespace TradeReport

/-- Grids stand four columns from the margin. -/
def gridMargin : List Char := List.replicate 4 ' '

def gridText (rows : List (List String)) : List Char :=
  joinWith ['\n'] (Grid.lines gridMargin rows)

namespace Performance

def tradeRows (perf : Performance) (precision : Option Nat) : List (List String) :=
  let volumeRow (token : Token) (volume : Volume) : List String :=
    [ "Total trade volume (" ++ token ++ ")", roundedText precision volume.buy,
      roundedText precision volume.sell, roundedText precision volume.total ]
  [ ["", "buy", "sell", "total"],
    [ "Number of trades", toString perf.turnover.counts.buy, toString perf.turnover.counts.sell,
      toString perf.turnover.counts.total ],
    volumeRow perf.pair.base perf.turnover.base,
    volumeRow perf.pair.quote perf.turnover.quote,
    [ "Avg price", perf.averagePrice.buy.roundedText precision,
      perf.averagePrice.sell.roundedText precision,
      perf.averagePrice.total.roundedText precision ] ]

def notApplicableRow (name : String) : List String :=
  [name, notApplicable, notApplicable, notApplicable]

def ratioRow (perf : Performance) : Except Overflow (List String) := do
  match perf.startBaseRatio, perf.currentBaseRatio with
  | some start, some current =>
    let startText ← start.percentText
    let currentText ← current.percentText
    return ["Base asset %", startText, currentText, ← (← current.sub start).percentText]
  | _, _ => return notApplicableRow "Base asset %"

/-- Prices are rounded by their band, whatever the precision. -/
def assetRows (perf : Performance) (precision : Option Nat) :
    Except Overflow (List (List String)) := do
  let baseRow :=
    match perf.startBase, perf.currentBase with
    | some start, some current =>
      [ perf.pair.base, roundedText precision start, roundedText precision current,
        roundedText precision perf.netBase ]
    | _, _ => notApplicableRow perf.pair.base
  let priceChange ← perf.currentPrice.sub perf.startPrice
  let ratioRow ← perf.ratioRow
  return [
    ["", "start", "current", "change"],
    baseRow,
    [ perf.pair.quote, roundedText precision perf.startQuote,
      roundedText precision perf.currentQuote, roundedText precision perf.netQuote ],
    [ perf.pair.symbol ++ " price", roundedText none perf.startPrice,
      roundedText none perf.currentPrice, roundedText none priceChange ],
    ratioRow ]

def resultRows (perf : Performance) (precision : Option Nat) :
    Except Overflow (List (List String)) := do
  let returnText ← perf.returnRatio.percentText
  let unpriced :=
    if perf.unpricedTokens.isEmpty then []
    else [["Unpriced fee tokens", ", ".intercalate perf.unpricedTokens]]
  return [
      ["Hold portfolio value", perf.valueText precision perf.holdValue],
      ["Current portfolio value", perf.valueText precision perf.currentValue],
      ["Trade P&L", perf.valueText precision perf.tradePnl] ]
    ++ perf.fees.entries.map (fun entry =>
      ["Fees paid", roundedText precision entry.2 ++ " " ++ entry.1])
    ++ unpriced
    ++ [ ["Total P&L", perf.valueText precision perf.totalPnl], ["Return %", returnText] ]

def block (perf : Performance) (precision : Option Nat) : Except Overflow (List Char) := do
  let assets ← perf.assetRows precision
  let results ← perf.resultRows precision
  return perf.title.toList
    ++ "\n\n  Trades:\n".toList ++ gridText (perf.tradeRows precision)
    ++ "\n\n  Assets:\n".toList ++ gridText assets
    ++ "\n\n  Performance:\n".toList ++ gridText results

end Performance

namespace Window

def header (window : Window) : List Char :=
  "Start Time: ".toList ++ (timeText window.start).toList
    ++ "\nCurrent Time: ".toList ++ (timeText window.current).toList
    ++ "\nDuration: ".toList ++ (elapsedText window.duration).toList

end Window

/-- The text of a window report. -/
def WindowReport.layout (report : WindowReport) (precision : Option Nat) :
    Except Overflow String := do
  let blocks ← report.markets.mapM fun perf => perf.block precision
  let average ←
    if report.showsAverage then do
      let text ← report.averageReturn.percentText
      pure ("\n\nAveraged Return = ".toList ++ text.toList)
    else
      pure []
  return String.ofList
    (report.window.header ++ blocks.flatMap (fun block => '\n' :: '\n' :: block) ++ average)

/-- A time that has no date is shown as the number it is. -/
def shownTime (time : Int) : String :=
  if hasDate time then timeText time else toString time

def RecentTrades.rows (recent : RecentTrades) : List (List String) :=
  ["timestamp", "market", "symbol", "side", "price", "amount", "order_id"]
    :: recent.trades.map fun fill =>
      [ shownTime fill.time.toInt, fill.market, fill.symbol, fill.side.toText, fill.price.toText,
        fill.amount.toText, fill.order.getD "" ]

/-- The text of a list of recent trades. -/
def RecentTrades.layout (recent : RecentTrades) : String :=
  if recent.trades.isEmpty then
    "  No past trades in this session."
  else
    let note :=
      if recent.truncated then
        "\n\n  Showing last " ++ toString recent.trades.length ++ " trades in the current session."
      else
        ""
    "  Recent trades:\n" ++ String.ofList (gridText recent.rows) ++ note

end TradeReport
