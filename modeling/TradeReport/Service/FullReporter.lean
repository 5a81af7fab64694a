import TradeReport.Service.WindowReporter
/-!
# The full report

One row for each run with a fill that belongs to somebody, over all that is recorded. A run whose last fill
has no readable symbol has no row. A failure of the log becomes the report itself.
-/

namespace TradeReport

/-- Fills by run; fills of nobody are left out. -/
def groupByStrategy (fills : List Fill) : Table String (List Fill) :=
  Table.group Fill.strategy (fills.filter Fill.isResolvable)

namespace FullReport

/-- An answer of the source with a message in front of its fault. -/
def asking (context : String) (result : Except Fault α) : Except Fault α :=
  result.mapError (Fault.within context)

/-- The row of one run, unless it has none. -/
def row? (source : TradeSource) (group : String × List Fill) :
    Except Fault (Except Overflow (Option PortfolioRow)) := do
  let bounds ← asking ("Failed to load balance log of " ++ group.1) (source.balanceBounds group.1)
  match PortfolioRow.compute group.1 group.2 bounds with
  | .ok row => return .ok (some row)
  | .error (.overflow cause) => return .error cause
  | .error _ => return .ok none

/-- The rows of the groups in order, up to the first fault or overflow. -/
def rows (source : TradeSource) :
    List (String × List Fill) → Except Fault (Except Overflow (List PortfolioRow))
  | [] => return .ok []
  | group :: rest => do
    match ← row? source group with
    | .error cause => return .error cause
    | .ok row =>
      match ← rows source rest with
      | .error cause => return .error cause
      | .ok rows => return .ok (row.toList ++ rows)

/-- The report of a log that can be read. -/
def assemble (source : TradeSource) (window : Window) : Except Fault (Except Overflow FullReport) := do
  let strategies ← asking "Failed to list strategy runs" source.distinctStrategies
  let markets ← asking "Failed to list markets" source.distinctMarkets
  let strategiesByMarket ←
    asking "Failed to group strategy runs by market" source.strategiesByMarket
  if strategies.isEmpty || markets.isEmpty || strategiesByMarket.isEmpty then
    return .ok (.failed .noHistoricalData)
  else
    let fills ← asking "Failed to load trade history" source.allTrades
    let rows ← rows source (groupByStrategy fills).entries
    return rows.map fun rows => .aggregated ⟨window, rows, strategies, markets, strategiesByMarket⟩

/-- The full report; it fails only by an overflow. -/
def compute (source : TradeSource) (window : Window) : Except Overflow FullReport :=
  match assemble source window with
  | .ok report => report
  | .error fault => .ok (.failed (.ofFault fault))

end FullReport

end TradeReport
