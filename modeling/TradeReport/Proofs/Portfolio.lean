import TradeReport.Proofs.Overflow
import TradeReport.Proofs.Portfolio.Figures
/-!
# What a row sums up

The row of a run is that of all its fills, and its sums are their turnover (`sums_of_compute`). A row of a full report
is computed from the fills of its run (`exists_fills_of_row`).
-/

namespace TradeReport

namespace PortfolioRow

variable {strategy : String} {fills : List Fill} {row : PortfolioRow}

/-- The sums of a row are those of its fills, in their order. -/
structure Sums (ordered : List Fill) (row : PortfolioRow) : Prop where
  turnover : Turnover.ofFills ordered = .ok row.turnover
  holdings : row.turnover.base.buy.sub row.turnover.base.sell = .ok row.holdings
  realizedPnl : row.turnover.quote.sell.sub row.turnover.quote.buy = .ok row.realizedPnl

theorem sums_of_compute {bounds : Option BalanceBounds} (h : compute strategy fills bounds = .ok row) :
    fills ≠ [] ∧ row.strategy = strategy ∧ Sums (chronological fills) row := by
  obtain ⟨last, pair, hlast, -, hcomputed⟩ := exists_computed h
  have hmem : last ∈ fills := (chronological_perm fills).mem_iff.1 (List.mem_of_getLast? hlast)
  exact ⟨List.ne_nil_of_mem hmem, hcomputed.ofStrategy, Turnover.ofFills_eq_ok_iff.2 hcomputed.progress.turnover,
    hcomputed.holdings, hcomputed.realizedPnl⟩

end PortfolioRow

namespace FullReport

variable {source : TradeSource} {window : Window} {full : FullReport} {row : PortfolioRow}

def runs : FullReport → List PortfolioRow
  | .aggregated report => report.rows
  | .failed _ => []

theorem compute_of_row? {group : String × List Fill} (h : row? source group = .ok (.ok (some row))) :
    ∃ bounds, PortfolioRow.compute group.1 group.2 bounds = .ok row := by
  obtain ⟨bounds, -, h⟩ := bind_eq_ok.1 h
  refine ⟨bounds, ?_⟩
  split at h
  · rename_i made hmade
    have hrow := pure_eq_ok.1 h
    rw [hmade, Option.some.inj (Except.ok.inj hrow)]
  · cases h
  · cases h

theorem exists_group_of_rows {groups : List (String × List Fill)} {made : List PortfolioRow}
    (h : rows source groups = .ok (.ok made)) (hrow : row ∈ made) :
    ∃ group ∈ groups, ∃ bounds, PortfolioRow.compute group.1 group.2 bounds = .ok row := by
  induction groups generalizing made with
  | nil =>
    obtain rfl : [] = made := Except.ok.inj (pure_eq_ok.1 h)
    cases hrow
  | cons group rest ih =>
    rw [rows, bind_eq_ok] at h
    obtain ⟨first, hfirst, h⟩ := h
    cases first with
    | error cause => cases h
    | ok first =>
      obtain ⟨more, hmore, h⟩ := bind_eq_ok.1 h
      cases more with
      | error cause => cases h
      | ok more =>
        obtain rfl : first.toList ++ more = made := Except.ok.inj (pure_eq_ok.1 h)
        rcases List.mem_append.1 hrow with hown | hrest
        · obtain rfl : first = some row := Option.mem_toList.1 hown
          exact ⟨group, List.mem_cons_self, compute_of_row? hfirst⟩
        · obtain ⟨other, hother, hcompute⟩ := ih hmore hrest
          exact ⟨other, List.mem_cons_of_mem _ hother, hcompute⟩

theorem rows_of_aggregated {report : AggregatedReport} (h : compute source window = .ok (.aggregated report)) :
    ∃ fills, source.allTrades = .ok fills ∧ rows source (groupByStrategy fills).entries = .ok (.ok report.rows) := by
  unfold compute at h
  cases hassemble : assemble source window with
  | error fault =>
    rw [hassemble] at h
    cases h
  | ok outcome =>
    rw [hassemble] at h
    obtain rfl : outcome = .ok (.aggregated report) := h
    obtain ⟨strategies, markets, grouped, -, -, -, hreport⟩ := assemble_eq_ok_iff.1 hassemble
    split at hreport
    · cases hreport
    · obtain ⟨fills, made, hfills, hmade, hreport⟩ := hreport
      cases made with
      | error cause => cases hreport
      | ok made =>
        cases hreport
        exact ⟨fills, hfills, hmade⟩

theorem exists_rows_of_compute (h : compute source window = .ok full) (hrow : row ∈ full.runs) :
    ∃ fills made, source.allTrades = .ok fills ∧ rows source (groupByStrategy fills).entries = .ok (.ok made) ∧
      row ∈ made := by
  cases full with
  | failed failures => cases hrow
  | aggregated report =>
    obtain ⟨fills, hfills, hrows⟩ := rows_of_aggregated h
    exact ⟨fills, report.rows, hfills, hrows, hrow⟩

/-- The fills of a run that are of a market with a name. -/
def fillsOf (strategy : String) (fills : List Fill) : List Fill :=
  (fills.filter Fill.isResolvable).filter (·.strategy = strategy)

/-- A row of a full report sums up the fills of its run. -/
theorem exists_fills_of_row (h : compute source window = .ok full) (hrow : row ∈ full.runs) :
    ∃ fills, source.allTrades = .ok fills ∧ fillsOf row.strategy fills ≠ [] ∧
      row.Sums (chronological (fillsOf row.strategy fills)) := by
  obtain ⟨fills, made, hfills, hrows, hmade⟩ := exists_rows_of_compute h hrow
  obtain ⟨⟨strategy, group⟩, hgroup, bounds, hcompute⟩ := exists_group_of_rows hrows hmade
  obtain ⟨hne, rfl, hsums⟩ := PortfolioRow.sums_of_compute hcompute
  have hown : group = fillsOf row.strategy fills := Table.eq_filter_of_mem_group hgroup
  refine ⟨fills, hfills, ?_⟩
  rw [← hown]
  exact ⟨hne, hsums⟩

end FullReport

end TradeReport
