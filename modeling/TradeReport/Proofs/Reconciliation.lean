import TradeReport.Proofs.FullReport
/-!
# Two reports on one run

The window report and the full report read the log in two ways, one listing by listing within a window, the other run by
run over everything. When the window leaves out no fill of a run, both see the same fills of it: its row counts as many
as all entries together (`sum_counts`), and when the run kept to one listing, the sums of the row and of the one entry
are the same decimals (`Sums.sameSums`), since they are taken over the same fills in the same order.
-/

namespace TradeReport

open WindowReport (Computed countOf entryListing)
open FullReport (fillsOf)

/-! ## The same fills -/

theorem Store.fillsOf_of_tradesSince {store : Store} {scope : String} {start : ℤ} {all fills : List Fill}
    (hall : store.allTrades = .ok all) (hstart : ∀ fill ∈ all, fill.strategy = scope → start ≤ fill.time.toInt)
    (h : store.tradesSince start (some scope) none = .ok fills) :
    fills.filter Fill.isResolvable = fillsOf scope all := by
  obtain ⟨all', hall', h⟩ := bind_eq_ok.1 h
  obtain rfl : all = all' := Except.ok.inj (hall.symm.trans hall')
  rw [← pure_eq_ok.1 h, fillsOf, List.filter_filter, List.filter_filter]
  refine List.filter_congr fun fill hfill => ?_
  by_cases hscope : fill.strategy = scope
  · simp [Store.isOfRun, hscope, hstart fill hfill hscope]
  · simp [Store.isOfRun, hscope]

namespace WindowReport

variable {fills own : List Fill} {entries : List Performance}

theorem sum_counts (h : Computed (groupByListing fills).entries entries) (side : Side) :
    (entries.map (·.turnover.counts.on side)).sum = (ofSide side (fills.filter Fill.isResolvable)).length := by
  have hcount : ∀ entry ∈ entries, entry.turnover.counts.on side
      = (ofSide side (fills.filter Fill.isResolvable)).countP fun fill => fill.listing = entryListing entry := by
    intro entry hentry
    rw [counts_of_computed h hentry, countOf, ofSide]
    generalize fills.filter Fill.isResolvable = own
    rw [List.countP_filter]
    exact List.countP_congr fun fill _ => by simp
  have hlistings : ∀ fill ∈ ofSide side (fills.filter Fill.isResolvable),
      fill.listing ∈ entries.map entryListing := by
    intro fill hfill
    rw [map_entryListing_of_computed h]
    exact (Table.mem_keys_group _).2 ⟨fill, (List.mem_filter.1 hfill).1, rfl⟩
  rw [List.map_congr_left hcount,
    ← sum_countP_listing (Table.nodup_of_ascending (ascending_of_computed h)) hlistings, List.map_map]
  rfl

theorem groupByListing_of_listing {listing : Listing} (hne : fills.filter Fill.isResolvable ≠ [])
    (h : ∀ fill ∈ fills.filter Fill.isResolvable, fill.listing = listing) :
    (groupByListing fills).entries = [(listing, fills.filter Fill.isResolvable)] := by
  have hmem : ∀ key, key ∈ (groupByListing fills).keys ↔ ∃ fill ∈ fills.filter Fill.isResolvable, fill.listing = key :=
    fun _ => Table.mem_keys_group _
  have hkeys : (groupByListing fills).keys = [listing] := by
    have hnodup := Table.nodup_of_ascending (groupByListing fills).keys_ascending
    refine List.perm_singleton.1 ((List.perm_ext_iff_of_nodup hnodup (List.nodup_singleton listing)).2 fun key => ?_)
    rw [hmem, List.mem_singleton]
    constructor
    · rintro ⟨fill, hfill, rfl⟩
      exact h fill hfill
    · rintro rfl
      obtain ⟨fill, hfill⟩ := List.exists_mem_of_ne_nil _ hne
      exact ⟨fill, hfill, h fill hfill⟩
  obtain ⟨⟨key, group⟩, hentries, rfl⟩ := List.map_eq_singleton_iff.1 hkeys
  have hgroup : group = (fills.filter Fill.isResolvable).filter (·.listing = key) :=
    Table.eq_filter_of_mem_group (by rw [groupByListing] at hentries; rw [hentries]; exact List.mem_singleton_self _)
  rw [List.filter_eq_self.2 fun fill hfill => decide_eq_true (h fill hfill)] at hgroup
  rw [hentries, hgroup]

/-- A row counts as many fills as all entries of a report together. -/
structure Counts (report : WindowReport) (row : PortfolioRow) : Prop where
  buys : row.turnover.counts.buy = (report.markets.map (·.turnover.counts.buy)).sum
  sells : row.turnover.counts.sell = (report.markets.map (·.turnover.counts.sell)).sum
  totals : row.turnover.counts.total = (report.markets.map (·.turnover.counts.total)).sum

private theorem counts_of_sides {report : WindowReport} {row : PortfolioRow}
    (h : ∀ side, row.turnover.counts.on side = (report.markets.map (·.turnover.counts.on side)).sum)
    (hrow : row.turnover.counts.total = row.turnover.counts.buy + row.turnover.counts.sell)
    (hentries : ∀ entry ∈ report.markets,
      entry.turnover.counts.total = entry.turnover.counts.buy + entry.turnover.counts.sell) : report.Counts row := by
  refine ⟨h .buy, h .sell, ?_⟩
  have hbuys : row.turnover.counts.buy = (report.markets.map (·.turnover.counts.buy)).sum := h .buy
  have hsells : row.turnover.counts.sell = (report.markets.map (·.turnover.counts.sell)).sum := h .sell
  rw [hrow, hbuys, hsells, ← List.sum_map_add, List.map_congr_left hentries]

end WindowReport

namespace PortfolioRow

variable {own : List Fill} {row : PortfolioRow} {entry : Performance}

theorem Sums.counts (h : row.Sums (chronological own)) (side : Side) :
    row.turnover.counts.on side = (ofSide side own).length := by
  rw [Turnover.counts_of_ofFills h.turnover]
  exact ((chronological_perm own).filter _).length_eq

/-- A row and an entry have the same sums, to the last place. -/
structure SameSums (row : PortfolioRow) (entry : Performance) : Prop where
  base : row.turnover.base = entry.turnover.base
  quote : row.turnover.quote = entry.turnover.quote
  holdings : row.holdings = entry.netBase
  realizedPnl : row.realizedPnl = entry.netQuote

theorem Sums.sameSums {derivatives : DerivativeMarkets} {listing : Listing} {holdings : Snapshot}
    {windowStart : Int64} {pricing : Pricing} (h : row.Sums (chronological own))
    (hentry : Performance.calculate derivatives listing own holdings windowStart pricing = .ok entry) :
    row.SameSums entry := by
  obtain ⟨first, last, pair, -, -, -, hrun⟩ := Performance.calculate_eq_ok_iff.1 hentry
  obtain ⟨hidden, hcomputed⟩ := Performance.ofOrdered_eq_ok_iff.1 hrun
  have hturnover : row.turnover = entry.turnover := Except.ok.inj (h.turnover.symm.trans hcomputed.turnover)
  have hholdings := h.holdings
  have hrealized := h.realizedPnl
  rw [hturnover] at hholdings hrealized
  exact ⟨by rw [hturnover], by rw [hturnover], Except.ok.inj (hholdings.symm.trans hcomputed.netBase),
    Except.ok.inj (hrealized.symm.trans hcomputed.netQuote)⟩

end PortfolioRow

/-! ## The reports -/

namespace Market

variable {σ : Type} {market : Market σ} {store : Store} {scope : String} {start : ℤ} {before after : Elapsed σ}
  {report : WindowReport} {window : Window} {full : FullReport} {row : PortfolioRow}

/-- A window report since before the first fill of a run agrees with the row of that run in the full report: they count
the same fills, and when all of them are of one listing, the sums are the same too. -/
theorem windowReport_reconciles (hsource : market.source = store.source)
    (hwindow : (market.windowReport (some scope) start).Gives before report after)
    (hfull : FullReport.compute store.source window = .ok full) (hrow : row ∈ full.runs)
    (hscope : row.strategy = scope)
    (hstart : ∀ fills, store.allTrades = .ok fills →
      ∀ fill ∈ fills, fill.strategy = scope → start ≤ fill.time.toInt) :
    report.Counts row ∧
      ∀ listing, (∀ fills, store.allTrades = .ok fills → ∀ fill ∈ fills, fill.isResolvable = true →
          fill.strategy = scope → fill.listing = listing) →
        ∃ entry, report.markets = [entry] ∧ entryListing entry = listing ∧ row.SameSums entry := by
  obtain ⟨all, hall, hne, hsums⟩ := FullReport.exists_fills_of_row hfull hrow
  obtain ⟨fills, entries, hfills, hentries, hreport⟩ := gives_windowReport hwindow
  rw [hsource] at hfills
  rw [hscope] at hne hsums
  have hsame := Store.fillsOf_of_tradesSince hall (hstart all hall) hfills
  rw [← hsame] at hne hsums
  rw [WindowReport.ofMarkets_of_computed hentries] at hreport
  obtain ⟨average, -, hreport⟩ := bind_eq_ok.1 hreport
  rw [← pure_eq_ok.1 hreport]
  constructor
  · exact WindowReport.counts_of_sides (fun side => by rw [hsums.counts, WindowReport.sum_counts hentries])
      (Turnover.counts_total_eq hsums.turnover) fun entry hentry => WindowReport.counts_total_of_computed hentries hentry
  · intro listing hlisting
    have hown : ∀ fill ∈ fills.filter Fill.isResolvable, fill.listing = listing := by
      rw [hsame]
      intro fill hfill
      obtain ⟨hkept, hstrategy⟩ := List.mem_filter.1 hfill
      obtain ⟨hmem, hresolvable⟩ := List.mem_filter.1 hkept
      exact hlisting all hall fill hmem hresolvable (of_decide_eq_true hstrategy)
    rw [WindowReport.groupByListing_of_listing hne hown] at hentries
    cases hentries with
    | cons hentry hrest =>
      cases hrest
      obtain ⟨_, _, _, _, hcalculate⟩ := hentry
      exact ⟨_, rfl, WindowReport.entryListing_of_calculate hcalculate, hsums.sameSums hcalculate⟩

private theorem start_le_mixed {run : String} : ∀ fills, mixedStore.allTrades = .ok fills →
    ∀ fill ∈ fills, fill.strategy = run → 0 ≤ fill.time.toInt := by
  intro fills hfills fill hfill _
  rw [allTrades_mixedStore] at hfills
  rw [← Except.ok.inj hfills] at hfill
  have hall : ∀ fill ∈ mixedFills, 0 ≤ fill.time.toInt := by decide +kernel
  exact hall fill hfill

theorem windowReport_reconciles_mixed :
    ∃ report after other after' full row row', (mixedMarket.windowReport (some "run") 0).Gives ⟨(), 0⟩ report after ∧
      (mixedMarket.windowReport (some "other") 0).Gives ⟨(), 0⟩ other after' ∧
      FullReport.compute mixedStore.source ⟨0, 2000⟩ = .ok full ∧ row ∈ full.runs ∧ row' ∈ full.runs ∧
      report.markets.length = 3 ∧ row.strategy = "run" ∧ report.Counts row ∧
      row'.strategy = "other" ∧ ∃ entry, other.markets = [entry] ∧ entryListing entry = ⟨"hall", "C-B"⟩ ∧
        row'.SameSums entry := by
  obtain ⟨report, after, hreport, hlength⟩ :
      ∃ report after, (mixedMarket.windowReport (some "run") 0).Gives ⟨(), 0⟩ report after ∧
        decide (report.markets.length = 3) = true := by
    apply exists_windowReport_of_inOrder (tradesSince_mixedMarket "run") (by decide +kernel) (by decide +kernel)
    decide +kernel
  obtain ⟨other, after', hother, -⟩ :
      ∃ report after, (mixedMarket.windowReport (some "other") 0).Gives ⟨(), 0⟩ report after ∧ true = true := by
    apply exists_windowReport_of_inOrder (tradesSince_mixedMarket "other") (by decide +kernel) (by decide +kernel)
    decide +kernel
  obtain ⟨full, hfull, hrows⟩ := FullReport.exists_mixedReport
  obtain ⟨row, hrow, hrun⟩ := hrows "run" (by simp)
  obtain ⟨row', hrow', hrun'⟩ := hrows "other" (by simp)
  have hsource : mixedMarket.source = mixedStore.source := rfl
  have hcounts := (windowReport_reconciles hsource hreport hfull hrow hrun start_le_mixed).1
  have hsums := (windowReport_reconciles hsource hother hfull hrow' hrun' start_le_mixed).2
  have hlisting : ∀ fills, mixedStore.allTrades = .ok fills → ∀ fill ∈ fills, fill.isResolvable = true →
      fill.strategy = "other" → fill.listing = ⟨"hall", "C-B"⟩ := by
    intro fills hfills
    rw [← Except.ok.inj (allTrades_mixedStore.symm.trans hfills)]
    decide +kernel
  exact ⟨report, after, other, after', _, row, row', hreport, hother, hfull, hrow, hrow', of_decide_eq_true hlength, hrun,
    hcounts, hrun', hsums _ hlisting⟩

end Market

end TradeReport
