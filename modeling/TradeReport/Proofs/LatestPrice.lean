import TradeReport.Proofs.Pricing
import TradeReport.Proofs.Reconciliation
import TradeReport.Proofs.Rows
import TradeReport.Proofs.Store.Recording
/-!
# The price of the latest fill

Both reports value a position at the price of its latest fill. The oracle takes the fill that was read last among those
of the latest time (`latestFill?_of_ascending`), a row the one with the highest price among them. The two prices are the
same exactly when no fill of the latest time has a higher price than the one read last
(`Market.currentPrice_eq_latestPrice_iff`).
-/

namespace TradeReport

/-! ## The last of the fills -/

variable {fills : List Fill} {last latest fill : Fill}

theorem latestFill?_of_ascending (h : fills.Pairwise fun a b => a.time.toInt ≤ b.time.toInt) :
    latestFill? fills = fills.getLast? := by
  induction fills using List.reverseRecOn with
  | nil => rfl
  | append_singleton earlier fill ih =>
    obtain ⟨hearlier, -, hlater⟩ := List.pairwise_append.1 h
    rw [latestFill?, List.foldl_append, List.foldl_cons, List.foldl_nil, ← latestFill?, ih hearlier,
      List.getLast?_concat]
    cases hlatest : earlier.getLast? with
    | none => rfl
    | some latest =>
      dsimp only
      rw [if_pos (hlater latest (List.mem_of_getLast? hlatest) fill (List.mem_singleton_self fill))]

theorem Fill.le_of_isLE_moment {a b : Fill} (h : (compare a.moment b.moment).isLE) :
    a.time.toInt ≤ b.time.toInt ∧ (a.time = b.time → a.price.toRat ≤ b.price.toRat) := by
  rw [Moment.compare_eq, Ordering.isLE_then_iff_or, Ordering.isLE_then_iff_or] at h
  rcases h with hearlier | ⟨htied, hrest⟩
  · have hlt : a.time.toInt < b.time.toInt := compare_lt_iff_lt.1 hearlier
    exact ⟨hlt.le, fun htied => absurd (congrArg Int64.toInt htied) hlt.ne⟩
  · have htime : a.time.toInt = b.time.toInt := compare_eq_iff_eq.1 htied
    refine ⟨htime.le, fun _ => ?_⟩
    rcases hrest with hlower | ⟨hsame, -⟩
    · exact (compare_lt_iff_lt.1 hlower).le
    · exact (compare_eq_iff_eq.1 hsame).le

/-- Of fills in order of time, none that was made with the last one has a higher price. -/
def EndsHighest (fills : List Fill) : Prop :=
  ∀ last ∈ fills.getLast?, ∀ fill ∈ fills, fill.time = last.time → fill.price.toRat ≤ last.price.toRat

/-- The last fill as it was read, against the last in chronological order. -/
theorem price_eq_iff_endsHighest (h : fills.Pairwise fun a b => a.time.toInt ≤ b.time.toInt)
    (hlast : fills.getLast? = some last) (hlatest : (chronological fills).getLast? = some latest) :
    last.price.toRat = latest.price.toRat ↔ EndsHighest fills := by
  have hmem : last ∈ fills := List.mem_of_getLast? hlast
  have hmem' : latest ∈ fills := (chronological_perm fills).mem_iff.1 (List.mem_of_getLast? hlatest)
  have hbefore : ∀ fill ∈ fills,
      fill.time.toInt ≤ latest.time.toInt ∧ (fill.time = latest.time → fill.price.toRat ≤ latest.price.toRat) := by
    intro fill hfill
    have hle := rel_last_of_pairwise (inOrder_chronological fills) (fun a => by simp) hlatest
      ((chronological_perm fills).mem_iff.2 hfill)
    exact Fill.le_of_isLE_moment hle
  have htime : latest.time = last.time := by
    have hle := rel_last_of_pairwise h (fun a => le_refl a.time.toInt) hlast hmem'
    exact Int64.toInt_inj.1 (le_antisymm hle (hbefore last hmem).1)
  unfold EndsHighest
  rw [hlast]
  constructor
  · rintro hsame last' ⟨⟩ fill hfill htied
    rw [hsame]
    exact (hbefore fill hfill).2 (htied.trans htime.symm)
  · intro hhighest
    exact le_antisymm ((hbefore last hmem).2 htime.symm) (hhighest last rfl latest hmem' htime)

theorem Oracle.ofLastFill_eq {source : TradeSource} {symbol : String} (hfills : source.allTrades = .ok fills)
    (h : fills.Pairwise fun a b => a.time.toInt ≤ b.time.toInt)
    (hlast : (fills.filter (·.symbol = symbol)).getLast? = some last) :
    Oracle.ofLastFill source symbol = some last.price := by
  simp only [Oracle.ofLastFill, hfills, beq_eq_decide]
  rw [latestFill?_of_ascending (h.filter _), hlast]
  rfl

theorem Oracle.ofRates_eq_none {rates : Table String Decimal} {symbol : String} (hown : rates.get? symbol = .none)
    (hinverse : ∀ front back, splitAtDash? symbol = some (front, back) → rates.get? (back ++ "-" ++ front) = .none) :
    Oracle.ofRates rates symbol = .none := by
  unfold Oracle.ofRates
  rw [hown]
  cases hsplit : splitAtDash? symbol with
  | none => rfl
  | some sides =>
    obtain ⟨front, back⟩ := sides
    dsimp only
    rw [hinverse front back hsplit]
    rfl

/-! ## The reports -/

namespace Market

open FullReport (fillsOf)

variable {σ : Type} {market : Market σ} {store : Store} {rates : Table String Decimal} {scope : String}
  {listing : Listing} {start : ℤ} {before after : Elapsed σ} {report : WindowReport} {window : Window}
  {full : AggregatedReport}

/-- A run keeps a symbol to itself: all fills of the symbol are its own, on one market, and it has no others. -/
structure KeepsToItself (scope : String) (listing : Listing) (fills : List Fill) : Prop where
  strategy_iff : ∀ fill ∈ fills, fill.strategy = scope ↔ fill.symbol = listing.symbol
  market : ∀ fill ∈ fills, fill.symbol = listing.symbol → fill.market = listing.market

theorem KeepsToItself.listing_eq (h : KeepsToItself scope listing fills) (hfill : fill ∈ fillsOf scope fills) :
    fill.listing = listing := by
  obtain ⟨hkept, hstrategy⟩ := List.mem_filter.1 hfill
  have hmem := List.mem_of_mem_filter hkept
  have hsymbol := (h.strategy_iff fill hmem).1 (of_decide_eq_true hstrategy)
  rw [Fill.listing, h.market fill hmem hsymbol, hsymbol]

/-- As soon as one fill of the run belongs to somebody, all of them do. -/
theorem KeepsToItself.fillsOf_eq (h : KeepsToItself scope listing fills) (hne : fillsOf scope fills ≠ []) :
    fillsOf scope fills = fills.filter (·.symbol = listing.symbol) := by
  obtain ⟨known, hknown⟩ := List.exists_mem_of_ne_nil _ hne
  have hlisting := h.listing_eq hknown
  obtain ⟨hkept, hstrategy⟩ := List.mem_filter.1 hknown
  have hresolvable := (List.mem_filter.1 hkept).2
  rw [fillsOf, List.filter_filter]
  refine List.filter_congr fun fill hfill => ?_
  rw [Bool.eq_iff_iff, Bool.and_eq_true, decide_eq_true_eq, decide_eq_true_eq, h.strategy_iff fill hfill,
    and_iff_left_iff_imp]
  intro hsymbol
  have hmarket : fill.market = known.market :=
    (h.market fill hfill hsymbol).trans (congrArg Listing.market hlisting).symm
  have hrun : fill.strategy = known.strategy :=
    ((h.strategy_iff fill hfill).2 hsymbol).trans (of_decide_eq_true hstrategy).symm
  rw [Fill.isResolvable, hmarket, hrun]
  exact hresolvable

/-- A window report marks the position of a run at the price of the fill that was read last, and the row of the run at
the highest price of the latest time. -/
theorem currentPrice_eq_latestPrice_iff (hsource : market.source = store.source)
    (horacle : market.oracle = (Oracle.ofRates rates).orElse (Oracle.ofLastFill store.source))
    (hrate : rates.get? listing.symbol = none)
    (hinverse : ∀ front back, splitAtDash? listing.symbol = some (front, back) →
      rates.get? (back ++ "-" ++ front) = none)
    (hkeeps : ∀ fills, store.allTrades = .ok fills → KeepsToItself scope listing fills)
    (hstart : ∀ fills, store.allTrades = .ok fills → ∀ fill ∈ fills, fill.strategy = scope → start ≤ fill.time.toInt)
    (hwindow : (market.windowReport (some scope) start).Gives before report after)
    (hfull : FullReport.compute store.source window = .ok (.aggregated full)) :
    ∃ fills entry row, store.allTrades = .ok fills ∧ report.markets = [entry] ∧
      full.rows.filter (·.strategy = scope) = [row] ∧
      (entry.currentPrice.toRat = row.latestPrice.toRat ↔
        EndsHighest (fills.filter (·.symbol = listing.symbol))) := by
  obtain ⟨since, hsince, hne, hentries⟩ := exists_entries hwindow
  rw [hsource] at hsince
  obtain ⟨fills, hfills, hrows⟩ := FullReport.rows_of_aggregated hfull
  have hfills : store.allTrades = .ok fills := hfills
  have hsame := Store.fillsOf_of_tradesSince hfills (hstart fills hfills) hsince
  have hlisting : ∀ fill ∈ since.filter Fill.isResolvable, fill.listing = listing := by
    rw [hsame]
    exact fun fill hfill => (hkeeps fills hfills).listing_eq hfill
  rw [WindowReport.groupByListing_of_listing hne hlisting, hsame] at hentries
  rw [hsame] at hne
  have hown := (hkeeps fills hfills).fillsOf_eq hne
  obtain ⟨entry, rest, ⟨_, holdings, _, -, hentry⟩, hrest, hmarkets⟩ := List.forall₂_cons_left_iff.1 hentries
  rw [List.forall₂_nil_left_iff.1 hrest] at hmarkets
  obtain ⟨first, latest, pricing, hidden, hpriced⟩ := hentry.exists_priced
  have hlatest : (chronological (fillsOf scope fills)).getLast? = some latest := hpriced.isLast
  have hsymbol : latest.symbol = listing.symbol := by
    have hmem := (chronological_perm _).mem_iff.1 (List.mem_of_getLast? hlatest)
    exact congrArg Listing.symbol ((hkeeps fills hfills).listing_eq hmem)
  obtain ⟨row, bounds, hrow, hcompute⟩ :=
    FullReport.exists_row_of_last hrows hlatest (hsymbol ▸ hpriced.pair)
  obtain ⟨latest', _, hlatest', -, -, hlatestPrice⟩ := PortfolioRow.exists_last_of_compute hcompute
  obtain rfl : latest = latest' := Option.some.inj (hlatest.symm.trans hlatest')
  refine ⟨fills, entry, row, hfills, hmarkets, hrow, ?_⟩
  rw [hown] at hlatest hne
  have hascending := Store.ascending_of_allTrades hfills
  obtain ⟨last, hlast⟩ : ∃ last, (fills.filter (·.symbol = listing.symbol)).getLast? = some last :=
    ⟨_, List.getLast?_eq_some_getLast hne⟩
  have hcurrentPrice : entry.currentPrice = last.price := by
    have hread : store.source.allTrades = .ok fills := hfills
    rw [hpriced.computed.currentPrice, hpriced.price, horacle,
      Oracle.orElse_of_none (Oracle.ofRates_eq_none hrate hinverse), Oracle.ofLastFill_eq hread hascending hlast]
    rfl
  rw [hcurrentPrice, hlatestPrice]
  exact price_eq_iff_endsHighest (hascending.filter _) hlast hlatest

def tiedFill (price : String) : Fill :=
  ⟨"venue", "A-B", "run", .buy, (Decimal.ofText? price).getD .zero, .one, .free, 1000, none, none⟩

/-- A store of two purchases of one moment, the second at a lower price. -/
def tiedStore : Store :=
  Store.freshStore.afterCalls [tiedFill "200", tiedFill "100"]

def tiedMarket : Market Unit :=
  { source := tiedStore.source
    oracle := (Oracle.ofRates Table.empty).orElse (.ofLastFill tiedStore.source)
    balances := .paper Table.empty
    derivatives := .usual
    timeout := 30000
    now := 2000 }

private theorem allTrades_tiedStore : tiedStore.allTrades = .ok [tiedFill "200", tiedFill "100"] :=
  Store.allTrades_afterCalls (by decide +kernel) (by decide +kernel) (by decide +kernel)

private theorem chronological_tied :
    chronological [tiedFill "200", tiedFill "100"] = [tiedFill "100", tiedFill "200"] := by
  have hafter : (tiedFill "200").compareChronology (tiedFill "100") = .gt := by decide +kernel
  simp [chronological, chronologicalBy, List.mergeSort, hafter]

private theorem oracle_tiedMarket : tiedMarket.oracle "A-B" = some (tiedFill "100").price := by
  have hlast : ([tiedFill "200", tiedFill "100"].filter (·.symbol = "A-B")).getLast? = some (tiedFill "100") := rfl
  have hknown : Oracle.ofLastFill tiedStore.source "A-B" = some (tiedFill "100").price :=
    Oracle.ofLastFill_eq allTrades_tiedStore (by simp [tiedFill]) hlast
  have hunknown : Oracle.ofRates Table.empty "A-B" = none := Oracle.ofRates_eq_none rfl fun _ _ _ => rfl
  have hboth : tiedMarket.oracle = (Oracle.ofRates Table.empty).orElse (.ofLastFill tiedStore.source) := rfl
  rw [hboth, Oracle.orElse_of_none hunknown, hknown]

theorem exists_windowReport_tied :
    ∃ report entry, (tiedMarket.windowReport (some "run") 0).Gives ⟨(), 0⟩ report ⟨(), 0⟩ ∧ report.markets = [entry] ∧
      entry.currentPrice = (tiedFill "100").price := by
  have hsince : tiedMarket.source.tradesSince 0 (some "run") none = .ok [tiedFill "200", tiedFill "100"] :=
    bind_eq_ok.2 ⟨_, allTrades_tiedStore, by decide +kernel⟩
  have hgroups : (groupByListing [tiedFill "200", tiedFill "100"]).entries
      = [(⟨"venue", "A-B"⟩, [tiedFill "200", tiedFill "100"])] := by
    decide +kernel
  have hpricing : tiedMarket.pricing "A-B" [tiedFill "200", tiedFill "100"]
      = .ok ⟨some (tiedFill "100").price, Table.empty⟩ :=
    pricing_eq_ok_iff.2 ⟨⟨"A", "B"⟩, Table.empty, by decide +kernel, rfl, by rw [oracle_tiedMarket]; rfl⟩
  have hcomputed : (Performance.ofOrdered .usual "venue" ⟨"A", "B"⟩ (tiedFill "100") (tiedFill "200")
      [tiedFill "100", tiedFill "200"] Table.empty 0 ⟨some (tiedFill "100").price, Table.empty⟩ >>= fun entry =>
        WindowReport.ofMarkets ⟨0, 2000⟩ [entry]).map (fun _ => ()) = .ok () := by
    decide +kernel
  obtain ⟨report, entry, hidden, hgives, hmarkets, hfigures⟩ := exists_windowReport_of_figures hsince hgroups rfl
    hpricing chronological_tied rfl rfl (by decide +kernel) hcomputed
  exact ⟨report, entry, hgives, hmarkets, hfigures.currentPrice⟩

private theorem exists_fullReport_tied :
    ∃ full row, FullReport.compute tiedStore.source ⟨0, 2000⟩ = .ok (.aggregated full) ∧ full.rows = [row] ∧
      row.strategy = "run" ∧ row.latestPrice = (tiedFill "200").price := by
  have hgroups : (groupByStrategy [tiedFill "200", tiedFill "100"]).entries
      = [("run", [tiedFill "200", tiedFill "100"])] := by
    decide +kernel
  have hcomputed : (PortfolioRow.ofOrdered "run" ⟨"A", "B"⟩ (tiedFill "200") [tiedFill "100", tiedFill "200"] none).map
      (fun _ => ()) = .ok () := by
    decide +kernel
  obtain ⟨row, hrow, -⟩ := map_eq_ok.1 hcomputed
  have hlast : (chronological [tiedFill "200", tiedFill "100"]).getLast? = some (tiedFill "200") := by
    rw [chronological_tied]
    rfl
  have hcompute : PortfolioRow.compute "run" [tiedFill "200", tiedFill "100"] none = .ok row := by
    have hpair : Pair.ofSymbol? (tiedFill "200").symbol = some ⟨"A", "B"⟩ := by decide +kernel
    rw [PortfolioRow.compute_of_last hlast hpair, chronological_tied, hrow]
    rfl
  have hbounds : tiedStore.source.balanceBounds "run" = .ok none := by decide +kernel
  have hrows : FullReport.rows tiedStore.source [("run", [tiedFill "200", tiedFill "100"])] = .ok (.ok [row]) := by
    rw [FullReport.rows, FullReport.row?_of_bounds hbounds, hcompute]
    rfl
  obtain ⟨last, _, hlast', -, -, hprice⟩ := PortfolioRow.exists_last_of_compute hcompute
  obtain rfl := Option.some.inj (hlast.symm.trans hlast')
  have hsome : ∃ fill ∈ [tiedFill "200", tiedFill "100"], fill.isResolvable = true :=
    ⟨_, List.mem_cons_self, by decide +kernel⟩
  have hfull : FullReport.compute tiedStore.source ⟨0, 2000⟩
      = .ok (.aggregated ⟨⟨0, 2000⟩, [row], strategiesOf [tiedFill "200", tiedFill "100"],
          marketsOf [tiedFill "200", tiedFill "100"], runsByMarket [tiedFill "200", tiedFill "100"]⟩) := by
    rw [FullReport.compute, FullReport.assemble_of_fill allTrades_tiedStore hsome, hgroups, hrows]
    rfl
  exact ⟨_, row, hfull, rfl, (PortfolioRow.sums_of_compute hcompute).2.1, hprice⟩

theorem tied_of_mem (hfills : tiedStore.allTrades = .ok fills) (hfill : fill ∈ fills) :
    fill.strategy = "run" ∧ fill.listing = ⟨"venue", "A-B"⟩ ∧ fill.time = 1000 := by
  rw [allTrades_tiedStore] at hfills
  rw [← Except.ok.inj hfills] at hfill
  rcases List.mem_pair.1 hfill with rfl | rfl
  · exact ⟨rfl, rfl, rfl⟩
  · exact ⟨rfl, rfl, rfl⟩

private theorem keepsToItself_tied (hfills : tiedStore.allTrades = .ok fills) :
    KeepsToItself "run" ⟨"venue", "A-B"⟩ fills := by
  refine ⟨fun fill hfill => ?_, fun fill hfill _ => ?_⟩
  · exact iff_of_true (tied_of_mem hfills hfill).1 (congrArg Listing.symbol (tied_of_mem hfills hfill).2.1)
  · exact congrArg Listing.market (tied_of_mem hfills hfill).2.1

private theorem start_le_tied (hfills : tiedStore.allTrades = .ok fills) : ∀ fill ∈ fills, 0 ≤ fill.time.toInt := by
  intro fill hfill
  rw [(tied_of_mem hfills hfill).2.2]
  decide

theorem currentPrice_eq_latestPrice_iff_tied :
    ∃ report full, (tiedMarket.windowReport (some "run") 0).Gives ⟨(), 0⟩ report ⟨(), 0⟩ ∧
      FullReport.compute tiedStore.source ⟨0, 2000⟩ = .ok (.aggregated full) ∧
      ∃ fills entry row, tiedStore.allTrades = .ok fills ∧ report.markets = [entry] ∧
        full.rows.filter (·.strategy = "run") = [row] ∧
        (entry.currentPrice.toRat = row.latestPrice.toRat ↔ EndsHighest (fills.filter (·.symbol = "A-B"))) := by
  obtain ⟨report, -, hwindow, -, -⟩ := exists_windowReport_tied
  obtain ⟨full, -, hfull, -, -⟩ := exists_fullReport_tied
  exact ⟨report, full, hwindow, hfull, currentPrice_eq_latestPrice_iff rfl rfl rfl (fun _ _ _ => rfl)
    (fun _ hfills => keepsToItself_tied hfills) (fun _ hfills fill hfill _ => start_le_tied hfills fill hfill)
    hwindow hfull⟩

/-- Of two fills of one moment, the one with the higher price was recorded first. -/
theorem not_currentPrice_eq_latestPrice :
    ¬∀ (store : Store) (market : Market Unit) (rates : Table String Decimal) (scope : String) (listing : Listing)
      (start : ℤ) (before after : Elapsed Unit) (report : WindowReport) (window : Window) (full : AggregatedReport),
      market.source = store.source →
      market.oracle = (Oracle.ofRates rates).orElse (Oracle.ofLastFill store.source) →
      rates.get? listing.symbol = none →
      (∀ front back, splitAtDash? listing.symbol = some (front, back) → rates.get? (back ++ "-" ++ front) = none) →
      (∀ fills, store.allTrades = .ok fills → KeepsToItself scope listing fills) →
      (∀ fills, store.allTrades = .ok fills → ∀ fill ∈ fills, fill.strategy = scope → start ≤ fill.time.toInt) →
      (market.windowReport (some scope) start).Gives before report after →
      FullReport.compute store.source window = .ok (.aggregated full) →
      ∀ entry ∈ report.markets, ∀ row ∈ full.rows, row.strategy = scope →
        entry.currentPrice.toRat = row.latestPrice.toRat := by
  intro h
  obtain ⟨report, entry, hwindow, hmarkets, hcurrent⟩ := exists_windowReport_tied
  obtain ⟨full, row, hfull, hrows, hstrategy, hlatest⟩ := exists_fullReport_tied
  have hentry : entry ∈ report.markets := by
    rw [hmarkets]
    exact List.mem_singleton_self entry
  have hrow : row ∈ full.rows := by
    rw [hrows]
    exact List.mem_singleton_self row
  have hsame : entry.currentPrice.toRat = row.latestPrice.toRat :=
    h tiedStore tiedMarket Table.empty "run" ⟨"venue", "A-B"⟩ 0 _ _ report _ full rfl rfl rfl (fun _ _ _ => rfl)
      (fun _ hfills => keepsToItself_tied hfills) (fun _ hfills fill hfill _ => start_le_tied hfills fill hfill)
      hwindow hfull entry hentry row hrow hstrategy
  rw [hcurrent, hlatest] at hsame
  exact absurd hsame (by decide +kernel)

end Market

end TradeReport
