import TradeReport.Proofs.Listing
import TradeReport.Proofs.Performance.Figures
import TradeReport.Proofs.Reporting
import TradeReport.Proofs.Store.Recording
/-!
# What a window report covers

A window report has one entry for each listing that a run traded on since the start of the window, in the order of
the bytes of market and symbol, and the entries count each fill once (`windowReport_covers`). Fills that no market or
no run is known for are left out.
-/

namespace TradeReport

/-- Those fills of a run since some time that are of a market and a run with a name. -/
def reportedFills (scope : String) (start : Int) (fills : List Fill) : List Fill :=
  fills.filter fun fill =>
    fill.strategy = scope ∧ start ≤ fill.time.toInt ∧ isBlank fill.market = false ∧ isBlank fill.strategy = false

theorem Store.tradesSince_of_allTrades {store : Store} {all : List Fill} (hall : store.allTrades = .ok all)
    (start : Int) (scope : String) : store.tradesSince start (some scope) none
      = .ok (all.filter fun fill => decide (start ≤ fill.time.toInt) && isOfRun (some scope) fill) := by
  rw [tradesSince, hall]
  rfl

/-- What is reported on are the fills that belong to somebody among those that the store tells. -/
theorem Store.reportedFills_eq {store : Store} {scope : String} {start : Int} {all fills : List Fill}
    (hall : store.allTrades = .ok all) (h : store.tradesSince start (some scope) none = .ok fills) :
    fills.filter Fill.isResolvable = reportedFills scope start all := by
  obtain ⟨all', hall', h⟩ := bind_eq_ok.1 h
  obtain rfl : all = all' := Except.ok.inj (hall.symm.trans hall')
  obtain rfl := pure_eq_ok.1 h
  rw [reportedFills, List.filter_filter]
  apply List.filter_congr
  intro fill _
  rw [Fill.isResolvable, isOfRun, Option.all_some, Bool.eq_iff_iff]
  simp only [Bool.and_eq_true, Bool.not_eq_true', decide_eq_true_eq, beq_iff_eq]
  tauto

theorem Store.perm_of_tradesSince {store : Store} {scope : String} {start : Int} {fills : List Fill}
    (h : store.tradesSince start (some scope) none = .ok fills) :
    ∃ files, store.Logged store.tradesFolder files ∧ (fills.filter Fill.isResolvable).Perm
      (reportedFills scope start (recordsOf Fill.ofLine? files)) := by
  obtain ⟨all, hall, -⟩ := bind_eq_ok.1 h
  obtain ⟨files, hlogged, hperm⟩ := exists_logged_of_allTrades hall
  refine ⟨files, hlogged, ?_⟩
  rw [reportedFills_eq hall h]
  exact hperm.filter _

/-! ## Entries -/

namespace WindowReport

open Performance

def countOf (fills : List Fill) (listing : Listing) (side : Side) : ℕ :=
  fills.countP fun fill => fill.listing = listing ∧ fill.side = side

/-- A report covers fills when each listing of theirs has one entry, in the order of bytes, and each entry counts the
fills of its listing. -/
structure Covers (fills : List Fill) (report : WindowReport) : Prop where
  inOrder : (report.markets.map entryListing).Pairwise Listing.BytesBefore
  listings : ∀ listing, listing ∈ report.markets.map entryListing ↔ ∃ fill ∈ fills, fill.listing = listing
  buys : ∀ entry ∈ report.markets, entry.turnover.counts.buy = countOf fills (entryListing entry) .buy
  sells : ∀ entry ∈ report.markets, entry.turnover.counts.sell = countOf fills (entryListing entry) .sell
  totals : ∀ entry ∈ report.markets,
    entry.turnover.counts.total = fills.countP fun fill => fill.listing = entryListing entry
  sum : (report.markets.map (·.turnover.counts.total)).sum = fills.length

theorem Covers.perm {fills fills' : List Fill} {report : WindowReport} (h : report.Covers fills)
    (hperm : fills.Perm fills') : report.Covers fills' := by
  refine ⟨h.inOrder, fun listing => ?_, fun entry hentry => ?_, fun entry hentry => ?_, fun entry hentry => ?_, ?_⟩
  · rw [h.listings]
    simp only [hperm.mem_iff]
  · rw [h.buys entry hentry, countOf, hperm.countP_eq, countOf]
  · rw [h.sells entry hentry, countOf, hperm.countP_eq, countOf]
  · rw [h.totals entry hentry, hperm.countP_eq]
  · rw [h.sum, hperm.length_eq]

private theorem countOf_buy_add_sell (fills : List Fill) (listing : Listing) :
    countOf fills listing .buy + countOf fills listing .sell = fills.countP fun fill => fill.listing = listing := by
  induction fills with
  | nil => rfl
  | cons fill rest ih =>
    unfold countOf at ih ⊢
    simp only [List.countP_cons, ← ih]
    cases fill.side <;> by_cases h : fill.listing = listing <;> simp [h] <;> omega

variable {derivatives : DerivativeMarkets} {listing : Listing} {fills : List Fill} {holdings : Snapshot}
  {windowStart : Int64} {pricing : Pricing} {p : Performance}

theorem entryListing_of_calculate (h : calculate derivatives listing fills holdings windowStart pricing = .ok p) :
    entryListing p = listing := by
  obtain ⟨first, last, pair, -, -, hpair, hrun⟩ := calculate_eq_ok_iff.1 h
  obtain ⟨hidden, hcomputed⟩ := ofOrdered_eq_ok_iff.1 hrun
  rw [entryListing, hcomputed.ofMarket, hcomputed.ofPair, Pair.symbol_of_ofSymbol? hpair]

private theorem counts_of_calculate (h : calculate derivatives listing fills holdings windowStart pricing = .ok p)
    (side : Side) : p.turnover.counts.on side = (ofSide side fills).length := by
  obtain ⟨first, last, pair, -, -, -, hrun⟩ := calculate_eq_ok_iff.1 h
  obtain ⟨hidden, hcomputed⟩ := ofOrdered_eq_ok_iff.1 hrun
  rw [Turnover.counts_of_ofFills hcomputed.turnover]
  exact ((chronological_perm fills).filter _).length_eq

private theorem counts_total_of_calculate
    (h : calculate derivatives listing fills holdings windowStart pricing = .ok p) :
    p.turnover.counts.total = p.turnover.counts.buy + p.turnover.counts.sell := by
  obtain ⟨first, last, pair, -, -, -, hrun⟩ := calculate_eq_ok_iff.1 h
  obtain ⟨hidden, hcomputed⟩ := ofOrdered_eq_ok_iff.1 hrun
  exact Turnover.counts_total_eq hcomputed.turnover

private theorem sum_map_ite_eq_count (listing : Listing) (listings : List Listing) :
    (listings.map fun other => if listing = other then 1 else 0).sum = listings.count listing := by
  induction listings with
  | nil => rfl
  | cons first rest ih =>
    rw [List.map_cons, List.sum_cons, ih, List.count_cons, Nat.add_comm]
    simp only [beq_iff_eq, eq_comm (a := first)]

/-- Fills are counted once when each of their listings is there once. -/
theorem sum_countP_listing {listings : List Listing} (hnodup : listings.Nodup)
    (hfills : ∀ fill ∈ fills, fill.listing ∈ listings) :
    (listings.map fun listing => fills.countP fun fill => fill.listing = listing).sum = fills.length := by
  induction fills with
  | nil => simp
  | cons fill rest ih =>
    rw [List.forall_mem_cons] at hfills
    simp only [List.countP_cons, decide_eq_true_eq]
    rw [List.sum_map_add, ih hfills.2, sum_map_ite_eq_count, List.count_eq_one_of_mem hnodup hfills.1,
      List.length_cons]

def Computed (groups : List (Listing × List Fill)) (entries : List Performance) : Prop :=
  List.Forall₂ (fun group entry => ∃ derivatives holdings windowStart pricing,
    calculate derivatives group.1 group.2 holdings windowStart pricing = .ok entry) groups entries

theorem Computed.exists_group {groups : List (Listing × List Fill)} {entries : List Performance}
    (h : Computed groups entries) {entry : Performance} (hentry : entry ∈ entries) :
    ∃ group ∈ groups, ∃ derivatives holdings windowStart pricing,
      calculate derivatives group.1 group.2 holdings windowStart pricing = .ok entry :=
  exists_of_forall₂ h hentry

theorem map_entryListing_of_computed {groups : List (Listing × List Fill)} {entries : List Performance}
    (h : Computed groups entries) : entries.map entryListing = groups.map (·.1) := by
  induction h with
  | nil => rfl
  | cons hentry _ ih =>
    obtain ⟨_, _, _, _, hcalculate⟩ := hentry
    rw [List.map_cons, List.map_cons, entryListing_of_calculate hcalculate, ih]

theorem ascending_of_computed {entries : List Performance} (h : Computed (groupByListing fills).entries entries) :
    (entries.map entryListing).Pairwise fun a b => compare a b = .lt := by
  rw [map_entryListing_of_computed h]
  exact (groupByListing fills).keys_ascending

/-- Entries of groups are already in the order that a report puts them in. -/
theorem ofMarkets_of_computed {window : Window} {entries : List Performance}
    (h : Computed (groupByListing fills).entries entries) :
    ofMarkets window entries
      = (do return ⟨window, entries, ← Decimal.mean? (entries.filterMap (·.returnRatio))⟩) := by
  have hsorted : (entries.mergeSort fun a b => (compare (entryListing a) (entryListing b)).isLE) = entries := by
    refine List.mergeSort_of_pairwise ((List.pairwise_map.1 (ascending_of_computed h)).imp fun {a b} hab => ?_)
    rw [hab]
    rfl
  rw [ofMarkets, hsorted]

/-- Each entry counts the fills of its group, and the group has every fill of its listing. -/
theorem counts_of_computed {entries : List Performance} (h : Computed (groupByListing fills).entries entries)
    {entry : Performance} (hentry : entry ∈ entries) (side : Side) :
    entry.turnover.counts.on side = countOf (fills.filter Fill.isResolvable) (entryListing entry) side := by
  obtain ⟨group, hgroup, _, _, _, _, hcalculate⟩ := h.exists_group hentry
  have hgroupFills : group.2 = (fills.filter Fill.isResolvable).filter (·.listing = group.1) :=
    Table.eq_filter_of_mem_group hgroup
  rw [counts_of_calculate hcalculate, entryListing_of_calculate hcalculate, hgroupFills, countOf, ofSide,
    ← List.countP_eq_length_filter, List.countP_filter]
  apply List.countP_congr
  intro fill _
  simp [and_comm]

theorem counts_total_of_computed {entries : List Performance} {groups : List (Listing × List Fill)}
    (h : Computed groups entries) {entry : Performance} (hentry : entry ∈ entries) :
    entry.turnover.counts.total = entry.turnover.counts.buy + entry.turnover.counts.sell := by
  obtain ⟨group, -, _, _, _, _, hcalculate⟩ := h.exists_group hentry
  exact counts_total_of_calculate hcalculate

theorem covers_of_computed {entries : List Performance} (h : Computed (groupByListing fills).entries entries)
    {window : Window} {average : Figure} : Covers (fills.filter Fill.isResolvable) ⟨window, entries, average⟩ := by
  have hascending := ascending_of_computed h
  have hmem : ∀ listing, listing ∈ entries.map entryListing ↔
      ∃ fill ∈ fills.filter Fill.isResolvable, fill.listing = listing := by
    intro listing
    rw [map_entryListing_of_computed h]
    exact Table.mem_keys_group _
  have htotals : ∀ entry ∈ entries, entry.turnover.counts.total
      = (fills.filter Fill.isResolvable).countP fun fill => fill.listing = entryListing entry := by
    intro entry hentry
    have hbuys : entry.turnover.counts.buy = _ := counts_of_computed h hentry .buy
    have hsells : entry.turnover.counts.sell = _ := counts_of_computed h hentry .sell
    rw [counts_total_of_computed h hentry, hbuys, hsells, countOf_buy_add_sell]
  refine ⟨hascending.imp Listing.bytesBefore_of_compare, hmem, fun entry hentry => counts_of_computed h hentry .buy,
    fun entry hentry => counts_of_computed h hentry .sell, htotals, ?_⟩
  rw [List.map_congr_left htotals, ← sum_countP_listing (Table.nodup_of_ascending hascending)
    fun fill hfill => (hmem fill.listing).2 ⟨fill, hfill, rfl⟩, List.map_map]
  rfl

theorem covers_of_groups {window : Window} {entries : List Performance} {report : WindowReport}
    (hentries : Computed (groupByListing fills).entries entries) (h : ofMarkets window entries = .ok report) :
    report.Covers (fills.filter Fill.isResolvable) := by
  rw [ofMarkets_of_computed hentries] at h
  obtain ⟨average, -, h⟩ := bind_eq_ok.1 h
  rw [← pure_eq_ok.1 h]
  exact covers_of_computed hentries

end WindowReport

/-! ## Reports -/

namespace Market

variable {σ : Type} {market : Market σ} {scope : String} {start : Int} {before after : Elapsed σ}
  {report : WindowReport}

private theorem calculate_of_resolve {group : Listing × List Fill} {entry : Performance}
    (h : (market.resolve start group).Gives before entry after) :
    ∃ holdings pricing,
      Performance.calculate market.derivatives group.1 group.2 holdings (Int64.ofInt start) pricing = .ok entry := by
  obtain ⟨holdings, _, -, h⟩ := Reporting.gives_bind_iff.1 h
  obtain ⟨pricing, _, -, h⟩ := Reporting.gives_bind_iff.1 h
  exact ⟨holdings, pricing, (Reporting.gives_ofCalculation_iff.1 h).1⟩

theorem computed_of_mapM {groups : List (Listing × List Fill)} {entries : List Performance}
    (h : (groups.mapM (market.resolve start)).Gives before entries after) : WindowReport.Computed groups entries := by
  refine (Reporting.forall₂_of_gives_mapM h).imp fun group entry => ?_
  intro h
  obtain ⟨_, _, hentry⟩ := h
  obtain ⟨holdings, pricing, hcalculate⟩ := calculate_of_resolve hentry
  exact ⟨_, _, _, _, hcalculate⟩

theorem exists_resolved (h : (market.windowReport (some scope) start).Gives before report after) :
    ∃ fills entries, market.source.tradesSince start (some scope) none = .ok fills ∧
      (groupByListing fills).isEmpty = false ∧
      ((groupByListing fills).entries.mapM (market.resolve start)).Gives before entries after ∧
      WindowReport.ofMarkets ⟨start, market.now⟩ entries = .ok report := by
  obtain ⟨fills, _, hread, h⟩ := Reporting.gives_bind_iff.1 h
  obtain ⟨hfills, rfl⟩ := Reporting.gives_ofSource_iff.1 hread
  dsimp only at h
  split at h
  · exact absurd h Reporting.not_gives_fail
  · rename_i hsome
    obtain ⟨entries, _, hentries, hmade⟩ := Reporting.gives_bind_iff.1 h
    obtain ⟨hreport, rfl⟩ := Reporting.gives_ofArithmetic_iff.1 hmade
    exact ⟨fills, entries, hfills, Bool.eq_false_of_not_eq_true hsome, hentries, hreport⟩

theorem gives_windowReport (h : (market.windowReport (some scope) start).Gives before report after) :
    ∃ fills entries, market.source.tradesSince start (some scope) none = .ok fills ∧
      WindowReport.Computed (groupByListing fills).entries entries ∧
      WindowReport.ofMarkets ⟨start, market.now⟩ entries = .ok report := by
  obtain ⟨fills, entries, hfills, -, hentries, hreport⟩ := exists_resolved h
  exact ⟨fills, entries, hfills, computed_of_mapM hentries, hreport⟩

theorem gives_windowReport_of_entries {fills : List Fill} {entries : List Performance} {average : Figure}
    (hfills : market.source.tradesSince start (some scope) none = .ok fills)
    (hsome : (groupByListing fills).isEmpty = false)
    (hentries : ((groupByListing fills).entries.mapM (market.resolve start)).Gives before entries after)
    (haverage : Decimal.mean? (entries.filterMap (·.returnRatio)) = .ok average) :
    (market.windowReport (some scope) start).Gives before ⟨⟨start, market.now⟩, entries, average⟩ after := by
  refine Reporting.gives_bind_iff.2 ⟨fills, before, Reporting.gives_ofSource_iff.2 ⟨hfills, rfl⟩, ?_⟩
  dsimp only
  rw [if_neg (by simp [hsome])]
  refine Reporting.gives_bind_iff.2 ⟨entries, after, hentries, Reporting.gives_ofArithmetic_iff.2 ⟨?_, rfl⟩⟩
  rw [WindowReport.ofMarkets_of_computed (computed_of_mapM hentries), haverage]
  rfl

/-- A group of fills in order is resolved without sorting it. -/
def resolveInOrder (market : Market σ) (start : ℤ) (group : Listing × List Fill) : Reporting σ Performance := do
  let holdings ← market.fetch group.1.market
  let pricing ← Reporting.ofCalculation (market.pricing group.1.symbol group.2)
  Reporting.ofCalculation
    (Performance.calculateInOrder market.derivatives group.1 group.2 holdings (Int64.ofInt start) pricing)

private theorem resolve_eq_inOrder {group : Listing × List Fill} (h : chronological group.2 = group.2) :
    market.resolve start group = market.resolveInOrder start group := by
  unfold resolve resolveInOrder
  simp only [Performance.calculate_eq_inOrder, h]

private theorem mapM_resolve_eq_inOrder {groups : List (Listing × List Fill)}
    (h : ∀ group ∈ groups, chronological group.2 = group.2) :
    groups.mapM (market.resolve start) = groups.mapM (market.resolveInOrder start) := by
  induction groups with
  | nil => rw [List.mapM_nil, List.mapM_nil]
  | cons group rest ih =>
    rw [List.forall_mem_cons] at h
    rw [List.mapM_cons, List.mapM_cons, resolve_eq_inOrder h.1, ih h.2]

/-- A report on fills in order, with what can be computed to hold of it. -/
theorem exists_windowReport_of_inOrder {fills : List Fill} {check : WindowReport → Bool}
    (hfills : market.source.tradesSince start (some scope) none = .ok fills)
    (hsome : (groupByListing fills).isEmpty = false)
    (hordered : ∀ group ∈ (groupByListing fills).entries, group.2.Pairwise fun a b => (a.compareChronology b).isLE)
    (h : ((((groupByListing fills).entries.mapM (market.resolveInOrder start)).runFrom before).1.toOption.any
      fun entries => (Decimal.mean? (entries.filterMap (·.returnRatio))).toOption.any fun average =>
        check ⟨⟨start, market.now⟩, entries, average⟩) = true) :
    ∃ report after, (market.windowReport (some scope) start).Gives before report after ∧ check report = true := by
  rw [← mapM_resolve_eq_inOrder fun group hgroup => chronological_of_pairwise (hordered group hgroup)] at h
  obtain ⟨entries, after, hentries, hany⟩ := Reporting.exists_gives_of_any h
  obtain ⟨average, haverage, hcheck⟩ := exists_eq_ok_of_any hany
  exact ⟨_, after, gives_windowReport_of_entries hfills hsome hentries haverage, hcheck⟩

/-- A window report from a store covers the fills of its run in the logs of the store, each of them once. -/
theorem windowReport_covers {store : Store} (hsource : market.source = store.source)
    (h : (market.windowReport (some scope) start).Gives before report after) :
    ∃ files, store.Logged store.tradesFolder files ∧
      report.Covers (reportedFills scope start (Store.recordsOf Fill.ofLine? files)) := by
  obtain ⟨fills, entries, hfills, hentries, hreport⟩ := gives_windowReport h
  rw [hsource] at hfills
  obtain ⟨files, hlogged, hperm⟩ := Store.perm_of_tradesSince hfills
  exact ⟨files, hlogged, (WindowReport.covers_of_groups hentries hreport).perm hperm⟩

/-- Fills of two runs. The first traded on three listings of two markets and was charged once, the other on one of
them, and one fill is of no market. -/
def mixedFills : List Fill :=
  [⟨"venue", "A-B", "run", .buy, .hundred, .one, .free, 1000, none, none⟩,
    ⟨"hall", "C-B", "other", .buy, .hundred, .one, .free, 1100, none, none⟩,
    ⟨"venue", "C-B", "run", .buy, .one, .hundred, ⟨none, none, [⟨"B", .one⟩]⟩, 1200, none, none⟩,
    ⟨"hall", "C-B", "run", .buy, .hundred, .one, .free, 1300, none, none⟩,
    ⟨"", "A-B", "run", .sell, .hundred, .one, .free, 1400, none, none⟩,
    ⟨"hall", "C-B", "other", .sell, .hundred, .one, .free, 1500, none, none⟩,
    ⟨"venue", "A-B", "run", .sell, .hundred, .one, .free, 1600, none, none⟩]

def mixedStore : Store :=
  Store.freshStore.afterCalls mixedFills

def mixedMarket : Market Unit :=
  ⟨mixedStore.source, .none, .paper Table.empty, .usual, 30000, 2000⟩

theorem allTrades_mixedStore : mixedStore.allTrades = .ok mixedFills :=
  Store.allTrades_afterCalls (by decide +kernel) (by decide +kernel) (by decide +kernel)

theorem tradesSince_mixedMarket (run : String) : mixedMarket.source.tradesSince 0 (some run) none
    = .ok (mixedFills.filter fun fill => decide (0 ≤ fill.time.toInt) && Store.isOfRun (some run) fill) :=
  Store.tradesSince_of_allTrades allTrades_mixedStore 0 run

theorem windowReport_covers_mixed :
    ∃ report after, (mixedMarket.windowReport (some "run") 0).Gives ⟨(), 0⟩ report after ∧
      report.markets.map WindowReport.entryListing = [⟨"hall", "C-B"⟩, ⟨"venue", "A-B"⟩, ⟨"venue", "C-B"⟩] ∧
      ∃ files, mixedStore.Logged mixedStore.tradesFolder files ∧
        report.Covers (reportedFills "run" 0 (Store.recordsOf Fill.ofLine? files)) := by
  obtain ⟨report, after, hgives, hlistings⟩ :
      ∃ report after, (mixedMarket.windowReport (some "run") 0).Gives ⟨(), 0⟩ report after ∧
        decide (report.markets.map WindowReport.entryListing
          = [⟨"hall", "C-B"⟩, ⟨"venue", "A-B"⟩, ⟨"venue", "C-B"⟩]) = true := by
    apply exists_windowReport_of_inOrder (tradesSince_mixedMarket "run") (by decide +kernel) (by decide +kernel)
    decide +kernel
  have hsource : mixedMarket.source = mixedStore.source := rfl
  exact ⟨report, after, hgives, of_decide_eq_true hlistings, windowReport_covers hsource hgives⟩

end Market

end TradeReport
