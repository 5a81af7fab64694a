import TradeReport.Proofs.Portfolio
/-!
# What a full report lists

A full report asks four questions of the log, and the answers fit together: what is listed under a market is listed
among the runs, a row stands under a market that lists its run, and there is a row for each run whose last fill has a
readable symbol (`AggregatedReport.Consistent`). The three tests for an empty log come to one: no fill belongs to
somebody. A log that cannot be read leads to a report of that fault instead.
-/

namespace TradeReport

open FullReport (fillsOf)

/-! ## The lists of a report -/

/-- Strictly ascending in the order of bytes. -/
def Increasing (texts : List String) : Prop :=
  texts.Pairwise fun a b => bytesOf a < bytesOf b

theorem increasing_of_ascending {texts : List String} (h : texts.Pairwise fun a b => compare a b = .lt) :
    Increasing texts :=
  h.imp bytesOf_lt

def strategiesOf (fills : List Fill) : List String :=
  distinct ((fills.map (·.strategy)).filter (!isBlank ·))

def marketsOf (fills : List Fill) : List String :=
  distinct ((fills.map (·.market)).filter (!isBlank ·))

def runsByMarket (fills : List Fill) : Table String (List String) :=
  (Table.group Fill.market (fills.filter Fill.isResolvable)).mapValues fun group => distinct (group.map (·.strategy))

section Lists

variable {fills : List Fill} {fill : Fill} {market run : String} {runs : List String}

theorem mem_strategiesOf (hfill : fill ∈ fills) (h : fill.isResolvable = true) :
    fill.strategy ∈ strategiesOf fills := by
  rw [Fill.isResolvable, Bool.and_eq_true] at h
  rw [strategiesOf, Table.mem_distinct, List.mem_filter]
  exact ⟨List.mem_map.2 ⟨fill, hfill, rfl⟩, h.2⟩

theorem mem_marketsOf (hfill : fill ∈ fills) (h : fill.isResolvable = true) :
    fill.market ∈ marketsOf fills := by
  rw [Fill.isResolvable, Bool.and_eq_true] at h
  rw [marketsOf, Table.mem_distinct, List.mem_filter]
  exact ⟨List.mem_map.2 ⟨fill, hfill, rfl⟩, h.1⟩

theorem mem_keys_runsByMarket :
    market ∈ (runsByMarket fills).keys ↔ ∃ fill ∈ fills, fill.isResolvable = true ∧ fill.market = market := by
  have hkeys : (runsByMarket fills).keys = (Table.group Fill.market (fills.filter Fill.isResolvable)).keys := by
    simp [runsByMarket, Table.keys, Table.mapValues]
  rw [hkeys, Table.mem_keys_group]
  simp [and_assoc]

theorem get?_runsByMarket (h : (runsByMarket fills).get? market = some runs) :
    runs = distinct (((fills.filter Fill.isResolvable).filter (·.market = market)).map (·.strategy)) := by
  rw [← Table.mem_entries_iff, runsByMarket, Table.mapValues] at h
  obtain ⟨entry, hentry, heq⟩ := List.mem_map.1 h
  obtain ⟨rfl, rfl⟩ := Prod.mk.inj heq
  rw [Table.eq_filter_of_mem_group hentry]

theorem exists_runs_of_fill (hfill : fill ∈ fills) (h : fill.isResolvable = true) :
    ∃ runs, (runsByMarket fills).get? fill.market = some runs ∧ fill.strategy ∈ runs := by
  obtain ⟨runs, hruns⟩ := Table.mem_keys_iff.1 (mem_keys_runsByMarket.2 ⟨fill, hfill, h, rfl⟩)
  refine ⟨runs, hruns, ?_⟩
  rw [get?_runsByMarket hruns, Table.mem_distinct]
  exact List.mem_map.2 ⟨fill, by simp [hfill, h], rfl⟩

theorem exists_fill_of_runs (h : (runsByMarket fills).get? market = some runs) (hrun : run ∈ runs) :
    ∃ fill ∈ fills, fill.isResolvable = true ∧ fill.strategy = run := by
  rw [get?_runsByMarket h, Table.mem_distinct] at hrun
  obtain ⟨fill, hfill, rfl⟩ := List.mem_map.1 hrun
  obtain ⟨hfill, hresolvable⟩ := List.mem_filter.1 (List.mem_of_mem_filter hfill)
  exact ⟨fill, hfill, hresolvable, rfl⟩

/-- The three lists are empty together where it matters: as soon as no fill belongs to somebody. -/
theorem isEmpty_lists_iff :
    ((strategiesOf fills).isEmpty || (marketsOf fills).isEmpty || (runsByMarket fills).isEmpty) = true ↔
      ∀ fill ∈ fills, fill.isResolvable = false := by
  constructor
  · intro hempty fill hfill
    by_contra hresolvable
    have h : fill.isResolvable = true := by simpa using hresolvable
    have hgrouped : (runsByMarket fills).isEmpty = false := by
      obtain ⟨runs, hruns, -⟩ := exists_runs_of_fill hfill h
      rw [Table.isEmpty, List.isEmpty_eq_false_iff]
      exact List.ne_nil_of_mem (Table.mem_entries_iff.2 hruns)
    have hstrategies := List.ne_nil_of_mem (mem_strategiesOf hfill h)
    have hmarkets := List.ne_nil_of_mem (mem_marketsOf hfill h)
    simp [hstrategies, hmarkets, hgrouped] at hempty
  · intro h
    have hnone : fills.filter Fill.isResolvable = [] := List.filter_eq_nil_iff.2 (by simpa using h)
    rw [runsByMarket, hnone, Bool.or_eq_true]
    exact .inr rfl

end Lists

/-- What the parts of a report say of one another, and of the fills that it is made from. -/
structure AggregatedReport.Consistent (fills : List Fill) (report : AggregatedReport) : Prop where
  rows_increasing : Increasing (report.rows.map (·.strategy))
  hasRow_iff : ∀ run, (∃ row ∈ report.rows, row.strategy = run) ↔
    ∃ last pair, (chronological (fillsOf run fills)).getLast? = some last ∧ Pair.ofSymbol? last.symbol = some pair
  totals : ∀ row ∈ report.rows, row.turnover.counts.total = (fillsOf row.strategy fills).length
  rows_listed : ∀ row ∈ report.rows,
    ∃ runs, report.strategiesByMarket.get? row.market = some runs ∧ row.strategy ∈ runs
  markets_listed : ∀ market ∈ report.strategiesByMarket.keys, market ∈ report.markets
  runs_listed : ∀ market runs, report.strategiesByMarket.get? market = some runs →
    ∀ run ∈ runs, run ∈ report.strategies
  strategies_increasing : Increasing report.strategies
  markets_increasing : Increasing report.markets
  keys_increasing : Increasing report.strategiesByMarket.keys
  runs_increasing : ∀ market runs, report.strategiesByMarket.get? market = some runs → Increasing runs

/-! ## One row -/

namespace PortfolioRow

variable {strategy : String} {fills : List Fill} {bounds : Option BalanceBounds} {row : PortfolioRow}

theorem Sums.total {own : List Fill} (h : row.Sums (chronological own)) : row.turnover.counts.total = own.length := by
  rw [Turnover.counts_total_of_ofFills h.turnover, (chronological_perm own).length_eq]

/-- A row stands under the market and at the price of the last fill, whose symbol names a pair. -/
theorem exists_last_of_compute (h : compute strategy fills bounds = .ok row) :
    ∃ last pair, (chronological fills).getLast? = some last ∧ Pair.ofSymbol? last.symbol = some pair ∧
      row.market = last.market ∧ row.latestPrice = last.price := by
  obtain ⟨last, pair, hlast, hpair, hcomputed⟩ := exists_computed h
  exact ⟨last, pair, hlast, hpair, hcomputed.ofMarket, hcomputed.latestPrice⟩

end PortfolioRow

/-! ## All rows -/

namespace FullReport

variable {source : TradeSource} {groups : List (String × List Fill)} {made : List PortfolioRow}

def rowOf (source : TradeSource) (group : String × List Fill) : Option PortfolioRow :=
  match row? source group with
  | .ok (.ok row) => row
  | _ => none

theorem rows_eq_filterMap (h : rows source groups = .ok (.ok made)) :
    (∀ group ∈ groups, row? source group = .ok (.ok (rowOf source group))) ∧
      made = groups.filterMap (rowOf source) := by
  induction groups generalizing made with
  | nil =>
    obtain rfl : [] = made := Except.ok.inj (pure_eq_ok.1 h)
    exact ⟨by simp, rfl⟩
  | cons group rest ih =>
    rw [rows, bind_eq_ok] at h
    obtain ⟨first, hfirst, h⟩ := h
    cases first with
    | error cause => cases h
    | ok first =>
      obtain ⟨more, hmore, h⟩ := bind_eq_ok.1 h
      cases more with
      | error cause => cases h
      | ok more =>
        obtain rfl : first.toList ++ more = made := Except.ok.inj (pure_eq_ok.1 h)
        obtain ⟨hrest, rfl⟩ := ih hmore
        have hown : rowOf source group = first := by rw [rowOf, hfirst]
        constructor
        · rw [List.forall_mem_cons, hown]
          exact ⟨hfirst, hrest⟩
        · rw [List.filterMap_cons, hown]
          cases first <;> rfl

theorem strategy_of_rowOf {group : String × List Fill} {row : PortfolioRow} (h : rowOf source group = some row) :
    row.strategy = group.1 := by
  have hmade : row? source group = .ok (.ok (some row)) := by
    unfold rowOf at h
    split at h
    · rename_i hmade
      rw [hmade, h]
    · cases h
  obtain ⟨bounds, hcompute⟩ := compute_of_row? hmade
  exact (PortfolioRow.sums_of_compute hcompute).2.1

theorem exists_rows (h : ∀ run, ∃ bounds, source.balanceBounds run = .ok bounds) (groups : List (String × List Fill)) :
    ∃ made, rows source groups = .ok made := by
  induction groups with
  | nil => exact ⟨_, rfl⟩
  | cons group rest ih =>
    obtain ⟨run, fills⟩ := group
    obtain ⟨bounds, hbounds⟩ := h run
    obtain ⟨more, hmore⟩ := ih
    have hfirst : ∃ first, row? source (run, fills) = .ok first := by
      rw [row?_of_bounds hbounds]
      rcases PortfolioRow.compute run fills bounds with (_ | _ | _) | _
      · exact ⟨_, rfl⟩
      · exact ⟨_, rfl⟩
      · exact ⟨_, rfl⟩
      · exact ⟨_, rfl⟩
    obtain ⟨first, hfirst⟩ := hfirst
    rw [rows, hfirst, hmore]
    cases first with
    | error cause => exact ⟨_, rfl⟩
    | ok first =>
      cases more with
      | error cause => exact ⟨_, rfl⟩
      | ok more => exact ⟨_, rfl⟩

theorem rowOf_eq_some_iff {run : String} {fills : List Fill} {bounds : Option BalanceBounds} {row : PortfolioRow}
    (hbounds : source.balanceBounds run = .ok bounds) :
    rowOf source (run, fills) = some row ↔ PortfolioRow.compute run fills bounds = .ok row := by
  rw [rowOf, row?_of_bounds hbounds]
  rcases PortfolioRow.compute run fills bounds with (_ | _ | _) | _
  · simp
  · simp
  · simp
  · simp

/-! ## Reading the logs -/

variable {store : Store} {window : Window} {fills : List Fill} {fault : Fault}

private theorem lists_of_allTrades (h : store.allTrades = .ok fills) :
    store.source.distinctStrategies = .ok (strategiesOf fills) ∧ store.source.distinctMarkets = .ok (marketsOf fills) ∧
      store.source.strategiesByMarket = .ok (runsByMarket fills) ∧ store.source.allTrades = .ok fills := by
  simp only [Store.source, Store.distinctStrategies, Store.distinctMarkets, Store.strategiesByMarket, h]
  exact ⟨rfl, rfl, rfl, trivial⟩

theorem compute_of_unreadable (h : store.allTrades = .error fault) (window : Window) :
    compute store.source window = .ok (.failed (.ofFault (fault.within "Failed to list strategy runs"))) := by
  have hstrategies : store.source.distinctStrategies = .error fault := by
    simp only [Store.source, Store.distinctStrategies, h]
    rfl
  rw [compute, assemble, hstrategies]
  rfl

private theorem assemble_eq (h : store.allTrades = .ok fills) (window : Window) :
    assemble store.source window
      = if (strategiesOf fills).isEmpty || (marketsOf fills).isEmpty || (runsByMarket fills).isEmpty then
          .ok (.ok (.failed .noHistoricalData))
        else
          (rows store.source (groupByStrategy fills).entries).map fun made => made.map fun rows =>
            .aggregated ⟨window, rows, strategiesOf fills, marketsOf fills, runsByMarket fills⟩ := by
  obtain ⟨hstrategies, hmarkets, hgrouped, hall⟩ := lists_of_allTrades h
  rw [assemble, hstrategies, hmarkets, hgrouped, hall]
  dsimp only [asking, Except.mapError, bind, Except.bind]
  split
  · rfl
  · rfl

private theorem compute_of_nothing (h : store.allTrades = .ok fills) (hnone : ∀ fill ∈ fills, fill.isResolvable = false)
    (window : Window) : compute store.source window = .ok (.failed .noHistoricalData) := by
  rw [compute, assemble_eq h, if_pos (isEmpty_lists_iff.2 hnone)]

theorem assemble_of_fill (h : store.allTrades = .ok fills) (hfill : ∃ fill ∈ fills, fill.isResolvable = true)
    (window : Window) :
    assemble store.source window
      = (rows store.source (groupByStrategy fills).entries).map fun made => made.map fun rows =>
          .aggregated ⟨window, rows, strategiesOf fills, marketsOf fills, runsByMarket fills⟩ := by
  rw [assemble_eq h, if_neg]
  rw [isEmpty_lists_iff]
  intro hnone
  obtain ⟨fill, hmem, hresolvable⟩ := hfill
  rw [hnone fill hmem] at hresolvable
  cases hresolvable

/-- The balances of all runs are in one log. -/
def recordedBalances (store : Store) : Except Fault (List RecordedBalance) :=
  store.readRecords RecordedBalance.ofLine? store.balanceLog

private theorem balanceBounds_of_error (h : recordedBalances store = .error fault) (run : String) :
    store.source.balanceBounds run = .error fault := by
  show store.balanceBounds run = _
  rw [recordedBalances] at h
  rw [Store.balanceBounds, Store.balancesOf, h]
  rfl

private theorem exists_balanceBounds {balances : List RecordedBalance} (h : recordedBalances store = .ok balances)
    (run : String) : ∃ bounds, store.source.balanceBounds run = .ok bounds := by
  show ∃ bounds, store.balanceBounds run = _
  rw [recordedBalances] at h
  rw [Store.balanceBounds, Store.balancesOf, h]
  exact ⟨_, rfl⟩

private theorem balanceBounds_of_nothing (h : recordedBalances store = .ok []) (run : String) :
    store.balanceBounds run = .ok none := by
  rw [recordedBalances] at h
  simp only [Store.balanceBounds, Store.balancesOf, h, bind, Except.bind, List.filter_nil, List.mergeSort_nil]
  rfl

/-- The first run, in the order of bytes, that has fills. -/
structure IsFirstRun (fills : List Fill) (run : String) : Prop where
  fills_ne_nil : fillsOf run fills ≠ []
  before : ∀ other, fillsOf other fills ≠ [] → other = run ∨ bytesOf run < bytesOf other

theorem mem_keys_groupByStrategy {run : String} : run ∈ (groupByStrategy fills).keys ↔ fillsOf run fills ≠ [] := by
  rw [groupByStrategy, Table.mem_keys_group, fillsOf, Ne, List.filter_eq_nil_iff]
  simp [and_assoc]

/-- Without the balance log there is no row, not even the first. -/
theorem compute_of_unreadable_balances (h : store.allTrades = .ok fills)
    (hfill : ∃ fill ∈ fills, fill.isResolvable = true) (hbalances : recordedBalances store = .error fault)
    (window : Window) :
    ∃ run, IsFirstRun fills run ∧ compute store.source window
      = .ok (.failed (.ofFault (fault.within ("Failed to load balance log of " ++ run)))) := by
  obtain ⟨fill, hmem, hresolvable⟩ := hfill
  have hkey : fill.strategy ∈ (groupByStrategy fills).keys := by
    rw [groupByStrategy, Table.mem_keys_group]
    exact ⟨fill, List.mem_filter.2 ⟨hmem, hresolvable⟩, rfl⟩
  cases hentries : (groupByStrategy fills).entries with
  | nil =>
    rw [Table.keys, hentries] at hkey
    cases hkey
  | cons group rest =>
    have hkeys : (groupByStrategy fills).keys = group.1 :: rest.map (·.1) := by rw [Table.keys, hentries]; rfl
    refine ⟨group.1, ⟨mem_keys_groupByStrategy.1 (by rw [hkeys]; exact List.mem_cons_self), ?_⟩, ?_⟩
    · intro other hother
      have hascending := (groupByStrategy fills).keys_ascending
      rw [← mem_keys_groupByStrategy, hkeys, List.mem_cons] at hother
      rw [hkeys, List.pairwise_cons] at hascending
      rcases hother with rfl | hother
      · exact .inl rfl
      · exact .inr (bytesOf_lt (hascending.1 other hother))
    · rw [compute, assemble_of_fill h ⟨fill, hmem, hresolvable⟩, hentries, rows, row?, asking,
        balanceBounds_of_error hbalances]
      rfl

/-! ## The report -/

theorem mem_entries_groupByStrategy {run : String} (h : fillsOf run fills ≠ []) :
    (run, fillsOf run fills) ∈ (groupByStrategy fills).entries := by
  obtain ⟨own, hown⟩ := Table.mem_keys_iff.1 (mem_keys_groupByStrategy.2 h)
  have hentry := Table.mem_entries_iff.2 hown
  have hfills : own = fillsOf run fills := Table.eq_filter_of_mem_group hentry
  rwa [hfills] at hentry

section Rows

variable {made : List PortfolioRow} (h : rows store.source (groupByStrategy fills).entries = .ok (.ok made))
include h

private theorem rows_increasing : Increasing (made.map (·.strategy)) := by
  rw [(rows_eq_filterMap h).2]
  apply increasing_of_ascending
  rw [List.pairwise_map, List.pairwise_filterMap]
  apply (groupByStrategy fills).ascending.imp
  intro a b hab row hrow other hother
  rw [strategy_of_rowOf hrow, strategy_of_rowOf hother]
  exact hab

private theorem exists_compute_of_mem {row : PortfolioRow} (hrow : row ∈ made) :
    ∃ bounds, PortfolioRow.compute row.strategy (fillsOf row.strategy fills) bounds = .ok row := by
  obtain ⟨⟨run, own⟩, hgroup, bounds, hcompute⟩ := exists_group_of_rows h hrow
  obtain ⟨-, rfl, -⟩ := PortfolioRow.sums_of_compute hcompute
  have hown : own = fillsOf row.strategy fills := Table.eq_filter_of_mem_group hgroup
  rw [← hown]
  exact ⟨bounds, hcompute⟩

theorem hasRow_iff (hbounds : ∀ run, ∃ bounds, store.source.balanceBounds run = .ok bounds) (run : String) :
    (∃ row ∈ made, row.strategy = run) ↔
      ∃ last pair, (chronological (fillsOf run fills)).getLast? = some last ∧
        Pair.ofSymbol? last.symbol = some pair := by
  constructor
  · rintro ⟨row, hrow, rfl⟩
    obtain ⟨bounds, hcompute⟩ := exists_compute_of_mem h hrow
    obtain ⟨last, pair, hlast, hpair, -⟩ := PortfolioRow.exists_last_of_compute hcompute
    exact ⟨last, pair, hlast, hpair⟩
  · rintro ⟨last, pair, hlast, hpair⟩
    have hne : fillsOf run fills ≠ [] := by
      apply List.ne_nil_of_mem
      exact (chronological_perm _).mem_iff.1 (List.mem_of_getLast? hlast)
    obtain ⟨hall, hmade⟩ := rows_eq_filterMap h
    obtain ⟨bounds, hown⟩ := hbounds run
    have hgroup := mem_entries_groupByStrategy hne
    have hcases : (∃ row, PortfolioRow.compute run (fillsOf run fills) bounds = .ok row) ∨
        ∃ cause, PortfolioRow.compute run (fillsOf run fills) bounds = .error (.overflow cause) :=
      PortfolioRow.exists_of_last hlast hpair
    rcases hcases with ⟨row, hcompute⟩ | ⟨cause, hcompute⟩
    · refine ⟨row, ?_, (PortfolioRow.sums_of_compute hcompute).2.1⟩
      rw [hmade, List.mem_filterMap]
      exact ⟨_, hgroup, (rowOf_eq_some_iff hown).2 hcompute⟩
    · obtain ⟨cause, hoverflow⟩ := row?_overflows_iff.2 ⟨bounds, cause, hown, hcompute⟩
      cases (hall _ hgroup).symm.trans hoverflow

/-- A row stands under a market on which its run traded. -/
theorem rows_listed {row : PortfolioRow} (hrow : row ∈ made) :
    ∃ runs, (runsByMarket fills).get? row.market = some runs ∧ row.strategy ∈ runs := by
  obtain ⟨bounds, hcompute⟩ := exists_compute_of_mem h hrow
  obtain ⟨last, -, hlast, -, hmarket, -⟩ := PortfolioRow.exists_last_of_compute hcompute
  have hmem := (chronological_perm _).mem_iff.1 (List.mem_of_getLast? hlast)
  obtain ⟨hkept, hstrategy⟩ := List.mem_filter.1 hmem
  obtain ⟨hfill, hresolvable⟩ := List.mem_filter.1 hkept
  obtain ⟨runs, hruns, hrun⟩ := exists_runs_of_fill hfill hresolvable
  refine ⟨runs, hmarket ▸ hruns, ?_⟩
  rwa [← of_decide_eq_true hstrategy]

private theorem consistent_of_rows (hbounds : ∀ run, ∃ bounds, store.source.balanceBounds run = .ok bounds) :
    AggregatedReport.Consistent fills
      ⟨window, made, strategiesOf fills, marketsOf fills, runsByMarket fills⟩ where
  rows_increasing := rows_increasing h
  hasRow_iff := hasRow_iff h hbounds
  totals row hrow := by
    obtain ⟨bounds, hcompute⟩ := exists_compute_of_mem h hrow
    exact (PortfolioRow.sums_of_compute hcompute).2.2.total
  rows_listed row hrow := rows_listed h hrow
  markets_listed market hmarket := by
    obtain ⟨fill, hfill, hresolvable, rfl⟩ := mem_keys_runsByMarket.1 hmarket
    exact mem_marketsOf hfill hresolvable
  runs_listed market runs hruns run hrun := by
    obtain ⟨fill, hfill, hresolvable, rfl⟩ := exists_fill_of_runs hruns hrun
    exact mem_strategiesOf hfill hresolvable
  strategies_increasing := increasing_of_ascending (Table.distinct_ascending _)
  markets_increasing := increasing_of_ascending (Table.distinct_ascending _)
  keys_increasing := increasing_of_ascending (runsByMarket fills).keys_ascending
  runs_increasing market runs hruns := by
    rw [get?_runsByMarket hruns]
    exact increasing_of_ascending (Table.distinct_ascending _)

end Rows

theorem exists_report_of_history {balances : List RecordedBalance} (h : store.allTrades = .ok fills)
    (hfill : ∃ fill ∈ fills, fill.isResolvable = true) (hbalances : recordedBalances store = .ok balances)
    (hrange : ¬Overflows store.source) (window : Window) :
    ∃ report, compute store.source window = .ok (.aggregated report) ∧ report.window = window ∧
      report.Consistent fills := by
  have hbounds := exists_balanceBounds hbalances
  obtain ⟨made, hmade⟩ := exists_rows hbounds (groupByStrategy fills).entries
  have hcompute : compute store.source window = made.map fun rows =>
      .aggregated ⟨window, rows, strategiesOf fills, marketsOf fills, runsByMarket fills⟩ := by
    rw [compute, assemble_of_fill h hfill, hmade]
    rfl
  cases made with
  | error cause => exact absurd (compute_overflows_iff.1 ⟨cause, hcompute⟩) hrange
  | ok made => exact ⟨_, hcompute, rfl, consistent_of_rows hmade hbounds⟩

theorem not_overflows_of_computed (hall : store.allTrades = .ok fills)
    (h : ∀ group ∈ (groupByStrategy fills).entries, ∀ bounds, store.balanceBounds group.1 = .ok bounds →
      ∃ row, PortfolioRow.compute group.1 group.2 bounds = .ok row) : ¬Overflows store.source := by
  intro hover
  obtain ⟨_, _, _, read, -, -, -, -, -, -, hread, earlier, run, own, later, bounds, cause, hgroups, -, hbounds, hcause⟩ :=
    hover
  obtain rfl : fills = read := Except.ok.inj (hall.symm.trans hread)
  have hgroup : (run, own) ∈ (groupByStrategy fills).entries := by
    rw [hgroups]
    exact List.mem_append_right _ List.mem_cons_self
  obtain ⟨row, hrow⟩ := h (run, own) hgroup bounds hbounds
  cases hrow.symm.trans hcause

/-- What a report says when the fills can be read. -/
structure Reports (store : Store) (window : Window) (fills : List Fill) (report : FullReport) : Prop where
  nothing_iff : report = .failed .noHistoricalData ↔ ∀ fill ∈ fills, fill.isResolvable = false
  unreadable : (∃ fill ∈ fills, fill.isResolvable = true) → ∀ fault, recordedBalances store = .error fault →
    ∃ run, IsFirstRun fills run ∧
      report = .failed (.ofFault (fault.within ("Failed to load balance log of " ++ run)))
  aggregated : (∃ fill ∈ fills, fill.isResolvable = true) → ∀ balances, recordedBalances store = .ok balances →
    ∃ made : AggregatedReport, report = .aggregated made ∧ made.window = window ∧ made.Consistent fills

private theorem exists_reports (h : store.allTrades = .ok fills) (hrange : ¬Overflows store.source) (window : Window) :
    ∃ report, compute store.source window = .ok report ∧ Reports store window fills report := by
  by_cases hfill : ∃ fill ∈ fills, fill.isResolvable = true
  · have hsome : ¬∀ fill ∈ fills, fill.isResolvable = false := by simpa using hfill
    cases hbalances : recordedBalances store with
    | error fault =>
      obtain ⟨run, hfirst, hcompute⟩ := compute_of_unreadable_balances h hfill hbalances window
      refine ⟨_, hcompute, ⟨iff_of_false (fun h => nomatch h) hsome, fun _ other hother => ?_, fun _ _ hok => ?_⟩⟩
      · rw [Except.error.inj (hother.symm.trans hbalances)]
        exact ⟨run, hfirst, rfl⟩
      · cases hok.symm.trans hbalances
    | ok balances =>
      obtain ⟨made, hcompute, hwindow, hconsistent⟩ := exists_report_of_history h hfill hbalances hrange window
      refine ⟨_, hcompute, ⟨iff_of_false (fun h => nomatch h) hsome, fun _ _ herror => ?_, fun _ _ _ => ?_⟩⟩
      · cases herror.symm.trans hbalances
      · exact ⟨made, rfl, hwindow, hconsistent⟩
  · have hnone : ∀ fill ∈ fills, fill.isResolvable = false := by simpa using hfill
    exact ⟨_, compute_of_nothing h hnone window,
      ⟨iff_of_true rfl hnone, fun hsome => absurd hsome hfill, fun hsome => absurd hsome hfill⟩⟩

/-- A full report of a log that can be read says that there is no history exactly when no fill belongs to somebody, and
otherwise its rows and lists are those of the fills and fit together. A log that cannot be read is reported as such. -/
theorem compute_consistent {store : Store} (hrange : ¬Overflows store.source) (window : Window) :
    ∃ report, compute store.source window = .ok report ∧
      (∀ fault, store.allTrades = .error fault →
        report = .failed (.ofFault (fault.within "Failed to list strategy runs"))) ∧
      ∀ fills, store.allTrades = .ok fills → Reports store window fills report := by
  cases hall : store.allTrades with
  | error fault =>
    refine ⟨_, compute_of_unreadable hall window, fun other hother => ?_, fun _ hok => (nomatch hok)⟩
    rw [Except.error.inj hother]
  | ok fills =>
    obtain ⟨report, hcompute, hreports⟩ := exists_reports hall hrange window
    refine ⟨report, hcompute, fun _ herror => (nomatch herror), fun other hother => ?_⟩
    rw [← Except.ok.inj hother]
    exact hreports

private theorem recordedBalances_mixedStore : recordedBalances Market.mixedStore = .ok [] := by
  decide +kernel

private theorem not_overflows_mixedStore : ¬Overflows Market.mixedStore.source := by
  have hgroups : ∀ group ∈ (groupByStrategy Market.mixedFills).entries,
      group.2.Pairwise (fun a b => (a.compareChronology b).isLE) ∧
        (PortfolioRow.computeInOrder group.1 group.2 none).toOption.any (fun _ => true) = true := by
    decide +kernel
  apply not_overflows_of_computed Market.allTrades_mixedStore
  intro group hgroup bounds hbounds
  obtain ⟨hordered, hany⟩ := hgroups group hgroup
  obtain rfl := Except.ok.inj ((balanceBounds_of_nothing recordedBalances_mixedStore group.1).symm.trans hbounds)
  obtain ⟨row, hrow, -⟩ := exists_eq_ok_of_any hany
  rw [PortfolioRow.compute_eq_inOrder, chronological_of_pairwise hordered]
  exact ⟨row, hrow⟩

theorem exists_mixedReport :
    ∃ made : AggregatedReport, compute Market.mixedStore.source ⟨0, 2000⟩ = .ok (.aggregated made) ∧
      ∀ run ∈ ["run", "other"], ∃ row ∈ made.rows, row.strategy = run := by
  have hsome : ∃ fill ∈ Market.mixedFills, fill.isResolvable = true := by decide +kernel
  obtain ⟨made, hmade, -, hconsistent⟩ :=
    exists_report_of_history Market.allTrades_mixedStore hsome recordedBalances_mixedStore not_overflows_mixedStore
      ⟨0, 2000⟩
  refine ⟨made, hmade, fun run hrun => (hconsistent.hasRow_iff run).2 ?_⟩
  have hruns : ∀ run ∈ ["run", "other"], (fillsOf run Market.mixedFills).Pairwise
        (fun a b => (a.compareChronology b).isLE) ∧
      (fillsOf run Market.mixedFills).getLast?.any (fun last => (Pair.ofSymbol? last.symbol).isSome) = true := by
    decide +kernel
  obtain ⟨hordered, hlast⟩ := hruns run hrun
  obtain ⟨last, hlast, hpair⟩ := (Option.any_eq_true _ _).1 hlast
  obtain ⟨pair, hpair⟩ := Option.isSome_iff_exists.1 hpair
  exact ⟨last, pair, by rw [chronological_of_pairwise hordered, hlast], hpair⟩

theorem compute_consistent_mixed :
    ∃ made : AggregatedReport, compute Market.mixedStore.source ⟨0, 2000⟩ = .ok (.aggregated made) ∧
      (∀ run ∈ ["run", "other"], ∃ row ∈ made.rows, row.strategy = run) ∧
      Reports Market.mixedStore ⟨0, 2000⟩ Market.mixedFills (.aggregated made) := by
  obtain ⟨made, hmade, hrows⟩ := exists_mixedReport
  obtain ⟨report, hcompute, -, hreports⟩ := compute_consistent not_overflows_mixedStore ⟨0, 2000⟩
  obtain rfl : report = .aggregated made := Except.ok.inj (hcompute.symm.trans hmade)
  exact ⟨made, hmade, hrows, hreports _ Market.allTrades_mixedStore⟩

/-- There is a third way for a report to end: a log that cannot be read is neither an empty one nor one with rows. -/
theorem not_only_history_or_nothing :
    ¬∀ (store : Store) (window : Window), ¬Overflows store.source →
      compute store.source window = .ok (.failed .noHistoricalData) ∨
        ∃ report, compute store.source window = .ok (.aggregated report) := by
  intro h
  obtain ⟨fault, hfault⟩ := Store.exists_fault_garbledStore
  have hcompute := compute_of_unreadable hfault ⟨0, 2000⟩
  have hrange : ¬Overflows Store.garbledStore.source := by
    intro hover
    obtain ⟨cause, hcause⟩ : ∃ cause, compute Store.garbledStore.source ⟨0, 2000⟩ = .error cause :=
      compute_overflows_iff.2 hover
    cases hcompute.symm.trans hcause
  rcases h Store.garbledStore ⟨0, 2000⟩ hrange with hnothing | ⟨report, hreport⟩
  · have htrace := congrArg ReportFailure.trace (failed.inj (Except.ok.inj (hcompute.symm.trans hnothing)))
    cases htrace
  · cases hcompute.symm.trans hreport

end FullReport

end TradeReport
