import TradeReport.Proofs.LatestPrice
import TradeReport.Proofs.Newest
import TradeReport.Proofs.RecentTrades
import TradeReport.Proofs.Store.Calls
/-!
# Recorded holdings

The balance log of a store is read for two purposes. A full report takes the bounds of a run from it, and a source of
balances the latest entry, under the tokens of the latest fill on a market. Both sort the entries of the run by time and
keep those of one time as they were recorded, so they see the same entry as the latest one
(`Store.recordedHoldings_agree`).
-/

namespace TradeReport

/-! ## What is read -/

/-- The bounds of the entries of a run: the first of the earliest time and the last of the latest. -/
inductive AreBounds (entries : List RecordedBalance) : Option BalanceBounds → Prop
  | none (h : entries = []) : AreBounds entries none
  | some {earliest latest : RecordedBalance} (hearliest : IsOldest (·.time) entries earliest)
      (hlatest : IsNewest (·.time) entries latest) : AreBounds entries (some ⟨earliest.plain, latest.plain⟩)

/-- Nothing is held but the totals of a balance, under the tokens of a pair. When both tokens are one, it holds the quote
total. -/
def HoldsTotals (snapshot : Snapshot) (pair : Pair) (balance : RecordedBalance) : Prop :=
  ∀ token, snapshot.get? token =
    if token = pair.quote then some balance.quote else if token = pair.base then some balance.base else none

/-- What is held on a market, given the fills of a run there and the bounds of its balances. -/
inductive AreHoldings (traded : List Fill) (bounds : Option BalanceBounds) : Except Fault Snapshot → Prop
  | noFill (h : traded = []) : AreHoldings traded bounds (.ok Table.empty)
  | noPair {newest : Fill} {fault : Fault} (hnewest : IsNewest (·.time) traded newest)
      (hpair : Pair.ofSymbol? newest.symbol = none) : AreHoldings traded bounds (.error fault)
  | noEntry {newest : Fill} {pair : Pair} (hnewest : IsNewest (·.time) traded newest)
      (hpair : Pair.ofSymbol? newest.symbol = some pair) (h : bounds = none) :
      AreHoldings traded bounds (.ok Table.empty)
  | entry {newest : Fill} {pair : Pair} {found : BalanceBounds} {snapshot : Snapshot}
      (hnewest : IsNewest (·.time) traded newest) (hpair : Pair.ofSymbol? newest.symbol = some pair)
      (h : bounds = some found) (hholds : HoldsTotals snapshot pair found.latest) :
      AreHoldings traded bounds (.ok snapshot)

private theorem holdsTotals_toSnapshot (balance : RecordedBalance) (pair : Pair) :
    HoldsTotals (balance.toSnapshot pair) pair balance := by
  intro token
  change ((Table.empty.put pair.base balance.base).put pair.quote balance.quote).get? token = _
  split
  · rename_i hquote
    rw [hquote, Table.get?_put_self]
  · rename_i hquote
    rw [Table.get?_put_ne hquote]
    split
    · rename_i hbase
      rw [hbase, Table.get?_put_self]
    · rename_i hbase
      rw [Table.get?_put_ne hbase]
      rfl

namespace Store

variable {store : Store} {run market : String} {fills recorded : List Fill} {balances : List RecordedBalance}

/-! ## The newest fill -/

section Chronicle

variable (h : IsChronicle recorded fills) {keep : Fill → Bool} (hkeep : ∀ fill : Fill, keep fill.plain = keep fill)
include h hkeep

theorem IsChronicle.filter_time (time : Int64) : (fills.filter keep).filter (·.time = time)
    = ((recorded.filter keep).map Fill.plain).filter (·.time = time) := by
  have hplain : ∀ list : List Fill, (list.map Fill.plain).filter keep = (list.filter keep).map Fill.plain := by
    intro list
    rw [List.filter_map]
    exact congrArg (List.map Fill.plain) (List.filter_congr fun fill _ => hkeep fill)
  rw [List.filter_comm, h.moments, hplain, filter_time_plain, List.filter_comm]

/-- The newest fill that is read is the newest of those that were recorded. -/
theorem IsChronicle.latestFill? : (latestFill? (fills.filter keep) = none ∧ recorded.filter keep = []) ∨
    ∃ newest, latestFill? (fills.filter keep) = some newest.plain ∧ IsNewest (·.time) (recorded.filter keep) newest := by
  have hascending := h.ascending.filter keep
  rw [latestFill?_of_ascending hascending]
  cases hlast : (fills.filter keep).getLast? with
  | none =>
    refine .inl ⟨rfl, List.eq_nil_iff_forall_not_mem.2 fun fill hfill => ?_⟩
    have hread : fill.plain ∈ fills.filter keep :=
      mem_of_filter_time (fun time => (h.filter_time hkeep time).symm) (List.mem_map_of_mem hfill)
    rw [List.getLast?_eq_none_iff.1 hlast] at hread
    exact List.not_mem_nil hread
  | some newest =>
    have hnewest := (isNewest_congr (h.filter_time hkeep)).1 (isNewest_of_getLast hascending hlast)
    obtain ⟨fill, hfill, rfl⟩ := hnewest.of_map (fun _ => rfl)
    exact .inr ⟨fill, rfl, hfill⟩

end Chronicle

/-- The fills of a run on a market whose time is not before the epoch. -/
def tradedOn (run market : String) (fills : List Fill) : List Fill :=
  fills.filter fun fill => fill.strategy = run ∧ fill.market = market ∧ 0 ≤ fill.time.toInt

theorem Tells.newestOn (htells : Tells store recorded) (run market : String) :
    ∃ read, store.tradesSince 0 (some run) none = .ok read ∧
      ((latestFill? (read.filter (·.market == market)) = none ∧ tradedOn run market recorded = []) ∨
        ∃ newest, latestFill? (read.filter (·.market == market)) = some newest.plain ∧
          IsNewest (·.time) (tradedOn run market recorded) newest) := by
  obtain ⟨fills, hfills, hchronicle⟩ := htells.allTrades
  have hkept : (fills.filter fun fill => decide (0 ≤ fill.time.toInt) && isOfRun (some run) fill).filter
      (·.market == market) = tradedOn run market fills := by
    rw [List.filter_filter, tradedOn]
    refine List.filter_congr fun fill _ => ?_
    rw [Bool.eq_iff_iff]
    simp [isOfRun]
    tauto
  refine ⟨_, by rw [tradesSince_none, hfills]; rfl, ?_⟩
  rw [hkept]
  exact hchronicle.latestFill? fun _ => rfl

/-! ## The entries -/

def entriesOf (run : String) (balances : List RecordedBalance) : List RecordedBalance :=
  balances.filter (·.strategy = run)

/-- In order of time, the ends of the entries are their bounds. -/
theorem exists_bounds_of_ascending {entries ordered : List RecordedBalance}
    (hascending : ordered.Pairwise fun a b => a.time.toInt ≤ b.time.toInt)
    (hmoments : ∀ time : Int64, ordered.filter (·.time = time) =
      (entries.map RecordedBalance.plain).filter (·.time = time)) :
    ∃ bounds, BalanceBounds.ofOrdered? ordered = bounds ∧ ordered.getLast? = bounds.map (·.latest) ∧
      AreBounds entries bounds := by
  cases hfirst : ordered.head? with
  | none =>
    obtain rfl := List.head?_eq_none_iff.1 hfirst
    refine ⟨none, rfl, rfl, .none (List.eq_nil_iff_forall_not_mem.2 fun entry hentry => ?_)⟩
    have hmem : entry.plain ∈ ([] : List RecordedBalance) :=
      mem_of_filter_time (fun time => (hmoments time).symm) (List.mem_map_of_mem hentry)
    exact List.not_mem_nil hmem
  | some first =>
    have hne : ordered ≠ [] := by
      rintro rfl
      cases hfirst
    have hlast := List.getLast?_eq_some_getLast hne
    obtain ⟨earliest, hearliest, rfl⟩ :=
      ((isOldest_congr hmoments).1 (isOldest_of_head hascending hfirst)).of_map fun _ => rfl
    obtain ⟨latest, hlatest, hplain⟩ :=
      ((isNewest_congr hmoments).1 (isNewest_of_getLast hascending hlast)).of_map fun _ => rfl
    rw [hplain] at hlast
    have hbounds : BalanceBounds.ofOrdered? ordered = some ⟨earliest.plain, latest.plain⟩ := by
      rw [BalanceBounds.ofOrdered?, hfirst, hlast]
      rfl
    exact ⟨_, hbounds, hlast, .some hearliest hlatest⟩

private theorem exists_bounds (hread : store.readRecords RecordedBalance.ofLine? store.balanceLog
      = .ok (balances.map RecordedBalance.plain)) (run : String) :
    ∃ bounds, store.balanceBounds run = .ok bounds ∧ store.latestBalance run = .ok (bounds.map (·.latest)) ∧
      AreBounds (entriesOf run balances) bounds := by
  have hown : (balances.map RecordedBalance.plain).filter (·.strategy = run)
      = (entriesOf run balances).map RecordedBalance.plain := by
    rw [List.filter_map]
    rfl
  have hentries : store.balancesOf run = .ok (((entriesOf run balances).map RecordedBalance.plain).mergeSort
      fun a b => decide (a.time.toInt ≤ b.time.toInt)) := by
    rw [balancesOf_eq, balancesReadOf, hread, ← hown]
    rfl
  obtain ⟨bounds, hbounds, hlast, hare⟩ := exists_bounds_of_ascending
    (ascending_mergeSort_time RecordedBalance.time _) (filter_time_mergeSort RecordedBalance.time _)
  rw [balanceBounds, latestBalance, hentries]
  exact ⟨bounds, congrArg Except.ok hbounds, congrArg Except.ok hlast, hare⟩

/-- What a source of balances tells of a market. -/
theorem Tells.areHoldings (htells : Tells store recorded) {bounds : Option BalanceBounds}
    (hlatest : store.latestBalance run = .ok (bounds.map (·.latest))) (market : String) :
    AreHoldings (tradedOn run market recorded) bounds (BalanceSource.recordedHoldings store run market) := by
  obtain ⟨read, hread, hnewest⟩ := htells.newestOn run market
  rw [BalanceSource.recordedHoldings, hread]
  dsimp only [bind, Except.bind]
  rcases hnewest with ⟨hnone, htraded⟩ | ⟨newest, hsome, hnewest⟩
  · rw [hnone]
    exact .noFill htraded
  · rw [hsome]
    dsimp only
    have hsymbol : newest.plain.symbol = newest.symbol := rfl
    rw [hsymbol]
    cases hpair : Pair.ofSymbol? newest.symbol with
    | none =>
      rw [Pair.ofSymbol_of_none hpair]
      exact .noPair hnewest hpair
    | some pair =>
      rw [Pair.ofSymbol_of_some hpair, hlatest]
      cases bounds with
      | none => exact .noEntry hnewest hpair rfl
      | some found => exact .entry hnewest hpair rfl (holdsTotals_toSnapshot found.latest pair)

end Store

theorem FullReport.balances_of_row {source : TradeSource} {window : Window} {full : FullReport} {row : PortfolioRow}
    {bounds : Option BalanceBounds} (h : compute source window = .ok full) (hrow : row ∈ full.runs)
    (hbounds : source.balanceBounds row.strategy = .ok bounds) : row.balances = RunBalances.ofBounds bounds := by
  obtain ⟨fills, made, -, hrows, hmade⟩ := exists_rows_of_compute h hrow
  rw [(rows_eq_filterMap hrows).2, List.mem_filterMap] at hmade
  obtain ⟨⟨run, own⟩, -, hown⟩ := hmade
  have hrun : row.strategy = run := strategy_of_rowOf hown
  rw [hrun] at hbounds
  obtain ⟨last, pair, -, -, hcomputed⟩ := PortfolioRow.exists_computed ((rowOf_eq_some_iff hbounds).1 hown)
  exact hcomputed.balances

namespace Store

/-- After any calls to a new store, the bounds of a run are its first and last entries, a source of balances tells the
last of them under the tokens of the newest fill on a market, and the row of the run in a full report shows the same
bounds. -/
theorem recordedHoldings_agree {store : Store} (hnew : store.IsNew) (calls : List Call) (run : String) :
    ∃ bounds, (store.makeCalls calls).balanceBounds run = .ok bounds ∧
      AreBounds (entriesOf run (Call.balances (store.succeeded calls))) bounds ∧
      (∀ market, AreHoldings (tradedOn run market (Call.fills (store.succeeded calls))) bounds
        (BalanceSource.recordedHoldings (store.makeCalls calls) run market)) ∧
      ∀ window full, FullReport.compute (store.makeCalls calls).source window = .ok full →
        ∀ row ∈ full.runs, row.strategy = run → row.balances = RunBalances.ofBounds bounds := by
  obtain ⟨htells, hread⟩ := hnew.tells calls
  obtain ⟨bounds, hbounds, hlatest, hare⟩ := exists_bounds hread run
  refine ⟨bounds, hbounds, hare, htells.areHoldings hlatest, ?_⟩
  rintro window full hfull row hrow rfl
  exact FullReport.balances_of_row hfull hrow hbounds

/-- A fill, and two entries of its run at one time. -/
def mixedCalls : List Call :=
  [.balance ⟨"run", .one, .hundred, 1000⟩, .fill nextFill, .balance ⟨"run", .two, .zero, 1000⟩]

theorem recordedHoldings_agree_mixedCalls :
    freshStore.IsNew ∧ freshStore.succeeded mixedCalls = mixedCalls ∧
      ∃ bounds, (freshStore.makeCalls mixedCalls).balanceBounds "run" = .ok bounds ∧
        AreBounds [⟨"run", .one, .hundred, 1000⟩, ⟨"run", .two, .zero, 1000⟩] bounds ∧
        AreHoldings [nextFill] bounds
          (BalanceSource.recordedHoldings (freshStore.makeCalls mixedCalls) "run" "venue") := by
  have hnew : freshStore.IsNew := ⟨⟨by decide +kernel, by decide +kernel⟩, by decide +kernel, by decide +kernel⟩
  have hall : freshStore.succeeded mixedCalls = mixedCalls := by decide +kernel
  obtain ⟨bounds, hbounds, hare, hholdings, -⟩ := recordedHoldings_agree hnew mixedCalls "run"
  have hvenue := hholdings "venue"
  rw [hall] at hare hvenue
  have htraded : tradedOn "run" "venue" (Call.fills mixedCalls) = [nextFill] := by decide +kernel
  have hentries : entriesOf "run" (Call.balances mixedCalls)
      = [⟨"run", .one, .hundred, 1000⟩, ⟨"run", .two, .zero, 1000⟩] := by
    decide +kernel
  rw [htraded] at hvenue
  rw [hentries] at hare
  exact ⟨hnew, hall, bounds, hbounds, hare, hvenue⟩

end Store

end TradeReport
