import TradeReport.Proofs.Store.Recording
import TradeReport.Source
/-!
# What a store tells of one run

The records of all runs are in the same files, and they are read and sorted together. Still, what a store tells of one
run comes from the records of that run alone (`Store.tradesSince_eq`, `Store.balancesOf_eq`): sorting keeps what ties in
its place, so it sorts the fills of one run as it would without the others. Two stores with the same records of a run
tell the same of it, whatever else they hold (`SameRun`).
-/

namespace TradeReport

namespace Store

variable {store : Store} {run : String} {start : ℤ} {limit : Option ℕ}

def fillsReadOf (store : Store) (run : String) : Except Fault (List Fill) := do
  let names ← store.logNames store.tradesFolder
  return (← store.readFiles Fill.ofLine? store.tradesFolder names).filter (·.strategy = run)

def balancesReadOf (store : Store) (run : String) : Except Fault (List RecordedBalance) := do
  return (← store.readRecords RecordedBalance.ofLine? store.balanceLog).filter (·.strategy = run)

/-- Fills from a time on, or the newest of them. -/
def since (start : ℤ) (limit : Option ℕ) (fills : List Fill) : List Fill :=
  let kept := fills.filter (start ≤ ·.time.toInt)
  limit.elim kept (newest · kept)

/-- Sorting keeps what ties in its place, so the fills of one run come as they would without the others. -/
theorem filter_allTrades (store : Store) (run : String) :
    (List.filter (·.strategy = run) <$> store.allTrades) = byTime <$> store.fillsReadOf run := by
  have hsorted : ∀ read : List Fill,
      (byTime read).filter (·.strategy = run) = byTime (read.filter (·.strategy = run)) := by
    intro read
    rw [byTime_eq, byTime_eq]
    exact filter_mergeSort_time Fill.time _ read
  simp only [allTrades, tradesIn, fillsReadOf, map_bind, map_pure, hsorted]

/-- The fills of a run since some time are found among those that were read of the run. -/
theorem tradesSince_eq :
    store.tradesSince start (some run) limit = (since start limit ∘ byTime) <$> store.fillsReadOf run := by
  have hsplit : ∀ all : List Fill, (all.filter fun fill => decide (start ≤ fill.time.toInt) && isOfRun (some run) fill)
      = (all.filter (·.strategy = run)).filter (start ≤ ·.time.toInt) := by
    intro all
    rw [List.filter_filter]
    refine List.filter_congr fun fill _ => ?_
    simp [isOfRun, beq_eq_decide]
  rw [comp_map, ← filter_allTrades, tradesSince]
  cases store.allTrades with
  | error fault => rfl
  | ok all =>
    cases limit with
    | none => exact congrArg Except.ok (hsplit all)
    | some limit => exact congrArg Except.ok (congrArg (newest limit) (hsplit all))

theorem balancesOf_eq :
    store.balancesOf run
      = (List.mergeSort · fun a b => decide (a.time.toInt ≤ b.time.toInt)) <$> store.balancesReadOf run := by
  unfold balancesOf balancesReadOf
  simp only [beq_eq_decide]
  cases store.readRecords RecordedBalance.ofLine? store.balanceLog <;> rfl

theorem fillsReadOf_of_day {fills : List Fill} {name : String} (hnames : store.logNames store.tradesFolder = .ok [name])
    (hread : store.disk.read (joinPath store.tradesFolder name) = .ok (dayText fills)) (run : String) :
    store.fillsReadOf run = .ok ((fills.map Fill.plain).filter (·.strategy = run)) :=
  bind_eq_ok.2 ⟨_, hnames, bind_eq_ok.2 ⟨_, readFiles_of_day hread, rfl⟩⟩

theorem balancesReadOf_of_text {balances : List RecordedBalance} (hread : store.disk.read store.balanceLog
      = .ok (balances.flatMap fun balance => (Log.entry balance.toLine).toList)) (run : String) :
    store.balancesReadOf run = .ok ((balances.map RecordedBalance.plain).filter (·.strategy = run)) := by
  rw [balancesReadOf, readRecords_of_hasText (.inl hread), Log.records_entries Log.lined_balance]
  rfl

theorem tradesSince_of_read {own : List Fill} (h : store.fillsReadOf run = .ok own) (start : ℤ) (limit : Option ℕ) :
    store.tradesSince start (some run) limit = .ok (since start limit (byTime own)) := by
  rw [tradesSince_eq, h]
  rfl

theorem latestBalance_of_read {own : List RecordedBalance} (h : store.balancesReadOf run = .ok own) :
    store.latestBalance run = .ok (own.mergeSort fun a b => decide (a.time.toInt ≤ b.time.toInt)).getLast? := by
  rw [latestBalance, balancesOf_eq, h]
  rfl

end Store

/-- Two stores with the same records of a run, as far as both can be read: fills in the order in which they are read,
and entries in the balance log. Of other runs they may hold anything. -/
structure SameRun (run : String) (a b : Store) : Prop where
  fills : Agree (a.fillsReadOf run) (b.fillsReadOf run)
  balances : Agree (a.balancesReadOf run) (b.balancesReadOf run)

namespace SameRun

variable {run : String} {a b : Store} (h : SameRun run a b)
include h

theorem tradesSince (start : ℤ) (limit : Option ℕ) :
    Agree (a.tradesSince start (some run) limit) (b.tradesSince start (some run) limit) := by
  rw [Store.tradesSince_eq, Store.tradesSince_eq]
  exact h.fills.map _

theorem filter_allTrades :
    Agree (List.filter (·.strategy = run) <$> a.allTrades) (List.filter (·.strategy = run) <$> b.allTrades) := by
  rw [Store.filter_allTrades, Store.filter_allTrades]
  exact h.fills.map _

theorem balancesOf : Agree (a.balancesOf run) (b.balancesOf run) := by
  rw [Store.balancesOf_eq, Store.balancesOf_eq]
  exact h.balances.map _

theorem balanceBounds : Agree (a.balanceBounds run) (b.balanceBounds run) :=
  h.balancesOf.bind fun _ => .refl _

theorem latestBalance : Agree (a.latestBalance run) (b.latestBalance run) :=
  h.balancesOf.bind fun _ => .refl _

theorem recordedHoldings (market : String) :
    Agree (BalanceSource.recordedHoldings a run market) (BalanceSource.recordedHoldings b run market) := by
  refine (h.tradesSince 0 none).bind fun fills => ?_
  cases latestFill? (fills.filter (·.market == market)) with
  | none => exact .refl _
  | some fill =>
    dsimp only
    cases Pair.ofSymbol fill.symbol with
    | error error => exact .refl _
    | ok pair => exact h.latestBalance.bind fun _ => .refl _

end SameRun

end TradeReport
