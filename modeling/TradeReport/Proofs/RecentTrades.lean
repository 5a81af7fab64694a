import Mathlib.Data.List.DropRight
import TradeReport.Proofs.Reporting
import TradeReport.Proofs.Store.Runs
/-!
# The newest fills

The fills since some time are a part of all that are loaded, in order of time. A limit takes them from the end and turns
them around (`Store.tradesSince_limit`), and a later start leaves out some at the front (`Store.tradesSince_suffix`).

A listing of a run is the beginning of one list, however many rows it may have: the fills of the run since the start,
newest first, and of one time those recorded last first (`IsNewestFirst`). It asks for one row more than it shows, and
from that row it knows that there are more. Where no more rows can be counted there is none to ask for, and none is
needed: no list has more rows than can be counted.
-/

namespace TradeReport

/-- The list ends with its elements of a kind, if those after one of the kind are of it too. -/
theorem filter_suffix {α : Type} {p : α → Bool} {list : List α} (h : list.Pairwise fun a b => p a → p b) :
    list.filter p <:+ list := by
  induction list with
  | nil => exact List.suffix_rfl
  | cons first rest ih =>
    obtain ⟨hfirst, hrest⟩ := List.pairwise_cons.1 h
    by_cases hp : p first = true
    · have hall : (first :: rest).filter p = first :: rest := by
        refine List.filter_eq_self.2 fun a ha => ?_
        rcases List.mem_cons.1 ha with rfl | ha
        · exact hp
        · exact hfirst a ha hp
      rw [hall]
    · rw [List.filter_cons_of_neg hp]
      exact (ih hrest).trans (List.suffix_cons first rest)

namespace Store

variable {store : Store} {run : String} {start later : ℤ} {strategy : Option String} {fills loaded : List Fill}

/-! ## Limits and later starts -/

private theorem newest_eq_reverse_rtake (limit : ℕ) (fills : List Fill) :
    newest limit fills = (fills.rtake limit).reverse := by
  rw [newest, List.rtake_eq_reverse_take_reverse, List.reverse_reverse]

theorem tradesSince_some {limit : ℕ} :
    store.tradesSince start strategy (some limit) = newest limit <$> store.tradesSince start strategy none := by
  unfold tradesSince
  cases store.allTrades <;> rfl

theorem tradesSince_limit (limit : ℕ) :
    store.tradesSince start strategy (some limit)
      = (fun fills => (fills.rtake limit).reverse) <$> store.tradesSince start strategy none := by
  rw [tradesSince_some, ← funext (newest_eq_reverse_rtake limit)]

theorem tradesSince_none :
    store.tradesSince start strategy none
      = List.filter (fun fill => decide (start ≤ fill.time.toInt) && isOfRun strategy fill) <$> store.allTrades := by
  unfold tradesSince
  cases store.allTrades <;> rfl

def fillsRead (store : Store) : Except Fault (List Fill) := do
  store.readFiles Fill.ofLine? store.tradesFolder (← store.logNames store.tradesFolder)

theorem allTrades_eq (store : Store) : store.allTrades = byTime <$> store.fillsRead := by
  unfold allTrades fillsRead tradesIn
  cases store.logNames store.tradesFolder <;> rfl

theorem tradesSince_suffix (hstart : start ≤ later) (h : store.tradesSince start strategy none = .ok fills) :
    ∃ kept, store.tradesSince later strategy none = .ok kept ∧ kept <:+ fills := by
  rw [tradesSince_none] at h
  obtain ⟨loaded, hloaded, rfl⟩ := map_eq_ok.1 h
  have hkept : loaded.filter (fun fill => decide (later ≤ fill.time.toInt) && isOfRun strategy fill)
      = (loaded.filter fun fill => decide (start ≤ fill.time.toInt) && isOfRun strategy fill).filter
          (later ≤ ·.time.toInt) := by
    rw [List.filter_filter]
    refine List.filter_congr fun fill _ => ?_
    by_cases hlater : later ≤ fill.time.toInt
    · simp [hlater, hstart.trans hlater]
    · simp [hlater]
  refine ⟨_, by rw [tradesSince_none, hloaded]; rfl, ?_⟩
  rw [hkept]
  apply filter_suffix
  refine ((ascending_of_allTrades hloaded).sublist List.filter_sublist).imp fun hab ha => ?_
  exact decide_eq_true ((of_decide_eq_true ha).trans hab)

/-! ## Newest first -/

def isSince (run : String) (start : ℤ) (fill : Fill) : Bool :=
  fill.strategy = run ∧ start ≤ fill.time.toInt

/-- Of the fills that were loaded, those of a run since the start, from the last to the first. -/
def newestSince (run : String) (start : ℤ) (loaded : List Fill) : List Fill :=
  (loaded.filter (isSince run start)).reverse

/-- Each fill once, the newest first, and of one time the last first. -/
structure IsNewestFirst (fills newest : List Fill) : Prop where
  once : newest.Perm fills
  descending : newest.Pairwise fun a b => b.time.toInt ≤ a.time.toInt
  moments : ∀ time : Int64, newest.filter (·.time = time) = (fills.filter (·.time = time)).reverse

theorem IsNewestFirst.unique {newest newest' : List Fill} (h : IsNewestFirst fills newest)
    (h' : IsNewestFirst fills newest') : newest = newest' :=
  eq_of_moments h.descending h'.descending fun time => (h.moments time).trans (h'.moments time).symm

private theorem isNewestFirst_newestSince (hascending : loaded.Pairwise fun a b => a.time.toInt ≤ b.time.toInt)
    (hmoments : ∀ time : Int64, loaded.filter (·.time = time) = fills.filter (·.time = time)) :
    IsNewestFirst (fills.filter (isSince run start)) (newestSince run start loaded) := by
  have hown : ∀ time : Int64, (newestSince run start loaded).filter (·.time = time)
      = ((fills.filter (isSince run start)).filter (·.time = time)).reverse := by
    intro time
    rw [newestSince, List.filter_reverse, List.filter_comm, hmoments, List.filter_comm]
  refine ⟨?_, ?_, hown⟩
  · have hperm : (newestSince run start loaded).Perm (fills.filter (isSince run start)).reverse :=
      perm_of_moments fun time => by rw [hown, List.filter_reverse]
    exact hperm.trans (List.reverse_perm _)
  · exact List.pairwise_reverse.2 (hascending.sublist List.filter_sublist)

private theorem isNewestFirst_read (h : store.allTrades = .ok loaded) :
    ∃ read, store.fillsRead = .ok read ∧
      IsNewestFirst (read.filter (isSince run start)) (newestSince run start loaded) := by
  rw [allTrades_eq] at h
  obtain ⟨read, hread, rfl⟩ := map_eq_ok.1 h
  exact ⟨read, hread, isNewestFirst_newestSince (byTime_ascending read) (filter_byTime read)⟩

theorem Tells.isNewestFirst {recorded : List Fill} (htells : store.Tells recorded)
    (h : store.allTrades = .ok loaded) :
    IsNewestFirst ((recorded.map Fill.plain).filter (isSince run start)) (newestSince run start loaded) := by
  obtain ⟨fills, hfills, hchronicle⟩ := htells.allTrades
  obtain rfl : fills = loaded := Except.ok.inj (hfills.symm.trans h)
  apply isNewestFirst_newestSince hchronicle.ascending
  intro time
  rw [hchronicle.moments, filter_time_plain]

private theorem tradesSince_run_some (h : store.allTrades = .ok loaded) (limit : ℕ) :
    store.tradesSince start (some run) (some limit) = .ok ((newestSince run start loaded).take limit) := by
  have hsince : (fun fill => decide (start ≤ fill.time.toInt) && isOfRun (some run) fill) = isSince run start := by
    funext fill
    simp [isSince, isOfRun, beq_eq_decide, Bool.and_comm]
  rw [tradesSince_some, tradesSince_none, h, hsince]
  rfl

end Store

/-! ## Listings -/

namespace Market

variable {σ : Type} {market : Market σ} {store : Store} {run : String} {start : ℤ} {maxRows few many : ℕ}
  {before after : Elapsed σ} {newest loaded : List Fill} {recent : RecentTrades}

theorem gives_recentTrades_iff : (market.recentTrades (some run) start maxRows).Gives before recent after ↔
    ∃ fills, market.source.tradesSince start (some run) (some (min (maxRows + 1) mostRows)) = .ok fills ∧
      RecentTrades.ofNewest maxRows fills = recent ∧ before = after := by
  constructor
  · intro h
    obtain ⟨fills, between, hasked, h⟩ := Reporting.gives_bind_iff.1 h
    obtain ⟨hfills, rfl⟩ := Reporting.gives_ofSource_iff.1 hasked
    exact ⟨fills, hfills, Reporting.gives_pure_iff.1 h⟩
  · intro h
    obtain ⟨fills, hfills, h⟩ := h
    apply Reporting.gives_bind_iff.2
    exact ⟨fills, before, Reporting.gives_ofSource_iff.2 ⟨hfills, rfl⟩, Reporting.gives_pure_iff.2 h⟩

private theorem ofNewest_take (h : maxRows < mostRows ∨ newest.length ≤ mostRows) :
    RecentTrades.ofNewest maxRows (newest.take (min (maxRows + 1) mostRows))
      = ⟨newest.take maxRows, maxRows < newest.length⟩ := by
  rw [RecentTrades.ofNewest, List.take_take, List.length_take, RecentTrades.mk.injEq]
  constructor
  · apply List.take_eq_take_iff.2
    omega
  · apply decide_eq_decide.2
    omega

private theorem ofNewest_take_prefix (newest : List Fill) (h : few ≤ many) :
    (RecentTrades.ofNewest few (newest.take (min (few + 1) mostRows))).trades
      <+: (RecentTrades.ofNewest many (newest.take (min (many + 1) mostRows))).trades := by
  rw [RecentTrades.ofNewest, RecentTrades.ofNewest, List.take_take, List.take_take]
  apply List.take_prefix_take_left
  omega

section Source

variable (hsource : market.source = store.source)
include hsource

theorem gives_recentTrades_iff_newest (hloaded : store.allTrades = .ok loaded) :
    (market.recentTrades (some run) start maxRows).Gives before recent after ↔
      RecentTrades.ofNewest maxRows ((Store.newestSince run start loaded).take (min (maxRows + 1) mostRows)) = recent ∧
        before = after := by
  have hasked : market.source.tradesSince start (some run) (some (min (maxRows + 1) mostRows))
      = .ok ((Store.newestSince run start loaded).take (min (maxRows + 1) mostRows)) := by
    rw [hsource]
    exact Store.tradesSince_run_some hloaded _
  rw [gives_recentTrades_iff, hasked]
  simp only [Except.ok.injEq, exists_eq_left']

theorem interrupted_recentTrades {fault : Fault} (hfault : store.allTrades = .error fault) :
    (market.recentTrades (some run) start maxRows).Interrupted before (.error (.source fault)) before := by
  have hasked : market.source.tradesSince start (some run) (some (min (maxRows + 1) mostRows)) = .error fault := by
    rw [hsource]
    apply Store.tradesSince_some.trans
    rw [Store.tradesSince_none, hfault]
    rfl
  apply Reporting.interrupted_bind_iff.2
  rw [Reporting.ofSource_eq, Reporting.interrupted_passOn_iff]
  exact .inl ⟨⟨fault, hasked, rfl⟩, rfl⟩

end Source

/-- The listings of a run since a start, of whatever length, show one list from its beginning, and each tells whether
there is more of it. -/
structure ListsNewest (market : Market σ) (store : Store) (run : String) (start : ℤ) (newest : List Fill) : Prop where
  read : ∃ read, store.fillsRead = .ok read ∧ Store.IsNewestFirst (read.filter (Store.isSince run start)) newest
  recorded : ∀ recorded, store.Tells recorded →
    Store.IsNewestFirst ((recorded.map Fill.plain).filter (Store.isSince run start)) newest
  -- At the largest number there is no row more to ask for, and no list in memory has one.
  listing : ∀ maxRows before, maxRows < mostRows ∨ newest.length ≤ mostRows →
    (market.recentTrades (some run) start maxRows).Gives before
      ⟨newest.take maxRows, maxRows < newest.length⟩ before
  longer : ∀ few many, few ≤ many → ∀ before before' recent recent' after after',
    (market.recentTrades (some run) start few).Gives before recent after →
      (market.recentTrades (some run) start many).Gives before' recent' after' → recent.trades <+: recent'.trades

private theorem listsNewest (hsource : market.source = store.source) (hloaded : store.allTrades = .ok loaded) :
    market.ListsNewest store run start (Store.newestSince run start loaded) := by
  refine ⟨Store.isNewestFirst_read hloaded, fun recorded htells => htells.isNewestFirst hloaded, ?_, ?_⟩
  · intro maxRows before hcounted
    apply (gives_recentTrades_iff_newest hsource hloaded).2
    exact ⟨ofNewest_take hcounted, rfl⟩
  · intro few many hle before before' recent recent' after after' hfew hmany
    obtain ⟨rfl, -⟩ := (gives_recentTrades_iff_newest hsource hloaded).1 hfew
    obtain ⟨rfl, -⟩ := (gives_recentTrades_iff_newest hsource hloaded).1 hmany
    exact ofNewest_take_prefix _ hle

/-- A run is listed from its newest fill on, unless the fills cannot be loaded. A limit on the fills since a start takes
the last of them in reverse, and a later start leaves out some of the first. -/
theorem recentTrades_newest (hsource : market.source = store.source) :
    (∀ run start,
      (∀ fault, store.allTrades = .error fault → ∀ maxRows before,
        (market.recentTrades (some run) start maxRows).Interrupted before (.error (.source fault)) before) ∧
      ∀ loaded, store.allTrades = .ok loaded →
        market.ListsNewest store run start (Store.newestSince run start loaded)) ∧
      ∀ strategy start,
        (∀ limit, store.tradesSince start strategy (some limit)
          = (fun fills => (fills.rtake limit).reverse) <$> store.tradesSince start strategy none) ∧
        ∀ later fills, start ≤ later → store.tradesSince start strategy none = .ok fills →
          ∃ kept, store.tradesSince later strategy none = .ok kept ∧ kept <:+ fills := by
  refine ⟨fun run start => ⟨?_, ?_⟩, fun strategy start => ⟨Store.tradesSince_limit, ?_⟩⟩
  · exact fun fault hfault maxRows before => interrupted_recentTrades hsource hfault
  · exact fun loaded hloaded => listsNewest hsource hloaded
  · exact fun later fills hstart hfills => Store.tradesSince_suffix hstart hfills

/-- Two fills of one time, and one of the day before. -/
def fewTradesMarket : Market Unit :=
  ⟨(Store.freshStore.afterCalls Store.fewCalls).source, .none, .paper Table.empty, .usual, 30000, 2000⟩

theorem recentTrades_newest_fewTrades :
    (fewTradesMarket.recentTrades (some "run") 86400000 1).Gives ⟨(), 0⟩ ⟨[Store.fewCalls[3]], true⟩ ⟨(), 0⟩ ∧
      (fewTradesMarket.recentTrades (some "run") 86400000 2).Gives ⟨(), 0⟩
        ⟨[Store.fewCalls[3], Store.fewCalls[0]], false⟩ ⟨(), 0⟩ := by
  have hfresh : Store.freshStore.IsFresh := ⟨by decide +kernel, by decide +kernel⟩
  obtain ⟨folder, hholds⟩ := hfresh.holds
  have htells : (Store.freshStore.afterCalls Store.fewCalls).Tells (Store.freshStore.recorded Store.fewCalls) :=
    (Store.holds_afterCalls hholds).tells
  obtain ⟨loaded, hloaded, -⟩ := htells.allTrades
  have hlists := ((recentTrades_newest (show fewTradesMarket.source = _ from rfl)).1 "run" 86400000).2 _ hloaded
  have hsince : (((Store.freshStore.recorded Store.fewCalls).map Fill.plain).filter
      (Store.isSince "run" 86400000)) = [Store.fewCalls[0], Store.fewCalls[3]] := by decide +kernel
  have hnewest : Store.IsNewestFirst [Store.fewCalls[0], Store.fewCalls[3]]
      [Store.fewCalls[3], Store.fewCalls[0]] := by
    refine ⟨.swap _ _ _, by decide, fun time => ?_⟩
    by_cases htime : 86400000 = time
    · rw [← htime]
      decide
    · simp [Store.fewCalls, htime]
  rw [(hlists.recorded _ htells).unique (by rw [hsince]; exact hnewest)] at hlists
  exact ⟨hlists.listing 1 ⟨(), 0⟩ (.inl (by decide)), hlists.listing 2 ⟨(), 0⟩ (.inl (by decide))⟩

end Market

end TradeReport
