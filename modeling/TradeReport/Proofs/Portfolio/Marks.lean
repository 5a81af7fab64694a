import TradeReport.Proofs.Decimal.Mean
import TradeReport.Proofs.Portfolio.Figures
/-!
# The marks of a row

One pass over the fills in order keeps the highest price and the price of the latest purchase. The trigger for the next
purchase is the middle of the two, and lies between them unless their sum is rounded
(`PortfolioRow.between_of_midpoint`). A figure that is made from one side of the fills is there exactly when that side
has a fill (`PortfolioRow.compute_marks`).
-/

namespace TradeReport

open Decimal

/-! ## Peaks -/

/-- One of the prices, and no price is higher. -/
structure IsPeak (a : Decimal) (prices : List Decimal) : Prop where
  mem : a ∈ prices
  le : ∀ price ∈ prices, price ≤ a

section Peaks

variable {a b : Decimal} {prices others : List Decimal}

private theorem larger_eq (a b : Decimal) : a.larger b = a ∨ a.larger b = b := by
  unfold larger
  split
  · exact .inr rfl
  · exact .inl rfl

private theorem le_larger (a b : Decimal) : a ≤ a.larger b ∧ b ≤ a.larger b := by
  rw [le_iff_toRat_le, le_iff_toRat_le, toRat_larger]
  exact ⟨le_max_left _ _, le_max_right _ _⟩

theorem IsPeak.perm (h : IsPeak a prices) (hperm : prices.Perm others) : IsPeak a others :=
  ⟨hperm.mem_iff.1 h.mem, fun price hprice => h.le price (hperm.mem_iff.2 hprice)⟩

/-- What starts among the prices changes nothing about their peak. -/
theorem IsPeak.of_cons (h : IsPeak a (b :: prices)) (hb : b ∈ prices) : IsPeak a prices := by
  refine ⟨?_, fun price hprice => h.le price (List.mem_cons_of_mem b hprice)⟩
  rcases List.mem_cons.1 h.mem with rfl | hmem
  · exact hb
  · exact hmem

theorem IsPeak.cons_cons (h : IsPeak a (b.larger c :: prices)) : IsPeak a (b :: c :: prices) := by
  have hfirst := le_iff_toRat_le.1 (h.le _ List.mem_cons_self)
  obtain ⟨hb, hc⟩ := le_larger b c
  refine ⟨?_, List.forall_mem_cons.2 ⟨?_, List.forall_mem_cons.2 ⟨?_, ?_⟩⟩⟩
  · rcases List.mem_cons.1 h.mem with hmem | hmem
    · rcases larger_eq b c with hlarger | hlarger
      · rw [hmem, hlarger]
        exact List.mem_cons_self
      · rw [hmem, hlarger]
        exact List.mem_cons_of_mem b List.mem_cons_self
    · exact List.mem_cons_of_mem b (List.mem_cons_of_mem c hmem)
  · exact le_iff_toRat_le.2 ((le_iff_toRat_le.1 hb).trans hfirst)
  · exact le_iff_toRat_le.2 ((le_iff_toRat_le.1 hc).trans hfirst)
  · exact fun price hprice => h.le price (List.mem_cons_of_mem _ hprice)

private theorem isPeak_foldl_larger (start : Decimal) (prices : List Decimal) :
    IsPeak (prices.foldl larger start) (start :: prices) := by
  induction prices generalizing start with
  | nil => exact ⟨List.mem_singleton_self start, by simp [le_iff_toRat_le]⟩
  | cons price rest ih => exact (ih (start.larger price)).cons_cons

end Peaks

namespace PortfolioRow

/-! ## Middles -/

section Middles

variable {peak buy trigger : Decimal}

/-- The sum of two decimals is not rounded. -/
def AddsExactly (a b : Decimal) : Prop :=
  value? (a.add b) = some (a.toRat + b.toRat)

theorem between_of_midpoint (hle : buy ≤ peak) (hexact : AddsExactly peak buy)
    (h : midpoint peak buy = .ok trigger) : buy ≤ trigger ∧ trigger ≤ peak := by
  obtain ⟨total, htotal, hhalf⟩ := bind_eq_ok.1 h
  have htwo : Decimal.two.toRat = 2 := by
    rw [toRat_eq]
    norm_num [Decimal.two, signed]
  have hsum : total.toRat = peak.toRat + buy.toRat := by
    rw [AddsExactly, htotal, value?_ok] at hexact
    exact Option.some.inj hexact
  have hvalue := value?_div total .two
  rw [hhalf, value?_ok, htwo, if_neg two_ne_zero, hsum] at hvalue
  rw [le_iff_toRat_le] at hle
  obtain ⟨middle, hmiddle, hlow, hhigh⟩ :
      ∃ middle, rounded? ((peak.toRat + buy.toRat) / 2) = some middle ∧ buy.toRat ≤ middle ∧ middle ≤ peak.toRat :=
    exists_rounded?_between (by linarith) (by linarith)
  rw [hmiddle, Option.some.injEq] at hvalue
  rw [le_iff_toRat_le, le_iff_toRat_le, hvalue]
  exact ⟨hlow, hhigh⟩

end Middles

/-! ## Rows -/

/-- What the prices of a row say of the fills it is made from, and of one another. -/
structure Marks (fills : List Fill) (row : PortfolioRow) : Prop where
  peak : IsPeak row.peakPrice (fills.map (·.price))
  latest : (chronological fills).getLast?.map (·.price) = some row.latestPrice
  latestBuy : row.latestBuyPrice = ((chronological fills).filter (·.side = .buy)).getLast?.map (·.price)
  latestBuy_isSome : row.latestBuyPrice.isSome ↔ ∃ fill ∈ fills, fill.side = .buy
  trigger_isSome : row.retracementTrigger.isSome ↔ ∃ fill ∈ fills, fill.side = .buy
  trigger_between : ∀ buy trigger, row.latestBuyPrice = some buy → row.retracementTrigger = some trigger →
    AddsExactly row.peakPrice buy → buy ≤ trigger ∧ trigger ≤ row.peakPrice
  averageBuy_isSome : row.averagePrice.buy.isSome ↔ ∃ fill ∈ fills, fill.side = .buy
  averageSell_isSome : row.averagePrice.sell.isSome ↔ ∃ fill ∈ fills, fill.side = .sell
  average_isSome : row.averagePrice.total.isSome
  unrealized_isSome : row.unrealizedPnl.isSome ↔ row.averageCostBasis.isSome
  netPnl : row.realizedPnl.add (row.unrealizedPnl.getD .zero) = .ok row.netPnl

variable {strategy : String} {fills ordered : List Fill} {bounds : Option BalanceBounds} {row : PortfolioRow}

private theorem isSome_mapM {f : Decimal → Except Overflow Decimal} {figure result : Figure}
    (h : figure.mapM f = .ok result) :
    result.isSome = true ↔ figure.isSome = true := by
  cases figure with
  | none =>
    rw [← pure_eq_ok.1 h]
  | some a =>
    have hmapped : some <$> f a = .ok result := h
    obtain ⟨b, -, rfl⟩ := map_eq_ok.1 hmapped
    exact ⟨fun _ => rfl, fun _ => rfl⟩

theorem ofSide_ne_nil_iff {side : Side} (hperm : ordered.Perm fills) :
    ofSide side ordered ≠ [] ↔ ∃ fill ∈ fills, fill.side = side := by
  constructor
  · intro hne
    obtain ⟨fill, hfill⟩ := List.exists_mem_of_ne_nil _ hne
    obtain ⟨hmem, hside⟩ := List.mem_filter.1 hfill
    exact ⟨fill, hperm.mem_iff.1 hmem, of_decide_eq_true hside⟩
  · rintro ⟨fill, hfill, hside⟩
    exact List.ne_nil_of_mem (List.mem_filter.2 ⟨hperm.mem_iff.2 hfill, decide_eq_true hside⟩)

theorem meanPrice_isSome {average : Figure} (hcount : fills.length < 2 ^ 32) (h : meanPrice fills = .ok average) :
    average.isSome = true ↔ fills ≠ [] := by
  rw [isSome_of_mean? (by rwa [List.length_map]) h]
  simp

/-- A row of fewer fills than a count can hold is marked by its fills. -/
theorem compute_marks (hcount : fills.length < 2 ^ 32) (h : compute strategy fills bounds = .ok row) :
    row.Marks fills := by
  obtain ⟨last, pair, hlast, -, hcomputed⟩ := exists_computed h
  have hperm := chronological_perm fills
  have hlastMem : last ∈ chronological fills := List.mem_of_getLast? hlast
  have hpeak : IsPeak row.peakPrice ((chronological fills).map (·.price)) := by
    rw [hcomputed.peakPrice]
    exact (isPeak_foldl_larger _ _).of_cons (List.mem_map_of_mem hlastMem)
  have hbuy : row.latestBuyPrice.isSome = true ↔ ∃ fill ∈ fills, fill.side = .buy := by
    rw [hcomputed.latestBuyPrice, Option.isSome_map, List.getLast?_isSome, ofSide_ne_nil_iff hperm]
  obtain ⟨averageBuy, hbuyMean, haverages⟩ := bind_eq_ok.1 hcomputed.averagePrice
  obtain ⟨averageSell, hsellMean, haverages⟩ := bind_eq_ok.1 haverages
  obtain ⟨average, hmean, haverages⟩ := bind_eq_ok.1 haverages
  have haverages := pure_eq_ok.1 haverages
  have hordered : (chronological fills).length < 2 ^ 32 := by rwa [hperm.length_eq]
  have hside : ∀ side, (ofSide side (chronological fills)).length < 2 ^ 32 :=
    fun side => (List.length_filter_le _ _).trans_lt hordered
  refine ⟨hpeak.perm (hperm.map _), ?_, hcomputed.latestBuyPrice, hbuy, ?_, ?_, ?_, ?_, ?_, ?_, hcomputed.netPnl⟩
  · rw [hlast, hcomputed.latestPrice]
    rfl
  · rw [isSome_mapM hcomputed.retracementTrigger, hbuy]
  · intro buy trigger hlatest htrigger hexact
    have hmapped := hcomputed.retracementTrigger
    rw [hlatest, htrigger] at hmapped
    have hmapped : some <$> midpoint row.peakPrice buy = .ok (some trigger) := hmapped
    obtain ⟨middle, hmiddle, hsame⟩ := map_eq_ok.1 hmapped
    obtain rfl := Option.some.inj hsame
    have hmem : buy ∈ (chronological fills).map (·.price) := by
      rw [hcomputed.latestBuyPrice, Option.map_eq_some_iff] at hlatest
      obtain ⟨fill, hfill, rfl⟩ := hlatest
      exact List.mem_map_of_mem (List.mem_of_mem_filter (List.mem_of_getLast? hfill))
    exact between_of_midpoint (hpeak.le buy hmem) hexact hmiddle
  · rw [← haverages, meanPrice_isSome (hside .buy) hbuyMean]
    exact ofSide_ne_nil_iff hperm
  · rw [← haverages, meanPrice_isSome (hside .sell) hsellMean]
    exact ofSide_ne_nil_iff hperm
  · rw [← haverages, meanPrice_isSome hordered hmean]
    exact List.ne_nil_of_mem hlastMem
  · exact isSome_mapM hcomputed.unrealizedPnl

section Risen

def fillAt (side : Side) (hundreds : ℕ) (time : Int64) : Fill :=
  { market := "venue", symbol := "A-B", strategy := "run", side, price := .ofCount (100 * hundreds), amount := .one,
    fee := .free, time, order := none, exchangeTrade := none }

/-- The price rises from a purchase to a sale, and half of the rise is lost before the next purchase. -/
def risenFills : List Fill :=
  [fillAt .buy 1 1000, fillAt .sell 3 2000, fillAt .buy 2 3000]

theorem compute_marks_risen :
    risenFills.length < 2 ^ 32 ∧ ∃ row, compute "run" risenFills none = .ok row ∧ row.Marks risenFills ∧
      row.peakPrice = .ofCount 300 ∧ row.latestBuyPrice = some (.ofCount 200) ∧
      row.retracementTrigger = some (.ofCount 250) := by
  have hcount : risenFills.length < 2 ^ 32 := by decide
  have hordered : chronological risenFills = risenFills := chronological_of_pairwise (by decide +kernel)
  have hlast : (chronological risenFills).getLast? = some (fillAt .buy 2 3000) := by
    rw [hordered]
    rfl
  have hpair : Pair.ofSymbol? (fillAt .buy 2 3000).symbol = some ⟨"A", "B"⟩ := by decide +kernel
  have hfigures : (fun row : PortfolioRow => (row.peakPrice, row.latestBuyPrice, row.retracementTrigger)) <$>
      ofOrdered "run" ⟨"A", "B"⟩ (fillAt .buy 2 3000) risenFills none
        = .ok (.ofCount 300, some (.ofCount 200), some (.ofCount 250)) := by
    decide +kernel
  obtain ⟨row, hrow, hfigures⟩ := map_eq_ok.1 hfigures
  have hcompute : compute "run" risenFills none = .ok row := by
    rw [compute_of_last hlast hpair, hordered, mapError_eq_ok, hrow]
  obtain ⟨hpeak, hbuy, htrigger⟩ : row.peakPrice = .ofCount 300 ∧ row.latestBuyPrice = some (.ofCount 200) ∧
      row.retracementTrigger = some (.ofCount 250) := by
    simpa using hfigures
  exact ⟨hcount, row, hcompute, compute_marks hcount hcompute, hpeak, hbuy, htrigger⟩

end Risen

end PortfolioRow

end TradeReport
