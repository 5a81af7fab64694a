import TradeReport.Proofs.FeeViews
import TradeReport.Proofs.Performance.Agreement
import TradeReport.Proofs.Portfolio.Figures
/-!
# Rows that agree

Two rows agree when they have the same market and the same pair, and every figure has the same value in both. The fills
of two rows may tie and so come in different order. What is computed from their moments then has the same value in both,
rounded or not (`agrees_of_computed`). The fees that were paid are a sum over fills of one moment with different fees,
and it is the same sum when nothing is rounded in it (`toRat_feesPaid_congr`).
-/

namespace TradeReport

open Decimal

/-! ## Figures of the same value -/

/-- Both figures are absent, or both have the same value. -/
def SameValue (x x' : Figure) : Prop :=
  x.map toRat = x'.map toRat

namespace SameValue

variable {x x' y y' z z' : Figure} {a a' b b' : Decimal}

theorem cases_iff : SameValue x x' ↔ x = none ∧ x' = none ∨ ∃ a a', x = some a ∧ x' = some a' ∧ a.toRat = a'.toRat := by
  unfold SameValue
  cases x <;> cases x' <;> simp

theorem of_eq (h : x = x') : SameValue x x' :=
  congrArg _ h

theorem getD (h : SameValue x x') (ha : a.toRat = a'.toRat) : (x.getD a).toRat = (x'.getD a').toRat := by
  obtain ⟨rfl, rfl⟩ | ⟨b, b', rfl, rfl, hb⟩ := cases_iff.1 h
  · exact ha
  · exact hb

/-- A step that depends on values only makes figures of the same value. -/
theorem mapM {f f' : Decimal → Except Overflow Decimal}
    (hf : ∀ a a' b b', a.toRat = a'.toRat → f a = .ok b → f' a' = .ok b' → b.toRat = b'.toRat) (hx : SameValue x x')
    (h : x.mapM f = .ok y) (h' : x'.mapM f' = .ok y') : SameValue y y' := by
  obtain ⟨rfl, rfl⟩ | ⟨a, a', rfl, rfl, ha⟩ := cases_iff.1 hx
  · rw [← pure_eq_ok.1 h, ← pure_eq_ok.1 h']
    rfl
  · obtain ⟨b, hb, rfl⟩ := map_eq_ok.1 h
    obtain ⟨b', hb', rfl⟩ := map_eq_ok.1 h'
    exact congrArg some (hf a a' b b' ha hb hb')

theorem combine {f f' : Decimal → Decimal → Except Overflow Decimal}
    (hf : ∀ a a' b b' c c', a.toRat = a'.toRat → b.toRat = b'.toRat → f a b = .ok c → f' a' b' = .ok c' →
      c.toRat = c'.toRat)
    (hx : SameValue x x') (hy : SameValue y y') (h : PortfolioRow.combine f x y = .ok z)
    (h' : PortfolioRow.combine f' x' y' = .ok z') : SameValue z z' := by
  obtain ⟨rfl, rfl⟩ | ⟨a, a', rfl, rfl, ha⟩ := cases_iff.1 hx
  · rw [← pure_eq_ok.1 h, ← pure_eq_ok.1 h']
    rfl
  obtain ⟨rfl, rfl⟩ | ⟨b, b', rfl, rfl, hb⟩ := cases_iff.1 hy
  · rw [← pure_eq_ok.1 h, ← pure_eq_ok.1 h']
    rfl
  · obtain ⟨c, hc, rfl⟩ := map_eq_ok.1 h
    obtain ⟨c', hc', rfl⟩ := map_eq_ok.1 h'
    exact congrArg some (hf a a' b b' c c' ha hb hc hc')

theorem bind_ratio? (hx : SameValue x x') (hy : SameValue y y') :
    SameValue (x.bind fun a => y.bind a.ratio?) (x'.bind fun a => y'.bind a.ratio?) := by
  obtain ⟨rfl, rfl⟩ | ⟨a, a', rfl, rfl, ha⟩ := cases_iff.1 hx
  · rfl
  obtain ⟨rfl, rfl⟩ | ⟨b, b', rfl, rfl, hb⟩ := cases_iff.1 hy
  · rfl
  · exact toRat_ratio?_congr ha hb

end SameValue

namespace Decimal

theorem toRat_div_congr {a a' b b' c c' : Decimal} (ha : a.toRat = a'.toRat) (hb : b.toRat = b'.toRat)
    (h : a.div b = .ok c) (h' : a'.div b' = .ok c') : c.toRat = c'.toRat :=
  toRat_eq_of_value?_eq (by rw [value?_div, value?_div, ha, hb]) h h'

theorem sameValue_mean? {values values' : List Decimal} {x x' : Figure}
    (hvalues : values.map toRat = values'.map toRat) (h : mean? values = .ok x) (h' : mean? values' = .ok x') :
    SameValue x x' := by
  obtain ⟨total, htotal, h⟩ := bind_eq_ok.1 h
  obtain ⟨total', htotal', h'⟩ := bind_eq_ok.1 h'
  have hlength : values.length = values'.length := by simpa using congrArg List.length hvalues
  rw [← pure_eq_ok.1 h, ← pure_eq_ok.1 h', hlength]
  exact toRat_ratio?_congr (toRat_eq_of_value?_eq (by rw [value?_sum, value?_sum, hvalues]) htotal htotal') rfl

theorem toRat_foldl_larger {values : List Decimal} {start : Decimal} :
    (values.foldl larger start).toRat = (values.map toRat).foldl max start.toRat := by
  induction values generalizing start with
  | nil => rfl
  | cons a rest ih => rw [List.foldl_cons, ih, toRat_larger, List.map_cons, List.foldl_cons]

end Decimal

namespace PortfolioRow

variable {a a' b b' c c' d d' : Decimal}

theorem toRat_gain_congr (ha : a.toRat = a'.toRat) (hb : b.toRat = b'.toRat) (hc : c.toRat = c'.toRat)
    (h : gain a b c = .ok d) (h' : gain a' b' c' = .ok d') : d.toRat = d'.toRat := by
  obtain ⟨difference, hdifference, hproduct⟩ := bind_eq_ok.1 h
  obtain ⟨difference', hdifference', hproduct'⟩ := bind_eq_ok.1 h'
  exact toRat_mul_congr (toRat_sub_congr hb hc hdifference hdifference') ha hproduct hproduct'

theorem toRat_midpoint_congr (ha : a.toRat = a'.toRat) (hb : b.toRat = b'.toRat) (h : midpoint a b = .ok c)
    (h' : midpoint a' b' = .ok c') : c.toRat = c'.toRat := by
  obtain ⟨total, htotal, hhalf⟩ := bind_eq_ok.1 h
  obtain ⟨total', htotal', hhalf'⟩ := bind_eq_ok.1 h'
  exact toRat_div_congr (toRat_add_congr ha hb htotal htotal') rfl hhalf hhalf'

theorem sameValue_value {base base' quote quote' total total' : Figure} {price price' : Decimal}
    (hprice : price.toRat = price'.toRat) (hbase : SameValue base base') (hquote : SameValue quote quote')
    (h : combine (Performance.value · · price) base quote = .ok total)
    (h' : combine (Performance.value · · price') base' quote' = .ok total') : SameValue total total' :=
  hbase.combine (fun _ _ _ _ _ _ ha hb => Performance.toRat_value_congr ha hb hprice) hquote h h'

/-! ## Fees -/

/-- The fees of fills, each at its own price, added up in their order. -/
def feeCalculation (quote : Token) (ordered : List Fill) : Calculation :=
  (ordered.map (·.feeAtOwnPrice quote)).foldl .add (.given .zero)

section Fees

variable {quote : Token} {ordered ordered' : List Fill}

private theorem run_feeCalculation :
    (feeCalculation quote ordered).run = addAll (·.feeInQuote quote) .zero ordered := by
  rw [feeCalculation, Calculation.run_foldl_add]
  simp only [List.foldlM_map, Fill.run_feeAtOwnPrice]
  rfl

private theorem value_feeCalculation_perm (hperm : ordered.Perm ordered') :
    (feeCalculation quote ordered).value = (feeCalculation quote ordered').value := by
  simp only [feeCalculation, Calculation.value_foldl_add]
  rw [((hperm.map _).map _).sum_eq]

/-- Where nothing is rounded, the order of the fills does not change what was paid. -/
theorem toRat_feesPaid_congr {feesPaid feesPaid' : Decimal} (hperm : ordered.Perm ordered')
    (hexact : (feeCalculation quote ordered).Exact) (hexact' : (feeCalculation quote ordered').Exact)
    (h : addAll (·.feeInQuote quote) .zero ordered = .ok feesPaid)
    (h' : addAll (·.feeInQuote quote) .zero ordered' = .ok feesPaid') : feesPaid.toRat = feesPaid'.toRat := by
  obtain ⟨so, hrun, hvalue⟩ := hexact.exists_run
  obtain ⟨so', hrun', hvalue'⟩ := hexact'.exists_run
  obtain rfl : feesPaid = so := Except.ok.inj (h.symm.trans (run_feeCalculation ▸ hrun))
  obtain rfl : feesPaid' = so' := Except.ok.inj (h'.symm.trans (run_feeCalculation ▸ hrun'))
  rw [hvalue, hvalue', value_feeCalculation_perm hperm]

end Fees

/-! ## Rows -/

/-- Two rows have the same market, the same pair and the same balances, and every figure has the same value in both. -/
structure Agrees (row row' : PortfolioRow) : Prop where
  strategy : row.strategy = row'.strategy
  market : row.market = row'.market
  pair : row.pair = row'.pair
  turnover : row.turnover.Agrees row'.turnover
  averageBuy : SameValue row.averagePrice.buy row'.averagePrice.buy
  averageSell : SameValue row.averagePrice.sell row'.averagePrice.sell
  averageTotal : SameValue row.averagePrice.total row'.averagePrice.total
  balances : row.balances = row'.balances
  holdValue : SameValue row.holdValue row'.holdValue
  currentValue : SameValue row.currentValue row'.currentValue
  tradePnl : SameValue row.tradePnl row'.tradePnl
  feesPaid : row.feesPaid.toRat = row'.feesPaid.toRat
  totalPnl : SameValue row.totalPnl row'.totalPnl
  returnRatio : SameValue row.returnRatio row'.returnRatio
  holdings : row.holdings.toRat = row'.holdings.toRat
  averageCostBasis : SameValue row.averageCostBasis row'.averageCostBasis
  unrealizedPnl : SameValue row.unrealizedPnl row'.unrealizedPnl
  realizedPnl : row.realizedPnl.toRat = row'.realizedPnl.toRat
  netPnl : row.netPnl.toRat = row'.netPnl.toRat
  effectiveSellBuyPrice : SameValue row.effectiveSellBuyPrice row'.effectiveSellBuyPrice
  reentryQuote : SameValue row.reentryQuote row'.reentryQuote
  retracementTrigger : SameValue row.retracementTrigger row'.retracementTrigger
  latestPrice : row.latestPrice.toRat = row'.latestPrice.toRat
  latestBuyPrice : SameValue row.latestBuyPrice row'.latestBuyPrice
  peakPrice : row.peakPrice.toRat = row'.peakPrice.toRat

section Moments

variable {fills fills' : List Fill}

theorem toRat_prices_eq (h : List.Forall₂ (fun fill fill' => Fill.moment fill = fill'.moment) fills fills') :
    (fills.map (·.price)).map toRat = (fills'.map (·.price)).map toRat := by
  induction h with
  | nil => rfl
  | cons hhead _ ih =>
    rw [List.map_cons, List.map_cons, List.map_cons, List.map_cons, ih]
    exact congrArg (· :: _) (congrArg Moment.price hhead)

private theorem sameValue_lastPrice
    (h : List.Forall₂ (fun fill fill' => Fill.moment fill = fill'.moment) fills fills') :
    SameValue (fills.getLast?.map (·.price)) (fills'.getLast?.map (·.price)) := by
  have hlast := congrArg List.getLast? (toRat_prices_eq h)
  simpa only [SameValue, List.getLast?_map] using hlast

variable {averages averages' : Averages}

theorem sameValue_averagePrices (h : SameMoments fills fills') (haverages : averagePrices fills = .ok averages)
    (haverages' : averagePrices fills' = .ok averages') :
    SameValue averages.buy averages'.buy ∧ SameValue averages.sell averages'.sell ∧
      SameValue averages.total averages'.total := by
  simp only [averagePrices, meanPrice, bind_eq_ok, pure_eq_ok] at haverages haverages'
  obtain ⟨buy, hbuy, sell, hsell, total, htotal, rfl⟩ := haverages
  obtain ⟨buy', hbuy', sell', hsell', total', htotal', rfl⟩ := haverages'
  exact ⟨sameValue_mean? (toRat_prices_eq (h.on .buy)) hbuy hbuy',
    sameValue_mean? (toRat_prices_eq (h.on .sell)) hsell hsell',
    sameValue_mean? (toRat_prices_eq h.all) htotal htotal'⟩

end Moments

variable {strategy : String} {pair : Pair} {last last' : Fill} {ordered ordered' : List Fill}
  {bounds : Option BalanceBounds} {row row' : PortfolioRow}

/-- The figures that all others are computed from have the same values in two rows. -/
structure BasisAgrees (row row' : PortfolioRow) : Prop where
  turnover : row.turnover.Agrees row'.turnover
  balances : row.balances = row'.balances
  latestPrice : row.latestPrice.toRat = row'.latestPrice.toRat
  latestBuyPrice : SameValue row.latestBuyPrice row'.latestBuyPrice
  peakPrice : row.peakPrice.toRat = row'.peakPrice.toRat
  averageBuy : SameValue row.averagePrice.buy row'.averagePrice.buy
  averageSell : SameValue row.averagePrice.sell row'.averagePrice.sell
  averageTotal : SameValue row.averagePrice.total row'.averagePrice.total
  holdings : row.holdings.toRat = row'.holdings.toRat
  realizedPnl : row.realizedPnl.toRat = row'.realizedPnl.toRat

theorem basisAgrees_of_computed (hmoments : SameMoments ordered ordered') (hlast : last.moment = last'.moment)
    (h : Computed strategy pair last ordered bounds row) (h' : Computed strategy pair last' ordered' bounds row') :
    BasisAgrees row row' := by
  have hturnover : row.turnover.Agrees row'.turnover :=
    Turnover.agrees_of_grows hmoments h.progress.turnover h'.progress.turnover
  have hprice : last.price.toRat = last'.price.toRat := congrArg Moment.price hlast
  obtain ⟨hbuy, hsell, htotal⟩ := sameValue_averagePrices hmoments h.averagePrice h'.averagePrice
  refine ⟨hturnover, h.balances.trans h'.balances.symm, ?_, ?_, ?_, hbuy, hsell, htotal,
    toRat_sub_congr (hturnover.base.on .buy) (hturnover.base.on .sell) h.holdings h'.holdings,
    toRat_sub_congr (hturnover.quote.on .sell) (hturnover.quote.on .buy) h.realizedPnl h'.realizedPnl⟩
  · rw [h.latestPrice, h'.latestPrice, hprice]
  · rw [h.latestBuyPrice, h'.latestBuyPrice]
    exact sameValue_lastPrice (hmoments.on .buy)
  · rw [h.peakPrice, h'.peakPrice, toRat_foldl_larger, toRat_foldl_larger, toRat_prices_eq hmoments.all, hprice]

theorem agrees_of_computed (hmoments : SameMoments ordered ordered') (hlast : last.moment = last'.moment)
    (hmarket : last.market = last'.market) (hfees : row.feesPaid.toRat = row'.feesPaid.toRat)
    (h : Computed strategy pair last ordered bounds row) (h' : Computed strategy pair last' ordered' bounds row') :
    row.Agrees row' := by
  have hbasis := basisAgrees_of_computed hmoments hlast h h'
  have hbalance : ∀ balance : RunBalances → Figure, SameValue (balance row.balances) (balance row'.balances) :=
    fun balance => .of_eq (congrArg balance hbasis.balances)
  have hcost : SameValue row.averageCostBasis row'.averageCostBasis := by
    rw [h.averageCostBasis, h'.averageCostBasis]
    exact toRat_ratio?_congr (hbasis.turnover.quote.on .buy) hbasis.holdings
  have hunrealized : SameValue row.unrealizedPnl row'.unrealizedPnl :=
    hcost.mapM (fun _ _ _ _ => toRat_gain_congr hbasis.holdings hbasis.latestPrice) h.unrealizedPnl h'.unrealizedPnl
  have hhold : SameValue row.holdValue row'.holdValue :=
    sameValue_value hbasis.latestPrice (hbalance (·.startBase)) (hbalance (·.startQuote)) h.holdValue h'.holdValue
  have hcurrent : SameValue row.currentValue row'.currentValue :=
    sameValue_value hbasis.latestPrice (hbalance (·.currentBase)) (hbalance (·.currentQuote)) h.currentValue
      h'.currentValue
  have htradePnl : SameValue row.tradePnl row'.tradePnl :=
    hcurrent.combine (fun _ _ _ _ _ _ => toRat_sub_congr) hhold h.tradePnl h'.tradePnl
  have htotalPnl : SameValue row.totalPnl row'.totalPnl :=
    htradePnl.mapM (fun _ _ _ _ hpnl => toRat_sub_congr hpnl hfees) h.totalPnl h'.totalPnl
  exact { hbasis with
    feesPaid := hfees
    strategy := h.ofStrategy.trans h'.ofStrategy.symm
    market := by rw [h.ofMarket, h'.ofMarket, hmarket]
    pair := h.ofPair.trans h'.ofPair.symm
    holdValue := hhold
    currentValue := hcurrent
    tradePnl := htradePnl
    totalPnl := htotalPnl
    returnRatio := by
      rw [h.returnRatio, h'.returnRatio]
      exact htotalPnl.bind_ratio? hhold
    averageCostBasis := hcost
    unrealizedPnl := hunrealized
    netPnl := toRat_add_congr hbasis.realizedPnl (hunrealized.getD rfl) h.netPnl h'.netPnl
    effectiveSellBuyPrice := hbasis.averageSell.combine (fun _ _ _ _ _ _ => toRat_sub_congr) hbasis.averageBuy
      h.effectiveSellBuyPrice h'.effectiveSellBuyPrice
    reentryQuote := SameValue.mapM (fun _ _ _ _ => toRat_add_congr hbasis.realizedPnl) (hbalance (·.currentQuote))
      h.reentryQuote h'.reentryQuote
    retracementTrigger := hbasis.latestBuyPrice.mapM (fun _ _ _ _ => toRat_midpoint_congr hbasis.peakPrice)
      h.retracementTrigger h'.retracementTrigger }

end PortfolioRow

end TradeReport
