import TradeReport.Portfolio
import TradeReport.Proofs.Chronology
import TradeReport.Proofs.Turnover
import TradeReport.Proofs.Listing
/-!
# The figures of a row, each from those before it

The figures of a row are tied to each other by the equations of `Computed`. Its marks are those of the fills in their
order: the fees are summed from the first to the last, the peak is the highest price, and the latest purchase is the
last of the purchases (`Progress.Grows`).
-/

namespace TradeReport.PortfolioRow

variable {quote : Token} {ordered : List Fill}

/-- From one progress to another: its sums and marks have taken in the fills. -/
structure Progress.Grows (quote : Token) (fills : List Fill) (before after : Progress) : Prop where
  turnover : Turnover.Grows fills before.turnover after.turnover
  feesPaid : addAll (·.feeInQuote quote) before.feesPaid fills = .ok after.feesPaid
  peakPrice : after.peakPrice = (fills.map (·.price)).foldl Decimal.larger before.peakPrice
  latestBuyPrice :
    after.latestBuyPrice = ((ofSide .buy fills).getLast?.map (·.price)).or before.latestBuyPrice

namespace Progress

variable {before next after : Progress} {fill : Fill} {fills : List Fill}

theorem add_eq_ok_iff :
    before.add quote fill = .ok next ↔ before.turnover.add fill = .ok next.turnover ∧
      (∃ fee, fill.feeInQuote quote = .ok fee ∧ before.feesPaid.add fee = .ok next.feesPaid) ∧
      next.peakPrice = before.peakPrice.larger fill.price ∧
      next.latestBuyPrice = if fill.side = .buy then some fill.price else before.latestBuyPrice := by
  simp only [add, bind_eq_ok, pure_eq_ok]
  constructor
  · rintro ⟨turnover, hturnover, fee, hfee, feesPaid, hfeesPaid, rfl⟩
    exact ⟨hturnover, ⟨fee, hfee, hfeesPaid⟩, rfl, rfl⟩
  · rintro ⟨hturnover, ⟨fee, hfee, hfeesPaid⟩, hpeak, hbuy⟩
    refine ⟨next.turnover, hturnover, fee, hfee, next.feesPaid, hfeesPaid, ?_⟩
    rw [← hpeak, ← hbuy]

theorem latestBuyPrice_cons
    (h : next.latestBuyPrice = if fill.side = .buy then some fill.price else before.latestBuyPrice) :
    ((ofSide .buy fills).getLast?.map (·.price)).or next.latestBuyPrice
      = ((ofSide .buy (fill :: fills)).getLast?.map (·.price)).or before.latestBuyPrice := by
  rw [h]
  by_cases hside : fill.side = .buy
  · rw [if_pos hside, ofSide_cons_self hside, List.getLast?_cons]
    cases (ofSide .buy fills).getLast? <;> rfl
  · rw [if_neg hside, ofSide_cons_of_ne hside]

theorem Grows.cons (hnext : before.add quote fill = .ok next) (h : Grows quote fills next after) :
    Grows quote (fill :: fills) before after := by
  obtain ⟨hturnover, ⟨fee, hfee, hfeesPaid⟩, hpeak, hbuy⟩ := add_eq_ok_iff.1 hnext
  refine ⟨Turnover.foldlM_add_eq_ok_iff.1 ?_, addAll_cons_eq_ok.2 ⟨fee, hfee, next.feesPaid, hfeesPaid, h.feesPaid⟩,
    ?_, h.latestBuyPrice.trans (latestBuyPrice_cons hbuy)⟩
  · rw [List.foldlM_cons, bind_eq_ok]
    exact ⟨next.turnover, hturnover, Turnover.foldlM_add_eq_ok_iff.2 h.turnover⟩
  · rw [h.peakPrice, hpeak, List.map_cons, List.foldl_cons]

theorem grows_of_foldlM (h : fills.foldlM (add quote) before = .ok after) : Grows quote fills before after := by
  induction fills generalizing before with
  | nil =>
    rw [List.foldlM_nil, pure_eq_ok] at h
    subst h
    exact ⟨Turnover.foldlM_add_eq_ok_iff.1 rfl, rfl, rfl, rfl⟩
  | cons fill rest ih =>
    rw [List.foldlM_cons, bind_eq_ok] at h
    obtain ⟨next, hnext, hrest⟩ := h
    exact (ih hrest).cons hnext

end Progress

/-- The equations between the figures of a row. -/
structure Computed (strategy : String) (pair : Pair) (last : Fill) (ordered : List Fill)
    (bounds : Option BalanceBounds) (row : PortfolioRow) : Prop where
  ofStrategy : row.strategy = strategy
  ofMarket : row.market = last.market
  ofPair : row.pair = pair
  latestPrice : row.latestPrice = last.price
  progress : Progress.Grows pair.quote ordered ⟨.none, .zero, last.price, none⟩
    ⟨row.turnover, row.feesPaid, row.peakPrice, row.latestBuyPrice⟩
  averagePrice : averagePrices ordered = .ok row.averagePrice
  holdings : row.turnover.base.buy.sub row.turnover.base.sell = .ok row.holdings
  averageCostBasis : row.averageCostBasis = row.turnover.quote.buy.ratio? row.holdings
  unrealizedPnl : row.averageCostBasis.mapM (gain row.holdings row.latestPrice) = .ok row.unrealizedPnl
  realizedPnl : row.turnover.quote.sell.sub row.turnover.quote.buy = .ok row.realizedPnl
  effectiveSellBuyPrice :
    combine Decimal.sub row.averagePrice.sell row.averagePrice.buy = .ok row.effectiveSellBuyPrice
  balances : row.balances = RunBalances.ofBounds bounds
  holdValue : combine (Performance.value · · row.latestPrice) row.balances.startBase row.balances.startQuote
    = .ok row.holdValue
  currentValue : combine (Performance.value · · row.latestPrice) row.balances.currentBase row.balances.currentQuote
    = .ok row.currentValue
  tradePnl : combine Decimal.sub row.currentValue row.holdValue = .ok row.tradePnl
  totalPnl : row.tradePnl.mapM (·.sub row.feesPaid) = .ok row.totalPnl
  returnRatio : row.returnRatio = row.totalPnl.bind fun pnl => row.holdValue.bind pnl.ratio?
  reentryQuote : row.balances.currentQuote.mapM row.realizedPnl.add = .ok row.reentryQuote
  netPnl : row.realizedPnl.add (row.unrealizedPnl.getD .zero) = .ok row.netPnl
  retracementTrigger : row.latestBuyPrice.mapM (midpoint row.peakPrice) = .ok row.retracementTrigger

variable {strategy : String} {pair : Pair} {last : Fill} {fills : List Fill} {bounds : Option BalanceBounds}
  {row : PortfolioRow}

theorem Computed.peakPrice (h : Computed strategy pair last ordered bounds row) :
    row.peakPrice = (ordered.map (·.price)).foldl Decimal.larger last.price :=
  h.progress.peakPrice

theorem Computed.latestBuyPrice (h : Computed strategy pair last ordered bounds row) :
    row.latestBuyPrice = (ofSide .buy ordered).getLast?.map (·.price) :=
  h.progress.latestBuyPrice.trans Option.or_none

theorem computed_of_ofOrdered (h : ofOrdered strategy pair last ordered bounds = .ok row) :
    Computed strategy pair last ordered bounds row := by
  simp only [ofOrdered, bind_eq_ok, pure_eq_ok] at h
  obtain ⟨progress, hprogress, averagePrice, haveragePrice, holdings, hholdings, unrealized, hunrealized, realized,
    hrealized, effective, heffective, holdValue, hholdValue, currentValue, hcurrentValue, tradePnl, htradePnl,
    totalPnl, htotalPnl, reentry, hreentry, netPnl, hnetPnl, trigger, htrigger, rfl⟩ := h
  exact ⟨rfl, rfl, rfl, rfl, Progress.grows_of_foldlM hprogress, haveragePrice, hholdings, rfl, hunrealized, hrealized,
    heffective, rfl, hholdValue, hcurrentValue, htradePnl, htotalPnl, rfl, hreentry, hnetPnl, htrigger⟩

def computeInOrder (strategy : String) (fills : List Fill) (bounds : Option BalanceBounds) :
    Except CalculationError PortfolioRow :=
  match fills.getLast? with
  | none => throw .emptyScope
  | some last => do
    let pair ← Pair.ofSymbol last.symbol
    ofOrdered strategy pair last fills bounds

theorem compute_eq_inOrder (strategy : String) (fills : List Fill) (bounds : Option BalanceBounds) :
    compute strategy fills bounds = computeInOrder strategy (chronological fills) bounds :=
  rfl

theorem compute_of_last (hlast : (chronological fills).getLast? = some last)
    (hpair : Pair.ofSymbol? last.symbol = some pair) :
    compute strategy fills bounds
      = (ofOrdered strategy pair last (chronological fills) bounds).mapError .overflow := by
  simp only [compute, hlast, Pair.ofSymbol_of_some hpair]
  rfl

theorem compute_of_invalid (hlast : (chronological fills).getLast? = some last)
    (hpair : Pair.ofSymbol? last.symbol = none) :
    compute strategy fills bounds = .error (.invalidPair last.symbol) := by
  simp only [compute, hlast, Pair.ofSymbol_of_none hpair]
  rfl

theorem exists_of_last (hlast : (chronological fills).getLast? = some last)
    (hpair : Pair.ofSymbol? last.symbol = some pair) :
    (∃ row, compute strategy fills bounds = .ok row) ∨
      ∃ cause, compute strategy fills bounds = .error (.overflow cause) := by
  rw [compute_of_last hlast hpair]
  cases ofOrdered strategy pair last (chronological fills) bounds with
  | error cause => exact .inr ⟨cause, rfl⟩
  | ok row => exact .inl ⟨row, rfl⟩

/-- A row is that of the fills in order, under the market and the pair of the last of them. -/
theorem exists_computed (h : compute strategy fills bounds = .ok row) :
    ∃ last pair, (chronological fills).getLast? = some last ∧ Pair.ofSymbol? last.symbol = some pair ∧
      Computed strategy pair last (chronological fills) bounds row := by
  cases hlast : (chronological fills).getLast? with
  | none =>
    simp only [compute, hlast] at h
    cases h
  | some last =>
    cases hpair : Pair.ofSymbol? last.symbol with
    | none =>
      rw [compute_of_invalid hlast hpair] at h
      cases h
    | some pair =>
      rw [compute_of_last hlast hpair, mapError_eq_ok] at h
      exact ⟨last, pair, rfl, hpair, computed_of_ofOrdered h⟩

end TradeReport.PortfolioRow
