import TradeReport.Proofs.Chronology
import TradeReport.Proofs.Turnover
import TradeReport.Proofs.Listing
/-!
# The figures of a listing, each from those before it

A performance is computed exactly when each of its figures is (`ofOrdered_eq_ok_iff`), and the figures are tied
to each other by the equations of `Computed`. The start balance of the base token and the two ratios are
computed on every market, also where they are not shown, so they stand beside the performance.
-/

namespace TradeReport.Performance

/-- What is computed on every market and shown only where base tokens are held. -/
structure Hidden where
  startBase : Decimal
  startBaseRatio : Figure
  currentBaseRatio : Figure

/-- The equations between the figures of a performance. -/
structure Computed (derivatives : DerivativeMarkets) (market : String) (pair : Pair) (first last : Fill)
    (ordered : List Fill) (holdings : Snapshot) (windowStart : Int64) (pricing : Pricing) (hidden : Hidden)
    (p : Performance) : Prop where
  ofMarket : p.market = market
  ofPair : p.pair = pair
  isDerivative : p.isDerivative = derivatives.contains market
  ofWindow : p.windowStart = windowStart
  startPrice : p.startPrice = first.price
  currentPrice : p.currentPrice = pricing.price.getD last.price
  turnover : Turnover.ofFills ordered = .ok p.turnover
  netBase : p.turnover.base.buy.sub p.turnover.base.sell = .ok p.netBase
  netQuote : p.turnover.quote.sell.sub p.turnover.quote.buy = .ok p.netQuote
  averagePrice : p.averagePrice = p.turnover.averagePrices
  hiddenStartBase : startBalance (holdings.held pair.base) p.netBase = .ok hidden.startBase
  startBase : p.startBase = if p.isDerivative then none else some hidden.startBase
  currentBase : p.currentBase = if p.isDerivative then none else some (holdings.held pair.base)
  currentQuote : p.currentQuote = holdings.held pair.quote
  startQuote : startBalance p.currentQuote p.netQuote = .ok p.startQuote
  holdValue : value hidden.startBase p.startQuote p.currentPrice = .ok p.holdValue
  currentValue : value (holdings.held pair.base) p.currentQuote p.currentPrice = .ok p.currentValue
  tradePnl : p.currentValue.sub p.holdValue = .ok p.tradePnl
  fees : FeeLedger.ofFills pair ordered = .ok p.fees
  quoteFees : p.fees.inQuote pair p.currentPrice pricing.rates = .ok ⟨p.feeInQuote, p.unpricedTokens⟩
  totalPnl : p.tradePnl.sub p.feeInQuote = .ok p.totalPnl
  hiddenStartRatio : baseRatio hidden.startBase p.startQuote p.startPrice = .ok hidden.startBaseRatio
  hiddenCurrentRatio :
    baseRatio (holdings.held pair.base) p.currentQuote p.currentPrice = .ok hidden.currentBaseRatio
  startBaseRatio : p.startBaseRatio = if p.isDerivative then none else hidden.startBaseRatio
  currentBaseRatio : p.currentBaseRatio = if p.isDerivative then none else hidden.currentBaseRatio
  returnRatio : p.returnRatio = p.totalPnl.ratio? p.holdValue

variable {derivatives : DerivativeMarkets} {market : String} {pair : Pair} {first last : Fill}
  {ordered : List Fill} {holdings : Snapshot} {windowStart : Int64} {pricing : Pricing} {p : Performance}

theorem ofOrdered_eq_ok_iff :
    ofOrdered derivatives market pair first last ordered holdings windowStart pricing = .ok p ↔
      ∃ hidden, Computed derivatives market pair first last ordered holdings windowStart pricing hidden p := by
  constructor
  · intro h
    simp only [ofOrdered, bind_eq_ok, pure_eq_ok] at h
    obtain ⟨turnover, hturnover, netBase, hnetBase, netQuote, hnetQuote, startBase, hstartBase, startQuote,
      hstartQuote, holdValue, hholdValue, currentValue, hcurrentValue, tradePnl, htradePnl, fees, hfees,
      quoteFees, hquoteFees, totalPnl, htotalPnl, startRatio, hstartRatio, currentRatio, hcurrentRatio, rfl⟩ := h
    exact ⟨⟨startBase, startRatio, currentRatio⟩, rfl, rfl, rfl, rfl, rfl, rfl, hturnover, hnetBase, hnetQuote,
      rfl, hstartBase, rfl, rfl, rfl, hstartQuote, hholdValue, hcurrentValue, htradePnl, hfees, hquoteFees,
      htotalPnl, hstartRatio, hcurrentRatio, rfl, rfl, rfl⟩
  · intro h
    obtain ⟨hidden, h⟩ := h
    have hprice := h.currentPrice
    have hstart := h.startPrice
    have hcurrentQuote := h.currentQuote
    have hderivative := h.isDerivative
    simp only [ofOrdered, bind_eq_ok, pure_eq_ok]
    rw [← hprice, ← hstart, ← hcurrentQuote, ← hderivative]
    refine ⟨p.turnover, h.turnover, p.netBase, h.netBase, p.netQuote, h.netQuote, hidden.startBase,
      h.hiddenStartBase, p.startQuote, h.startQuote, p.holdValue, h.holdValue, p.currentValue, h.currentValue,
      p.tradePnl, h.tradePnl, p.fees, h.fees, _, h.quoteFees, p.totalPnl, h.totalPnl, hidden.startBaseRatio,
      h.hiddenStartRatio, hidden.currentBaseRatio, h.hiddenCurrentRatio, ?_⟩
    rw [← h.ofMarket, ← h.ofPair, ← h.ofWindow, ← h.averagePrice, ← h.startBase, ← h.startBaseRatio,
      ← h.currentBaseRatio, ← h.returnRatio]
    have hcurrentBase := h.currentBase
    rw [← h.ofPair] at hcurrentBase
    rw [← hcurrentBase]

variable {listing : Listing} {fills : List Fill}

def calculateInOrder (derivatives : DerivativeMarkets) (listing : Listing) (fills : List Fill) (holdings : Snapshot)
    (windowStart : Int64) (pricing : Pricing) : Except CalculationError Performance :=
  match fills.head?, fills.getLast? with
  | some first, some last => do
    let pair ← Pair.ofSymbol listing.symbol
    ofOrdered derivatives listing.market pair first last fills holdings windowStart pricing
  | _, _ => throw .emptyScope

theorem calculate_eq_inOrder (derivatives : DerivativeMarkets) (listing : Listing) (fills : List Fill)
    (holdings : Snapshot) (windowStart : Int64) (pricing : Pricing) :
    calculate derivatives listing fills holdings windowStart pricing
      = calculateInOrder derivatives listing (chronological fills) holdings windowStart pricing :=
  rfl

theorem calculate_of_ordered (hfirst : (chronological fills).head? = some first)
    (hlast : (chronological fills).getLast? = some last) (hpair : Pair.ofSymbol? listing.symbol = some pair) :
    calculate derivatives listing fills holdings windowStart pricing
      = (ofOrdered derivatives listing.market pair first last (chronological fills) holdings windowStart
          pricing).mapError .overflow := by
  simp only [calculate, hfirst, hlast, Pair.ofSymbol_of_some hpair]
  rfl

theorem calculate_of_invalid (hfills : fills ≠ []) (hpair : Pair.ofSymbol? listing.symbol = none) :
    calculate derivatives listing fills holdings windowStart pricing
      = .error (.invalidPair listing.symbol) := by
  obtain ⟨first, hfirst⟩ := exists_head_chronological hfills
  obtain ⟨last, hlast⟩ := exists_getLast_chronological hfills
  simp only [calculate, hfirst, hlast, Pair.ofSymbol_of_none hpair]
  rfl

theorem calculate_nil :
    calculate derivatives listing [] holdings windowStart pricing = .error .emptyScope := by
  simp [calculate, chronological, chronologicalBy]
  rfl

/-- There are figures exactly for some fills of a pair whose arithmetic stays in range. -/
theorem calculate_eq_ok_iff :
    calculate derivatives listing fills holdings windowStart pricing = .ok p ↔
      ∃ first last pair, (chronological fills).head? = some first ∧ (chronological fills).getLast? = some last ∧
        Pair.ofSymbol? listing.symbol = some pair ∧
        ofOrdered derivatives listing.market pair first last (chronological fills) holdings windowStart pricing
          = .ok p := by
  constructor
  · intro h
    by_cases hfills : fills = []
    · rw [hfills, calculate_nil] at h
      cases h
    obtain ⟨first, hfirst⟩ := exists_head_chronological hfills
    obtain ⟨last, hlast⟩ := exists_getLast_chronological hfills
    cases hpair : Pair.ofSymbol? listing.symbol with
    | none =>
      rw [calculate_of_invalid hfills hpair] at h
      cases h
    | some pair =>
      rw [calculate_of_ordered hfirst hlast hpair, mapError_eq_ok] at h
      exact ⟨first, last, pair, hfirst, hlast, rfl, h⟩
  · intro h
    obtain ⟨first, last, pair, hfirst, hlast, hpair, h⟩ := h
    rw [calculate_of_ordered hfirst hlast hpair, mapError_eq_ok]
    exact h

end TradeReport.Performance
