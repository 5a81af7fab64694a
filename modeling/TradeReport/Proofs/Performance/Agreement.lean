import TradeReport.Proofs.Fees
import TradeReport.Proofs.Performance.Figures
/-!
# The order of input

A performance does not depend on the order its fills were given in (`calculate_perm`). Fills that tie keep their
order when they are sorted, so two runs may take them in different order, with different sides, fees and places.
Each sum still runs through the same values, and operands of the same values have results of the same value,
rounded or not. The sums of fees are taken token by token and do depend on the order; their tokens do not.
-/

namespace TradeReport

open Decimal

/-! ## Operands of the same value -/

section Operands

variable {a a' b b' c c' : Decimal}

theorem toRat_sub_congr (ha : a.toRat = a'.toRat) (hb : b.toRat = b'.toRat) (h : a.sub b = .ok c)
    (h' : a'.sub b' = .ok c') : c.toRat = c'.toRat :=
  toRat_eq_of_value?_eq (by rw [value?_sub, value?_sub, ha, hb]) h h'

theorem toRat_add_congr (ha : a.toRat = a'.toRat) (hb : b.toRat = b'.toRat) (h : a.add b = .ok c)
    (h' : a'.add b' = .ok c') : c.toRat = c'.toRat :=
  toRat_eq_of_value?_eq (by rw [value?_add, value?_add, ha, hb]) h h'

theorem toRat_mul_congr (ha : a.toRat = a'.toRat) (hb : b.toRat = b'.toRat) (h : a.mul b = .ok c)
    (h' : a'.mul b' = .ok c') : c.toRat = c'.toRat :=
  toRat_eq_of_value?_eq (by rw [value?_mul, value?_mul, ha, hb]) h h'

theorem toRat_ratio?_congr (ha : a.toRat = a'.toRat) (hb : b.toRat = b'.toRat) :
    (a.ratio? b).map toRat = (a'.ratio? b').map toRat := by
  rw [toRat_ratio?, toRat_ratio?, ha, hb]

end Operands

namespace Performance

variable {base base' quote quote' price price' : Decimal}

theorem toRat_value_congr {total total' : Decimal} (hbase : base.toRat = base'.toRat)
    (hquote : quote.toRat = quote'.toRat) (hprice : price.toRat = price'.toRat)
    (h : value base quote price = .ok total) (h' : value base' quote' price' = .ok total') :
    total.toRat = total'.toRat := by
  obtain ⟨product, hproduct, hsum⟩ := bind_eq_ok.1 h
  obtain ⟨product', hproduct', hsum'⟩ := bind_eq_ok.1 h'
  exact toRat_add_congr (toRat_mul_congr hbase hprice hproduct hproduct') hquote hsum hsum'

private theorem toRat_baseRatio_congr {ratio ratio' : Figure} (hbase : base.toRat = base'.toRat)
    (hquote : quote.toRat = quote'.toRat) (hprice : price.toRat = price'.toRat)
    (h : baseRatio base quote price = .ok ratio) (h' : baseRatio base' quote' price' = .ok ratio') :
    ratio.map toRat = ratio'.map toRat := by
  obtain ⟨product, hproduct, hrest⟩ := bind_eq_ok.1 h
  obtain ⟨product', hproduct', hrest'⟩ := bind_eq_ok.1 h'
  obtain ⟨total, htotal, hratio⟩ := bind_eq_ok.1 hrest
  obtain ⟨total', htotal', hratio'⟩ := bind_eq_ok.1 hrest'
  have hvalue := toRat_mul_congr hbase hprice hproduct hproduct'
  rw [← pure_eq_ok.1 hratio, ← pure_eq_ok.1 hratio']
  exact toRat_ratio?_congr hvalue (toRat_add_congr hvalue hquote htotal htotal')

end Performance

/-! ## Fills of the same moments -/

/-- Two lists of fills that take the same moments, together and on each side. -/
structure SameMoments (fills fills' : List Fill) : Prop where
  all : List.Forall₂ (fun fill fill' => fill.moment = fill'.moment) fills fills'
  on : ∀ side, List.Forall₂ (fun fill fill' => fill.moment = fill'.moment) (ofSide side fills) (ofSide side fills')

theorem SameMoments.of_perm {fills fills' : List Fill} (hperm : fills.Perm fills') :
    SameMoments (chronological fills) (chronological fills') := by
  have hordered := chronological_perm_chronological hperm
  exact ⟨forall₂_moment_of_perm (inOrder_chronological _) (inOrder_chronological _) hordered,
    fun side => forall₂_moment_of_perm ((inOrder_chronological _).filter _) ((inOrder_chronological _).filter _)
      (hordered.filter _)⟩

structure Volume.Agrees (volume volume' : Volume) : Prop where
  on : ∀ side, (volume.on side).toRat = (volume'.on side).toRat
  total : volume.total.toRat = volume'.total.toRat

section Moments

variable {fills fills' : List Fill} {figure : Fill → Except Overflow Decimal}

theorem Volume.agrees_of_grows {volume volume' : Volume} (h : SameMoments fills fills')
    (hfigure : ∀ fill fill' : Fill, fill.moment = fill'.moment → value? (figure fill) = value? (figure fill'))
    (hgrows : Volume.Grows figure fills .none volume) (hgrows' : Volume.Grows figure fills' .none volume') :
    volume.Agrees volume' :=
  ⟨fun side => toRat_addAll_congr ((h.on side).imp hfigure) rfl (hgrows.on side) (hgrows'.on side),
    toRat_addAll_congr (h.all.imp hfigure) rfl hgrows.total hgrows'.total⟩

private theorem value?_amountOf_congr {fill fill' : Fill} (h : fill.moment = fill'.moment) :
    value? (amountOf fill) = value? (amountOf fill') :=
  congrArg some (congrArg Moment.amount h)

private theorem value?_notional_congr {fill fill' : Fill} (h : fill.moment = fill'.moment) :
    value? fill.notional = value? fill'.notional := by
  have hprice : fill.price.toRat = fill'.price.toRat := congrArg Moment.price h
  have hamount : fill.amount.toRat = fill'.amount.toRat := congrArg Moment.amount h
  rw [Fill.notional, Fill.notional, value?_mul, value?_mul, hprice, hamount]

structure Turnover.Agrees (turnover turnover' : Turnover) : Prop where
  counts : turnover.counts = turnover'.counts
  base : turnover.base.Agrees turnover'.base
  quote : turnover.quote.Agrees turnover'.quote

theorem Turnover.agrees_of_grows {turnover turnover' : Turnover} (h : SameMoments fills fills')
    (hgrows : Turnover.Grows fills .none turnover) (hgrows' : Turnover.Grows fills' .none turnover') :
    turnover.Agrees turnover' := by
  refine ⟨TradeCounts.ext_on (fun side => ?_) ?_, ?_, ?_⟩
  · rw [hgrows.counts.on, hgrows'.counts.on, (h.on side).length_eq]
  · rw [hgrows.counts.total, hgrows'.counts.total, h.all.length_eq]
  · exact Volume.agrees_of_grows h (fun _ _ => value?_amountOf_congr) hgrows.base hgrows'.base
  · exact Volume.agrees_of_grows h (fun _ _ => value?_notional_congr) hgrows.quote hgrows'.quote

theorem Turnover.Agrees.averagePrices {turnover turnover' : Turnover} (h : turnover.Agrees turnover') :
    turnover.averagePrices.buy.map toRat = turnover'.averagePrices.buy.map toRat ∧
      turnover.averagePrices.sell.map toRat = turnover'.averagePrices.sell.map toRat ∧
      turnover.averagePrices.total.map toRat = turnover'.averagePrices.total.map toRat :=
  ⟨toRat_ratio?_congr (h.quote.on .buy) (h.base.on .buy), toRat_ratio?_congr (h.quote.on .sell) (h.base.on .sell),
    toRat_ratio?_congr h.quote.total h.base.total⟩

end Moments

/-! ## Performances that agree -/

namespace Performance

/-- Two performances have the same counts and tokens, and every figure but the sums of fees, and what is computed from
them, has the same value in both. -/
structure Agrees (p p' : Performance) : Prop where
  turnover : p.turnover.Agrees p'.turnover
  netBase : p.netBase.toRat = p'.netBase.toRat
  netQuote : p.netQuote.toRat = p'.netQuote.toRat
  averageBuy : p.averagePrice.buy.map toRat = p'.averagePrice.buy.map toRat
  averageSell : p.averagePrice.sell.map toRat = p'.averagePrice.sell.map toRat
  averageTotal : p.averagePrice.total.map toRat = p'.averagePrice.total.map toRat
  startBase : p.startBase.map toRat = p'.startBase.map toRat
  currentBase : p.currentBase = p'.currentBase
  startQuote : p.startQuote.toRat = p'.startQuote.toRat
  currentQuote : p.currentQuote = p'.currentQuote
  startPrice : p.startPrice.toRat = p'.startPrice.toRat
  currentPrice : p.currentPrice.toRat = p'.currentPrice.toRat
  startBaseRatio : p.startBaseRatio.map toRat = p'.startBaseRatio.map toRat
  currentBaseRatio : p.currentBaseRatio.map toRat = p'.currentBaseRatio.map toRat
  holdValue : p.holdValue.toRat = p'.holdValue.toRat
  currentValue : p.currentValue.toRat = p'.currentValue.toRat
  tradePnl : p.tradePnl.toRat = p'.tradePnl.toRat
  feeTokens : p.fees.keys = p'.fees.keys
  unpricedTokens : p.unpricedTokens = p'.unpricedTokens

variable {derivatives : DerivativeMarkets} {market : String} {listing : Listing} {pair : Pair}
  {first first' last last' : Fill} {fills fills' ordered ordered' : List Fill} {holdings : Snapshot}
  {windowStart : Int64} {pricing : Pricing} {hidden hidden' : Hidden} {p p' : Performance}

/-- The figures that all others are computed from have the same values in two performances. -/
structure BasisAgrees (hidden hidden' : Hidden) (p p' : Performance) : Prop where
  turnover : p.turnover.Agrees p'.turnover
  isDerivative : p.isDerivative = p'.isDerivative
  netBase : p.netBase.toRat = p'.netBase.toRat
  netQuote : p.netQuote.toRat = p'.netQuote.toRat
  currentQuote : p.currentQuote = p'.currentQuote
  startBase : hidden.startBase.toRat = hidden'.startBase.toRat
  startQuote : p.startQuote.toRat = p'.startQuote.toRat
  startPrice : p.startPrice.toRat = p'.startPrice.toRat
  currentPrice : p.currentPrice.toRat = p'.currentPrice.toRat

theorem basisAgrees_of_computed (hmoments : SameMoments ordered ordered') (hfirst : first.moment = first'.moment)
    (hlast : last.moment = last'.moment)
    (h : Computed derivatives market pair first last ordered holdings windowStart pricing hidden p)
    (h' : Computed derivatives market pair first' last' ordered' holdings windowStart pricing hidden' p') :
    BasisAgrees hidden hidden' p p' := by
  have hturnover : p.turnover.Agrees p'.turnover :=
    Turnover.agrees_of_grows hmoments (Turnover.ofFills_eq_ok_iff.1 h.turnover)
      (Turnover.ofFills_eq_ok_iff.1 h'.turnover)
  have hcurrentQuote : p.currentQuote = p'.currentQuote := h.currentQuote.trans h'.currentQuote.symm
  have hnetBase := toRat_sub_congr (hturnover.base.on .buy) (hturnover.base.on .sell) h.netBase h'.netBase
  have hnetQuote := toRat_sub_congr (hturnover.quote.on .sell) (hturnover.quote.on .buy) h.netQuote h'.netQuote
  refine ⟨hturnover, h.isDerivative.trans h'.isDerivative.symm, hnetBase, hnetQuote, hcurrentQuote,
    toRat_sub_congr rfl hnetBase h.hiddenStartBase h'.hiddenStartBase,
    toRat_sub_congr (congrArg toRat hcurrentQuote) hnetQuote h.startQuote h'.startQuote, ?_, ?_⟩
  · rw [h.startPrice, h'.startPrice]
    exact congrArg Moment.price hfirst
  · rw [h.currentPrice, h'.currentPrice]
    cases pricing.price with
    | none => exact congrArg Moment.price hlast
    | some given => rfl

/-- What is shown on some markets only agrees where it is computed. -/
theorem map_toRat_unless {isDerivative : Bool} {x x' : Figure} (h : x.map toRat = x'.map toRat) :
    (if isDerivative then none else x).map toRat = (if isDerivative then none else x').map toRat := by
  split
  · rfl
  · exact h

theorem agrees_of_computed (hmoments : SameMoments ordered ordered') (hperm : ordered.Perm ordered')
    (hfirst : first.moment = first'.moment) (hlast : last.moment = last'.moment)
    (h : Computed derivatives market pair first last ordered holdings windowStart pricing hidden p)
    (h' : Computed derivatives market pair first' last' ordered' holdings windowStart pricing hidden' p') :
    Agrees p p' := by
  have hbasis := basisAgrees_of_computed hmoments hfirst hlast h h'
  have hcurrentQuote := congrArg toRat hbasis.currentQuote
  have hhold :=
    toRat_value_congr hbasis.startBase hbasis.startQuote hbasis.currentPrice h.holdValue h'.holdValue
  have hcurrent := toRat_value_congr rfl hcurrentQuote hbasis.currentPrice h.currentValue h'.currentValue
  have htokens : p.fees.keys = p'.fees.keys := FeeLedger.keys_eq_of_perm hperm h.fees h'.fees
  have hunpriced : p.unpricedTokens = _ := FeeLedger.unpriced_of_inQuote h.quoteFees
  have hunpriced' : p'.unpricedTokens = _ := FeeLedger.unpriced_of_inQuote h'.quoteFees
  obtain ⟨haverageBuy, haverageSell, haverageTotal⟩ := hbasis.turnover.averagePrices
  rw [← h.averagePrice, ← h'.averagePrice] at haverageBuy haverageSell haverageTotal
  refine ⟨hbasis.turnover, hbasis.netBase, hbasis.netQuote, haverageBuy, haverageSell, haverageTotal, ?_, ?_,
    hbasis.startQuote, hbasis.currentQuote, hbasis.startPrice, hbasis.currentPrice, ?_, ?_, hhold, hcurrent,
    toRat_sub_congr hcurrent hhold h.tradePnl h'.tradePnl, htokens, ?_⟩
  · rw [h.startBase, h'.startBase, hbasis.isDerivative]
    exact map_toRat_unless (congrArg some hbasis.startBase)
  · rw [h.currentBase, h'.currentBase, hbasis.isDerivative]
  · rw [h.startBaseRatio, h'.startBaseRatio, hbasis.isDerivative]
    exact map_toRat_unless (toRat_baseRatio_congr hbasis.startBase hbasis.startQuote hbasis.startPrice
      h.hiddenStartRatio h'.hiddenStartRatio)
  · rw [h.currentBaseRatio, h'.currentBaseRatio, hbasis.isDerivative]
    exact map_toRat_unless (toRat_baseRatio_congr rfl hcurrentQuote hbasis.currentPrice h.hiddenCurrentRatio
      h'.hiddenCurrentRatio)
  · rw [hunpriced, hunpriced', htokens]

/-- The calculation came to an end, with figures or with an error of its own. -/
def Returns (outcome : Except CalculationError Performance) : Prop :=
  ∀ cause, outcome ≠ .error (.overflow cause)

/-- The same error, or figures that agree. -/
inductive SameOutcome : Except CalculationError Performance → Except CalculationError Performance → Prop where
  | error (cause : CalculationError) : SameOutcome (.error cause) (.error cause)
  | figures {p p' : Performance} (h : Agrees p p') : SameOutcome (.ok p) (.ok p')

/-- However the fills are listed, the calculation comes to the same end. -/
theorem calculate_perm (hperm : fills.Perm fills')
    (hreturns : Returns (calculate derivatives listing fills holdings windowStart pricing))
    (hreturns' : Returns (calculate derivatives listing fills' holdings windowStart pricing)) :
    SameOutcome (calculate derivatives listing fills holdings windowStart pricing)
      (calculate derivatives listing fills' holdings windowStart pricing) := by
  by_cases hfills : fills = []
  · obtain rfl : fills' = [] := (hfills ▸ hperm).nil_eq.symm
    rw [hfills, calculate_nil]
    exact .error _
  have hfills' : fills' ≠ [] := by
    rintro rfl
    exact hfills hperm.eq_nil
  cases hpair : Pair.ofSymbol? listing.symbol with
  | none =>
    rw [calculate_of_invalid hfills hpair, calculate_of_invalid hfills' hpair]
    exact .error _
  | some pair =>
    obtain ⟨first, hfirst⟩ := exists_head_chronological hfills
    obtain ⟨last, hlast⟩ := exists_getLast_chronological hfills
    obtain ⟨first', hfirst'⟩ := exists_head_chronological hfills'
    obtain ⟨last', hlast'⟩ := exists_getLast_chronological hfills'
    have hordered := chronological_perm_chronological hperm
    have hmoments :=
      moments_eq_of_perm (inOrder_chronological fills) (inOrder_chronological fills') hordered
    have hfirstMoment := head_moment_eq hmoments hfirst hfirst'
    have hlastMoment := getLast_moment_eq hmoments hlast hlast'
    rw [calculate_of_ordered hfirst hlast hpair] at hreturns ⊢
    rw [calculate_of_ordered hfirst' hlast' hpair] at hreturns' ⊢
    cases hrun : ofOrdered derivatives listing.market pair first last (chronological fills) holdings windowStart
        pricing with
    | error cause => exact absurd (congrArg (Except.mapError _) hrun) (hreturns cause)
    | ok p =>
      cases hrun' : ofOrdered derivatives listing.market pair first' last' (chronological fills') holdings
          windowStart pricing with
      | error cause => exact absurd (congrArg (Except.mapError _) hrun') (hreturns' cause)
      | ok p' =>
        obtain ⟨hidden, hcomputed⟩ := ofOrdered_eq_ok_iff.1 hrun
        obtain ⟨hidden', hcomputed'⟩ := ofOrdered_eq_ok_iff.1 hrun'
        exact .figures (agrees_of_computed (.of_perm hperm) hordered hfirstMoment hlastMoment hcomputed hcomputed')

theorem Returns.of_isSome {outcome : Except CalculationError Performance} (h : outcome.toOption.isSome = true) :
    Returns outcome := by
  rintro cause rfl
  cases h

def tiedBuy : Fill :=
  ⟨"venue", "A-B", "run", .buy, .hundred, .one, .free, 1000, none, some "1"⟩

/-- A sale of the same moment, written with other places and charged a flat fee. -/
def tiedSell : Fill :=
  ⟨"venue", "A-B", "run", .sell, (ofText? "100.00").getD .zero, (ofText? "1.0").getD .zero,
    ⟨none, none, [⟨"C", .one⟩]⟩, 1000, none, some "2"⟩

theorem calculate_perm_tied :
    chronological [tiedBuy, tiedSell] ≠ chronological [tiedSell, tiedBuy] ∧
      SameOutcome (calculate .usual ⟨"venue", "A-B"⟩ [tiedBuy, tiedSell] Table.empty 0 ⟨none, Table.empty⟩)
        (calculate .usual ⟨"venue", "A-B"⟩ [tiedSell, tiedBuy] Table.empty 0 ⟨none, Table.empty⟩) := by
  have hbuyFirst : chronological [tiedBuy, tiedSell] = [tiedBuy, tiedSell] :=
    chronological_of_pairwise (by decide +kernel)
  have hsellFirst : chronological [tiedSell, tiedBuy] = [tiedSell, tiedBuy] :=
    chronological_of_pairwise (by decide +kernel)
  refine ⟨by rw [hbuyFirst, hsellFirst]; decide +kernel, calculate_perm (.swap _ _ _) (.of_isSome ?_)
    (.of_isSome ?_)⟩
  · rw [calculate, hbuyFirst]
    decide +kernel
  · rw [calculate, hsellFirst]
    decide +kernel

end Performance

end TradeReport
