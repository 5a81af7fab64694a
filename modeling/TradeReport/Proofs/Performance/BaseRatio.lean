import TradeReport.Proofs.Performance.AveragePrice
/-!
# The share held in the base token

The value of the base token is rounded before the quote balance is added to it, and their sum is rounded again. When
nothing held is negative the whole is no smaller than its part even so, because rounding keeps the order, and the
quotient stays between nothing and all (`isShare_ratio?`). This is what an entry of a market that holds base tokens
shows of the present and of the start (`baseRatios_are_shares`).
-/

namespace TradeReport.Performance

open Decimal

/-- A share of what some holdings are worth: absent exactly when they are worth nothing. -/
structure IsShare (share : Figure) (worth : Decimal) : Prop where
  absent_iff : share = none ↔ worth.toRat = 0
  between : ∀ ratio ∈ share, zero ≤ ratio ∧ ratio ≤ one

/-- The base token is held, and as long as neither balance nor the price is negative, the share is one of their
computed value. -/
def IsBaseShare (share base : Figure) (quote price : Decimal) : Prop :=
  ∃ held, base = some held ∧
    (zero ≤ held → zero ≤ quote → zero ≤ price →
      ∃ worth, value held quote price = .ok worth ∧ IsShare share worth)

variable {base quote price part worth : Decimal} {share : Figure}

theorem isShare_ratio? (hpart : 0 ≤ part.toRat) (hle : part.toRat ≤ worth.toRat) :
    IsShare (part.ratio? worth) worth := by
  rcases (hpart.trans hle).eq_or_lt with hnothing | hpos
  · have habsent : part.ratio? worth = none := by
      rw [← Option.map_eq_none_iff (f := toRat), toRat_ratio?, if_pos hnothing.symm]
    rw [habsent]
    exact ⟨by simp [hnothing.symm], by simp⟩
  · have hnone : zero.toRat * worth.toRat ≤ part.toRat := by rwa [toRat_zero, zero_mul]
    have hall : part.toRat ≤ one.toRat * worth.toRat := by rwa [toRat_one, one_mul]
    obtain ⟨ratio, hratio, hleast, hgreatest⟩ := exists_ratio_between hpos hnone hall
    rw [hratio]
    refine ⟨by simp [hpos.ne'], ?_⟩
    rintro _ ⟨⟩
    exact ⟨hleast, hgreatest⟩

private theorem isShare_of_baseRatio (hbase : zero ≤ base) (hquote : zero ≤ quote) (hprice : zero ≤ price)
    (h : baseRatio base quote price = .ok share) :
    ∃ worth, value base quote price = .ok worth ∧ IsShare share worth := by
  rw [le_iff_toRat_le, toRat_zero] at hbase hquote hprice
  obtain ⟨part, hpart, h⟩ := bind_eq_ok.1 h
  obtain ⟨worth, hworth, h⟩ := bind_eq_ok.1 h
  have hproduct := value?_mul base price
  rw [hpart, value?_ok] at hproduct
  have hsum := value?_add part quote
  rw [hworth, value?_ok] at hsum
  refine ⟨worth, bind_eq_ok.2 ⟨part, hpart, hworth⟩, ?_⟩
  rw [← pure_eq_ok.1 h]
  -- Both steps are rounded, and neither goes below what it started from.
  refine isShare_ratio? ?_ ?_
  · exact rounded?_mono (mul_nonneg hbase hprice) rounded?_zero hproduct.symm
  · exact rounded?_mono (le_add_of_nonneg_right hquote) (rounded?_toRat part) hsum.symm

variable {derivatives : DerivativeMarkets} {listing : Listing} {fills : List Fill} {holdings : Snapshot}
  {windowStart : Int64} {pricing : Pricing} {result : Performance}

/-- Of a market that holds base tokens, the share held in them is a proper one, now and at the start. -/
theorem baseRatios_are_shares (hspot : derivatives.contains listing.market = false)
    (h : calculate derivatives listing fills holdings windowStart pricing = .ok result) :
    IsBaseShare result.currentBaseRatio result.currentBase result.currentQuote result.currentPrice ∧
      IsBaseShare result.startBaseRatio result.startBase result.startQuote result.startPrice := by
  obtain ⟨_, _, pair, _, _, _, h⟩ := calculate_eq_ok_iff.1 h
  obtain ⟨hidden, hcomputed⟩ := ofOrdered_eq_ok_iff.1 h
  have hshown : ¬result.isDerivative = true := by
    rw [hcomputed.isDerivative, hspot]
    exact Bool.false_ne_true
  constructor
  · refine ⟨holdings.held pair.base, hcomputed.currentBase.trans (if_neg hshown), fun hbase hquote hprice => ?_⟩
    rw [hcomputed.currentBaseRatio, if_neg hshown]
    exact isShare_of_baseRatio hbase hquote hprice hcomputed.hiddenCurrentRatio
  · refine ⟨hidden.startBase, hcomputed.startBase.trans (if_neg hshown), fun hbase hquote hprice => ?_⟩
    rw [hcomputed.startBaseRatio, if_neg hshown]
    exact isShare_of_baseRatio hbase hquote hprice hcomputed.hiddenStartRatio

theorem baseRatios_are_shares_smallHoldings :
    ∃ result, DerivativeMarkets.usual.contains "venue" = false ∧
      calculate .usual ⟨"venue", "A-B"⟩ [smallBuy, smallSell] smallHoldings 0 ⟨some .hundred, Table.empty⟩
        = .ok result ∧
      (∃ worth, value ⟨false, 35, 1, by decide, by decide⟩ ⟨false, 1000, 0, by decide, by decide⟩ .hundred
          = .ok worth ∧ IsShare result.currentBaseRatio worth) ∧
      ∃ worth, value ⟨false, 25, 1, by decide, by decide⟩ ⟨false, 1085625, 3, by decide, by decide⟩
          ⟨false, 10025, 2, by decide, by decide⟩ = .ok worth ∧ IsShare result.startBaseRatio worth := by
  have hordered : chronological [smallBuy, smallSell] = [smallBuy, smallSell] :=
    chronological_of_pairwise (by decide +kernel)
  have hcomputed :
      (calculate .usual ⟨"venue", "A-B"⟩ [smallBuy, smallSell] smallHoldings 0 ⟨some .hundred, Table.empty⟩).map
        (fun result => (result.currentBase, result.currentQuote, result.currentPrice, result.startBase,
          result.startQuote, result.startPrice))
      = .ok (some ⟨false, 35, 1, by decide, by decide⟩, ⟨false, 1000, 0, by decide, by decide⟩, .hundred,
          some ⟨false, 25, 1, by decide, by decide⟩, ⟨false, 1085625, 3, by decide, by decide⟩,
          ⟨false, 10025, 2, by decide, by decide⟩) := by
    rw [calculate, hordered]
    decide +kernel
  obtain ⟨result, hresult, hfigures⟩ := map_eq_ok.1 hcomputed
  simp only [Prod.mk.injEq] at hfigures
  obtain ⟨hcurrentBase, hcurrentQuote, hcurrentPrice, hstartBase, hstartQuote, hstartPrice⟩ := hfigures
  obtain ⟨⟨current, hcurrent, hcurrentShare⟩, ⟨start, hstart, hstartShare⟩⟩ :=
    baseRatios_are_shares (by decide +kernel) hresult
  rw [hcurrentBase] at hcurrent
  rw [hstartBase] at hstart
  cases hcurrent
  cases hstart
  rw [hcurrentQuote, hcurrentPrice] at hcurrentShare
  rw [hstartQuote, hstartPrice] at hstartShare
  exact ⟨result, by decide +kernel, hresult, hcurrentShare (by decide) (by decide) (by decide),
    hstartShare (by decide) (by decide) (by decide)⟩

end TradeReport.Performance
