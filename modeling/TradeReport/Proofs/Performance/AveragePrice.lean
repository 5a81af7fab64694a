import TradeReport.Proofs.Decimal.Mean
import TradeReport.Proofs.Performance.Exact
/-!
# Average prices

The average price of a side is its notional by its amount, so it is a mean of the prices that is weighted by amounts.
While the two sums are exact it lies between the lowest and the highest price, whatever is rounded off the quotient
(`averagePrices_between`), and there is one as soon as there is a fill.
-/

namespace TradeReport

open Decimal

/-- Fills of positive amounts at prices that are not negative, with room for the sum of the amounts and for that of the
notionals. -/
structure Averageable (p a : ℕ) (fills : List Fill) : Prop where
  places : p + a ≤ maxScale
  price_nonneg : ∀ fill ∈ fills, 0 ≤ fill.price.toRat
  pricePlaces : ∀ fill ∈ fills, ∃ n : ℤ, fill.price.toRat * 10 ^ p = n
  amount_pos : ∀ fill ∈ fills, 0 < fill.amount.toRat
  amountPlaces : ∀ fill ∈ fills, ∃ n : ℤ, fill.amount.toRat * 10 ^ a = n
  amountSize : (10 : ℚ) ^ a * amountSum fills < 2 ^ 96
  notionalSize : (10 : ℚ) ^ (p + a) * notionalSum fills < 2 ^ 96

/-- The average price of some fills. Without a fill there is none. -/
structure IsAveragePrice (average : Figure) (fills : List Fill) : Prop where
  isSome_iff : average.isSome = true ↔ fills ≠ []
  between : ∀ price ∈ average, price.IsBetween (fills.map (·.price))

def Averages.on (averages : Averages) : Side → Figure
  | .buy => averages.buy
  | .sell => averages.sell

section Fills

variable {p a : ℕ} {fills fills' : List Fill} {numerator denominator : Decimal}

theorem IsAveragePrice.perm {average : Figure} (h : IsAveragePrice average fills) (hperm : fills.Perm fills') :
    IsAveragePrice average fills' := by
  refine ⟨h.isSome_iff.trans (not_congr ⟨?_, ?_⟩), fun price hprice => (h.between price hprice).perm (hperm.map _)⟩
  · rintro rfl
    exact hperm.nil_eq.symm
  · rintro rfl
    exact hperm.eq_nil

namespace Averageable

private theorem exactNotional_nonneg (h : Averageable p a fills) {fill : Fill} (hfill : fill ∈ fills) :
    0 ≤ fill.exactNotional :=
  mul_nonneg (h.price_nonneg fill hfill) (h.amount_pos fill hfill).le

theorem of_subperm (h : Averageable p a fills) (hsub : fills'.Subperm fills) : Averageable p a fills' := by
  have hmem : ∀ fill ∈ fills', fill ∈ fills := fun fill hfill => hsub.subset hfill
  obtain ⟨kept, hperm, hkept⟩ := hsub
  have hamount : amountSum fills' ≤ amountSum fills := by
    rw [amountSum_perm hperm.symm]
    exact (hkept.map _).sum_le_sum (List.forall_mem_map.2 fun fill hfill => (h.amount_pos fill hfill).le)
  have hnotional : notionalSum fills' ≤ notionalSum fills := by
    rw [notionalSum_perm hperm.symm]
    exact (hkept.map _).sum_le_sum (List.forall_mem_map.2 fun fill hfill => h.exactNotional_nonneg hfill)
  exact ⟨h.places, fun fill hfill => h.price_nonneg fill (hmem fill hfill),
    fun fill hfill => h.pricePlaces fill (hmem fill hfill), fun fill hfill => h.amount_pos fill (hmem fill hfill),
    fun fill hfill => h.amountPlaces fill (hmem fill hfill),
    (mul_le_mul_of_nonneg_left hamount (by positivity)).trans_lt h.amountSize,
    (mul_le_mul_of_nonneg_left hnotional (by positivity)).trans_lt h.notionalSize⟩

private theorem toRat_amounts (h : Averageable p a fills) (hsum : addAll amountOf .zero fills = .ok denominator) :
    denominator.toRat = amountSum fills := by
  have habs : (fills.map fun fill => |fill.amount.toRat|) = fills.map (·.amount.toRat) :=
    List.map_congr_left fun fill hfill => abs_of_pos (h.amount_pos fill hfill)
  obtain ⟨sum, hsum', hvalue⟩ := exists_addAll_eq ((Nat.le_add_left a p).trans h.places)
    (fun fill _ => (rfl : value? (amountOf fill) = some fill.amount.toRat)) h.amountPlaces
    (by rw [habs, cast_mantissaBound]; exact h.amountSize)
  obtain rfl : denominator = sum := Except.ok.inj (hsum.symm.trans hsum')
  exact hvalue

private theorem within_notional (h : Averageable p a fills) {fill : Fill} (hfill : fill ∈ fills) :
    Within (p + a) fill.exactNotional fill.exactNotional := by
  have hprice : Within p fill.price.toRat fill.price.toRat :=
    ⟨h.pricePlaces fill hfill, (abs_of_nonneg (h.price_nonneg fill hfill)).le⟩
  exact hprice.mul ⟨h.amountPlaces fill hfill, (abs_of_pos (h.amount_pos fill hfill)).le⟩

private theorem value?_notional (h : Averageable p a fills) {fill : Fill} (hfill : fill ∈ fills) :
    value? fill.notional = some fill.exactNotional := by
  have hle : fill.exactNotional ≤ notionalSum fills :=
    List.single_le_sum (List.forall_mem_map.2 fun other hother => h.exactNotional_nonneg hother) _
      (List.mem_map_of_mem hfill)
  have hsize : (10 : ℚ) ^ (p + a) * fill.exactNotional < mantissaBound := by
    rw [cast_mantissaBound]
    exact (mul_le_mul_of_nonneg_left hle (by positivity)).trans_lt h.notionalSize
  rw [Fill.notional, value?_mul]
  exact rounded?_of_representable ((h.within_notional hfill).representable h.places hsize)

private theorem toRat_notionals (h : Averageable p a fills) (hsum : addAll Fill.notional .zero fills = .ok numerator) :
    numerator.toRat = notionalSum fills := by
  have habs : (fills.map fun fill => |fill.exactNotional|) = fills.map (·.exactNotional) :=
    List.map_congr_left fun fill hfill => abs_of_nonneg (h.exactNotional_nonneg hfill)
  obtain ⟨sum, hsum', hvalue⟩ := exists_addAll_eq h.places (fun fill hfill => h.value?_notional hfill)
    (fun fill hfill => (h.within_notional hfill).whole) (by rw [habs, cast_mantissaBound]; exact h.notionalSize)
  obtain rfl : numerator = sum := Except.ok.inj (hsum.symm.trans hsum')
  exact hvalue

theorem isAveragePrice_ratio? (h : Averageable p a fills)
    (hnotionals : addAll Fill.notional .zero fills = .ok numerator)
    (hamounts : addAll amountOf .zero fills = .ok denominator) :
    IsAveragePrice (numerator.ratio? denominator) fills := by
  by_cases hfills : fills = []
  · subst hfills
    rw [← addAll_nil_eq_ok.1 hnotionals, ← addAll_nil_eq_ok.1 hamounts]
    exact ⟨by decide, by simp [ratio?, div?, isZero, zero]⟩
  · obtain ⟨average, haverage, hbetween⟩ := exists_weightedMean (·.price) (·.amount.toRat) hfills h.amount_pos
      (h.toRat_notionals hnotionals) (h.toRat_amounts hamounts)
    rw [haverage]
    exact ⟨by simpa using hfills, by simpa using hbetween⟩

end Averageable

end Fills

namespace Performance

variable {p a : ℕ} {derivatives : DerivativeMarkets} {listing : Listing} {fills : List Fill} {holdings : Snapshot}
  {windowStart : Int64} {pricing : Pricing} {result : Performance}

/-- The average price of each side, and of both together, lies between the lowest and the highest price that it is the
average of. A side has one exactly when it has a fill. -/
theorem averagePrices_between (hroom : Averageable p a fills)
    (h : calculate derivatives listing fills holdings windowStart pricing = .ok result) :
    (∀ side, IsAveragePrice (result.averagePrice.on side) (ofSide side fills)) ∧
      IsAveragePrice result.averagePrice.total fills := by
  obtain ⟨_, _, _, _, _, _, h⟩ := calculate_eq_ok_iff.1 h
  obtain ⟨_, hcomputed⟩ := ofOrdered_eq_ok_iff.1 h
  have hgrows := Turnover.ofFills_eq_ok_iff.1 hcomputed.turnover
  have hperm := chronological_perm fills
  refine ⟨fun side => ?_, ?_⟩
  -- One side of the fills is fewer fills, and the average is that of the sorted ones.
  · have hown : Averageable p a (ofSide side (chronological fills)) :=
      hroom.of_subperm (List.filter_sublist.subperm.trans hperm.subperm)
    have hside : result.averagePrice.on side
        = (result.turnover.quote.on side).ratio? (result.turnover.base.on side) := by
      rw [hcomputed.averagePrice]
      cases side <;> rfl
    rw [hside]
    refine (hown.isAveragePrice_ratio? ?_ ?_).perm (ofSide_perm hperm side)
    · exact Volume.on_none side ▸ hgrows.quote.on side
    · exact Volume.on_none side ▸ hgrows.base.on side
  · rw [hcomputed.averagePrice]
    exact ((hroom.of_subperm hperm.subperm).isAveragePrice_ratio? hgrows.quote.total hgrows.base.total).perm hperm

/-- A purchase of 0.5 at 100. With the small one its average price has no end. -/
def halfBuy : Fill :=
  ⟨"venue", "A-B", "run", .buy, .hundred, (ofText? "0.5").getD .zero, .free, 1500, none, none⟩

def repeatingFills : List Fill :=
  [smallBuy, halfBuy, smallSell]

private theorem averageable_repeatingFills : Averageable 2 1 repeatingFills := by
  have hbuyPrice : smallBuy.price = ⟨false, 10025, 2, by decide, by decide⟩ := by decide +kernel
  have hbuyAmount : smallBuy.amount = ⟨false, 25, 1, by decide, by decide⟩ := by decide +kernel
  have hhalfPrice : halfBuy.price = ⟨false, 100, 0, by decide, by decide⟩ := rfl
  have hhalfAmount : halfBuy.amount = ⟨false, 5, 1, by decide, by decide⟩ := by decide +kernel
  have hsellPrice : smallSell.price = ⟨false, 110, 0, by decide, by decide⟩ := by decide +kernel
  have hsellAmount : smallSell.amount = ⟨false, 15, 1, by decide, by decide⟩ := by decide +kernel
  have hvalues : ∀ fill ∈ repeatingFills, fill.price.scale ≤ 2 ∧ fill.amount.scale ≤ 1 ∧ 0 ≤ fill.price.toRat ∧
      0 < fill.amount.toRat := by
    simp only [repeatingFills, List.forall_mem_cons, List.not_mem_nil, false_imp_iff, implies_true, and_true,
      hbuyPrice, hbuyAmount, hhalfPrice, hhalfAmount, hsellPrice, hsellAmount]
    refine ⟨⟨?_, ?_, ?_, ?_⟩, ⟨?_, ?_, ?_, ?_⟩, ⟨?_, ?_, ?_, ?_⟩⟩ <;> decide +kernel
  refine ⟨by decide, fun fill hfill => (hvalues fill hfill).2.2.1,
    fun fill hfill => (Within.of_scale (hvalues fill hfill).1).whole, fun fill hfill => (hvalues fill hfill).2.2.2,
    fun fill hfill => (Within.of_scale (hvalues fill hfill).2.1).whole, ?_, ?_⟩
  · simp only [amountSum, repeatingFills, List.map_cons, List.map_nil, hbuyAmount, hhalfAmount, hsellAmount]
    decide +kernel
  · simp only [notionalSum, Fill.exactNotional, repeatingFills, List.map_cons, List.map_nil, hbuyPrice, hbuyAmount,
      hhalfPrice, hhalfAmount, hsellPrice, hsellAmount]
    decide +kernel

theorem averagePrices_between_repeatingFills :
    ∃ result, Averageable 2 1 repeatingFills ∧
      calculate .usual ⟨"venue", "A-B"⟩ repeatingFills Table.empty 0 ⟨none, Table.empty⟩ = .ok result ∧
      (∀ side, IsAveragePrice (result.averagePrice.on side) (ofSide side repeatingFills)) ∧
        IsAveragePrice result.averagePrice.total repeatingFills := by
  have hordered : chronological repeatingFills = repeatingFills := chronological_of_pairwise (by decide +kernel)
  have hcomputed : (calculate .usual ⟨"venue", "A-B"⟩ repeatingFills Table.empty 0 ⟨none, Table.empty⟩).map
      (fun _ => ()) = .ok () := by
    rw [calculate, hordered]
    decide +kernel
  obtain ⟨result, hresult, -⟩ := map_eq_ok.1 hcomputed
  exact ⟨result, averageable_repeatingFills, hresult, averagePrices_between averageable_repeatingFills hresult⟩

end Performance

end TradeReport
