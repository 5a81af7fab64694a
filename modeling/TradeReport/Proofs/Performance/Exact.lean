import Mathlib.Algebra.BigOperators.Ring.List
import Mathlib.Tactic.Linarith
import Mathlib.Tactic.Ring
import TradeReport.Proofs.Fees
import TradeReport.Proofs.Performance.Figures
/-!
# Performances without rounding

The sums, balances and values of a performance are exact while the amounts and prices that go into them leave room in
a decimal (`Room`). All bounds come from three sizes: what was handled in base tokens, the largest price, and the
quote balance. With free fills the profit is that of the fills alone, whatever is held (`exists_exact`).
-/

namespace TradeReport

open Decimal

/-! ## Sums over fills -/

def Fill.exactNotional (fill : Fill) : ℚ :=
  fill.price.toRat * fill.amount.toRat

def amountSum (fills : List Fill) : ℚ :=
  (fills.map (·.amount.toRat)).sum

def notionalSum (fills : List Fill) : ℚ :=
  (fills.map (·.exactNotional)).sum

/-- What the amounts of fills gain from their own prices to a common one. -/
def gain (price : Decimal) (fills : List Fill) : ℚ :=
  (fills.map fun fill => fill.amount.toRat * (price.toRat - fill.price.toRat)).sum

/-- All amounts, by size. -/
def traded (fills : List Fill) : ℚ :=
  (fills.map (|·.amount.toRat|)).sum

/-- All that was handled in base units: the balance and every amount, by size. -/
def handled (base : Decimal) (fills : List Fill) : ℚ :=
  |base.toRat| + traded fills

private theorem traded_nonneg (fills : List Fill) : 0 ≤ traded fills :=
  List.sum_nonneg (by simp)

section Perm

variable {fills fills' : List Fill}

theorem ofSide_perm (hperm : fills'.Perm fills) (side : Side) : (ofSide side fills').Perm (ofSide side fills) :=
  hperm.filter _

theorem amountSum_perm (hperm : fills'.Perm fills) : amountSum fills' = amountSum fills :=
  (hperm.map _).sum_eq

theorem notionalSum_perm (hperm : fills'.Perm fills) : notionalSum fills' = notionalSum fills :=
  (hperm.map _).sum_eq

private theorem gain_perm (hperm : fills'.Perm fills) (price : Decimal) : gain price fills' = gain price fills :=
  (hperm.map _).sum_eq

private theorem handled_perm (hperm : fills'.Perm fills) (base : Decimal) :
    handled base fills' = handled base fills := by
  rw [handled, handled, traded, traded, (hperm.map _).sum_eq]

end Perm

private theorem gain_eq (price : Decimal) (fills : List Fill) :
    gain price fills = amountSum fills * price.toRat - notionalSum fills := by
  unfold gain amountSum notionalSum Fill.exactNotional
  induction fills with
  | nil => simp
  | cons fill rest ih =>
    simp only [List.map_cons, List.sum_cons, ih]
    ring

theorem sum_ofSide (value : Fill → ℚ) (fills : List Fill) :
    ((ofSide .buy fills).map value).sum + ((ofSide .sell fills).map value).sum = (fills.map value).sum := by
  induction fills with
  | nil => simp [ofSide]
  | cons fill rest ih =>
    cases hside : fill.side with
    | buy =>
      rw [ofSide_cons_self hside, ofSide_cons_of_ne (by simp [hside]), List.map_cons, List.map_cons,
        List.sum_cons, List.sum_cons, ← ih]
      ring
    | sell =>
      rw [ofSide_cons_of_ne (by simp [hside]), ofSide_cons_self hside, List.map_cons, List.map_cons,
        List.sum_cons, List.sum_cons, ← ih]
      ring

private theorem sum_abs_ofSide_le (value : Fill → ℚ) (side : Side) (fills : List Fill) :
    ((ofSide side fills).map fun fill => |value fill|).sum ≤ (fills.map fun fill => |value fill|).sum :=
  ((List.filter_sublist).map _).sum_le_sum (by simp)

section Grows

variable {figure : Fill → Except Overflow Decimal} {value : Fill → ℚ} {places : ℕ} {fills : List Fill}

theorem exists_addAll_eq (hplaces : places ≤ maxScale)
    (hvalue : ∀ fill ∈ fills, value? (figure fill) = some (value fill))
    (hwhole : ∀ fill ∈ fills, ∃ n : ℤ, value fill * 10 ^ places = n)
    (hsize : 10 ^ places * (fills.map fun fill => |value fill|).sum < mantissaBound) :
    ∃ sum, addAll figure .zero fills = .ok sum ∧ sum.toRat = (fills.map value).sum := by
  apply exists_of_value?
  rw [value?_addAll hvalue, toRat_zero, roundedSum_eq hplaces ⟨0, by simp⟩, zero_add]
  · simpa using hwhole
  · rw [abs_zero, zero_add, List.map_map]
    exact hsize

/-- The volume of fills whose figures leave room, by side and in total. -/
theorem Volume.exists_grows (hplaces : places ≤ maxScale)
    (hvalue : ∀ fill ∈ fills, value? (figure fill) = some (value fill))
    (hwhole : ∀ fill ∈ fills, ∃ n : ℤ, value fill * 10 ^ places = n)
    (hsize : 10 ^ places * (fills.map fun fill => |value fill|).sum < mantissaBound) :
    ∃ volume, Volume.Grows figure fills .none volume ∧
      (∀ side, (volume.on side).toRat = ((ofSide side fills).map value).sum) ∧
      volume.total.toRat = (fills.map value).sum := by
  have hsided : ∀ side, ∃ sum, addAll figure .zero (ofSide side fills) = .ok sum ∧
      sum.toRat = ((ofSide side fills).map value).sum := by
    intro side
    have hmem : ∀ fill ∈ ofSide side fills, fill ∈ fills := fun fill hfill => List.mem_of_mem_filter hfill
    refine exists_addAll_eq hplaces (fun fill hfill => hvalue fill (hmem fill hfill))
      (fun fill hfill => hwhole fill (hmem fill hfill)) (lt_of_le_of_lt ?_ hsize)
    exact mul_le_mul_of_nonneg_left (sum_abs_ofSide_le value side fills) (by positivity)
  obtain ⟨buy, hbuy, hbuyValue⟩ := hsided .buy
  obtain ⟨sell, hsell, hsellValue⟩ := hsided .sell
  obtain ⟨total, htotal, htotalValue⟩ := exists_addAll_eq hplaces hvalue hwhole hsize
  refine ⟨⟨buy, sell, total⟩, ⟨fun side => ?_, htotal⟩, fun side => ?_, htotalValue⟩
  · cases side with
    | buy => exact hbuy
    | sell => exact hsell
  · cases side with
    | buy => exact hbuyValue
    | sell => exact hsellValue

end Grows

/-! ## Room for every figure -/

/-- Prices of at most `p` places, amounts and base balance of at most `a`, a quote balance of at most `p + a`, no
price larger than `largest`, and sizes small enough for the sums and the products. -/
structure Room (p a : ℕ) (largest : ℚ) (base quote : Decimal) (price : Figure) (fills : List Fill) : Prop where
  places : p + a ≤ maxScale
  givenPlaces : ∀ given ∈ price, Within p largest given.toRat
  pricePlaces : ∀ fill ∈ fills, Within p largest fill.price.toRat
  amountPlaces : ∀ fill ∈ fills, ∃ n : ℤ, fill.amount.toRat * 10 ^ a = n
  basePlaces : ∃ n : ℤ, base.toRat * 10 ^ a = n
  quotePlaces : ∃ n : ℤ, quote.toRat * 10 ^ (p + a) = n
  amountSize : (10 : ℚ) ^ a * handled base fills < 2 ^ 96
  valueSize : (10 : ℚ) ^ (p + a) * (4 * handled base fills * largest + 2 * |quote.toRat|) < 2 ^ 96

theorem cast_mantissaBound : (mantissaBound : ℚ) = 2 ^ 96 := by
  rw [mantissaBound_eq]
  norm_num

namespace Room

variable {p a : ℕ} {largest : ℚ} {base quote : Decimal} {price : Figure} {fills fills' : List Fill}

theorem perm (h : Room p a largest base quote price fills) (hperm : fills'.Perm fills) :
    Room p a largest base quote price fills' := by
  have hhandled := handled_perm hperm base
  exact ⟨h.places, h.givenPlaces, fun fill hfill => h.pricePlaces fill (hperm.mem_iff.1 hfill),
    fun fill hfill => h.amountPlaces fill (hperm.mem_iff.1 hfill), h.basePlaces, h.quotePlaces,
    hhandled ▸ h.amountSize, hhandled ▸ h.valueSize⟩

private theorem places_amount (h : Room p a largest base quote price fills) : a ≤ maxScale :=
  (Nat.le_add_left a p).trans h.places

private theorem amountFits (h : Room p a largest base quote price fills) {size : ℚ}
    (hsize : size ≤ handled base fills) :
    10 ^ a * size < mantissaBound := by
  rw [cast_mantissaBound]
  exact (mul_le_mul_of_nonneg_left hsize (by positivity)).trans_lt h.amountSize

/-- The room for values, in the products it is reckoned in. -/
theorem valueFits (h : Room p a largest base quote price fills) {size : ℚ}
    (hsize : size ≤ 4 * (|base.toRat| * largest) + 4 * (traded fills * largest) + 2 * |quote.toRat|) :
    10 ^ (p + a) * size < mantissaBound := by
  have hroom : 4 * handled base fills * largest + 2 * |quote.toRat|
      = 4 * (|base.toRat| * largest) + 4 * (traded fills * largest) + 2 * |quote.toRat| := by
    rw [handled]
    ring
  rw [← hroom] at hsize
  rw [cast_mantissaBound]
  exact (mul_le_mul_of_nonneg_left hsize (by positivity)).trans_lt h.valueSize

theorem notional (h : Room p a largest base quote price fills) {fill : Fill} (hfill : fill ∈ fills) :
    Within (p + a) (largest * |fill.amount.toRat|) fill.exactNotional :=
  (h.pricePlaces fill hfill).mul ⟨h.amountPlaces fill hfill, le_rfl⟩

/-- All notionals together are no larger than all amounts at the largest price. -/
theorem sum_abs_notional_le (h : Room p a largest base quote price fills) :
    (fills.map fun fill => |fill.exactNotional|).sum ≤ traded fills * largest := by
  rw [traded, ← List.sum_map_mul_right]
  refine List.sum_le_sum fun fill hfill => ?_
  rw [mul_comm]
  exact (h.notional hfill).abs_le

end Room

/-! ## Exact figures -/

/-- The sums of a turnover are those of its fills. -/
structure Turnover.Exact (fills : List Fill) (turnover : Turnover) : Prop where
  base : ∀ side, (turnover.base.on side).toRat = amountSum (ofSide side fills)
  quote : ∀ side, (turnover.quote.on side).toRat = notionalSum (ofSide side fills)
  baseTotal : turnover.base.total.toRat = turnover.base.buy.toRat + turnover.base.sell.toRat
  quoteTotal : turnover.quote.total.toRat = turnover.quote.buy.toRat + turnover.quote.sell.toRat

theorem Turnover.Exact.perm {turnover : Turnover} {fills fills' : List Fill} (h : turnover.Exact fills')
    (hperm : fills'.Perm fills) : turnover.Exact fills :=
  ⟨fun side => (h.base side).trans (amountSum_perm (ofSide_perm hperm side)),
    fun side => (h.quote side).trans (notionalSum_perm (ofSide_perm hperm side)), h.baseTotal, h.quoteTotal⟩

namespace Room

variable {p a : ℕ} {largest : ℚ} {base quote : Decimal} {price : Figure} {fills : List Fill}

private theorem largest_nonneg (h : Room p a largest base quote price fills) (hfills : fills ≠ []) : 0 ≤ largest := by
  obtain ⟨fill, hfill⟩ := List.exists_mem_of_ne_nil fills hfills
  exact (abs_nonneg _).trans (h.pricePlaces fill hfill).abs_le

/-- The three products that every bound on a value is a sum of. -/
theorem products (h : Room p a largest base quote price fills) (hfills : fills ≠ []) :
    0 ≤ |base.toRat| * largest ∧ 0 ≤ traded fills * largest ∧ 0 ≤ |quote.toRat| ∧
      handled base fills * largest = |base.toRat| * largest + traded fills * largest := by
  have hlargest := h.largest_nonneg hfills
  exact ⟨mul_nonneg (abs_nonneg _) hlargest, mul_nonneg (traded_nonneg fills) hlargest, abs_nonneg _, add_mul _ _ _⟩

/-- The price of a fill may stand in for a price that is not given. -/
theorem within_price (h : Room p a largest base quote price fills) {last : Fill} (hlast : last ∈ fills) :
    Within p largest (price.getD last.price).toRat := by
  cases price with
  | none => exact h.pricePlaces last hlast
  | some given => exact h.givenPlaces given rfl

private theorem exists_turnover (h : Room p a largest base quote price fills) (hfills : fills ≠ []) :
    ∃ turnover, Turnover.ofFills fills = .ok turnover ∧ turnover.Exact fills := by
  have hvalues : traded fills * largest
      ≤ 4 * (|base.toRat| * largest) + 4 * (traded fills * largest) + 2 * |quote.toRat| := by
    obtain ⟨hbase, htraded, hquote, -⟩ := h.products hfills
    linarith
  have hnotional : ∀ fill ∈ fills, value? fill.notional = some fill.exactNotional := by
    intro fill hfill
    have hterm : |fill.amount.toRat| ≤ traded fills :=
      List.single_le_sum (by simp) _ (List.mem_map.2 ⟨fill, hfill, rfl⟩)
    have hsize : largest * |fill.amount.toRat| ≤ traded fills * largest := by
      rw [mul_comm]
      exact mul_le_mul_of_nonneg_right hterm (h.largest_nonneg hfills)
    rw [Fill.notional, value?_mul, rounded?_of_representable]
    · rfl
    · exact (h.notional hfill).representable h.places (h.valueFits (hsize.trans hvalues))
  have hamount : ∀ fill ∈ fills, value? (amountOf fill) = some fill.amount.toRat := fun _ _ => rfl
  obtain ⟨baseVolume, hbase, hbaseOn, hbaseTotal⟩ :=
    Volume.exists_grows h.places_amount hamount h.amountPlaces
      (h.amountFits (le_add_of_nonneg_left (abs_nonneg base.toRat)))
  obtain ⟨quoteVolume, hquote, hquoteOn, hquoteTotal⟩ :=
    Volume.exists_grows h.places hnotional (fun fill hfill => (h.notional hfill).whole)
      (h.valueFits (h.sum_abs_notional_le.trans hvalues))
  refine ⟨⟨⟨(ofSide .buy fills).length, (ofSide .sell fills).length, fills.length⟩, baseVolume, quoteVolume⟩,
    Turnover.ofFills_eq_ok_iff.2 ⟨⟨fun side => ?_, (Nat.zero_add _).symm⟩, hbase, hquote⟩, hbaseOn, hquoteOn, ?_, ?_⟩
  · cases side with
    | buy => exact (Nat.zero_add _).symm
    | sell => exact (Nat.zero_add _).symm
  · rw [hbaseTotal, ← sum_ofSide]
    exact congrArg₂ (· + ·) (hbaseOn .buy).symm (hbaseOn .sell).symm
  · rw [hquoteTotal, ← sum_ofSide]
    exact congrArg₂ (· + ·) (hquoteOn .buy).symm (hquoteOn .sell).symm

end Room

/-- One side less the other is no larger than both together. -/
theorem within_buy_sub_sell {value : Fill → ℚ} {places : ℕ} {fills : List Fill}
    (hwhole : ∀ fill ∈ fills, ∃ n : ℤ, value fill * 10 ^ places = n) :
    Within places (fills.map fun fill => |value fill|).sum
      (((ofSide .buy fills).map value).sum - ((ofSide .sell fills).map value).sum) := by
  have hside : ∀ side, Within places ((ofSide side fills).map fun fill => |value fill|).sum
      ((ofSide side fills).map value).sum := by
    intro side
    have hvalues : ∀ x ∈ (ofSide side fills).map value, ∃ n : ℤ, x * 10 ^ places = n := by
      intro x hx
      obtain ⟨fill, hfill, rfl⟩ := List.mem_map.1 hx
      exact hwhole fill (List.mem_of_mem_filter hfill)
    have hwithin := Within.sum hvalues
    rw [List.map_map] at hwithin
    exact hwithin
  rw [← sum_ofSide]
  exact (hside .buy).sub (hside .sell)

namespace Performance

theorem exists_startBalance {places : ℕ} {s t : ℚ} {held gained spent : Decimal} (hheld : Within places s held.toRat)
    (hnet : Within places t (gained.toRat - spent.toRat)) (hplaces : places ≤ maxScale)
    (hsize : 10 ^ places * (s + t) < mantissaBound) :
    ∃ net, gained.sub spent = .ok net ∧ net.toRat = gained.toRat - spent.toRat ∧
      ∃ start, startBalance held net = .ok start ∧ start.toRat = held.toRat - net.toRat ∧
        Within places (s + t) start.toRat := by
  have hnonneg : 0 ≤ s := (abs_nonneg held.toRat).trans hheld.abs_le
  obtain ⟨net, hsub, hvalue⟩ := exists_sub (hnet.mono (le_add_of_nonneg_left hnonneg)) hplaces hsize
  rw [← hvalue] at hnet
  obtain ⟨start, hstart, hstartValue⟩ := exists_sub (hheld.sub hnet) hplaces hsize
  refine ⟨net, hsub, hvalue, start, hstart, hstartValue, ?_⟩
  rw [hstartValue]
  exact hheld.sub hnet

section Value

variable {places more : ℕ} {s t largest : ℚ} {base quote price : Decimal}

private theorem exists_value (hbase : Within places s base.toRat) (hprice : Within more largest price.toRat)
    (hquote : Within (more + places) t quote.toRat) (hplaces : more + places ≤ maxScale)
    (hproduct : 10 ^ (more + places) * (s * largest) < mantissaBound)
    (hsum : 10 ^ (more + places) * (s * largest + t) < mantissaBound) :
    ∃ total, value base quote price = .ok total ∧ total.toRat = base.toRat * price.toRat + quote.toRat ∧
      Within (more + places) (s * largest + t) total.toRat := by
  have hwithin : Within (more + places) (s * largest) (base.toRat * price.toRat) :=
    Nat.add_comm places more ▸ hbase.mul hprice
  obtain ⟨product, hmul, hvalue⟩ := exists_mul hwithin hplaces hproduct
  rw [← hvalue] at hwithin ⊢
  obtain ⟨total, hadd, htotal⟩ := exists_add (hwithin.add hquote) hplaces hsum
  refine ⟨total, bind_eq_ok.2 ⟨product, hmul, hadd⟩, htotal, ?_⟩
  rw [htotal]
  exact hwithin.add hquote

/-- Where a value is computed, so is the share of it that is held in the base token. -/
theorem exists_baseRatio {total : Decimal} (h : value base quote price = .ok total) :
    ∃ ratio, baseRatio base quote price = .ok ratio := by
  obtain ⟨product, hmul, hadd⟩ := bind_eq_ok.1 h
  exact ⟨product.ratio? total, bind_eq_ok.2 ⟨product, hmul, bind_eq_ok.2 ⟨total, hadd, rfl⟩⟩⟩

end Value

section Start

variable {p a : ℕ} {largest : ℚ} {base quote rate : Decimal} {price : Figure} {fills : List Fill} {turnover : Turnover}
  {netBase netQuote startBase startQuote : Decimal}

/-- The net changes of a turnover and the balances they led from, which are in the bounds of what was handled. -/
structure Start (p a : ℕ) (largest : ℚ) (base quote : Decimal) (fills : List Fill) (turnover : Turnover)
    (netBase netQuote startBase startQuote : Decimal) : Prop where
  netBaseOk : turnover.base.buy.sub turnover.base.sell = .ok netBase
  netQuoteOk : turnover.quote.sell.sub turnover.quote.buy = .ok netQuote
  startBaseOk : startBalance base netBase = .ok startBase
  startQuoteOk : startBalance quote netQuote = .ok startQuote
  netBaseValue : netBase.toRat = amountSum (ofSide .buy fills) - amountSum (ofSide .sell fills)
  netQuoteValue : netQuote.toRat = notionalSum (ofSide .sell fills) - notionalSum (ofSide .buy fills)
  startBaseValue : startBase.toRat = base.toRat - netBase.toRat
  startQuoteValue : startQuote.toRat = quote.toRat - netQuote.toRat
  withinBase : Within a (handled base fills) startBase.toRat
  withinQuote : Within (p + a) (|quote.toRat| + traded fills * largest) startQuote.toRat

theorem exists_start (hroom : Room p a largest base quote price fills) (hfills : fills ≠ [])
    (hexact : turnover.Exact fills) :
    ∃ netBase netQuote startBase startQuote,
      Start p a largest base quote fills turnover netBase netQuote startBase startQuote := by
  have hchanged : Within a (traded fills) (turnover.base.buy.toRat - turnover.base.sell.toRat) := by
    have hnet := within_buy_sub_sell hroom.amountPlaces
    rwa [← amountSum, ← amountSum, ← hexact.base, ← hexact.base] at hnet
  have hpaid : Within (p + a) (traded fills * largest) (turnover.quote.sell.toRat - turnover.quote.buy.toRat) := by
    have hnet := within_buy_sub_sell fun fill hfill => (hroom.notional hfill).whole
    rw [← notionalSum, ← notionalSum, ← hexact.quote, ← hexact.quote] at hnet
    rw [← neg_sub]
    exact (hnet.mono hroom.sum_abs_notional_le).neg
  obtain ⟨netBase, hnetBase, hnetBaseValue, startBase, hstartBase, hstartBaseValue, hbase⟩ :=
    exists_startBalance ⟨hroom.basePlaces, le_rfl⟩ hchanged hroom.places_amount (hroom.amountFits le_rfl)
  obtain ⟨netQuote, hnetQuote, hnetQuoteValue, startQuote, hstartQuote, hstartQuoteValue, hquote⟩ :=
    exists_startBalance ⟨hroom.quotePlaces, le_rfl⟩ hpaid hroom.places (by
      obtain ⟨hbase, htraded, hquote, -⟩ := hroom.products hfills
      exact hroom.valueFits (by linarith))
  refine ⟨netBase, netQuote, startBase, startQuote, hnetBase, hnetQuote, hstartBase, hstartQuote, ?_, ?_,
    hstartBaseValue, hstartQuoteValue, hbase, hquote⟩
  · rw [hnetBaseValue, ← hexact.base, ← hexact.base]
    rfl
  · rw [hnetQuoteValue, ← hexact.quote, ← hexact.quote]
    rfl

theorem exists_startValue (hroom : Room p a largest base quote price fills) (hfills : fills ≠ [])
    (hstart : Start p a largest base quote fills turnover netBase netQuote startBase startQuote)
    (hrate : Within p largest rate.toRat) :
    ∃ total, value startBase startQuote rate = .ok total ∧
      total.toRat = startBase.toRat * rate.toRat + startQuote.toRat ∧
      Within (p + a) (handled base fills * largest + (|quote.toRat| + traded fills * largest)) total.toRat := by
  obtain ⟨hbase, htraded, hquote, hhandled⟩ := hroom.products hfills
  exact exists_value hstart.withinBase hrate hstart.withinQuote hroom.places (hroom.valueFits (by linarith))
    (hroom.valueFits (by linarith))

private theorem exists_currentValue (hroom : Room p a largest base quote price fills) (hfills : fills ≠ [])
    (hrate : Within p largest rate.toRat) :
    ∃ total, value base quote rate = .ok total ∧ total.toRat = base.toRat * rate.toRat + quote.toRat ∧
      Within (p + a) (|base.toRat| * largest + |quote.toRat|) total.toRat := by
  obtain ⟨hbase, htraded, hquote, -⟩ := hroom.products hfills
  exact exists_value ⟨hroom.basePlaces, le_rfl⟩ hrate ⟨hroom.quotePlaces, le_rfl⟩ hroom.places
    (hroom.valueFits (by linarith)) (hroom.valueFits (by linarith))

end Start

theorem exists_totalPnl_of_free (pair : Pair) {fills : List Fill} (hfree : ∀ fill ∈ fills, fill.fee.IsFree)
    (price : Decimal) (rates : Table Token Decimal) (tradePnl : Decimal) :
    ∃ fees quoteFees totalPnl, FeeLedger.ofFills pair fills = .ok fees ∧
      fees.inQuote pair price rates = .ok quoteFees ∧ tradePnl.sub quoteFees.total = .ok totalPnl ∧
      totalPnl.toRat = tradePnl.toRat := by
  obtain ⟨fees, hfees, hzero⟩ : ∃ fees, FeeLedger.ofFills pair fills = .ok fees ∧ fees.AllZero :=
    FeeLedger.exists_ofFills_of_free hfree
  obtain ⟨quoteFees, hquoteFees, hworth⟩ : ∃ quoteFees, fees.inQuote pair price rates = .ok quoteFees ∧
      quoteFees.total.toRat = 0 :=
    FeeLedger.exists_inQuote_of_zero hzero
  obtain ⟨totalPnl, htotal, hvalue⟩ := exists_sub_zero tradePnl hworth
  exact ⟨fees, quoteFees, totalPnl, hfees, hquoteFees, htotal, hvalue⟩

/-- The figures of fills that are charged nothing, without rounding. The start balance of the base token is computed
on every market and shown only where base tokens are held. -/
structure Exact (fills : List Fill) (pair : Pair) (holdings : Snapshot) (price startBase : Decimal)
    (p : Performance) : Prop where
  turnover : p.turnover.Exact fills
  currentPrice : p.currentPrice = price
  shownStart : p.startBase = if p.isDerivative then none else some startBase
  shownCurrent : p.currentBase = if p.isDerivative then none else some (holdings.held pair.base)
  currentQuote : p.currentQuote = holdings.held pair.quote
  base : startBase.toRat + p.netBase.toRat = (holdings.held pair.base).toRat
  quote : p.startQuote.toRat + p.netQuote.toRat = p.currentQuote.toRat
  netBase : p.netBase.toRat = amountSum (ofSide .buy fills) - amountSum (ofSide .sell fills)
  netQuote : p.netQuote.toRat = notionalSum (ofSide .sell fills) - notionalSum (ofSide .buy fills)
  holdValue : p.holdValue.toRat = startBase.toRat * price.toRat + p.startQuote.toRat
  currentValue : p.currentValue.toRat = (holdings.held pair.base).toRat * price.toRat + p.currentQuote.toRat
  tradePnl : p.tradePnl.toRat = gain price (ofSide .buy fills) - gain price (ofSide .sell fills)
  totalPnl : p.totalPnl.toRat = p.tradePnl.toRat

variable {derivatives : DerivativeMarkets} {market : String} {listing : Listing} {pair : Pair}
  {first last : Fill} {fills ordered : List Fill} {holdings : Snapshot} {windowStart : Int64} {pricing : Pricing}
  {p a : ℕ} {largest : ℚ}

theorem exists_ofOrdered_exact (hfirst : first ∈ ordered) (hlast : last ∈ ordered)
    (hfree : ∀ fill ∈ ordered, fill.fee.IsFree)
    (hroom : Room p a largest (holdings.held pair.base) (holdings.held pair.quote) pricing.price ordered) :
    ∃ startBase result,
      ofOrdered derivatives market pair first last ordered holdings windowStart pricing = .ok result ∧
        Exact ordered pair holdings (pricing.price.getD last.price) startBase result := by
  have hfills := List.ne_nil_of_mem hfirst
  have hprice := hroom.within_price hlast
  obtain ⟨turnover, hturnover, hexact⟩ := hroom.exists_turnover hfills
  obtain ⟨netBase, netQuote, startBase, startQuote, hstart⟩ := exists_start hroom hfills hexact
  obtain ⟨holdValue, hholdOk, hholdValue, hhold⟩ := exists_startValue hroom hfills hstart hprice
  obtain ⟨currentValue, hcurrentOk, hcurrentValue, hcurrent⟩ := exists_currentValue hroom hfills hprice
  obtain ⟨tradePnl, hpnlOk, hpnlValue⟩ := exists_sub (hcurrent.sub hhold) hroom.places (by
    obtain ⟨hbase, htraded, hquote, hhandled⟩ := hroom.products hfills
    exact hroom.valueFits (by linarith))
  obtain ⟨fees, quoteFees, totalPnl, hfeesOk, hquoteFeesOk, htotalOk, htotalValue⟩ :=
    exists_totalPnl_of_free pair hfree (pricing.price.getD last.price) pricing.rates tradePnl
  obtain ⟨firstValue, hfirstOk, -, -⟩ := exists_startValue hroom hfills hstart (hroom.pricePlaces first hfirst)
  obtain ⟨startRatio, hstartRatioOk⟩ := exists_baseRatio hfirstOk
  obtain ⟨currentRatio, hcurrentRatioOk⟩ := exists_baseRatio hcurrentOk
  refine ⟨startBase, _, bind_eq_ok.2 ⟨turnover, hturnover, bind_eq_ok.2 ⟨netBase, hstart.netBaseOk,
    bind_eq_ok.2 ⟨netQuote, hstart.netQuoteOk, bind_eq_ok.2 ⟨startBase, hstart.startBaseOk,
    bind_eq_ok.2 ⟨startQuote, hstart.startQuoteOk, bind_eq_ok.2 ⟨holdValue, hholdOk,
    bind_eq_ok.2 ⟨currentValue, hcurrentOk, bind_eq_ok.2 ⟨tradePnl, hpnlOk, bind_eq_ok.2 ⟨fees, hfeesOk,
    bind_eq_ok.2 ⟨quoteFees, hquoteFeesOk, bind_eq_ok.2 ⟨totalPnl, htotalOk,
    bind_eq_ok.2 ⟨startRatio, hstartRatioOk, bind_eq_ok.2 ⟨currentRatio, hcurrentRatioOk,
    pure_eq_ok.2 rfl⟩⟩⟩⟩⟩⟩⟩⟩⟩⟩⟩⟩⟩, ?_⟩
  refine ⟨hexact, rfl, rfl, rfl, rfl, ?_, ?_, hstart.netBaseValue, hstart.netQuoteValue, hholdValue, hcurrentValue,
    ?_, htotalValue⟩
  · rw [hstart.startBaseValue, sub_add_cancel]
  · rw [hstart.startQuoteValue, sub_add_cancel]
  · dsimp only
    rw [hpnlValue, hcurrentValue, hholdValue, hstart.startBaseValue, hstart.startQuoteValue, hstart.netBaseValue,
      hstart.netQuoteValue, gain_eq, gain_eq]
    ring

theorem Exact.perm {price startBase : Decimal} {result : Performance}
    (h : Exact ordered pair holdings price startBase result) (hperm : ordered.Perm fills) :
    Exact fills pair holdings price startBase result := by
  have hamount := fun side => amountSum_perm (ofSide_perm hperm side)
  have hnotional := fun side => notionalSum_perm (ofSide_perm hperm side)
  have hgain := fun side => gain_perm (ofSide_perm hperm side) price
  refine { h with turnover := h.turnover.perm hperm, netBase := ?_, netQuote := ?_, tradePnl := ?_ }
  · rw [h.netBase, hamount, hamount]
  · rw [h.netQuote, hnotional, hnotional]
  · rw [h.tradePnl, hgain, hgain]

/-- Free fills that leave room have exact figures, and their profit is that of the fills at the current price, which
is the last price where none is given. -/
theorem exists_exact (hpair : Pair.ofSymbol? listing.symbol = some pair) (hfills : fills ≠ [])
    (hfree : ∀ fill ∈ fills, fill.fee.IsFree)
    (hroom : Room p a largest (holdings.held pair.base) (holdings.held pair.quote) pricing.price fills) :
    ∃ last startBase result, (chronological fills).getLast? = some last ∧
      calculate derivatives listing fills holdings windowStart pricing = .ok result ∧
      Exact fills pair holdings (pricing.price.getD last.price) startBase result := by
  have hperm := chronological_perm fills
  obtain ⟨first, hfirst⟩ := exists_head_chronological hfills
  obtain ⟨last, hlast⟩ := exists_getLast_chronological hfills
  obtain ⟨startBase, result, hrun, hexact⟩ :=
    exists_ofOrdered_exact (List.mem_of_mem_head? hfirst) (List.mem_of_getLast? hlast)
      (fun fill hfill => hfree fill (hperm.mem_iff.1 hfill)) (hroom.perm hperm)
  refine ⟨last, startBase, result, hlast, ?_, hexact.perm hperm⟩
  rw [calculate_of_ordered hfirst hlast hpair, mapError_eq_ok]
  exact hrun

def smallBuy : Fill :=
  ⟨"venue", "A-B", "run", .buy, (ofText? "100.25").getD .zero, (ofText? "2.5").getD .zero, .free, 1000, none, none⟩

/-- A sale of 1.5 at 110, with a share of zero. -/
def smallSell : Fill :=
  ⟨"venue", "A-B", "run", .sell, (ofText? "110").getD .zero, (ofText? "1.5").getD .zero, ⟨some .zero, none, []⟩, 2000,
    none, none⟩

def smallHoldings : Snapshot :=
  Table.ofList [("A", (ofText? "3.5").getD .zero), ("B", (ofText? "1000").getD .zero)]

private theorem room_small : Room 2 1 120 (smallHoldings.held "A") (smallHoldings.held "B") (some Decimal.hundred)
    [smallSell, smallBuy] := by
  have hbase : smallHoldings.held "A" = ⟨false, 35, 1, by decide, by decide⟩ := by decide +kernel
  have hquote : smallHoldings.held "B" = ⟨false, 1000, 0, by decide, by decide⟩ := by decide +kernel
  have hbuyPrice : smallBuy.price = ⟨false, 10025, 2, by decide, by decide⟩ := by decide +kernel
  have hbuyAmount : smallBuy.amount = ⟨false, 25, 1, by decide, by decide⟩ := by decide +kernel
  have hsellPrice : smallSell.price = ⟨false, 110, 0, by decide, by decide⟩ := by decide +kernel
  have hsellAmount : smallSell.amount = ⟨false, 15, 1, by decide, by decide⟩ := by decide +kernel
  rw [hbase, hquote]
  refine ⟨by decide, ?_, ?_, ?_, (Within.of_scale (by decide)).whole, (Within.of_scale (by decide)).whole, ?_, ?_⟩
  · rintro given ⟨⟩
    exact (Within.of_scale (by decide)).mono (by norm_num [abs_toRat, Decimal.hundred])
  · simp only [List.forall_mem_cons, List.not_mem_nil, false_imp_iff, implies_true, and_true, hbuyPrice, hsellPrice]
    exact ⟨(Within.of_scale (by decide)).mono (by norm_num [abs_toRat]),
      (Within.of_scale (by decide)).mono (by norm_num [abs_toRat])⟩
  · simp only [List.forall_mem_cons, List.not_mem_nil, false_imp_iff, implies_true, and_true, hbuyAmount, hsellAmount]
    exact ⟨(Within.of_scale (by decide)).whole, (Within.of_scale (by decide)).whole⟩
  · norm_num [handled, traded, abs_toRat, hbuyAmount, hsellAmount]
  · norm_num [handled, traded, abs_toRat, hbuyAmount, hsellAmount]

theorem exists_exact_small :
    ∃ last startBase result, (chronological [smallSell, smallBuy]).getLast? = some last ∧
      calculate .usual ⟨"venue", "A-B"⟩ [smallSell, smallBuy] smallHoldings 0 ⟨some .hundred, Table.empty⟩
        = .ok result ∧
      Exact [smallSell, smallBuy] ⟨"A", "B"⟩ smallHoldings .hundred startBase result :=
  exists_exact (p := 2) (a := 1) (by decide +kernel) (by simp)
    (by
      simp only [List.forall_mem_cons, List.not_mem_nil, false_imp_iff, implies_true, and_true]
      exact ⟨⟨by simp [smallSell], by simp [smallSell]⟩, ⟨by simp [smallBuy, Fee.free],
        by simp [smallBuy, Fee.free]⟩⟩)
    room_small

end Performance

end TradeReport
