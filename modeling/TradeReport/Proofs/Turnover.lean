import TradeReport.Performance
import TradeReport.Proofs.Decimal.Operation
/-!
# What fills sum up to

A turnover is kept in one pass over the fills. It consists of nine figures that know nothing of each other: a count, a
sum of amounts and a sum of notionals, each for the two sides and for both together (`foldlM_add_eq_ok_iff`). Each of
the sums is `addAll` of a list of fills, and everything else about a turnover follows from facts about a single such
sum. Of the counts, the one for both sides is the sum of the others (`counts_total_eq`).
-/

namespace TradeReport

open Decimal

def ofSide (side : Side) (fills : List Fill) : List Fill :=
  fills.filter (·.side = side)

theorem ofSide_cons_self {side : Side} {fill : Fill} (h : fill.side = side) (fills : List Fill) :
    ofSide side (fill :: fills) = fill :: ofSide side fills :=
  List.filter_cons_of_pos (by simpa using h)

theorem ofSide_cons_of_ne {side : Side} {fill : Fill} (h : fill.side ≠ side) (fills : List Fill) :
    ofSide side (fill :: fills) = ofSide side fills :=
  List.filter_cons_of_neg (by simpa using h)

theorem length_ofSide_cons (side : Side) (fill : Fill) (fills : List Fill) :
    (ofSide side (fill :: fills)).length = (if fill.side = side then 1 else 0) + (ofSide side fills).length := by
  by_cases hside : fill.side = side
  · rw [ofSide_cons_self hside, List.length_cons, if_pos hside, Nat.add_comm]
  · rw [ofSide_cons_of_ne hside, if_neg hside, Nat.zero_add]

theorem length_ofSide (fills : List Fill) :
    (ofSide .buy fills).length + (ofSide .sell fills).length = fills.length := by
  induction fills with
  | nil => rfl
  | cons fill rest ih =>
    rw [length_ofSide_cons, length_ofSide_cons, List.length_cons]
    cases fill.side with
    | buy => simp; omega
    | sell => simp; omega

/-- A figure of each fill, added up from the left. -/
def addAll (figure : Fill → Except Overflow Decimal) (start : Decimal) (fills : List Fill) :
    Except Overflow Decimal :=
  fills.foldlM (fun sum fill => do sum.add (← figure fill)) start

section AddAll

variable {figure : Fill → Except Overflow Decimal} {start sum : Decimal}

theorem addAll_nil_eq_ok : addAll figure start [] = .ok sum ↔ start = sum :=
  pure_eq_ok

theorem addAll_cons_eq_ok {fill : Fill} {fills : List Fill} :
    addAll figure start (fill :: fills) = .ok sum ↔
      ∃ a, figure fill = .ok a ∧ ∃ next, start.add a = .ok next ∧ addAll figure next fills = .ok sum := by
  rw [addAll, List.foldlM_cons, bind_eq_ok]
  constructor
  · intro h
    obtain ⟨next, hnext, hrest⟩ := h
    obtain ⟨a, ha, hadd⟩ := bind_eq_ok.1 hnext
    exact ⟨a, ha, next, hadd, hrest⟩
  · intro h
    obtain ⟨a, ha, next, hadd, hrest⟩ := h
    exact ⟨next, bind_eq_ok.2 ⟨a, ha, hadd⟩, hrest⟩

theorem value?_addAll {value : Fill → ℚ} {fills : List Fill}
    (h : ∀ fill ∈ fills, value? (figure fill) = some (value fill)) :
    value? (addAll figure start fills) = roundedSum start.toRat (fills.map value) := by
  induction fills generalizing start with
  | nil => rfl
  | cons fill rest ih =>
    rw [List.forall_mem_cons] at h
    obtain ⟨a, ha, hvalue⟩ := exists_of_value? h.1
    rw [addAll, List.foldlM_cons, List.map_cons, roundedSum, ← hvalue, ← value?_add, ha]
    change value? (start.add a >>= fun sum => addAll figure sum rest) = _
    cases start.add a with
    | error cause => rfl
    | ok next => exact ih h.2

/-- Lists whose figures have the same values one by one have sums of the same value. -/
theorem toRat_addAll_congr {figure' : Fill → Except Overflow Decimal} {fills fills' : List Fill}
    {start' sum' : Decimal}
    (h : List.Forall₂ (fun fill fill' => value? (figure fill) = value? (figure' fill')) fills fills')
    (hstart : start.toRat = start'.toRat) (hsum : addAll figure start fills = .ok sum)
    (hsum' : addAll figure' start' fills' = .ok sum') : sum.toRat = sum'.toRat := by
  induction h generalizing start start' with
  | nil =>
    rw [← addAll_nil_eq_ok.1 hsum, ← addAll_nil_eq_ok.1 hsum', hstart]
  | cons hhead _ ih =>
    obtain ⟨a, ha, next, hadd, hrest⟩ := addAll_cons_eq_ok.1 hsum
    obtain ⟨a', ha', next', hadd', hrest'⟩ := addAll_cons_eq_ok.1 hsum'
    refine ih (toRat_eq_of_value?_eq ?_ hadd hadd') hrest hrest'
    rw [value?_add, value?_add, hstart, toRat_eq_of_value?_eq hhead ha ha']

end AddAll

def amountOf (fill : Fill) : Except Overflow Decimal :=
  .ok fill.amount

/-! ## Volumes and counts, side by side -/

def Volume.on (volume : Volume) : Side → Decimal
  | .buy => volume.buy
  | .sell => volume.sell

@[simp] theorem Volume.on_none (side : Side) : Volume.none.on side = .zero := by
  cases side <;> rfl

def TradeCounts.on (counts : TradeCounts) : Side → ℕ
  | .buy => counts.buy
  | .sell => counts.sell

theorem TradeCounts.ext_on {counts counts' : TradeCounts} (h : ∀ side, counts.on side = counts'.on side)
    (htotal : counts.total = counts'.total) : counts = counts' := by
  have hbuy : counts.buy = counts'.buy := h .buy
  have hsell : counts.sell = counts'.sell := h .sell
  cases counts
  simp_all

theorem TradeCounts.on_count (counts : TradeCounts) (counted side : Side) :
    (counts.count counted).on side = counts.on side + if counted = side then 1 else 0 := by
  cases counted <;> cases side <;> rfl

/-- From some counts to others: each has grown by the fills that count for it. -/
structure TradeCounts.Grows (fills : List Fill) (before after : TradeCounts) : Prop where
  on : ∀ side, after.on side = before.on side + (ofSide side fills).length
  total : after.total = before.total + fills.length

theorem TradeCounts.grows_nil_iff {before after : TradeCounts} : Grows [] before after ↔ before = after := by
  constructor
  · intro h
    exact ext_on (fun side => (h.on side).symm) h.total.symm
  · rintro rfl
    exact ⟨fun _ => rfl, rfl⟩

theorem TradeCounts.grows_cons_iff {fill : Fill} {fills : List Fill} {before after : TradeCounts} :
    Grows (fill :: fills) before after ↔ Grows fills (before.count fill.side) after := by
  have hon : ∀ side, before.on side + (ofSide side (fill :: fills)).length
      = (before.count fill.side).on side + (ofSide side fills).length := by
    intro side
    rw [length_ofSide_cons, on_count, Nat.add_assoc]
  have htotal : before.total + (fill :: fills).length = (before.count fill.side).total + fills.length := by
    rw [List.length_cons]
    change _ = before.total + 1 + fills.length
    omega
  constructor
  · intro h
    exact ⟨fun side => (h.on side).trans (hon side), h.total.trans htotal⟩
  · intro h
    exact ⟨fun side => (h.on side).trans (hon side).symm, h.total.trans htotal.symm⟩

theorem Volume.ext_on {volume volume' : Volume} (h : ∀ side, volume.on side = volume'.on side)
    (htotal : volume.total = volume'.total) : volume = volume' := by
  have hbuy : volume.buy = volume'.buy := h .buy
  have hsell : volume.sell = volume'.sell := h .sell
  cases volume
  simp_all

/-- An amount is added to its side and to the total, and the other side stays. -/
theorem Volume.add_eq_ok_iff {volume next : Volume} {side : Side} {a : Decimal} :
    volume.add side a = .ok next ↔
      (volume.on side).add a = .ok (next.on side) ∧ (∀ other, other ≠ side → next.on other = volume.on other) ∧
        volume.total.add a = .ok next.total := by
  constructor
  · intro h
    cases side with
    | buy =>
      obtain ⟨buy, hbuy, h⟩ := bind_eq_ok.1 h
      obtain ⟨sided, hsided, h⟩ := bind_eq_ok.1 h
      obtain rfl := pure_eq_ok.1 hsided
      obtain ⟨total, htotal, h⟩ := bind_eq_ok.1 h
      obtain rfl := pure_eq_ok.1 h
      refine ⟨hbuy, fun other hother => ?_, htotal⟩
      cases other with
      | buy => exact absurd rfl hother
      | sell => rfl
    | sell =>
      obtain ⟨sell, hsell, h⟩ := bind_eq_ok.1 h
      obtain ⟨sided, hsided, h⟩ := bind_eq_ok.1 h
      obtain rfl := pure_eq_ok.1 hsided
      obtain ⟨total, htotal, h⟩ := bind_eq_ok.1 h
      obtain rfl := pure_eq_ok.1 h
      refine ⟨hsell, fun other hother => ?_, htotal⟩
      cases other with
      | buy => rfl
      | sell => exact absurd rfl hother
  · intro h
    obtain ⟨hside, hother, htotal⟩ := h
    cases side with
    | buy =>
      have hsell : next.sell = volume.sell := hother .sell (by decide)
      refine bind_eq_ok.2 ⟨next.buy, hside, bind_eq_ok.2 ⟨_, rfl, bind_eq_ok.2
        ⟨next.total, htotal, pure_eq_ok.2 ?_⟩⟩⟩
      rw [← hsell]
    | sell =>
      have hbuy : next.buy = volume.buy := hother .buy (by decide)
      refine bind_eq_ok.2 ⟨next.sell, hside, bind_eq_ok.2 ⟨_, rfl, bind_eq_ok.2
        ⟨next.total, htotal, pure_eq_ok.2 ?_⟩⟩⟩
      rw [← hbuy]

/-- From one volume to another: each of its sums has grown by the fills that count for it. -/
structure Volume.Grows (figure : Fill → Except Overflow Decimal) (fills : List Fill) (before after : Volume) :
    Prop where
  on : ∀ side, addAll figure (before.on side) (ofSide side fills) = .ok (after.on side)
  total : addAll figure before.total fills = .ok after.total

theorem Volume.grows_nil_iff {figure : Fill → Except Overflow Decimal} {before after : Volume} :
    Volume.Grows figure [] before after ↔ before = after := by
  constructor
  · intro h
    exact ext_on (fun side => addAll_nil_eq_ok.1 (h.on side)) (addAll_nil_eq_ok.1 h.total)
  · rintro rfl
    exact ⟨fun _ => rfl, rfl⟩

theorem Volume.grows_cons_iff {figure : Fill → Except Overflow Decimal} {fill : Fill} {fills : List Fill}
    {before after : Volume} :
    Volume.Grows figure (fill :: fills) before after ↔
      ∃ a, figure fill = .ok a ∧ ∃ next, before.add fill.side a = .ok next ∧
        Volume.Grows figure fills next after := by
  constructor
  · intro h
    obtain ⟨hon, htotal⟩ := h
    obtain ⟨a, ha, total, hadd, htotal⟩ := addAll_cons_eq_ok.1 htotal
    have hsided := hon fill.side
    rw [ofSide_cons_self rfl] at hsided
    obtain ⟨a', ha', sided, hadd', hsided⟩ := addAll_cons_eq_ok.1 hsided
    obtain rfl : a = a' := by simpa [ha] using ha'
    have hother : ∀ other, other ≠ fill.side →
        addAll figure (before.on other) (ofSide other fills) = .ok (after.on other) := by
      intro other hne
      rw [← ofSide_cons_of_ne hne.symm]
      exact hon other
    obtain ⟨next, hnext, hstay, hnext_total⟩ : ∃ next : Volume, next.on fill.side = sided ∧
        (∀ other, other ≠ fill.side → next.on other = before.on other) ∧ next.total = total := by
      cases fill.side with
      | buy => exact ⟨⟨sided, before.sell, total⟩, rfl, fun | .sell, _ => rfl, rfl⟩
      | sell => exact ⟨⟨before.buy, sided, total⟩, rfl, fun | .buy, _ => rfl, rfl⟩
    refine ⟨a, ha, next, Volume.add_eq_ok_iff.2 ⟨hnext ▸ hadd', hstay, hnext_total ▸ hadd⟩,
      fun side => ?_, hnext_total ▸ htotal⟩
    by_cases hside : side = fill.side
    · rw [hside, hnext]
      exact hsided
    · rw [hstay side hside]
      exact hother side hside
  · intro h
    obtain ⟨a, ha, next, hadd, hgrows⟩ := h
    obtain ⟨hsided, hstay, htotal⟩ := Volume.add_eq_ok_iff.1 hadd
    refine ⟨fun side => ?_, addAll_cons_eq_ok.2 ⟨a, ha, next.total, htotal, hgrows.total⟩⟩
    by_cases hside : fill.side = side
    · subst hside
      rw [ofSide_cons_self rfl]
      exact addAll_cons_eq_ok.2 ⟨a, ha, next.on fill.side, hsided, hgrows.on fill.side⟩
    · rw [ofSide_cons_of_ne hside, ← hstay side (Ne.symm hside)]
      exact hgrows.on side

namespace Turnover

/-- From one turnover to another: the counts and both volumes have grown by the fills. -/
structure Grows (fills : List Fill) (before after : Turnover) : Prop where
  counts : TradeCounts.Grows fills before.counts after.counts
  base : Volume.Grows amountOf fills before.base after.base
  quote : Volume.Grows Fill.notional fills before.quote after.quote

theorem add_eq_ok_iff {turnover next : Turnover} {fill : Fill} :
    turnover.add fill = .ok next ↔ next.counts = turnover.counts.count fill.side ∧
      turnover.base.add fill.side fill.amount = .ok next.base ∧
      ∃ notional, fill.notional = .ok notional ∧ turnover.quote.add fill.side notional = .ok next.quote := by
  simp only [add, bind_eq_ok, pure_eq_ok]
  constructor
  · intro h
    obtain ⟨base, hbase, notional, hnotional, quote, hquote, rfl⟩ := h
    exact ⟨rfl, hbase, notional, hnotional, hquote⟩
  · intro h
    obtain ⟨hcounts, hbase, notional, hnotional, hquote⟩ := h
    exact ⟨next.base, hbase, notional, hnotional, next.quote, hquote, by rw [← hcounts]⟩

theorem foldlM_add_eq_ok_iff {fills : List Fill} {before after : Turnover} :
    fills.foldlM add before = .ok after ↔ Grows fills before after := by
  induction fills generalizing before with
  | nil =>
    rw [List.foldlM_nil, pure_eq_ok]
    constructor
    · rintro rfl
      exact ⟨TradeCounts.grows_nil_iff.2 rfl, Volume.grows_nil_iff.2 rfl, Volume.grows_nil_iff.2 rfl⟩
    · intro h
      obtain ⟨hcounts, hbase, hquote⟩ := h
      rw [TradeCounts.grows_nil_iff] at hcounts
      rw [Volume.grows_nil_iff] at hbase hquote
      cases before
      simp_all
  | cons fill rest ih =>
    rw [List.foldlM_cons, bind_eq_ok]
    constructor
    · intro h
      obtain ⟨next, hnext, hrest⟩ := h
      obtain ⟨hcounts, hbase, notional, hnotional, hquote⟩ := add_eq_ok_iff.1 hnext
      obtain ⟨hmore, hgrows, hgrows'⟩ := ih.1 hrest
      exact ⟨TradeCounts.grows_cons_iff.2 (hcounts ▸ hmore), Volume.grows_cons_iff.2 ⟨_, rfl, _, hbase, hgrows⟩,
        Volume.grows_cons_iff.2 ⟨_, hnotional, _, hquote, hgrows'⟩⟩
    · intro h
      obtain ⟨hcounts, hgrows, hgrows'⟩ := h
      obtain ⟨amount, hamount, base, hbase, hgrows⟩ := Volume.grows_cons_iff.1 hgrows
      obtain ⟨notional, hnotional, quote, hquote, hgrows'⟩ := Volume.grows_cons_iff.1 hgrows'
      obtain rfl : fill.amount = amount := by simpa [amountOf] using hamount
      exact ⟨⟨before.counts.count fill.side, base, quote⟩, add_eq_ok_iff.2 ⟨rfl, hbase, notional, hnotional, hquote⟩,
        ih.2 ⟨TradeCounts.grows_cons_iff.1 hcounts, hgrows, hgrows'⟩⟩

theorem ofFills_eq_ok_iff {fills : List Fill} {turnover : Turnover} :
    ofFills fills = .ok turnover ↔ Grows fills none turnover :=
  foldlM_add_eq_ok_iff

theorem counts_of_ofFills {fills : List Fill} {turnover : Turnover} (h : ofFills fills = .ok turnover) (side : Side) :
    turnover.counts.on side = (ofSide side fills).length := by
  have hnone : none.counts.on side = 0 := by cases side <;> rfl
  rw [(ofFills_eq_ok_iff.1 h).counts.on, hnone, Nat.zero_add]

theorem counts_total_of_ofFills {fills : List Fill} {turnover : Turnover} (h : ofFills fills = .ok turnover) :
    turnover.counts.total = fills.length :=
  (ofFills_eq_ok_iff.1 h).counts.total.trans (Nat.zero_add _)

/-- The fills of both sides are counted on their own, and the count is that of the sides together. -/
theorem counts_total_eq {fills : List Fill} {turnover : Turnover} (h : ofFills fills = .ok turnover) :
    turnover.counts.total = turnover.counts.buy + turnover.counts.sell := by
  have hbuys : turnover.counts.buy = _ := counts_of_ofFills h .buy
  have hsells : turnover.counts.sell = _ := counts_of_ofFills h .sell
  rw [counts_total_of_ofFills h, hbuys, hsells, length_ofSide]

end Turnover

end TradeReport
