import TradeReport.Proofs.Decimal.Mean
import TradeReport.Proofs.KillSwitch
/-!
# Unanimous verdicts

When all returns of a run are on one side of a limit, so is their average, and a kill switch decides on the average as
it would on each of them (`KillSwitch.verdict_unanimous`). Markets without a return have no say: leaving them out, or
putting in others, changes neither the returns nor their order.
-/

namespace TradeReport

namespace WindowReport

def returnsOf (entries : List Performance) : List Decimal :=
  entries.filterMap (·.returnRatio)

def inOrder (entries : List Performance) : List Performance :=
  entries.mergeSort fun a b => (compare (entryListing a) (entryListing b)).isLE

variable {window : Window} {entries others : List Performance}

private theorem perm_returnsOf_inOrder (entries : List Performance) :
    (returnsOf (inOrder entries)).Perm (returnsOf entries) :=
  (List.mergeSort_perm entries _).filterMap _

private theorem returnsOf_filter (entries : List Performance) :
    returnsOf (entries.filter (·.returnRatio.isSome)) = returnsOf entries := by
  rw [returnsOf, List.filterMap_filter]
  apply List.filterMap_congr
  intro entry _
  cases entry.returnRatio <;> rfl

/-- The returns come in one order, whatever entries without a return are among the others. -/
theorem returnsOf_inOrder_congr (h : others.filter (·.returnRatio.isSome) = entries.filter (·.returnRatio.isSome)) :
    returnsOf (inOrder others) = returnsOf (inOrder entries) := by
  have hsorted : ∀ entries, (inOrder entries).filter (·.returnRatio.isSome)
      = inOrder (entries.filter (·.returnRatio.isSome)) := by
    apply filter_mergeSort
    · intro a b c hab hbc
      exact Std.TransCmp.isLE_trans hab hbc
    · intro a b
      rw [Bool.or_eq_true]
      by_cases hle : (compare (entryListing a) (entryListing b)).isLE = true
      · exact .inl hle
      · exact .inr (Ordering.isLE_of_eq_lt (Std.OrientedCmp.lt_of_not_isLE hle))
  rw [← returnsOf_filter, hsorted, h, ← hsorted, returnsOf_filter]

theorem ofMarkets_eq_ok_iff {report : WindowReport} :
    ofMarkets window entries = .ok report ↔
      ∃ averageReturn, Decimal.mean? (returnsOf (inOrder entries)) = .ok averageReturn ∧
        ⟨window, inOrder entries, averageReturn⟩ = report := by
  constructor
  · intro h
    obtain ⟨averageReturn, hmean, hreport⟩ := bind_eq_ok.1 h
    exact ⟨averageReturn, hmean, pure_eq_ok.1 hreport⟩
  · rintro ⟨averageReturn, hmean, rfl⟩
    exact bind_eq_ok.2 ⟨averageReturn, hmean, rfl⟩

private theorem exists_average (window : Window) (hne : returnsOf entries ≠ [])
    (hcount : (returnsOf entries).length < 2 ^ 32) (hsize : ((returnsOf entries).map (|·.toRat|)).sum < 79 / 10) :
    ∃ report average, ofMarkets window entries = .ok report ∧ report.averageReturn = some average ∧
      average.IsBetween (returnsOf entries) := by
  have hperm := perm_returnsOf_inOrder entries
  have hsorted : returnsOf (inOrder entries) ≠ [] := by
    intro hnil
    rw [hnil] at hperm
    exact hne hperm.nil_eq.symm
  obtain ⟨average, hmean, hbetween⟩ :=
    Decimal.exists_mean hsorted (by rwa [hperm.length_eq]) (by rwa [(hperm.map _).sum_eq])
  exact ⟨_, average, ofMarkets_eq_ok_iff.2 ⟨_, hmean, rfl⟩, rfl, hbetween.perm hperm⟩

private theorem ofMarkets_of_no_return (window : Window) (h : returnsOf entries = []) :
    ∃ report, ofMarkets window entries = .ok report ∧ report.averageReturn = none := by
  have hnone : returnsOf (inOrder entries) = [] := by
    have hperm := perm_returnsOf_inOrder entries
    rw [h] at hperm
    exact hperm.eq_nil
  exact ⟨_, ofMarkets_eq_ok_iff.2 ⟨none, by rw [hnone, Decimal.mean?_nil], rfl⟩, rfl⟩

theorem averageReturn_congr {report : WindowReport} (h : ofMarkets window entries = .ok report)
    (hothers : others.filter (·.returnRatio.isSome) = entries.filter (·.returnRatio.isSome)) :
    ∃ other, ofMarkets window others = .ok other ∧ other.averageReturn = report.averageReturn := by
  obtain ⟨averageReturn, hmean, rfl⟩ := ofMarkets_eq_ok_iff.1 h
  rw [← returnsOf_inOrder_congr hothers] at hmean
  exact ⟨_, ofMarkets_eq_ok_iff.2 ⟨averageReturn, hmean, rfl⟩, rfl⟩

end WindowReport

namespace KillSwitch

open WindowReport (ofMarkets returnsOf)

/-- A switch decides on an average as on the returns that it is the average of, when they agree. Markets without a
return do not matter, and without any return nothing is decided. -/
theorem verdict_unanimous (killSwitch : KillSwitch) (window : Window) (entries : List Performance)
    (hcount : (returnsOf entries).length < 2 ^ 32) (hsize : ((returnsOf entries).map (|·.toRat|)).sum < 79 / 10) :
    ∃ report, ofMarkets window entries = .ok report ∧
      (returnsOf entries = [] →
        killSwitch.evaluate (.ok report.averageReturn) = .unknown (unknownReason none)) ∧
      (returnsOf entries ≠ [] → ∃ average, report.averageReturn = some average ∧
        average.IsBetween (returnsOf entries) ∧
        ((∀ ratio ∈ returnsOf entries, ratio ≤ killSwitch.limit) →
          killSwitch.evaluate (.ok report.averageReturn) = .trigger average) ∧
        ((∀ ratio ∈ returnsOf entries, killSwitch.limit < ratio) →
          killSwitch.evaluate (.ok report.averageReturn) = .proceed average)) ∧
      ∀ others : List Performance,
        others.filter (·.returnRatio.isSome) = entries.filter (·.returnRatio.isSome) →
        ∃ other, ofMarkets window others = .ok other ∧
          killSwitch.evaluate (.ok other.averageReturn) = killSwitch.evaluate (.ok report.averageReturn) := by
  have hothers : ∀ report, ofMarkets window entries = .ok report → ∀ others : List Performance,
      others.filter (·.returnRatio.isSome) = entries.filter (·.returnRatio.isSome) →
      ∃ other, ofMarkets window others = .ok other ∧
        killSwitch.evaluate (.ok other.averageReturn) = killSwitch.evaluate (.ok report.averageReturn) := by
    intro report hreport others h
    obtain ⟨other, hother, hsame⟩ := WindowReport.averageReturn_congr hreport h
    exact ⟨other, hother, by rw [hsame]⟩
  by_cases hne : returnsOf entries = []
  · obtain ⟨report, hreport, hnone⟩ := WindowReport.ofMarkets_of_no_return window hne
    refine ⟨report, hreport, fun _ => ?_, fun h => absurd hne h, hothers report hreport⟩
    rw [hnone]
    rfl
  · obtain ⟨report, average, hreport, haverage, hbetween⟩ := WindowReport.exists_average window hne hcount hsize
    refine ⟨report, hreport, fun h => absurd h hne, fun _ => ⟨average, haverage, hbetween, ?_, ?_⟩,
      hothers report hreport⟩
    · intro hall
      rw [haverage]
      exact evaluate_of_le (hbetween.le_of_forall_le hall)
    · intro hall
      rw [haverage]
      apply evaluate_of_not_le
      have hover := hbetween.lt_of_forall_lt hall
      rw [Decimal.lt_iff_toRat_lt] at hover
      rw [Decimal.le_iff_toRat_le]
      exact hover.not_ge

def withReturn (market : String) (returnRatio : Figure) : Performance where
  market := market
  pair := ⟨"A", "B"⟩
  isDerivative := false
  windowStart := 0
  turnover := .none
  netBase := .zero
  netQuote := .zero
  averagePrice := ⟨none, none, none⟩
  startBase := none
  currentBase := none
  startQuote := .zero
  currentQuote := .zero
  startPrice := .zero
  currentPrice := .zero
  startBaseRatio := none
  currentBaseRatio := none
  holdValue := .zero
  currentValue := .zero
  tradePnl := .zero
  fees := .empty
  feeInQuote := .zero
  unpricedTokens := []
  totalPnl := .zero
  returnRatio := returnRatio

/-- A loss of five percent, and one that is larger by one unit of the last place. -/
def fivePercent : Decimal :=
  (Decimal.ofParts? true 5 2).getD .zero

def overFivePercent : Decimal :=
  (Decimal.ofParts? true 500000000000000000000000001 28).getD .zero

def losses : List Performance :=
  [withReturn "a" (some fivePercent), withReturn "b" none, withReturn "c" (some overFivePercent),
    withReturn "d" (some fivePercent)]

theorem verdict_unanimous_losses :
    (WindowReport.returnsOf losses).length < 2 ^ 32 ∧
      ((WindowReport.returnsOf losses).map (|·.toRat|)).sum < 79 / 10 ∧
      ∃ report average, WindowReport.ofMarkets ⟨0, 1⟩ losses = .ok report ∧
        (KillSwitch.mk fivePercent).evaluate (.ok report.averageReturn) = .trigger average := by
  have hcount : (WindowReport.returnsOf losses).length < 2 ^ 32 := by decide
  have hsize : ((WindowReport.returnsOf losses).map (|·.toRat|)).sum < 79 / 10 := by decide +kernel
  obtain ⟨report, hreport, -, haverage, -⟩ := verdict_unanimous ⟨fivePercent⟩ ⟨0, 1⟩ losses hcount hsize
  obtain ⟨average, -, -, htrigger, -⟩ := haverage (by decide)
  exact ⟨hcount, hsize, report, average, hreport, htrigger (by decide +kernel)⟩

end KillSwitch

end TradeReport
