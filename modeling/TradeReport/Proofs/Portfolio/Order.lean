import TradeReport.Proofs.Portfolio.Agreement
/-!
# Rows and the order of input

Fills are sorted before a row is computed, but those of one moment stay as they were listed, and the last of them gives
the row its market and its pair. Without an overflow, and with exact fees, two orders of the same fills come to the
same end exactly when they end under the same heading (`compute_alike_iff`). The heading does not depend on the order
exactly when all fills of the latest moment have the same one (`heading?_perm_iff`).
-/

namespace TradeReport

/-- What a row takes from its last fill beside the price: a market and a pair, or a symbol that is no pair. -/
def Fill.heading (fill : Fill) : Except String (String × Pair) :=
  match Pair.ofSymbol? fill.symbol with
  | some pair => .ok (fill.market, pair)
  | none => .error fill.symbol

/-- The heading of the fill that comes last in order. -/
def heading? (fills : List Fill) : Option (Except String (String × Pair)) :=
  (chronological fills).getLast?.map Fill.heading

/-! ## The fills of the latest moment -/

section Latest

variable {fills fills' : List Fill} {fill last : Fill}

def IsLatest (fills : List Fill) (fill : Fill) : Prop :=
  fill ∈ fills ∧ ∀ other ∈ fills, (compare other.moment fill.moment).isLE

def EndsUnderOneHeading (fills : List Fill) : Prop :=
  ∀ a b, IsLatest fills a → IsLatest fills b → a.heading = b.heading

theorem IsLatest.perm (h : IsLatest fills fill) (hperm : fills.Perm fills') : IsLatest fills' fill :=
  ⟨hperm.mem_iff.1 h.1, fun other hother => h.2 other (hperm.mem_iff.2 hother)⟩

private theorem isLatest_getLast (hlast : (chronological fills).getLast? = some last) : IsLatest fills last := by
  have hperm := chronological_perm fills
  refine ⟨hperm.mem_iff.1 (List.mem_of_getLast? hlast), fun other hother => ?_⟩
  have hle := rel_last_of_pairwise (inOrder_chronological fills) (fun a => by simp) hlast (hperm.mem_iff.2 hother)
  exact hle

/-- Any fill of the latest moment comes last in some order. -/
theorem IsLatest.exists_perm (h : IsLatest fills fill) :
    ∃ others, fills.Perm others ∧ (chronological others).getLast? = some fill := by
  -- The others in order and then this one: that list is in order, so sorting leaves it as it is.
  have hperm : fills.Perm (chronological (fills.erase fill) ++ [fill]) := by
    refine (List.perm_cons_erase h.1).trans ?_
    exact ((chronological_perm _).symm.cons fill).trans (List.perm_append_singleton fill _).symm
  refine ⟨_, hperm, ?_⟩
  have hordered : InOrder (chronological (fills.erase fill) ++ [fill]) := by
    refine List.pairwise_append.2 ⟨inOrder_chronological _, List.pairwise_singleton _ _, ?_⟩
    intro other hother last hlast
    rw [List.mem_singleton.1 hlast]
    exact h.2 other (hperm.mem_iff.2 (List.mem_append_left _ hother))
  rw [chronological_of_pairwise, List.getLast?_concat]
  simpa only [InOrder, Fill.compareChronology_eq] using hordered

theorem heading?_perm_iff :
    (∀ others, fills.Perm others → heading? others = heading? fills) ↔ EndsUnderOneHeading fills := by
  constructor
  · intro h a b ha hb
    obtain ⟨others, hothers, hlast⟩ := ha.exists_perm
    obtain ⟨others', hothers', hlast'⟩ := hb.exists_perm
    have hsame := (h others hothers).trans (h others' hothers').symm
    rw [heading?, heading?, hlast, hlast'] at hsame
    exact Option.some.inj hsame
  · intro h others hperm
    by_cases hfills : fills = []
    · subst hfills
      rw [hperm.nil_eq]
    · obtain ⟨last, hlast⟩ := exists_getLast_chronological hfills
      have hothers : others ≠ [] := by
        rintro rfl
        exact hfills hperm.eq_nil
      obtain ⟨last', hlast'⟩ := exists_getLast_chronological hothers
      rw [heading?, heading?, hlast, hlast']
      exact congrArg some (h last' last ((isLatest_getLast hlast').perm hperm.symm) (isLatest_getLast hlast))

end Latest

namespace PortfolioRow

variable {strategy : String} {fills fills' : List Fill} {bounds : Option BalanceBounds} {row row' : PortfolioRow}

/-! ## Headings of rows -/

/-- The heading that an outcome was computed under. An overflow does not tell. -/
def headingOf : Except CalculationError PortfolioRow → Option (Except String (String × Pair))
  | .ok row => some (.ok (row.market, row.pair))
  | .error (.invalidPair symbol) => some (.error symbol)
  | .error _ => none

private theorem headingOf_eq_of_alike {outcome outcome' : Except CalculationError PortfolioRow}
    (h : Alike Agrees outcome outcome') : headingOf outcome = headingOf outcome' := by
  cases h with
  | error cause => rfl
  | ok hagrees => rw [headingOf, headingOf, hagrees.market, hagrees.pair]

/-- Short of an overflow an error is known by its heading. -/
theorem eq_error_of_headingOf {outcome : Except CalculationError PortfolioRow} {error : CalculationError}
    (hsame : headingOf (.error error) = headingOf outcome) (herror : ∀ cause, error ≠ .overflow cause)
    (hreturns : ∀ cause, outcome ≠ .error (.overflow cause)) : outcome = .error error := by
  cases error with
  | overflow cause => exact absurd rfl (herror cause)
  | emptyScope =>
    cases outcome with
    | ok row => cases hsame
    | error other =>
      cases other with
      | emptyScope => rfl
      | invalidPair symbol => cases hsame
      | overflow cause => exact absurd rfl (hreturns cause)
  | invalidPair symbol =>
    cases outcome with
    | ok row => cases hsame
    | error other =>
      cases other with
      | emptyScope => cases hsame
      | invalidPair other =>
        cases hsame
        rfl
      | overflow cause => exact absurd rfl (hreturns cause)

/-- The row does not overflow, and nothing is rounded in the sum of its fees. -/
structure Unrounded (strategy : String) (fills : List Fill) (bounds : Option BalanceBounds) : Prop where
  returns : ∀ cause, compute strategy fills bounds ≠ .error (.overflow cause)
  fees : ∀ market pair, heading? fills = some (.ok (market, pair)) →
    (feeCalculation pair.quote (chronological fills)).Exact

private theorem heading?_of_computed {last : Fill} {pair : Pair} (hlast : (chronological fills).getLast? = some last)
    (hpair : Pair.ofSymbol? last.symbol = some pair) : heading? fills = some (.ok (last.market, pair)) := by
  rw [heading?, hlast, Option.map_some, Fill.heading, hpair]

theorem headingOf_compute (h : Unrounded strategy fills bounds) :
    headingOf (compute strategy fills bounds) = heading? fills := by
  cases hlast : (chronological fills).getLast? with
  | none =>
    simp only [compute, hlast, heading?]
    rfl
  | some last =>
    cases hpair : Pair.ofSymbol? last.symbol with
    | none =>
      simp only [compute_of_invalid hlast hpair, heading?, hlast, Option.map_some, Fill.heading, hpair]
      rfl
    | some pair =>
      rcases exists_of_last hlast hpair with ⟨row, hrow⟩ | ⟨cause, hoverflow⟩
      · obtain ⟨last', pair', hlast', hpair', hcomputed⟩ := exists_computed hrow
        rw [hrow, headingOf, hcomputed.ofMarket, hcomputed.ofPair, heading?_of_computed hlast' hpair']
      · exact absurd hoverflow (h.returns cause)

private theorem agrees_of_heading (hperm : fills.Perm fills') (h : Unrounded strategy fills bounds)
    (h' : Unrounded strategy fills' bounds) (hheading : heading? fills = heading? fills')
    (hrow : compute strategy fills bounds = .ok row) (hrow' : compute strategy fills' bounds = .ok row') :
    row.Agrees row' := by
  obtain ⟨last, pair, hlast, hpair, hcomputed⟩ := exists_computed hrow
  obtain ⟨last', pair', hlast', hpair', hcomputed'⟩ := exists_computed hrow'
  have hown := heading?_of_computed hlast hpair
  have hown' := heading?_of_computed hlast' hpair'
  obtain ⟨hmarket, rfl⟩ : last.market = last'.market ∧ pair = pair' := by
    simpa using hown.symm.trans (hheading.trans hown')
  have hordered := chronological_perm_chronological hperm
  have hmoments := moments_eq_of_perm (inOrder_chronological fills) (inOrder_chronological fills') hordered
  have hfees := toRat_feesPaid_congr hordered (h.fees _ _ hown) (h'.fees _ _ hown') hcomputed.progress.feesPaid
    hcomputed'.progress.feesPaid
  exact agrees_of_computed (.of_perm hperm) (getLast_moment_eq hmoments hlast hlast') hmarket hfees hcomputed hcomputed'

/-- Two orders of the same fills come to the same end exactly when they end under the same heading, which every two
orders do exactly when the fills of the latest moment all have the same one. -/
theorem compute_alike_iff (hperm : fills.Perm fills') (h : Unrounded strategy fills bounds)
    (h' : Unrounded strategy fills' bounds) :
    (Alike Agrees (compute strategy fills bounds) (compute strategy fills' bounds) ↔
      heading? fills = heading? fills') ∧
    ((∀ others, fills.Perm others → heading? others = heading? fills) ↔ EndsUnderOneHeading fills) := by
  refine ⟨⟨fun halike => ?_, fun hheading => ?_⟩, heading?_perm_iff⟩
  · rw [← headingOf_compute h, ← headingOf_compute h']
    exact headingOf_eq_of_alike halike
  · have hsame := (headingOf_compute h).trans (hheading.trans (headingOf_compute h').symm)
    cases hrow : compute strategy fills bounds with
    | error error =>
      have herror : ∀ cause, error ≠ .overflow cause := by
        rintro cause rfl
        exact h.returns cause hrow
      rw [eq_error_of_headingOf (hrow ▸ hsame) herror h'.returns]
      exact .error error
    | ok row =>
      cases hrow' : compute strategy fills' bounds with
      | error error =>
        have herror : ∀ cause, error ≠ .overflow cause := by
          rintro cause rfl
          exact h'.returns cause hrow'
        have hboth := eq_error_of_headingOf (hrow' ▸ hsame.symm) herror h.returns
        cases hrow.symm.trans hboth
      | ok row' => exact .ok (agrees_of_heading hperm h h' hheading hrow hrow')

theorem unrounded_of_inOrder {last : Fill} (pair : Pair)
    (hordered : fills.Pairwise fun a b => (a.compareChronology b).isLE) (hlast : fills.getLast? = some last)
    (hpair : Pair.ofSymbol? last.symbol = some pair)
    (hcomputed : (ofOrdered strategy pair last fills bounds).toOption.isSome = true)
    (hfees : (feeCalculation pair.quote fills).Exact) : Unrounded strategy fills bounds := by
  have hsame : chronological fills = fills := chronological_of_pairwise hordered
  rw [← hsame] at hlast
  refine ⟨fun cause hoverflow => ?_, fun market own hown => ?_⟩
  · rw [compute_of_last hlast hpair, hsame] at hoverflow
    cases hrow : ofOrdered strategy pair last fills bounds with
    | error other =>
      rw [hrow] at hcomputed
      cases hcomputed
    | ok row =>
      rw [hrow] at hoverflow
      cases hoverflow
  · obtain ⟨-, rfl⟩ : last.market = market ∧ pair = own := by
      simpa using (heading?_of_computed hlast hpair).symm.trans hown
    rw [hsame]
    exact hfees

section Tied

open Performance (tiedBuy tiedSell)

theorem compute_alike_tied :
    chronological [tiedBuy, tiedSell] ≠ chronological [tiedSell, tiedBuy] ∧
      Alike Agrees (compute "run" [tiedBuy, tiedSell] none) (compute "run" [tiedSell, tiedBuy] none) := by
  have hbuyFirst : chronological [tiedBuy, tiedSell] = [tiedBuy, tiedSell] :=
    chronological_of_pairwise (by decide +kernel)
  have hsellFirst : chronological [tiedSell, tiedBuy] = [tiedSell, tiedBuy] :=
    chronological_of_pairwise (by decide +kernel)
  refine ⟨by rw [hbuyFirst, hsellFirst]; decide +kernel, (compute_alike_iff (.swap _ _ _) ?_ ?_).1.2 ?_⟩
  · exact unrounded_of_inOrder ⟨"A", "B"⟩ (by decide +kernel) rfl (by decide +kernel) (by decide +kernel)
      (by decide +kernel)
  · exact unrounded_of_inOrder ⟨"A", "B"⟩ (by decide +kernel) rfl (by decide +kernel) (by decide +kernel)
      (by decide +kernel)
  · rw [heading?, heading?, hbuyFirst, hsellFirst]
    decide +kernel

def strayBuy : Fill :=
  { tiedBuy with market := "other" }

/-- Of two purchases of one moment on different markets, the one that is listed last gives the row its market. -/
theorem not_compute_alike :
    ¬∀ (strategy : String) (fills fills' : List Fill) (bounds : Option BalanceBounds), fills.Perm fills' →
      Unrounded strategy fills bounds → Unrounded strategy fills' bounds →
      Alike Agrees (compute strategy fills bounds) (compute strategy fills' bounds) := by
  intro h
  have hstrayLast : chronological [tiedBuy, strayBuy] = [tiedBuy, strayBuy] :=
    chronological_of_pairwise (by decide +kernel)
  have hstrayFirst : chronological [strayBuy, tiedBuy] = [strayBuy, tiedBuy] :=
    chronological_of_pairwise (by decide +kernel)
  have hunrounded : Unrounded "run" [tiedBuy, strayBuy] none :=
    unrounded_of_inOrder ⟨"A", "B"⟩ (by decide +kernel) rfl (by decide +kernel) (by decide +kernel)
      (by decide +kernel)
  have hunrounded' : Unrounded "run" [strayBuy, tiedBuy] none :=
    unrounded_of_inOrder ⟨"A", "B"⟩ (by decide +kernel) rfl (by decide +kernel) (by decide +kernel)
      (by decide +kernel)
  have hsame := headingOf_eq_of_alike (h "run" _ _ none (.swap _ _ _) hunrounded hunrounded')
  rw [headingOf_compute hunrounded, headingOf_compute hunrounded', heading?, heading?, hstrayLast, hstrayFirst] at hsame
  revert hsame
  decide +kernel

end Tied

end PortfolioRow

end TradeReport
