import Mathlib.Data.List.Forall2
import Mathlib.Data.List.Perm.Basic
import TradeReport.Proofs.Decimal.Value
import TradeReport.Trade.Fill
/-!
# The order of fills

Fills are sorted by their `Moment`, and nothing else about a fill decides its place. The order of moments is
antisymmetric, so fills in order have the same moments one by one however they were listed (`moments_eq_of_perm`),
although fills that tie may have changed places. A sort that keeps what ties as it was sorts a part of a list as it
sorts the whole (`filter_mergeSort`).
-/

namespace TradeReport

/-! ## Sorting a part -/

section Sorting

variable {α : Type} {le : α → α → Bool}

/-- What a sorted list has before an entry that is put in is what the entry is not at most. -/
theorem filter_not_le_of_split {a : α} {before after : List α} (hbefore : ∀ b ∈ before, (!le a b) = true)
    (hafter : ∀ b ∈ after, le a b = true) : (before ++ after).filter (fun b => !le a b) = before := by
  rw [List.filter_append, List.filter_eq_self.2 hbefore, List.filter_eq_nil_iff.2, List.append_nil]
  intro b hb
  simp [hafter b hb]

private theorem le_after_of_mergeSort (htrans : ∀ a b c, le a b = true → le b c = true → le a c = true)
    (htotal : ∀ a b, (le a b || le b a) = true) {a : α} {items before after : List α}
    (h : items.mergeSort le = before ++ a :: after) : ∀ b ∈ after, le a b = true := by
  have hpairwise := List.pairwise_mergeSort htrans htotal items
  rw [h] at hpairwise
  exact (List.pairwise_cons.1 (List.pairwise_append.1 hpairwise).2.1).1

/-- A stable sort of a part is that part of the sorted whole. -/
theorem filter_mergeSort (htrans : ∀ a b c, le a b = true → le b c = true → le a c = true)
    (htotal : ∀ a b, (le a b || le b a) = true) (keep : α → Bool) (items : List α) :
    (items.mergeSort le).filter keep = (items.filter keep).mergeSort le := by
  induction items with
  | nil => simp
  | cons a rest ih =>
    obtain ⟨before, after, hsorted, hrest, hbefore⟩ := List.mergeSort_cons htrans htotal a rest
    rw [hrest, List.filter_append] at ih
    rw [hsorted, List.filter_append]
    by_cases hkeep : keep a = true
    · obtain ⟨earlier, later, hkept, hlater, hearlier⟩ :=
        List.mergeSort_cons htrans htotal a (rest.filter keep)
      have hafter := le_after_of_mergeSort htrans htotal hsorted
      rw [hlater] at ih
      -- Both sides are cut where the entries stop being strictly before the new one.
      have hcut := congrArg (List.filter fun b => !le a b) ih
      rw [filter_not_le_of_split hearlier (le_after_of_mergeSort htrans htotal hkept), filter_not_le_of_split] at hcut
      · rw [hcut] at ih
        rw [List.filter_cons_of_pos hkeep, List.filter_cons_of_pos hkeep, hkept, hcut, List.append_cancel_left ih]
      · intro b hb
        exact hbefore b (List.mem_of_mem_filter hb)
      · intro b hb
        exact hafter b (List.mem_of_mem_filter hb)
    · rw [List.filter_cons_of_neg hkeep, List.filter_cons_of_neg hkeep, ih]

end Sorting

/-! ## Moments -/

/-- What the place of a fill depends on. -/
@[ext]
structure Moment where
  time : ℤ
  price : ℚ
  amount : ℚ
  order : Option String
  deriving DecidableEq

namespace Moment

instance : Ord Moment :=
  ⟨compareLex (compareOn time) (compareLex (compareOn price) (compareLex (compareOn amount) (compareOn order)))⟩

instance : Std.TransOrd Moment :=
  inferInstanceAs (Std.TransCmp (compareLex (compareOn time)
    (compareLex (compareOn price) (compareLex (compareOn amount) (compareOn order)))))

theorem compare_eq (a b : Moment) :
    compare a b = (compare a.time b.time).then ((compare a.price b.price).then
      ((compare a.amount b.amount).then (compare a.order b.order))) :=
  rfl

instance : Std.LawfulEqOrd Moment where
  eq_of_compare {a b} h := by
    rw [compare_eq, Ordering.then_eq_eq, Ordering.then_eq_eq, Ordering.then_eq_eq] at h
    obtain ⟨htime, hprice, hamount, horder⟩ := h
    exact Moment.ext (Std.LawfulEqOrd.eq_of_compare htime) (Std.LawfulEqOrd.eq_of_compare hprice)
      (Std.LawfulEqOrd.eq_of_compare hamount) (Std.LawfulEqOrd.eq_of_compare horder)

end Moment

def Fill.moment (fill : Fill) : Moment :=
  ⟨fill.time.toInt, fill.price.toRat, fill.amount.toRat, fill.order⟩

theorem Fill.compareChronology_eq (a b : Fill) : a.compareChronology b = compare a.moment b.moment := by
  rw [compareChronology, compareTime, Decimal.compareValue_eq, Decimal.compareValue_eq]
  rfl

def InOrder (fills : List Fill) : Prop :=
  fills.Pairwise fun a b => (compare a.moment b.moment).isLE

variable {fills fills' : List Fill}

section SortedBy

variable {α : Type} (fillOf : α → Fill)

def notAfter (a b : α) : Bool :=
  (compare (fillOf a).moment (fillOf b).moment).isLE

theorem chronologicalBy_eq (items : List α) : chronologicalBy fillOf items = items.mergeSort (notAfter fillOf) := by
  simp only [chronologicalBy, Fill.compareChronology_eq]
  rfl

theorem notAfter_trans (a b c : α) (hab : notAfter fillOf a b = true) (hbc : notAfter fillOf b c = true) :
    notAfter fillOf a c = true :=
  Std.TransCmp.isLE_trans hab hbc

theorem notAfter_total (a b : α) : (notAfter fillOf a b || notAfter fillOf b a) = true := by
  have hswap : compare (fillOf b).moment (fillOf a).moment = (compare (fillOf a).moment (fillOf b).moment).swap :=
    Std.OrientedCmp.eq_swap
  rw [notAfter, notAfter, hswap]
  cases compare (fillOf a).moment (fillOf b).moment <;> rfl

theorem inOrder_chronologicalBy (items : List α) :
    (chronologicalBy fillOf items).Pairwise fun a b => notAfter fillOf a b = true := by
  rw [chronologicalBy_eq]
  exact List.pairwise_mergeSort (notAfter_trans fillOf) (notAfter_total fillOf) items

end SortedBy

theorem inOrder_chronological (fills : List Fill) : InOrder (chronological fills) :=
  inOrder_chronologicalBy id fills

theorem InOrder.filter (h : InOrder fills) (keep : Fill → Bool) : InOrder (fills.filter keep) :=
  List.Pairwise.filter keep h

/-- Fills in order have the same moments, however they were listed. -/
theorem moments_eq_of_perm (h : InOrder fills) (h' : InOrder fills') (hperm : fills.Perm fills') :
    fills.map (·.moment) = fills'.map (·.moment) := by
  have hmoments : (fills.map (·.moment)).Pairwise fun a b => (compare a b).isLE = true := List.pairwise_map.2 h
  have hmoments' : (fills'.map (·.moment)).Pairwise fun a b => (compare a b).isLE = true :=
    List.pairwise_map.2 h'
  refine (hperm.map _).eq_of_pairwise (fun a b _ _ hab hba => ?_) hmoments hmoments'
  exact Std.LawfulEqOrd.eq_of_compare (Std.OrientedCmp.isLE_antisymm hab hba)

theorem forall₂_moment_of_perm (h : InOrder fills) (h' : InOrder fills') (hperm : fills.Perm fills') :
    List.Forall₂ (fun fill fill' => fill.moment = fill'.moment) fills fills' := by
  have hmoments := moments_eq_of_perm h h' hperm
  rw [← List.forall₂_eq_eq_eq, List.forall₂_map_left_iff, List.forall₂_map_right_iff] at hmoments
  exact hmoments

theorem rel_last_of_pairwise {α : Type} {R : α → α → Prop} {items : List α} {a last : α} (h : items.Pairwise R)
    (hrefl : ∀ a, R a a) (hlast : items.getLast? = some last) (ha : a ∈ items) : R a last := by
  obtain ⟨earlier, rfl⟩ := List.getLast?_eq_some_iff.1 hlast
  rcases List.mem_append.1 ha with hearlier | hsame
  · exact (List.pairwise_append.1 h).2.2 a hearlier last (List.mem_singleton_self last)
  · rw [List.mem_singleton.1 hsame]
    exact hrefl last

theorem head_moment_eq {first first' : Fill} (h : fills.map (·.moment) = fills'.map (·.moment))
    (hfirst : fills.head? = some first) (hfirst' : fills'.head? = some first') : first.moment = first'.moment := by
  have hheads := congrArg List.head? h
  rw [List.head?_map, List.head?_map, hfirst, hfirst'] at hheads
  exact Option.some.inj hheads

theorem getLast_moment_eq {last last' : Fill} (h : fills.map (·.moment) = fills'.map (·.moment))
    (hlast : fills.getLast? = some last) (hlast' : fills'.getLast? = some last') : last.moment = last'.moment := by
  have hlasts := congrArg List.getLast? h
  rw [List.getLast?_map, List.getLast?_map, hlast, hlast'] at hlasts
  exact Option.some.inj hlasts

/-! ## Fills in order of time -/

theorem chronological_perm (fills : List Fill) : (chronological fills).Perm fills :=
  List.mergeSort_perm fills _

theorem chronological_perm_chronological (hperm : fills.Perm fills') :
    (chronological fills).Perm (chronological fills') :=
  (chronological_perm fills).trans (hperm.trans (chronological_perm fills').symm)

theorem chronological_of_pairwise (h : fills.Pairwise fun a b => (a.compareChronology b).isLE) :
    chronological fills = fills :=
  List.mergeSort_of_pairwise h

theorem chronological_ne_nil (hfills : fills ≠ []) : chronological fills ≠ [] := by
  intro h
  exact hfills ((h ▸ chronological_perm fills).nil_eq).symm

theorem exists_head_chronological (hfills : fills ≠ []) : ∃ first, (chronological fills).head? = some first :=
  ⟨_, List.head?_eq_some_head (chronological_ne_nil hfills)⟩

theorem exists_getLast_chronological (hfills : fills ≠ []) :
    ∃ last, (chronological fills).getLast? = some last :=
  ⟨_, List.getLast?_eq_some_getLast (chronological_ne_nil hfills)⟩

end TradeReport
