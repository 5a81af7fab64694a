import TradeReport.Proofs.Chronology
import TradeReport.Proofs.Text.ByteOrder
/-!
# The sort is stable

Items are sorted by four keys of their fills: the time, the price and the amount by value, and the order. What ties in
all four stays as it was listed. That leaves one list only (`IsStablySorted.unique`), and the sort gives it. Two lists
of the same items are sorted to the same keys place by place.
-/

namespace TradeReport

namespace Fill

variable {a b : Fill}

/-- A missing order comes before any text, and texts come in the order of their bytes. -/
inductive OrderBefore : Option String → Option String → Prop where
  | missing (text : String) : OrderBefore none (some text)
  | text {front back : String} (h : bytesOf front < bytesOf back) : OrderBefore (some front) (some back)

/-- The same in all four keys. -/
structure Ties (a b : Fill) : Prop where
  time : a.time.toInt = b.time.toInt
  price : a.price.toRat = b.price.toRat
  amount : a.amount.toRat = b.amount.toRat
  order : a.order = b.order

/-- Before in the first of the four keys that is not the same. -/
inductive Precedes (a b : Fill) : Prop where
  | time (h : a.time.toInt < b.time.toInt)
  | price (time : a.time.toInt = b.time.toInt) (h : a.price.toRat < b.price.toRat)
  | amount (time : a.time.toInt = b.time.toInt) (price : a.price.toRat = b.price.toRat)
    (h : a.amount.toRat < b.amount.toRat)
  | order (time : a.time.toInt = b.time.toInt) (price : a.price.toRat = b.price.toRat)
    (amount : a.amount.toRat = b.amount.toRat) (h : OrderBefore a.order b.order)

theorem ties_iff : a.Ties b ↔ a.moment = b.moment := by
  constructor
  · intro h
    exact Moment.ext h.time h.price h.amount h.order
  · intro h
    exact ⟨congrArg Moment.time h, congrArg Moment.price h, congrArg Moment.amount h, congrArg Moment.order h⟩

instance : DecidableRel Ties := fun _ _ => decidable_of_iff _ ties_iff.symm

private theorem compare_order_iff {front back : Option String} : compare front back = .lt ↔ OrderBefore front back := by
  cases front with
  | none =>
    cases back with
    | none => exact ⟨nofun, nofun⟩
    | some text => exact ⟨fun _ => .missing text, fun _ => rfl⟩
  | some front =>
    cases back with
    | none => exact ⟨nofun, nofun⟩
    | some back =>
      constructor
      · exact fun h => .text (compare_eq_lt_iff.1 h)
      · intro h
        cases h with
        | text h => exact compare_eq_lt_iff.2 h

/-- The keys are looked at one after the other, each where those before it are the same. -/
theorem precedes_iff : a.Precedes b ↔ compare a.moment b.moment = .lt := by
  rw [Moment.compare_eq, Ordering.then_eq_lt, Ordering.then_eq_lt, Ordering.then_eq_lt, compare_order_iff]
  simp only [compare_lt_iff_lt, compare_eq_iff_eq]
  constructor
  · intro h
    cases h with
    | time h => exact .inl h
    | price time h => exact .inr ⟨time, .inl h⟩
    | amount time price h => exact .inr ⟨time, .inr ⟨price, .inl h⟩⟩
    | order time price amount h => exact .inr ⟨time, .inr ⟨price, .inr ⟨amount, h⟩⟩⟩
  · rintro (h | ⟨time, h | ⟨price, h | ⟨amount, h⟩⟩⟩)
    · exact .time h
    · exact .price time h
    · exact .amount time price h
    · exact .order time price amount h

theorem isLE_iff : (compare a.moment b.moment).isLE ↔ a.Precedes b ∨ a.Ties b := by
  rw [Ordering.isLE_iff_eq_lt_or_eq_eq, precedes_iff, ties_iff, Std.LawfulEqOrd.compare_eq_iff_eq]

end Fill

/-! ## Sorted lists -/

/-- The items in the order of the four keys, each group of what ties as it was listed. -/
structure IsStablySorted {α : Type} (fillOf : α → Fill) (items sorted : List α) : Prop where
  perm : sorted.Perm items
  inOrder : sorted.Pairwise fun a b => (fillOf a).Precedes (fillOf b) ∨ (fillOf a).Ties (fillOf b)
  stable : ∀ item, sorted.filter (fun other => (fillOf other).Ties (fillOf item))
    = items.filter fun other => (fillOf other).Ties (fillOf item)

section Sorted

variable {α κ : Type} {fillOf : α → Fill} {items others sorted sorted' : List α}

/-- A list is known from its keys and from what it has under each key. -/
theorem eq_of_keys_eq [DecidableEq κ] {key : α → κ} (hkeys : items.map key = others.map key)
    (hgroups : ∀ a ∈ items, items.filter (key · = key a) = others.filter (key · = key a)) : items = others := by
  induction items generalizing others with
  | nil => exact (List.map_eq_nil_iff.1 hkeys.symm).symm
  | cons a rest ih =>
    obtain ⟨b, rest', rfl, hkey, hrest⟩ := List.map_eq_cons_iff.1 hkeys.symm
    have hfirst := hgroups a List.mem_cons_self
    rw [List.filter_cons_of_pos (by simp), List.filter_cons_of_pos (by simp [hkey]), List.cons.injEq] at hfirst
    obtain ⟨rfl, -⟩ := hfirst
    refine congrArg (a :: ·) (ih hrest.symm fun c hc => ?_)
    have hgroup := hgroups c (List.mem_cons_of_mem a hc)
    by_cases hown : key a = key c
    · rw [List.filter_cons_of_pos (by simpa using hown), List.filter_cons_of_pos (by simpa using hown)] at hgroup
      exact List.tail_eq_of_cons_eq hgroup
    · rwa [List.filter_cons_of_neg (by simpa using hown), List.filter_cons_of_neg (by simpa using hown)] at hgroup

/-- Items in order have the same keys place by place, however they were listed. -/
theorem keys_eq_of_inOrder
    (h : sorted.Pairwise fun a b => (fillOf a).Precedes (fillOf b) ∨ (fillOf a).Ties (fillOf b))
    (h' : sorted'.Pairwise fun a b => (fillOf a).Precedes (fillOf b) ∨ (fillOf a).Ties (fillOf b))
    (hperm : sorted.Perm sorted') :
    sorted.map (fun item => (fillOf item).moment) = sorted'.map fun item => (fillOf item).moment := by
  simp only [← Fill.isLE_iff] at h h'
  have hmoments := moments_eq_of_perm (List.pairwise_map.2 h) (List.pairwise_map.2 h') (hperm.map fillOf)
  rwa [List.map_map, List.map_map] at hmoments

/-- There is only one way to sort stably. -/
theorem IsStablySorted.unique (h : IsStablySorted fillOf items sorted) (h' : IsStablySorted fillOf items sorted') :
    sorted = sorted' := by
  refine eq_of_keys_eq (keys_eq_of_inOrder h.inOrder h'.inOrder (h.perm.trans h'.perm.symm)) fun item _ => ?_
  simpa only [Fill.ties_iff] using (h.stable item).trans (h'.stable item).symm

/-- What ties is in order as it is, so sorting leaves it alone. -/
theorem filter_chronologicalBy (fillOf : α → Fill) (items : List α) (item : α) :
    (chronologicalBy fillOf items).filter (fun other => (fillOf other).Ties (fillOf item))
      = items.filter fun other => (fillOf other).Ties (fillOf item) := by
  have htied : (items.filter fun other => (fillOf other).Ties (fillOf item)).Pairwise
      fun a b => notAfter fillOf a b = true := by
    refine List.pairwise_iff_forall_sublist.2 fun {a b} hsub => ?_
    have ha := of_decide_eq_true (List.mem_filter.1 (hsub.subset List.mem_cons_self)).2
    have hb := of_decide_eq_true (List.mem_filter.1 (hsub.subset (List.mem_cons_of_mem a List.mem_cons_self))).2
    rw [notAfter, (Fill.ties_iff.1 ha).trans (Fill.ties_iff.1 hb).symm]
    simp
  rw [chronologicalBy_eq, filter_mergeSort (notAfter_trans fillOf) (notAfter_total fillOf)]
  exact List.mergeSort_of_pairwise htied

theorem isStablySorted_chronologicalBy (fillOf : α → Fill) (items : List α) :
    IsStablySorted fillOf items (chronologicalBy fillOf items) :=
  ⟨List.mergeSort_perm _ _, (inOrder_chronologicalBy fillOf items).imp Fill.isLE_iff.1,
    filter_chronologicalBy fillOf items⟩

/-- What comes first of one time is all that the sort takes from the order of a list. -/
theorem chronological_congr {fills fills' : List Fill} (hperm : fills.Perm fills')
    (h : ∀ time, fills.filter (·.time = time) = fills'.filter (·.time = time)) :
    chronological fills = chronological fills' := by
  have hstable := isStablySorted_chronologicalBy id fills
  have hstable' := isStablySorted_chronologicalBy id fills'
  refine hstable.unique ⟨hstable'.perm.trans hperm.symm, hstable'.inOrder, fun item => (hstable'.stable item).trans ?_⟩
  have hnarrow : ∀ listed : List Fill, listed.filter (fun other => (id other).Ties (id item))
      = (listed.filter (·.time = item.time)).filter fun other => (id other).Ties (id item) := by
    intro listed
    rw [List.filter_filter]
    refine List.filter_congr fun other _ => ?_
    rw [Bool.eq_iff_iff, Bool.and_eq_true, decide_eq_true_eq, decide_eq_true_eq]
    exact ⟨fun hties => ⟨hties, Int64.toInt_inj.1 hties.time⟩, fun hboth => hboth.1⟩
  rw [hnarrow, ← h, ← hnarrow]

/-- The sort by fills is the stable one, and two orders of the same items are sorted to the same keys. -/
theorem chronologicalBy_stable (fillOf : α → Fill) (items : List α) :
    (∀ sorted, IsStablySorted fillOf items sorted ↔ sorted = chronologicalBy fillOf items) ∧
      ∀ others, items.Perm others → List.Forall₂ (fun a b => (fillOf a).Ties (fillOf b))
        (chronologicalBy fillOf items) (chronologicalBy fillOf others) := by
  have hstable := isStablySorted_chronologicalBy fillOf items
  refine ⟨fun sorted => ⟨fun h => h.unique hstable, ?_⟩, fun others hperm => ?_⟩
  · rintro rfl
    exact hstable
  · have hstable' := isStablySorted_chronologicalBy fillOf others
    have hkeys := keys_eq_of_inOrder hstable.inOrder hstable'.inOrder
      (hstable.perm.trans (hperm.trans hstable'.perm.symm))
    rw [← List.forall₂_eq_eq_eq, List.forall₂_map_left_iff, List.forall₂_map_right_iff] at hkeys
    exact hkeys.imp fun a b hsame => Fill.ties_iff.2 hsame

def plainPurchase : Fill :=
  ⟨"venue", "A-B", "run", .buy, .hundred, .one, .free, 1000, none, none⟩

/-- A sale of the same moment, its price written with other places. -/
def plainSale : Fill :=
  { plainPurchase with side := .sell, price := (Decimal.ofParts? false 10000 2).getD .zero }

theorem chronologicalBy_stable_tied :
    [plainPurchase, plainSale].Perm [plainSale, plainPurchase] ∧
      chronologicalBy id [plainPurchase, plainSale] ≠ chronologicalBy id [plainSale, plainPurchase] ∧
      List.Forall₂ (fun a b => a.Ties b) (chronologicalBy id [plainPurchase, plainSale])
        (chronologicalBy id [plainSale, plainPurchase]) := by
  have hpurchaseFirst : chronological [plainPurchase, plainSale] = [plainPurchase, plainSale] :=
    chronological_of_pairwise (by decide +kernel)
  have hsaleFirst : chronological [plainSale, plainPurchase] = [plainSale, plainPurchase] :=
    chronological_of_pairwise (by decide +kernel)
  refine ⟨.swap _ _ _, fun hsame => ?_, (chronologicalBy_stable id _).2 _ (.swap _ _ _)⟩
  have hlists : [plainPurchase, plainSale] = [plainSale, plainPurchase] :=
    hpurchaseFirst.symm.trans (hsame.trans hsaleFirst)
  exact absurd hlists (by decide +kernel)

end Sorted

end TradeReport
