import TradeReport.Proofs.Chronology
/-!
# The newest and the oldest

Of items with times, the newest is the last one of the latest time, and the oldest the first one of the earliest. Which
ones they are depends on the items of each time alone (`isNewest_congr`), so they are the ends of any list that has the
items in order of time and those of one time as they were (`isNewest_of_getLast`).
-/

namespace TradeReport

variable {α β : Type} {time : α → Int64} {items items' : List α} {a : α}

/-- The last of the items with the latest time. -/
@[mk_iff]
structure IsNewest (time : α → Int64) (items : List α) (a : α) : Prop where
  latest : ∀ b ∈ items, (time b).toInt ≤ (time a).toInt
  last : (items.filter (time · = time a)).getLast? = some a

/-- The first of the items with the earliest time. -/
@[mk_iff]
structure IsOldest (time : α → Int64) (items : List α) (a : α) : Prop where
  earliest : ∀ b ∈ items, (time a).toInt ≤ (time b).toInt
  first : (items.filter (time · = time a)).head? = some a

/-! ## Items of each time -/

theorem mem_of_filter_time (h : ∀ t, items.filter (time · = t) = items'.filter (time · = t)) (ha : a ∈ items) :
    a ∈ items' := by
  have hkept : a ∈ items.filter (time · = time a) := List.mem_filter.2 ⟨ha, by simp⟩
  rw [h] at hkept
  exact List.mem_of_mem_filter hkept

private theorem mem_iff_of_filter_time (h : ∀ t, items.filter (time · = t) = items'.filter (time · = t)) (a : α) :
    a ∈ items ↔ a ∈ items' :=
  ⟨mem_of_filter_time h, mem_of_filter_time fun t => (h t).symm⟩

theorem isNewest_congr (h : ∀ t, items.filter (time · = t) = items'.filter (time · = t)) :
    IsNewest time items a ↔ IsNewest time items' a := by
  rw [isNewest_iff, isNewest_iff, h]
  simp only [mem_iff_of_filter_time h]

theorem isOldest_congr (h : ∀ t, items.filter (time · = t) = items'.filter (time · = t)) :
    IsOldest time items a ↔ IsOldest time items' a := by
  rw [isOldest_iff, isOldest_iff, h]
  simp only [mem_iff_of_filter_time h]

/-! ## In order of time -/

section Ascending

variable (h : items.Pairwise fun a b => (time a).toInt ≤ (time b).toInt)
include h

theorem isNewest_of_getLast (hlast : items.getLast? = some a) : IsNewest time items a := by
  have hlatest := fun b (hb : b ∈ items) => rel_last_of_pairwise h (fun c => le_refl (time c).toInt) hlast hb
  refine ⟨hlatest, ?_⟩
  obtain ⟨earlier, rfl⟩ := List.getLast?_eq_some_iff.1 hlast
  rw [List.filter_append, List.filter_cons_of_pos (by simp), List.filter_nil, List.getLast?_concat]

theorem isOldest_of_head (hfirst : items.head? = some a) : IsOldest time items a := by
  obtain ⟨later, rfl⟩ := List.head?_eq_some_iff.1 hfirst
  refine ⟨fun b hb => ?_, by rw [List.filter_cons_of_pos (by simp), List.head?_cons]⟩
  rcases List.mem_cons.1 hb with rfl | hlater
  · exact le_rfl
  · exact (List.pairwise_cons.1 h).1 b hlater

end Ascending

/-! ## Sorted by time -/

section Sorted

variable (time : α → Int64)

private theorem time_le_trans (a b c : α) (hab : decide ((time a).toInt ≤ (time b).toInt) = true)
    (hbc : decide ((time b).toInt ≤ (time c).toInt) = true) : decide ((time a).toInt ≤ (time c).toInt) = true :=
  decide_eq_true ((of_decide_eq_true hab).trans (of_decide_eq_true hbc))

private theorem time_le_total (a b : α) :
    (decide ((time a).toInt ≤ (time b).toInt) || decide ((time b).toInt ≤ (time a).toInt)) = true := by
  rw [Bool.or_eq_true, decide_eq_true_eq, decide_eq_true_eq]
  exact le_total _ _

theorem ascending_mergeSort_time (items : List α) :
    (items.mergeSort fun a b => decide ((time a).toInt ≤ (time b).toInt)).Pairwise
      fun a b => (time a).toInt ≤ (time b).toInt :=
  (List.pairwise_mergeSort (time_le_trans time) (time_le_total time) items).imp of_decide_eq_true

theorem filter_mergeSort_time (keep : α → Bool) (items : List α) :
    (items.mergeSort fun a b => decide ((time a).toInt ≤ (time b).toInt)).filter keep
      = (items.filter keep).mergeSort fun a b => decide ((time a).toInt ≤ (time b).toInt) :=
  filter_mergeSort (time_le_trans time) (time_le_total time) keep items

theorem filter_time_mergeSort (items : List α) (t : Int64) :
    (items.mergeSort fun a b => decide ((time a).toInt ≤ (time b).toInt)).filter (time · = t)
      = items.filter (time · = t) := by
  rw [filter_mergeSort_time]
  refine List.mergeSort_of_pairwise (List.pairwise_of_forall_mem_list fun a ha b hb => ?_)
  rw [of_decide_eq_true (List.mem_filter.1 ha).2, of_decide_eq_true (List.mem_filter.1 hb).2]
  exact decide_eq_true le_rfl

end Sorted

/-! ## Items that are written differently -/

variable {f : α → β} {timeOf : β → Int64}

theorem filter_time_map (htime : ∀ a, timeOf (f a) = time a) (items : List α) (t : Int64) :
    (items.map f).filter (timeOf · = t) = (items.filter (time · = t)).map f := by
  rw [List.filter_map]
  refine congrArg (List.map f) (List.filter_congr fun a _ => ?_)
  rw [Function.comp_apply, htime]

/-- What stands at an end of the written items of one time was written for what stands there before. -/
private theorem exists_of_end_map {pick : List α → Option α} {pickOf : List β → Option β}
    (hpick : ∀ items, pickOf (items.map f) = (pick items).map f) (htime : ∀ a, timeOf (f a) = time a) {b : β}
    (h : pickOf ((items.map f).filter (timeOf · = timeOf b)) = some b) :
    ∃ a, pick (items.filter (time · = time a)) = some a ∧ b = f a := by
  rw [filter_time_map htime, hpick, Option.map_eq_some_iff] at h
  obtain ⟨a, ha, rfl⟩ := h
  rw [htime] at ha
  exact ⟨a, ha, rfl⟩

theorem IsNewest.of_map (htime : ∀ a, timeOf (f a) = time a) {b : β} (h : IsNewest timeOf (items.map f) b) :
    ∃ a, IsNewest time items a ∧ b = f a := by
  obtain ⟨a, hlast, rfl⟩ := exists_of_end_map (fun _ => List.getLast?_map) htime h.last
  exact ⟨a, ⟨by simpa only [List.forall_mem_map, htime] using h.latest, hlast⟩, rfl⟩

theorem IsOldest.of_map (htime : ∀ a, timeOf (f a) = time a) {b : β} (h : IsOldest timeOf (items.map f) b) :
    ∃ a, IsOldest time items a ∧ b = f a := by
  obtain ⟨a, hfirst, rfl⟩ := exists_of_end_map (fun _ => List.head?_map) htime h.first
  exact ⟨a, ⟨by simpa only [List.forall_mem_map, htime] using h.earliest, hfirst⟩, rfl⟩

end TradeReport
