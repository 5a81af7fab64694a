import TradeReport.Proofs.FullReport
/-!
# The row of one run

Of the rows of a full report only one can be of a given run, and it is known from the fills of that run and from what
the source knows of its balances (`filter_rows`, `filter_rows_congr`). It is there as soon as the last of these fills
has a readable symbol (`exists_row_of_last`).
-/

namespace TradeReport

namespace Table

variable {κ α : Type} [Ord κ] [Std.LawfulEqOrd κ] [DecidableEq κ] {key : κ} {keyOf : α → κ}

theorem filter_entries (table : Table κ α) (key : κ) :
    table.entries.filter (·.1 = key) = (table.get? key).toList.map (key, ·) := by
  obtain ⟨entries, hascending⟩ := table
  unfold get?
  induction entries with
  | nil => rfl
  | cons entry rest ih =>
    obtain ⟨hhead, hrest⟩ := List.pairwise_cons.1 hascending
    rw [Entries.get?]
    by_cases hkey : key = entry.1
    · subst hkey
      have hnone : rest.filter (·.1 = entry.1) = [] := by
        rw [List.filter_eq_nil_iff]
        intro other hother hsame
        have hlt := hhead other hother
        rw [of_decide_eq_true hsame] at hlt
        simp at hlt
      rw [if_pos (by simp), List.filter_cons_of_pos (by simp), hnone]
      rfl
    · have hne : compare key entry.1 ≠ .eq := fun h => hkey (Std.LawfulEqOrd.eq_of_compare h)
      rw [if_neg hne, List.filter_cons_of_neg (by simpa using Ne.symm hkey), ih hrest]

theorem get?_group [Std.TransOrd κ] (members : List α) :
    (group keyOf members).get? key
      = if members.filter (keyOf · = key) = [] then none else some (members.filter (keyOf · = key)) := by
  have hgroup : ((group keyOf members).get? key).getD [] = members.filter (keyOf · = key) := getD_get?_group members
  have hkeys : key ∈ (group keyOf members).keys ↔ members.filter (keyOf · = key) ≠ [] := by
    rw [mem_keys_group, Ne, List.filter_eq_nil_iff]
    simp
  rw [mem_keys_iff] at hkeys
  cases hfound : (group keyOf members).get? key with
  | none =>
    rw [hfound] at hkeys
    rw [if_pos (by simpa using hkeys)]
  | some own =>
    rw [hfound, Option.getD_some] at hgroup
    rw [if_neg (hkeys.1 ⟨own, hfound⟩), hgroup]

end Table

namespace FullReport

variable {source : TradeSource} {window : Window} {fills : List Fill} {run : String}

section Rows

variable {made : List PortfolioRow} (h : rows source (groupByStrategy fills).entries = .ok (.ok made))
include h

theorem filter_rows (run : String) :
    made.filter (·.strategy = run)
      = if fillsOf run fills = [] then [] else (rowOf source (run, fillsOf run fills)).toList := by
  have hown : ((groupByStrategy fills).entries.filter (·.1 = run)).filterMap (rowOf source)
      = made.filter (·.strategy = run) := by
    rw [(rows_eq_filterMap h).2, List.filter_filterMap, List.filterMap_filter]
    refine List.filterMap_congr fun group _ => ?_
    cases hrow : rowOf source group with
    | none => simp
    | some row => simp [Option.filter, strategy_of_rowOf hrow]
  rw [← hown, Table.filter_entries, groupByStrategy, Table.get?_group, ← fillsOf]
  split
  · rfl
  · cases hrow : rowOf source (run, fillsOf run fills) <;> simp [hrow]

theorem exists_bounds_of_fills (hne : fillsOf run fills ≠ []) : ∃ bounds, source.balanceBounds run = .ok bounds := by
  have hrow := (rows_eq_filterMap h).1 _ (mem_entries_groupByStrategy hne)
  cases hbounds : source.balanceBounds run with
  | error fault =>
    obtain ⟨fault', hfault⟩ : ∃ fault', row? source (run, fillsOf run fills) = .error fault' := row?_of_fault hbounds
    cases hrow.symm.trans hfault
  | ok bounds => exact ⟨bounds, rfl⟩

theorem exists_row_of_last {last : Fill} {pair : Pair}
    (hlast : (chronological (fillsOf run fills)).getLast? = some last)
    (hpair : Pair.ofSymbol? last.symbol = some pair) :
    ∃ row bounds, made.filter (·.strategy = run) = [row] ∧
      PortfolioRow.compute run (fillsOf run fills) bounds = .ok row := by
  have hne : fillsOf run fills ≠ [] :=
    List.ne_nil_of_mem ((chronological_perm _).mem_iff.1 (List.mem_of_getLast? hlast))
  obtain ⟨bounds, hbounds⟩ := exists_bounds_of_fills h hne
  have hcases : (∃ row, PortfolioRow.compute run (fillsOf run fills) bounds = .ok row) ∨
      ∃ cause, PortfolioRow.compute run (fillsOf run fills) bounds = .error (.overflow cause) :=
    PortfolioRow.exists_of_last hlast hpair
  rcases hcases with ⟨row, hcompute⟩ | ⟨cause, hcompute⟩
  · refine ⟨row, bounds, ?_, hcompute⟩
    rw [filter_rows h, if_neg hne, (rowOf_eq_some_iff hbounds).2 hcompute]
    rfl
  · have hrow := (rows_eq_filterMap h).1 _ (mem_entries_groupByStrategy hne)
    obtain ⟨_, hoverflow⟩ := row?_overflows_iff.2 ⟨bounds, cause, hbounds, hcompute⟩
    cases hrow.symm.trans hoverflow

/-- Two reports have the same row of a run when they are made from the same fills and balances of it. -/
theorem filter_rows_congr {source' : TradeSource} {fills' : List Fill} {made' : List PortfolioRow}
    (h' : rows source' (groupByStrategy fills').entries = .ok (.ok made'))
    (hfills : fillsOf run fills = fillsOf run fills')
    (hbounds : Agree (source.balanceBounds run) (source'.balanceBounds run)) :
    made.filter (·.strategy = run) = made'.filter (·.strategy = run) := by
  rw [filter_rows h, filter_rows h', ← hfills]
  by_cases hne : fillsOf run fills = []
  · rw [if_pos hne, if_pos hne]
  · obtain ⟨bounds, hread⟩ := exists_bounds_of_fills h hne
    obtain ⟨bounds', hread'⟩ := exists_bounds_of_fills h' (hfills ▸ hne)
    have hsame : source'.balanceBounds run = .ok bounds := by rw [hread', hbounds _ _ hread hread']
    rw [if_neg hne, if_neg hne]
    refine congrArg Option.toList (Option.ext fun row => ?_)
    rw [rowOf_eq_some_iff hread, rowOf_eq_some_iff hsame]

end Rows

end FullReport

end TradeReport
