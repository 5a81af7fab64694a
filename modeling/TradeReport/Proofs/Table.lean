import Mathlib.Algebra.BigOperators.Group.List.Basic
import Mathlib.Data.List.Nodup
import Mathlib.Data.List.Perm.Basic
import TradeReport.Table
/-!
# What a table holds

Under each key a table holds what was put there last. Since the keys ascend, the members of the key list
determine it (`keys_eq_of_mem_iff`). The table of a list has all its entries when no two of them have one key
(`perm_ofList`), and only then as many (`length_ofList_iff`). A grouped list has, under each key, its members with that key
(`getD_get?_group`), and no other keys (`mem_keys_group`). A sum over the entries changes by what the new value adds in
place of the old one (`Entries.sum_put_add`).
-/

namespace TradeReport

variable {κ α : Type} [Ord κ] [Std.LawfulEqOrd κ] {key other : κ} {value : α}

theorem Entries.get?_put_self (entries : List (κ × α)) :
    Entries.get? key (Entries.put key value entries) = some value := by
  induction entries with
  | nil => simp [Entries.put, Entries.get?]
  | cons entry rest ih =>
    unfold Entries.put
    split
    · simp [Entries.get?]
    · simp [Entries.get?]
    · rename_i hkey
      rw [Entries.get?, if_neg (by simp [hkey]), ih]

theorem Entries.get?_put_ne (hother : other ≠ key) (entries : List (κ × α)) :
    Entries.get? other (Entries.put key value entries) = Entries.get? other entries := by
  have hne : compare other key ≠ .eq := fun h => hother (Std.LawfulEqOrd.eq_of_compare h)
  induction entries with
  | nil => simp [Entries.put, Entries.get?, hne]
  | cons entry rest ih =>
    unfold Entries.put
    split
    · rw [Entries.get?, if_neg hne]
    · rename_i hkey
      obtain rfl := Std.LawfulEqOrd.eq_of_compare hkey
      rw [Entries.get?, if_neg hne, Entries.get?, if_neg hne]
    · rw [Entries.get?, Entries.get?, ih]

omit [Std.LawfulEqOrd κ] in
theorem Entries.get?_eq_none {entries : List (κ × α)} (h : ∀ entry ∈ entries, compare key entry.1 = .lt) :
    Entries.get? key entries = none := by
  induction entries with
  | nil => rfl
  | cons entry rest ih =>
    rw [List.forall_mem_cons] at h
    rw [get?, h.1, if_neg (by decide)]
    exact ih h.2

/-- What was under the key leaves a sum, and the new value joins it. -/
theorem Entries.sum_put_add [Std.TransOrd κ] {M : Type} [AddCommMonoid M] (key : κ) (value : α)
    (figure : κ × α → M) {entries : List (κ × α)} (h : Ascending entries) :
    ((put key value entries).map figure).sum + ((get? key entries).map fun old => figure (key, old)).getD 0
      = (entries.map figure).sum + figure (key, value) := by
  induction entries with
  | nil => simp [put, get?]
  | cons entry rest ih =>
    obtain ⟨hhead, hrest⟩ := List.pairwise_cons.1 h
    unfold Entries.put
    cases hkey : compare key entry.1 with
    | lt =>
      have hlater : ∀ other ∈ rest, compare key other.1 = .lt :=
        fun other hother => Std.TransCmp.lt_trans hkey (hhead other hother)
      have hnone : get? key (entry :: rest) = none := get?_eq_none (List.forall_mem_cons.2 ⟨hkey, hlater⟩)
      rw [hnone, List.map_cons, List.sum_cons, add_comm (figure (key, value))]
      exact add_zero _
    | eq =>
      obtain rfl := Std.LawfulEqOrd.eq_of_compare hkey
      rw [get?, if_pos hkey, List.map_cons, List.sum_cons, List.map_cons, List.sum_cons, Option.map_some,
        Option.getD_some, add_right_comm, add_comm (figure (entry.1, value)), add_right_comm]
    | gt =>
      rw [get?, if_neg (by simp [hkey]), List.map_cons, List.sum_cons, List.map_cons, List.sum_cons, add_assoc,
        ih hrest, add_assoc]

theorem Entries.mem_iff_get? {entries : List (κ × α)} (h : Ascending entries) :
    (key, value) ∈ entries ↔ Entries.get? key entries = some value := by
  induction entries with
  | nil => simp [Entries.get?]
  | cons entry rest ih =>
    obtain ⟨hhead, hrest⟩ := List.pairwise_cons.1 h
    rw [List.mem_cons, Entries.get?, ih hrest]
    by_cases hkey : compare key entry.1 = .eq
    · obtain rfl := Std.LawfulEqOrd.eq_of_compare hkey
      rw [if_pos hkey, Option.some.injEq]
      constructor
      · intro h
        rcases h with hentry | hmem
        · rw [← hentry]
        · have hlt := hhead _ ((ih hrest).2 hmem)
          simp at hlt
      · rintro rfl
        exact .inl rfl
    · rw [if_neg hkey]
      constructor
      · intro h
        rcases h with rfl | hmem
        · simp at hkey
        · exact hmem
      · exact .inr

namespace Table

variable [Std.TransOrd κ] {table : Table κ α}

theorem get?_put_self : (table.put key value).get? key = some value :=
  Entries.get?_put_self table.entries

theorem get?_put_ne (hother : other ≠ key) : (table.put key value).get? other = table.get? other :=
  Entries.get?_put_ne hother table.entries

omit [Std.TransOrd κ] in
theorem mem_entries_iff : (key, value) ∈ table.entries ↔ table.get? key = some value :=
  Entries.mem_iff_get? table.ascending

omit [Std.TransOrd κ] in
theorem mem_keys_iff : key ∈ table.keys ↔ ∃ value, table.get? key = some value := by
  constructor
  · intro h
    obtain ⟨entry, hentry, rfl⟩ := List.mem_map.1 h
    exact ⟨entry.2, mem_entries_iff.1 hentry⟩
  · intro h
    obtain ⟨value, hvalue⟩ := h
    exact List.mem_map.2 ⟨(key, value), mem_entries_iff.2 hvalue, rfl⟩

omit [Std.TransOrd κ] in
theorem mem_entries_erase {entry : κ × α} :
    entry ∈ (table.erase key).entries ↔ entry ∈ table.entries ∧ entry.1 ≠ key := by
  have hne : (compare key entry.1 != .eq) = true ↔ entry.1 ≠ key := by
    rw [bne_iff_ne, Ne, Std.LawfulEqOrd.compare_eq_iff_eq, eq_comm]
  rw [← hne]
  exact List.mem_filter

omit [Std.TransOrd κ] in
theorem get?_erase_self : (table.erase key).get? key = none := by
  refine Option.eq_none_iff_forall_ne_some.2 fun value hvalue => ?_
  exact (mem_entries_erase.1 (mem_entries_iff.2 hvalue)).2 rfl

omit [Std.TransOrd κ] in
theorem get?_erase_ne (hother : other ≠ key) : (table.erase key).get? other = table.get? other := by
  ext value
  rw [← mem_entries_iff, mem_entries_erase, mem_entries_iff]
  exact and_iff_left hother

theorem mem_keys_put : other ∈ (table.put key value).keys ↔ other = key ∨ other ∈ table.keys := by
  rw [mem_keys_iff, mem_keys_iff]
  by_cases hother : other = key
  · subst hother
    simp [get?_put_self]
  · simp [get?_put_ne hother, hother]

omit [Std.LawfulEqOrd κ] [Std.TransOrd κ] in
theorem keys_ascending (table : Table κ α) : table.keys.Pairwise fun a b => compare a b = .lt :=
  List.pairwise_map.2 table.ascending

omit [Std.TransOrd κ] in
theorem nodup_of_ascending {keys : List κ} (h : keys.Pairwise fun a b => compare a b = .lt) : keys.Nodup := by
  refine h.imp fun {a b} hlt hab => ?_
  rw [hab] at hlt
  simp at hlt

theorem keys_eq_of_mem_iff {β : Type} {a : Table κ α} {b : Table κ β}
    (h : ∀ key, key ∈ a.keys ↔ key ∈ b.keys) : a.keys = b.keys := by
  have hperm := (List.perm_ext_iff_of_nodup (nodup_of_ascending a.keys_ascending)
    (nodup_of_ascending b.keys_ascending)).2 h
  refine hperm.eq_of_pairwise (fun x y _ _ hxy hyx => ?_) a.keys_ascending b.keys_ascending
  have hlt := Std.TransCmp.lt_trans hxy hyx
  simp at hlt

omit [Std.TransOrd κ] in
theorem nodup_keys (table : Table κ α) : table.keys.Nodup :=
  nodup_of_ascending table.keys_ascending

omit [Std.TransOrd κ] in
theorem nodup_entries (table : Table κ α) : table.entries.Nodup :=
  List.Nodup.of_map _ table.nodup_keys

theorem eq_of_get?_eq {a b : Table κ α} (h : ∀ key, a.get? key = b.get? key) : a = b := by
  have hmem : ∀ entry, entry ∈ a.entries ↔ entry ∈ b.entries := by
    rintro ⟨key, value⟩
    rw [mem_entries_iff, mem_entries_iff, h]
  have hperm := (List.perm_ext_iff_of_nodup a.nodup_entries b.nodup_entries).2 hmem
  refine ext (hperm.eq_of_pairwise (fun x y _ _ hxy hyx => ?_) a.ascending b.ascending)
  have hlt := Std.TransCmp.lt_trans hxy hyx
  simp at hlt

/-! ## Lists of keys -/

private theorem mem_keys_foldl_put (entries : List (κ × α)) (table : Table κ α) :
    key ∈ (entries.foldl (fun table entry => table.put entry.1 entry.2) table).keys
      ↔ key ∈ table.keys ∨ key ∈ entries.map (·.1) := by
  induction entries generalizing table with
  | nil => simp
  | cons entry rest ih =>
    rw [List.foldl_cons, ih, mem_keys_put, List.map_cons, List.mem_cons, or_assoc, or_left_comm]

theorem mem_distinct {keys : List κ} : key ∈ distinct keys ↔ key ∈ keys := by
  rw [distinct, ofList, mem_keys_foldl_put]
  simp [Table.keys, empty]

omit [Std.LawfulEqOrd κ] in
theorem distinct_ascending (keys : List κ) : (distinct keys).Pairwise fun a b => compare a b = .lt :=
  keys_ascending _

/-! ## Lists of entries -/

theorem mem_keys_ofList {entries : List (κ × α)} : key ∈ (ofList entries).keys ↔ key ∈ entries.map (·.1) := by
  rw [ofList, mem_keys_foldl_put]
  simp [keys, empty]

private theorem get?_foldl_put_of_notMem {entries : List (κ × α)} (h : key ∉ entries.map (·.1)) (table : Table κ α) :
    (entries.foldl (fun table entry => table.put entry.1 entry.2) table).get? key = table.get? key := by
  induction entries generalizing table with
  | nil => rfl
  | cons entry rest ih =>
    rw [List.map_cons, List.mem_cons, not_or] at h
    rw [List.foldl_cons, ih h.2, get?_put_ne h.1]

private theorem get?_foldl_put_of_mem {entries : List (κ × α)} (hnodup : (entries.map (·.1)).Nodup)
    (hmem : (key, value) ∈ entries) (table : Table κ α) :
    (entries.foldl (fun table entry => table.put entry.1 entry.2) table).get? key = some value := by
  induction entries generalizing table with
  | nil => cases hmem
  | cons entry rest ih =>
    rw [List.map_cons, List.nodup_cons] at hnodup
    rw [List.foldl_cons]
    rcases List.mem_cons.1 hmem with rfl | hrest
    · rw [get?_foldl_put_of_notMem hnodup.1, get?_put_self]
    · exact ih hnodup.2 hrest _

/-- When no two entries of a list have one key, its table holds each of them. -/
theorem get?_ofList_of_mem {entries : List (κ × α)} (hnodup : (entries.map (·.1)).Nodup)
    (hmem : (key, value) ∈ entries) : (ofList entries).get? key = some value :=
  get?_foldl_put_of_mem hnodup hmem empty

theorem perm_ofList {entries : List (κ × α)} (hnodup : (entries.map (·.1)).Nodup) :
    (ofList entries).entries.Perm entries := by
  refine (List.perm_ext_iff_of_nodup (nodup_entries _) (hnodup.of_map _)).2 ?_
  rintro ⟨key, value⟩
  rw [mem_entries_iff]
  constructor
  · intro hvalue
    obtain ⟨entry, hentry, rfl⟩ := List.mem_map.1 (mem_keys_ofList.1 (mem_keys_iff.2 ⟨value, hvalue⟩))
    obtain rfl := Option.some.inj (hvalue.symm.trans (get?_ofList_of_mem hnodup hentry))
    exact hentry
  · exact get?_ofList_of_mem hnodup

/-- Of entries with one key only the last stays, so a table is as long as its list when all keys are different. -/
theorem length_ofList_iff {entries : List (κ × α)} :
    (ofList entries).entries.length = entries.length ↔ (entries.map (·.1)).Nodup := by
  constructor
  · intro hlength
    have hsub : (ofList entries).keys.Subperm (entries.map (·.1)) :=
      List.subperm_of_subset (nodup_keys _) fun _ hkey => mem_keys_ofList.1 hkey
    have hperm : (ofList entries).keys.Perm (entries.map (·.1)) :=
      hsub.perm_of_length_le (by rw [keys, List.length_map, List.length_map]; exact Nat.le_of_eq hlength.symm)
    exact hperm.nodup_iff.1 (nodup_keys _)
  · exact fun hnodup => (perm_ofList hnodup).length_eq

/-! ## Groups -/

variable {keyOf : α → κ}

private theorem getD_get?_foldl_group [DecidableEq κ] (members : List α) (table : Table κ (List α)) :
    ((members.foldl
        (fun table member => table.put (keyOf member) ((table.get? (keyOf member)).getD [] ++ [member]))
        table).get? key).getD []
      = (table.get? key).getD [] ++ members.filter (keyOf · = key) := by
  induction members generalizing table with
  | nil => simp
  | cons member rest ih =>
    rw [List.foldl_cons, ih]
    by_cases hkey : keyOf member = key
    · rw [hkey, get?_put_self, Option.getD_some, List.filter_cons_of_pos (by simpa using hkey),
        List.append_assoc]
      rfl
    · rw [get?_put_ne (Ne.symm hkey), List.filter_cons_of_neg (by simpa using hkey)]

theorem getD_get?_group [DecidableEq κ] (members : List α) :
    ((group keyOf members).get? key).getD [] = members.filter (keyOf · = key) :=
  getD_get?_foldl_group members empty

private theorem mem_keys_foldl_group (members : List α) (table : Table κ (List α)) :
    key ∈ (members.foldl
        (fun table member => table.put (keyOf member) ((table.get? (keyOf member)).getD [] ++ [member]))
        table).keys
      ↔ key ∈ table.keys ∨ ∃ member ∈ members, keyOf member = key := by
  induction members generalizing table with
  | nil => simp
  | cons member rest ih =>
    rw [List.foldl_cons, ih, mem_keys_put, List.exists_mem_cons_iff, or_assoc, or_left_comm, eq_comm (a := key)]

theorem eq_filter_of_mem_group [DecidableEq κ] {members found : List α}
    (h : (key, found) ∈ (group keyOf members).entries) : found = members.filter (keyOf · = key) := by
  rw [← getD_get?_group, mem_entries_iff.1 h, Option.getD_some]

theorem mem_keys_group (members : List α) :
    key ∈ (group keyOf members).keys ↔ ∃ member ∈ members, keyOf member = key := by
  rw [group, mem_keys_foldl_group members empty]
  simp [keys, empty]

end Table

end TradeReport
