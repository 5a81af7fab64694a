import TradeReport.Proofs.Outcome
import TradeReport.Proofs.Table
import TradeReport.Store
/-!
# What a store holds

A store holds the records of its log files: of every file with the name of a log that the folder lists and that is
there, each taken once (`exists_logged`). What is read for a question is those records in another order.
-/

namespace TradeReport

/-- The characters of a text in parts are those of the parts. To compute them part by part is much less work. -/
theorem Content.ofText_append (a b : String) : Content.ofText (a ++ b) = .text (a.toList ++ b.toList) := by
  rw [Content.ofText, String.toList_append]

theorem Disk.mem_names_iff {disk : Disk} {written name : String} {names : List String} {folder : Path}
    (hplace : disk.place written = .ok folder) (h : disk.names written = .ok names) :
    name ∈ names ↔ ∃ below, folder ++ name :: below ∈ disk.nodes.keys := by
  obtain ⟨path, hpath, h⟩ := bind_eq_ok.1 h
  obtain rfl : folder = path := Except.ok.inj (hplace.symm.trans hpath)
  obtain ⟨_, -, h⟩ := bind_eq_ok.1 h
  rw [← pure_eq_ok.1 h, Table.mem_distinct, List.mem_filterMap]
  constructor
  · intro h
    obtain ⟨key, hkey, hname⟩ := h
    rw [Option.ite_none_right_eq_some, List.isPrefixOf_iff_prefix] at hname
    obtain ⟨⟨rest, rfl⟩, hhead⟩ := hname
    rw [List.drop_left] at hhead
    obtain ⟨below, rfl⟩ := List.head?_eq_some_iff.1 hhead
    exact ⟨below, hkey⟩
  · intro h
    obtain ⟨below, hkey⟩ := h
    refine ⟨_, hkey, ?_⟩
    rw [if_pos (List.isPrefixOf_iff_prefix.2 (List.prefix_append _ _)), List.drop_left]
    rfl

theorem Disk.names_ascending {disk : Disk} {written : String} {names : List String}
    (h : disk.names written = .ok names) : names.Pairwise fun a b => compare a b = .lt := by
  obtain ⟨_, -, h⟩ := bind_eq_ok.1 h
  obtain ⟨_, -, h⟩ := bind_eq_ok.1 h
  rw [← pure_eq_ok.1 h]
  exact Table.distinct_ascending _

namespace Store

variable {store : Store} {folder : String} {α : Type} {ofLine? : List Char → Option α}

/-- A folder has a log of that name, which is there under its path. -/
def HasLog (store : Store) (folder name : String) : Prop :=
  isLogName name = true ∧ store.disk.isThere folder = true ∧
    (∃ path below, store.disk.place folder = .ok path ∧ path ++ name :: below ∈ store.disk.nodes.keys) ∧
    store.disk.isThere (joinPath folder name) = true

/-- Files are the logs of a folder when they are all of its logs, each with its text. -/
structure Logged (store : Store) (folder : String) (files : List (String × List Char)) : Prop where
  once : (files.map (·.1)).Pairwise fun a b => compare a b = .lt
  names : ∀ name, name ∈ files.map (·.1) ↔ store.HasLog folder name
  texts : ∀ file ∈ files, store.disk.read (joinPath folder file.1) = .ok file.2

def recordsOf (ofLine? : List Char → Option α) (files : List (String × List Char)) : List α :=
  files.flatMap fun file => Log.records ofLine? file.2

theorem logNames_ascending {names : List String} (h : store.logNames folder = .ok names) :
    names.Pairwise fun a b => compare a b = .lt := by
  unfold logNames at h
  split at h
  · obtain ⟨all, hall, h⟩ := bind_eq_ok.1 h
    rw [← pure_eq_ok.1 h]
    exact (Disk.names_ascending (mapError_eq_ok.1 hall)).filter _
  · rw [← pure_eq_ok.1 h]
    exact .nil

theorem mem_logNames_iff {names : List String} {name : String} (h : store.logNames folder = .ok names)
    (hthere : store.disk.isThere (joinPath folder name) = true) : name ∈ names ↔ store.HasLog folder name := by
  unfold logNames at h
  split at h
  · rename_i hfolder
    obtain ⟨all, hall, h⟩ := bind_eq_ok.1 h
    have hall := mapError_eq_ok.1 hall
    obtain ⟨path, hpath, -⟩ := bind_eq_ok.1 hall
    rw [← pure_eq_ok.1 h, List.mem_filter, Disk.mem_names_iff hpath hall]
    constructor
    · intro h
      obtain ⟨⟨below, hkey⟩, hname⟩ := h
      exact ⟨hname, hfolder, ⟨path, below, hpath, hkey⟩, hthere⟩
    · intro h
      obtain ⟨hname, -, ⟨path', below, hpath', hkey⟩, -⟩ := h
      obtain rfl : path = path' := Except.ok.inj (hpath.symm.trans hpath')
      exact ⟨⟨below, hkey⟩, hname⟩
  · rename_i hfolder
    rw [← pure_eq_ok.1 h]
    constructor
    · intro hname
      cases hname
    · intro h
      obtain ⟨-, hthere, -⟩ := h
      exact absurd hthere hfolder

/-- Files that are there are read, and one that is not there has no records. -/
theorem exists_files_of_mapM {names : List String} {lists : List (List α)}
    (h : (names.mapM fun name => store.readRecords ofLine? (joinPath folder name)) = .ok lists) :
    ∃ files, files.map (·.1) = names.filter (fun name => store.disk.isThere (joinPath folder name)) ∧
      (∀ file ∈ files, store.disk.read (joinPath folder file.1) = .ok file.2) ∧
      lists.flatten = recordsOf ofLine? files := by
  induction names generalizing lists with
  | nil =>
    rw [List.mapM_nil] at h
    rw [← pure_eq_ok.1 h]
    exact ⟨[], rfl, by simp, rfl⟩
  | cons name rest ih =>
    rw [List.mapM_cons] at h
    obtain ⟨records, hrecords, h⟩ := bind_eq_ok.1 h
    obtain ⟨more, hmore, h⟩ := bind_eq_ok.1 h
    obtain ⟨files, hnames, htexts, hflatten⟩ := ih hmore
    rw [← pure_eq_ok.1 h, List.flatten_cons, hflatten]
    unfold readRecords at hrecords
    split at hrecords
    · rename_i hthere
      obtain ⟨text, htext, hrecords⟩ := bind_eq_ok.1 hrecords
      rw [← pure_eq_ok.1 hrecords]
      refine ⟨(name, text) :: files, ?_, ?_, rfl⟩
      · rw [List.map_cons, hnames, List.filter_cons, if_pos hthere]
      · rw [List.forall_mem_cons]
        exact ⟨mapError_eq_ok.1 htext, htexts⟩
    · rename_i hthere
      rw [← pure_eq_ok.1 hrecords]
      refine ⟨files, ?_, htexts, rfl⟩
      rw [hnames, List.filter_cons, if_neg hthere]

/-- What is read from a folder of logs is what its logs hold. -/
theorem exists_logged {names : List String} {records : List α} (hnames : store.logNames folder = .ok names)
    (h : store.readFiles ofLine? folder names = .ok records) :
    ∃ files, store.Logged folder files ∧ records = recordsOf ofLine? files := by
  obtain ⟨lists, hlists, h⟩ := bind_eq_ok.1 h
  obtain ⟨files, hfiles, htexts, hflatten⟩ := exists_files_of_mapM hlists
  rw [← pure_eq_ok.1 h, hflatten]
  refine ⟨files, ⟨?_, fun name => ?_, htexts⟩, rfl⟩
  · rw [hfiles]
    exact (logNames_ascending hnames).filter _
  · rw [hfiles, List.mem_filter]
    constructor
    · intro h
      obtain ⟨hname, hthere⟩ := h
      exact (mem_logNames_iff hnames hthere).1 hname
    · intro hlog
      exact ⟨(mem_logNames_iff hnames hlog.2.2.2).2 hlog, hlog.2.2.2⟩

/-- All fills are those of the logs, by their times. -/
theorem exists_byTime_of_allTrades {fills : List Fill} (h : store.allTrades = .ok fills) :
    ∃ files, store.Logged store.tradesFolder files ∧ fills = byTime (recordsOf Fill.ofLine? files) := by
  obtain ⟨names, hnames, h⟩ := bind_eq_ok.1 h
  obtain ⟨records, hrecords, h⟩ := bind_eq_ok.1 h
  obtain ⟨files, hlogged, rfl⟩ := exists_logged hnames hrecords
  exact ⟨files, hlogged, (pure_eq_ok.1 h).symm⟩

theorem exists_logged_of_allTrades {fills : List Fill} (h : store.allTrades = .ok fills) :
    ∃ files, store.Logged store.tradesFolder files ∧ fills.Perm (recordsOf Fill.ofLine? files) := by
  obtain ⟨files, hlogged, rfl⟩ := exists_byTime_of_allTrades h
  exact ⟨files, hlogged, List.mergeSort_perm _ _⟩

/-- A store with one log that is not text. -/
def garbledStore : Store :=
  ⟨⟨Table.ofList [(["data", "trades", "1970-01-01.jsonl"], .file (.binary [255]))]⟩, "data"⟩

theorem exists_fault_garbledStore : ∃ fault, garbledStore.allTrades = .error fault := by
  have hread : garbledStore.allTrades.isOk = false := by decide +kernel
  cases hall : garbledStore.allTrades with
  | error fault => exact ⟨fault, rfl⟩
  | ok fills =>
    rw [hall] at hread
    cases hread

end Store

end TradeReport
