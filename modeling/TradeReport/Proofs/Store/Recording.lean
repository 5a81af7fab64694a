import TradeReport.Proofs.Chronology.Stable
import TradeReport.Proofs.Newest
import TradeReport.Proofs.Store
import TradeReport.Proofs.Store.Append
import TradeReport.Proofs.Store.DayFile
/-!
# Recording fills

A store that starts without fills holds exactly those whose call to record them succeeded. In its folder of fills there
is, for each day on which one of them was made, the file of that day with their lines, and no other log (`Holds`). One
call keeps it so (`holds_recordFill`), and so does a sequence of calls (`holds_afterCalls`).

Files are read in whatever order the folder lists them. All fills of one time are in one file, so the sort by time,
which keeps what ties as it was, leaves them in the order of the calls (`isChronicle_byTime`).
-/

namespace TradeReport

/-! ## Sorting by time -/

namespace Store

/-- Fills in order of time: each of the recorded ones once, and those of one time in the order they were recorded. The
sign of a zero is not kept. -/
structure IsChronicle (recorded fills : List Fill) : Prop where
  once : fills.Perm (recorded.map Fill.plain)
  ascending : fills.Pairwise fun a b => a.time.toInt ≤ b.time.toInt
  moments : ∀ time, fills.filter (·.time = time) = (recorded.filter (·.time = time)).map Fill.plain

theorem byTime_eq (fills : List Fill) :
    byTime fills = fills.mergeSort fun a b => decide (a.time.toInt ≤ b.time.toInt) := by
  have hle : (fun a b : Fill => (a.compareTime b).isLE) = fun a b => decide (a.time.toInt ≤ b.time.toInt) := by
    funext a b
    rw [Bool.eq_iff_iff, decide_eq_true_eq]
    exact Int.isLE_compare
  rw [byTime, hle]

theorem byTime_ascending (fills : List Fill) : (byTime fills).Pairwise fun a b => a.time.toInt ≤ b.time.toInt := by
  rw [byTime_eq]
  exact ascending_mergeSort_time Fill.time fills

theorem ascending_of_allTrades {store : Store} {fills : List Fill} (h : store.allTrades = .ok fills) :
    fills.Pairwise fun a b => a.time.toInt ≤ b.time.toInt := by
  obtain ⟨names, -, h⟩ := bind_eq_ok.1 h
  obtain ⟨records, -, h⟩ := bind_eq_ok.1 h
  rw [← pure_eq_ok.1 h]
  exact byTime_ascending records

theorem filter_byTime (fills : List Fill) (time : Int64) :
    (byTime fills).filter (·.time = time) = fills.filter (·.time = time) := by
  rw [byTime_eq]
  exact filter_time_mergeSort Fill.time fills time

/-- Fills that are by time already are in order as those that are not. -/
theorem chronological_filter_byTime (keep : Fill → Bool) (fills : List Fill) :
    chronological ((byTime fills).filter keep) = chronological (fills.filter keep) := by
  refine chronological_congr ((List.mergeSort_perm fills _).filter keep) fun time => ?_
  rw [List.filter_comm, filter_byTime, List.filter_comm]

/-- Fills with the same fills of each time are the same but for their order. -/
theorem perm_of_moments {fills fills' : List Fill}
    (h : ∀ time : Int64, fills.filter (·.time = time) = fills'.filter (·.time = time)) : fills.Perm fills' := by
  refine List.perm_iff_count.2 fun fill => ?_
  have hcount : ∀ list : List Fill, (list.filter (·.time = fill.time)).count fill = list.count fill :=
    fun _ => List.count_filter (decide_eq_true rfl)
  rw [← hcount, h, hcount]

private theorem time_le_of_mem {first fill : Fill} {rest : List Fill}
    (h : (first :: rest).Pairwise fun a b => b.time.toInt ≤ a.time.toInt) (hmem : fill ∈ first :: rest) :
    fill.time.toInt ≤ first.time.toInt := by
  rcases List.mem_cons.1 hmem with rfl | hrest
  · exact le_rfl
  · exact (List.pairwise_cons.1 h).1 fill hrest

/-- Newest first, fills come in one order only. -/
theorem eq_of_moments {list list' : List Fill} (hdescending : list.Pairwise fun a b => b.time.toInt ≤ a.time.toInt)
    (hdescending' : list'.Pairwise fun a b => b.time.toInt ≤ a.time.toInt)
    (hmoments : ∀ time : Int64, list.filter (·.time = time) = list'.filter (·.time = time)) : list = list' := by
  have hperm := perm_of_moments hmoments
  induction list generalizing list' with
  | nil => exact hperm.nil_eq
  | cons first rest ih =>
    cases list' with
    | nil => exact hperm.eq_nil
    | cons first' rest' =>
      have htime : first'.time = first.time := by
        apply Int64.toInt_inj.1
        exact (time_le_of_mem hdescending (hperm.mem_iff.2 List.mem_cons_self)).antisymm
          (time_le_of_mem hdescending' (hperm.mem_iff.1 List.mem_cons_self))
      -- Both are the first of their time.
      have hheads := hmoments first.time
      rw [List.filter_cons_of_pos (by simp), List.filter_cons_of_pos (by simp [htime])] at hheads
      obtain ⟨rfl, -⟩ := List.cons.inj hheads
      have hrests : ∀ time : Int64, rest.filter (·.time = time) = rest'.filter (·.time = time) := by
        intro time
        have hsame := hmoments time
        rw [List.filter_cons, List.filter_cons] at hsame
        split at hsame
        · exact (List.cons.inj hsame).2
        · exact hsame
      rw [ih (List.pairwise_cons.1 hdescending).2 (List.pairwise_cons.1 hdescending').2 hrests
        (perm_of_moments hrests)]

theorem filter_time_plain (fills : List Fill) (time : Int64) :
    (fills.map Fill.plain).filter (·.time = time) = (fills.filter (·.time = time)).map Fill.plain := by
  rw [List.filter_map]
  rfl

theorem isChronicle_byTime {recorded fills : List Fill}
    (h : ∀ time, fills.filter (·.time = time) = (recorded.filter (·.time = time)).map Fill.plain) :
    IsChronicle recorded (byTime fills) := by
  have hmoments : ∀ time, (byTime fills).filter (·.time = time) = (recorded.filter (·.time = time)).map Fill.plain :=
    fun time => (filter_byTime fills time).trans (h time)
  refine ⟨perm_of_moments fun time => ?_, byTime_ascending fills, hmoments⟩
  rw [hmoments, filter_time_plain]

/-- Fills that were recorded in order, without a signed zero, are read as they were. -/
theorem IsChronicle.eq_of_ordered {recorded fills : List Fill} (h : IsChronicle recorded fills)
    (hplain : recorded.map Fill.plain = recorded) (hordered : recorded.Pairwise fun a b => a.time.toInt ≤ b.time.toInt) :
    fills = recorded := by
  have hmoments : ∀ time : Int64, fills.reverse.filter (·.time = time) = recorded.reverse.filter (·.time = time) := by
    intro time
    rw [List.filter_reverse, List.filter_reverse, h.moments, ← filter_time_plain, hplain]
  exact List.reverse_injective
    (eq_of_moments (List.pairwise_reverse.2 h.ascending) (List.pairwise_reverse.2 hordered) hmoments)

/-! ## The files of the days -/

/-- The fills whose day has the file of that name. -/
def ofDay (fills : List Fill) (name : String) : List Fill :=
  fills.filter fun fill => dayName fill.time.toInt = name

def dayText (fills : List Fill) : List Char :=
  fills.flatMap fun fill => (Log.entry fill.toLine).toList

/-- What is at the name of a log, or below it, when fills were recorded. -/
def dayNode (fills : List Fill) (name : String) (below : List String) : Option Node :=
  if below = [] ∧ ofDay fills name ≠ [] then some (.file (.text (dayText (ofDay fills name)))) else none

private theorem ofDay_concat_self (fills : List Fill) (fill : Fill) :
    ofDay (fills ++ [fill]) (dayName fill.time.toInt) = ofDay fills (dayName fill.time.toInt) ++ [fill] := by
  rw [ofDay, List.filter_append, List.filter_cons_of_pos (by simp), List.filter_nil, ofDay]

private theorem ofDay_concat_ne (fills : List Fill) {fill : Fill} {name : String} (h : name ≠ dayName fill.time.toInt) :
    ofDay (fills ++ [fill]) name = ofDay fills name := by
  rw [ofDay, List.filter_append, List.filter_cons_of_neg (by simpa using h.symm), List.filter_nil, List.append_nil,
    ofDay]

/-- A store that holds fills, in a folder with a log for each of their days. -/
structure Holds (store : Store) (folder : Path) (fills : List Fill) : Prop where
  place : store.disk.place store.tradesFolder = .ok folder
  isFolder : store.disk.find folder = .ok .folder
  fits : ∀ fill ∈ fills, hasDate fill.time.toInt = true ∧
    (store.dayFile fill.time.toInt).utf8ByteSize ≤ longestPath
  nodes : ∀ name below, isLogName name = true →
    store.disk.nodes.get? (folder ++ name :: below) = dayNode fills name below

variable {store after : Store} {folder : Path} {fills : List Fill} {fill : Fill}

private theorem dayFile_eq (store : Store) (time : ℤ) :
    store.dayFile time = store.tradesFolder ++ "/" ++ dayName time :=
  joinPath_tradesFolder store (dayName time)

theorem Holds.place_dayFile (h : Holds store folder fills) {time : ℤ} (hdate : hasDate time = true) {place : Path} :
    store.disk.place (store.dayFile time) = .ok place ↔
      (store.dayFile time).utf8ByteSize ≤ longestPath ∧ place = folder ++ [dayName time] := by
  rw [dayFile_eq]
  exact Disk.place_append (isEntry_dayName hdate) h.place

theorem Holds.find_of_ofDay_ne_nil (h : Holds store folder fills) {time : ℤ} (hday : ofDay fills (dayName time) ≠ []) :
    store.disk.find (folder ++ [dayName time]) = .ok (.file (.text (dayText (ofDay fills (dayName time))))) := by
  apply Disk.find_of_get?
  rw [h.nodes _ _ (isLogName_dayName time), dayNode, if_pos ⟨rfl, hday⟩]

/-- Nothing is where the file of a day without fills would be. -/
theorem Holds.find_of_ofDay_eq_nil (h : Holds store folder fills) {time : ℤ} (hday : ofDay fills (dayName time) = []) :
    ∃ cause, store.disk.find (folder ++ [dayName time]) = .error cause := by
  have hget : ∀ below, store.disk.nodes.get? (folder ++ dayName time :: below) = none := by
    intro below
    rw [h.nodes _ _ (isLogName_dayName time), dayNode, if_neg fun hboth => hboth.2 hday]
  cases hfind : store.disk.find (folder ++ [dayName time]) with
  | error cause => exact ⟨cause, rfl⟩
  | ok node =>
    rw [Disk.find_eq_ok_of_get?_none (hget []), Bool.or_eq_true, List.any_eq_true] at hfind
    obtain ⟨-, houtside | ⟨key, hkey, hprefix⟩⟩ := hfind
    · rw [isOutside_dayName] at houtside
      cases houtside
    · obtain ⟨below, rfl⟩ := List.isPrefixOf_iff_prefix.1 hprefix
      obtain ⟨node, hnode⟩ := Table.mem_keys_iff.1 hkey
      rw [List.append_assoc, List.singleton_append, hget] at hnode
      cases hnode

/-! ## One call -/

/-- The store with the file of one day as it is when fills were recorded. -/
def withDay (store : Store) (folder : Path) (fills : List Fill) (name : String) : Store :=
  ⟨store.disk.put (folder ++ [name]) (.file (.text (dayText (ofDay fills name)))), store.home⟩

theorem Holds.appended_eq (h : Holds store folder fills) :
    Disk.appended (Log.entry fill.toLine) (store.disk.find (folder ++ [dayName fill.time.toInt]))
      = .text (dayText (ofDay (fills ++ [fill]) (dayName fill.time.toInt))) := by
  rw [ofDay_concat_self]
  by_cases hday : ofDay fills (dayName fill.time.toInt) = []
  · obtain ⟨cause, hnone⟩ := h.find_of_ofDay_eq_nil hday
    rw [hnone, hday, dayText, List.nil_append, List.flatMap_singleton]
    rfl
  · rw [h.find_of_ofDay_ne_nil hday, dayText, dayText, List.flatMap_append, List.flatMap_singleton]
    rfl

theorem Holds.find_ne_folder (h : Holds store folder fills) (time : ℤ) :
    store.disk.find (folder ++ [dayName time]) ≠ .ok .folder := by
  by_cases hday : ofDay fills (dayName time) = []
  · obtain ⟨cause, hnone⟩ := h.find_of_ofDay_eq_nil hday
    rw [hnone]
    exact nofun
  · rw [h.find_of_ofDay_ne_nil hday]
    exact nofun

/-- A call succeeds exactly when the time has a date and the path of the file of that day is not too long. Then the
line of the fill is the last one in that file. -/
theorem Holds.recordFill_eq_ok (h : Holds store folder fills) : store.recordFill fill = .ok after ↔
    (hasDate fill.time.toInt = true ∧ (store.dayFile fill.time.toInt).utf8ByteSize ≤ longestPath) ∧
      after = store.withDay folder (fills ++ [fill]) (dayName fill.time.toInt) := by
  rw [recordFill]
  split
  case isFalse hdate =>
    exact ⟨nofun, fun hboth => absurd hboth.1.1 hdate⟩
  case isTrue hdate =>
    rw [appendLine_eq_ok]
    constructor
    · rintro ⟨disk, happend, rfl⟩
      obtain ⟨path, hplace, -, -, rfl⟩ := Disk.append_eq_ok.1 happend
      obtain ⟨hfits, rfl⟩ := (h.place_dayFile hdate).1 hplace
      exact ⟨⟨hdate, hfits⟩, by rw [h.appended_eq]; rfl⟩
    · rintro ⟨⟨-, hfits⟩, rfl⟩
      refine ⟨_, Disk.append_eq_ok.2 ⟨_, (h.place_dayFile hdate).2 ⟨hfits, rfl⟩, ?_, h.find_ne_folder _, rfl⟩, ?_⟩
      · rw [List.dropLast_concat]
        exact h.isFolder
      · rw [h.appended_eq]
        rfl

theorem holds_recordFill (h : Holds store folder fills) (hrecord : store.recordFill fill = .ok after) :
    Holds after folder (fills ++ [fill]) := by
  obtain ⟨hfits, rfl⟩ := h.recordFill_eq_ok.1 hrecord
  have hne : folder ≠ folder ++ [dayName fill.time.toInt] := by
    intro heq
    simpa using congrArg List.length heq
  refine ⟨Disk.place_put (h.find_ne_folder _) h.place, Disk.find_put_ne hne h.isFolder, ?_, ?_⟩
  · rw [List.forall_mem_append, List.forall_mem_singleton]
    exact ⟨h.fits, hfits⟩
  · intro name below hname
    -- Only the file of that day is written, and no other day has its name.
    by_cases hself : name = dayName fill.time.toInt ∧ below = []
    · obtain ⟨rfl, rfl⟩ := hself
      rw [dayNode, if_pos]
      · exact Table.get?_put_self
      · rw [ofDay_concat_self]
        exact ⟨rfl, List.concat_ne_nil _ _⟩
    · have hother : folder ++ name :: below ≠ folder ++ [dayName fill.time.toInt] := by
        intro heq
        rw [List.append_cancel_left_eq, List.cons.injEq] at heq
        exact hself heq
      have hkept : (store.withDay folder (fills ++ [fill]) (dayName fill.time.toInt)).disk.nodes.get?
          (folder ++ name :: below) = dayNode fills name below :=
        (Table.get?_put_ne hother).trans (h.nodes name below hname)
      rw [hkept, dayNode, dayNode]
      by_cases hbelow : below = []
      · rw [ofDay_concat_ne fills fun heq => hself ⟨heq, hbelow⟩]
      · rw [if_neg (fun hboth => hbelow hboth.1), if_neg (fun hboth => hbelow hboth.1)]

/-! ## A sequence of calls -/

/-- The store after a call, which leaves it as it was when it fails. -/
def afterCall (store : Store) (fill : Fill) : Store :=
  match store.recordFill fill with
  | .ok after => after
  | .error _ => store

def afterCalls (store : Store) (calls : List Fill) : Store :=
  calls.foldl afterCall store

/-- The fills whose call succeeds, in the order of the calls. -/
def recorded (store : Store) : List Fill → List Fill
  | [] => []
  | fill :: rest =>
    match store.recordFill fill with
    | .ok after => fill :: recorded after rest
    | .error _ => recorded store rest

/-- The calls that succeed are those for a time with a date whose file can be named. -/
theorem Holds.recorded_eq (h : Holds store folder fills) (calls : List Fill) : store.recorded calls
    = calls.filter fun fill =>
        hasDate fill.time.toInt && decide ((store.dayFile fill.time.toInt).utf8ByteSize ≤ longestPath) := by
  induction calls generalizing store fills with
  | nil => rfl
  | cons fill rest ih =>
    rw [recorded]
    cases hrecord : store.recordFill fill with
    | ok after =>
      obtain ⟨hfits, hafter⟩ := h.recordFill_eq_ok.1 hrecord
      have hhome : after.dayFile = store.dayFile := by
        rw [hafter]
        rfl
      dsimp only
      rw [List.filter_cons_of_pos (by simpa using hfits), ih (holds_recordFill h hrecord), hhome]
    | error fault =>
      have hfails : ¬(hasDate fill.time.toInt = true ∧ (store.dayFile fill.time.toInt).utf8ByteSize ≤ longestPath) :=
        fun hfits => nomatch hrecord.symm.trans (h.recordFill_eq_ok.2 ⟨hfits, rfl⟩)
      dsimp only
      rw [List.filter_cons_of_neg (by simpa using hfails), ih h]

theorem holds_afterCalls {calls : List Fill} (h : Holds store folder fills) :
    Holds (store.afterCalls calls) folder (fills ++ store.recorded calls) := by
  induction calls generalizing store fills with
  | nil =>
    rw [recorded, List.append_nil]
    exact h
  | cons fill rest ih =>
    rw [afterCalls, List.foldl_cons, afterCall, recorded]
    cases hrecord : store.recordFill fill with
    | ok after =>
      dsimp only
      have hafter := ih (holds_recordFill h hrecord)
      rwa [List.append_assoc, List.singleton_append] at hafter
    | error fault => exact ih h

/-- A store without fills has a folder for them, and no log in it. -/
structure IsFresh (store : Store) : Prop where
  isFolder : store.disk.isFolder store.tradesFolder = true
  noLogs : store.logNames store.tradesFolder = .ok []

theorem exists_logNames {written : String} (hplace : store.disk.place written = .ok folder)
    (hfolder : store.disk.find folder = .ok .folder) :
    ∃ names, store.logNames written = .ok names ∧
      ∀ name, name ∈ names ↔ isLogName name = true ∧ ∃ below, folder ++ name :: below ∈ store.disk.nodes.keys := by
  obtain ⟨all, hall⟩ : ∃ all, store.disk.names written = .ok all := by
    refine ⟨_, bind_eq_ok.2 ⟨folder, hplace, bind_eq_ok.2 ⟨(), Disk.needFolder_eq_ok.2 hfolder, rfl⟩⟩⟩
  refine ⟨all.filter isLogName, ?_, fun name => ?_⟩
  · rw [logNames, if_pos (Disk.isThere_of_look (bind_eq_ok.2 ⟨folder, hplace, hfolder⟩)), hall]
    rfl
  · rw [List.mem_filter, Disk.mem_names_iff hplace hall, and_comm]

theorem IsFresh.holds (h : store.IsFresh) : ∃ folder, Holds store folder [] := by
  obtain ⟨folder, hplace, hfolder⟩ := Disk.isFolder_iff.1 h.isFolder
  refine ⟨folder, hplace, hfolder, List.forall_mem_nil _, fun name below hname => ?_⟩
  rw [dayNode, if_neg fun hboth => hboth.2 rfl]
  by_contra hsome
  obtain ⟨node, hnode⟩ := Option.ne_none_iff_exists'.1 hsome
  obtain ⟨names, hnames, hmem⟩ := exists_logNames hplace hfolder
  obtain rfl := Except.ok.inj (hnames.symm.trans h.noLogs)
  exact absurd ((hmem name).2 ⟨hname, below, Table.mem_keys_iff.2 ⟨node, hnode⟩⟩) List.not_mem_nil

/-! ## Reading -/

theorem records_dayText (fills : List Fill) : Log.records Fill.ofLine? (dayText fills) = fills.map Fill.plain :=
  Log.records_entries Log.lined_fill fills

theorem readFiles_of_day {name : String}
    (hread : store.disk.read (joinPath store.tradesFolder name) = .ok (dayText fills)) :
    store.readFiles Fill.ofLine? store.tradesFolder [name] = .ok (fills.map Fill.plain) := by
  rw [readFiles, List.mapM_cons, List.mapM_nil, readRecords_of_hasText (.inl hread), records_dayText]
  exact congrArg Except.ok (List.append_nil _)

theorem Holds.readRecords_eq (h : Holds store folder fills) {name : String} (hname : ofDay fills name ≠ []) :
    store.readRecords Fill.ofLine? (joinPath store.tradesFolder name) = .ok ((ofDay fills name).map Fill.plain) := by
  obtain ⟨fill, hfill⟩ := List.exists_mem_of_ne_nil _ hname
  obtain ⟨hmem, hday⟩ := List.mem_filter.1 hfill
  obtain rfl : dayName fill.time.toInt = name := of_decide_eq_true hday
  obtain ⟨hdate, hfits⟩ := h.fits fill hmem
  have hread : store.disk.read (store.dayFile fill.time.toInt)
      = .ok (dayText (ofDay fills (dayName fill.time.toInt))) :=
    Disk.read_eq_ok.2 ⟨_, (h.place_dayFile hdate).2 ⟨hfits, rfl⟩, h.find_of_ofDay_ne_nil hname⟩
  rw [← records_dayText]
  exact readRecords_of_hasText (.inl hread)

/-- The logs are the files of the days on which a fill was made. -/
theorem Holds.exists_logNames (h : Holds store folder fills) :
    ∃ names, store.logNames store.tradesFolder = .ok names ∧ names.Nodup ∧
      ∀ name, name ∈ names ↔ ofDay fills name ≠ [] := by
  obtain ⟨names, hnames, hmem⟩ := Store.exists_logNames h.place h.isFolder
  refine ⟨names, hnames, Table.nodup_of_ascending (logNames_ascending hnames), fun name => ?_⟩
  rw [hmem]
  constructor
  · rintro ⟨hname, below, hkey⟩ hday
    obtain ⟨node, hnode⟩ := Table.mem_keys_iff.1 hkey
    rw [h.nodes name below hname, dayNode, if_neg fun hboth => hboth.2 hday] at hnode
    cases hnode
  · intro hday
    obtain ⟨fill, hfill⟩ := List.exists_mem_of_ne_nil _ hday
    obtain rfl : dayName fill.time.toInt = name := of_decide_eq_true (List.mem_filter.1 hfill).2
    have hnode := h.nodes _ [] (isLogName_dayName fill.time.toInt)
    rw [dayNode, if_pos ⟨rfl, hday⟩] at hnode
    exact ⟨isLogName_dayName _, [], Table.mem_keys_iff.2 ⟨_, hnode⟩⟩

theorem Holds.readFiles_eq (h : Holds store folder fills) {order : List String}
    (horder : ∀ name ∈ order, ofDay fills name ≠ []) :
    store.readFiles Fill.ofLine? store.tradesFolder order
      = .ok (order.flatMap fun name => (ofDay fills name).map Fill.plain) := by
  rw [readFiles, mapM_eq_ok_map fun name hname => h.readRecords_eq (horder name hname), List.flatMap_def]
  rfl

theorem flatMap_of_only {names : List String} {name : String} {items : String → List Fill} (hnodup : names.Nodup)
    (hname : name ∈ names) (honly : ∀ other, other ≠ name → items other = []) : names.flatMap items = items name := by
  obtain ⟨front, back, rfl⟩ := List.append_of_mem hname
  have hnot : name ∉ front ++ back := (List.nodup_cons.1 (List.nodup_middle.1 hnodup)).1
  rw [List.mem_append, not_or] at hnot
  have hfront : front.flatMap items = [] :=
    List.flatMap_eq_nil_iff.2 fun other hother => honly other (ne_of_mem_of_not_mem hother hnot.1)
  have hback : back.flatMap items = [] :=
    List.flatMap_eq_nil_iff.2 fun other hother => honly other (ne_of_mem_of_not_mem hother hnot.2)
  rw [List.flatMap_append, List.flatMap_cons, hfront, hback, List.nil_append, List.append_nil]

private theorem filter_ofDay (fills : List Fill) (name : String) (time : Int64) :
    (ofDay fills name).filter (·.time = time)
      = if dayName time.toInt = name then fills.filter (·.time = time) else [] := by
  rw [ofDay, List.filter_filter]
  split
  · rename_i hday
    refine List.filter_congr fun fill _ => ?_
    by_cases htime : fill.time = time
    · simp [htime, hday]
    · simp [htime]
  · rename_i hday
    refine List.filter_eq_nil_iff.2 fun fill _ hboth => hday ?_
    rw [Bool.and_eq_true, decide_eq_true_eq, decide_eq_true_eq] at hboth
    rw [← hboth.1, hboth.2]

/-- All fills of one time are in the file of its day, so the files may be read in any order. -/
theorem filter_flatMap_ofDay (fills : List Fill) {order : List String} (hnodup : order.Nodup)
    (horder : ∀ name, name ∈ order ↔ ofDay fills name ≠ []) (time : Int64) :
    (order.flatMap fun name => (ofDay fills name).map Fill.plain).filter (·.time = time)
      = (fills.filter (·.time = time)).map Fill.plain := by
  have hday : ∀ name, ((ofDay fills name).map Fill.plain).filter (·.time = time)
      = if dayName time.toInt = name then (fills.filter (·.time = time)).map Fill.plain else [] := by
    intro name
    rw [filter_time_plain, filter_ofDay, apply_ite (List.map Fill.plain), List.map_nil]
  rw [List.filter_flatMap]
  by_cases hname : dayName time.toInt ∈ order
  · rw [flatMap_of_only hnodup hname fun other hother => by rw [hday, if_neg hother.symm], hday, if_pos rfl]
  · -- A day without a file has no fills, so there are none of that time either.
    have hnone : (fills.filter (·.time = time)).map Fill.plain = [] := by
      rw [horder, not_not] at hname
      have hown := hday (dayName time.toInt)
      rw [if_pos rfl, hname] at hown
      exact hown.symm
    rw [hnone]
    refine List.flatMap_eq_nil_iff.2 fun other hother => ?_
    rw [hday, if_neg (ne_of_mem_of_not_mem hother hname).symm]

theorem Holds.tradesIn_eq (h : Holds store folder fills) {names order : List String}
    (hnames : store.logNames store.tradesFolder = .ok names) (horder : order.Perm names) :
    ∃ read, store.tradesIn order = .ok read ∧ IsChronicle fills read := by
  obtain ⟨names', hnames', hnodup, hmem⟩ := h.exists_logNames
  obtain rfl := Except.ok.inj (hnames'.symm.trans hnames)
  have horderMem : ∀ name, name ∈ order ↔ ofDay fills name ≠ [] := fun name => horder.mem_iff.trans (hmem name)
  refine ⟨byTime (order.flatMap fun name => (ofDay fills name).map Fill.plain), ?_, ?_⟩
  · rw [tradesIn, h.readFiles_eq fun name hname => (horderMem name).1 hname]
    rfl
  · exact isChronicle_byTime (filter_flatMap_ofDay fills (horder.nodup_iff.2 hnodup) horderMem)

/-! ## All calls -/

private theorem recordFill_of_not_hasDate (store : Store) {fill : Fill} (h : hasDate fill.time.toInt = false) :
    ∃ fault, store.recordFill fill = .error fault := by
  rw [recordFill, h]
  exact ⟨_, rfl⟩

private theorem afterCall_of_not_hasDate (store : Store) {fill : Fill} (h : hasDate fill.time.toInt = false) :
    store.afterCall fill = store := by
  obtain ⟨fault, hfault⟩ := recordFill_of_not_hasDate store h
  rw [afterCall, hfault]

/-- All fills of a store are those that were recorded, in whatever order its logs are listed. -/
structure Tells (store : Store) (recorded : List Fill) : Prop where
  allTrades : ∃ fills, store.allTrades = .ok fills ∧ IsChronicle recorded fills
  anyOrder : ∀ names order, store.logNames store.tradesFolder = .ok names → order.Perm names →
    ∃ fills, store.tradesIn order = .ok fills ∧ IsChronicle recorded fills

theorem Holds.tells (h : Holds store folder fills) : Tells store fills := by
  refine ⟨?_, fun names order hnames horder => h.tradesIn_eq hnames horder⟩
  obtain ⟨names, hnames, -⟩ := h.exists_logNames
  obtain ⟨read, hread, hchronicle⟩ := h.tradesIn_eq hnames (.refl names)
  exact ⟨read, bind_eq_ok.2 ⟨names, hnames, hread⟩, hchronicle⟩

/-- After any calls, a store that was fresh has exactly the fills whose call succeeded. A call for a time without a date
fails, and all is as if it had not been made. -/
theorem tells_afterCalls (hfresh : store.IsFresh) (calls : List Fill) :
    Tells (store.afterCalls calls) (store.recorded calls) ∧
      ∀ earlier fill later, calls = earlier ++ fill :: later → hasDate fill.time.toInt = false →
        (∃ fault, (store.afterCalls earlier).recordFill fill = .error fault) ∧
          store.afterCalls calls = store.afterCalls (earlier ++ later) := by
  constructor
  · obtain ⟨folder, hholds⟩ := hfresh.holds
    have hafter : Holds (store.afterCalls calls) folder (store.recorded calls) := holds_afterCalls hholds
    exact hafter.tells
  · rintro earlier fill later rfl hdate
    refine ⟨recordFill_of_not_hasDate _ hdate, ?_⟩
    rw [afterCalls, afterCalls, List.foldl_append, List.foldl_append, List.foldl_cons, afterCall_of_not_hasDate _ hdate]

/-! ## Calls to a new store -/

def freshStore : Store :=
  ⟨⟨Table.ofList [(["data", "trades"], .folder), (["data", "balances"], .folder)]⟩, "data"⟩

private theorem isFresh_freshStore : freshStore.IsFresh :=
  ⟨by decide +kernel, by decide +kernel⟩

/-- Fills that are recorded in order, without a signed zero, are what the store tells. -/
theorem allTrades_afterCalls {calls : List Fill} (hfits : ∀ fill ∈ calls, hasDate fill.time.toInt = true ∧
      (freshStore.dayFile fill.time.toInt).utf8ByteSize ≤ longestPath)
    (hplain : calls.map Fill.plain = calls) (hordered : calls.Pairwise fun a b => a.time.toInt ≤ b.time.toInt) :
    (freshStore.afterCalls calls).allTrades = .ok calls := by
  obtain ⟨folder, hfresh⟩ := isFresh_freshStore.holds
  have hrecorded : freshStore.recorded calls = calls := by
    rw [hfresh.recorded_eq, List.filter_eq_self]
    simpa using hfits
  have hholds : Holds (freshStore.afterCalls calls) folder (freshStore.recorded calls) := holds_afterCalls hfresh
  obtain ⟨fills, hfills, hchronicle⟩ := hholds.tells.allTrades
  rw [hrecorded] at hchronicle
  rw [hfills, hchronicle.eq_of_ordered hplain hordered]

/-- Two fills of one time, with one of the day before between them, and one whose time has no date. -/
def fewCalls : List Fill :=
  [(86400000, "1"), (86399999, "2"), (Int64.maxValue, "3"), (86400000, "4")].map fun (time, amount) =>
    { nextFill with time := time, exchangeTrade := some amount }

theorem tells_fewCalls :
    openIn Disk.empty "data" = .ok freshStore ∧ freshStore.IsFresh ∧
      freshStore.recorded fewCalls = [fewCalls[0], fewCalls[1], fewCalls[3]] ∧
      Tells (freshStore.afterCalls fewCalls) (freshStore.recorded fewCalls) := by
  exact ⟨rfl, isFresh_freshStore, by decide +kernel, (tells_afterCalls isFresh_freshStore fewCalls).1⟩

end Store

end TradeReport
