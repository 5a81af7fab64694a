import TradeReport.Proofs.Store.Recording
/-!
# Calls of both kinds

Fills and balances are recorded in folders of their own, side by side in the folder of the store (`exists_parent`). A
call of one kind therefore leaves alone what was recorded by calls of the other: the files of the days stay when a
balance is recorded (`Holds.put`), and the balance log when a fill is (`hasText_put`). After any calls to a store that was
new, both hold what was recorded by the calls that succeeded (`records_makeCalls`).
-/

namespace TradeReport

/-! ## Places side by side -/

namespace Disk

variable {disk : Disk} {path other : Path} {node found : Node} {written : String}

theorem follow_concat {name : String} (h : leadsDown name = true) {start : Path} {front : List String} :
    disk.follow start (front ++ [name]) = .ok path ↔
      ∃ middle, disk.follow start front = .ok middle ∧ path = middle ++ [name] := by
  rw [follow_append, bind_eq_ok]
  refine exists_congr fun middle => and_congr_right fun _ => ?_
  rw [follow_down h, follow, Except.ok.injEq, eq_comm]

/-- Nothing is found that was not there before, except on the way to what was put. -/
theorem find_of_find_put (hapart : ¬other <+: path) (h : (disk.put path node).find other = .ok found) :
    disk.find other = .ok found := by
  have hne : other ≠ path := fun heq => hapart (heq ▸ List.prefix_rfl)
  have hget : (disk.put path node).nodes.get? other = disk.nodes.get? other := Table.get?_put_ne hne
  cases hother : disk.nodes.get? other with
  | some kept =>
    rw [find_of_get? (hget.trans hother)] at h
    rw [find_of_get? hother, h]
  | none =>
    rw [find_eq_ok_of_get?_none (hget.trans hother), Bool.or_eq_true, List.any_eq_true] at h
    rw [find_eq_ok_of_get?_none hother, Bool.or_eq_true, List.any_eq_true]
    refine ⟨h.1, h.2.imp_right ?_⟩
    rintro ⟨key, hkey, hbelow⟩
    rcases Table.mem_keys_put.1 hkey with rfl | hkey
    · exact absurd (List.isPrefixOf_iff_prefix.1 hbelow) hapart
    · exact ⟨key, hkey, hbelow⟩

end Disk

namespace Store

/-- A name goes behind a slash, unless there is nothing before it. -/
theorem toList_joinPath (home : String) :
    (∀ name, (joinPath home name).toList = name.toList) ∨
      ∃ front : List Char, ∀ name, (joinPath home name).toList = front ++ '/' :: name.toList := by
  unfold joinPath
  split
  · rename_i hhome
    rcases hhome with rfl | hslash
    · exact .inl fun name => by rw [String.empty_append]
    · obtain ⟨front, hfront⟩ := List.getLast?_eq_some_iff.1 hslash
      refine .inr ⟨front, fun name => ?_⟩
      rw [String.toList_append, hfront, List.append_assoc]
      rfl
  · refine .inr ⟨home.toList, fun name => ?_⟩
    rw [String.toList_append, String.toList_append, List.append_assoc]
    rfl

/-- Names in the folder of a store lead to places side by side. -/
theorem exists_parent {disk : Disk} {home name other : String} {path path' : Path} (hname : Disk.IsEntry name)
    (hother : Disk.IsEntry other) (h : disk.place (joinPath home name) = .ok path)
    (h' : disk.place (joinPath home other) = .ok path') :
    ∃ parent, path = parent ++ [name] ∧ path' = parent ++ [other] := by
  obtain ⟨⟨start, names⟩, hnames, hfollow⟩ := bind_eq_ok.1 h
  obtain ⟨⟨start', names'⟩, hnames', hfollow'⟩ := bind_eq_ok.1 h'
  obtain ⟨-, -, -, rfl, rfl⟩ := Disk.namesOf_eq_ok.1 hnames
  obtain ⟨-, -, -, rfl, rfl⟩ := Disk.namesOf_eq_ok.1 hnames'
  rcases toList_joinPath home with hchars | ⟨front, hchars⟩
  · have hsingle : ∀ {name path}, Disk.IsEntry name →
        disk.follow (if name.toList.head? = some '/' then ["/"] else [])
          ((namesBetweenSlashes name.toList).map String.ofList) = .ok path → path = [name] := by
      intro name path hname hfollow
      rw [if_neg fun hslash => hname.slash (List.mem_of_head? hslash), Disk.namesBetweenSlashes_name hname.slash,
        List.map_singleton, String.ofList_toList, Disk.follow_down hname.leadsDown] at hfollow
      exact (Except.ok.inj hfollow).symm
    rw [hchars] at hfollow hfollow'
    exact ⟨[], hsingle hname hfollow, hsingle hother hfollow'⟩
  · have hhead : ∀ name : String, (front ++ '/' :: name.toList).head? = front.head?.or (some '/') :=
      fun name => List.head?_append
    rw [hchars, hhead, Disk.namesBetweenSlashes_append _ hname.slash, List.map_append, List.map_singleton,
      String.ofList_toList, Disk.follow_concat hname.leadsDown] at hfollow
    rw [hchars, hhead, Disk.namesBetweenSlashes_append _ hother.slash, List.map_append, List.map_singleton,
      String.ofList_toList, Disk.follow_concat hother.leadsDown] at hfollow'
    obtain ⟨parent, hparent, rfl⟩ := hfollow
    obtain ⟨parent', hparent', rfl⟩ := hfollow'
    obtain rfl := Except.ok.inj (hparent.symm.trans hparent')
    exact ⟨parent, rfl, rfl⟩

/-! ## Calls -/

inductive Call where
  | fill (fill : Fill)
  | balance (balance : RecordedBalance)
  deriving DecidableEq

def Call.fill? : Call → Option Fill
  | .fill a => some a
  | .balance _ => none

def Call.balance? : Call → Option RecordedBalance
  | .fill _ => none
  | .balance a => some a

def Call.fills (calls : List Call) : List Fill :=
  calls.filterMap fill?

def Call.balances (calls : List Call) : List RecordedBalance :=
  calls.filterMap balance?

theorem Call.fills_concat (calls : List Call) (call : Call) :
    fills (calls ++ [call]) = fills calls ++ call.fill?.toList := by
  rw [fills, List.filterMap_append, fills]
  cases call <;> rfl

theorem Call.balances_concat (calls : List Call) (call : Call) :
    balances (calls ++ [call]) = balances calls ++ call.balance?.toList := by
  rw [balances, List.filterMap_append, balances]
  cases call <;> rfl

def record (store : Store) : Call → Except Fault Store
  | .fill fill => store.recordFill fill
  | .balance balance => store.recordBalance balance

/-- The store after a call, which leaves it as it was when it fails. -/
def makeCall (store : Store) (call : Call) : Store :=
  match store.record call with
  | .ok after => after
  | .error _ => store

def makeCalls (store : Store) (calls : List Call) : Store :=
  calls.foldl makeCall store

def succeeded (store : Store) : List Call → List Call
  | [] => []
  | call :: rest =>
    match store.record call with
    | .ok after => call :: succeeded after rest
    | .error _ => succeeded store rest

def balanceText (balances : List RecordedBalance) : List Char :=
  balances.flatMap fun balance => (Log.entry balance.toLine).toList

variable {store after : Store} {folder place path : Path} {node : Node} {fills : List Fill} {written : String}
  {text : List Char}

/-! ## What a call leaves alone -/

/-- What is put elsewhere leaves the files of the days as they were. -/
theorem Holds.put (h : Holds store folder fills) (hpath : store.disk.find path ≠ .ok .folder)
    (hapart : ¬folder <+: path) : Holds ⟨store.disk.put path node, store.home⟩ folder fills := by
  have hne : folder ≠ path := fun heq => hapart (heq ▸ List.prefix_rfl)
  refine ⟨Disk.place_put hpath h.place, Disk.find_put_ne hne h.isFolder, h.fits, fun name below hname => ?_⟩
  have hother : folder ++ name :: below ≠ path := fun heq => hapart (heq ▸ List.prefix_append _ _)
  exact (Table.get?_put_ne hother).trans (h.nodes name below hname)

theorem hasText_put (hplace : ∀ place, (store.disk.put path node).place written = .ok place ↔
      store.disk.place written = .ok place)
    (hapart : ∀ place, store.disk.place written = .ok place → ¬place <+: path) (h : store.HasText written text) :
    HasText ⟨store.disk.put path node, store.home⟩ written text := by
  rcases h with hread | ⟨hnew, rfl⟩
  · obtain ⟨place, hwritten, hfile⟩ := Disk.read_eq_ok.1 hread
    have hne : place ≠ path := fun heq => hapart place hwritten (heq ▸ List.prefix_rfl)
    exact .inl (Disk.read_eq_ok.2 ⟨place, (hplace place).2 hwritten, Disk.find_put_ne hne hfile⟩)
  · refine .inr ⟨?_, rfl⟩
    cases hlook : (store.disk.put path node).look written with
    | error cause =>
      rw [Disk.isThere, hlook]
      rfl
    | ok found =>
      obtain ⟨place, hwritten, hfind⟩ := bind_eq_ok.1 hlook
      have hbefore := (hplace place).1 hwritten
      have hthere := Disk.isThere_of_look
        (bind_eq_ok.2 ⟨place, hbefore, Disk.find_of_find_put (hapart place hbefore) hfind⟩)
      rw [hnew] at hthere
      cases hthere

/-! ## One call -/

/-- A store that holds what was recorded by calls. -/
structure Records (store : Store) (folder place : Path) (calls : List Call) : Prop where
  fills : Holds store folder (Call.fills calls)
  place : store.disk.place store.balancesFolder = .ok place
  balances : store.HasText store.balanceLog (balanceText (Call.balances calls))

variable {calls : List Call}

private theorem isEntry_balanceLog : Disk.IsEntry "balance_log.jsonl" :=
  ⟨by decide, by decide, by decide⟩

private theorem balanceLog_eq (store : Store) : store.balanceLog = store.balancesFolder ++ "/" ++ "balance_log.jsonl" :=
  joinPath_of_getLast? (c := 's') (getLast?_joinPath store.home (by decide)) (by decide) _

private theorem place_balanceLog (h : store.disk.place store.balancesFolder = .ok place) :
    store.disk.place store.balanceLog = .ok path ↔
      store.balanceLog.utf8ByteSize ≤ longestPath ∧ path = place ++ ["balance_log.jsonl"] := by
  rw [balanceLog_eq]
  exact Disk.place_append isEntry_balanceLog h

theorem Records.exists_parent (h : Records store folder place calls) :
    ∃ parent, folder = parent ++ ["trades"] ∧ place = parent ++ ["balances"] :=
  Store.exists_parent ⟨by decide, by decide, by decide⟩ ⟨by decide, by decide, by decide⟩ h.fills.place h.place

private theorem records_recordFill {fill : Fill} (h : Records store folder place calls)
    (hrecord : store.recordFill fill = .ok after) : Records after folder place (calls ++ [.fill fill]) := by
  obtain ⟨parent, rfl, rfl⟩ := h.exists_parent
  obtain ⟨-, rfl⟩ := h.fills.recordFill_eq_ok.1 hrecord
  have hplace : (store.withDay (parent ++ ["trades"]) (Call.fills calls ++ [fill])
      (dayName fill.time.toInt)).disk.place store.balancesFolder = .ok (parent ++ ["balances"]) :=
    Disk.place_put (h.fills.find_ne_folder _) h.place
  refine ⟨?_, hplace, ?_⟩
  · rw [Call.fills_concat]
    exact holds_recordFill h.fills hrecord
  · rw [Call.balances_concat, Call.balance?, Option.toList_none, List.append_nil]
    refine hasText_put (fun place => ?_) (fun place hlog => ?_) h.balances
    · exact (place_balanceLog hplace).trans (place_balanceLog h.place).symm
    · obtain ⟨-, rfl⟩ := (place_balanceLog h.place).1 hlog
      rw [List.append_assoc, List.append_assoc, List.prefix_append_right_inj]
      simp [List.cons_prefix_cons]

private theorem records_recordBalance {balance : RecordedBalance} (h : Records store folder place calls)
    (hrecord : store.recordBalance balance = .ok after) : Records after folder place (calls ++ [.balance balance]) := by
  obtain ⟨parent, rfl, rfl⟩ := h.exists_parent
  have htext := hasText_appendLine h.balances hrecord
  obtain ⟨disk, hdisk, rfl⟩ := appendLine_eq_ok.1 hrecord
  obtain ⟨path, hlog, -, hpath, rfl⟩ := Disk.append_eq_ok.1 hdisk
  refine ⟨?_, Disk.place_put hpath h.place, ?_⟩
  · obtain ⟨-, rfl⟩ := (place_balanceLog h.place).1 hlog
    rw [Call.fills_concat, Call.fill?, Option.toList_none, List.append_nil]
    refine h.fills.put hpath ?_
    rw [List.append_assoc, List.prefix_append_right_inj]
    simp [List.cons_prefix_cons]
  · rw [Call.balances_concat, Call.balance?, Option.toList_some, balanceText, List.flatMap_append,
      List.flatMap_singleton]
    exact htext

/-! ## A sequence of calls -/

private theorem records_record {call : Call} (h : Records store folder place calls)
    (hrecord : store.record call = .ok after) :
    Records after folder place (calls ++ [call]) := by
  cases call with
  | fill fill => exact records_recordFill h hrecord
  | balance balance => exact records_recordBalance h hrecord

theorem records_makeCalls {more : List Call} (h : Records store folder place calls) :
    Records (store.makeCalls more) folder place (calls ++ store.succeeded more) := by
  induction more generalizing store calls with
  | nil =>
    rw [succeeded, List.append_nil]
    exact h
  | cons call rest ih =>
    rw [makeCalls, List.foldl_cons, makeCall, succeeded]
    cases hrecord : store.record call with
    | ok after =>
      have hafter := ih (records_record h hrecord)
      rwa [List.append_assoc, List.singleton_append] at hafter
    | error fault => exact ih h

/-- A store that nothing was recorded in. -/
structure IsNew (store : Store) : Prop where
  fills : store.IsFresh
  balancesFolder : store.disk.isFolder store.balancesFolder = true
  noBalances : store.disk.isThere store.balanceLog = false

theorem IsNew.records (h : store.IsNew) : ∃ folder place, Records store folder place [] := by
  obtain ⟨folder, hholds⟩ := h.fills.holds
  obtain ⟨place, hplace, -⟩ := Disk.isFolder_iff.1 h.balancesFolder
  exact ⟨folder, place, hholds, hplace, .inr ⟨h.noBalances, rfl⟩⟩

/-- What a store tells when it holds what was recorded by calls: the fills in order of time, those of one time in the
order of the calls, and the balances in the order of the calls. -/
theorem Records.tells (h : Records store folder place calls) : Tells store (Call.fills calls) ∧
    store.readRecords RecordedBalance.ofLine? store.balanceLog
      = .ok ((Call.balances calls).map RecordedBalance.plain) := by
  refine ⟨h.fills.tells, ?_⟩
  rw [readRecords_of_hasText h.balances, balanceText, Log.records_entries Log.lined_balance]

theorem IsNew.tells (h : store.IsNew) (calls : List Call) :
    Tells (store.makeCalls calls) (Call.fills (store.succeeded calls)) ∧
      (store.makeCalls calls).readRecords RecordedBalance.ofLine? (store.makeCalls calls).balanceLog
        = .ok ((Call.balances (store.succeeded calls)).map RecordedBalance.plain) := by
  obtain ⟨folder, place, hrecords⟩ := h.records
  have hafter : Records (store.makeCalls calls) folder place (store.succeeded calls) := records_makeCalls hrecords
  exact hafter.tells

end Store

end TradeReport
