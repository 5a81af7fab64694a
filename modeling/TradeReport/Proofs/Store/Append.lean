import TradeReport.Proofs.Store.Disk
import TradeReport.Proofs.Store.Log
import TradeReport.Store
/-!
# Appending to a log

A record that is appended to a log comes after the records that the log holds, whatever else stands in the log, as
long as the last line of the log was not cut off (`goesOn_iff`). A record that is appended behind the rest of a line
is lost with it (`readRecords_appendLine`).
-/

namespace TradeReport.Store

open Json.Token (Blank)
open Log (Lined cutOff whole)

variable {store after : Store} {path line : String} {text : List Char}
variable {α : Type} {toLine : α → String} {ofLine? : List Char → Option α} {plain : α → α}

/-- The text of a log. A log that is not there has none. -/
def HasText (store : Store) (path : String) (text : List Char) : Prop :=
  store.disk.read path = .ok text ∨ store.disk.isThere path = false ∧ text = []

theorem readRecords_of_hasText (htext : store.HasText path text) :
    store.readRecords ofLine? path = .ok (Log.records ofLine? text) := by
  unfold readRecords
  rcases htext with hread | ⟨hnew, rfl⟩
  · rw [if_pos (Disk.isThere_of_read hread), hread]
    rfl
  · rw [if_neg (by rw [hnew]; decide)]
    rfl

theorem appendLine_eq_ok : store.appendLine path line = .ok after ↔
    ∃ disk, store.disk.append path (Log.entry line) = .ok disk ∧ after = { store with disk } := by
  rw [appendLine, bind_eq_ok]
  refine exists_congr fun disk => ?_
  rw [mapError_eq_ok, pure_eq_ok, eq_comm (a := after)]

theorem hasText_appendLine (htext : store.HasText path text) (h : store.appendLine path line = .ok after) :
    after.HasText path (text ++ (Log.entry line).toList) := by
  obtain ⟨disk, hdisk, rfl⟩ := appendLine_eq_ok.1 h
  rcases htext with hread | ⟨hnew, rfl⟩
  · exact .inl (Disk.read_append hread hdisk)
  · exact .inl (Disk.read_append_of_not_isThere hnew hdisk)

/-- What a log holds after a record was appended. -/
theorem readRecords_appendLine (hlined : Lined toLine ofLine? plain) (htext : store.HasText path text) {a : α}
    (h : store.appendLine path (toLine a) = .ok after) :
    after.readRecords ofLine? path = .ok
      (if Blank (cutOff text) then Log.records ofLine? text ++ [plain a] else Log.records ofLine? (whole text)) := by
  rw [readRecords_of_hasText (hasText_appendLine htext h), Log.records_entry hlined]

/-- The log is read as before, with a record at its end. -/
def GoesOn (ofLine? : List Char → Option α) (path : String) (store after : Store) (a : α) : Prop :=
  ∃ records, store.readRecords ofLine? path = .ok records ∧ after.readRecords ofLine? path = .ok (records ++ [a])

private theorem goesOn_iff_of_lined (hlined : Lined toLine ofLine? plain) (htext : store.HasText path text) {a : α}
    (h : store.appendLine path (toLine a) = .ok after) :
    GoesOn ofLine? path store after (plain a) ↔ Blank (cutOff text) := by
  have hbefore : store.readRecords ofLine? path = .ok (Log.records ofLine? text) := readRecords_of_hasText htext
  have hafter := readRecords_appendLine hlined htext h
  split at hafter
  · rename_i hblank
    exact ⟨fun _ => hblank, fun _ => ⟨_, hbefore, hafter⟩⟩
  · rename_i htorn
    refine ⟨?_, fun hblank => absurd hblank htorn⟩
    rintro ⟨records, hrecords, hmore⟩
    obtain rfl := Except.ok.inj (hbefore.symm.trans hrecords)
    exact absurd (Except.ok.inj (hafter.symm.trans hmore)) (Log.records_whole_ne_concat hlined text (plain a))

/-- A log of fills or of balances goes on with each record that is appended exactly when nothing but blanks follows its
last line break. -/
theorem goesOn_iff (htext : store.HasText path text) :
    (∀ (fill : Fill) (after : Store), store.appendLine path fill.toLine = .ok after →
      (GoesOn Fill.ofLine? path store after fill.plain ↔ Blank (cutOff text))) ∧
    (∀ (balance : RecordedBalance) (after : Store), store.appendLine path balance.toLine = .ok after →
      (GoesOn RecordedBalance.ofLine? path store after balance.plain ↔ Blank (cutOff text))) :=
  ⟨fun _ _ h => goesOn_iff_of_lined Log.lined_fill htext h,
    fun _ _ h => goesOn_iff_of_lined Log.lined_balance htext h⟩

/-! ## A log that was cut off -/

def tornText : List Char :=
  "\x7b\"market\":\"venue\"".toList

/-- A store whose log of one day ends in the middle of a record. -/
def tornStore : Store :=
  ⟨⟨Table.ofList [(["trades", "1970-01-01.jsonl"], .file (.text tornText))]⟩, ""⟩

def nextFill : Fill :=
  { market := "venue", symbol := "A-B", strategy := "run", side := .buy
    price := .hundred, amount := .one, fee := .free, time := 1000, order := none, exchangeTrade := none }

theorem goesOn_iff_torn :
    tornStore.HasText "trades/1970-01-01.jsonl" tornText ∧ ¬Blank (cutOff tornText) ∧
      ∀ (fill : Fill) (after : Store), tornStore.appendLine "trades/1970-01-01.jsonl" fill.toLine = .ok after →
        (GoesOn Fill.ofLine? "trades/1970-01-01.jsonl" tornStore after fill.plain ↔ Blank (cutOff tornText)) := by
  have htext : tornStore.HasText "trades/1970-01-01.jsonl" tornText := .inl (by decide +kernel)
  exact ⟨htext, by decide +kernel, (goesOn_iff htext).1⟩

/-- The first fill that is recorded behind a line that was cut off is lost. -/
theorem not_goesOn_torn :
    ¬∀ (store after : Store) (path : String) (text : List Char) (fill : Fill), store.HasText path text →
      store.appendLine path fill.toLine = .ok after → GoesOn Fill.ofLine? path store after fill.plain := by
  intro h
  have htext : tornStore.HasText "trades/1970-01-01.jsonl" tornText := .inl (by decide +kernel)
  have hwritten : (tornStore.appendLine "trades/1970-01-01.jsonl" nextFill.toLine).map (fun _ => ()) = .ok () := by
    decide +kernel
  obtain ⟨after, happend, -⟩ := map_eq_ok.1 hwritten
  have hgoesOn : GoesOn Fill.ofLine? "trades/1970-01-01.jsonl" tornStore after nextFill.plain :=
    h tornStore after _ tornText nextFill htext happend
  have hblank : Blank (cutOff tornText) := (goesOn_iff_of_lined Log.lined_fill htext happend).1 hgoesOn
  exact absurd hblank (by decide +kernel)

end TradeReport.Store
