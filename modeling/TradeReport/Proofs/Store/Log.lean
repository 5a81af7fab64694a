import Mathlib.Data.List.DropRight
import TradeReport.Proofs.Json.CutOff
import TradeReport.Proofs.Trade.Record
import TradeReport.Store.Log
/-!
# What a log holds after an entry

What is appended to a log starts on a line of its own only if the log ends with a line break. Otherwise it is the end
of the line that was cut off there, and a record is read from that line only if nothing but blanks was left of it
(`records_entry`): the record is lost then, and so is one that the line held.
-/

namespace TradeReport.Log

open Json.Token (Blank)

/-- The text up to its last line break. -/
def whole (text : List Char) : List Char :=
  text.rdropWhile (· != '\n')

/-- What follows the last line break. -/
def cutOff (text : List Char) : List Char :=
  text.rtakeWhile (· != '\n')

theorem whole_append_cutOff (text : List Char) : whole text ++ cutOff text = text :=
  List.rdropWhile_append_rtakeWhile

theorem not_mem_cutOff (text : List Char) : '\n' ∉ cutOff text := by
  intro h
  exact absurd (List.mem_rtakeWhile_imp h) (by decide)

def IsWhole (text : List Char) : Prop :=
  ∀ c ∈ text.getLast?, c = '\n'

theorem isWhole_whole (text : List Char) : IsWhole (whole text) := by
  intro c hc
  obtain ⟨hne, rfl⟩ := List.mem_getLast?_eq_getLast hc
  have hbreak : ¬((whole text).getLast hne != '\n') = true := List.rdropWhile_last_not _ text hne
  simpa using hbreak

/-! ## Lines -/

theorem lines_cons {c : Char} (h : c ≠ '\n') (text : List Char) :
    lines (c :: text) = (c :: (lines text).headD []) :: (lines text).tail := by
  cases hlines : lines text with
  | nil => simp [lines, hlines]
  | cons line more => simp [lines, hlines]

private theorem lines_ne_nil {text : List Char} (h : text ≠ []) : lines text ≠ [] := by
  cases text with
  | nil => exact absurd rfl h
  | cons c text =>
    by_cases hc : c = '\n'
    · rw [hc, lines]
      exact List.cons_ne_nil _ _
    · rw [lines_cons hc]
      exact List.cons_ne_nil _ _

theorem lines_append {front : List Char} (h : IsWhole front) (back : List Char) :
    lines (front ++ back) = lines front ++ lines back := by
  induction front with
  | nil => rfl
  | cons c front ih =>
    by_cases hc : c = '\n'
    · have hfront : IsWhole front := by
        intro d hd
        cases front with
        | nil => cases hd
        | cons e front => exact h d (by rw [List.getLast?_cons_cons]; exact hd)
      rw [hc, List.cons_append, lines, lines, ih hfront, List.cons_append]
    · cases front with
      | nil => exact absurd (h c rfl) hc
      | cons d front =>
        have hfront : IsWhole (d :: front) := fun e he => h e (by rw [List.getLast?_cons_cons]; exact he)
        rw [List.cons_append, lines_cons hc, ih hfront, lines_cons hc]
        cases hlines : lines (d :: front) with
        | nil => exact absurd hlines (lines_ne_nil (List.cons_ne_nil d front))
        | cons line more => rfl

private theorem lines_of_not_mem {line : List Char} (h : '\n' ∉ line) (hne : line ≠ []) : lines line = [line] := by
  induction line with
  | nil => exact absurd rfl hne
  | cons c line ih =>
    rw [List.mem_cons, not_or] at h
    rw [lines_cons (Ne.symm h.1)]
    cases line with
    | nil => rfl
    | cons d line =>
      rw [ih h.2 (List.cons_ne_nil d line)]
      rfl

private theorem lines_break {line : List Char} (h : '\n' ∉ line) : lines (line ++ ['\n']) = [line] := by
  induction line with
  | nil => rfl
  | cons c line ih =>
    rw [List.mem_cons, not_or] at h
    rw [List.cons_append, lines_cons (Ne.symm h.1), ih h.2]
    rfl

/-! ## Records -/

variable {α : Type} {toLine : α → String} {ofLine? : List Char → Option α} {plain : α → α}

theorem records_append {front : List Char} (h : IsWhole front) (back : List Char) :
    records ofLine? (front ++ back) = records ofLine? front ++ records ofLine? back := by
  rw [records, lines_append h, List.filterMap_append, records, records]

/-- How records stand on lines. A record is read from its line, and blanks in front of it do no harm; with anything
else in front of it the line holds no record. -/
structure Lined (toLine : α → String) (ofLine? : List Char → Option α) (plain : α → α) : Prop where
  oneLine : ∀ a, '\n' ∉ (toLine a).toList
  ofBlank : ∀ text, Blank text → ofLine? text = none
  afterBlank : ∀ text a, Blank text → ofLine? (text ++ (toLine a).toList) = some (plain a)
  afterText : ∀ text a, ¬Blank text → ofLine? (text ++ (toLine a).toList) = none

private theorem records_cutOff (h : Lined toLine ofLine? plain) {line : List Char} (hline : '\n' ∉ line) :
    records ofLine? line = (ofLine? line).toList := by
  cases line with
  | nil =>
    rw [h.ofBlank [] (fun _ hc => nomatch hc)]
    rfl
  | cons c line =>
    rw [records, lines_of_not_mem hline (List.cons_ne_nil c line), List.filterMap_cons]
    cases ofLine? (c :: line) <;> rfl

private theorem records_eq (h : Lined toLine ofLine? plain) (text : List Char) :
    records ofLine? text = records ofLine? (whole text) ++ (ofLine? (cutOff text)).toList := by
  conv_lhs => rw [← whole_append_cutOff text]
  rw [records_append (isWhole_whole text), records_cutOff h (not_mem_cutOff text)]

theorem records_entry (h : Lined toLine ofLine? plain) (text : List Char) (a : α) :
    records ofLine? (text ++ (entry (toLine a)).toList)
      = if Blank (cutOff text) then records ofLine? text ++ [plain a] else records ofLine? (whole text) := by
  have hline : '\n' ∉ cutOff text ++ (toLine a).toList := by
    rw [List.mem_append, not_or]
    exact ⟨not_mem_cutOff text, h.oneLine a⟩
  have hbreak : records ofLine? (cutOff text ++ (toLine a).toList ++ ['\n'])
      = (ofLine? (cutOff text ++ (toLine a).toList)).toList := by
    rw [records, lines_break hline, List.filterMap_cons]
    cases ofLine? (cutOff text ++ (toLine a).toList) <;> rfl
  -- The entry ends the line that was cut off, and that line alone.
  have hsplit : text ++ (entry (toLine a)).toList
      = whole text ++ (cutOff text ++ (toLine a).toList ++ ['\n']) := by
    rw [entry, String.toList_append, List.append_assoc, ← List.append_assoc (whole text), whole_append_cutOff]
    rfl
  rw [hsplit, records_append (isWhole_whole text), hbreak]
  split
  · rename_i hblank
    rw [h.afterBlank _ a hblank, records_eq h text, h.ofBlank _ hblank, Option.toList_none, List.append_nil]
    rfl
  · rename_i htorn
    rw [h.afterText _ a htorn, Option.toList_none, List.append_nil]

theorem records_whole_ne_concat (h : Lined toLine ofLine? plain) (text : List Char) (a : α) :
    records ofLine? (whole text) ≠ records ofLine? text ++ [a] := by
  intro hsame
  rw [records_eq h text] at hsame
  have hlength := congrArg List.length hsame
  rw [List.length_append, List.length_append, List.length_singleton] at hlength
  omega

theorem records_entries (h : Lined toLine ofLine? plain) (items : List α) :
    records ofLine? (items.flatMap fun a => (entry (toLine a)).toList) = items.map plain := by
  induction items with
  | nil => rfl
  | cons a items ih =>
    have hwhole : IsWhole (entry (toLine a)).toList := by
      intro c hc
      have hbreak : "\n".toList = ['\n'] := rfl
      rw [entry, String.toList_append, hbreak, List.getLast?_concat] at hc
      exact (Option.some.inj hc).symm
    have hfirst : records ofLine? (entry (toLine a)).toList = [plain a] := by
      have hblank : Blank (cutOff []) := fun _ hc => nomatch hc
      have hentry := records_entry h [] a
      rwa [if_pos hblank] at hentry
    rw [List.flatMap_cons, records_append hwhole, hfirst, ih, List.map_cons, List.singleton_append]

/-! ## Fills and balances -/

/-- Records are lined when their first field has a name that begins no token. -/
theorem lined_record {toJson : α → Json.Value} {ofJson? : Json.Value → Option α} {name : String} {c : Char}
    {tail : List Char} (hread : ∀ a, ofJson? (toJson a) = some (plain a))
    (hrecord : ∀ a, ∃ value members, toJson a = .record ((name, value) :: members)) (hname : name.toList = c :: tail)
    (hwritten : Json.Writer.escape c = [c]) (hscan : ∀ text, Json.Token.scan (c :: text) = none) :
    Lined (fun a => (toJson a).compact) (fun line => (Json.read? line).bind ofJson?) plain := by
  refine ⟨fun a => (Json.not_mem_break_compact (toJson a)).1, fun text hblank => ?_, fun text a hblank => ?_,
    fun text a htext => ?_⟩
  · rw [Json.read?_of_blank hblank]
    rfl
  · rw [Json.read?_append_of_blank hblank, Json.read?_compact, Option.bind_some, hread]
  · obtain ⟨value, members, hvalue⟩ := hrecord a
    obtain ⟨more, hmore⟩ : ∃ more, (toJson a).compact.toList = '\x7b' :: '"' :: c :: more := by
      rw [hvalue, Json.Value.record, List.map_cons, Json.Value.compact, String.toList_ofList, Json.Writer.compactValue,
        Json.Writer.compactMembers, Json.separated_cons, Json.Writer.writeText, hname, List.flatMap_cons, hwritten]
      exact ⟨_, rfl⟩
    rw [hvalue, Json.Value.record] at hmore
    rw [hvalue, Json.Value.record, Json.read?_append_eq_none hmore (hscan more) htext]
    rfl

theorem lined_fill : Lined Fill.toLine Fill.ofLine? Fill.plain :=
  lined_record Fill.ofJson?_toJson (fun _ => ⟨_, _, rfl⟩) (show "market".toList = 'm' :: _ from rfl) rfl
    (Json.Token.scan_eq_none rfl rfl rfl rfl)

theorem lined_balance : Lined RecordedBalance.toLine RecordedBalance.ofLine? RecordedBalance.plain :=
  lined_record RecordedBalance.ofJson?_toJson (fun _ => ⟨_, _, rfl⟩) (show "strategy_id".toList = 's' :: _ from rfl)
    rfl (Json.Token.scan_eq_none rfl rfl rfl rfl)

end TradeReport.Log
