import TradeReport.Proofs.Store.Disk
import TradeReport.Proofs.Text.Digits
import TradeReport.Store
/-!
# The files of days

The name of the file of a day is the text of its date, which is short and of digits and signs, and the ending of a log
(`isEntry_dayName`, `isLogName_dayName`). So the file is in the folder of fills, unless its path is too long
(`place_dayFile`).
-/

namespace TradeReport

/-! ## The text of a date -/

namespace Date

private theorem digits_of_mem_toChars {date : Date} {c : Char} (h : c ∈ date.toChars) :
    c.isDigit = true ∨ c = '-' ∨ c = '+' := by
  rw [toChars, List.mem_append, List.mem_append, List.mem_cons, List.mem_cons] at h
  rcases h with (hyear | rfl | hmonth) | rfl | hday
  · unfold yearChars at hyear
    split at hyear
    · exact .inl (isDigit_of_mem_zeroPadded hyear)
    · rcases List.mem_cons.1 hyear with rfl | hyear
      · split
        · exact .inr (.inl rfl)
        · exact .inr (.inr rfl)
      · exact .inl (isDigit_of_mem_zeroPadded hyear)
  · exact .inr (.inl rfl)
  · exact .inl (isDigit_of_mem_zeroPadded hmonth)
  · exact .inr (.inl rfl)
  · exact .inl (isDigit_of_mem_zeroPadded hday)

/-- The years that times with a date lie in have at most six digits. -/
theorem bounds_ofTime {time : ℤ} (h : hasDate time = true) :
    (ofTime time).year.natAbs < 10 ^ 6 ∧ (ofTime time).month.natAbs < 10 ^ 2 ∧
      (ofTime time).day.natAbs < 10 ^ 2 := by
  rw [hasDate, Bool.and_eq_true] at h
  have hlower : -8334601228800000 ≤ time := of_decide_eq_true h.1
  have hupper : time ≤ 8210266876799999 := of_decide_eq_true h.2
  simp only [ofTime, ofDayNumber, millisPerDay]
  refine ⟨?_, ?_, ?_⟩ <;> omega

private theorem length_toChars_le {time : ℤ} (h : hasDate time = true) : (ofTime time).toChars.length ≤ 13 := by
  obtain ⟨hyear, hmonth, hday⟩ := bounds_ofTime h
  have hyearDigits := Nat.toDigits_length 10 _ 6 (by decide) hyear
  have hmonthDigits := Nat.toDigits_length 10 _ 2 (by decide) hmonth
  have hdayDigits := Nat.toDigits_length 10 _ 2 (by decide) hday
  have hyearChars : (yearChars (ofTime time).year).length ≤ 7 := by
    unfold yearChars
    split
    · rw [length_zeroPadded]
      omega
    · rw [List.length_cons, length_zeroPadded]
      omega
  rw [toChars, List.length_append, List.length_append, List.length_cons, List.length_cons, length_zeroPadded,
    length_zeroPadded]
  omega

end Date

/-! ## The name of a day -/

/-- Four bytes for each character are enough. -/
theorem utf8ByteSize_ofList_le (chars : List Char) : (String.ofList chars).utf8ByteSize ≤ 4 * chars.length := by
  induction chars with
  | nil => exact Nat.zero_le _
  | cons c chars ih =>
    have hsize := c.utf8Size_le_four
    rw [String.ofList_cons, String.utf8ByteSize_append, String.utf8ByteSize_singleton, List.length_cons]
    omega

namespace Store

def dayName (time : ℤ) : String :=
  String.ofList (Date.ofTime time).toChars ++ ".jsonl"

private theorem toList_dayName (time : ℤ) : (dayName time).toList = (Date.ofTime time).toChars ++ ".jsonl".toList := by
  rw [dayName, String.toList_append, String.toList_ofList]

private theorem toChars_ne_nil (date : Date) : date.toChars ≠ [] := by
  rw [Date.toChars]
  exact List.append_ne_nil_of_right_ne_nil _ (List.cons_ne_nil _ _)

private theorem length_dayName (time : ℤ) : 6 < (dayName time).toList.length := by
  have hpos := List.length_pos_of_ne_nil (toChars_ne_nil (Date.ofTime time))
  have hending : ".jsonl".toList.length = 6 := rfl
  rw [toList_dayName, List.length_append]
  omega

private theorem dayName_ne {time : ℤ} {name : String} (h : name.toList.length ≤ 6) : dayName time ≠ name := by
  rintro rfl
  exact absurd (length_dayName time) (Nat.not_lt.2 h)

theorem isLogName_dayName (time : ℤ) : isLogName (dayName time) = true := by
  rw [isLogName, Bool.and_eq_true, List.isSuffixOf_iff_suffix, toList_dayName, bne_iff_ne]
  exact ⟨List.suffix_append _ _, dayName_ne (by decide)⟩

private theorem utf8ByteSize_dayName_le {time : ℤ} (h : hasDate time = true) :
    (dayName time).utf8ByteSize ≤ longestName := by
  have hchars := utf8ByteSize_ofList_le (Date.ofTime time).toChars
  have hlength := Date.length_toChars_le h
  have hending : ".jsonl".utf8ByteSize = 6 := rfl
  rw [dayName, String.utf8ByteSize_append, longestName]
  omega

theorem isEntry_dayName {time : ℤ} (h : hasDate time = true) : Disk.IsEntry (dayName time) := by
  have hmem : ∀ c ∈ (dayName time).toList, c.isDigit = true ∨ c ∈ '-' :: '+' :: ".jsonl".toList := by
    intro c hc
    rw [toList_dayName, List.mem_append] at hc
    rcases hc with hdate | hending
    · rcases Date.digits_of_mem_toChars hdate with hdigit | rfl | rfl
      · exact .inl hdigit
      · exact .inr (by simp)
      · exact .inr (by simp)
    · exact .inr (List.mem_cons_of_mem _ (List.mem_cons_of_mem _ hending))
  refine ⟨?_, fun hslash => ?_, fun hnul => ?_⟩
  · simp only [leadsDown, Bool.and_eq_true, bne_iff_ne, decide_eq_true_eq]
    exact ⟨⟨⟨dayName_ne (by decide), dayName_ne (by decide)⟩, dayName_ne (by decide)⟩, utf8ByteSize_dayName_le h⟩
  · exact absurd (hmem _ hslash) (by decide)
  · exact absurd (hmem _ hnul) (by decide)

/-! ## Its place -/

theorem isOutside_dayName (folder : Path) (time : ℤ) : (folder ++ [dayName time]).isOutside = false := by
  rw [Path.isOutside, Bool.or_eq_false_iff, List.all_append, List.all_cons, beq_false_of_ne (dayName_ne (by decide))]
  refine ⟨beq_false_of_ne fun hroot => ?_, by simp⟩
  have hlast := congrArg List.getLast? hroot
  rw [List.getLast?_concat] at hlast
  exact dayName_ne (by decide) (Option.some.inj hlast)

theorem getLast?_joinPath (front : String) {name : String} (h : name ≠ "") :
    (joinPath front name).toList.getLast? = name.toList.getLast? := by
  have hname : name.toList ≠ [] := by simpa using h
  unfold joinPath
  split
  · rw [String.toList_append, List.getLast?_append_of_ne_nil _ hname]
  · rw [String.toList_append, List.getLast?_append_of_ne_nil _ hname]

theorem joinPath_of_getLast? {front : String} {c : Char} (h : front.toList.getLast? = some c) (hc : c ≠ '/')
    (name : String) : joinPath front name = front ++ "/" ++ name := by
  rw [joinPath, if_neg]
  rintro (rfl | hslash)
  · cases h
  · exact hc (Option.some.inj (h.symm.trans hslash))

theorem joinPath_tradesFolder (store : Store) (name : String) :
    joinPath store.tradesFolder name = store.tradesFolder ++ "/" ++ name :=
  joinPath_of_getLast? (c := 's') (getLast?_joinPath store.home (by decide)) (by decide) name

end Store

end TradeReport
