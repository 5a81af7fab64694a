import Mathlib.Data.Nat.Digits.Lemmas
import TradeReport.Calendar
import TradeReport.Proofs.Text.Digits
/-!
# The text of a duration

A duration is written as days and clock time, with a sign if it is negative. The parts stand apart in the text, the
days by the character that ends their digits and the others by their length, so a text has one reading
(`DurationText.eq_of_toChars_eq`). What is read is the whole seconds of the duration: they are all that the text tells,
and it tells them all (`elapsedText_tellsSeconds`).
-/

namespace TradeReport

structure IsTwoDigits (bound : ℕ) (digits : List Char) : Prop where
  length : digits.length = 2
  isDigit : ∀ c ∈ digits, c.isDigit = true
  lt : Nat.ofDigitChars 10 digits 0 < bound

private theorem isTwoDigits_zeroPadded {bound value : ℕ} (h : value < bound) (hbound : bound ≤ 100) :
    IsTwoDigits bound (zeroPadded 2 value) := by
  have hdigits := Nat.toDigits_length 10 value 2 (by decide) (by omega)
  refine ⟨?_, fun c hc => isDigit_of_mem_zeroPadded hc, ?_⟩
  · rw [length_zeroPadded, Nat.max_eq_left hdigits]
  · rwa [ofDigitChars_zeroPadded]

@[ext]
structure DurationText where
  negative : Bool
  days : List Char
  hours : List Char
  minutes : List Char
  seconds : List Char

namespace DurationText

variable {parts parts' : DurationText}

def sign (parts : DurationText) : List Char :=
  if parts.negative then ['-'] else []

def toChars (parts : DurationText) : List Char :=
  parts.sign ++ (parts.days ++ (" days ".toList ++ (parts.hours ++ ':' :: (parts.minutes ++ ':' :: parts.seconds))))

def toSeconds (parts : DurationText) : ℤ :=
  (if parts.negative then -1 else 1)
    * (86400 * Nat.ofDigitChars 10 parts.days 0 + 3600 * Nat.ofDigitChars 10 parts.hours 0
      + 60 * Nat.ofDigitChars 10 parts.minutes 0 + Nat.ofDigitChars 10 parts.seconds 0 : ℕ)

/-- A number of days and a time of day. -/
structure WellFormed (parts : DurationText) : Prop where
  days : IsNumeral parts.days
  hours : IsTwoDigits 24 parts.hours
  minutes : IsTwoDigits 60 parts.minutes
  seconds : IsTwoDigits 60 parts.seconds

/-! ## The reading of a text -/

private theorem negative_iff (h : parts.WellFormed) : parts.negative = true ↔ parts.toChars.head? = some '-' := by
  rw [toChars, sign]
  cases parts.negative with
  | true => exact iff_of_true rfl rfl
  | false =>
    refine iff_of_false nofun fun hhead => ?_
    rw [if_neg Bool.false_ne_true, List.nil_append, List.head?_append_of_ne_nil _ h.days.nonempty] at hhead
    exact absurd (h.days.isDigit _ (List.mem_of_head? hhead)) (by decide)

theorem eq_of_toChars_eq (h : parts.WellFormed) (h' : parts'.WellFormed) (hsame : parts.toChars = parts'.toChars) :
    parts = parts' := by
  have hnegative : parts.negative = parts'.negative := by
    rw [Bool.eq_iff_iff, negative_iff h, negative_iff h', hsame]
  have hsign : parts.sign = parts'.sign := by rw [sign, hnegative, sign]
  rw [toChars, toChars, hsign, List.append_cancel_left_eq] at hsame
  have hdays : parts.days = parts'.days :=
    eq_of_digits_append h.days.isDigit h'.days.isDigit (by decide) (by decide) hsame
  rw [hdays, List.append_cancel_left_eq, List.append_cancel_left_eq] at hsame
  obtain ⟨hhours, hsame⟩ := List.append_inj hsame (h.hours.length.trans h'.hours.length.symm)
  obtain ⟨hminutes, hsame⟩ := List.append_inj (List.cons.inj hsame).2 (h.minutes.length.trans h'.minutes.length.symm)
  exact DurationText.ext hnegative hdays hhours hminutes (List.cons.inj hsame).2

/-! ## The parts of a number of seconds -/

def ofSeconds (seconds : ℤ) : DurationText :=
  let total := seconds.natAbs
  { negative := seconds < 0
    days := Nat.toDigits 10 (total / 86400)
    hours := zeroPadded 2 (total % 86400 / 3600)
    minutes := zeroPadded 2 (total % 86400 % 3600 / 60)
    seconds := zeroPadded 2 (total % 86400 % 60) }

theorem wellFormed_ofSeconds (seconds : ℤ) : (ofSeconds seconds).WellFormed := by
  refine ⟨isNumeral_toDigits _, isTwoDigits_zeroPadded ?_ (by decide), isTwoDigits_zeroPadded ?_ (by decide),
    isTwoDigits_zeroPadded ?_ (by decide)⟩ <;> omega

theorem toSeconds_ofSeconds (seconds : ℤ) : (ofSeconds seconds).toSeconds = seconds := by
  simp only [toSeconds, ofSeconds, Nat.ofDigitChars_ten_toDigits, ofDigitChars_zeroPadded, decide_eq_true_eq]
  have htotal : 86400 * (seconds.natAbs / 86400) + 3600 * (seconds.natAbs % 86400 / 3600)
      + 60 * (seconds.natAbs % 86400 % 3600 / 60) + seconds.natAbs % 86400 % 60 = seconds.natAbs := by
    omega
  rw [htotal]
  split <;> omega

theorem elapsedText_eq (duration : ℤ) :
    elapsedText duration = String.ofList (ofSeconds (duration.tdiv 1000)).toChars := by
  simp only [elapsedText, clockChars, toChars, sign, ofSeconds, decide_eq_true_eq, List.append_assoc,
    List.cons_append]

end DurationText

/-- The text of a duration is a sign if its whole seconds are negative, the days, and the clock time below a day, and
these come to the whole seconds. So two durations have one text exactly when they have the same whole seconds. -/
theorem elapsedText_tellsSeconds (duration : ℤ) :
    (∃ parts : DurationText, parts.WellFormed ∧ (elapsedText duration).toList = parts.toChars ∧
      (parts.negative = true ↔ duration.tdiv 1000 < 0) ∧ parts.toSeconds = duration.tdiv 1000) ∧
      ∀ other, elapsedText duration = elapsedText other ↔ duration.tdiv 1000 = other.tdiv 1000 := by
  refine ⟨⟨_, DurationText.wellFormed_ofSeconds _, ?_, decide_eq_true_iff, DurationText.toSeconds_ofSeconds _⟩,
    fun other => ⟨fun hsame => ?_, fun hsame => ?_⟩⟩
  · rw [DurationText.elapsedText_eq, String.toList_ofList]
  · rw [DurationText.elapsedText_eq, DurationText.elapsedText_eq, String.ofList_inj] at hsame
    have hparts := DurationText.eq_of_toChars_eq (DurationText.wellFormed_ofSeconds _)
      (DurationText.wellFormed_ofSeconds _) hsame
    rw [← DurationText.toSeconds_ofSeconds (duration.tdiv 1000), hparts, DurationText.toSeconds_ofSeconds]
  · rw [DurationText.elapsedText_eq, hsame, DurationText.elapsedText_eq]

/-- Less than a second before now counts as nothing, without a sign. -/
example : elapsedText (-999) = "0 days 00:00:00" ∧ elapsedText (-86401000) = "-1 days 00:00:01" := by
  cbv

end TradeReport
