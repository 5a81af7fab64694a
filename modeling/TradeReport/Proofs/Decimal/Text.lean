import TradeReport.Decimal.Text
import TradeReport.Proofs.Decimal.Value
import TradeReport.Proofs.Text.Digits
/-!
# Decimals and their text

The text of a decimal has all its digits and places, and none of them is lost when it is read
(`ofText?_toText`): neither the range of mantissas nor the room for places ends before the text does. The one
thing that is not read back is the sign of a zero, which belongs neither to its value nor to its places
(`same_plain`).
-/

namespace TradeReport.Decimal

/-- The decimal without a sign on a zero. -/
def plain (a : Decimal) : Decimal :=
  { a with negative := a.negative && a.mantissa != 0 }

/-- Equal in value, and written with the same places. -/
structure Same (a b : Decimal) : Prop where
  value : a.toRat = b.toRat
  places : a.scale = b.scale

/-- A zero has no sign. -/
def IsPlain (a : Decimal) : Prop :=
  a.isZero = true → a.negative = false

theorem plain_of_isPlain {a : Decimal} (h : a.IsPlain) : a.plain = a := by
  have hsign : (a.negative && a.mantissa != 0) = a.negative := by
    cases hzero : a.isZero with
    | true => rw [h hzero, Bool.false_and]
    | false =>
      have hne : a.mantissa ≠ 0 := by simpa [isZero] using hzero
      simp [hne]
  exact Decimal.ext hsign rfl rfl

theorem same_plain (a : Decimal) : a.Same a.plain := by
  refine ⟨?_, rfl⟩
  have hsigned : a.plain.signed = a.signed := by
    unfold signed plain
    cases a.negative with
    | false => rfl
    | true =>
      by_cases hzero : a.mantissa = 0
      · simp [hzero]
      · simp [hzero]
  rw [toRat, toRat, hsigned]
  rfl

/-! ## Digits -/

private theorem le_ofDigitChars (digits : List Char) (value : ℕ) : value ≤ Nat.ofDigitChars 10 digits value := by
  induction digits generalizing value with
  | nil => exact le_rfl
  | cons c rest ih =>
    rw [Nat.ofDigitChars_cons]
    exact le_trans (by omega) (ih _)

private theorem digit?_of_isDigit {c : Char} (h : c.isDigit = true) : digit? c = some (c.toNat - '0'.toNat) := by
  rw [digit?, if_pos h]

private theorem ne_point_of_isDigit {c : Char} (h : c.isDigit = true) : c ≠ '-' ∧ c ≠ '+' := by
  constructor <;>
  · rintro rfl
    exact absurd h (by decide)

variable {digits rest : List Char} {started : Bool} {value scale : ℕ}

theorem readWhole_append (hdigits : ∀ c ∈ digits, c.isDigit = true) (hsome : started = true ∨ digits ≠ [])
    (hfits : Nat.ofDigitChars 10 digits value < mantissaBound) :
    readWhole started value (digits ++ rest) = readWhole true (Nat.ofDigitChars 10 digits value) rest := by
  induction digits generalizing started value with
  | nil =>
    obtain rfl : started = true := hsome.resolve_right fun h => h rfl
    rfl
  | cons c more ih =>
    rw [List.forall_mem_cons] at hdigits
    rw [Nat.ofDigitChars_cons, Nat.mul_comm] at hfits ⊢
    have hnext := le_ofDigitChars more (value * 10 + (c.toNat - '0'.toNat))
    rw [List.cons_append, readWhole, digit?_of_isDigit hdigits.1]
    dsimp only
    rw [if_neg (by omega), ih hdigits.2 (.inl rfl) hfits]

/-- Places that fit are read to their end, up to the last place there is room for. -/
theorem readPlaces_eq (hdigits : ∀ c ∈ digits, c.isDigit = true) (hroom : scale + digits.length ≤ maxScale)
    (hfits : Nat.ofDigitChars 10 digits value < mantissaBound) :
    readPlaces true value scale digits = some (Nat.ofDigitChars 10 digits value, scale + digits.length) := by
  induction digits generalizing value scale with
  | nil => rfl
  | cons c more ih =>
    rw [List.forall_mem_cons] at hdigits
    rw [List.length_cons] at hroom ⊢
    rw [Nat.ofDigitChars_cons, Nat.mul_comm] at hfits ⊢
    have hnext := le_ofDigitChars more (value * 10 + (c.toNat - '0'.toNat))
    rw [readPlaces, digit?_of_isDigit hdigits.1]
    dsimp only
    rw [if_neg (by omega)]
    by_cases hlast : scale + 1 = maxScale
    · obtain rfl : more = [] := List.eq_nil_of_length_eq_zero (by omega)
      rw [if_pos hlast, readRounding, ← hlast]
      rfl
    · rw [if_neg hlast, ih hdigits.2 (by omega) hfits, Nat.add_assoc, Nat.add_comm 1]

/-! ## The text of a decimal -/

private theorem readWhole_pointed {mantissa : ℕ} (hmantissa : mantissa < mantissaBound) (hscale : scale ≤ maxScale) :
    readWhole false 0 (pointed mantissa scale) = some (mantissa, scale) := by
  have hlength := le_length_zeroPadded (scale + 1) mantissa
  have hvalue := ofDigitChars_zeroPadded (scale + 1) mantissa
  have hdigits : ∀ c ∈ zeroPadded (scale + 1) mantissa, c.isDigit = true :=
    fun c hc => isDigit_of_mem_zeroPadded hc
  unfold pointed
  generalize zeroPadded (scale + 1) mantissa = digits at hlength hvalue hdigits
  dsimp only
  have hjoin := List.take_append_drop (digits.length - scale) digits
  have hplaces : (digits.drop (digits.length - scale)).length = scale := by
    rw [List.length_drop]
    omega
  have hwhole : digits.take (digits.length - scale) ≠ [] := by
    intro h
    have := congrArg List.length h
    rw [List.length_take, List.length_nil] at this
    omega
  generalize digits.take (digits.length - scale) = whole at hjoin hwhole ⊢
  generalize digits.drop (digits.length - scale) = places at hjoin hplaces ⊢
  subst hjoin
  rw [List.forall_mem_append] at hdigits
  rw [Nat.ofDigitChars_append] at hvalue
  have hle := le_ofDigitChars places (Nat.ofDigitChars 10 whole 0)
  have hread : ∀ rest, readWhole false 0 (whole ++ rest) = readWhole true (Nat.ofDigitChars 10 whole 0) rest :=
    fun rest => readWhole_append hdigits.1 (.inr hwhole) (by omega)
  have hreadPlaces : readPlaces true (Nat.ofDigitChars 10 whole 0) 0 places = some (mantissa, scale) := by
    rw [readPlaces_eq hdigits.2 (by omega) (by omega), hvalue, Nat.zero_add, hplaces]
  by_cases hzero : scale = 0
  · obtain rfl : places = [] := List.eq_nil_of_length_eq_zero (hplaces.trans hzero)
    rw [if_pos hzero, ← List.append_nil whole, hread, ← hreadPlaces]
    rfl
  · rw [if_neg hzero, hread]
    exact hreadPlaces

private theorem exists_pointed_eq_cons (mantissa scale : ℕ) :
    ∃ c rest, pointed mantissa scale = c :: rest ∧ c.isDigit = true := by
  have hlength := le_length_zeroPadded (scale + 1) mantissa
  obtain ⟨c, more, hdigits⟩ : ∃ c more, zeroPadded (scale + 1) mantissa = c :: more :=
    List.exists_cons_of_length_pos (by omega)
  have hc : c.isDigit = true := isDigit_of_mem_zeroPadded (hdigits ▸ List.mem_cons_self)
  obtain ⟨count, hcount⟩ : ∃ count, (zeroPadded (scale + 1) mantissa).length - scale = count + 1 :=
    ⟨_, (Nat.sub_add_cancel (by omega)).symm⟩
  unfold pointed
  dsimp only
  rw [hcount, hdigits, List.take_succ_cons]
  split
  · exact ⟨c, _, rfl, hc⟩
  · exact ⟨c, _, rfl, hc⟩

theorem splitSign_toChars (a : Decimal) : splitSign a.toChars = (a.negative, pointed a.mantissa a.scale) := by
  unfold toChars
  cases a.negative with
  | true => rfl
  | false =>
    obtain ⟨c, rest, hbody, hc⟩ := exists_pointed_eq_cons a.mantissa a.scale
    obtain ⟨hminus, hplus⟩ := ne_point_of_isDigit hc
    simp only [hbody, Bool.false_eq_true, if_false]
    unfold splitSign
    split
    · rename_i h
      exact absurd (List.cons.inj h).1 hminus
    · rename_i h
      exact absurd (List.cons.inj h).1 hplus
    · rfl

/-- The text of a decimal is read as that decimal, without a sign on a zero. -/
theorem ofText?_toText (a : Decimal) : ofText? a.toText = some a.plain := by
  have hplain : ofPlainChars? a.toChars = some a.plain := by
    rw [ofPlainChars?, splitSign_toChars]
    simp only [readWhole_pointed a.mantissa_lt a.scale_le, Option.bind_eq_bind, Option.bind_some, ofParts?]
    rw [dif_pos ⟨a.mantissa_lt, a.scale_le⟩]
    rfl
  rw [ofText?, toText, String.toList_ofList, ofChars?, hplain]
  rfl

end TradeReport.Decimal
