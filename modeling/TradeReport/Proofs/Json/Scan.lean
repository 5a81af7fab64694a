import Mathlib.Algebra.Ring.Nat
import Mathlib.Data.List.Basic
import Mathlib.Tactic.FinCases
import TradeReport.Json.Reader
import TradeReport.Json.Writer
import TradeReport.Proofs.Text.Digits
/-!
# Tokens of a written text

A text that falls into tokens keeps them when a mark is written behind it (`scan_append`): only a number could go on,
and no mark continues one. Strings and numbers fall into a single token, which is the string or number they were
written for (`scan_writeText`, `scan_writeNumber`).
-/

namespace TradeReport.Json.Token

def BeginsWithMark (text : List Char) : Prop :=
  ∀ c ∈ text.head?, (mark? c).isSome = true

theorem mem_marks {c : Char} (h : (mark? c).isSome = true) : c ∈ ['[', ']', '\x7b', '\x7d', ',', ':'] := by
  unfold mark? at h
  split at h <;> simp_all

/-! ## One token after another -/

theorem scan_quote (text : List Char) :
    scan ('"' :: text) = (pieces text).bind fun found =>
      (scan found.2).map (.string ((join found.1).map String.ofList) :: ·) := by
  rw [scan]
  split
  · rename_i found after h
    simp only [h, Option.bind_some]
  · rename_i h
    simp only [h, Option.bind_none]

theorem scan_minus (text : List Char) :
    scan ('-' :: text) = (magnitude? true text).bind fun found => (scan found.2).map (.number found.1 :: ·) := by
  rw [scan]
  split
  · rename_i found after h
    simp only [h, Option.bind_some]
  · rename_i h
    simp only [h, Option.bind_none]

def beginsToken (c : Char) : Bool :=
  c ∈ ['t', 'f', 'n', '"', '-']

theorem scan_plain {c : Char} (h : beginsToken c = false) (text : List Char) :
    scan (c :: text) =
      if isBlank c then scan text
      else
        match mark? c with
        | some mark => (scan text).map (mark :: ·)
        | none => (magnitude? false (c :: text)).bind fun found => (scan found.2).map (.number found.1 :: ·) := by
  simp only [beginsToken, List.mem_cons, decide_eq_false_iff_not, not_or] at h
  rw [scan]
  · split
    · rfl
    · cases mark? c with
      | some mark => rfl
      | none =>
        dsimp only
        split
        · rename_i h
          simp only [h, Option.bind_some]
        · rename_i h
          simp only [h, Option.bind_none]
  all_goals simp_all

theorem scan_mark {c : Char} {mark : Token} (h : mark? c = some mark) (text : List Char) :
    scan (c :: text) = (scan text).map (mark :: ·) := by
  have hc := mem_marks (by rw [h]; rfl)
  have hplain : beginsToken c = false ∧ isBlank c = false := by
    fin_cases hc <;> decide
  rw [scan_plain hplain.1, hplain.2, h]
  rfl

variable {rest : List Char}

/-! ## Numbers -/

theorem BeginsWithMark.digits_eq (hrest : BeginsWithMark rest) : digits rest = ([], rest) := by
  cases rest with
  | nil => rfl
  | cons c rest =>
    have hc := mem_marks (hrest c rfl)
    have hdigit : digit? c = none := by
      fin_cases hc <;> rfl
    rw [digits, hdigit]

theorem digits_append (hrest : BeginsWithMark rest) (text : List Char) :
    digits (text ++ rest) = ((digits text).1, (digits text).2 ++ rest) := by
  induction text with
  | nil => exact hrest.digits_eq
  | cons c text ih =>
    rw [List.cons_append, digits, digits]
    cases digit? c with
    | some d => simp only [ih]
    | none => rfl

theorem wholePart?_append (hrest : BeginsWithMark rest) (text : List Char) :
    wholePart? (text ++ rest) = (wholePart? text).map fun found => (found.1, found.2 ++ rest) := by
  unfold wholePart?
  rw [digits_append hrest]
  rcases digits text with ⟨_ | ⟨⟨_ | d, hd⟩, _ | ⟨e, more⟩⟩, after⟩ <;> rfl

theorem fractionPart?_append (hrest : BeginsWithMark rest) (text : List Char) :
    fractionPart? (text ++ rest) = (fractionPart? text).map fun found => (found.1, found.2 ++ rest) := by
  cases text with
  | nil =>
    cases rest with
    | nil => rfl
    | cons c rest =>
      have hc := mem_marks (hrest c rfl)
      fin_cases hc <;> rfl
  | cons c text =>
    by_cases hc : c = '.'
    · subst hc
      rw [List.cons_append, fractionPart?, fractionPart?, digits_append hrest]
      rcases digits text with ⟨_ | ⟨d, more⟩, after⟩ <;> rfl
    · simp [fractionPart?, hc]

theorem exponentDigits?_append (hrest : BeginsWithMark rest) (negative : Bool) (text : List Char) :
    exponentDigits? negative (text ++ rest)
      = (exponentDigits? negative text).map fun found => (found.1, found.2 ++ rest) := by
  unfold exponentDigits?
  rw [digits_append hrest]
  rcases digits text with ⟨_ | ⟨d, more⟩, after⟩ <;> rfl

theorem exponentPart?_append (hrest : BeginsWithMark rest) (text : List Char) :
    exponentPart? (text ++ rest) = (exponentPart? text).map fun found => (found.1, found.2 ++ rest) := by
  cases text with
  | nil =>
    cases rest with
    | nil => rfl
    | cons c rest =>
      have hc := mem_marks (hrest c rfl)
      fin_cases hc <;> rfl
  | cons c text =>
    unfold exponentPart?
    rw [List.cons_append]
    dsimp only
    by_cases hletter : c = 'e' ∨ c = 'E'
    · rw [if_pos hletter, if_pos hletter]
      cases text with
      | nil =>
        cases rest with
        | nil => rfl
        | cons d rest =>
          have hd := mem_marks (hrest d rfl)
          fin_cases hd <;> rfl
      | cons d text =>
        by_cases hplus : d = '+'
        · subst hplus
          exact exponentDigits?_append hrest false text
        · by_cases hminus : d = '-'
          · subst hminus
            exact exponentDigits?_append hrest true text
          · simpa [hplus, hminus] using exponentDigits?_append hrest false (d :: text)
    · rw [if_neg hletter, if_neg hletter]
      rfl

theorem magnitude?_append (hrest : BeginsWithMark rest) (negative : Bool) (text : List Char) :
    magnitude? negative (text ++ rest)
      = (magnitude? negative text).map fun found => (found.1, found.2 ++ rest) := by
  unfold magnitude?
  rw [wholePart?_append hrest]
  cases wholePart? text with
  | none => rfl
  | some whole =>
    simp only [Option.map_some, Option.bind_eq_bind, Option.bind_some, fractionPart?_append hrest]
    cases fractionPart? whole.2 with
    | none => rfl
    | some fraction =>
      simp only [Option.map_some, Option.bind_some, exponentPart?_append hrest]
      cases exponentPart? fraction.2 with
      | none => rfl
      | some exponent => rfl

/-! ## Numbers as they are written -/

open Writer (writeDigit writeInt writeNumber)

private theorem digit?_writeDigit : ∀ d, digit? (writeDigit d) = some d := by
  decide

theorem exists_writeDigit {c : Char} (h : c.isDigit = true) : ∃ d, writeDigit d = c := by
  simp only [Char.isDigit, Bool.and_eq_true, decide_eq_true_eq, ge_iff_le, UInt32.le_iff_toNat_le] at h
  have hvalue : c.toNat = c.val.toNat := rfl
  have hbounds : 48 ≤ c.toNat ∧ c.toNat ≤ 57 := h
  refine ⟨⟨c.toNat - 48, by omega⟩, ?_⟩
  have hsum : '0'.toNat + (c.toNat - 48) = c.toNat := by
    change 48 + (c.toNat - 48) = c.toNat
    omega
  rw [writeDigit, hsum, Char.ofNat_toNat]

private theorem plain_of_isDigit {c : Char} (h : c.isDigit = true) :
    beginsToken c = false ∧ isBlank c = false ∧ mark? c = none := by
  have hdigits : ∀ d, beginsToken (writeDigit d) = false ∧ isBlank (writeDigit d) = false ∧
      (mark? (writeDigit d)).isNone = true := by decide
  obtain ⟨d, rfl⟩ := exists_writeDigit h
  obtain ⟨hplain, hblank, hmark⟩ := hdigits d
  exact ⟨hplain, hblank, Option.isNone_iff_eq_none.1 hmark⟩

theorem scan_digit {c : Char} (h : c.isDigit = true) (text : List Char) :
    scan (c :: text)
      = (magnitude? false (c :: text)).bind fun found => (scan found.2).map (.number found.1 :: ·) := by
  obtain ⟨hplain, hblank, hmark⟩ := plain_of_isDigit h
  rw [scan_plain hplain, hblank, hmark]
  rfl

private theorem exists_map_writeDigit {chars : List Char} (h : ∀ c ∈ chars, c.isDigit = true) :
    ∃ found : List (Fin 10), found.map writeDigit = chars := by
  induction chars with
  | nil => exact ⟨[], rfl⟩
  | cons c chars ih =>
    rw [List.forall_mem_cons] at h
    obtain ⟨d, rfl⟩ := exists_writeDigit h.1
    obtain ⟨found, rfl⟩ := ih h.2
    exact ⟨d :: found, rfl⟩

private theorem digits_map_writeDigit (found : List (Fin 10)) (hrest : digits rest = ([], rest)) :
    digits (found.map writeDigit ++ rest) = (found, rest) := by
  induction found with
  | nil => exact hrest
  | cons d found ih => simp only [List.map_cons, List.cons_append, digits, digit?_writeDigit, ih]

private theorem valueOf_eq (found : List (Fin 10)) : valueOf found = Nat.ofDigitChars 10 (found.map writeDigit) 0 := by
  have hdigit : ∀ d, (writeDigit d).toNat - '0'.toNat = d.val := by decide
  rw [valueOf, Nat.ofDigitChars_eq_foldl, List.foldl_map]
  simp only [hdigit, Nat.mul_comm 10]

private theorem exists_digits_toDigits (n : ℕ) (hrest : digits rest = ([], rest)) :
    ∃ found, digits (Nat.toDigits 10 n ++ rest) = (found, rest) ∧ found ≠ [] ∧ valueOf found = n ∧
      found.map writeDigit = Nat.toDigits 10 n := by
  obtain ⟨found, hfound⟩ : ∃ found : List (Fin 10), found.map writeDigit = Nat.toDigits 10 n :=
    exists_map_writeDigit fun c hc => Nat.isDigit_of_mem_toDigits (by decide) (by decide) hc
  refine ⟨found, ?_, ?_, ?_, hfound⟩
  · rw [← hfound, digits_map_writeDigit found hrest]
  · rintro rfl
    exact Nat.toDigits_ne_nil hfound.symm
  · rw [valueOf_eq, hfound, Nat.ofDigitChars_ten_toDigits]

theorem head_ne_zero {d e : Fin 10} {more : List (Fin 10)} {n : ℕ}
    (h : (d :: e :: more).map writeDigit = Nat.toDigits 10 n) : d ≠ 0 := by
  rintro rfl
  have hlength := (isNumeral_toDigits n).noZero (by rw [← h]; rfl)
  rw [← h, List.length_map] at hlength
  exact absurd hlength (by simp)

private theorem wholePart?_toDigits (n : ℕ) (hrest : digits rest = ([], rest)) :
    wholePart? (Nat.toDigits 10 n ++ rest) = some (n, rest) := by
  obtain ⟨found, hdigits, hsome, hvalue, hchars⟩ := exists_digits_toDigits n hrest
  rw [wholePart?, hdigits, ← hvalue]
  rcases found with _ | ⟨d, _ | ⟨e, more⟩⟩
  · exact absurd rfl hsome
  · cases d using Fin.cases <;> rfl
  · have hd := head_ne_zero hchars
    cases d using Fin.cases with
    | zero => exact absurd rfl hd
    | succ d => rfl

private theorem exponentDigits?_toDigits (negative : Bool) (n : ℕ) :
    exponentDigits? negative (Nat.toDigits 10 n) = some (some (if negative then -(n : ℤ) else n), []) := by
  have hnil : digits [] = ([], []) := rfl
  obtain ⟨found, hdigits, hsome, hvalue, -⟩ := exists_digits_toDigits n hnil
  rw [List.append_nil] at hdigits
  rw [exponentDigits?, hdigits, ← hvalue]
  cases found with
  | nil => exact absurd rfl hsome
  | cons d more => rfl

private theorem exponentPart?_writeInt (n : ℤ) : exponentPart? ('e' :: writeInt n) = some (some n, []) := by
  unfold exponentPart? writeInt
  dsimp only
  rw [if_pos (.inl rfl)]
  by_cases hneg : n < 0
  · rw [if_pos hneg, List.cons_append, List.nil_append]
    change exponentDigits? true (Nat.toDigits 10 n.natAbs) = _
    rw [exponentDigits?_toDigits, if_pos rfl, show -(n.natAbs : ℤ) = n by omega]
  · obtain ⟨c, more, hdigits⟩ := List.exists_cons_of_ne_nil (Nat.toDigits_ne_nil (n := n.natAbs) (b := 10))
    have hc : c.isDigit = true :=
      Nat.isDigit_of_mem_toDigits (by decide) (by decide) (hdigits ▸ List.mem_cons_self)
    have hplus : c ≠ '+' := by
      rintro rfl
      cases hc
    have hminus : c ≠ '-' := by
      rintro rfl
      cases hc
    have hread := exponentDigits?_toDigits false n.natAbs
    rw [if_neg (by decide), show (n.natAbs : ℤ) = n by omega, hdigits] at hread
    rw [if_neg hneg, List.nil_append, hdigits]
    simpa [hplus, hminus] using hread

/-- What is written for a number after its whole part. -/
def writeTail (n : Number) : List Char :=
  (if n.fraction.isEmpty then [] else '.' :: n.fraction.map writeDigit)
    ++ n.exponent.elim [] fun exponent => 'e' :: writeInt exponent

private theorem digits_exponent (exponent : Option ℤ) :
    digits (exponent.elim [] fun exponent => 'e' :: writeInt exponent)
      = ([], exponent.elim [] fun exponent => 'e' :: writeInt exponent) := by
  cases exponent <;> rfl

theorem magnitude?_write (n : Number) (negative : Bool) :
    magnitude? negative (Nat.toDigits 10 n.whole ++ writeTail n) = some ({ n with negative }, []) := by
  have hexponent : exponentPart? (n.exponent.elim [] fun exponent => 'e' :: writeInt exponent)
      = some (n.exponent, []) := by
    cases n.exponent with
    | none => rfl
    | some exponent => exact exponentPart?_writeInt exponent
  have hfraction : fractionPart? (writeTail n)
      = some (n.fraction, n.exponent.elim [] fun exponent => 'e' :: writeInt exponent) := by
    unfold writeTail
    cases n.fraction with
    | nil => cases n.exponent <;> rfl
    | cons d more =>
      rw [if_neg (by simp), List.cons_append, fractionPart?, digits_map_writeDigit _ (digits_exponent _)]
  have hwhole : wholePart? (Nat.toDigits 10 n.whole ++ writeTail n) = some (n.whole, writeTail n) := by
    refine wholePart?_toDigits _ ?_
    unfold writeTail
    cases n.fraction with
    | nil => exact digits_exponent _
    | cons d more => rfl
  simp only [magnitude?, hwhole, hfraction, hexponent, Option.bind_eq_bind, Option.bind_some]
  rfl

theorem scan_writeNumber (n : Number) : scan (writeNumber n) = some [.number n] := by
  have hwrite : writeNumber n
      = (if n.negative then ['-'] else []) ++ (Nat.toDigits 10 n.whole ++ writeTail n) := by
    simp [writeNumber, writeTail]
  have hread := magnitude?_write n n.negative
  rw [hwrite]
  cases hnegative : n.negative with
  | true =>
    rw [hnegative] at hread
    rw [if_pos rfl, List.cons_append, List.nil_append, scan_minus, hread, Option.bind_some, scan, ← hnegative]
    rfl
  | false =>
    rw [hnegative] at hread
    obtain ⟨c, more, hdigits⟩ := List.exists_cons_of_ne_nil (Nat.toDigits_ne_nil (n := n.whole) (b := 10))
    have hc : c.isDigit = true :=
      Nat.isDigit_of_mem_toDigits (by decide) (by decide) (hdigits ▸ List.mem_cons_self)
    rw [hdigits] at hread ⊢
    rw [if_neg (by decide), List.nil_append, List.cons_append, scan_digit hc, ← List.cons_append, hread,
      Option.bind_some, scan, ← hnegative]
    rfl

/-! ## Strings -/

theorem pieces_code (a b c d : Char) (text : List Char) :
    pieces ('\\' :: 'u' :: a :: b :: c :: d :: text)
      = (hexWord? [a, b, c, d]).bind fun code => (pieces text).map fun found => (.unit code :: found.1, found.2) := by
  rw [pieces]
  cases hexWord? [a, b, c, d] with
  | none => rfl
  | some code => cases pieces text <;> rfl

theorem pieces_backslash {c : Char} (hc : c ≠ 'u') (text : List Char) :
    pieces ('\\' :: c :: text)
      = (escaped? c).bind fun meant => (pieces text).map fun found => (.char meant :: found.1, found.2) := by
  rw [pieces]
  · cases escaped? c with
    | none => rfl
    | some meant => cases pieces text <;> rfl
  · exact fun _ _ _ _ _ hu _ => hc hu

theorem pieces_plain {c : Char} (hquote : c ≠ '"') (hplain : ¬(c = '\\' ∨ c.toNat < 0x20)) (text : List Char) :
    pieces (c :: text) = (pieces text).map fun found => (.char c :: found.1, found.2) := by
  rw [pieces]
  · rw [if_neg hplain]
    cases pieces text <;> rfl
  · exact hquote
  · exact fun _ _ _ _ _ hslash _ => hplain (.inl hslash)
  · exact fun _ _ hslash _ => hplain (.inl hslash)

theorem pieces_append {text after : List Char} {found : List Piece} (h : pieces text = some (found, after))
    (rest : List Char) : pieces (text ++ rest) = some (found, after ++ rest) := by
  induction text using pieces.induct generalizing found after with
  | case1 => cases h
  | case2 tail =>
    rw [pieces] at h
    obtain ⟨rfl, rfl⟩ := Prod.mk.inj (Option.some.inj h)
    rw [List.cons_append, pieces]
  | case3 a b c d tail ih =>
    rw [pieces_code] at h
    obtain ⟨code, hcode, h⟩ := Option.bind_eq_some_iff.1 h
    obtain ⟨⟨more, left⟩, hmore, hfound⟩ := Option.map_eq_some_iff.1 h
    obtain ⟨rfl, rfl⟩ := Prod.mk.inj hfound
    simp only [List.cons_append]
    rw [pieces_code, hcode, Option.bind_some, ih hmore]
    rfl
  | case4 c tail _ ih =>
    have hc : c ≠ 'u' := by
      rintro rfl
      rw [pieces] at h
      · cases h
      · assumption
    rw [pieces_backslash hc] at h
    obtain ⟨meant, hmeant, h⟩ := Option.bind_eq_some_iff.1 h
    obtain ⟨⟨more, left⟩, hmore, hfound⟩ := Option.map_eq_some_iff.1 h
    obtain ⟨rfl, rfl⟩ := Prod.mk.inj hfound
    rw [List.cons_append, List.cons_append, pieces_backslash hc, hmeant, Option.bind_some, ih hmore]
    rfl
  | case5 c tail hquote hcode hslash hbad =>
    rw [pieces, if_pos hbad] at h
    · cases h
    all_goals assumption
  | case6 c tail hquote _ _ hplain ih =>
    rw [pieces_plain hquote hplain] at h
    obtain ⟨⟨more, left⟩, hmore, hfound⟩ := Option.map_eq_some_iff.1 h
    obtain ⟨rfl, rfl⟩ := Prod.mk.inj hfound
    rw [List.cons_append, pieces_plain hquote hplain, ih hmore]
    rfl

open Writer (escape unicodeEscape hexDigits writeText)

theorem pieces_escaped {e c : Char} (h : escaped? e = some c) (text : List Char) :
    pieces ('\\' :: e :: text) = (pieces text).map fun found => (.char c :: found.1, found.2) := by
  have he : e ≠ 'u' := by
    rintro rfl
    cases h
  rw [pieces_backslash he, h, Option.bind_some]

private theorem hexDigit?_hexDigits : ∀ digit < 16, hexDigit? (hexDigits.getD digit '0') = some digit := by
  decide

private theorem hexWord?_hexDigits {code : ℕ} (h : code < 0x10000) :
    hexWord? ([code / 4096, code / 256 % 16, code / 16 % 16, code % 16].map (hexDigits.getD · '0')) = some code := by
  have hvalue : (((0 * 16 + code / 4096) * 16 + code / 256 % 16) * 16 + code / 16 % 16) * 16 + code % 16 = code := by
    omega
  simp only [hexWord?, List.map_cons, List.map_nil, List.foldlM_cons, List.foldlM_nil,
    hexDigit?_hexDigits _ (show code / 4096 < 16 by omega), hexDigit?_hexDigits _ (Nat.mod_lt _ (by decide)),
    Option.map_some, Option.bind_eq_bind, Option.bind_some, hvalue]
  rfl

private theorem pieces_unicodeEscape {code : ℕ} (h : code < 0x10000) (text : List Char) :
    pieces (unicodeEscape code ++ text) = (pieces text).map fun found => (.unit code :: found.1, found.2) := by
  have hword := hexWord?_hexDigits h
  simp only [List.map_cons, List.map_nil] at hword
  simp only [unicodeEscape, List.map_cons, List.map_nil, List.cons_append, List.nil_append]
  rw [pieces_code, hword, Option.bind_some]

private theorem join_unit {code : ℕ} (h : code < 0xD800) (tail : List Piece) :
    join (.unit code :: tail) = (join tail).map (Char.ofNat code :: ·) := by
  have hhigh : isHighSurrogate code = false := by
    simp [isHighSurrogate]
    omega
  have hlow : isLowSurrogate code = false := by
    simp [isLowSurrogate]
    omega
  rcases tail with _ | ⟨c | low, tail⟩
  · simp [join, hhigh, hlow]
  · simp [join, hhigh, hlow]
  · simp [join, hhigh, hlow]

/-- What is written for a character is one piece of a string, which stands for that character. -/
theorem exists_piece (c : Char) : ∃ piece, (∀ text, pieces (escape c ++ text)
      = (pieces text).map fun found => (piece :: found.1, found.2)) ∧
    ∀ tail, join (piece :: tail) = (join tail).map (c :: ·) := by
  unfold escape
  split
  case h_8 hquote hslash _ _ _ _ _ =>
    split
    · rename_i hcontrol
      refine ⟨.unit c.toNat, pieces_unicodeEscape (by omega), fun tail => ?_⟩
      rw [join_unit (by omega), Char.ofNat_toNat]
    · rename_i hcontrol
      exact ⟨.char c, pieces_plain hquote (not_or.2 ⟨hslash, hcontrol⟩), fun _ => rfl⟩
  all_goals exact ⟨.char _, pieces_escaped rfl, fun _ => rfl⟩

private theorem exists_pieces (chars rest : List Char) :
    ∃ found, pieces (chars.flatMap escape ++ '"' :: rest) = some (found, rest) ∧ join found = some chars := by
  induction chars with
  | nil => exact ⟨[], by rw [List.flatMap_nil, List.nil_append, pieces], rfl⟩
  | cons c chars ih =>
    obtain ⟨piece, hpiece, hjoin⟩ := exists_piece c
    obtain ⟨found, hfound, hchars⟩ := ih
    refine ⟨piece :: found, ?_, ?_⟩
    · rw [List.flatMap_cons, List.append_assoc, hpiece, hfound]
      rfl
    · rw [hjoin, hchars]
      rfl

theorem scan_writeText (text : Text) : scan (writeText text) = some [.string text] := by
  cases text with
  | none =>
    have hpieces : pieces (unicodeEscape 0xD800 ++ ['"']) = some ([.unit 0xD800], []) := by
      rw [pieces_unicodeEscape (by decide), pieces]
      rfl
    rw [writeText, List.cons_append, scan_quote, hpieces, Option.bind_some, scan]
    rfl
  | some text =>
    obtain ⟨found, hfound, hjoin⟩ := exists_pieces text.toList []
    rw [writeText, List.cons_append, scan_quote, hfound, Option.bind_some, scan, hjoin]
    simp

/-! ## More behind a text -/

theorem plain_of_isBlank {c : Char} (h : isBlank c = true) : beginsToken c = false := by
  simp only [isBlank, Bool.or_eq_true, beq_iff_eq] at h
  rcases h with ((rfl | rfl) | rfl) | rfl <;> rfl

theorem isDigit_of_magnitude? {negative : Bool} {c : Char} {text : List Char} {found : Number × List Char}
    (h : magnitude? negative (c :: text) = some found) : c.isDigit = true := by
  by_contra hc
  have hdigit : digit? c = none := by
    rw [digit?, dif_neg (fun h => hc h.1)]
  rw [magnitude?, wholePart?, digits, hdigit] at h
  cases h

/-- A text that falls into tokens falls into the same tokens with more behind it, if that begins with a mark. -/
theorem scan_append {text : List Char} {tokens : List Token} (h : scan text = some tokens)
    (hrest : BeginsWithMark rest) : scan (text ++ rest) = (scan rest).map (tokens ++ ·) := by
  fun_induction scan text generalizing tokens with
  | case1 =>
    obtain rfl := Option.some.inj h
    rw [List.nil_append]
    cases scan rest <;> rfl
  | case2 text ih | case3 text ih | case4 text ih =>
    obtain ⟨more, hmore, rfl⟩ := Option.map_eq_some_iff.1 h
    simp only [List.cons_append, scan, ih hmore, Option.map_map]
    rfl
  | case5 text found after hfound _ ih =>
    obtain ⟨more, hmore, rfl⟩ := Option.map_eq_some_iff.1 h
    rw [List.cons_append, scan_quote, pieces_append hfound, Option.bind_some, ih hmore, Option.map_map]
    rfl
  | case6 text hfound => cases h
  | case7 text n after hfound _ ih =>
    obtain ⟨more, hmore, rfl⟩ := Option.map_eq_some_iff.1 h
    rw [List.cons_append, scan_minus, magnitude?_append hrest, hfound, Option.map_some, Option.bind_some,
      ih hmore, Option.map_map]
    rfl
  | case8 text hfound => cases h
  | case9 c text _ _ _ _ _ hblank ih =>
    rw [List.cons_append, scan_plain (plain_of_isBlank hblank), if_pos hblank, ih h]
  | case10 c text _ _ _ _ _ _ mark hmark ih =>
    obtain ⟨more, hmore, rfl⟩ := Option.map_eq_some_iff.1 h
    rw [List.cons_append, scan_mark hmark, ih hmore, Option.map_map]
    rfl
  | case11 c text _ _ _ _ _ _ _ n after hfound _ ih =>
    obtain ⟨more, hmore, rfl⟩ := Option.map_eq_some_iff.1 h
    rw [List.cons_append, scan_digit (isDigit_of_magnitude? hfound), ← List.cons_append,
      magnitude?_append hrest, hfound, Option.map_some, Option.bind_some, ih hmore, Option.map_map]
    rfl
  | case12 c text _ _ _ _ _ _ _ hfound => cases h

end TradeReport.Json.Token
