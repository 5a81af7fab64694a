import TradeReport.Json.Value
/-!
# The tokens of a JSON text

A text is first cut into marks, words, strings and numbers; blanks between them are dropped. Whether the
tokens form a value is the reader's question.
-/

namespace TradeReport.Json

inductive Token where
  | openArray
  | closeArray
  | openObject
  | closeObject
  | comma
  | colon
  | null
  | bool (b : Bool)
  | string (text : Text)
  | number (n : Number)
  deriving Repr

namespace Token

/-! ## Strings -/

/-- A part of a string: a character, or the sixteen bits that an escape names. -/
inductive Piece where
  | char (c : Char)
  | unit (code : Nat)

def hexDigit? (c : Char) : Option Nat :=
  if c.isDigit then some (c.toNat - '0'.toNat)
  else if 'a' ≤ c ∧ c ≤ 'f' then some (c.toNat - 'a'.toNat + 10)
  else if 'A' ≤ c ∧ c ≤ 'F' then some (c.toNat - 'A'.toNat + 10)
  else none

def hexWord? (digits : List Char) : Option Nat :=
  digits.foldlM (fun value c => (hexDigit? c).map (value * 16 + ·)) 0

/-- The character that a backslash and `c` stand for. -/
def escaped? : Char → Option Char
  | '"' => some '"'
  | '\\' => some '\\'
  | '/' => some '/'
  | 'b' => some '\x08'
  | 'f' => some '\x0c'
  | 'n' => some '\n'
  | 'r' => some '\r'
  | 't' => some '\t'
  | _ => none

/-- The pieces up to the closing quote, and what follows it. -/
def pieces : List Char → Option (List Piece × List Char)
  | [] => none
  | '"' :: rest => some ([], rest)
  | '\\' :: 'u' :: a :: b :: c :: d :: rest => do
    let code ← hexWord? [a, b, c, d]
    let (tail, rest) ← pieces rest
    return (.unit code :: tail, rest)
  | '\\' :: c :: rest => do
    let c ← escaped? c
    let (tail, rest) ← pieces rest
    return (.char c :: tail, rest)
  | c :: rest =>
    if c = '\\' ∨ c.toNat < 0x20 then
      none
    else do
      let (tail, rest) ← pieces rest
      return (.char c :: tail, rest)

theorem pieces_rest_lt {text rest : List Char} {found : List Piece}
    (h : pieces text = some (found, rest)) : rest.length < text.length := by
  fun_induction pieces text generalizing found rest <;> simp_all [Option.bind_eq_some_iff]
  all_goals grind

def isHighSurrogate (code : Nat) : Bool :=
  0xD800 ≤ code && code < 0xDC00

def isLowSurrogate (code : Nat) : Bool :=
  0xDC00 ≤ code && code < 0xE000

/-- The characters of the pieces: two halves of a surrogate pair that follow each other make one
character, and a half on its own makes none. -/
def join : List Piece → Option (List Char)
  | [] => some []
  | .char c :: rest => (join rest).map (c :: ·)
  | .unit high :: .unit low :: rest =>
    if isHighSurrogate high then
      if isLowSurrogate low then
        (join rest).map (Char.ofNat (0x10000 + (high - 0xD800) * 0x400 + (low - 0xDC00)) :: ·)
      else
        none
    else if isLowSurrogate high then
      none
    else
      (join (.unit low :: rest)).map (Char.ofNat high :: ·)
  | .unit code :: rest =>
    if isHighSurrogate code || isLowSurrogate code then none
    else (join rest).map (Char.ofNat code :: ·)

/-! ## Numbers -/

def digit? (c : Char) : Option (Fin 10) :=
  if h : c.isDigit ∧ c.toNat - '0'.toNat < 10 then some ⟨c.toNat - '0'.toNat, h.2⟩ else none

/-- The digits at the front, and the rest. -/
def digits : List Char → List (Fin 10) × List Char
  | [] => ([], [])
  | c :: rest =>
    match digit? c with
    | some d => let (more, rest) := digits rest; (d :: more, rest)
    | none => ([], c :: rest)

theorem digits_rest_le (text : List Char) : (digits text).2.length ≤ text.length := by
  induction text with
  | nil => simp [digits]
  | cons c rest ih =>
    unfold digits
    split
    · simp only [List.length_cons]; omega
    · simp

def valueOf (digits : List (Fin 10)) : Nat :=
  digits.foldl (fun value d => value * 10 + d.val) 0

/-- A zero that starts a whole part stands alone. -/
def wholePart? (text : List Char) : Option (Nat × List Char) :=
  match digits text with
  | ([], _) => none
  | (0 :: _ :: _, _) => none
  | (found, rest) => some (valueOf found, rest)

def fractionPart? : List Char → Option (List (Fin 10) × List Char)
  | '.' :: rest =>
    match digits rest with
    | ([], _) => none
    | found => some found
  | text => some ([], text)

def exponentDigits? (negative : Bool) (text : List Char) : Option (Option Int × List Char) :=
  match digits text with
  | ([], _) => none
  | (found, rest) =>
    let value := valueOf found
    some (some (if negative then -(value : Int) else value), rest)

def exponentPart? : List Char → Option (Option Int × List Char)
  | c :: rest =>
    if c = 'e' ∨ c = 'E' then
      match rest with
      | '+' :: rest => exponentDigits? false rest
      | '-' :: rest => exponentDigits? true rest
      | rest => exponentDigits? false rest
    else
      some (none, c :: rest)
  | [] => some (none, [])

/-- A number without its sign. -/
def magnitude? (negative : Bool) (text : List Char) : Option (Number × List Char) := do
  let (whole, rest) ← wholePart? text
  let (fraction, rest) ← fractionPart? rest
  let (exponent, rest) ← exponentPart? rest
  return (⟨negative, whole, fraction, exponent⟩, rest)

private theorem wholePart?_rest_lt {text rest : List Char} {whole : Nat}
    (h : wholePart? text = some (whole, rest)) : rest.length < text.length := by
  cases text with
  | nil => simp [wholePart?, digits] at h
  | cons c tail =>
    have hle := digits_rest_le tail
    unfold wholePart? digits at h
    cases hd : digit? c with
    | none => simp [hd] at h
    | some d =>
      simp only [hd] at h
      split at h
      · simp at h
      · simp at h
      · rename_i heq
        obtain ⟨-, rfl⟩ := Prod.mk.inj heq
        obtain ⟨-, rfl⟩ := Prod.mk.inj (Option.some.inj h)
        exact Nat.lt_succ_of_le hle

private theorem fractionPart?_rest_le {text rest : List Char} {found : List (Fin 10)}
    (h : fractionPart? text = some (found, rest)) : rest.length ≤ text.length := by
  unfold fractionPart? at h
  split at h
  · rename_i tail
    have hle := digits_rest_le tail
    split at h
    · simp at h
    · simp only [Option.some.injEq] at h
      simp only [h] at hle
      simp only [List.length_cons]; omega
  · simp_all

private theorem exponentDigits?_rest_le {negative : Bool} {text rest : List Char} {found : Option Int}
    (h : exponentDigits? negative text = some (found, rest)) : rest.length ≤ text.length := by
  have hle := digits_rest_le text
  unfold exponentDigits? at h
  split at h
  · simp at h
  · simp_all

private theorem exponentPart?_rest_le {text rest : List Char} {found : Option Int}
    (h : exponentPart? text = some (found, rest)) : rest.length ≤ text.length := by
  unfold exponentPart? at h
  split at h
  · rename_i tail
    split at h
    · split at h <;>
      · have hle := exponentDigits?_rest_le h
        simp only [List.length_cons] at hle ⊢
        omega
    · simp_all
  · simp_all

theorem magnitude?_rest_lt {negative : Bool} {text rest : List Char} {n : Number}
    (h : magnitude? negative text = some (n, rest)) : rest.length < text.length := by
  simp only [magnitude?, bind, Option.bind_eq_some_iff, pure, Option.some.injEq, Prod.exists,
    Prod.mk.injEq] at h
  obtain ⟨_, _, hwhole, _, _, hfraction, _, _, hexponent, _, rfl⟩ := h
  have := wholePart?_rest_lt hwhole
  have := fractionPart?_rest_le hfraction
  have := exponentPart?_rest_le hexponent
  omega

/-! ## The whole text -/

def isBlank (c : Char) : Bool :=
  c == ' ' || c == '\n' || c == '\t' || c == '\r'

def mark? : Char → Option Token
  | '[' => some .openArray
  | ']' => some .closeArray
  | '\x7b' => some .openObject
  | '\x7d' => some .closeObject
  | ',' => some .comma
  | ':' => some .colon
  | _ => none

def scan : List Char → Option (List Token)
  | [] => some []
  | 't' :: 'r' :: 'u' :: 'e' :: rest => (scan rest).map (.bool true :: ·)
  | 'f' :: 'a' :: 'l' :: 's' :: 'e' :: rest => (scan rest).map (.bool false :: ·)
  | 'n' :: 'u' :: 'l' :: 'l' :: rest => (scan rest).map (.null :: ·)
  | '"' :: rest =>
    match h : pieces rest with
    | some (found, after) =>
      have := pieces_rest_lt h
      (scan after).map (.string ((join found).map String.ofList) :: ·)
    | none => none
  | '-' :: rest =>
    match h : magnitude? true rest with
    | some (n, after) =>
      have := magnitude?_rest_lt h
      (scan after).map (.number n :: ·)
    | none => none
  | c :: rest =>
    if isBlank c then
      scan rest
    else
      match mark? c with
      | some mark => (scan rest).map (mark :: ·)
      | none =>
        match h : magnitude? false (c :: rest) with
        | some (n, after) =>
          have := magnitude?_rest_lt h
          (scan after).map (.number n :: ·)
        | none => none
  termination_by text => text.length
  decreasing_by
    all_goals grind

end Token

end TradeReport.Json
