import TradeReport.Decimal.Arithmetic
import TradeReport.Text.Digits
/-!
# Reading and writing decimals

A decimal is written with all its places. The reader takes more than the writer produces: a sign, a point
with nothing on one side, underscores between digits, more places than fit, and a power of ten.
-/

namespace TradeReport

namespace Decimal

/-! ## Writing -/

/-- The digits of a mantissa with the point before the last `scale` of them. -/
def pointed (mantissa scale : Nat) : List Char :=
  let digits := zeroPadded (scale + 1) mantissa
  let whole := digits.take (digits.length - scale)
  if scale = 0 then whole else whole ++ '.' :: digits.drop (digits.length - scale)

def toChars (a : Decimal) : List Char :=
  let body := pointed a.mantissa a.scale
  if a.negative then '-' :: body else body

def toText (a : Decimal) : String :=
  String.ofList a.toChars

instance : ToString Decimal := ⟨toText⟩

instance : Repr Decimal := ⟨fun a _ => a.toText⟩

/-! ## Reading -/

/-- The value of a digit. -/
def digit? (c : Char) : Option Nat :=
  if c.isDigit then some (c.toNat - '0'.toNat) else none

/-- After the last digit that counts only digits and underscores may follow. -/
def onlyDigits (rest : List Char) : Bool :=
  rest.all fun c => c.isDigit || c == '_'

/-- The mantissa with one digit too many, which is rounded half up. A mantissa that reaches the bound gives
up a place. -/
def roundedMantissa? (mantissa scale digit : Nat) : Option (Nat × Nat) :=
  if digit < 5 then
    some (mantissa, scale)
  else if mantissa + 1 < mantissaBound then
    some (mantissa + 1, scale)
  else if scale = 0 then
    none
  else
    some ((mantissa + 1 + 4) / 10, scale - 1)

/-- Mantissas from about twenty digits on. -/
def isLong (mantissa : Nat) : Bool :=
  ((wordBound 64 - 1) / 10 - 255) * 10 ≤ mantissa

/-- The mantissa behind which no more places fit, and what follows it: the next digit rounds it. Underscores
before that digit are passed over behind a long mantissa; behind a short one they stand for a zero. -/
def readRounding (mantissa scale : Nat) : List Char → Option (Nat × Nat)
  | [] => some (mantissa, scale)
  | c :: rest =>
    match digit? c with
    | some digit => if onlyDigits rest then roundedMantissa? mantissa scale digit else none
    | none =>
      if c != '_' then none
      else if isLong mantissa then readRounding mantissa scale rest
      else if onlyDigits rest then some (mantissa, scale)
      else none

/-- The places: `started` says whether a digit has been read, since an underscore needs one before it. -/
def readPlaces (started : Bool) (mantissa scale : Nat) : List Char → Option (Nat × Nat)
  | [] => if started then some (mantissa, scale) else none
  | c :: rest =>
    match digit? c with
    | some digit =>
      if mantissa * 10 + digit ≥ mantissaBound then
        readRounding mantissa scale (c :: rest)
      else if scale + 1 = maxScale then
        readRounding (mantissa * 10 + digit) maxScale rest
      else
        readPlaces true (mantissa * 10 + digit) (scale + 1) rest
    | none => if c = '_' ∧ started then readPlaces started mantissa scale rest else none

/-- The whole part, whose digits must all fit. -/
def readWhole (started : Bool) (mantissa : Nat) : List Char → Option (Nat × Nat)
  | [] => if started then some (mantissa, 0) else none
  | c :: rest =>
    match digit? c with
    | some digit =>
      if mantissa * 10 + digit ≥ mantissaBound then none
      else readWhole true (mantissa * 10 + digit) rest
    | none =>
      if c = '.' then readPlaces started mantissa 0 rest
      else if c = '_' ∧ started then readWhole started mantissa rest
      else none

/-- A sign, if there is one, and what follows it. -/
def splitSign : List Char → Bool × List Char
  | '-' :: rest => (true, rest)
  | '+' :: rest => (false, rest)
  | text => (false, text)

/-- A decimal without a power of ten. A zero loses its sign. -/
def ofPlainChars? (text : List Char) : Option Decimal := do
  let (negative, body) := splitSign text
  let (mantissa, scale) ← readWhole false 0 body
  ofParts? (negative && mantissa != 0) mantissa scale

/-- A natural number of 32 bits, with an optional plus sign. -/
def word32? (text : List Char) : Option Nat := do
  let digits := match text with
    | '+' :: rest => rest
    | _ => text
  if digits.isEmpty then
    none
  else
    let value ← digits.foldlM (fun value c => (digit? c).map (value * 10 + ·)) 0
    if value < wordBound 32 then some value else none

/-- `base / 10 ^ exponent`, with the base rounded first when it would have too many places. What is rounded to
nothing here keeps its sign. -/
def lowered? (base : Decimal) (exponent : Nat) : Option Decimal :=
  if exponent > maxScale then
    none
  else if base.scale + exponent > maxScale then
    let excess := base.scale + exponent - maxScale
    ofParts? base.negative (Rounding.halfAway.quotient base.mantissa (tenPower excess)) maxScale
  else
    ofParts? base.negative base.mantissa (base.scale + exponent)

/-- `base * 10 ^ exponent`, without zeros at the end when the places do not cover the exponent. -/
def raised? (base : Decimal) (exponent : Nat) : Option Decimal :=
  if exponent ≤ base.scale then
    ofParts? base.negative base.mantissa (base.scale - exponent)
  else if exponent > maxScale then
    none
  else do
    let high ← tenToThe? 19
    let (base, exponent) ←
      if exponent ≥ 19 then (mul? base high).map (·, exponent - 19) else some (base, exponent)
    let low ← tenToThe? exponent
    let product ← mul? base low
    return product.trimZeros

/-- The text before the first `e` or `E`, and the text after it. -/
def splitExponent? (text : List Char) : Option (List Char × List Char) :=
  match text.span (fun c => c != 'e' && c != 'E') with
  | (_, []) => none
  | (base, _ :: exponent) => some (base, exponent)

/-- A plain decimal, a letter `e` and a power of ten. -/
def ofScientificChars? (text : List Char) : Option Decimal := do
  let (base, exponent) ← splitExponent? text
  let base ← ofPlainChars? base
  match exponent with
  | '-' :: digits => do lowered? base (← word32? digits)
  | digits => do raised? base (← word32? digits)

def ofChars? (text : List Char) : Option Decimal :=
  (ofPlainChars? text).orElse fun _ => ofScientificChars? text

def ofText? (text : String) : Option Decimal :=
  ofChars? text.toList

end Decimal

end TradeReport
