import TradeReport.Binary64.Reading
import TradeReport.Toml.Quoted
/-!
# Numbers in settings

Whole numbers have 64 bits and are written in base ten, sixteen, eight or two. A number with a point or an
exponent is a double.
-/

namespace TradeReport.Toml

open Scan

def digit : Scan Char :=
  charWhere Char.isDigit

/-- Digits, and single underscores between two of them. The first digit may be of a smaller class. -/
def digitRun (isFirst isDigit : Char → Bool) : Scan (List Char) := do
  let first ← charWhere isFirst
  let more ← many <|
    charWhere isDigit <|> (char '_' *> (charWhere isDigit).firm.expecting (.phrase "digit"))
  return first :: more

def sign : Scan (List Char) := do
  return (← optional? (charWhere fun c => c == '+' || c == '-')).toList

/-! ## Whole numbers -/

/-- A whole number in base ten with its sign, without zeros in front. -/
def wholeDigits : Scan (List Char) :=
  about "integer" do
    let sign ← sign
    let digits ← digitRun (fun c => c.isDigit && c != '0') Char.isDigit <|> (return [← digit])
    return sign ++ digits

/-- A whole number in another base, after the mark of that base. -/
def wholeInBase (subject mark : String) (base : Nat) : Scan Int :=
  about subject do
    let isDigit (c : Char) : Bool := c.isAlphanum && decide (digitValue c < base)
    word mark
    let digits ← (digitRun isDigit isDigit).firm
    return (valueOf base digits : Nat)

def decimalWhole : Scan Int := do
  let (negative, digits) := Decimal.splitSign (← wholeDigits)
  let magnitude : Nat := valueOf 10 digits
  return if negative then -magnitude else magnitude

/-- A whole number of 64 bits. -/
def whole : Scan Int := do
  let first ← place
  let n ←
    wholeInBase "hexadecimal integer" "0x" 16
      <|> wholeInBase "octal integer" "0o" 8
      <|> wholeInBase "binary integer" "0b" 2
      <|> decimalWhole
  if n < -wordBound 63 then (refuseAt first (some .tooSmall)).firm
  else if wordBound 63 ≤ n then (refuseAt first (some .tooLarge)).firm
  else return n

/-! ## Doubles -/

def exponent : Scan (List Char) := do
  let mark ← charWhere fun c => c == 'e' || c == 'E'
  return mark :: (← sign) ++ (← (digitRun Char.isDigit Char.isDigit).firm)

def fraction : Scan (List Char) := do
  char '.'
  return '.' :: (← (digitRun Char.isDigit Char.isDigit).firm.expecting (.phrase "digit"))

/-- A number with a point or an exponent. One that is too large is refused, unless it is negative. -/
def pointed : Scan Float := do
  let first ← place
  let digits ← wholeDigits
  let tail ← exponent <|> (do return (← fraction) ++ (← optional? exponent).getD [])
  match Binary64.ofChars? (digits ++ tail) with
  | none => refuse
  | some x => if x == Binary64.infinity then (refuseAt first none).firm else return x

def infinity : Scan Float :=
  (fun _ => Binary64.infinity) <$> word "inf"

/-- What is no number. -/
def nan : Scan Float :=
  (fun _ => 0.0 / 0.0) <$> word "nan"

def named : Scan Float := do
  let sign ← sign
  let magnitude ← infinity <|> nan
  return if sign = ['-'] then -magnitude else magnitude

def double : Scan Float :=
  about "floating-point number" (pointed <|> named)

end TradeReport.Toml
