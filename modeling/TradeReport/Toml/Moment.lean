import TradeReport.Toml.Number
/-!
# Dates and times in settings

A moment is a date, a time of day, or both, and with both it may be tied to a zone. No setting holds one, so it
is checked and kept as text: with a letter between date and time, and with the places of a second, of which nine
count, up to the last that is no zero.
-/

namespace TradeReport.Toml

open Scan

/-- A number of exactly so many digits, between two bounds. -/
def figures (count least most : Nat) : Scan Nat :=
  (exactly count Char.isDigit).ruled fun digits =>
    let n := valueOf 10 digits
    if least ≤ n ∧ n ≤ most then .ok n else .error .outOfRange

def isLeap (year : Nat) : Bool :=
  year % 4 == 0 && (year % 100 != 0 || year % 400 == 0)

def daysIn (year month : Nat) : Nat :=
  match month with
  | 2 => if isLeap year then 29 else 28
  | 4 | 6 | 9 | 11 => 30
  | _ => 31

def figuresText (count n : Nat) : String :=
  String.ofList (zeroPadded count n)

def date : Scan String := do
  let year ← figures 4 0 9999
  char '-'
  firm do
    let month ← figures 2 1 12
    char '-'
    let first ← place
    let day ← figures 2 1 31
    if daysIn year month < day then
      refuseAt first (some .outOfRange)
    return "-".intercalate [figuresText 4 year, figuresText 2 month, figuresText 2 day]

/-- The places of a second. -/
def secondPlaces : Scan String := do
  char '.'
  let digits := (← digit) :: (← charsWhere Char.isDigit)
  let places := ((digits.take 9).reverse.dropWhile (· == '0')).reverse
  return if places.isEmpty then "" else String.ofList ('.' :: places)

/-- A time of day. The sixtieth second is the one that is put in now and then. -/
def timeOfDay : Scan String := do
  let hour ← figures 2 0 23
  char ':'
  firm do
    let minute ← figures 2 0 59
    char ':'
    let second ← figures 2 0 60
    let places ← optional? secondPlaces
    return ":".intercalate [figuresText 2 hour, figuresText 2 minute, figuresText 2 second] ++ places.getD ""

/-- The distance of a zone. One of no minutes is never behind. -/
def zoneDistance : Scan String := do
  let sign ← charWhere fun c => c == '+' || c == '-'
  firm do
    let hour ← figures 2 0 23
    char ':'
    let minute ← figures 2 0 59
    let sign := if hour = 0 ∧ minute = 0 then '+' else sign
    return String.ofList [sign] ++ ":".intercalate [figuresText 2 hour, figuresText 2 minute]

def zone : Scan String :=
  about "time offset" <|
    ((fun _ => "Z") <$> charWhere fun c => c == 'Z' || c == 'z') <|> zoneDistance

/-- What follows a date that is not the whole moment. -/
def timeBehind : Scan String := do
  let _ ← charWhere fun c => c == 'T' || c == 't' || c == ' '
  let time ← timeOfDay
  return "T" ++ time ++ (← optional? zone).getD ""

def moment : Scan String :=
  (about "date-time" do
    let date ← date
    return date ++ (← optional? timeBehind).getD "")
  <|> about "time" timeOfDay

end TradeReport.Toml
