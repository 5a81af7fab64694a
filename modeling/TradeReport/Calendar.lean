import TradeReport.Text.Digits
/-!
# Dates and durations

Times are milliseconds since the start of 1970 in universal time, and dates are those of the Gregorian
calendar in both directions. Two texts of durations are in use: days and clock time for a report, and the
largest fitting unit with a fraction for a timeout.
-/

namespace TradeReport

/-- The earliest and the latest time that has a date, in milliseconds. -/
def earliestTime : Int := -8334601228800000

def latestTime : Int := 8210266876799999

def hasDate (time : Int) : Bool :=
  earliestTime ≤ time && time ≤ latestTime

abbrev millisPerDay : Int := 86400000

structure Date where
  year : Int
  month : Int
  day : Int
  deriving DecidableEq, Repr

namespace Date

/-- The date of a day counted from the first of January 1970. Years are counted from March here, so that the
day that leap years insert is the last of its year, in spans of 400 years that all have the same length. -/
def ofDayNumber (number : Int) : Date :=
  let shifted := number + 719468
  let span := shifted / 146097
  let dayOfSpan := shifted % 146097
  let yearOfSpan := (dayOfSpan - dayOfSpan / 1460 + dayOfSpan / 36524 - dayOfSpan / 146096) / 365
  let dayOfYear := dayOfSpan - (365 * yearOfSpan + yearOfSpan / 4 - yearOfSpan / 100)
  let monthFromMarch := (5 * dayOfYear + 2) / 153
  let month := if monthFromMarch < 10 then monthFromMarch + 3 else monthFromMarch - 9
  { year := yearOfSpan + span * 400 + (if month ≤ 2 then 1 else 0)
    month := month
    day := dayOfYear - (153 * monthFromMarch + 2) / 5 + 1 }

def ofTime (time : Int) : Date :=
  ofDayNumber (time / millisPerDay)

end Date

/-- Years of four digits stand alone, all others have a sign. -/
def yearChars (year : Int) : List Char :=
  if 0 ≤ year ∧ year ≤ 9999 then zeroPadded 4 year.natAbs
  else (if year < 0 then '-' else '+') :: zeroPadded 4 year.natAbs

/-- Year, month and day. -/
def Date.toChars (date : Date) : List Char :=
  yearChars date.year ++ '-' :: zeroPadded 2 date.month.natAbs ++ '-' :: zeroPadded 2 date.day.natAbs

/-- Hours, minutes and seconds of a count of seconds below a day. -/
def clockChars (seconds : Nat) : List Char :=
  zeroPadded 2 (seconds / 3600) ++ ':' :: zeroPadded 2 (seconds % 3600 / 60)
    ++ ':' :: zeroPadded 2 (seconds % 60)

/-- Date and time of day to the second. -/
def timeText (time : Int) : String :=
  let seconds := (time % millisPerDay / 1000).toNat
  String.ofList ((Date.ofTime time).toChars ++ ' ' :: clockChars seconds)

/-- A duration in milliseconds as days and clock time. Parts of a second do not count, and the sign is that of
the whole seconds. -/
def elapsedText (duration : Int) : String :=
  let seconds := duration.tdiv 1000
  let total := seconds.natAbs
  let sign := if seconds < 0 then ['-'] else []
  String.ofList
    (sign ++ Nat.toDigits 10 (total / 86400) ++ " days ".toList ++ clockChars (total % 86400))

/-- Spans of time are counted in nanoseconds. -/
abbrev Nanoseconds := Nat

abbrev nanosPerMilli : Nanoseconds := 1000000

/-- A fraction with the given number of places, without zeros at its end. -/
def fractionChars (places value : Nat) : List Char :=
  let digits := ((zeroPadded places value).reverse.dropWhile (· == '0')).reverse
  if digits.isEmpty then [] else '.' :: digits

/-- A span of time in the largest unit that it fills. -/
def spanText (span : Nanoseconds) : String :=
  let chars :=
    if span ≥ 1000000000 then
      Nat.toDigits 10 (span / 1000000000) ++ fractionChars 9 (span % 1000000000) ++ ['s']
    else if span ≥ 1000000 then
      Nat.toDigits 10 (span / 1000000) ++ fractionChars 6 (span % 1000000) ++ ['m', 's']
    else if span ≥ 1000 then
      Nat.toDigits 10 (span / 1000) ++ fractionChars 3 (span % 1000) ++ ['µ', 's']
    else
      Nat.toDigits 10 span ++ ['n', 's']
  String.ofList chars

end TradeReport
