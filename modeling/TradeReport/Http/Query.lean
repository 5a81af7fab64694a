import TradeReport.Binary64.Reading
/-!
# Queries

The query of a request lists names and values as a form sends them: pairs between ampersands, a plus sign for
a space, and bytes as two hexadecimal digits after a percent sign. A name that is asked for may be given once.
-/

namespace TradeReport.Http

/-- The parts of a text between the places where a character stands. -/
def splitAt (separator : Char) : List Char → List (List Char)
  | [] => [[]]
  | c :: rest =>
    if c = separator then
      [] :: splitAt separator rest
    else
      match splitAt separator rest with
      | [] => [[c]]
      | part :: parts => (c :: part) :: parts

def hexDigit? (c : Char) : Option Nat :=
  if '0' ≤ c ∧ c ≤ '9' then some (c.toNat - 0x30)
  else if 'a' ≤ c ∧ c ≤ 'f' then some (c.toNat - 0x57)
  else if 'A' ≤ c ∧ c ≤ 'F' then some (c.toNat - 0x37)
  else none

/-- The bytes that an encoded text stands for. A percent sign without two digits stands for itself. -/
def decodedBytes : List Char → List UInt8
  | [] => []
  | '+' :: rest => 0x20 :: decodedBytes rest
  | '%' :: high :: low :: rest =>
    match hexDigit? high, hexDigit? low with
    | some high, some low => UInt8.ofNat (high * 16 + low) :: decodedBytes rest
    | _, _ => 0x25 :: decodedBytes (high :: low :: rest)
  | c :: rest => (String.singleton c).toUTF8.toList ++ decodedBytes rest

/-- The text of a part of a query, unless its bytes are no text. -/
def decoded? (part : List Char) : Option String :=
  String.fromUTF8? (ByteArray.mk (decodedBytes part).toArray)

/-- The pairs of a query. A part without an equals sign is a name with nothing under it. -/
def queryPairs (query : List Char) : List (Option String × Option String) :=
  ((splitAt '&' query).filter (!·.isEmpty)).map fun part =>
    let (name, value) := part.span (· != '=')
    (decoded? name, decoded? (value.drop 1))

/-- What the report routes can be asked for. -/
structure ReportQuery where
  /-- The days to go back from the present. -/
  days : Option Float
  precision : Option Nat

namespace ReportQuery

/-- The value under a name: none when it is not given, and an error when it is given twice or not readable. -/
def parameter? (name : String) (read : List Char → Option α)
    (pairs : List (Option String × Option String)) : Option (Option α) :=
  match pairs.filter fun pair => pair.1 = some name with
  | [] => some none
  | [(_, some value)] => (read value.toList).map some
  | _ => none

def ofChars? (query : List Char) : Option ReportQuery := do
  let pairs := queryPairs query
  return { days := ← parameter? "days" Binary64.ofChars? pairs
           precision := ← parameter? "precision" Decimal.word32? pairs }

end ReportQuery

end TradeReport.Http
