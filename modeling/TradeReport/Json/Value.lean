/-!
# JSON values

A value as its text gives it: members stay in the order of the text, a name may occur twice, and a number
keeps the digits it was written with. Readers of records decide what repeated names and long numbers mean.
-/

namespace TradeReport.Json

/-- The characters of a JSON string. An escape can name half of a surrogate pair without its other half;
such a string holds no text, and this is `none`. -/
abbrev Text := Option String

/-- A number by its digits: whole part, digits after the point (none when there is no point), and the
exponent if one is written. -/
structure Number where
  negative : Bool
  whole : Nat
  fraction : List (Fin 10)
  exponent : Option Int
  deriving DecidableEq, Repr, Inhabited

inductive Value where
  | null
  | bool (b : Bool)
  | number (n : Number)
  | string (text : Text)
  | array (items : List Value)
  | object (members : List (Text × Value))
  deriving Inhabited, Repr

namespace Number

def ofInt (n : Int) : Number :=
  ⟨decide (n < 0), n.natAbs, [], none⟩

/-- Written without point and exponent. A negative zero is no integer. -/
def toInt? (n : Number) : Option Int :=
  if n.fraction.isEmpty ∧ n.exponent = none ∧ ¬ (n.negative ∧ n.whole = 0) then
    some (if n.negative then -(n.whole : Int) else n.whole)
  else
    none

end Number

namespace Value

def text (s : String) : Value :=
  .string (some s)

def int (n : Int) : Value :=
  .number (.ofInt n)

def nat (n : Nat) : Value :=
  .int n

/-- An object whose names are all texts. -/
def record (members : List (String × Value)) : Value :=
  .object (members.map fun member => (some member.1, member.2))

def toInt? : Value → Option Int
  | .number n => n.toInt?
  | _ => none

def toText? : Value → Option String
  | .string text => text
  | _ => none

def toBool? : Value → Option Bool
  | .bool b => some b
  | _ => none

def toArray? : Value → Option (List Value)
  | .array items => some items
  | _ => none

/-- The members, if every name is a text. -/
def toRecord? : Value → Option (List (String × Value))
  | .object members => members.mapM fun member => member.1.map (·, member.2)
  | _ => none

/-- The first member of the given name. -/
def field? (name : String) : Value → Option Value
  | .object members => (members.find? fun member => member.1 == some name).map (·.2)
  | _ => none

end Value

end TradeReport.Json
