import TradeReport.Json.Token
/-!
# Reading a JSON value

The reader takes one token at a time and keeps the containers that are still open, innermost first. Values
may be nested to any depth.
-/

namespace TradeReport.Json

namespace Reader

/-- A container that is not yet closed, with what it holds so far, latest first. An object also holds the
name of the member whose value is awaited. -/
inductive Container where
  | array (items : List Value)
  | object (members : List (Text × Value)) (name : Text)

/-- What may come next. -/
inductive State where
  /-- A value. -/
  | value (opened : List Container)
  /-- The first item of an array, or its end. -/
  | firstItem (opened : List Container)
  /-- The first name of an object, or its end. -/
  | firstName (opened : List Container)
  /-- A name. -/
  | name (members : List (Text × Value)) (opened : List Container)
  /-- The colon after a name. -/
  | colon (members : List (Text × Value)) (name : Text) (opened : List Container)
  /-- What separates the finished value from the next one, or the end of its container. -/
  | finished (value : Value) (opened : List Container)

/-- A token where a value has to stand. -/
def beginValue (opened : List Container) : Token → Option State
  | .null => some (.finished .null opened)
  | .bool b => some (.finished (.bool b) opened)
  | .string text => some (.finished (.string text) opened)
  | .number n => some (.finished (.number n) opened)
  | .openArray => some (.firstItem opened)
  | .openObject => some (.firstName opened)
  | _ => none

def step : State → Token → Option State
  | .value opened, token => beginValue opened token
  | .firstItem opened, .closeArray => some (.finished (.array []) opened)
  | .firstItem opened, token => beginValue (.array [] :: opened) token
  | .firstName opened, .closeObject => some (.finished (.object []) opened)
  | .firstName opened, .string name => some (.colon [] name opened)
  | .name members opened, .string name => some (.colon members name opened)
  | .colon members name opened, .colon => some (.value (.object members name :: opened))
  | .finished value (.array items :: opened), .comma =>
    some (.value (.array (value :: items) :: opened))
  | .finished value (.array items :: opened), .closeArray =>
    some (.finished (.array (value :: items).reverse) opened)
  | .finished value (.object members name :: opened), .comma =>
    some (.name ((name, value) :: members) opened)
  | .finished value (.object members name :: opened), .closeObject =>
    some (.finished (.object ((name, value) :: members).reverse) opened)
  | _, _ => none

def run (state : State) (tokens : List Token) : Option State :=
  tokens.foldlM step state

end Reader

/-- The value of a JSON text. -/
def read? (text : List Char) : Option Value := do
  let tokens ← Token.scan text
  match ← Reader.run (.value []) tokens with
  | .finished value [] => some value
  | _ => none

end TradeReport.Json
