import TradeReport.Binary64.Reading
import TradeReport.Decimal.Display
import TradeReport.Field
import TradeReport.Json.Reader
import TradeReport.Json.Writer
import TradeReport.Trade.Balance
import TradeReport.Trade.Fill
/-!
# Records of the logs

How fills and balances are written to a log line and read back. Engines of several ages write these logs, so a
reader also takes earlier names of fields, numbers in place of decimal texts, and records given as the list of
their fields. It refuses a field that occurs twice. Fields it does not know are passed over.
-/

namespace TradeReport

open Json (Value)

/-! ## Fields -/

namespace Record

/-- What a record gives for each of its fields, in the order of the declaration: an object by the names of
the field, a list by position. Absent when an object repeats a field or has a name that is no text, or when a
list is too long. -/
def slots? (fields : List (List String)) : Value → Option (List (Option Value))
  | .object members => do
    let members ← (Value.object members).toRecord?
    fields.mapM fun names =>
      match members.filter fun member => names.contains member.1 with
      | [] => some none
      | [member] => some (some member.2)
      | _ => none
  | .array items =>
    if items.length ≤ fields.length then
      some (items.map some ++ List.replicate (fields.length - items.length) none)
    else
      none
  | _ => none

/-- A field whose value may be null. -/
def nullable (read : Value → Option α) : Value → Option (Option α)
  | .null => some none
  | value => (read value).map some

end Record

/-! ## Decimals and times -/

/-- Whole numbers of 64 bits, with or without a sign, are taken as they are. -/
def Decimal.ofWhole? (n : Int) : Option Decimal :=
  if -wordBound 63 ≤ n ∧ n < wordBound 64 then ofParts? (decide (n < 0)) n.natAbs 0 else none

/-- A number of a record: a whole one exactly, any other through the text of a double. -/
def Decimal.ofNumber? (n : Json.Number) : Option Decimal :=
  (n.toInt?.bind Decimal.ofWhole?).orElse fun _ => do
    ofText? (Binary64.toText (← Binary64.ofNumber? n))

def Decimal.ofJson? : Value → Option Decimal
  | .string (some text) => ofText? text
  | .number n => ofNumber? n
  | _ => none

def Decimal.toJson (a : Decimal) : Value :=
  .text a.toText

/-- A time is a whole number of 64 bits. -/
def timeOfJson? (value : Value) : Option Int64 := do
  let n ← value.toInt?
  if -wordBound 63 ≤ n ∧ n < wordBound 63 then some (Int64.ofInt n) else none

def optionToJson (toJson : α → Value) (value : Option α) : Value :=
  value.elim .null toJson

/-! ## Fills -/

/-- The name of a side, in capitals, in small letters or capitalised. -/
def Side.ofName? (name : String) : Option Side :=
  if ["BUY", "buy", "Buy"].contains name then some .buy
  else if ["SELL", "sell", "Sell"].contains name then some .sell
  else none

/-- A side is a name, or an object with the name as its only member and nothing under it. -/
def Side.ofJson? : Value → Option Side
  | .string (some name) => ofName? name
  | .object [(some name, .null)] => ofName? name
  | _ => none

def FlatFee.ofJson? (value : Value) : Option FlatFee := do
  let [token, amount] ← Record.slots? [["token"], ["amount"]] value | none
  return { token := ← Field.required Value.toText? token
           amount := ← Field.required Decimal.ofJson? amount }

def FlatFee.toJson (fee : FlatFee) : Value :=
  .record [("token", .text fee.token), ("amount", fee.amount.toJson)]

def Fee.ofJson? (value : Value) : Option Fee := do
  let [percent, token, flat] ←
    Record.slots? [["percent"], ["percent_token"], ["flat_fees"]] value | none
  return { percent := ← Field.defaulting none (Record.nullable Decimal.ofJson?) percent
           percentToken := ← Field.defaulting none (Record.nullable Value.toText?) token
           flat := ← Field.defaulting [] (fun flat => do (← flat.toArray?).mapM FlatFee.ofJson?) flat }

def Fee.toJson (fee : Fee) : Value :=
  .record
    [ ("percent", optionToJson Decimal.toJson fee.percent),
      ("percent_token", optionToJson Value.text fee.percentToken),
      ("flat_fees", .array (fee.flat.map FlatFee.toJson)) ]

namespace Fill

/-- The names of the fields, the one that is written first. -/
def fieldNames : List (List String) :=
  [ ["market"], ["symbol"], ["strategy_id", "config_file_path"], ["side", "trade_type"], ["price"],
    ["amount"], ["fee", "trade_fee"], ["timestamp"], ["order_id"], ["exchange_trade_id"] ]

def ofJson? (value : Value) : Option Fill := do
  let [market, symbol, strategy, side, price, amount, fee, time, order, exchangeTrade] ←
    Record.slots? fieldNames value | none
  return { market := ← Field.required Value.toText? market
           symbol := ← Field.required Value.toText? symbol
           strategy := ← Field.required Value.toText? strategy
           side := ← Field.required Side.ofJson? side
           price := ← Field.required Decimal.ofJson? price
           amount := ← Field.required Decimal.ofJson? amount
           fee := ← Field.defaulting .free Fee.ofJson? fee
           time := ← Field.required timeOfJson? time
           order := ← Field.defaulting none (Record.nullable Value.toText?) order
           exchangeTrade :=
             ← Field.defaulting none (Record.nullable Value.toText?) exchangeTrade }

def toJson (fill : Fill) : Value :=
  .record
    [ ("market", .text fill.market),
      ("symbol", .text fill.symbol),
      ("strategy_id", .text fill.strategy),
      ("side", .text fill.side.toText),
      ("price", fill.price.toJson),
      ("amount", fill.amount.toJson),
      ("fee", fill.fee.toJson),
      ("timestamp", .int fill.time.toInt),
      ("order_id", optionToJson Value.text fill.order),
      ("exchange_trade_id", optionToJson Value.text fill.exchangeTrade) ]

/-- The fill of a log line. -/
def ofLine? (line : List Char) : Option Fill := do
  ofJson? (← Json.read? line)

def toLine (fill : Fill) : String :=
  fill.toJson.compact

end Fill

/-! ## Balances -/

namespace RecordedBalance

def fieldNames : List (List String) :=
  [ ["strategy_id", "bot"], ["base_balance", "total_token"], ["quote_balance", "total_currency"],
    ["created_at"] ]

def ofJson? (value : Value) : Option RecordedBalance := do
  let [strategy, base, quote, time] ← Record.slots? fieldNames value | none
  return { strategy := ← Field.required Value.toText? strategy
           base := ← Field.required Decimal.ofJson? base
           quote := ← Field.required Decimal.ofJson? quote
           time := ← Field.required timeOfJson? time }

def toJson (balance : RecordedBalance) : Value :=
  .record
    [ ("strategy_id", .text balance.strategy),
      ("base_balance", balance.base.toJson),
      ("quote_balance", balance.quote.toJson),
      ("created_at", .int balance.time.toInt) ]

def ofLine? (line : List Char) : Option RecordedBalance := do
  ofJson? (← Json.read? line)

def toLine (balance : RecordedBalance) : String :=
  balance.toJson.compact

end RecordedBalance

/-- A snapshot is an object of decimals. Of a token named twice the later holding counts. -/
def Snapshot.ofJson? (value : Value) : Option Snapshot := do
  let holdings ← (← value.toRecord?).mapM fun member => do
    return (member.1, ← Decimal.ofJson? member.2)
  return Table.ofList holdings

/-- A table of decimals as an object. -/
def amountsToJson (amounts : Table Token Decimal) : Value :=
  .record (amounts.entries.map fun entry => (entry.1, entry.2.toJson))

end TradeReport
