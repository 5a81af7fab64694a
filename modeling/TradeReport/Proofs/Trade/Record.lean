import Mathlib.Data.List.Forall2
import Mathlib.Data.Option.Basic
import TradeReport.Proofs.Decimal.Text
import TradeReport.Proofs.Json.RoundTrip
import TradeReport.Trade.Record
/-!
# Records and their lines

A record is written on one line and read back from it as it was, whatever texts, decimals and lists it holds. A
reader takes more than what is written: earlier names of fields, numbers in place of decimal texts, lists in place of
objects. What it made of such a line is the same record once it is written and read again (`lines_hold_records`).
-/

namespace TradeReport

open Json (Value)

/-! ## Values of fields -/

theorem Json.Number.toInt?_ofInt (n : ℤ) : (Number.ofInt n).toInt? = some n := by
  have hzero : ¬((Number.ofInt n).negative = true ∧ (Number.ofInt n).whole = 0) := by
    rintro ⟨hnegative, hwhole⟩
    have hlt : n < 0 := of_decide_eq_true hnegative
    have hnat : n.natAbs = 0 := hwhole
    omega
  rw [toInt?, if_pos ⟨rfl, rfl, hzero⟩, Option.some.injEq]
  unfold ofInt
  by_cases hneg : n < 0
  · rw [if_pos (decide_eq_true hneg)]
    dsimp only
    omega
  · rw [if_neg (by simpa using hneg)]
    dsimp only
    omega

theorem Json.Value.toText?_text (text : String) : (Value.text text).toText? = some text :=
  rfl

theorem Decimal.ofJson?_toJson (a : Decimal) : ofJson? a.toJson = some a.plain :=
  ofText?_toText a

theorem timeOfJson?_int (time : Int64) : timeOfJson? (.int time.toInt) = some time := by
  have hlower : -wordBound 63 ≤ time.toInt := Int64.le_toInt time
  have hupper : time.toInt < wordBound 63 := Int64.toInt_lt time
  have hread : (Value.int time.toInt).toInt? = some time.toInt := Json.Number.toInt?_ofInt _
  rw [timeOfJson?, hread, Option.bind_eq_bind, Option.bind_some, if_pos ⟨hlower, hupper⟩, Int64.ofInt_toInt]

theorem Side.ofJson?_toText (side : Side) : ofJson? (.text side.toText) = some side := by
  cases side <;> rfl

theorem nullable_text (text : Option String) :
    Record.nullable Value.toText? (optionToJson Value.text text) = some text := by
  cases text <;> rfl

theorem nullable_decimal (a : Option Decimal) :
    Record.nullable Decimal.ofJson? (optionToJson Decimal.toJson a) = some (a.map Decimal.plain) := by
  cases a with
  | none => rfl
  | some a =>
    change (Decimal.ofJson? a.toJson).map some = _
    rw [Decimal.ofJson?_toJson]
    rfl

/-! ## Fees -/

def FlatFee.plain (fee : FlatFee) : FlatFee :=
  { fee with amount := fee.amount.plain }

def Fee.plain (fee : Fee) : Fee :=
  { fee with percent := fee.percent.map Decimal.plain, flat := fee.flat.map FlatFee.plain }

theorem FlatFee.ofJson?_toJson (fee : FlatFee) : ofJson? fee.toJson = some fee.plain := by
  have hslots : Record.slots? [["token"], ["amount"]] fee.toJson
      = some [some (.text fee.token), some fee.amount.toJson] := rfl
  have hamount : Field.required Decimal.ofJson? (some fee.amount.toJson) = some fee.amount.plain :=
    Decimal.ofJson?_toJson _
  rw [ofJson?, hslots]
  simp only [Option.bind_eq_bind, Option.bind_some, hamount]
  rfl

theorem FlatFee.mapM_ofJson? (fees : List FlatFee) :
    (fees.map toJson).mapM ofJson? = some (fees.map plain) := by
  induction fees with
  | nil => rfl
  | cons fee rest ih =>
    rw [List.map_cons, List.mapM_cons, ofJson?_toJson, ih]
    rfl

theorem Fee.ofJson?_toJson (fee : Fee) : ofJson? fee.toJson = some fee.plain := by
  have hslots : Record.slots? [["percent"], ["percent_token"], ["flat_fees"]] fee.toJson
      = some [some (optionToJson Decimal.toJson fee.percent), some (optionToJson Value.text fee.percentToken),
          some (.array (fee.flat.map FlatFee.toJson))] := rfl
  rw [ofJson?, hslots]
  simp only [Option.bind_eq_bind, Option.bind_some, Field.defaulting, nullable_decimal, nullable_text,
    Value.toArray?, FlatFee.mapM_ofJson?]
  rfl

/-! ## Fills and balances -/

namespace Fill

def plain (fill : Fill) : Fill :=
  { fill with price := fill.price.plain, amount := fill.amount.plain, fee := fill.fee.plain }

theorem ofJson?_toJson (fill : Fill) : ofJson? fill.toJson = some fill.plain := by
  have hslots : Record.slots? fieldNames fill.toJson
      = some [some (.text fill.market), some (.text fill.symbol), some (.text fill.strategy),
          some (.text fill.side.toText), some fill.price.toJson, some fill.amount.toJson, some fill.fee.toJson,
          some (.int fill.time.toInt), some (optionToJson Value.text fill.order),
          some (optionToJson Value.text fill.exchangeTrade)] := rfl
  rw [ofJson?, hslots]
  simp only [Option.bind_eq_bind, Option.bind_some, Field.required, Field.defaulting, Value.toText?_text,
    Side.ofJson?_toText, Decimal.ofJson?_toJson, Fee.ofJson?_toJson, timeOfJson?_int, nullable_text]
  rfl

theorem ofLine?_toLine (fill : Fill) : ofLine? fill.toLine.toList = some fill.plain := by
  rw [ofLine?, toLine, Json.read?_compact]
  exact ofJson?_toJson fill

end Fill

namespace RecordedBalance

def plain (balance : RecordedBalance) : RecordedBalance :=
  { balance with base := balance.base.plain, quote := balance.quote.plain }

theorem ofJson?_toJson (balance : RecordedBalance) : ofJson? balance.toJson = some balance.plain := by
  have hslots : Record.slots? fieldNames balance.toJson
      = some [some (.text balance.strategy), some balance.base.toJson, some balance.quote.toJson,
          some (.int balance.time.toInt)] := rfl
  rw [ofJson?, hslots]
  simp only [Option.bind_eq_bind, Option.bind_some, Field.required, Value.toText?_text,
    Decimal.ofJson?_toJson, timeOfJson?_int]
  rfl

theorem ofLine?_toLine (balance : RecordedBalance) : ofLine? balance.toLine.toList = some balance.plain := by
  rw [ofLine?, toLine, Json.read?_compact]
  exact ofJson?_toJson balance

end RecordedBalance

/-! ## Equal records

Records are equal when their texts and times are and their decimals have the same values and places. Of two equal
records one may have a sign on a zero that the other has not.
-/

structure FlatFee.Same (a b : FlatFee) : Prop where
  token : a.token = b.token
  amount : a.amount.Same b.amount

structure Fee.Same (a b : Fee) : Prop where
  percent : Option.Rel Decimal.Same a.percent b.percent
  percentToken : a.percentToken = b.percentToken
  flat : List.Forall₂ FlatFee.Same a.flat b.flat

structure Fill.Same (a b : Fill) : Prop where
  market : a.market = b.market
  symbol : a.symbol = b.symbol
  strategy : a.strategy = b.strategy
  side : a.side = b.side
  price : a.price.Same b.price
  amount : a.amount.Same b.amount
  fee : a.fee.Same b.fee
  time : a.time = b.time
  order : a.order = b.order
  exchangeTrade : a.exchangeTrade = b.exchangeTrade

structure RecordedBalance.Same (a b : RecordedBalance) : Prop where
  strategy : a.strategy = b.strategy
  base : a.base.Same b.base
  quote : a.quote.Same b.quote
  time : a.time = b.time

theorem Fee.same_plain (fee : Fee) : fee.Same fee.plain := by
  refine ⟨?_, rfl, ?_⟩
  · unfold plain
    cases fee.percent with
    | none => exact .none
    | some percent => exact .some percent.same_plain
  · refine List.forall₂_map_right_iff.2 (List.forall₂_same.2 fun flat _ => ?_)
    exact ⟨rfl, flat.amount.same_plain⟩

theorem Fill.same_plain (fill : Fill) : fill.Same fill.plain :=
  ⟨rfl, rfl, rfl, rfl, fill.price.same_plain, fill.amount.same_plain, fill.fee.same_plain, rfl, rfl, rfl⟩

theorem RecordedBalance.same_plain (balance : RecordedBalance) : balance.Same balance.plain :=
  ⟨rfl, balance.base.same_plain, balance.quote.same_plain, rfl⟩

/-- No zero of the fill has a sign. -/
structure Fill.IsPlain (fill : Fill) : Prop where
  price : fill.price.IsPlain
  amount : fill.amount.IsPlain
  percent : ∀ percent ∈ fill.fee.percent, percent.IsPlain
  flat : ∀ flat ∈ fill.fee.flat, flat.amount.IsPlain

structure RecordedBalance.IsPlain (balance : RecordedBalance) : Prop where
  base : balance.base.IsPlain
  quote : balance.quote.IsPlain

theorem Fill.plain_of_isPlain {fill : Fill} (h : fill.IsPlain) : fill.plain = fill := by
  have hpercent : fill.fee.percent.map Decimal.plain = fill.fee.percent := by
    cases hfee : fill.fee.percent with
    | none => rfl
    | some percent => rw [Option.map_some, Decimal.plain_of_isPlain (h.percent percent hfee)]
  have hflat : fill.fee.flat.map FlatFee.plain = fill.fee.flat.map id := by
    refine List.map_congr_left fun flat hmem => ?_
    rw [FlatFee.plain, Decimal.plain_of_isPlain (h.flat flat hmem)]
    rfl
  rw [List.map_id] at hflat
  rw [plain, Fee.plain, Decimal.plain_of_isPlain h.price, Decimal.plain_of_isPlain h.amount, hpercent, hflat]

theorem RecordedBalance.plain_of_isPlain {balance : RecordedBalance} (h : balance.IsPlain) :
    balance.plain = balance := by
  rw [plain, Decimal.plain_of_isPlain h.base, Decimal.plain_of_isPlain h.quote]

/-- Lines hold records when each record is on one line and is read back from it, and when what is read from any line
is the same record after it was written once more. -/
structure RoundTrips {α : Type} (toLine : α → String) (ofLine? : List Char → Option α) (IsPlain : α → Prop)
    (Same : α → α → Prop) : Prop where
  oneLine : ∀ a, '\n' ∉ (toLine a).toList ∧ '\r' ∉ (toLine a).toList
  readBack : ∀ a, IsPlain a → ofLine? (toLine a).toList = some a
  readAgain : ∀ line a, ofLine? line = some a → ∃ again, ofLine? (toLine a).toList = some again ∧ Same a again

/-- The lines of fills and of balances hold them. -/
theorem lines_hold_records :
    RoundTrips Fill.toLine Fill.ofLine? Fill.IsPlain Fill.Same ∧
      RoundTrips RecordedBalance.toLine RecordedBalance.ofLine? RecordedBalance.IsPlain RecordedBalance.Same := by
  refine ⟨⟨fun fill => Json.not_mem_break_compact _, fun fill h => ?_, fun _ fill _ => ?_⟩,
    ⟨fun balance => Json.not_mem_break_compact _, fun balance h => ?_, fun _ balance _ => ?_⟩⟩
  · rw [Fill.ofLine?_toLine, Fill.plain_of_isPlain h]
  · exact ⟨_, fill.ofLine?_toLine, fill.same_plain⟩
  · rw [RecordedBalance.ofLine?_toLine, RecordedBalance.plain_of_isPlain h]
  · exact ⟨_, balance.ofLine?_toLine, balance.same_plain⟩

end TradeReport
