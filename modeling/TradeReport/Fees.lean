import TradeReport.Trade.Fill
import TradeReport.Table
/-!
# Fees

Two views of the fees of fills. A ledger sums them by the token they were charged in and values the sums at
the time of a report. The fee of a single fill is valued at the fill's own price.
-/

namespace TradeReport

/-- Fees paid, by token. -/
abbrev FeeLedger := Table Token Decimal

/-- The value of a ledger in quote units, and the tokens that have no rate and are left out of it. -/
structure QuoteFees where
  total : Decimal
  unpriced : List Token
  deriving DecidableEq

namespace FeeLedger

/-- More fees in `token`. An overflow leaves no ledger. -/
def charge (ledger : FeeLedger) (token : Token) (amount : Decimal) : Except Overflow FeeLedger := do
  let total ← ((ledger.get? token).getD .zero).add amount
  return ledger.put token total

/-- The charges of one fill in the order they are booked. A share of zero is not booked; a share without a
token of its own is charged in the quote token. -/
def charges (pair : Pair) (fill : Fill) : Except Overflow (List (Token × Decimal)) := do
  let flat := fill.fee.flat.map fun fee => (fee.token, fee.amount)
  match fill.fee.percent.filter (!·.isZero) with
  | none => return flat
  | some percent =>
    let share ← (← fill.notional).mul percent
    return (fill.fee.percentToken.getD pair.quote, share) :: flat

def chargeAll (ledger : FeeLedger) (charges : List (Token × Decimal)) : Except Overflow FeeLedger :=
  charges.foldlM (fun ledger charged => ledger.charge charged.1 charged.2) ledger

/-- The fees of fills, booked in the order of the list. -/
def ofFills (pair : Pair) (fills : List Fill) : Except Overflow FeeLedger :=
  fills.foldlM (fun ledger fill => do ledger.chargeAll (← charges pair fill)) Table.empty

/-- The tokens that are not the pair's own and need a rate. -/
def foreignTokens (ledger : FeeLedger) (pair : Pair) : List Token :=
  ledger.keys.filter fun token => token != pair.base && token != pair.quote

/-- One entry of a ledger in quote units: the quote token as it is, the base token at the price, and another
at its rate. Absent without a rate. -/
def entryValue? (pair : Pair) (price : Decimal) (rates : Table Token Decimal) (token : Token)
    (amount : Decimal) : Except Overflow (Option Decimal) :=
  if token = pair.quote then
    return some amount
  else if token = pair.base then
    some <$> amount.mul price
  else
    match rates.get? token with
    | some rate => some <$> amount.mul rate
    | none => return none

/-- The ledger in quote units, summed in the order of its tokens. -/
def inQuote (ledger : FeeLedger) (pair : Pair) (price : Decimal) (rates : Table Token Decimal) :
    Except Overflow QuoteFees :=
  ledger.entries.foldlM
    (fun so (token, amount) => do
      match ← entryValue? pair price rates token amount with
      | some value => return { so with total := ← so.total.add value }
      | none => return { so with unpriced := so.unpriced ++ [token] })
    ⟨.zero, []⟩

end FeeLedger

namespace Fill

/-- A flat fee at the fill's own price. Any token but the quote counts as the base token. -/
def flatFeeInQuote (fill : Fill) (quote : Token) (fee : FlatFee) : Except Overflow Decimal :=
  if fee.token = quote then return fee.amount else fee.amount.mul fill.price

/-- The fees of one fill in quote units, at the fill's own price. -/
def feeInQuote (fill : Fill) (quote : Token) : Except Overflow Decimal := do
  let share ←
    match fill.fee.percent with
    | none => pure .zero
    | some percent => (← fill.notional).mul percent
  let flat ← fill.fee.flat.foldlM (fun so fee => do so.add (← fill.flatFeeInQuote quote fee)) .zero
  share.add flat

end Fill

end TradeReport
