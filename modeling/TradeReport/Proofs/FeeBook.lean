import TradeReport.Proofs.Fees
import TradeReport.Proofs.Text.ByteOrder
/-!
# Fees booked in place

A charge first opens an entry of zero for a token that has none, and then adds the amount to the entry. The addition may
overflow, but not on an entry that was just opened, so a charge that fails leaves the ledger as it was
(`FeeLedger.book_of_error`). A run of charges, some of which fail, leaves under each token the sum of those that did not
(`FeeLedger.bookkeeping`).
-/

namespace TradeReport

open Decimal

theorem Decimal.zero_add_eq (amount : Decimal) : zero.add amount = .ok amount :=
  rfl

namespace FeeLedger

variable {ledger : FeeLedger} {token : Token} {amount total : Decimal} {cause : Overflow}

/-! ## One charge -/

def opened (ledger : FeeLedger) (token : Token) : FeeLedger :=
  match ledger.get? token with
  | some _ => ledger
  | none => ledger.put token .zero

/-- A charge in place: how it ended, and the ledger that it leaves. -/
def book (ledger : FeeLedger) (token : Token) (amount : Decimal) : Except Overflow Unit × FeeLedger :=
  let ledger := ledger.opened token
  match ((ledger.get? token).getD .zero).add amount with
  | .ok total => (.ok (), ledger.put token total)
  | .error cause => (.error cause, ledger)

private theorem get?_opened : (ledger.opened token).get? token = some ((ledger.get? token).getD .zero) := by
  unfold opened
  cases hheld : ledger.get? token with
  | none => exact Table.get?_put_self
  | some held => exact hheld

private theorem put_opened : (ledger.opened token).put token total = ledger.put token total := by
  refine Table.eq_of_get?_eq fun other => ?_
  by_cases hother : other = token
  · rw [hother, Table.get?_put_self, Table.get?_put_self]
  · rw [Table.get?_put_ne hother, Table.get?_put_ne hother, opened]
    split
    · rfl
    · exact Table.get?_put_ne hother

private theorem book_of_ok (h : ((ledger.get? token).getD .zero).add amount = .ok total) :
    ledger.book token amount = (.ok (), ledger.put token total) := by
  simp only [book, get?_opened, Option.getD_some, h, put_opened]

/-- Only an entry that was there can overflow. -/
theorem book_of_error (h : ((ledger.get? token).getD .zero).add amount = .error cause) :
    ledger.book token amount = (.error cause, ledger) := by
  have hopened : ledger.opened token = ledger := by
    unfold opened
    cases hheld : ledger.get? token with
    | none =>
      rw [hheld, Option.getD_none, zero_add_eq] at h
      cases h
    | some held => rfl
  simp only [book, hopened, h]

/-- What a charge does to a ledger, whatever is in it. -/
structure Charges (ledger : FeeLedger) (token : Token) (amount : Decimal) (result : Except Overflow Unit × FeeLedger) :
    Prop where
  charge : ledger.charge token amount = result.1.map fun _ => result.2
  failed : ∀ cause, result.1 = .error cause → result.2 = ledger
  own : result.1 = .ok () → ∃ total, ((ledger.get? token).getD .zero).add amount = .ok total ∧
    result.2.get? token = some total
  others : ∀ other, other ≠ token → result.2.get? other = ledger.get? other

private theorem charges_book (ledger : FeeLedger) (token : Token) (amount : Decimal) :
    Charges ledger token amount (ledger.book token amount) := by
  cases hsum : ((ledger.get? token).getD .zero).add amount with
  | error cause =>
    rw [book_of_error hsum]
    constructor
    case charge => rw [charge, hsum]; rfl
    case failed => exact fun _ _ => rfl
    case own => exact fun h => absurd h (by simp)
    case others => exact fun _ _ => rfl
  | ok total =>
    rw [book_of_ok hsum]
    constructor
    case charge => rw [charge, hsum]; rfl
    case failed => exact fun _ h => absurd h (by simp)
    case own => exact fun _ => ⟨total, hsum, Table.get?_put_self⟩
    case others => exact fun _ => Table.get?_put_ne

/-! ## Runs of charges -/

/-- The ledger after some charges, and those of them that did not fail. -/
structure Run where
  ledger : FeeLedger
  booked : List (Token × Decimal)

/-- One charge more. A charge that fails is given up, and the run goes on. -/
def Run.next (run : Run) (charged : Token × Decimal) : Run :=
  match run.ledger.book charged.1 charged.2 with
  | (.ok (), ledger) => ⟨ledger, run.booked ++ [charged]⟩
  | (.error _, ledger) => ⟨ledger, run.booked⟩

def runOf (charges : List (Token × Decimal)) : Run :=
  charges.foldl Run.next ⟨Table.empty, []⟩

def amountsIn (token : Token) (charges : List (Token × Decimal)) : List Decimal :=
  (charges.filter (·.1 = token)).map (·.2)

/-- Under each token stands the sum of what was booked in it, and nothing where nothing was. -/
structure Run.Accounts (run : Run) : Prop where
  absent_iff : ∀ token, run.ledger.get? token = none ↔ amountsIn token run.booked = []
  total : ∀ token held, run.ledger.get? token = some held → sum (amountsIn token run.booked) = .ok held

private theorem amountsIn_concat_self (charges : List (Token × Decimal)) :
    amountsIn token (charges ++ [(token, amount)]) = amountsIn token charges ++ [amount] := by
  simp [amountsIn]

private theorem amountsIn_concat_ne {other : Token} (hother : other ≠ token) (charges : List (Token × Decimal)) :
    amountsIn other (charges ++ [(token, amount)]) = amountsIn other charges := by
  simp [amountsIn, hother.symm]

private theorem sum_concat {amounts : List Decimal} {held : Decimal} (h : sum amounts = .ok held) :
    sum (amounts ++ [amount]) = held.add amount := by
  rw [sum, List.foldlM_append, ← sum, h]
  change List.foldlM add held [amount] = held.add amount
  rw [List.foldlM_cons]
  cases held.add amount <;> rfl

/-- A charge is added to the sum of those before it, also when there were none. -/
theorem Run.Accounts.sum_eq {run : Run} (h : run.Accounts) (token : Token) :
    sum (amountsIn token run.booked) = .ok ((run.ledger.get? token).getD .zero) := by
  cases hheld : run.ledger.get? token with
  | none =>
    rw [(h.absent_iff token).1 hheld]
    rfl
  | some held => exact h.total token held hheld

theorem Run.Accounts.next {run : Run} (h : run.Accounts) (charged : Token × Decimal) : (run.next charged).Accounts := by
  obtain ⟨token, amount⟩ := charged
  cases hsum : ((run.ledger.get? token).getD .zero).add amount with
  | error cause =>
    have hsame : run.next (token, amount) = run := by rw [Run.next, book_of_error hsum]
    rwa [hsame]
  | ok total =>
    have hbooked : run.next (token, amount) = ⟨run.ledger.put token total, run.booked ++ [(token, amount)]⟩ := by
      rw [Run.next, book_of_ok hsum]
    rw [hbooked]
    refine ⟨fun other => ?_, fun other held hheld => ?_⟩
    · by_cases hother : other = token
      · rw [hother, Table.get?_put_self, amountsIn_concat_self]
        simp
      · rw [Table.get?_put_ne hother, amountsIn_concat_ne hother]
        exact h.absent_iff other
    · by_cases hother : other = token
      · rw [hother, Table.get?_put_self, Option.some.injEq] at hheld
        rw [hother, amountsIn_concat_self, sum_concat (h.sum_eq token), hsum, hheld]
      · rw [Table.get?_put_ne hother] at hheld
        rw [amountsIn_concat_ne hother]
        exact h.total other held hheld

private theorem accounts_runOf (charges : List (Token × Decimal)) : (runOf charges).Accounts := by
  have hrun : ∀ run : Run, run.Accounts → (charges.foldl Run.next run).Accounts := by
    induction charges with
    | nil => exact fun _ h => h
    | cons charged rest ih => exact fun run h => ih (run.next charged) (h.next charged)
  exact hrun _ ⟨fun _ => ⟨fun _ => rfl, fun _ => rfl⟩, nofun⟩

/-- The tokens of a ledger are those of a pair and the foreign ones, and none is both. -/
structure SplitBy (ledger : FeeLedger) (pair : Pair) : Prop where
  cover : ∀ token, token ∈ ledger.keys ↔
    token ∈ ledger.keys ∧ token = pair.base ∨ token ∈ ledger.keys ∧ token = pair.quote ∨
      token ∈ ledger.foreignTokens pair
  disjoint : ∀ token ∈ ledger.foreignTokens pair, token ≠ pair.base ∧ token ≠ pair.quote

theorem splitBy (ledger : FeeLedger) (pair : Pair) : ledger.SplitBy pair := by
  refine ⟨fun token => ?_, fun token h => (mem_foreignTokens.1 h).2⟩
  rw [mem_foreignTokens]
  tauto

/-- A charge that fails leaves a ledger as it was and any other charge changes the entry of its token only, so that a
run of charges leaves under each token the sum of those that did not fail. -/
theorem bookkeeping (charges : List (Token × Decimal)) :
    (∀ ledger token amount, Charges ledger token amount (ledger.book token amount)) ∧
      (runOf charges).Accounts ∧
      ((runOf charges).ledger.keys.Pairwise fun a b => bytesOf a < bytesOf b) ∧
      ∀ pair, (runOf charges).ledger.SplitBy pair :=
  ⟨charges_book, accounts_runOf charges, (runOf charges).ledger.keys_ascending.imp bytesOf_lt, splitBy _⟩

section Largest

def largestAmount : Decimal :=
  (ofParts? false (mantissaBound - 1) 0).getD .zero

/-- The second charge in A overflows and the run goes on. -/
example : (runOf [("A", largestAmount), ("A", .one), ("B", .one)]).booked = [("A", largestAmount), ("B", .one)] := by
  decide +kernel

end Largest

end FeeLedger

end TradeReport
