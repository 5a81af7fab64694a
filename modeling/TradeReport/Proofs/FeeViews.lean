import Mathlib.Tactic.LinearCombination
import TradeReport.Proofs.Decimal.Calculation
import TradeReport.Proofs.Fees
/-!
# Two views of one fee

The fees of a fill are seen through its ledger, and directly at its own price. Both are calculations. That of the
ledger is drawn up by booking calculations in place of amounts (`DraftLedger`), and as long as it is exact the ledger
follows the draft (`DraftLedger.exists_ofFills`). The two views agree on flat fees, and on a share that was charged in
the quote token. A share that was charged in the base token is booked in quote units all the same, so the ledger counts
it at the price once more (`Fill.views_agree_iff`).
-/

namespace TradeReport

open Decimal Calculation

/-! ## Related tables -/

namespace Entries

variable {κ α β : Type} [Ord κ] {R : α → β → Prop} {key : κ} {a : α} {b : β} {entries : List (κ × α)}
  {others : List (κ × β)}

/-- Entries with the same keys, whose values are related under each. -/
def Related (R : α → β → Prop) (entries : List (κ × α)) (others : List (κ × β)) : Prop :=
  List.Forall₂ (fun entry other => entry.1 = other.1 ∧ R entry.2 other.2) entries others

theorem Related.put (h : Related R entries others) (hvalue : R a b) :
    Related R (put key a entries) (put key b others) := by
  induction h with
  | nil => exact .cons ⟨rfl, hvalue⟩ .nil
  | @cons entry other rest others hfirst hrest ih =>
    unfold Entries.put
    rw [← hfirst.1]
    split
    · exact .cons ⟨rfl, hvalue⟩ (.cons hfirst hrest)
    · exact .cons ⟨rfl, hvalue⟩ hrest
    · exact .cons hfirst ih

theorem Related.getD_get? (h : Related R entries others) (hdefault : R a b) :
    R ((get? key entries).getD a) ((get? key others).getD b) := by
  induction h with
  | nil => exact hdefault
  | @cons entry other rest others hfirst _ ih =>
    unfold Entries.get?
    rw [← hfirst.1]
    split
    · exact hfirst.2
    · exact ih

end Entries

/-! ## Calculations of fees -/

namespace Fill

variable {fill : Fill} {quote : Token}

def share (fill : Fill) (percent : Decimal) : Calculation :=
  ((given fill.price).mul (given fill.amount)).mul (given percent)

def flatAtOwnPrice (fill : Fill) (quote : Token) (fee : FlatFee) : Calculation :=
  if fee.token = quote then given fee.amount else (given fee.amount).mul (given fill.price)

def feeAtOwnPrice (fill : Fill) (quote : Token) : Calculation :=
  (fill.fee.percent.elim (given .zero) fill.share).add
    ((fill.fee.flat.map (fill.flatAtOwnPrice quote)).foldl add (given .zero))

private theorem run_flatAtOwnPrice (fee : FlatFee) :
    (fill.flatAtOwnPrice quote fee).run = fill.flatFeeInQuote quote fee := by
  unfold flatAtOwnPrice flatFeeInQuote
  split <;> rfl

private theorem run_share (percent : Decimal) :
    (fill.share percent).run = fill.notional >>= fun notional => notional.mul percent := by
  rw [share, run, show ((given fill.price).mul (given fill.amount)).run = fill.notional from rfl]
  rfl

theorem run_feeAtOwnPrice : (fill.feeAtOwnPrice quote).run = fill.feeInQuote quote := by
  have hflat : ((fill.fee.flat.map (fill.flatAtOwnPrice quote)).foldl add (given .zero)).run
      = fill.fee.flat.foldlM (fun so fee => do so.add (← fill.flatFeeInQuote quote fee)) .zero := by
    rw [run_foldl_add]
    simp only [List.foldlM_map, run_flatAtOwnPrice]
    rfl
  rw [feeAtOwnPrice, run, hflat, feeInQuote]
  cases fill.fee.percent with
  | none => rfl
  | some percent =>
    rw [Option.elim_some, run_share, bind_assoc]

end Fill

/-- A ledger in which calculations are booked. -/
abbrev DraftLedger := Table Token Calculation

namespace DraftLedger

variable {draft : DraftLedger} {ledger : FeeLedger} {token : Token} {x : Calculation} {amount : Decimal}
  {drafted : List (Token × Calculation)} {pair : Pair} {fill : Fill} {price : Decimal} {rates : Table Token Decimal}

def charge (draft : DraftLedger) (token : Token) (x : Calculation) : DraftLedger :=
  draft.put token (((draft.get? token).getD (given .zero)).add x)

def charges (pair : Pair) (fill : Fill) : List (Token × Calculation) :=
  let flat := fill.fee.flat.map fun fee => (fee.token, given fee.amount)
  match fill.fee.percent.filter (!·.isZero) with
  | none => flat
  | some percent => (fill.fee.percentToken.getD pair.quote, fill.share percent) :: flat

def chargeAll (draft : DraftLedger) (drafted : List (Token × Calculation)) : DraftLedger :=
  drafted.foldl (fun draft charged => draft.charge charged.1 charged.2) draft

def ofFill (pair : Pair) (fill : Fill) : DraftLedger :=
  chargeAll Table.empty (charges pair fill)

/-- A calculation in quote units. Any token but the quote counts as the base token. -/
def entryInQuote (pair : Pair) (price : Decimal) (entry : Token × Calculation) : Calculation :=
  if entry.1 = pair.quote then entry.2 else entry.2.mul (given price)

def inQuote (pair : Pair) (price : Decimal) (draft : DraftLedger) : Calculation :=
  (draft.entries.map (entryInQuote pair price)).foldl add (given .zero)

def AllExact (draft : DraftLedger) : Prop :=
  ∀ entry ∈ draft.entries, entry.2.Exact

/-- The amounts of a ledger are what the calculations of a draft come to. -/
def Drafts (draft : DraftLedger) (ledger : FeeLedger) : Prop :=
  Entries.Related (fun x amount => x.run = .ok amount) draft.entries ledger.entries

/-! ## The ledger follows its draft -/

private theorem exact_of_charge (h : (draft.charge token x).AllExact) : draft.AllExact ∧ x.Exact := by
  have hcharged : (((draft.get? token).getD (given .zero)).add x).Exact :=
    h _ (Table.mem_entries_iff.2 Table.get?_put_self)
  refine ⟨fun entry hentry => ?_, hcharged.2.1⟩
  have hget := Table.mem_entries_iff.1 hentry
  by_cases hkey : entry.1 = token
  · rw [← hkey, hget] at hcharged
    exact hcharged.1
  · exact h entry (Table.mem_entries_iff.2 ((Table.get?_put_ne hkey).trans hget))

private theorem exact_of_chargeAll (h : (draft.chargeAll drafted).AllExact) : draft.AllExact := by
  induction drafted generalizing draft with
  | nil => exact h
  | cons charged rest ih => exact (exact_of_charge (ih h)).1

theorem Drafts.charge (h : draft.Drafts ledger) (hexact : (draft.charge token x).AllExact) (hx : x.run = .ok amount) :
    ∃ next, ledger.charge token amount = .ok next ∧ (draft.charge token x).Drafts next := by
  have hbefore : ((draft.get? token).getD (given .zero)).run = .ok ((ledger.get? token).getD .zero) :=
    h.getD_get? rfl
  have hcharged : (((draft.get? token).getD (given .zero)).add x).Exact :=
    hexact _ (Table.mem_entries_iff.2 Table.get?_put_self)
  obtain ⟨total, htotal, -⟩ := hcharged.exists_run
  rw [run_add_eq_ok hbefore hx] at htotal
  refine ⟨ledger.put token total, FeeLedger.charge_eq_ok_iff.2 ⟨total, htotal, rfl⟩, h.put ?_⟩
  rw [run_add_eq_ok hbefore hx, htotal]

theorem Drafts.chargeAll (h : draft.Drafts ledger) (hexact : (draft.chargeAll drafted).AllExact) :
    ∃ charged next, drafted.mapM (fun charged => (charged.1, ·) <$> charged.2.run) = .ok charged ∧
      ledger.chargeAll charged = .ok next ∧ (draft.chargeAll drafted).Drafts next := by
  induction drafted generalizing draft ledger with
  | nil => exact ⟨[], ledger, rfl, rfl, h⟩
  | cons first rest ih =>
    have hfirst : (draft.charge first.1 first.2).AllExact := exact_of_chargeAll hexact
    obtain ⟨amount, hamount, -⟩ := (exact_of_charge hfirst).2.exists_run
    obtain ⟨middle, hmiddle, hdrafts⟩ := h.charge hfirst hamount
    obtain ⟨charged, next, hcharged, hnext, hlast⟩ := ih hdrafts hexact
    refine ⟨(first.1, amount) :: charged, next, ?_, ?_, hlast⟩
    · rw [List.mapM_cons, bind_eq_ok]
      exact ⟨_, map_eq_ok.2 ⟨amount, hamount, rfl⟩, bind_eq_ok.2 ⟨charged, hcharged, rfl⟩⟩
    · rw [FeeLedger.chargeAll, List.foldlM_cons, bind_eq_ok]
      exact ⟨middle, hmiddle, hnext⟩

theorem charges_eq :
    FeeLedger.charges pair fill = (charges pair fill).mapM fun charged => (charged.1, ·) <$> charged.2.run := by
  have hflat : (fill.fee.flat.map fun fee => (fee.token, given fee.amount)).mapM
      (fun charged => (charged.1, ·) <$> charged.2.run)
        = (.ok (fill.fee.flat.map fun fee => (fee.token, fee.amount)) : Except Overflow _) := by
    rw [List.mapM_map]
    exact mapM_eq_ok_map fun fee _ => rfl
  unfold FeeLedger.charges charges
  cases fill.fee.percent.filter (!·.isZero) with
  | none => exact hflat.symm
  | some percent =>
    dsimp only
    rw [List.mapM_cons, hflat, Fill.run_share]
    cases fill.notional with
    | error cause => rfl
    | ok notional =>
      change (notional.mul percent >>= fun share => _) = ((_, ·) <$> notional.mul percent) >>= _
      cases notional.mul percent <;> rfl

theorem exists_ofFills (hexact : (ofFill pair fill).AllExact) :
    ∃ ledger, FeeLedger.ofFills pair [fill] = .ok ledger ∧ (ofFill pair fill).Drafts ledger := by
  have hempty : Drafts Table.empty Table.empty := .nil
  obtain ⟨charged, ledger, hcharged, hledger, hdrafts⟩ := hempty.chargeAll hexact
  refine ⟨ledger, ?_, hdrafts⟩
  rw [FeeLedger.ofFills, List.foldlM_cons, charges_eq, hcharged]
  exact bind_eq_ok.2 ⟨ledger, hledger, rfl⟩

private theorem entryValue?_eq (htoken : token = pair.quote ∨ token = pair.base) (hx : x.run = .ok amount) :
    FeeLedger.entryValue? pair price rates token amount = some <$> (entryInQuote pair price (token, x)).run := by
  unfold FeeLedger.entryValue? entryInQuote
  dsimp only
  split
  · rw [hx]
    rfl
  · rename_i hquote
    rw [if_pos (htoken.resolve_left hquote), run_mul_eq_ok hx rfl]

private theorem foldlM_of_related {entries : List (Token × Calculation)} {amounts : List (Token × Decimal)}
    (h : Entries.Related (fun x amount => x.run = .ok amount) entries amounts)
    (htokens : ∀ entry ∈ amounts, entry.1 = pair.quote ∨ entry.1 = pair.base) (so : Decimal) :
    amounts.foldlM
        (fun so (token, amount) => do
          match ← FeeLedger.entryValue? pair price rates token amount with
          | some value => return { so with total := ← so.total.add value }
          | none => return { so with unpriced := so.unpriced ++ [token] }) (⟨so, []⟩ : QuoteFees)
      = (QuoteFees.mk · []) <$>
        (entries.map (entryInQuote pair price)).foldlM (fun so term => do so.add (← term.run)) so := by
  induction h generalizing so with
  | nil => rfl
  | @cons entry amount entries amounts hfirst hrest ih =>
    obtain ⟨token, x⟩ := entry
    obtain ⟨token', amount⟩ := amount
    obtain ⟨rfl, hx⟩ : token = token' ∧ x.run = .ok amount := hfirst
    rw [List.forall_mem_cons] at htokens
    have hvalue : FeeLedger.entryValue? pair price rates token amount
        = some <$> (entryInQuote pair price (token, x)).run := entryValue?_eq htokens.1 hx
    rw [List.foldlM_cons, List.map_cons, List.foldlM_cons]
    dsimp only
    rw [hvalue]
    cases (entryInQuote pair price (token, x)).run with
    | error cause => rfl
    | ok value =>
      change (so.add value >>= fun total => _) >>= _ = _ <$> (so.add value >>= _)
      cases so.add value with
      | error cause => rfl
      | ok total => exact ih htokens.2 total

theorem Drafts.inQuote (h : draft.Drafts ledger)
    (htokens : ∀ token ∈ ledger.keys, token = pair.quote ∨ token = pair.base) :
    ledger.inQuote pair price rates = (QuoteFees.mk · []) <$> (draft.inQuote pair price).run := by
  rw [DraftLedger.inQuote, run_foldl_add]
  exact foldlM_of_related h (fun entry hentry => htokens _ (List.mem_map_of_mem hentry)) .zero

/-! ## Worth -/

def unitWorth (quote : Token) (price : Decimal) (token : Token) : ℚ :=
  if token = quote then 1 else price.toRat

def worth (unit : Token → ℚ) (entries : List (Token × Calculation)) : ℚ :=
  (entries.map fun entry => entry.2.value * unit entry.1).sum

variable {unit : Token → ℚ}

theorem worth_cons (entry : Token × Calculation) (entries : List (Token × Calculation)) :
    worth unit (entry :: entries) = entry.2.value * unit entry.1 + worth unit entries := by
  rw [worth, List.map_cons, List.sum_cons, ← worth]

private theorem value_inQuote :
    (draft.inQuote pair price).value = worth (unitWorth pair.quote price) draft.entries := by
  rw [DraftLedger.inQuote, value_foldl_add, value, toRat_zero, zero_add, List.map_map, worth]
  congr 1
  refine List.map_congr_left fun entry _ => ?_
  rw [Function.comp_apply, entryInQuote, unitWorth]
  split
  · rw [mul_one]
  · rfl

private theorem worth_put {entries : List (Token × Calculation)} (h : Ascending entries) :
    worth unit (Entries.put token (((Entries.get? token entries).getD (given .zero)).add x) entries)
      = worth unit entries + x.value * unit token := by
  have hput := Entries.sum_put_add token (((Entries.get? token entries).getD (given .zero)).add x)
    (fun entry : Token × Calculation => entry.2.value * unit entry.1) h
  have hold : ((Entries.get? token entries).map fun old => old.value * unit token).getD 0
      = ((Entries.get? token entries).getD (given .zero)).value * unit token := by
    cases Entries.get? token entries with
    | none => simp [value]
    | some old => rfl
  rw [hold, value] at hput
  unfold worth
  linear_combination hput

/-- Each charge adds what it is worth itself. -/
theorem worth_chargeAll :
    worth unit (draft.chargeAll drafted).entries = worth unit draft.entries + worth unit drafted := by
  induction drafted generalizing draft with
  | nil => simp [chargeAll, worth]
  | cons charged rest ih =>
    rw [worth_cons, ← add_assoc]
    exact ih.trans (congrArg (· + worth unit rest) (worth_put draft.ascending))

end DraftLedger

/-! ## Agreement -/

namespace Fill

open DraftLedger

variable {fill : Fill} {pair : Pair} {quote : Token}

def shareWorth (fill : Fill) : ℚ :=
  fill.fee.percent.elim 0 fun percent => fill.price.toRat * fill.amount.toRat * percent.toRat

def flatWorth (fill : Fill) (quote : Token) : ℚ :=
  (fill.fee.flat.map fun fee => fee.amount.toRat * unitWorth quote fill.price fee.token).sum

/-- All that is charged is charged in the pair's own tokens. -/
structure IsChargedWithin (pair : Pair) (fill : Fill) : Prop where
  percentToken : ∀ token ∈ fill.fee.percentToken, token = pair.quote ∨ token = pair.base
  flat : ∀ flat ∈ fill.fee.flat, flat.token = pair.quote ∨ flat.token = pair.base

private theorem value_feeAtOwnPrice : (fill.feeAtOwnPrice quote).value = fill.shareWorth + fill.flatWorth quote := by
  have hflat : ∀ fee, (fill.flatAtOwnPrice quote fee).value
      = fee.amount.toRat * unitWorth quote fill.price fee.token := by
    intro fee
    unfold flatAtOwnPrice unitWorth
    split
    · rw [mul_one, value]
    · rfl
  have hshare : (fill.fee.percent.elim (given .zero) fill.share).value = fill.shareWorth := by
    unfold shareWorth
    cases fill.fee.percent with
    | none => exact toRat_zero
    | some percent => rfl
  rw [feeAtOwnPrice, value, hshare, value_foldl_add, value, toRat_zero, zero_add, List.map_map, flatWorth]
  congr 2
  exact List.map_congr_left fun fee _ => hflat fee

private theorem worth_charges :
    worth (unitWorth pair.quote fill.price) (charges pair fill)
      = fill.shareWorth * unitWorth pair.quote fill.price (fill.fee.percentToken.getD pair.quote)
        + fill.flatWorth pair.quote := by
  have hflat : worth (unitWorth pair.quote fill.price) (fill.fee.flat.map fun fee => (fee.token, given fee.amount))
      = fill.flatWorth pair.quote := by
    rw [worth, List.map_map]
    rfl
  unfold charges shareWorth
  cases hpercent : fill.fee.percent with
  | none =>
    rw [Option.filter_none, Option.elim_none, zero_mul, zero_add]
    exact hflat
  | some percent =>
    by_cases hzero : percent.isZero = true
    · have hnone : (some percent).filter (!·.isZero) = none := by simp [hzero]
      rw [hnone, Option.elim_some, (isZero_iff percent).1 hzero, mul_zero, zero_mul, zero_add]
      exact hflat
    · have hsome : (some percent).filter (!·.isZero) = some percent := by simp [hzero]
      rw [hsome]
      dsimp only
      rw [worth_cons, hflat]
      rfl

private theorem exact_of_inQuote {draft : DraftLedger} {price : Decimal} (h : (draft.inQuote pair price).Exact) :
    draft.AllExact := by
  intro entry hentry
  have hterm : (entryInQuote pair price entry).Exact := h.of_foldl_add.2 _ (List.mem_map_of_mem hentry)
  unfold entryInQuote at hterm
  split at hterm
  · exact hterm
  · exact hterm.1

theorem IsChargedWithin.token_cases (h : fill.IsChargedWithin pair) {ledger : FeeLedger} {token : Token}
    (hledger : FeeLedger.ofFills pair [fill] = .ok ledger) (htoken : token ∈ ledger.keys) :
    token = pair.quote ∨ token = pair.base := by
  rw [FeeLedger.mem_keys_ofFills hledger] at htoken
  obtain ⟨other, hother, htoken⟩ := htoken
  obtain rfl := List.mem_singleton.1 hother
  rcases FeeLedger.mem_tokensOf.1 htoken with ⟨_, _, _, htoken⟩ | ⟨flat, hflat, rfl⟩
  · cases hshare : other.fee.percentToken with
    | none =>
      rw [hshare] at htoken
      exact .inl htoken.symm
    | some own =>
      rw [hshare] at htoken
      obtain rfl : own = token := htoken
      exact h.percentToken own hshare
  · exact h.flat flat hflat

/-- What the two views come to at a fill's own price. -/
theorem exists_views (rates : Table Token Decimal) (hpair : pair.base ≠ pair.quote)
    (hcharged : fill.IsChargedWithin pair) (hledger : ((ofFill pair fill).inQuote pair fill.price).Exact)
    (hfee : (fill.feeAtOwnPrice pair.quote).Exact) :
    ∃ ledger fees fee, FeeLedger.ofFills pair [fill] = .ok ledger ∧ ledger.inQuote pair fill.price rates = .ok fees ∧
      fill.feeInQuote pair.quote = .ok fee ∧ fees.unpriced = [] ∧
      fee.toRat = fill.shareWorth + fill.flatWorth pair.quote ∧
      fees.total.toRat
        = fill.shareWorth * (if fill.fee.percentToken = some pair.base then fill.price.toRat else 1)
          + fill.flatWorth pair.quote := by
  obtain ⟨ledger, hofFills, hdrafts⟩ := exists_ofFills (exact_of_inQuote hledger)
  obtain ⟨total, htotal, hworth⟩ := hledger.exists_run
  obtain ⟨fee, hrun, hvalue⟩ := hfee.exists_run
  have hinQuote : ledger.inQuote pair fill.price rates = .ok ⟨total, []⟩ := by
    rw [hdrafts.inQuote fun token htoken => hcharged.token_cases hofFills htoken, htotal]
    rfl
  have hunit : unitWorth pair.quote fill.price (fill.fee.percentToken.getD pair.quote)
      = if fill.fee.percentToken = some pair.base then fill.price.toRat else 1 := by
    unfold unitWorth
    cases htoken : fill.fee.percentToken with
    | none => simp
    | some token =>
      rcases hcharged.percentToken token htoken with rfl | rfl
      · simp [hpair.symm]
      · simp [hpair]
  rw [value_feeAtOwnPrice] at hvalue
  rw [value_inQuote, ofFill, worth_chargeAll, worth_charges, hunit,
    show worth _ (Table.empty : DraftLedger).entries = 0 from rfl, zero_add] at hworth
  exact ⟨ledger, ⟨total, []⟩, fee, hofFills, hinQuote, run_feeAtOwnPrice ▸ hrun, rfl, hvalue, hworth⟩

/-- At a fill's own price its ledger and its fee come to the same, unless it was charged a share in the base token.
That share counts at the price a second time. -/
theorem views_agree_iff (rates : Table Token Decimal) (hpair : pair.base ≠ pair.quote)
    (hcharged : fill.IsChargedWithin pair) (hledger : ((ofFill pair fill).inQuote pair fill.price).Exact)
    (hfee : (fill.feeAtOwnPrice pair.quote).Exact) :
    ∃ ledger fees fee, FeeLedger.ofFills pair [fill] = .ok ledger ∧ ledger.inQuote pair fill.price rates = .ok fees ∧
      fill.feeInQuote pair.quote = .ok fee ∧ fees.unpriced = [] ∧
      fee.toRat = fill.shareWorth + fill.flatWorth pair.quote ∧
      fees.total.toRat
        = fill.shareWorth * (if fill.fee.percentToken = some pair.base then fill.price.toRat else 1)
          + fill.flatWorth pair.quote ∧
      (fees.total.toRat = fee.toRat ↔
        (fill.fee.percentToken = some pair.base → fill.shareWorth = 0 ∨ fill.price.toRat = 1)) := by
  obtain ⟨ledger, fees, fee, hofFills, hinQuote, hown, hunpriced, hvalue, hworth⟩ :=
    exists_views rates hpair hcharged hledger hfee
  refine ⟨ledger, fees, fee, hofFills, hinQuote, hown, hunpriced, hvalue, hworth, ?_⟩
  rw [hworth, hvalue, add_left_inj, mul_right_eq_self₀]
  split
  · rename_i hbase
    rw [or_comm]
    exact ⟨fun hshare _ => hshare, fun hshare => hshare hbase⟩
  · rename_i hbase
    exact ⟨fun _ htoken => absurd htoken hbase, fun _ => .inl rfl⟩

/-- A purchase of 1 at 200 that was charged one per cent in some token, and flat fees in two. -/
def chargedPurchase (percentToken : Option Token) : Fill :=
  ⟨"venue", "A-B", "run", .buy, (ofText? "200").getD .zero, .one,
    ⟨some ((ofText? "0.01").getD .zero), percentToken, [⟨"A", .one⟩, ⟨"B", .two⟩]⟩, 1000, none, none⟩

private theorem isChargedWithin_chargedPurchase {percentToken : Option Token}
    (h : ∀ token ∈ percentToken, token = "B" ∨ token = "A") :
    (chargedPurchase percentToken).IsChargedWithin ⟨"A", "B"⟩ :=
  ⟨h, by simp [chargedPurchase]⟩

theorem views_agree_iff_chargedPurchase :
    ∃ ledger fees fee, FeeLedger.ofFills ⟨"A", "B"⟩ [chargedPurchase none] = .ok ledger ∧
      ledger.inQuote ⟨"A", "B"⟩ (chargedPurchase none).price Table.empty = .ok fees ∧
      (chargedPurchase none).feeInQuote "B" = .ok fee ∧ fees.unpriced = [] ∧
      fee.toRat = (chargedPurchase none).shareWorth + (chargedPurchase none).flatWorth "B" ∧
      fees.total.toRat
        = (chargedPurchase none).shareWorth
            * (if (none : Option Token) = some "A" then (chargedPurchase none).price.toRat else 1)
          + (chargedPurchase none).flatWorth "B" ∧
      (fees.total.toRat = fee.toRat ↔ ((none : Option Token) = some "A" →
        (chargedPurchase none).shareWorth = 0 ∨ (chargedPurchase none).price.toRat = 1)) :=
  views_agree_iff _ (by decide) (isChargedWithin_chargedPurchase (by simp)) (by decide +kernel) (by decide +kernel)

/-- The share of a fill that was charged in the base token is not worth the same in both views. -/
theorem not_views_agree :
    ¬∀ (pair : Pair) (fill : Fill) (rates : Table Token Decimal) (ledger : FeeLedger) (fees : QuoteFees)
      (fee : Decimal), pair.base ≠ pair.quote → fill.IsChargedWithin pair →
      ((ofFill pair fill).inQuote pair fill.price).Exact → (fill.feeAtOwnPrice pair.quote).Exact →
      FeeLedger.ofFills pair [fill] = .ok ledger → ledger.inQuote pair fill.price rates = .ok fees →
      fill.feeInQuote pair.quote = .ok fee → fees.total.toRat = fee.toRat := by
  intro h
  have hcharged : (chargedPurchase (some "A")).IsChargedWithin ⟨"A", "B"⟩ :=
    isChargedWithin_chargedPurchase (by simp)
  have hledger : ((ofFill ⟨"A", "B"⟩ (chargedPurchase (some "A"))).inQuote ⟨"A", "B"⟩
      (chargedPurchase (some "A")).price).Exact := by decide +kernel
  have hfee : ((chargedPurchase (some "A")).feeAtOwnPrice "B").Exact := by decide +kernel
  obtain ⟨ledger, fees, fee, hofFills, hinQuote, hown, -, hvalue, hworth⟩ :=
    exists_views Table.empty (by decide) hcharged hledger hfee
  have hsame := h _ _ Table.empty ledger fees fee (by decide) hcharged hledger hfee hofFills hinQuote hown
  rw [hworth, hvalue] at hsame
  exact absurd hsame (by decide +kernel)

end Fill

end TradeReport
