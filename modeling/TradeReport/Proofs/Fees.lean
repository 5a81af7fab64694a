import TradeReport.Fees
import TradeReport.Proofs.Decimal.Operation
import TradeReport.Proofs.Table
/-!
# Fees of fills

The tokens of a ledger are those that some fill was charged in (`mem_keys_ofFills`), whatever the order of the
fills, and the tokens without a price are known from them (`unpriced_of_inQuote`). Fills that are charged nothing
have a ledger of zeros, which is worth nothing at any price (`exists_ofFills_of_free`, `exists_inQuote_of_zero`).
-/

namespace TradeReport

open Decimal

/-- Nothing is charged: no share of the notional, and no flat fee but zero. -/
structure Fee.IsFree (fee : Fee) : Prop where
  percent : ∀ percent ∈ fee.percent, percent.toRat = 0
  flat : ∀ flat ∈ fee.flat, flat.amount.toRat = 0

/-- A token that a fill is charged in: for a share that is not zero, or for a flat fee. A share without a token is
charged in the quote token. -/
def Fill.IsChargedIn (fill : Fill) (quote token : Token) : Prop :=
  (∃ percent ∈ fill.fee.percent, percent.toRat ≠ 0 ∧ fill.fee.percentToken.getD quote = token) ∨
    ∃ flat ∈ fill.fee.flat, flat.token = token

namespace FeeLedger

variable {ledger next : FeeLedger} {pair : Pair} {fill : Fill} {fills : List Fill} {token : Token}
  {amount price : Decimal} {charged : List (Token × Decimal)} {rates : Table Token Decimal} {fees : QuoteFees}

theorem charge_eq_ok_iff :
    ledger.charge token amount = .ok next ↔
      ∃ total, ((ledger.get? token).getD .zero).add amount = .ok total ∧ ledger.put token total = next := by
  simp only [charge, bind_eq_ok, pure_eq_ok]

/-! ## Tokens -/

def tokensOf (pair : Pair) (fill : Fill) : List Token :=
  match fill.fee.percent.filter (!·.isZero) with
  | none => fill.fee.flat.map (·.token)
  | some _ => fill.fee.percentToken.getD pair.quote :: fill.fee.flat.map (·.token)

theorem mem_tokensOf : token ∈ tokensOf pair fill ↔ fill.IsChargedIn pair.quote token := by
  have hflat : token ∈ fill.fee.flat.map (·.token) ↔ ∃ flat ∈ fill.fee.flat, flat.token = token := List.mem_map
  unfold tokensOf Fill.IsChargedIn
  cases hpercent : fill.fee.percent.filter (!·.isZero) with
  | none =>
    rw [Option.filter_eq_none_iff] at hpercent
    dsimp only
    rw [hflat, or_iff_right]
    intro hshare
    obtain ⟨percent, hmem, hne, -⟩ := hshare
    exact hpercent percent hmem (by rw [Bool.not_eq_true', ← Bool.not_eq_true, isZero_iff]; exact hne)
  | some percent =>
    obtain ⟨hsome, hne⟩ := Option.filter_eq_some_iff.1 hpercent
    rw [Bool.not_eq_true', ← Bool.not_eq_true, isZero_iff] at hne
    dsimp only
    rw [List.mem_cons, hflat]
    refine or_congr_left ⟨fun h => ⟨percent, hsome, hne, h.symm⟩, fun h => ?_⟩
    obtain ⟨_, _, _, h⟩ := h
    exact h.symm

private theorem tokens_of_charges (h : charges pair fill = .ok charged) : charged.map (·.1) = tokensOf pair fill := by
  unfold charges at h
  unfold tokensOf
  cases hpercent : fill.fee.percent.filter (!·.isZero) with
  | none =>
    simp only [hpercent] at h
    rw [← pure_eq_ok.1 h, List.map_map]
    rfl
  | some percent =>
    simp only [hpercent] at h
    obtain ⟨notional, -, h⟩ := bind_eq_ok.1 h
    obtain ⟨share, -, h⟩ := bind_eq_ok.1 h
    rw [← pure_eq_ok.1 h, List.map_cons, List.map_map]
    rfl

private theorem mem_keys_chargeAll (h : ledger.chargeAll charged = .ok next) :
    token ∈ next.keys ↔ token ∈ ledger.keys ∨ token ∈ charged.map (·.1) := by
  induction charged generalizing ledger with
  | nil =>
    obtain rfl : ledger = next := pure_eq_ok.1 h
    simp
  | cons first rest ih =>
    rw [chargeAll, List.foldlM_cons, bind_eq_ok] at h
    obtain ⟨middle, hmiddle, hrest⟩ := h
    obtain ⟨total, -, rfl⟩ := charge_eq_ok_iff.1 hmiddle
    rw [ih hrest, Table.mem_keys_put, List.map_cons, List.mem_cons, or_assoc, or_left_comm]

private theorem mem_keys_foldlM
    (h : fills.foldlM (fun ledger fill => do ledger.chargeAll (← charges pair fill)) ledger = .ok next) :
    token ∈ next.keys ↔ token ∈ ledger.keys ∨ ∃ fill ∈ fills, token ∈ tokensOf pair fill := by
  induction fills generalizing ledger with
  | nil =>
    obtain rfl : ledger = next := pure_eq_ok.1 h
    simp
  | cons fill rest ih =>
    rw [List.foldlM_cons, bind_eq_ok] at h
    obtain ⟨middle, hmiddle, hrest⟩ := h
    obtain ⟨charged, hcharged, hmiddle⟩ := bind_eq_ok.1 hmiddle
    rw [ih hrest, mem_keys_chargeAll hmiddle, tokens_of_charges hcharged, List.exists_mem_cons_iff, or_assoc]

theorem mem_keys_ofFills (h : ofFills pair fills = .ok ledger) :
    token ∈ ledger.keys ↔ ∃ fill ∈ fills, token ∈ tokensOf pair fill := by
  rw [mem_keys_foldlM h]
  simp [Table.keys, Table.empty]

/-- The tokens of a ledger do not depend on the order in which it was booked. -/
theorem keys_eq_of_perm {fills' : List Fill} {ledger' : FeeLedger} (hperm : fills.Perm fills')
    (h : ofFills pair fills = .ok ledger) (h' : ofFills pair fills' = .ok ledger') : ledger.keys = ledger'.keys := by
  refine Table.keys_eq_of_mem_iff fun token => ?_
  rw [mem_keys_ofFills h, mem_keys_ofFills h']
  simp only [hperm.mem_iff]

theorem mem_foreignTokens :
    token ∈ ledger.foreignTokens pair ↔ token ∈ ledger.keys ∧ token ≠ pair.base ∧ token ≠ pair.quote := by
  rw [foreignTokens, List.mem_filter, Bool.and_eq_true, bne_iff_ne, bne_iff_ne]

def IsUnpriced (pair : Pair) (rates : Table Token Decimal) (token : Token) : Prop :=
  token ≠ pair.quote ∧ token ≠ pair.base ∧ rates.get? token = none

instance : DecidablePred (IsUnpriced pair rates) := fun _ =>
  inferInstanceAs (Decidable (_ ∧ _ ∧ _))

private theorem entryValue?_eq_ok_none (h : entryValue? pair price rates token amount = .ok none) :
    IsUnpriced pair rates token := by
  unfold entryValue? at h
  split at h
  · cases pure_eq_ok.1 h
  · rename_i hquote
    split at h
    · obtain ⟨value, -, hvalue⟩ := map_eq_ok.1 h
      cases hvalue
    · rename_i hbase
      split at h
      · obtain ⟨value, -, hvalue⟩ := map_eq_ok.1 h
        cases hvalue
      · rename_i hrate
        exact ⟨hquote, hbase, hrate⟩

private theorem entryValue?_eq_ok_some {value : Decimal}
    (h : entryValue? pair price rates token amount = .ok (some value)) : ¬IsUnpriced pair rates token := by
  intro h
  obtain ⟨hquote, hbase, hrate⟩ := h
  rw [entryValue?, if_neg hquote, if_neg hbase, hrate] at h
  cases pure_eq_ok.1 h

private theorem unpriced_of_foldlM {entries : List (Token × Decimal)} {start : QuoteFees}
    (h : entries.foldlM
        (fun so (token, amount) => do
          match ← entryValue? pair price rates token amount with
          | some value => return { so with total := ← so.total.add value }
          | none => return { so with unpriced := so.unpriced ++ [token] }) start = .ok fees) :
    fees.unpriced = start.unpriced ++ (entries.map (·.1)).filter (IsUnpriced pair rates) := by
  induction entries generalizing start with
  | nil =>
    obtain rfl : start = fees := pure_eq_ok.1 h
    simp
  | cons entry rest ih =>
    rw [List.foldlM_cons, bind_eq_ok] at h
    obtain ⟨next, hnext, hrest⟩ := h
    obtain ⟨found, hfound, hnext⟩ := bind_eq_ok.1 hnext
    rw [ih hrest, List.map_cons]
    cases found with
    | none =>
      obtain rfl := pure_eq_ok.1 hnext
      rw [List.filter_cons_of_pos (by simpa using entryValue?_eq_ok_none hfound), List.append_assoc]
      rfl
    | some value =>
      obtain ⟨total, -, hnext⟩ := bind_eq_ok.1 hnext
      obtain rfl := pure_eq_ok.1 hnext
      rw [List.filter_cons_of_neg (by simpa using entryValue?_eq_ok_some hfound)]

theorem unpriced_of_inQuote (h : ledger.inQuote pair price rates = .ok fees) :
    fees.unpriced = ledger.keys.filter (IsUnpriced pair rates) :=
  (unpriced_of_foldlM h).trans (List.nil_append _)

/-! ## Fills that are charged nothing -/

def AllZero (ledger : FeeLedger) : Prop :=
  ∀ token amount, ledger.get? token = some amount → amount.toRat = 0

private theorem exists_charge_of_zero (hledger : ledger.AllZero) (token : Token) (hamount : amount.toRat = 0) :
    ∃ next, ledger.charge token amount = .ok next ∧ next.AllZero := by
  obtain ⟨total, htotal, hvalue⟩ := exists_add_zero ((ledger.get? token).getD .zero) hamount
  refine ⟨ledger.put token total, charge_eq_ok_iff.2 ⟨total, htotal, rfl⟩, fun other held hheld => ?_⟩
  by_cases hother : other = token
  · rw [hother, Table.get?_put_self, Option.some.injEq] at hheld
    rw [← hheld, hvalue]
    cases hentry : ledger.get? token with
    | none => exact toRat_zero
    | some before => exact hledger token before hentry
  · rw [Table.get?_put_ne hother] at hheld
    exact hledger other held hheld

private theorem charges_of_free (hfree : fill.fee.IsFree) :
    charges pair fill = .ok (fill.fee.flat.map fun fee => (fee.token, fee.amount)) := by
  have hpercent : fill.fee.percent.filter (!·.isZero) = none := by
    rw [Option.filter_eq_none_iff]
    intro percent hmem
    simpa [isZero_iff] using hfree.percent percent hmem
  rw [charges, hpercent]
  rfl

theorem exists_ofFills_of_free (hfree : ∀ fill ∈ fills, fill.fee.IsFree) :
    ∃ ledger, ofFills pair fills = .ok ledger ∧ ledger.AllZero := by
  refine exists_foldlM_eq_ok (fun ledger hledger fill hfill => ?_) (fun token amount h => ?_)
  · rw [charges_of_free (hfree fill hfill)]
    refine exists_foldlM_eq_ok (fun ledger hledger charged hcharged => ?_) hledger
    obtain ⟨fee, hfee, rfl⟩ := List.mem_map.1 hcharged
    exact exists_charge_of_zero hledger fee.token ((hfree fill hfill).flat fee hfee)
  · cases h

private theorem exists_entryValue?_of_zero (hamount : amount.toRat = 0) :
    ∃ found, entryValue? pair price rates token amount = .ok found ∧ ∀ value ∈ found, value.toRat = 0 := by
  have hproduct : ∀ factor, ∃ found, some <$> amount.mul factor = Except.ok (ε := Overflow) found ∧
      ∀ value ∈ found, value.toRat = 0 := by
    intro factor
    obtain ⟨product, hproduct, hvalue⟩ := exists_zero_mul hamount factor
    exact ⟨some product, map_eq_ok.2 ⟨product, hproduct, rfl⟩, by simpa using hvalue⟩
  unfold entryValue?
  split
  · exact ⟨some amount, rfl, by simpa using hamount⟩
  · split
    · exact hproduct price
    · split
      · exact hproduct _
      · exact ⟨none, rfl, by simp⟩

theorem exists_inQuote_of_zero (hledger : ledger.AllZero) :
    ∃ fees, ledger.inQuote pair price rates = .ok fees ∧ fees.total.toRat = 0 := by
  refine exists_foldlM_eq_ok (P := fun fees : QuoteFees => fees.total.toRat = 0)
    (fun so hso entry hentry => ?_) toRat_zero
  obtain ⟨token, amount⟩ := entry
  have hamount := hledger token amount (Table.mem_entries_iff.1 hentry)
  obtain ⟨found, hfound, hzero⟩ :
      ∃ found, entryValue? pair price rates token amount = .ok found ∧ ∀ value ∈ found, value.toRat = 0 :=
    exists_entryValue?_of_zero hamount
  simp only [hfound]
  cases found with
  | none => exact ⟨_, rfl, hso⟩
  | some value =>
    obtain ⟨total, htotal, hvalue⟩ := exists_add_zero so.total (hzero value rfl)
    refine ⟨{ so with total := total }, ?_, hvalue.trans hso⟩
    exact bind_eq_ok.2 ⟨_, rfl, bind_eq_ok.2 ⟨total, htotal, rfl⟩⟩

end FeeLedger

end TradeReport
