import TradeReport.Proofs.FullReport
import TradeReport.Proofs.Pricing
import TradeReport.Proofs.Store.Recording
/-!
# Every fee of an entry

An entry of a window report accounts for the fees of its fills (`Performance.AccountsFees`): its ledger is booked from
the fills in their order and has the tokens they were charged in and no others, each token either counts at its rate or
is listed as unpriced, and the sum of those that count is what is taken off the profit.
-/

namespace TradeReport

open Decimal

/-! ## The worth of a ledger -/

namespace FeeLedger

variable {ledger : FeeLedger} {pair : Pair} {price amount : Decimal} {rates : Table Token Decimal} {token : Token}
  {fees : QuoteFees}

/-- The rate at which a token counts. The quote token comes first, so that it counts as such when the base token is the
same. -/
def rateOf (pair : Pair) (price : Decimal) (rates : Token → Figure) (token : Token) : Figure :=
  if token = pair.quote then some .one else if token = pair.base then some price else rates token

/-- The amounts of a ledger that count, each with its rate, in the order of their tokens. -/
def priced (ledger : FeeLedger) (rate : Token → Figure) : List (Decimal × Decimal) :=
  ledger.entries.filterMap fun entry => (rate entry.1).map fun rate => (entry.2, rate)

private theorem rateOf_eq_none_iff {rates : Token → Figure} :
    rateOf pair price rates token = none ↔ token ≠ pair.base ∧ token ≠ pair.quote ∧ rates token = none := by
  unfold rateOf
  split
  · rename_i hquote
    simp [hquote]
  · rename_i hquote
    split
    · rename_i hbase
      simp [hbase]
    · rename_i hbase
      simp [hquote, hbase]

private theorem exists_mul_one (amount : Decimal) :
    ∃ product, amount.mul .one = .ok product ∧ product.toRat = amount.toRat :=
  exists_of_value? (by rw [value?_mul, toRat_one, mul_one, rounded?_toRat])

/-- The worth of an entry is its amount at the rate of its token. -/
theorem entryValue?_cases {found : Option Decimal} (h : entryValue? pair price rates token amount = .ok found) :
    rateOf pair price rates.get? token = none ∧ found = none ∨
      ∃ rate value product, rateOf pair price rates.get? token = some rate ∧ found = some value ∧
        amount.mul rate = .ok product ∧ product.toRat = value.toRat := by
  unfold entryValue? at h
  unfold rateOf
  split at h
  · rename_i hquote
    obtain ⟨product, hproduct, hvalue⟩ := exists_mul_one amount
    exact .inr ⟨.one, amount, product, if_pos hquote, (pure_eq_ok.1 h).symm, hproduct, hvalue⟩
  · rename_i hquote
    rw [if_neg hquote]
    split at h
    · rename_i hbase
      obtain ⟨value, hvalue, rfl⟩ := map_eq_ok.1 h
      exact .inr ⟨price, value, value, if_pos hbase, rfl, hvalue, rfl⟩
    · rename_i hbase
      rw [if_neg hbase]
      split at h
      · rename_i rate hrate
        obtain ⟨value, hvalue, rfl⟩ := map_eq_ok.1 h
        exact .inr ⟨rate, value, value, hrate, rfl, hvalue, rfl⟩
      · rename_i hrate
        exact .inl ⟨hrate, (pure_eq_ok.1 h).symm⟩

private theorem exists_products_of_foldlM {entries : List (Token × Decimal)} {start : QuoteFees} {so : Decimal}
    (h : entries.foldlM
        (fun so (token, amount) => do
          match ← entryValue? pair price rates token amount with
          | some value => return { so with total := ← so.total.add value }
          | none => return { so with unpriced := so.unpriced ++ [token] }) start = .ok fees)
    (hso : so.toRat = start.total.toRat) :
    ∃ products total,
      ((entries.filterMap fun entry =>
          (rateOf pair price rates.get? entry.1).map fun rate => (entry.2, rate)).mapM
        fun fee => fee.1.mul fee.2) = .ok products ∧
      products.foldlM add so = .ok total ∧ total.toRat = fees.total.toRat := by
  induction entries generalizing start so with
  | nil =>
    obtain rfl : start = fees := pure_eq_ok.1 h
    exact ⟨[], so, rfl, rfl, hso⟩
  | cons entry rest ih =>
    rw [List.foldlM_cons, bind_eq_ok] at h
    obtain ⟨next, hnext, hrest⟩ := h
    obtain ⟨found, hfound, hnext⟩ := bind_eq_ok.1 hnext
    rcases entryValue?_cases hfound with ⟨hrate, rfl⟩ | ⟨rate, value, product, hrate, rfl, hproduct, hvalue⟩
    · obtain rfl := pure_eq_ok.1 hnext
      rw [List.filterMap_cons_none (by rw [hrate]; rfl)]
      exact ih hrest hso
    · obtain ⟨sum, hsum, hnext⟩ := bind_eq_ok.1 hnext
      obtain rfl := pure_eq_ok.1 hnext
      obtain ⟨so', hso', hsame⟩ : ∃ so', so.add product = .ok so' ∧ so'.toRat = sum.toRat :=
        exists_of_value? (by rw [value?_add, hso, hvalue, ← value?_add, hsum, value?_ok])
      obtain ⟨products, total, hproducts, htotal, hworth⟩ := ih hrest hsame
      refine ⟨product :: products, total, ?_, ?_, hworth⟩
      · rw [List.filterMap_cons_some (by rw [hrate]; rfl), List.mapM_cons, bind_eq_ok]
        exact ⟨product, hproduct, bind_eq_ok.2 ⟨products, hproducts, rfl⟩⟩
      · rw [List.foldlM_cons, bind_eq_ok]
        exact ⟨so', hso', htotal⟩

theorem exists_products_of_inQuote (h : ledger.inQuote pair price rates = .ok fees) :
    ∃ products total, ((ledger.priced (rateOf pair price rates.get?)).mapM fun fee => fee.1.mul fee.2) = .ok products ∧
      sum products = .ok total ∧ total.toRat = fees.total.toRat :=
  exists_products_of_foldlM h rfl

private theorem unpriced_eq_filter_rateOf (h : ledger.inQuote pair price rates = .ok fees) :
    fees.unpriced = ledger.keys.filter fun token => rateOf pair price rates.get? token = none := by
  rw [unpriced_of_inQuote h]
  refine List.filter_congr fun token _ => ?_
  rw [decide_eq_decide, rateOf_eq_none_iff, IsUnpriced]
  tauto

end FeeLedger

/-! ## Entries -/

namespace Performance

/-- The rate at which a fee token counts in an entry: one for the quote token, the current price for the base token,
and for another what the oracle knows. -/
def feeRate? (oracle : Oracle) (entry : Performance) (token : Token) : Figure :=
  FeeLedger.rateOf entry.pair entry.currentPrice (fun token => oracle (entry.pair.rateSymbol token)) token

/-- An entry accounts for the fees of fills. -/
structure AccountsFees (oracle : Oracle) (fills : List Fill) (entry : Performance) : Prop where
  /-- The charges of the fills are booked in the order of the fills. -/
  ledger : FeeLedger.ofFills entry.pair (chronological fills) = .ok entry.fees
  tokens : ∀ token, token ∈ entry.fees.keys ↔ ∃ fill ∈ fills, fill.IsChargedIn entry.pair.quote token
  unpriced_increasing : Increasing entry.unpricedTokens
  mem_unpriced : ∀ token, token ∈ entry.unpricedTokens ↔
    (∃ fill ∈ fills, fill.IsChargedIn entry.pair.quote token) ∧ token ≠ entry.pair.base ∧ token ≠ entry.pair.quote ∧
      oracle (entry.pair.rateSymbol token) = none
  /-- The amounts that count, each at its rate, are summed in the order of their tokens. -/
  feeInQuote : ∃ products total,
    ((entry.fees.priced (entry.feeRate? oracle)).mapM fun fee => fee.1.mul fee.2) = .ok products ∧
      sum products = .ok total ∧ total.toRat = entry.feeInQuote.toRat
  totalPnl : entry.tradePnl.sub entry.feeInQuote = .ok entry.totalPnl

theorem AccountsFees.congr {oracle : Oracle} {fills fills' : List Fill} {entry : Performance}
    (h : entry.AccountsFees oracle fills) (hsame : chronological fills = chronological fills') :
    entry.AccountsFees oracle fills' := by
  have hmem : ∀ fill, fill ∈ fills ↔ fill ∈ fills' := by
    intro fill
    rw [← (chronological_perm fills).mem_iff, hsame, (chronological_perm fills').mem_iff]
  have hcharged : ∀ token, (∃ fill ∈ fills, fill.IsChargedIn entry.pair.quote token) ↔
      ∃ fill ∈ fills', fill.IsChargedIn entry.pair.quote token := by
    intro token
    simp only [hmem]
  refine ⟨hsame ▸ h.ledger, fun token => ?_, h.unpriced_increasing, fun token => ?_, h.feeInQuote, h.totalPnl⟩
  · rw [h.tokens, hcharged]
  · rw [h.mem_unpriced, hcharged]

end Performance

namespace Market

variable {σ : Type} {market : Market σ} {scope : String} {start : ℤ} {before after : Elapsed σ}
  {report : WindowReport} {group : Listing × List Fill} {holdings : Snapshot} {entry : Performance}

theorem Priced.rateOf_eq {first last : Fill} {pricing : Pricing} {hidden : Performance.Hidden}
    (h : market.Priced start group holdings entry first last pricing hidden) {token : Token}
    (htoken : token ∈ entry.fees.keys) :
    FeeLedger.rateOf entry.pair entry.currentPrice pricing.rates.get? token = entry.feeRate? market.oracle token := by
  unfold Performance.feeRate? FeeLedger.rateOf
  split
  · rfl
  · rename_i hquote
    split
    · rfl
    · rename_i hbase
      exact h.rates token (FeeLedger.mem_foreignTokens.2 ⟨htoken, hbase, hquote⟩)

theorem IsEntry.accountsFees (h : market.IsEntry start group holdings entry) :
    entry.AccountsFees market.oracle group.2 := by
  obtain ⟨first, last, pricing, hidden, hpriced⟩ := h.exists_priced
  have hcomputed := hpriced.computed
  have htokens : ∀ token, token ∈ entry.fees.keys ↔ ∃ fill ∈ group.2, fill.IsChargedIn entry.pair.quote token := by
    intro token
    rw [FeeLedger.mem_keys_ofFills hcomputed.fees]
    simp only [(chronological_perm group.2).mem_iff, FeeLedger.mem_tokensOf]
  have hunpriced : entry.unpricedTokens
      = entry.fees.keys.filter fun token => entry.feeRate? market.oracle token = none := by
    have hlisted := FeeLedger.unpriced_eq_filter_rateOf hcomputed.quoteFees
    rw [show entry.unpricedTokens = _ from hlisted]
    refine List.filter_congr fun token htoken => ?_
    rw [hpriced.rateOf_eq htoken]
  have hsame : entry.fees.priced (FeeLedger.rateOf entry.pair entry.currentPrice pricing.rates.get?)
      = entry.fees.priced (entry.feeRate? market.oracle) := by
    refine List.filterMap_congr fun fee hfee => ?_
    rw [hpriced.rateOf_eq (List.mem_map_of_mem hfee)]
  refine ⟨hcomputed.fees, htokens, ?_, fun token => ?_, ?_, hcomputed.totalPnl⟩
  · rw [hunpriced]
    exact increasing_of_ascending (entry.fees.keys_ascending.filter _)
  · rw [hunpriced, List.mem_filter, htokens, decide_eq_true_eq, Performance.feeRate?, FeeLedger.rateOf_eq_none_iff]
  · rw [← hsame]
    exact FeeLedger.exists_products_of_inQuote hcomputed.quoteFees

/-- Each entry of a window report from a store accounts for the fees of its fills in the logs of the store. -/
theorem windowReport_accountsFees {store : Store} (hsource : market.source = store.source)
    (h : (market.windowReport (some scope) start).Gives before report after) :
    ∃ files, store.Logged store.tradesFolder files ∧ ∀ entry ∈ report.markets,
      entry.AccountsFees market.oracle ((reportedFills scope start (Store.recordsOf Fill.ofLine? files)).filter
        (·.listing = WindowReport.entryListing entry)) := by
  obtain ⟨fills, hfills, -, hentries⟩ := exists_entries h
  rw [hsource] at hfills
  obtain ⟨all, hall, -⟩ := bind_eq_ok.1 hfills
  obtain ⟨files, hlogged, rfl⟩ := Store.exists_byTime_of_allTrades hall
  refine ⟨files, hlogged, fun entry hentry => ?_⟩
  obtain ⟨group, hgroup, _, holdings, _, -, hentry⟩ := exists_of_forall₂ hentries hentry
  obtain ⟨pricing, -, hcalculate⟩ := id hentry
  have hgroupFills : group.2 = (fills.filter Fill.isResolvable).filter (·.listing = group.1) :=
    Table.eq_filter_of_mem_group hgroup
  refine hentry.accountsFees.congr ?_
  rw [WindowReport.entryListing_of_calculate hcalculate, hgroupFills, Store.reportedFills_eq hall hfills,
    reportedFills, reportedFills, List.filter_filter, List.filter_filter]
  exact Store.chronological_filter_byTime _ _

/-- A store with one purchase that was charged a share in a third token and two flat fees. -/
def chargedStore : Store :=
  { disk := ⟨Table.ofList [(["data", "trades", "1970-01-01.jsonl"], .file (.ofText (
      "\x7b\"market\":\"venue\",\"symbol\":\"A-B\",\"strategy_id\":\"run\",\"side\":\"BUY\","
        ++ "\"price\":\"100\",\"amount\":\"1\",\"fee\":\x7b\"percent\":\"0.01\",\"percent_token\":\"C\","
        ++ "\"flat_fees\":[\x7b\"token\":\"A\",\"amount\":\"0.5\"\x7d,\x7b\"token\":\"D\",\"amount\":\"2\"\x7d]\x7d,"
        ++ "\"timestamp\":1000\x7d\n")))]⟩
    home := "data" }

def chargedMarket : Market Unit :=
  ⟨chargedStore.source, .ofRates (Table.ofList [("D-B", .two)]), .paper Table.empty, .usual, 30000, 2000⟩

theorem windowReport_accountsFees_charged :
    ∃ report after, (chargedMarket.windowReport (some "run") 0).Gives ⟨(), 0⟩ report after ∧
      report.markets.map (fun entry => (entry.fees.keys, entry.unpricedTokens)) = [(["A", "C", "D"], ["C"])] ∧
      ∃ files, chargedStore.Logged chargedStore.tradesFolder files ∧ ∀ entry ∈ report.markets,
        entry.AccountsFees chargedMarket.oracle
          ((reportedFills "run" 0 (Store.recordsOf Fill.ofLine? files)).filter
            (·.listing = WindowReport.entryListing entry)) := by
  have hrun : (((chargedMarket.windowReport (some "run") 0).runFrom ⟨(), 0⟩).1.toOption.map fun report =>
      report.markets.map fun entry => (entry.fees.keys, entry.unpricedTokens)) = some [(["A", "C", "D"], ["C"])] := by
    rw [chargedMarket, chargedStore, Content.ofText_append, String.toList_append, String.toList_append,
      String.toList_ofList, String.toList_ofList, String.toList_ofList, String.toList_ofList]
    decide +kernel
  obtain ⟨report, after, hgives⟩ :
      ∃ report after, (chargedMarket.windowReport (some "run") 0).Gives ⟨(), 0⟩ report after :=
    Reporting.exists_gives (Option.isSome_map.symm.trans (Option.isSome_of_eq_some hrun))
  rw [show (chargedMarket.windowReport (some "run") 0).runFrom ⟨(), 0⟩ = (.ok report, after) from hgives] at hrun
  exact ⟨report, after, hgives, Option.some.inj hrun, windowReport_accountsFees rfl hgives⟩

end Market

end TradeReport
