import TradeReport.Proofs.Fees
import TradeReport.Proofs.WindowReport
/-!
# What an entry is priced with

The rates of an entry are looked up before its figures are computed, for the tokens of a ledger that is booked in the
order in which the fills were read. The entry has a ledger of its own, booked in the order of time. Both have the same
tokens, so each fee token of an entry was looked up (`Market.IsEntry.exists_priced`), and the price of an entry is
that of the oracle if it knows one.
-/

namespace TradeReport

namespace Table

variable {κ α : Type} [Ord κ] [Std.LawfulEqOrd κ] [Std.TransOrd κ] [DecidableEq κ] {key : κ} {find : κ → Option α}

private theorem get?_foldl_found (keys : List κ) (table : Table κ α) :
    ((keys.filterMap fun key => (find key).map fun value => (key, value)).foldl
        (fun table entry => table.put entry.1 entry.2) table).get? key
      = if key ∈ keys then (find key).or (table.get? key) else table.get? key := by
  induction keys generalizing table with
  | nil => simp
  | cons first rest ih =>
    cases hfound : find first with
    | none =>
      rw [List.filterMap_cons_none (by rw [hfound]; rfl), ih]
      by_cases hkey : key = first
      · simp [hkey, hfound]
      · simp [hkey]
    | some value =>
      rw [List.filterMap_cons_some (by rw [hfound]; rfl), List.foldl_cons, ih]
      by_cases hkey : key = first
      · simp [hkey, hfound, get?_put_self]
      · simp [hkey, get?_put_ne hkey]

theorem get?_ofList_found (keys : List κ) :
    (ofList (keys.filterMap fun key => (find key).map fun value => (key, value))).get? key
      = if key ∈ keys then find key else none := by
  rw [ofList, get?_foldl_found]
  simp [get?, Entries.get?, empty]

end Table

namespace Oracle

variable {first second : Oracle} {symbol : String}

theorem orElse_of_some {rate : Decimal} (h : first symbol = some rate) : (first.orElse second) symbol = some rate := by
  rw [orElse, h, Option.orElse_some]

theorem orElse_of_none (h : first symbol = .none) : (first.orElse second) symbol = second symbol := by
  rw [orElse, h, Option.orElse_none]

end Oracle

namespace Market

variable {σ : Type} {market : Market σ} {symbol scope : String} {start : ℤ} {fills : List Fill} {pricing : Pricing}
  {group : Listing × List Fill} {entry : Performance} {before after : Elapsed σ} {report : WindowReport}

theorem pricing_of_some {pair : Pair} (hpair : Pair.ofSymbol? symbol = some pair) :
    market.pricing symbol fills = (FeeLedger.ofFills pair fills).mapError .overflow >>= fun ledger =>
      pure ⟨market.oracle symbol, feeRates market.oracle pair (ledger.foreignTokens pair)⟩ := by
  rw [pricing, Pair.ofSymbol_of_some hpair]
  rfl

theorem pricing_of_none (hpair : Pair.ofSymbol? symbol = none) :
    market.pricing symbol fills = .error (.invalidPair symbol) := by
  rw [pricing, Pair.ofSymbol_of_none hpair]
  rfl

theorem pricing_eq_ok_iff :
    market.pricing symbol fills = .ok pricing ↔
      ∃ pair ledger, Pair.ofSymbol? symbol = some pair ∧ FeeLedger.ofFills pair fills = .ok ledger ∧
        pricing = ⟨market.oracle symbol, feeRates market.oracle pair (ledger.foreignTokens pair)⟩ := by
  cases hpair : Pair.ofSymbol? symbol with
  | none =>
    rw [pricing_of_none hpair]
    exact iff_of_false nofun nofun
  | some pair =>
    rw [pricing_of_some hpair, bind_eq_ok]
    constructor
    · intro h
      obtain ⟨ledger, hledger, hpricing⟩ := h
      exact ⟨pair, ledger, rfl, mapError_eq_ok.1 hledger, (pure_eq_ok.1 hpricing).symm⟩
    · intro h
      obtain ⟨pair', ledger, hsame, hledger, hpricing⟩ := h
      obtain rfl := Option.some.inj hsame
      exact ⟨ledger, mapError_eq_ok.2 hledger, pure_eq_ok.2 hpricing.symm⟩

theorem get?_feeRates (oracle : Oracle) (pair : Pair) (tokens : List Token) (token : Token) :
    (feeRates oracle pair tokens).get? token = if token ∈ tokens then oracle (pair.rateSymbol token) else none :=
  Table.get?_ofList_found tokens

theorem feeRates_congr {oracle oracle' : Oracle} {pair : Pair} {tokens : List Token}
    (h : ∀ token ∈ tokens, oracle (pair.rateSymbol token) = oracle' (pair.rateSymbol token)) :
    feeRates oracle pair tokens = feeRates oracle' pair tokens := by
  refine congrArg Table.ofList (List.filterMap_congr fun token htoken => ?_)
  rw [h token htoken]

/-- The entry of a group, given what its market holds. -/
def IsEntry (market : Market σ) (start : ℤ) (group : Listing × List Fill) (holdings : Snapshot)
    (entry : Performance) : Prop :=
  ∃ pricing, market.pricing group.1.symbol group.2 = .ok pricing ∧
    Performance.calculate market.derivatives group.1 group.2 holdings (Int64.ofInt start) pricing = .ok entry

theorem gives_resolve_iff :
    (market.resolve start group).Gives before entry after ↔
      ∃ holdings, (market.fetch group.1.market).Gives before holdings after ∧
        market.IsEntry start group holdings entry := by
  obtain ⟨listing, fills⟩ := group
  rw [resolve, Reporting.gives_bind_iff]
  constructor
  · intro h
    obtain ⟨holdings, fetched, hfetch, h⟩ := h
    obtain ⟨pricing, _, hlooked, h⟩ := Reporting.gives_bind_iff.1 h
    obtain ⟨hpricing, rfl⟩ := Reporting.gives_ofCalculation_iff.1 hlooked
    obtain ⟨hcalculate, rfl⟩ := Reporting.gives_ofCalculation_iff.1 h
    exact ⟨holdings, hfetch, pricing, hpricing, hcalculate⟩
  · intro h
    obtain ⟨holdings, hfetch, pricing, hpricing, hcalculate⟩ := h
    exact ⟨holdings, after, hfetch, Reporting.gives_bind_iff.2 ⟨pricing, after,
      Reporting.gives_ofCalculation_iff.2 ⟨hpricing, rfl⟩, Reporting.gives_ofCalculation_iff.2 ⟨hcalculate, rfl⟩⟩⟩

/-- The entries of a report are those of its groups, each with what was fetched for it. -/
theorem exists_entries (h : (market.windowReport (some scope) start).Gives before report after) :
    ∃ fills, market.source.tradesSince start (some scope) none = .ok fills ∧ fills.filter Fill.isResolvable ≠ [] ∧
      List.Forall₂ (fun group entry => ∃ before holdings after,
          (market.fetch group.1.market).Gives before holdings after ∧ market.IsEntry start group holdings entry)
        (groupByListing fills).entries report.markets := by
  obtain ⟨fills, entries, hfills, hsome, hentries, hreport⟩ := exists_resolved h
  rw [WindowReport.ofMarkets_of_computed (computed_of_mapM hentries)] at hreport
  obtain ⟨average, -, hreport⟩ := bind_eq_ok.1 hreport
  obtain rfl := pure_eq_ok.1 hreport
  have hne : fills.filter Fill.isResolvable ≠ [] := by
    intro hnone
    rw [groupByListing, hnone] at hsome
    cases hsome
  refine ⟨fills, hfills, hne, (Reporting.forall₂_of_gives_mapM hentries).imp ?_⟩
  intro group entry hresolved
  obtain ⟨before, after, hentry⟩ := hresolved
  obtain ⟨holdings, hfetch, hentry⟩ := gives_resolve_iff.1 hentry
  exact ⟨before, holdings, after, hfetch, hentry⟩

theorem gives_windowReport_of_entry {listing : Listing} {own : List Fill} {holdings : Snapshot}
    (hfills : market.source.tradesSince start (some scope) none = .ok fills)
    (hgroups : (groupByListing fills).entries = [(listing, own)])
    (hfetch : (market.fetch listing.market).Gives before holdings after)
    (hentry : market.IsEntry start (listing, own) holdings entry)
    (hreport : WindowReport.ofMarkets ⟨start, market.now⟩ [entry] = .ok report) :
    (market.windowReport (some scope) start).Gives before report after := by
  have hsome : (groupByListing fills).isEmpty = false := by
    rw [Table.isEmpty, hgroups]
    rfl
  refine Reporting.gives_bind_iff.2 ⟨fills, before, Reporting.gives_ofSource_iff.2 ⟨hfills, rfl⟩, ?_⟩
  dsimp only
  rw [if_neg (by simp [hsome]), hgroups, List.mapM_cons, List.mapM_nil]
  refine Reporting.gives_bind_iff.2 ⟨[entry], after, ?_, Reporting.gives_ofArithmetic_iff.2 ⟨hreport, rfl⟩⟩
  exact Reporting.gives_bind_iff.2 ⟨entry, after, gives_resolve_iff.2 ⟨holdings, hfetch, hentry⟩, rfl⟩

theorem exists_windowReport_of_figures {listing : Listing} {own ordered : List Fill} {holdings : Snapshot}
    {first last : Fill} {pair : Pair} (hfills : market.source.tradesSince start (some scope) none = .ok fills)
    (hgroups : (groupByListing fills).entries = [(listing, own)])
    (hfetch : (market.fetch listing.market).Gives before holdings after)
    (hpricing : market.pricing listing.symbol own = .ok pricing) (hordered : chronological own = ordered)
    (hfirst : ordered.head? = some first) (hlast : ordered.getLast? = some last)
    (hpair : Pair.ofSymbol? listing.symbol = some pair)
    (hcomputed : (Performance.ofOrdered market.derivatives listing.market pair first last ordered holdings
      (Int64.ofInt start) pricing >>= fun entry => WindowReport.ofMarkets ⟨start, market.now⟩ [entry]).map
        (fun _ => ()) = .ok ()) :
    ∃ report entry hidden, (market.windowReport (some scope) start).Gives before report after ∧
      report.markets = [entry] ∧
      Performance.Computed market.derivatives listing.market pair first last ordered holdings (Int64.ofInt start)
        pricing hidden entry := by
  subst hordered
  obtain ⟨report, hrun, -⟩ := map_eq_ok.1 hcomputed
  obtain ⟨entry, hentry, hreport⟩ := bind_eq_ok.1 hrun
  obtain ⟨hidden, hfigures⟩ := Performance.ofOrdered_eq_ok_iff.1 hentry
  have hcalculate : Performance.calculate market.derivatives listing own holdings (Int64.ofInt start) pricing
      = .ok entry := Performance.calculate_eq_ok_iff.2 ⟨first, last, pair, hfirst, hlast, hpair, hentry⟩
  have hmarkets : report.markets = [entry] := by
    obtain ⟨average, -, hmade⟩ := bind_eq_ok.1 hreport
    rw [← pure_eq_ok.1 hmade]
    exact List.mergeSort_singleton entry
  exact ⟨report, entry, hidden,
    gives_windowReport_of_entry hfills hgroups hfetch ⟨pricing, hpricing, hcalculate⟩ hreport, hmarkets, hfigures⟩

/-- How an entry was computed. -/
structure Priced (market : Market σ) (start : ℤ) (group : Listing × List Fill) (holdings : Snapshot)
    (entry : Performance) (first last : Fill) (pricing : Pricing) (hidden : Performance.Hidden) : Prop where
  pair : Pair.ofSymbol? group.1.symbol = some entry.pair
  isFirst : (chronological group.2).head? = some first
  isLast : (chronological group.2).getLast? = some last
  computed : Performance.Computed market.derivatives group.1.market entry.pair first last (chronological group.2)
    holdings (Int64.ofInt start) pricing hidden entry
  price : pricing.price = market.oracle group.1.symbol
  /-- Each token that the entry needs a rate for was looked up. -/
  rates : ∀ token ∈ entry.fees.foreignTokens entry.pair,
    pricing.rates.get? token = market.oracle (entry.pair.rateSymbol token)

/-- The ledger of the rates is booked as the fills were read, that of the entry as they were made. -/
theorem foreignTokens_of_calculate {derivatives : DerivativeMarkets} {holdings : Snapshot} {windowStart : Int64}
    {pair : Pair} {ledger : FeeLedger} (hpair : Pair.ofSymbol? group.1.symbol = some pair)
    (hledger : FeeLedger.ofFills pair group.2 = .ok ledger)
    (hcalculate : Performance.calculate derivatives group.1 group.2 holdings windowStart pricing = .ok entry) :
    entry.pair = pair ∧ ledger.foreignTokens pair = entry.fees.foreignTokens entry.pair := by
  obtain ⟨first, last, pair', -, -, hpair', hrun⟩ := Performance.calculate_eq_ok_iff.1 hcalculate
  obtain ⟨hidden, hcomputed⟩ := Performance.ofOrdered_eq_ok_iff.1 hrun
  obtain rfl : pair' = pair := Option.some.inj (hpair'.symm.trans hpair)
  have hkeys : ledger.keys = entry.fees.keys :=
    FeeLedger.keys_eq_of_perm (chronological_perm group.2).symm hledger hcomputed.fees
  rw [FeeLedger.foreignTokens, FeeLedger.foreignTokens, hkeys, hcomputed.ofPair]
  exact ⟨rfl, rfl⟩

theorem IsEntry.exists_priced {holdings : Snapshot} (h : market.IsEntry start group holdings entry) :
    ∃ first last pricing hidden, market.Priced start group holdings entry first last pricing hidden := by
  obtain ⟨pricing, hpricing, hcalculate⟩ := h
  obtain ⟨pair, ledger, hpair, hledger, rfl⟩ := pricing_eq_ok_iff.1 hpricing
  obtain ⟨rfl, htokens⟩ := foreignTokens_of_calculate hpair hledger hcalculate
  obtain ⟨first, last, pair', hfirst, hlast, hpair', hrun⟩ := Performance.calculate_eq_ok_iff.1 hcalculate
  obtain rfl : pair' = entry.pair := Option.some.inj (hpair'.symm.trans hpair)
  obtain ⟨hidden, hcomputed⟩ := Performance.ofOrdered_eq_ok_iff.1 hrun
  refine ⟨first, last, _, hidden, hpair, hfirst, hlast, hcomputed, rfl, fun token htoken => ?_⟩
  rw [get?_feeRates, htokens, if_pos htoken]

end Market

end TradeReport
