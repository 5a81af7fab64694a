import TradeReport.Config
import TradeReport.Proofs.Decimal.Inverse
import TradeReport.Proofs.FirstFailure
import TradeReport.Proofs.LatestPrice
import TradeReport.Proofs.Newest
import TradeReport.Proofs.RecentTrades
import TradeReport.Proofs.Store.Calls
/-!
# Current prices

The current price of an entry comes from the first of three that know it: the rate of its pair in the configuration,
one over the rate of the reversed pair, and the newest fill of the symbol in the whole log. The rates of a configuration
that was checked are positive, so one over a rate can be computed. An entry has fills of its own, and the log has these
too, so the last of the three knows a price whenever the others do not (`exists_currentPrice`). No entry is left to the
price of the last fill in its window (`Market.currentPrice_resolved`).
-/

namespace TradeReport

variable {rates : Table String Decimal} {symbol : String} {pair : Pair} {price : Decimal} {fills : List Fill}
  {store : Store} {config : Config}

/-! ## Rates that were checked -/

theorem Config.demand_eq_ok_iff {holds : Bool} {error : ConfigError} :
    demand holds error = .ok () ↔ holds = true := by
  cases holds with
  | true => exact iff_of_true rfl rfl
  | false => exact iff_of_false nofun nofun

theorem Config.pos_of_check {rate : Decimal} (h : config.check = .ok ())
    (hrate : config.rates.get? symbol = some rate) : 0 < rate.toRat := by
  obtain ⟨_, -, h⟩ := bind_eq_ok.1 h
  obtain ⟨_, -, h⟩ := bind_eq_ok.1 h
  obtain ⟨_, hrates, -⟩ := bind_eq_ok.1 h
  have hentry := forM_eq_ok_iff.1 hrates _ (Table.mem_entries_iff.2 hrate)
  obtain ⟨_, -, hpositive⟩ := bind_eq_ok.1 hentry
  have hless : Decimal.zero < rate := of_decide_eq_true (demand_eq_ok_iff.1 hpositive)
  rwa [Decimal.lt_iff_toRat_lt, Decimal.toRat_zero] at hless

/-! ## The first that knows a price -/

def Pair.reversed (pair : Pair) : Pair :=
  ⟨pair.quote, pair.base⟩

/-- The current price of a pair: its own rate, else one over the rate of the reversed pair, else the price of the newest
of the fills that carry its symbol. -/
inductive IsCurrentPrice (rates : Table String Decimal) (fills : List Fill) (pair : Pair) : Decimal → Prop
  | own {rate : Decimal} (hrate : rates.get? pair.symbol = some rate) : IsCurrentPrice rates fills pair rate
  | inverse {rate inverse : Decimal} (hown : rates.get? pair.symbol = none)
      (hrate : rates.get? pair.reversed.symbol = some rate) (hdiv : Decimal.one.div rate = .ok inverse)
      (hrounded : IsRounded (1 / rate.toRat) inverse.toRat) : IsCurrentPrice rates fills pair inverse
  | newest {fill : Fill} (hown : rates.get? pair.symbol = none) (hreversed : rates.get? pair.reversed.symbol = none)
      (hnewest : IsNewest (·.time) (fills.filter (·.symbol = pair.symbol)) fill) :
      IsCurrentPrice rates fills pair fill.price

/-- The fills of each time decide. -/
theorem IsCurrentPrice.congr {fills' : List Fill} (h : IsCurrentPrice rates fills pair price)
    (hmoments : ∀ time : Int64, fills.filter (·.time = time) = fills'.filter (·.time = time)) :
    IsCurrentPrice rates fills' pair price := by
  cases h with
  | own hrate => exact .own hrate
  | inverse hown hrate hdiv hrounded => exact .inverse hown hrate hdiv hrounded
  | newest hown hreversed hnewest =>
    refine .newest hown hreversed ((isNewest_congr fun time => ?_).1 hnewest)
    rw [List.filter_comm, hmoments, List.filter_comm]

theorem Oracle.ofRates_of_some {rate : Decimal} (h : rates.get? symbol = some rate) :
    Oracle.ofRates rates symbol = some rate := by
  rw [Oracle.ofRates, h]

theorem Oracle.ofRates_of_none (hpair : Pair.ofSymbol? symbol = some pair) (hown : rates.get? symbol = .none) :
    Oracle.ofRates rates symbol = (rates.get? pair.reversed.symbol).bind Decimal.one.ratio? := by
  unfold Oracle.ofRates
  rw [hown, Pair.splitAtDash?_of_ofSymbol? hpair]
  rfl

/-- A symbol that some fill carries has a current price, and both oracles together tell it. -/
theorem exists_currentPrice (hpositive : ∀ symbol rate, rates.get? symbol = some rate → 0 < rate.toRat)
    (hpair : Pair.ofSymbol? symbol = some pair) (hfills : store.allTrades = .ok fills)
    (hsome : fills.filter (·.symbol = symbol) ≠ []) :
    ∃ price, ((Oracle.ofRates rates).orElse (Oracle.ofLastFill store.source)) symbol = some price ∧
      IsCurrentPrice rates fills pair price := by
  obtain rfl := Pair.symbol_of_ofSymbol? hpair
  cases hown : rates.get? pair.symbol with
  | some rate => exact ⟨rate, Oracle.orElse_of_some (Oracle.ofRates_of_some hown), .own hown⟩
  | none =>
    have hrates := Oracle.ofRates_of_none hpair hown
    cases hreversed : rates.get? pair.reversed.symbol with
    | some rate =>
      obtain ⟨inverse, hinverse, hdiv, hrounded⟩ := Decimal.exists_inverse (hpositive _ _ hreversed)
      rw [hreversed, Option.bind_some, hinverse] at hrates
      exact ⟨inverse, Oracle.orElse_of_some hrates, .inverse hown hreversed hdiv hrounded⟩
    | none =>
      rw [hreversed, Option.bind_none] at hrates
      have hascending := Store.ascending_of_allTrades hfills
      have hlast := List.getLast?_eq_some_getLast hsome
      have hread : store.source.allTrades = .ok fills := hfills
      have hknown := Oracle.ofLastFill_eq hread hascending hlast
      exact ⟨_, (Oracle.orElse_of_none hrates).trans hknown,
        .newest hown hreversed (isNewest_of_getLast (hascending.filter _) hlast)⟩

/-! ## The log -/

/-- The fills of a store in the order in which they were recorded: as its files have them, or as they were given to
calls that recorded them in a new store. The sign of a zero is not kept. -/
inductive Store.HasFills : Store → List Fill → Prop
  | read {store : Store} {fills : List Fill} (h : store.fillsRead = .ok fills) : HasFills store fills
  | calls {store : Store} (h : store.IsNew) (calls : List Call) :
      HasFills (store.makeCalls calls) ((Call.fills (store.succeeded calls)).map Fill.plain)

theorem Store.HasFills.filter_time {kept : List Fill} (h : store.HasFills kept) (hfills : store.allTrades = .ok fills)
    (time : Int64) : fills.filter (·.time = time) = kept.filter (·.time = time) := by
  cases h with
  | read hread =>
    rw [allTrades_eq, hread] at hfills
    obtain rfl := Except.ok.inj hfills
    exact filter_byTime kept time
  | calls hnew calls =>
    obtain ⟨_, hread, hchronicle⟩ := (hnew.tells calls).1.allTrades
    obtain rfl := Except.ok.inj (hfills.symm.trans hread)
    rw [hchronicle.moments, filter_time_plain]

namespace Market

variable {σ : Type} {market : Market σ} {scope : Option String} {start : ℤ} {before after : Elapsed σ}
  {report : WindowReport} {group : Listing × List Fill} {holdings : Snapshot} {entry : Performance}

/-! ## The entries of a report -/

/-- The log has the fills of a group. -/
theorem symbolFills_ne_nil {run : String} {since : List Fill} (hfills : store.allTrades = .ok fills)
    (hsince : store.tradesSince start (some run) none = .ok since) (hgroup : group ∈ (groupByListing since).entries) :
    fills.filter (·.symbol = group.1.symbol) ≠ [] := by
  rw [Store.tradesSince_none, hfills] at hsince
  obtain rfl := Except.ok.inj hsince
  obtain ⟨fill, hfill, hlisting⟩ := mem_keys_groupByListing.1 (List.mem_map.2 ⟨group, hgroup, rfl⟩)
  have hmem : fill ∈ fills := List.mem_of_mem_filter (List.mem_of_mem_filter hfill)
  exact List.ne_nil_of_mem (List.mem_filter.2 ⟨hmem, decide_eq_true (congrArg Listing.symbol hlisting)⟩)

/-- An entry was computed from a price that was looked up for it, not from that of the last fill in its stead. -/
def PriceLookedUp (market : Market σ) (start : ℤ) (entry : Performance) : Prop :=
  ∃ (group : Listing × List Fill) (holdings : Snapshot) (pricing : Pricing),
    market.pricing group.1.symbol group.2 = .ok pricing ∧
    Performance.calculate market.derivatives group.1 group.2 holdings (Int64.ofInt start) pricing = .ok entry ∧
    pricing.price = some entry.currentPrice

theorem IsEntry.priceLookedUp (h : market.IsEntry start group holdings entry)
    (hprice : market.oracle group.1.symbol = some price) :
    entry.currentPrice = price ∧ market.PriceLookedUp start entry := by
  obtain ⟨pricing, hpricing, hcalculate⟩ := h
  obtain ⟨_, _, -, -, hlooked⟩ := pricing_eq_ok_iff.1 hpricing
  have hknown : pricing.price = some price := by rw [hlooked, hprice]
  obtain ⟨_, _, _, -, -, -, hrun⟩ := Performance.calculate_eq_ok_iff.1 hcalculate
  obtain ⟨_, hcomputed⟩ := Performance.ofOrdered_eq_ok_iff.1 hrun
  obtain rfl : entry.currentPrice = price := by rw [hcomputed.currentPrice, hknown, Option.getD_some]
  exact ⟨rfl, group, holdings, pricing, hpricing, hcalculate, hknown⟩

/-- Whatever the log holds, each entry has the price of the first that knows one. -/
theorem currentPrice_resolved (hcheck : config.check = .ok ()) (hsource : market.source = store.source)
    (horacle : market.oracle = (Oracle.ofRates config.rates).orElse (Oracle.ofLastFill store.source))
    (hreport : (market.windowReport scope start).Gives before report after) :
    (∃ read, store.HasFills read) ∧ ∀ kept, store.HasFills kept → ∀ entry ∈ report.markets,
      IsCurrentPrice config.rates kept entry.pair entry.currentPrice ∧ market.PriceLookedUp start entry := by
  cases scope with
  | none => exact absurd hreport Reporting.not_gives_fail
  | some run =>
    obtain ⟨since, hsince, -, hentries⟩ := exists_entries hreport
    rw [hsource] at hsince
    have hsince : store.tradesSince start (some run) none = .ok since := hsince
    obtain ⟨fills, hfills, -⟩ := map_eq_ok.1 (Store.tradesSince_none ▸ hsince)
    obtain ⟨read, hread, -⟩ := map_eq_ok.1 (store.allTrades_eq ▸ hfills)
    refine ⟨⟨read, .read hread⟩, fun kept hkept entry hentry => ?_⟩
    obtain ⟨group, hgroup, _, holdings, _, -, hresolved⟩ := exists_of_forall₂ hentries hentry
    obtain ⟨_, _, _, _, hpriced⟩ := hresolved.exists_priced
    obtain ⟨price, hprice, hcurrent⟩ := exists_currentPrice (fun _ _ => config.pos_of_check hcheck) hpriced.pair hfills
      (symbolFills_ne_nil hfills hsince hgroup)
    obtain ⟨rfl, hlookedUp⟩ := hresolved.priceLookedUp (horacle ▸ hprice)
    exact ⟨hcurrent.congr (hkept.filter_time hfills), hlookedUp⟩

theorem currentPrice_resolved_tied :
    ∃ report entry read, (tiedMarket.windowReport (some "run") 0).Gives ⟨(), 0⟩ report ⟨(), 0⟩ ∧
      report.markets = [entry] ∧ tiedStore.HasFills read ∧
      IsCurrentPrice Table.empty read entry.pair (tiedFill "100").price := by
  obtain ⟨report, entry, hreport, hmarkets, hprice⟩ := exists_windowReport_tied
  have hcheck : ({ name := "bot" } : Config).check = .ok () := by decide +kernel
  obtain ⟨⟨read, hread⟩, hall⟩ := currentPrice_resolved hcheck rfl rfl hreport
  obtain ⟨hcurrent, -⟩ := hall read hread entry (hmarkets ▸ List.mem_singleton_self entry)
  rw [hprice] at hcurrent
  exact ⟨report, entry, read, hreport, hmarkets, hread, hcurrent⟩

end Market

end TradeReport
