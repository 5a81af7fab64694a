import TradeReport.Instance
import TradeReport.Proofs.Overflow
import TradeReport.Proofs.Pricing
import TradeReport.Proofs.RecentTrades
import TradeReport.Proofs.Rows
import TradeReport.Proofs.Store.Runs
/-!
# Runs kept apart

What is reported on a run comes from the records of that run, with two exceptions. The price of a pair without a fixed
rate is that of its latest fill by any run, and so is the rate of a fee token. Recorded balances are those of the run
that the configuration names, which need not be the run of the report. Two instances with the same records of a run
report the same on it but for these (`Instance.reportsAlike`).
-/

namespace TradeReport

/-! ## Entries of the same fills -/

namespace Performance

/-- What two entries say of the fills themselves is the same. -/
structure SameTrading (p p' : Performance) : Prop where
  market : p.market = p'.market
  pair : p.pair = p'.pair
  isDerivative : p.isDerivative = p'.isDerivative
  windowStart : p.windowStart = p'.windowStart
  turnover : p.turnover = p'.turnover
  netBase : p.netBase = p'.netBase
  netQuote : p.netQuote = p'.netQuote
  averagePrice : p.averagePrice = p'.averagePrice
  startPrice : p.startPrice = p'.startPrice
  fees : p.fees = p'.fees

/-- What two entries say of the holdings, but for their value at the current price. -/
structure SameBalances (p p' : Performance) : Prop where
  startBase : p.startBase = p'.startBase
  startQuote : p.startQuote = p'.startQuote
  currentBase : p.currentBase = p'.currentBase
  currentQuote : p.currentQuote = p'.currentQuote
  startBaseRatio : p.startBaseRatio = p'.startBaseRatio

/-- The pair of an entry and the tokens of its fees have rates that no fill changes. -/
structure HasFixedRates (rates : Table String Decimal) (p : Performance) : Prop where
  price : Oracle.ofRates rates p.pair.symbol ≠ none
  fees : ∀ token ∈ p.fees.foreignTokens p.pair, Oracle.ofRates rates (p.pair.rateSymbol token) ≠ none

end Performance

namespace Market

open Performance

variable {σ σ' : Type} {market : Market σ} {market' : Market σ'} {start : ℤ} {group : Listing × List Fill}
  {holdings holdings' : Snapshot} {entry entry' : Performance}

section Entries

variable (hderivatives : market.derivatives = market'.derivatives)
include hderivatives

/-- The holdings and the prices have no part in these figures. -/
theorem IsEntry.sameTrading (h : market.IsEntry start group holdings entry)
    (h' : market'.IsEntry start group holdings' entry') : entry.SameTrading entry' := by
  obtain ⟨first, last, pricing, hidden, hpriced⟩ := h.exists_priced
  obtain ⟨first', last', pricing', hidden', hpriced'⟩ := h'.exists_priced
  obtain rfl : first = first' := Option.some.inj (hpriced.isFirst.symm.trans hpriced'.isFirst)
  have hcomputed := hpriced.computed
  have hcomputed' := hpriced'.computed
  have hpair : entry.pair = entry'.pair := Option.some.inj (hpriced.pair.symm.trans hpriced'.pair)
  have hturnover : entry.turnover = entry'.turnover := Agree.refl _ _ _ hcomputed.turnover hcomputed'.turnover
  refine ⟨hcomputed.ofMarket.trans hcomputed'.ofMarket.symm, hpair, ?_,
    hcomputed.ofWindow.trans hcomputed'.ofWindow.symm, hturnover, ?_, ?_, ?_,
    hcomputed.startPrice.trans hcomputed'.startPrice.symm, ?_⟩
  · rw [hcomputed.isDerivative, hcomputed'.isDerivative, hderivatives]
  · exact Agree.refl _ _ _ hcomputed.netBase (hturnover ▸ hcomputed'.netBase)
  · exact Agree.refl _ _ _ hcomputed.netQuote (hturnover ▸ hcomputed'.netQuote)
  · rw [hcomputed.averagePrice, hcomputed'.averagePrice, hturnover]
  · exact Agree.refl _ _ _ hcomputed.fees (hpair ▸ hcomputed'.fees)

theorem IsEntry.sameBalances (h : market.IsEntry start group holdings entry)
    (h' : market'.IsEntry start group holdings entry') : entry.SameBalances entry' := by
  obtain ⟨hmarket, hpair, hderivative, -, -, hnetBase, hnetQuote, -, hstartPrice, -⟩ := h.sameTrading hderivatives h'
  obtain ⟨first, last, pricing, hidden, hpriced⟩ := h.exists_priced
  obtain ⟨first', last', pricing', hidden', hpriced'⟩ := h'.exists_priced
  have hcomputed := hpriced.computed
  have hcomputed' := hpriced'.computed
  rw [← hpair] at hcomputed'
  have hcurrentQuote : entry.currentQuote = entry'.currentQuote :=
    hcomputed.currentQuote.trans hcomputed'.currentQuote.symm
  have hstartBase : hidden.startBase = hidden'.startBase :=
    Agree.refl _ _ _ hcomputed.hiddenStartBase (hnetBase ▸ hcomputed'.hiddenStartBase)
  have hstartQuote : entry.startQuote = entry'.startQuote :=
    Agree.refl _ _ _ hcomputed.startQuote (by rw [hcurrentQuote, hnetQuote]; exact hcomputed'.startQuote)
  have hratio : hidden.startBaseRatio = hidden'.startBaseRatio :=
    Agree.refl _ _ _ hcomputed.hiddenStartRatio
      (by rw [hstartBase, hstartQuote, hstartPrice]; exact hcomputed'.hiddenStartRatio)
  refine ⟨?_, hstartQuote, ?_, hcurrentQuote, ?_⟩
  · rw [hcomputed.startBase, hcomputed'.startBase, hderivative, hstartBase]
  · rw [hcomputed.currentBase, hcomputed'.currentBase, hderivative]
  · rw [hcomputed.startBaseRatio, hcomputed'.startBaseRatio, hderivative, hratio]

theorem IsEntry.eq_of_prices (h : market.IsEntry start group holdings entry)
    (h' : market'.IsEntry start group holdings entry')
    (hprice : market.oracle entry.pair.symbol = market'.oracle entry.pair.symbol)
    (hrates : ∀ token ∈ entry.fees.foreignTokens entry.pair,
      market.oracle (entry.pair.rateSymbol token) = market'.oracle (entry.pair.rateSymbol token)) :
    entry = entry' := by
  obtain ⟨pricing, hpricing, hcalculate⟩ := h
  obtain ⟨pricing', hpricing', hcalculate'⟩ := h'
  obtain ⟨pair, ledger, hpair, hledger, rfl⟩ := pricing_eq_ok_iff.1 hpricing
  obtain ⟨pair', ledger', hpair', hledger', rfl⟩ := pricing_eq_ok_iff.1 hpricing'
  obtain rfl : pair = pair' := Option.some.inj (hpair.symm.trans hpair')
  obtain rfl : ledger = ledger' := Agree.refl _ _ _ hledger hledger'
  obtain ⟨rfl, htokens⟩ := foreignTokens_of_calculate hpair hledger hcalculate
  rw [Pair.symbol_of_ofSymbol? hpair] at hprice
  rw [← htokens] at hrates
  rw [hderivatives, hprice, feeRates_congr hrates] at hcalculate
  exact Agree.refl _ _ _ hcalculate hcalculate'

end Entries

/-- What is fetched is what the source of balances answered in time. -/
theorem gives_fetch_iff {name : String} {before after : Elapsed σ} {reply : BalanceReply} {state : σ}
    (hreply : (market.balances name).run before.state = (reply, state)) :
    (market.fetch name).Gives before holdings after ↔
      reply.delay ≤ market.timeout ∧ reply.outcome = .ok holdings ∧
        ⟨state, before.clock + min reply.delay market.timeout⟩ = after := by
  rw [Reporting.Gives, runFrom_fetch hreply, received]
  split
  · rename_i hlate
    refine iff_of_false (fun h => ?_) fun h => absurd h.1 (not_le.2 hlate)
    cases h
  · rename_i hinTime
    cases reply.outcome with
    | error cause =>
      constructor
      · intro h
        cases h
      · intro h
        cases h.2.1
    | ok answered =>
      have hrun : (pure answered : Reporting σ Snapshot).Gives
          ⟨state, before.clock + min reply.delay market.timeout⟩ holdings after ↔ _ := Reporting.gives_pure_iff
      rw [Except.ok.injEq]
      exact hrun.trans (and_iff_right (not_lt.1 hinTime)).symm

end Market

/-! ## Two instances -/

namespace Instance

variable {a b : Instance} {run : String}

/-- What is held on a market, as reports of an instance are told. -/
def holdingsOn (self : Instance) (name : String) : Except Fault Snapshot :=
  match self.config.report.balanceOrigin with
  | .paper => .ok self.config.paperBalances
  | .recorded => BalanceSource.recordedHoldings self.store (self.config.report.activeStrategy.getD "") name

theorem gives_fetch_iff {now : ℤ} {name : String} {before after : Elapsed Unit} {holdings : Snapshot} :
    ((a.market now).fetch name).Gives before holdings after ↔ a.holdingsOn name = .ok holdings ∧ before = after := by
  have hreply : ((a.market now).balances name).run before.state = (⟨0, a.holdingsOn name⟩, before.state) := by
    show (a.balances name).run before.state = _
    unfold balances holdingsOn
    cases a.config.report.balanceOrigin <;> rfl
  rw [Market.gives_fetch_iff hreply, Nat.zero_min, Nat.add_zero]
  exact and_iff_right (Nat.zero_le _)

/-- Balances are fixed ones, or they are those of a run that both stores have the same records of. -/
def SameHoldings (a b : Instance) : Prop :=
  a.config.report.balanceOrigin = .recorded →
    SameRun (a.config.report.activeStrategy.getD "") a.store b.store

section Configuration

variable (hconfig : a.config = b.config)
include hconfig

theorem SameHoldings.holdingsOn (h : a.SameHoldings b) (name : String) :
    Agree (a.holdingsOn name) (b.holdingsOn name) := by
  unfold Instance.holdingsOn
  rw [← hconfig]
  cases horigin : a.config.report.balanceOrigin with
  | paper => exact .refl _
  | recorded => exact (h horigin).recordedHoldings name

/-- A fixed rate comes before any that is found in the log. -/
theorem oracle_eq_of_fixed {symbol : String} (h : Oracle.ofRates a.config.rates symbol ≠ none) :
    a.oracle symbol = b.oracle symbol := by
  obtain ⟨rate, hrate⟩ := Option.ne_none_iff_exists'.1 h
  have hrate' : Oracle.ofRates b.config.rates symbol = some rate := hconfig ▸ hrate
  rw [oracle, oracle, Oracle.orElse_of_some hrate, Oracle.orElse_of_some hrate']

end Configuration

/-! ## What is reported on a run -/

section Reports

variable {start now now' : ℤ} {before before' after after' : Elapsed Unit}

theorem forall₂_entries {report report' : WindowReport} (hconfig : a.config = b.config)
    (hrun : SameRun run a.store b.store)
    (hreport : ((a.market now).windowReport (some run) start).Gives before report after)
    (hreport' : ((b.market now').windowReport (some run) start).Gives before' report' after') :
    List.Forall₂ (fun entry entry' => entry.SameTrading entry' ∧ (a.SameHoldings b →
      entry.SameBalances entry' ∧ (entry.HasFixedRates a.config.rates → entry = entry')))
      report.markets report'.markets := by
  have hderivatives : (a.market now).derivatives = (b.market now').derivatives :=
    congrArg (fun config => config.report.derivatives) hconfig
  obtain ⟨fills, hfills, -, hentries⟩ := Market.exists_entries hreport
  obtain ⟨fills', hfills', -, hentries'⟩ := Market.exists_entries hreport'
  obtain rfl : fills = fills' := hrun.tradesSince start none _ _ hfills hfills'
  refine (forall₂_of_common hentries hentries').imp fun entry entry' hboth => ?_
  obtain ⟨group, ⟨_, holdings, _, hfetch, hentry⟩, ⟨_, holdings', _, hfetch', hentry'⟩⟩ := hboth
  refine ⟨hentry.sameTrading hderivatives hentry', fun hsame => ?_⟩
  obtain rfl : holdings = holdings' :=
    hsame.holdingsOn hconfig _ _ _ (gives_fetch_iff.1 hfetch).1 (gives_fetch_iff.1 hfetch').1
  refine ⟨hentry.sameBalances hderivatives hentry', fun hfixed => ?_⟩
  exact hentry.eq_of_prices hderivatives hentry' (oracle_eq_of_fixed hconfig hfixed.price)
    fun token htoken => oracle_eq_of_fixed hconfig (hfixed.fees token htoken)

private theorem recentTrades_eq {recent recent' : RecentTrades} {maxRows : ℕ} (hrun : SameRun run a.store b.store)
    (hrecent : ((a.market now).recentTrades (some run) start maxRows).Gives before recent after)
    (hrecent' : ((b.market now').recentTrades (some run) start maxRows).Gives before' recent' after') :
    recent = recent' := by
  obtain ⟨fills, hfills, rfl, -⟩ := Market.gives_recentTrades_iff.1 hrecent
  obtain ⟨fills', hfills', rfl, -⟩ := Market.gives_recentTrades_iff.1 hrecent'
  rw [hrun.tradesSince start (some (min (maxRows + 1) Market.mostRows)) _ _ hfills hfills']

private theorem filter_rows_eq {window window' : Window} {full full' : AggregatedReport}
    (hrun : SameRun run a.store b.store)
    (hfull : FullReport.compute a.store.source window = .ok (.aggregated full))
    (hfull' : FullReport.compute b.store.source window' = .ok (.aggregated full')) :
    full.rows.filter (·.strategy = run) = full'.rows.filter (·.strategy = run) := by
  obtain ⟨all, hall, hrows⟩ := FullReport.rows_of_aggregated hfull
  obtain ⟨all', hall', hrows'⟩ := FullReport.rows_of_aggregated hfull'
  have hown : all.filter (·.strategy = run) = all'.filter (·.strategy = run) :=
    hrun.filter_allTrades _ _ (map_eq_ok.2 ⟨all, hall, rfl⟩) (map_eq_ok.2 ⟨all', hall', rfl⟩)
  refine FullReport.filter_rows_congr hrows hrows' ?_ hrun.balanceBounds
  have hkept := congrArg (List.filter Fill.isResolvable) hown
  rw [List.filter_comm, List.filter_comm (l := all')] at hkept
  exact hkept

end Reports

/-- Two instances report the same on a run, but for what they are told of prices and of holdings. -/
structure ReportsAlike (run : String) (a b : Instance) : Prop where
  entries : ∀ {start now now' : ℤ} {before before' after after' : Elapsed Unit} {report report' : WindowReport},
    ((a.market now).windowReport (some run) start).Gives before report after →
    ((b.market now').windowReport (some run) start).Gives before' report' after' →
    List.Forall₂ (fun entry entry' => entry.SameTrading entry' ∧ (a.SameHoldings b →
      entry.SameBalances entry' ∧ (entry.HasFixedRates a.config.rates → entry = entry')))
      report.markets report'.markets
  recentTrades : ∀ {start now now' : ℤ} {maxRows : ℕ} {before before' after after' : Elapsed Unit}
    {recent recent' : RecentTrades},
    ((a.market now).recentTrades (some run) start maxRows).Gives before recent after →
    ((b.market now').recentTrades (some run) start maxRows).Gives before' recent' after' → recent = recent'
  rows : ∀ {window window' : Window} {full full' : AggregatedReport},
    FullReport.compute a.store.source window = .ok (.aggregated full) →
    FullReport.compute b.store.source window' = .ok (.aggregated full') →
    full.rows.filter (·.strategy = run) = full'.rows.filter (·.strategy = run)

/-- What is reported on a run does not depend on the records of others, but for prices without a fixed rate and for
balances that are recorded of another run. -/
theorem reportsAlike (hconfig : a.config = b.config) (hrun : SameRun run a.store b.store) : ReportsAlike run a b :=
  ⟨forall₂_entries hconfig hrun, recentTrades_eq hrun, filter_rows_eq hrun⟩

def storeOf (fills : List Fill) (balances : List RecordedBalance) : Store :=
  { disk := ⟨Table.ofList [
      (["data", "trades", "1970-01-01.jsonl"], .file (.text (Store.dayText fills))),
      (["data", "balances", "balance_log.jsonl"],
        .file (.text (balances.flatMap fun balance => (Log.entry balance.toLine).toList)))]⟩
    home := "data" }

def purchaseBy (run : String) : Fill :=
  ⟨"venue", "A-B", run, .buy, .hundred, .one, .free, 1000, none, none⟩

def unitOf (run : String) : RecordedBalance :=
  ⟨run, .one, .zero, 1⟩

/-- A configuration with balances that are fixed or recorded of another run. -/
def configOf (origin : BalanceOrigin) : Config :=
  { name := "bot"
    report := { activeStrategy := some "other", balanceOrigin := origin }
    rates := Table.ofList [("A-B", .hundred)] }

def aloneStore : Store :=
  storeOf [purchaseBy "run"] []

def sharedStore : Store :=
  storeOf [purchaseBy "run", purchaseBy "other"] [unitOf "other"]

private theorem plain_purchaseBy (run : String) : (purchaseBy run).plain = purchaseBy run := by
  have hprice : Decimal.hundred.plain = .hundred := by decide
  have hamount : Decimal.one.plain = .one := by decide
  rw [Fill.plain, purchaseBy, hprice, hamount]
  rfl

private theorem fillsReadOf_aloneStore (run : String) :
    aloneStore.fillsReadOf run = .ok ([purchaseBy "run"].filter (·.strategy = run)) := by
  have hnames : aloneStore.logNames aloneStore.tradesFolder = .ok ["1970-01-01.jsonl"] := by decide
  have hread : aloneStore.disk.read (Store.joinPath aloneStore.tradesFolder "1970-01-01.jsonl")
      = .ok (Store.dayText [purchaseBy "run"]) := by
    rfl
  rw [Store.fillsReadOf_of_day hnames hread, List.map_singleton, plain_purchaseBy]

private theorem fillsReadOf_sharedStore (run : String) :
    sharedStore.fillsReadOf run = .ok ([purchaseBy "run", purchaseBy "other"].filter (·.strategy = run)) := by
  have hnames : sharedStore.logNames sharedStore.tradesFolder = .ok ["1970-01-01.jsonl"] := by decide
  have hread : sharedStore.disk.read (Store.joinPath sharedStore.tradesFolder "1970-01-01.jsonl")
      = .ok (Store.dayText [purchaseBy "run", purchaseBy "other"]) := by
    rfl
  rw [Store.fillsReadOf_of_day hnames hread, List.map_cons, List.map_singleton, plain_purchaseBy, plain_purchaseBy]

private theorem balancesReadOf_sharedStore (run : String) :
    sharedStore.balancesReadOf run = .ok ([unitOf "other"].filter (·.strategy = run)) := by
  have hread : sharedStore.disk.read sharedStore.balanceLog
      = .ok ([unitOf "other"].flatMap fun balance => (Log.entry balance.toLine).toList) := by
    rfl
  have hplain : [unitOf "other"].map RecordedBalance.plain = [unitOf "other"] := by decide
  rw [Store.balancesReadOf_of_text hread, hplain]

private theorem sameRun_stores : SameRun "run" aloneStore sharedStore := by
  have hbalances : aloneStore.balancesReadOf "run" = .ok [] := by decide
  constructor
  · rw [fillsReadOf_aloneStore, fillsReadOf_sharedStore]
    exact .refl _
  · rw [hbalances, balancesReadOf_sharedStore]
    exact .refl _

/-- The recorded run has no fills in the first store, and holds one unit in the second. -/
theorem holdingsOn_aloneStore :
    (Instance.mk (configOf .recorded) aloneStore).holdingsOn "venue" = .ok Table.empty := by
  have hsince := Store.tradesSince_of_read (fillsReadOf_aloneStore "other") 0 none
  have hnone : Store.since 0 none (Store.byTime ([purchaseBy "run"].filter (·.strategy = "other"))) = [] := by
    decide +kernel
  rw [hnone] at hsince
  exact bind_eq_ok.2 ⟨_, hsince, rfl⟩

private theorem holdingsOn_sharedStore :
    (Instance.mk (configOf .recorded) sharedStore).holdingsOn "venue"
      = .ok (Table.ofList [("A", .one), ("B", .zero)]) := by
  have hsince := Store.tradesSince_of_read (fillsReadOf_sharedStore "other") 0 none
  have hlatest := Store.latestBalance_of_read (balancesReadOf_sharedStore "other")
  have hown : Store.since 0 none (Store.byTime
      ([purchaseBy "run", purchaseBy "other"].filter (·.strategy = "other"))) = [purchaseBy "other"] := by
    decide +kernel
  rw [hown] at hsince
  have hfill : latestFill? ([purchaseBy "other"].filter (·.market == "venue")) = some (purchaseBy "other") := by
    decide
  have hpair : Pair.ofSymbol? (purchaseBy "other").symbol = some ⟨"A", "B"⟩ := by decide
  have hunit : (([unitOf "other"].filter (·.strategy = "other")).mergeSort
      fun a b => decide (a.time.toInt ≤ b.time.toInt)).getLast? = some (unitOf "other") := by
    decide +kernel
  rw [hunit] at hlatest
  refine bind_eq_ok.2 ⟨_, hsince, ?_⟩
  simp only [hfill]
  exact bind_eq_ok.2 ⟨_, mapError_eq_ok.2 (Pair.ofSymbol_of_some hpair), bind_eq_ok.2 ⟨_, hlatest, rfl⟩⟩

section Purchase

variable {origin : BalanceOrigin} {store : Store} {holdings : Snapshot}

private theorem oracle_configOf (origin : BalanceOrigin) (store : Store) :
    (Instance.mk (configOf origin) store).oracle "A-B" = some .hundred := by
  have hrate : Oracle.ofRates (Table.ofList [("A-B", .hundred)]) "A-B" = some .hundred := by decide
  exact Oracle.orElse_of_some hrate

/-- A report on the run, whatever else its store holds. -/
theorem exists_windowReport_of_purchase (hread : store.fillsReadOf "run" = .ok [purchaseBy "run"])
    (hheld : (Instance.mk (configOf origin) store).holdingsOn "venue" = .ok holdings)
    (hcomputed : (Performance.ofOrdered (configOf origin).report.derivatives "venue" ⟨"A", "B"⟩ (purchaseBy "run")
      (purchaseBy "run") [purchaseBy "run"] holdings 0 ⟨some .hundred, Table.empty⟩ >>= fun entry =>
        WindowReport.ofMarkets ⟨0, 2000⟩ [entry]).map (fun _ => ()) = .ok ()) :
    ∃ report entry, (((Instance.mk (configOf origin) store).market 2000).windowReport (some "run") 0).Gives
        ⟨(), 0⟩ report ⟨(), 0⟩ ∧ report.markets = [entry] ∧ entry.currentBase = some (holdings.held "A") ∧
      entry.HasFixedRates (configOf origin).rates := by
  have hsince : ((Instance.mk (configOf origin) store).market 2000).source.tradesSince 0 (some "run") none
      = .ok [purchaseBy "run"] := by
    have hown : Store.since 0 none (Store.byTime [purchaseBy "run"]) = [purchaseBy "run"] := by decide +kernel
    rw [← hown]
    exact Store.tradesSince_of_read hread 0 none
  have hgroups : (groupByListing [purchaseBy "run"]).entries = [(⟨"venue", "A-B"⟩, [purchaseBy "run"])] := by
    decide
  have hordered : chronological [purchaseBy "run"] = [purchaseBy "run"] := List.mergeSort_singleton _
  have hpair : Pair.ofSymbol? "A-B" = some ⟨"A", "B"⟩ := by decide
  have hpricing : ((Instance.mk (configOf origin) store).market 2000).pricing "A-B" [purchaseBy "run"]
      = .ok ⟨some .hundred, Table.empty⟩ := by
    refine Market.pricing_eq_ok_iff.2 ⟨⟨"A", "B"⟩, Table.empty, hpair, rfl, ?_⟩
    rw [← oracle_configOf origin store]
    rfl
  obtain ⟨report, entry, hidden, hgives, hmarkets, hfigures⟩ := Market.exists_windowReport_of_figures hsince hgroups
    (gives_fetch_iff.2 ⟨hheld, rfl⟩) hpricing hordered rfl rfl hpair hcomputed
  have hderivative : entry.isDerivative = false := by
    have hspot : ReportSettings.usual.derivatives.contains "venue" = false := by decide
    exact hfigures.isDerivative.trans hspot
  have hfees : entry.fees = Table.empty := (Except.ok.inj hfigures.fees).symm
  refine ⟨report, entry, hgives, hmarkets, ?_, ?_, ?_⟩
  · rw [hfigures.currentBase, hderivative]
    rfl
  · have hrate : Oracle.ofRates (Table.ofList [("A-B", .hundred)]) (Pair.symbol ⟨"A", "B"⟩) ≠ none := by decide
    rw [hfigures.ofPair]
    exact hrate
  · rw [hfees]
    exact fun _ htoken => nomatch htoken

theorem reportsAlike_stores :
    SameRun "run" aloneStore sharedStore ∧ ∃ report report',
      (((Instance.mk (configOf .paper) aloneStore).market 2000).windowReport (some "run") 0).Gives
        ⟨(), 0⟩ report ⟨(), 0⟩ ∧
      (((Instance.mk (configOf .paper) sharedStore).market 2000).windowReport (some "run") 0).Gives
        ⟨(), 0⟩ report' ⟨(), 0⟩ ∧ report.markets ≠ [] ∧ report.markets = report'.markets := by
  have hcomputed : (Performance.ofOrdered (configOf .paper).report.derivatives "venue" ⟨"A", "B"⟩ (purchaseBy "run")
      (purchaseBy "run") [purchaseBy "run"] Table.empty 0 ⟨some .hundred, Table.empty⟩ >>= fun entry =>
        WindowReport.ofMarkets ⟨0, 2000⟩ [entry]).map (fun _ => ()) = .ok () := by
    decide +kernel
  obtain ⟨report, entry, hgives, hmarkets, -, hfixed⟩ :=
    exists_windowReport_of_purchase (fillsReadOf_aloneStore "run") rfl hcomputed
  obtain ⟨report', entry', hgives', hmarkets', -, -⟩ :=
    exists_windowReport_of_purchase (fillsReadOf_sharedStore "run") rfl hcomputed
  have halike : ReportsAlike "run" ⟨configOf .paper, aloneStore⟩ ⟨configOf .paper, sharedStore⟩ :=
    reportsAlike rfl sameRun_stores
  have hentries := halike.entries hgives hgives'
  rw [hmarkets, hmarkets'] at hentries
  obtain ⟨-, hsame⟩ := (List.forall₂_cons.1 hentries).1
  refine ⟨sameRun_stores, report, report', hgives, hgives', ?_, ?_⟩
  · rw [hmarkets]
    exact List.cons_ne_nil entry []
  · rw [hmarkets, hmarkets', (hsame nofun).2 hfixed]

/-- Balances that are recorded of another run change with it. -/
theorem not_reportsAlike_recorded :
    ¬∀ (a b : Instance) (run : String) (start now now' : ℤ) (before before' after after' : Elapsed Unit)
      (report report' : WindowReport), a.config = b.config → SameRun run a.store b.store →
      ((a.market now).windowReport (some run) start).Gives before report after →
      ((b.market now').windowReport (some run) start).Gives before' report' after' →
      List.Forall₂ (fun entry entry' => entry.SameTrading entry' ∧ entry.SameBalances entry' ∧
        (entry.HasFixedRates a.config.rates → entry = entry')) report.markets report'.markets := by
  intro h
  obtain ⟨report, entry, hgives, hmarkets, hbase, -⟩ := exists_windowReport_of_purchase
    (fillsReadOf_aloneStore "run") holdingsOn_aloneStore (by decide +kernel)
  obtain ⟨report', entry', hgives', hmarkets', hbase', -⟩ := exists_windowReport_of_purchase
    (fillsReadOf_sharedStore "run") holdingsOn_sharedStore (by decide +kernel)
  have hentries := h ⟨configOf .recorded, aloneStore⟩ ⟨configOf .recorded, sharedStore⟩ "run" 0 2000 2000 _ _ _ _
    report report' rfl sameRun_stores hgives hgives'
  rw [hmarkets, hmarkets'] at hentries
  have hsame := (List.forall₂_cons.1 hentries).1.2.1.currentBase
  rw [hbase, hbase'] at hsame
  exact absurd hsame (by decide)

end Purchase

end Instance

end TradeReport
