import TradeReport.Proofs.Portfolio
import TradeReport.Proofs.Pricing
import TradeReport.Proofs.Store.Recording
/-!
# Symbols and the pairs they name

A symbol names a pair when it has one dash with text on both sides. Reading and writing pairs are then inverse to each
other (`Pair.ofSymbol?_eq_some_iff`), and a symbol that names no pair is in the error of whoever reads it. A group of
fills is known by its symbol and its entry by the symbol that is written for its pair. Both are the same text, so the
order of the groups is the order in which a report lists the entries (`symbols_readExactly`).
-/

namespace TradeReport

/-- A token that can stand in a pair: some text without a dash. -/
structure IsToken (token : Token) : Prop where
  nonempty : token ≠ ""
  noDash : '-' ∉ token.toList

/-- A symbol that names a pair: it has one dash, which is neither its first character nor its last. -/
structure NamesPair (symbol : String) : Prop where
  oneDash : symbol.toList.count '-' = 1
  notFirst : symbol.toList.head? ≠ some '-'
  notLast : symbol.toList.getLast? ≠ some '-'

namespace Pair

variable {symbol : String} {pair : Pair}

theorem toList_symbol (pair : Pair) : pair.symbol.toList = pair.base.toList ++ '-' :: pair.quote.toList := by
  rw [symbol, String.toList_append, String.toList_append, List.append_assoc]
  rfl

/-- A symbol is read as the pair of tokens that it is written from. -/
theorem ofSymbol?_eq_some_iff :
    ofSymbol? symbol = some pair ↔ IsToken pair.base ∧ IsToken pair.quote ∧ pair.symbol = symbol := by
  rw [ofSymbol?_eq_some_iff_split, splitAtDash?_eq_some_iff]
  constructor
  · intro h
    obtain ⟨⟨hplain, hsymbol⟩, hbase, hquote, hdash⟩ := h
    exact ⟨⟨hbase, hplain⟩, ⟨hquote, hdash⟩, hsymbol⟩
  · intro h
    obtain ⟨hbase, hquote, hsymbol⟩ := h
    exact ⟨⟨hbase.noDash, hsymbol⟩, hbase.nonempty, hquote.nonempty, hquote.noDash⟩

private theorem namesPair_symbol (hbase : IsToken pair.base) (hquote : IsToken pair.quote) : NamesPair pair.symbol := by
  have hfront : pair.base.toList ≠ [] := by simpa using hbase.nonempty
  have hback : pair.quote.toList ≠ [] := by simpa using hquote.nonempty
  refine ⟨?_, fun hfirst => ?_, fun hlast => ?_⟩
  · rw [toList_symbol, List.count_append, List.count_cons_self, List.count_eq_zero.2 hbase.noDash,
      List.count_eq_zero.2 hquote.noDash]
  · rw [toList_symbol, List.head?_append_of_ne_nil _ hfront] at hfirst
    exact hbase.noDash (List.mem_of_head? hfirst)
  · rw [toList_symbol, List.append_cons, List.getLast?_append_of_ne_nil _ hback] at hlast
    exact hquote.noDash (List.mem_of_getLast? hlast)

private theorem exists_pair_of_namesPair (h : NamesPair symbol) :
    ∃ pair : Pair, IsToken pair.base ∧ IsToken pair.quote ∧ pair.symbol = symbol := by
  obtain ⟨front, back, hsplit⟩ := List.append_of_mem (List.count_pos_iff.1 (h.oneDash ▸ Nat.one_pos))
  have hcount := h.oneDash
  rw [hsplit, List.count_append, List.count_cons_self] at hcount
  have hfront : front ≠ [] := by
    rintro rfl
    exact h.notFirst (by rw [hsplit]; rfl)
  have hback : back ≠ [] := by
    rintro rfl
    exact h.notLast (by rw [hsplit, List.getLast?_concat])
  refine ⟨⟨String.ofList front, String.ofList back⟩, ⟨?_, ?_⟩, ⟨?_, ?_⟩, ?_⟩
  · simpa using hfront
  · rw [String.toList_ofList]
    exact List.count_eq_zero.1 (by omega)
  · simpa using hback
  · rw [String.toList_ofList]
    exact List.count_eq_zero.1 (by omega)
  · rw [← String.toList_inj, toList_symbol, hsplit, String.toList_ofList, String.toList_ofList]

/-- A symbol is read exactly when it names a pair. -/
theorem exists_ofSymbol?_iff : (∃ pair, ofSymbol? symbol = some pair) ↔ NamesPair symbol := by
  constructor
  · intro h
    obtain ⟨pair, hpair⟩ := h
    obtain ⟨hbase, hquote, rfl⟩ := ofSymbol?_eq_some_iff.1 hpair
    exact namesPair_symbol hbase hquote
  · intro h
    obtain ⟨pair, hpair⟩ := exists_pair_of_namesPair h
    exact ⟨pair, ofSymbol?_eq_some_iff.2 hpair⟩

theorem ofSymbol?_eq_none_iff : ofSymbol? symbol = none ↔ ¬NamesPair symbol := by
  rw [← exists_ofSymbol?_iff, ← Option.ne_none_iff_exists', not_not]

end Pair

/-! ## Errors -/

section Errors

variable {symbol named : String} {fills : List Fill}

private theorem ne_invalidPair_of_mapError {α : Type} {outcome : Except Overflow α} :
    outcome.mapError CalculationError.overflow ≠ .error (.invalidPair named) := by
  cases outcome with
  | error cause => exact nofun
  | ok a => exact nofun

/-- What stops at a symbol that names no pair, and does not fail over a pair afterwards. -/
theorem eq_invalidPair_iff {α : Type} {outcome : Except CalculationError α}
    (hnone : Pair.ofSymbol? symbol = none → outcome = .error (.invalidPair symbol))
    (hsome : ∀ pair, Pair.ofSymbol? symbol = some pair → outcome ≠ .error (.invalidPair named)) :
    outcome = .error (.invalidPair named) ↔ ¬NamesPair symbol ∧ named = symbol := by
  rw [← Pair.ofSymbol?_eq_none_iff]
  cases hpair : Pair.ofSymbol? symbol with
  | none =>
    rw [hnone hpair, Except.error.injEq, CalculationError.invalidPair.injEq]
    exact ⟨fun hsame => ⟨rfl, hsame.symm⟩, fun hsame => hsame.2.symm⟩
  | some pair => exact iff_of_false (hsome pair hpair) nofun

theorem Market.pricing_eq_invalidPair_iff {σ : Type} {market : Market σ} :
    market.pricing symbol fills = .error (.invalidPair named) ↔ ¬NamesPair symbol ∧ named = symbol := by
  refine eq_invalidPair_iff (fun hpair => ?_) fun pair hpair => ?_
  · exact Market.pricing_of_none hpair
  · rw [Market.pricing_of_some hpair]
    cases FeeLedger.ofFills pair fills with
    | error cause => exact nofun
    | ok ledger => exact nofun

theorem Performance.calculate_eq_invalidPair_iff {derivatives : DerivativeMarkets} {listing : Listing}
    {holdings : Snapshot} {windowStart : Int64} {pricing : Pricing} (hfills : fills ≠ []) :
    calculate derivatives listing fills holdings windowStart pricing = .error (.invalidPair named) ↔
      ¬NamesPair listing.symbol ∧ named = listing.symbol := by
  refine eq_invalidPair_iff (calculate_of_invalid hfills) fun pair hpair => ?_
  obtain ⟨first, hfirst⟩ := exists_head_chronological hfills
  obtain ⟨last, hlast⟩ := exists_getLast_chronological hfills
  rw [calculate_of_ordered hfirst hlast hpair]
  exact ne_invalidPair_of_mapError

theorem PortfolioRow.compute_eq_invalidPair_iff {run : String} {last : Fill} {bounds : Option BalanceBounds}
    (hlast : (chronological fills).getLast? = some last) :
    compute run fills bounds = .error (.invalidPair named) ↔ ¬NamesPair last.symbol ∧ named = last.symbol := by
  refine eq_invalidPair_iff (compute_of_invalid hlast) fun pair hpair => ?_
  rw [compute_of_last hlast hpair]
  exact ne_invalidPair_of_mapError

theorem BalanceSource.recordedHoldings_of_invalid {store : Store} {run market : String} {fill : Fill}
    (hfills : store.tradesSince 0 (some run) none = .ok fills)
    (hfill : latestFill? (fills.filter (·.market == market)) = some fill) (hsymbol : ¬NamesPair fill.symbol) :
    recordedHoldings store run market
      = .error ((Fault.ofMessage (CalculationError.invalidPair fill.symbol).message).within
          ("Recorded fill on " ++ market ++ " has an invalid symbol")) := by
  have hpair := Pair.ofSymbol_of_none (Pair.ofSymbol?_eq_none_iff.2 hsymbol)
  rw [recordedHoldings, hfills]
  simp only [bind, Except.bind, hfill, hpair]
  rfl

end Errors

/-- Whoever reads a symbol fails over it exactly when it names no pair, and the error carries it as it is. -/
structure IsNamedInErrors (symbol : String) : Prop where
  ofPricing : ∀ {σ : Type} (market : Market σ) (fills : List Fill) (named : String),
    market.pricing symbol fills = .error (.invalidPair named) ↔ ¬NamesPair symbol ∧ named = symbol
  ofFigures : ∀ (derivatives : DerivativeMarkets) (name : String) (fills : List Fill) (holdings : Snapshot)
    (windowStart : Int64) (pricing : Pricing) (named : String), fills ≠ [] →
    (Performance.calculate derivatives ⟨name, symbol⟩ fills holdings windowStart pricing = .error (.invalidPair named) ↔
      ¬NamesPair symbol ∧ named = symbol)
  ofRow : ∀ (run : String) (fills : List Fill) (last : Fill) (bounds : Option BalanceBounds) (named : String),
    (chronological fills).getLast? = some last → last.symbol = symbol →
    (PortfolioRow.compute run fills bounds = .error (.invalidPair named) ↔ ¬NamesPair symbol ∧ named = symbol)
  ofHoldings : ∀ (store : Store) (run market : String) (fills : List Fill) (last : Fill),
    store.tradesSince 0 (some run) none = .ok fills → latestFill? (fills.filter (·.market == market)) = some last →
    last.symbol = symbol → ¬NamesPair symbol →
    BalanceSource.recordedHoldings store run market
      = .error ((Fault.ofMessage (CalculationError.invalidPair symbol).message).within
          ("Recorded fill on " ++ market ++ " has an invalid symbol"))

theorem isNamedInErrors (symbol : String) : IsNamedInErrors symbol := by
  refine ⟨fun _ _ _ => Market.pricing_eq_invalidPair_iff,
    fun _ _ _ _ _ _ _ hfills => Performance.calculate_eq_invalidPair_iff hfills, ?_, ?_⟩
  · rintro run fills last bounds named hlast rfl
    exact PortfolioRow.compute_eq_invalidPair_iff hlast
  · rintro store run market fills last hfills hlast rfl hsymbol
    exact BalanceSource.recordedHoldings_of_invalid hfills hlast hsymbol

/-! ## The order of a report -/

/-- A report lists what the groups of some fills were resolved to as it came, in the order of the groups: by the market
first, and then by the symbol that the pair of an entry is written as. -/
structure Market.ListsAsResolved {σ : Type} (market : Market σ) (start : ℤ) (before after : Elapsed σ)
    (fills : List Fill) (entries : List Performance) (report : WindowReport) : Prop where
  resolved : ((groupByListing fills).entries.mapM (market.resolve start)).Gives before entries after
  made : WindowReport.ofMarkets ⟨start, market.now⟩ entries = .ok report
  symbols : entries.map (fun entry => ⟨entry.market, entry.pair.symbol⟩) = (groupByListing fills).keys
  inOrder : (groupByListing fills).keys.Pairwise Listing.BytesBefore
  kept : report.markets = entries

theorem Market.exists_listsAsResolved {σ : Type} {market : Market σ} {scope : String} {start : ℤ}
    {before after : Elapsed σ} {report : WindowReport}
    (h : (market.windowReport (some scope) start).Gives before report after) :
    ∃ fills entries, market.source.tradesSince start (some scope) none = .ok fills ∧
      market.ListsAsResolved start before after fills entries report := by
  obtain ⟨fills, entries, hfills, -, hentries, hreport⟩ := exists_resolved h
  have hcomputed := computed_of_mapM hentries
  refine ⟨fills, entries, hfills, hentries, hreport, WindowReport.map_entryListing_of_computed hcomputed,
    (groupByListing fills).keys_ascending.imp Listing.bytesBefore_of_compare, ?_⟩
  rw [WindowReport.ofMarkets_of_computed hcomputed] at hreport
  obtain ⟨average, -, hreport⟩ := bind_eq_ok.1 hreport
  rw [← pure_eq_ok.1 hreport]

/-- A symbol is read exactly when it names a pair, as the pair that it is written from, and any other symbol is carried
by the error. So a report keeps the order of its groups: sorted by market and symbol as they are, their entries are
sorted by market and written pair. -/
theorem symbols_readExactly :
    (∀ symbol, ((∃ pair, Pair.ofSymbol symbol = .ok pair) ↔ NamesPair symbol) ∧
      (∀ pair, Pair.ofSymbol symbol = .ok pair ↔ IsToken pair.base ∧ IsToken pair.quote ∧ pair.symbol = symbol) ∧
      (∀ error, Pair.ofSymbol symbol = .error error ↔ ¬NamesPair symbol ∧ error = .invalidPair symbol) ∧
      IsNamedInErrors symbol) ∧
    ∀ {σ : Type} (market : Market σ) (scope : String) (start : ℤ) (before after : Elapsed σ) (report : WindowReport),
      (market.windowReport (some scope) start).Gives before report after →
      ∃ fills entries, market.source.tradesSince start (some scope) none = .ok fills ∧
        market.ListsAsResolved start before after fills entries report := by
  refine ⟨fun symbol => ⟨?_, fun pair => ?_, fun error => ?_, isNamedInErrors symbol⟩, ?_⟩
  · simp only [Pair.ofSymbol_eq_ok_iff]
    exact Pair.exists_ofSymbol?_iff
  · exact Pair.ofSymbol_eq_ok_iff.trans Pair.ofSymbol?_eq_some_iff
  · rw [Pair.ofSymbol_eq_error_iff, Pair.ofSymbol?_eq_none_iff]
  · intro σ market scope start before after report hgives
    exact Market.exists_listsAsResolved hgives

/-- Two purchases. The symbols of their pairs are in one order, and the base tokens in the other. -/
def closePurchases : List Fill :=
  [⟨"venue", "A-B", "run", .buy, .hundred, .one, .free, 1000, none, none⟩,
    ⟨"venue", "A!-B", "run", .buy, .hundred, .one, .free, 1000, none, none⟩]

def closeStore : Store :=
  Store.freshStore.afterCalls closePurchases

def closeMarket : Market Unit :=
  ⟨closeStore.source, .none, .paper Table.empty, .usual, 30000, 2000⟩

theorem symbols_readExactly_closeSymbols :
    ∃ report after, (closeMarket.windowReport (some "run") 0).Gives ⟨(), 0⟩ report after ∧
      report.markets.map (·.pair) = [⟨"A!", "B"⟩, ⟨"A", "B"⟩] ∧
      ∃ fills entries, closeMarket.source.tradesSince 0 (some "run") none = .ok fills ∧
        closeMarket.ListsAsResolved 0 ⟨(), 0⟩ after fills entries report := by
  have hall : closeStore.allTrades = .ok closePurchases :=
    Store.allTrades_afterCalls (by decide +kernel) (by decide +kernel) (by decide +kernel)
  have hsince : closeMarket.source.tradesSince 0 (some "run") none = _ :=
    Store.tradesSince_of_allTrades hall 0 "run"
  obtain ⟨report, after, hgives, hpairs⟩ :
      ∃ report after, (closeMarket.windowReport (some "run") 0).Gives ⟨(), 0⟩ report after ∧
        decide (report.markets.map (·.pair) = [⟨"A!", "B"⟩, ⟨"A", "B"⟩]) = true := by
    apply Market.exists_windowReport_of_inOrder hsince (by decide +kernel) (by decide +kernel)
    decide +kernel
  exact ⟨report, after, hgives, of_decide_eq_true hpairs, symbols_readExactly.2 closeMarket "run" 0 _ _ report hgives⟩

end TradeReport
