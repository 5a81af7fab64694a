import TradeReport.Proofs.Store.Recording
import TradeReport.Proofs.WindowReport
import TradeReport.Report.Document
/-!
# What the document of a window report shows

An object holds one value under each name, and of sections with one name only the last stays
(`hasSections_document_iff`). The document for display names its entries by market and symbol run together, and the
sections of an entry by the tokens of the pair beside two fixed names. So it shows every section exactly when these
names differ, which is a matter of what the fills are on (`Market.losesNothing_iff_namesApart`). Two listings can have
one title (`Market.not_losesNothing`), but not on markets without a slash (`Listing.title_inj`).
-/

namespace TradeReport

open Json (Value)

/-! ## Objects -/

/-- An object of just these sections, each under a name of its own. -/
def HasSections (object : Value) (sections : List (String × Value)) : Prop :=
  (sections.map (·.1)).Nodup ∧ ∃ members, object = .record members ∧ members.Perm sections

theorem Json.Value.record_inj {members members' : List (String × Value)} (h : Value.record members = .record members') :
    members = members' := by
  refine List.map_injective_iff.2 (fun member member' hmember => ?_) (Value.object.inj h)
  obtain ⟨hname, hvalue⟩ := Prod.mk.inj hmember
  exact Prod.ext (Option.some.inj hname) hvalue

theorem Json.Value.field?_record (name : String) (members : List (String × Value)) :
    (Value.record members).field? name = Entries.get? name members := by
  induction members with
  | nil => rfl
  | cons member rest ih =>
    rw [Value.record, Value.field?] at ih ⊢
    rw [List.map_cons, List.find?_cons, Entries.get?, ← ih]
    by_cases hname : member.1 = name
    · rw [hname, beq_self_eq_true, if_pos Std.ReflOrd.compare_self]
      rfl
    · have hother : (some member.1 == some name) = false := by simpa using hname
      have hcompare : compare name member.1 ≠ .eq := fun h => hname (Std.LawfulEqOrd.eq_of_compare h).symm
      rw [hother, if_neg hcompare]

private theorem field?_document {name : String} {value : Value} {sections : List (String × Value)}
    (hnames : (sections.map (·.1)).Nodup) (hmem : (name, value) ∈ sections) :
    (document sections).field? name = some value := by
  rw [document, Value.field?_record]
  exact Table.get?_ofList_of_mem hnames hmem

/-- A document shows all its sections exactly when their names differ. -/
theorem hasSections_document_iff {sections : List (String × Value)} :
    HasSections (document sections) sections ↔ (sections.map (·.1)).Nodup := by
  constructor
  · exact And.left
  · exact fun hnames => ⟨hnames, _, rfl, Table.perm_ofList hnames⟩

/-! ## Entries -/

def Pair.assetNames (pair : Pair) : List String :=
  [pair.base, pair.quote, "trading_pair_price", "base_asset_percentage"]

namespace Performance

variable {perf : Performance} {precision : Option Nat} {entry : Value}

def volumeSections (perf : Performance) (precision : Option Nat) : List (String × Value) :=
  [ (perf.pair.base, roundedVolume precision perf.turnover.base),
    (perf.pair.quote, roundedVolume precision perf.turnover.quote) ]

def assetSections (perf : Performance) (precision : Option Nat) (priceChange : Decimal) (ratio : Value) :
    List (String × Value) :=
  [ (perf.pair.base, perf.baseAssets precision),
    (perf.pair.quote, roundedChange precision perf.startQuote perf.currentQuote perf.netQuote),
    ("trading_pair_price", roundedChange precision perf.startPrice perf.currentPrice priceChange),
    ("base_asset_percentage", ratio) ]

/-- An entry shows a performance when it has a section for the volume of each token, and one for each asset, for the
price and for the share of the base token. -/
structure IsShownBy (perf : Performance) (precision : Option Nat) (entry : Value) : Prop where
  volume : ∃ volume, entry.field? "total_trade_volume" = some volume ∧
    HasSections volume (perf.volumeSections precision)
  assets : ∃ assets priceChange ratio, entry.field? "assets" = some assets ∧
    perf.currentPrice.sub perf.startPrice = .ok priceChange ∧ perf.ratioChange = .ok ratio ∧
    HasSections assets (perf.assetSections precision priceChange ratio)

private theorem field?_of_display (h : perf.display precision = .ok entry) :
    entry.field? "total_trade_volume" = some (document (perf.volumeSections precision)) ∧
      ∃ priceChange ratio, perf.currentPrice.sub perf.startPrice = .ok priceChange ∧ perf.ratioChange = .ok ratio ∧
        entry.field? "assets" = some (document (perf.assetSections precision priceChange ratio)) := by
  obtain ⟨assets, hassets, h⟩ := bind_eq_ok.1 h
  obtain ⟨results, -, h⟩ := bind_eq_ok.1 h
  obtain ⟨priceChange, hprice, hassets⟩ := bind_eq_ok.1 hassets
  obtain ⟨ratio, hratio, hassets⟩ := bind_eq_ok.1 hassets
  obtain rfl := pure_eq_ok.1 hassets
  obtain rfl := pure_eq_ok.1 h
  refine ⟨field?_document (by simp) ?_, priceChange, ratio, hprice, hratio, field?_document (by simp) ?_⟩
  · exact .tail _ (.head _)
  · exact .tail _ (.tail _ (.tail _ (.head _)))

/-- The tokens of a pair must not be one, nor be called like the sections beside them. -/
theorem isShownBy_display_iff (h : perf.display precision = .ok entry) :
    perf.IsShownBy precision entry ↔ perf.pair.assetNames.Nodup := by
  obtain ⟨hvolume, priceChange, ratio, hprice, hratio, hassets⟩ := field?_of_display h
  constructor
  · intro hshown
    obtain ⟨assets, priceChange', ratio', -, -, -, hsections⟩ := hshown.assets
    exact hsections.1
  · intro hnames
    have htokens : ((perf.volumeSections precision).map (·.1)).Nodup :=
      hnames.sublist (List.take_sublist 2 perf.pair.assetNames)
    exact ⟨⟨_, hvolume, hasSections_document_iff.2 htokens⟩,
      ⟨_, priceChange, ratio, hassets, hprice, hratio, hasSections_document_iff.2 hnames⟩⟩

/-- The quote section of a pair of one token takes the place of the base section. -/
example : ¬(Pair.mk "A" "A").assetNames.Nodup := by decide

end Performance

/-! ## Reports -/

def Listing.title (listing : Listing) : String :=
  listing.market ++ " / " ++ listing.symbol

/-- The market ends before the first slash of a title, unless it has one itself. -/
theorem Listing.takeWhile_title {listing : Listing} (h : '/' ∉ listing.market.toList) :
    listing.title.toList.takeWhile (· != '/') = listing.market.toList ++ [' '] := by
  have hbefore : ∀ c ∈ listing.market.toList ++ [' '], (c != '/') = true := by
    intro c hc
    rcases List.mem_append.1 hc with hmarket | hblank
    · exact bne_iff_ne.2 fun hslash => h (hslash ▸ hmarket)
    · rw [List.mem_singleton.1 hblank]
      rfl
  have htitle : listing.title.toList = (listing.market.toList ++ [' ']) ++ '/' :: ' ' :: listing.symbol.toList := by
    simp [title, String.toList_append]
  rw [htitle, List.takeWhile_append_of_pos hbefore]
  simp

theorem Listing.title_inj {a b : Listing} (ha : '/' ∉ a.market.toList) (hb : '/' ∉ b.market.toList)
    (h : a.title = b.title) : a = b := by
  have hmarket : a.market = b.market := by
    have hbefore := takeWhile_title ha
    rw [h, takeWhile_title hb] at hbefore
    exact String.toList_inj.1 (List.append_cancel_right hbefore).symm
  have hsymbol : a.symbol = b.symbol := by
    rw [title, title, hmarket] at h
    exact (String.append_right_inj _).1 h
  exact Listing.ext hmarket hsymbol

namespace WindowReport

open Performance

variable {report : WindowReport} {precision : Option Nat} {shown : Value} {fills : List Fill}

/-- A document loses nothing of a report when it has as many entries, and each performance is shown by the entry of
its title. -/
def LosesNothing (report : WindowReport) (precision : Option Nat) (shown : Value) : Prop :=
  ∃ entries, shown.field? "markets" = some (.record entries) ∧ entries.length = report.markets.length ∧
    ∀ perf ∈ report.markets, ∃ entry, (perf.title, entry) ∈ entries ∧ perf.IsShownBy precision entry

private theorem markets_of_display (h : report.display precision = .ok shown) :
    ∃ sections, shown.field? "markets" = some (document sections) ∧
      List.Forall₂ (fun perf titled => titled.1 = perf.title ∧ perf.display precision = .ok titled.2)
        report.markets sections := by
  obtain ⟨sections, hsections, h⟩ := bind_eq_ok.1 h
  have hmarkets : shown.field? "markets" = some (document sections) := by
    dsimp only at h
    split at h
    · obtain ⟨text, -, h⟩ := bind_eq_ok.1 h
      rw [pure_bind] at h
      obtain rfl := pure_eq_ok.1 h
      exact field?_document (by simp [Window.members]) (List.mem_append_right _ List.mem_cons_self)
    · rw [pure_bind] at h
      obtain rfl := pure_eq_ok.1 h
      exact field?_document (by simp [Window.members]) (List.mem_append_right _ List.mem_cons_self)
  refine ⟨sections, hmarkets, ?_⟩
  refine (forall₂_of_mapM hsections).imp fun perf titled htitled => ?_
  obtain ⟨entry, hentry, htitled⟩ := bind_eq_ok.1 htitled
  obtain rfl := pure_eq_ok.1 htitled
  exact ⟨rfl, hentry⟩

/-- A report is shown in full exactly when each of its titles and each pair's names are different. -/
theorem losesNothing_display_iff (h : report.display precision = .ok shown) :
    report.LosesNothing precision shown ↔
      (report.markets.map title).Nodup ∧ ∀ perf ∈ report.markets, perf.pair.assetNames.Nodup := by
  obtain ⟨sections, hshown, hsections⟩ := markets_of_display h
  have hnames : List.Forall₂ (· = ·) (sections.map (·.1)) (report.markets.map title) := by
    rw [List.forall₂_map_left_iff, List.forall₂_map_right_iff]
    exact (hsections.imp fun _ _ hentry => hentry.1).flip
  rw [List.forall₂_eq_eq_eq] at hnames
  rw [← hnames]
  constructor
  · intro h
    obtain ⟨entries, hentries, hlength, hall⟩ := h
    obtain rfl := Value.record_inj (Option.some.inj (hentries.symm.trans hshown))
    have hnodup : (sections.map (·.1)).Nodup := Table.length_ofList_iff.1 (hlength.trans hsections.length_eq)
    refine ⟨hnodup, fun perf hperf => ?_⟩
    obtain ⟨entry, hentry, hshownBy⟩ := hall perf hperf
    obtain ⟨other, hother, htitle, hdisplay⟩ :=
      exists_of_forall₂ hsections ((Table.perm_ofList hnodup).mem_iff.1 hentry)
    -- The entry was made from a performance of that title, and no two have one.
    obtain rfl : perf = other := List.inj_on_of_nodup_map (hnames ▸ hnodup) hperf hother htitle
    exact (isShownBy_display_iff hdisplay).1 hshownBy
  · intro h
    obtain ⟨hnodup, hassets⟩ := h
    refine ⟨_, hshown, (Table.length_ofList_iff.2 hnodup).trans hsections.length_eq.symm, fun perf hperf => ?_⟩
    obtain ⟨titled, htitled, htitle, hdisplay⟩ := exists_of_forall₂ hsections.flip hperf
    rw [← htitle]
    exact ⟨titled.2, (Table.perm_ofList hnodup).mem_iff.2 htitled,
      (isShownBy_display_iff hdisplay).2 (hassets perf hperf)⟩

/-- Fills are on names apart when no two of their listings have one title, and no token of a pair has the name of
another section. -/
structure NamesApart (fills : List Fill) : Prop where
  titles : ∀ fill ∈ fills, ∀ other ∈ fills, fill.listing.title = other.listing.title → fill.listing = other.listing
  assets : ∀ fill ∈ fills, ∀ pair, Pair.ofSymbol? fill.symbol = some pair → pair.assetNames.Nodup

/-- On markets without a slash only the tokens matter. -/
theorem NamesApart.of_markets (hmarkets : ∀ fill ∈ fills, '/' ∉ fill.market.toList)
    (hassets : ∀ fill ∈ fills, ∀ pair, Pair.ofSymbol? fill.symbol = some pair → pair.assetNames.Nodup) :
    NamesApart fills :=
  ⟨fun fill hfill other hother => Listing.title_inj (hmarkets fill hfill) (hmarkets other hother), hassets⟩

private theorem pair_of_calculate {derivatives : DerivativeMarkets} {listing : Listing} {holdings : Snapshot}
    {windowStart : Int64} {pricing : Pricing} {perf : Performance}
    (h : calculate derivatives listing fills holdings windowStart pricing = .ok perf) :
    Pair.ofSymbol? (entryListing perf).symbol = some perf.pair := by
  rw [entryListing_of_calculate h]
  obtain ⟨first, last, pair, -, -, hpair, hrun⟩ := calculate_eq_ok_iff.1 h
  obtain ⟨hidden, hcomputed⟩ := ofOrdered_eq_ok_iff.1 hrun
  rw [hpair, hcomputed.ofPair]

/-- The names of a report are those of the fills it covers. -/
theorem Covers.namesApart_iff (hcovers : report.Covers fills) (hnodup : (report.markets.map entryListing).Nodup)
    (hpairs : ∀ perf ∈ report.markets, Pair.ofSymbol? (entryListing perf).symbol = some perf.pair) :
    ((report.markets.map title).Nodup ∧ ∀ perf ∈ report.markets, perf.pair.assetNames.Nodup) ↔ NamesApart fills := by
  have htitles : report.markets.map title = (report.markets.map entryListing).map Listing.title := by
    rw [List.map_map]
    rfl
  rw [htitles, List.nodup_map_iff_inj_on hnodup]
  constructor
  · intro h
    refine ⟨fun fill hfill other hother => ?_, fun fill hfill pair hpair => ?_⟩
    · exact h.1 _ ((hcovers.listings _).2 ⟨fill, hfill, rfl⟩) _ ((hcovers.listings _).2 ⟨other, hother, rfl⟩)
    · obtain ⟨perf, hperf, hlisting⟩ := List.mem_map.1 ((hcovers.listings _).2 ⟨fill, hfill, rfl⟩)
      have hown := hpairs perf hperf
      rw [hlisting] at hown
      obtain rfl := Option.some.inj (hown.symm.trans hpair)
      exact h.2 perf hperf
  · intro h
    refine ⟨fun listing hlisting other hother => ?_, fun perf hperf => ?_⟩
    · obtain ⟨fill, hfill, rfl⟩ := (hcovers.listings _).1 hlisting
      obtain ⟨fill', hfill', rfl⟩ := (hcovers.listings _).1 hother
      exact h.titles fill hfill fill' hfill'
    · obtain ⟨fill, hfill, hlisting⟩ := (hcovers.listings _).1 (List.mem_map_of_mem hperf)
      have hown := hpairs perf hperf
      rw [← hlisting] at hown
      exact h.assets fill hfill _ hown

end WindowReport

namespace Market

variable {σ : Type} {market : Market σ} {scope : String} {start : Int} {before after : Elapsed σ}
  {report : WindowReport} {precision : Option Nat} {shown : Value}

/-- The document of a window report shows every entry of the report, and of every entry the volumes and assets,
exactly when the names that the run traded under are apart. -/
theorem losesNothing_iff_namesApart {store : Store} {all : List Fill} (hsource : market.source = store.source)
    (hall : store.allTrades = .ok all) (hreport : (market.windowReport (some scope) start).Gives before report after)
    (hdisplay : report.display precision = .ok shown) :
    report.LosesNothing precision shown ↔ WindowReport.NamesApart (reportedFills scope start all) := by
  obtain ⟨fills, entries, hfills, hentries, hmade⟩ := gives_windowReport hreport
  rw [hsource] at hfills
  rw [← Store.reportedFills_eq hall hfills, WindowReport.losesNothing_display_iff hdisplay]
  have hcovers := WindowReport.covers_of_groups hentries hmade
  rw [WindowReport.ofMarkets_of_computed hentries] at hmade
  obtain ⟨average, -, hmade⟩ := bind_eq_ok.1 hmade
  obtain rfl := pure_eq_ok.1 hmade
  refine hcovers.namesApart_iff (Table.nodup_of_ascending (WindowReport.ascending_of_computed hentries)) ?_
  intro perf hperf
  obtain ⟨group, -, _, _, _, _, hcalculate⟩ := hentries.exists_group hperf
  exact WindowReport.pair_of_calculate hcalculate

theorem losesNothing_iff_namesApart_mixed :
    ∃ report after shown, (mixedMarket.windowReport (some "run") 0).Gives ⟨(), 0⟩ report after ∧
      report.markets.length = 3 ∧ report.display none = .ok shown ∧ report.LosesNothing none shown ∧
      WindowReport.NamesApart (reportedFills "run" 0 mixedFills) := by
  obtain ⟨report, after, hgives, hreport⟩ :
      ∃ report after, (mixedMarket.windowReport (some "run") 0).Gives ⟨(), 0⟩ report after ∧
        ((report.display none).toOption.any fun _ => decide (report.markets.length = 3 ∧
          (report.markets.map (·.title)).Nodup ∧ ∀ perf ∈ report.markets, perf.pair.assetNames.Nodup)) = true := by
    apply exists_windowReport_of_inOrder (tradesSince_mixedMarket "run") (by decide +kernel) (by decide +kernel)
    decide +kernel
  obtain ⟨shown, hshown, hnames⟩ := exists_eq_ok_of_any hreport
  obtain ⟨hlength, hnames⟩ := of_decide_eq_true hnames
  have hlossless := (WindowReport.losesNothing_display_iff hshown).2 hnames
  have hsource : mixedMarket.source = mixedStore.source := rfl
  exact ⟨report, after, shown, hgives, hlength, hshown, hlossless,
    (losesNothing_iff_namesApart hsource allTrades_mixedStore hgives hshown).1 hlossless⟩

/-- Purchases on two listings with one title. -/
def namesakes : List Fill :=
  [⟨"venue", "spot / A-B", "run", .buy, .hundred, .one, .free, 1000, none, none⟩,
    ⟨"venue / spot", "A-B", "run", .buy, .hundred, .one, .free, 1000, none, none⟩]

def namesakeStore : Store :=
  Store.freshStore.afterCalls namesakes

def namesakeMarket : Market Unit :=
  ⟨namesakeStore.source, .none, .paper Table.empty, .usual, 30000, 2000⟩

private theorem tradesSince_namesakes : namesakeMarket.source.tradesSince 0 (some "run") none
    = .ok (namesakes.filter fun fill => decide (0 ≤ fill.time.toInt) && Store.isOfRun (some "run") fill) :=
  Store.tradesSince_of_allTrades
    (Store.allTrades_afterCalls (by decide +kernel) (by decide +kernel) (by decide +kernel)) 0 "run"

/-- Two entries of a report can have one title, and then only the later is shown. -/
theorem not_losesNothing :
    ¬∀ (store : Store) (market : Market Unit) (scope : String) (start : ℤ) (before after : Elapsed Unit)
      (report : WindowReport) (precision : Option ℕ) (shown : Value), market.source = store.source →
      (market.windowReport (some scope) start).Gives before report after → report.display precision = .ok shown →
      report.LosesNothing precision shown := by
  intro h
  obtain ⟨report, after, hgives, hreport⟩ :
      ∃ report after, (namesakeMarket.windowReport (some "run") 0).Gives ⟨(), 0⟩ report after ∧
        ((report.display none).toOption.any fun _ => decide ¬(report.markets.map (·.title)).Nodup) = true := by
    apply exists_windowReport_of_inOrder tradesSince_namesakes (by decide +kernel) (by decide +kernel)
    decide +kernel
  obtain ⟨shown, hshown, hsame⟩ := exists_eq_ok_of_any hreport
  have hlossless := h namesakeStore namesakeMarket "run" 0 _ _ report none shown rfl hgives hshown
  exact of_decide_eq_true hsame ((WindowReport.losesNothing_display_iff hshown).1 hlossless).1

end Market

end TradeReport
