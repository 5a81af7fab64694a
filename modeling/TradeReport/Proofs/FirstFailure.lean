import TradeReport.Proofs.Overflow
import TradeReport.Proofs.Pricing
/-!
# All or nothing

Where every market has one answer to a request for balances, a window report comes to the same whenever it is asked
for, and that is a computation without time (`Reporting.Finds`). Its listings are resolved in order: the first that
fails decides the outcome, and nothing that comes after it has a say (`windowReport_firstFailure`). A listing fails by
its balances, and only where these are there by its symbol (`Market.failure?`).
-/

namespace TradeReport

/-! ## Actions that always find the same -/

namespace Reporting

variable {σ α β : Type} {action : Reporting σ α} {result : Except Interruption α} {before : Elapsed σ}

/-- Whenever the action is run, it comes to this result. -/
def Finds (action : Reporting σ α) (result : Except Interruption α) : Prop :=
  ∀ before, (action.runFrom before).1 = result

theorem finds_pure (a : α) : (pure a : Reporting σ α).Finds (.ok a) :=
  fun _ => rfl

theorem finds_fail (error : ReportError) : (fail error : Reporting σ α).Finds (.error (.error error)) :=
  fun _ => rfl

theorem finds_passOn {ε : Type} (describe : ε → Interruption) (found : Except ε α) :
    (passOn describe found : Reporting σ α).Finds (found.mapError describe) := by
  intro before
  cases found with
  | error cause => rfl
  | ok a => rfl

theorem Finds.bind {next : α → Reporting σ β} {rest : α → Except Interruption β} (h : action.Finds result)
    (hnext : ∀ a, (next a).Finds (rest a)) : (action >>= next).Finds (result >>= rest) := by
  intro before
  rw [runFrom_bind]
  have hfirst := h before
  rcases hrun : action.runFrom before with ⟨interruption | a, between⟩
  · rw [hrun] at hfirst
    rw [← hfirst]
    rfl
  · rw [hrun] at hfirst
    rw [← hfirst]
    exact hnext a between

theorem Finds.mapM {each : α → Reporting σ β} {found : α → Except Interruption β}
    (h : ∀ item, (each item).Finds (found item)) (items : List α) : (items.mapM each).Finds (items.mapM found) := by
  induction items with
  | nil => exact finds_pure []
  | cons item rest ih =>
    rw [List.mapM_cons, List.mapM_cons]
    apply (h item).bind
    intro b
    apply ih.bind
    intro more
    exact finds_pure (b :: more)

/-- Settled, the action has this result. -/
def Settles (action : Reporting σ α) (before : Elapsed σ) (result : Except ReportError α) : Prop :=
  ∃ after, action.settled.run before = (.ok result, after)

theorem Finds.exists_after (h : action.Finds result) (before : Elapsed σ) :
    ∃ after, action.runFrom before = (result, after) :=
  ⟨(action.runFrom before).2, Prod.ext (h before) rfl⟩

theorem Settles.unique {settled other : Except ReportError α} (h : action.Settles before settled)
    (hother : action.Settles before other) : settled = other := by
  obtain ⟨after, hrun⟩ := h
  obtain ⟨after', hrun'⟩ := hother
  exact Except.ok.inj (Prod.mk.inj (hrun.symm.trans hrun')).1

theorem Finds.settles_ok {a : α} (h : action.Finds (.ok a)) (before : Elapsed σ) : action.Settles before (.ok a) := by
  obtain ⟨after, hrun⟩ := h.exists_after before
  refine ⟨after, ?_⟩
  rw [settled_eq, hrun]

theorem Finds.settles_error {error : ReportError} (h : action.Finds (.error (.error error))) (before : Elapsed σ) :
    action.Settles before (.error error) := by
  obtain ⟨after, hrun⟩ := h.exists_after before
  refine ⟨after, ?_⟩
  rw [settled_eq, hrun]

theorem Finds.ne_overflow (h : action.Finds result) (hrange : ¬action.Overflows before) (cause : Overflow) :
    result ≠ .error (.overflow cause) := by
  rintro rfl
  obtain ⟨after, hrun⟩ := h.exists_after before
  exact hrange ⟨cause, after, hrun⟩

/-- A result, or an overflow, but no error to report. -/
def Unfailing (result : Except Interruption α) : Prop :=
  ∀ error, result ≠ .error (.error error)

theorem Unfailing.bind {rest : α → Except Interruption β} (h : Unfailing result) (hrest : ∀ a, Unfailing (rest a)) :
    Unfailing (result >>= rest) := by
  intro error herror
  cases result with
  | error interruption => exact h error (congrArg Except.error (Except.error.inj herror))
  | ok a => exact hrest a error herror

private theorem unfailing_ofCalculation {found : Except CalculationError α}
    (h : ∀ cause, found = .error cause → ∃ overflow, cause = .overflow overflow) :
    Unfailing (found.mapError .ofCalculation) := by
  intro error herror
  cases hfound : found with
  | error cause =>
    obtain ⟨overflow, rfl⟩ := h cause hfound
    rw [hfound] at herror
    cases herror
  | ok a =>
    rw [hfound] at herror
    cases herror

end Reporting

/-! ## Reports without time -/

namespace Market

variable {σ : Type} {market : Market σ} {replies others : String → BalanceReply} {run : String} {start : ℤ}
  {before : Elapsed σ} {listing : Listing} {fills : List Fill} {error : ReportError}

/-- Each market has one answer to a request for balances, whenever it is asked. -/
def Answers (market : Market σ) (replies : String → BalanceReply) : Prop :=
  ∀ name state, ((market.balances name).run state).1 = replies name

def holdings (market : Market σ) (replies : String → BalanceReply) (name : String) : Except Interruption Snapshot :=
  if (replies name).delay > market.timeout then
    .error (.error (.networkTimeout name (market.timeout * nanosPerMilli)))
  else
    (replies name).outcome.mapError fun cause => .error (.balanceUnavailable name cause)

def entry (market : Market σ) (replies : String → BalanceReply) (start : ℤ) (group : Listing × List Fill) :
    Except Interruption Performance := do
  let holdings ← market.holdings replies group.1.market
  let pricing ← (market.pricing group.1.symbol group.2).mapError .ofCalculation
  (Performance.calculate market.derivatives group.1 group.2 holdings (Int64.ofInt start) pricing).mapError
    .ofCalculation

def report (market : Market σ) (replies : String → BalanceReply) (start : ℤ) (fills : List Fill) :
    Except Interruption WindowReport :=
  if (groupByListing fills).isEmpty then
    .error (.error .noTrades)
  else do
    let entries ← (groupByListing fills).entries.mapM (market.entry replies start)
    (WindowReport.ofMarkets ⟨start, market.now⟩ entries).mapError .overflow

theorem finds_fetch (h : market.Answers replies) (name : String) :
    (market.fetch name).Finds (market.holdings replies name) := by
  intro before
  rcases hreply : (market.balances name).run before.state with ⟨reply, state⟩
  have hsame : reply = replies name := by rw [← h name before.state, hreply]
  rw [runFrom_fetch hreply, received, holdings, hsame]
  split
  · rfl
  · cases (replies name).outcome with
    | error cause => rfl
    | ok snapshot => rfl

theorem finds_resolve (h : market.Answers replies) (group : Listing × List Fill) :
    (market.resolve start group).Finds (market.entry replies start group) := by
  apply (finds_fetch h group.1.market).bind
  intro snapshot
  rw [Reporting.ofCalculation_eq]
  apply (Reporting.finds_passOn _ _).bind
  intro pricing
  rw [Reporting.ofCalculation_eq]
  exact Reporting.finds_passOn _ _

theorem finds_windowReport (h : market.Answers replies)
    (hfills : market.source.tradesSince start (some run) none = .ok fills) :
    (market.windowReport (some run) start).Finds (market.report replies start fills) := by
  have hsource : (Reporting.ofSource (market.source.tradesSince start (some run) none) : Reporting σ (List Fill)).Finds
      (.ok fills) := by
    rw [hfills]
    exact Reporting.finds_pure fills
  have hgroups : ∀ fills, (if (groupByListing fills).isEmpty then Reporting.fail .noTrades else do
      let entries ← (groupByListing fills).entries.mapM (market.resolve start)
      Reporting.ofArithmetic (WindowReport.ofMarkets ⟨start, market.now⟩ entries) : Reporting σ WindowReport).Finds
        (market.report replies start fills) := by
    intro fills
    rw [report]
    split
    · exact Reporting.finds_fail _
    · apply (Reporting.Finds.mapM (finds_resolve h) _).bind
      intro entries
      rw [Reporting.ofArithmetic_eq]
      exact Reporting.finds_passOn _ _
  exact hsource.bind hgroups

/-! ## Failures -/

/-- Why a listing fails: its balances come too late or not at all, or they are there and the symbol names no pair. -/
def failure? (market : Market σ) (replies : String → BalanceReply) (listing : Listing) : Option ReportError :=
  if (replies listing.market).delay > market.timeout then
    some (.networkTimeout listing.market (market.timeout * nanosPerMilli))
  else
    match (replies listing.market).outcome with
    | .error cause => some (.balanceUnavailable listing.market cause)
    | .ok _ => if Pair.ofSymbol? listing.symbol = none then some (.invalidPair listing.symbol) else none

private theorem holdings_cases (market : Market σ) (replies : String → BalanceReply) (listing : Listing) :
    (∃ error, market.holdings replies listing.market = .error (.error error) ∧
        market.failure? replies listing = some error) ∨
      ∃ snapshot, market.holdings replies listing.market = .ok snapshot ∧
        market.failure? replies listing
          = if Pair.ofSymbol? listing.symbol = none then some (.invalidPair listing.symbol) else none := by
  unfold holdings failure?
  by_cases hlate : (replies listing.market).delay > market.timeout
  · rw [if_pos hlate, if_pos hlate]
    exact .inl ⟨_, rfl, rfl⟩
  · rw [if_neg hlate, if_neg hlate]
    cases (replies listing.market).outcome with
    | error cause => exact .inl ⟨_, rfl, rfl⟩
    | ok snapshot => exact .inr ⟨snapshot, rfl, rfl⟩

private theorem pricing_overflows {symbol : String} {pair : Pair} (hpair : Pair.ofSymbol? symbol = some pair)
    (cause : CalculationError) (h : market.pricing symbol fills = .error cause) :
    ∃ overflow, cause = .overflow overflow := by
  rw [pricing_of_some hpair] at h
  cases hledger : FeeLedger.ofFills pair fills with
  | error overflow =>
    rw [hledger] at h
    exact ⟨overflow, (Except.error.inj h).symm⟩
  | ok ledger =>
    rw [hledger] at h
    cases h

private theorem calculate_overflows {derivatives : DerivativeMarkets} {snapshot : Snapshot} {windowStart : Int64}
    {pricing : Pricing} {pair : Pair} (hfills : fills ≠ []) (hpair : Pair.ofSymbol? listing.symbol = some pair)
    (cause : CalculationError)
    (h : Performance.calculate derivatives listing fills snapshot windowStart pricing = .error cause) :
    ∃ overflow, cause = .overflow overflow := by
  obtain ⟨first, hfirst⟩ := exists_head_chronological hfills
  obtain ⟨last, hlast⟩ := exists_getLast_chronological hfills
  rw [Performance.calculate_of_ordered hfirst hlast hpair] at h
  cases hrun : Performance.ofOrdered derivatives listing.market pair first last (chronological fills) snapshot
      windowStart pricing with
  | error overflow =>
    rw [hrun] at h
    exact ⟨overflow, (Except.error.inj h).symm⟩
  | ok p =>
    rw [hrun] at h
    cases h

private theorem entry_of_failure (h : market.failure? replies listing = some error) (fills : List Fill) :
    market.entry replies start (listing, fills) = .error (.error error) := by
  rw [entry]
  rcases holdings_cases market replies listing with ⟨other, hholdings, hfailure⟩ | ⟨snapshot, hholdings, hfailure⟩
  · rw [hholdings, Option.some.inj (h.symm.trans hfailure)]
    rfl
  · rw [h] at hfailure
    split at hfailure
    · rename_i hpair
      rw [hholdings, pricing_of_none hpair, Option.some.inj hfailure]
      rfl
    · cases hfailure

/-- A listing that does not fail has an entry, unless its figures overflow. -/
theorem entry_of_none (h : market.failure? replies listing = none) (hfills : fills ≠ []) :
    Reporting.Unfailing (market.entry replies start (listing, fills)) := by
  rw [entry]
  rcases holdings_cases market replies listing with ⟨other, -, hfailure⟩ | ⟨snapshot, hholdings, hfailure⟩
  · cases h.symm.trans hfailure
  · rw [h] at hfailure
    split at hfailure
    · cases hfailure
    · rename_i hpair
      obtain ⟨pair, hpair⟩ := Option.ne_none_iff_exists'.1 hpair
      rw [hholdings]
      apply (Reporting.unfailing_ofCalculation (pricing_overflows hpair)).bind
      intro pricing
      exact Reporting.unfailing_ofCalculation (calculate_overflows hfills hpair)

/-- An entry depends on the answer of its own market only. -/
theorem entry_congr (balances : BalanceSource σ) {group : Listing × List Fill}
    (h : others group.1.market = replies group.1.market) :
    Market.entry { market with balances } others start group = market.entry replies start group := by
  rw [entry, entry, holdings, holdings, h]
  rfl

/-! ## The first failure -/

/-- The first listing of fills, in the order of bytes, that fails, and how it does. -/
structure FailsFirst (market : Market σ) (replies : String → BalanceReply) (fills : List Fill) (listing : Listing)
    (error : ReportError) : Prop where
  traded : ∃ fill ∈ fills, fill.listing = listing
  fails : market.failure? replies listing = some error
  before : ∀ fill ∈ fills, market.failure? replies fill.listing ≠ none →
    fill.listing = listing ∨ listing.BytesBefore fill.listing

theorem mem_keys_groupByListing :
    listing ∈ (groupByListing fills).keys ↔ ∃ fill ∈ fills.filter Fill.isResolvable, fill.listing = listing :=
  Table.mem_keys_group _

private theorem fills_ne_nil_of_mem {group : Listing × List Fill} (h : group ∈ (groupByListing fills).entries) :
    group.2 ≠ [] := by
  obtain ⟨fill, hfill, hlisting⟩ := mem_keys_groupByListing.1 (List.mem_map.2 ⟨group, h, rfl⟩)
  have hown : group.2 = (fills.filter Fill.isResolvable).filter (·.listing = group.1) :=
    Table.eq_filter_of_mem_group h
  rw [hown]
  exact List.ne_nil_of_mem (List.mem_filter.2 ⟨hfill, decide_eq_true hlisting⟩)

theorem isEmpty_groupByListing_iff :
    (groupByListing fills).isEmpty = true ↔ fills.filter Fill.isResolvable = [] := by
  rw [Table.isEmpty, List.isEmpty_iff]
  constructor
  · intro hnone
    apply List.eq_nil_iff_forall_not_mem.2
    intro fill hfill
    have hkey := mem_keys_groupByListing.2 ⟨fill, hfill, rfl⟩
    rw [Table.keys, hnone] at hkey
    cases hkey
  · intro hnone
    rw [groupByListing, hnone]
    rfl

/-- Groups up to the first that fails. -/
structure SplitsAt (market : Market σ) (replies : String → BalanceReply) (start : ℤ) (fills : List Fill)
    (listing : Listing) (error : ReportError) (earlier later : List (Listing × List Fill)) : Prop where
  fails : market.failure? replies listing = some error
  split : ∃ own, (groupByListing fills).entries = earlier ++ (listing, own) :: later
  resolved : ∀ group ∈ earlier, ∃ p, market.entry replies start group = .ok p

section Split

variable {earlier later : List (Listing × List Fill)}

private theorem failure?_of_entry {group : Listing × List Fill} {p : Performance}
    (h : market.entry replies start group = .ok p) : market.failure? replies group.1 = none := by
  cases hfailure : market.failure? replies group.1 with
  | none => rfl
  | some error =>
    rw [entry_of_failure hfailure group.2] at h
    cases h

private theorem entries_cases
    (hrange : ∀ cause, (groupByListing fills).entries.mapM (market.entry replies start) ≠ .error (.overflow cause)) :
    (∃ entries, (groupByListing fills).entries.mapM (market.entry replies start) = .ok entries ∧
        ∀ group ∈ (groupByListing fills).entries, market.failure? replies group.1 = none) ∨
      ∃ listing error earlier later, market.SplitsAt replies start fills listing error earlier later := by
  rcases mapM_ok_or_error (market.entry replies start) (groupByListing fills).entries with
    ⟨entries, hentries, hall⟩ | ⟨earlier, ⟨listing, own⟩, later, interruption, hsplit, hearlier, hentry⟩
  · refine .inl ⟨entries, hentries, fun group hgroup => ?_⟩
    obtain ⟨p, hp⟩ := hall group hgroup
    exact failure?_of_entry hp
  · cases hfailure : market.failure? replies listing with
    | some error => exact .inr ⟨listing, error, earlier, later, ⟨hfailure, ⟨own, hsplit⟩, hearlier⟩⟩
    | none =>
      have hmem : (listing, own) ∈ (groupByListing fills).entries := by
        rw [hsplit]
        simp
      have hown : own ≠ [] := fills_ne_nil_of_mem hmem
      cases interruption with
      | error error => exact absurd hentry (entry_of_none hfailure hown error)
      | overflow cause =>
        refine absurd ?_ (hrange cause)
        rw [hsplit]
        exact mapM_eq_error hearlier hentry

theorem SplitsAt.ascending (h : market.SplitsAt replies start fills listing error earlier later) :
    (∀ group ∈ earlier, group.1.BytesBefore listing) ∧ ∀ group ∈ later, listing.BytesBefore group.1 := by
  obtain ⟨own, hsplit⟩ := h.split
  have hascending := (groupByListing fills).ascending
  rw [hsplit, Ascending, List.pairwise_append, List.pairwise_cons] at hascending
  obtain ⟨-, ⟨hlater, -⟩, hearlier⟩ := hascending
  constructor
  · intro group hgroup
    exact Listing.bytesBefore_of_compare (hearlier group hgroup (listing, own) List.mem_cons_self)
  · intro group hgroup
    exact Listing.bytesBefore_of_compare (hlater group hgroup)

theorem SplitsAt.failsFirst (h : market.SplitsAt replies start fills listing error earlier later) :
    market.FailsFirst replies (fills.filter Fill.isResolvable) listing error := by
  obtain ⟨own, hsplit⟩ := h.split
  have hkeys : (groupByListing fills).keys = earlier.map (·.1) ++ listing :: later.map (·.1) := by
    rw [Table.keys, hsplit, List.map_append, List.map_cons]
  refine ⟨mem_keys_groupByListing.1 (by rw [hkeys]; simp), h.fails, fun fill hfill hfailure => ?_⟩
  have hkey := mem_keys_groupByListing.2 ⟨fill, hfill, rfl⟩
  rw [hkeys, List.mem_append, List.mem_cons] at hkey
  rcases hkey with hkey | hkey | hkey
  · obtain ⟨group, hgroup, hlisting⟩ := List.mem_map.1 hkey
    obtain ⟨p, hp⟩ := h.resolved group hgroup
    rw [← hlisting] at hfailure
    exact absurd (failure?_of_entry hp) hfailure
  · exact .inl hkey
  · obtain ⟨group, hgroup, hlisting⟩ := List.mem_map.1 hkey
    rw [← hlisting]
    exact .inr (h.ascending.2 group hgroup)

/-- The first failure decides the report, with any answers on the markets after it. -/
theorem SplitsAt.report_eq (h : market.SplitsAt replies start fills listing error earlier later)
    (balances : BalanceSource σ)
    (hsame : ∀ name, ¬bytesOf listing.market < bytesOf name → others name = replies name) :
    Market.report { market with balances } others start fills = .error (.error error) := by
  obtain ⟨own, hsplit⟩ := h.split
  have hearlier : ∀ group ∈ earlier, ∃ p, Market.entry { market with balances } others start group = .ok p := by
    intro group hgroup
    obtain ⟨p, hp⟩ := h.resolved group hgroup
    refine ⟨p, (entry_congr balances (hsame _ fun hafter => ?_)).trans hp⟩
    rcases h.ascending.1 group hgroup with hbefore | ⟨hmarket, -⟩
    · exact List.lt_asymm hbefore hafter
    · rw [hmarket] at hafter
      exact List.lt_irrefl _ hafter
  have hlisting : Market.entry { market with balances } others start (listing, own) = .error (.error error) :=
    (entry_congr balances (hsame _ (List.lt_irrefl _))).trans (entry_of_failure h.fails own)
  have hempty : (groupByListing fills).isEmpty = false := by
    rw [Table.isEmpty, hsplit]
    simp
  rw [report, if_neg (by simp [hempty]), hsplit, mapM_eq_error hearlier hlisting]
  rfl

end Split

/-! ## The report -/

private theorem report_cases (hfills : fills.filter Fill.isResolvable ≠ [])
    (hrange : ∀ cause, market.report replies start fills ≠ .error (.overflow cause)) :
    (∃ made, market.report replies start fills = .ok made ∧
        ∀ fill ∈ fills.filter Fill.isResolvable, market.failure? replies fill.listing = none) ∨
      ∃ listing error earlier later, market.SplitsAt replies start fills listing error earlier later := by
  have hreport : market.report replies start fills
      = (groupByListing fills).entries.mapM (market.entry replies start) >>= fun entries =>
          (WindowReport.ofMarkets ⟨start, market.now⟩ entries).mapError .overflow := by
    rw [report, if_neg (by rwa [isEmpty_groupByListing_iff])]
  rw [hreport] at hrange ⊢
  have hentries : ∀ cause, (groupByListing fills).entries.mapM (market.entry replies start)
      ≠ .error (.overflow cause) := by
    intro cause hcause
    apply hrange cause
    rw [hcause]
    rfl
  rcases entries_cases hentries with ⟨entries, hentries, hall⟩ | hsplit
  · have hmean : ((groupByListing fills).entries.mapM (market.entry replies start) >>= fun entries =>
        (WindowReport.ofMarkets ⟨start, market.now⟩ entries).mapError .overflow)
        = (WindowReport.ofMarkets ⟨start, market.now⟩ entries).mapError .overflow := by
      rw [hentries]
      rfl
    rw [hmean] at hrange ⊢
    cases hmade : WindowReport.ofMarkets ⟨start, market.now⟩ entries with
    | error cause =>
      rw [hmade] at hrange
      exact absurd rfl (hrange cause)
    | ok made =>
      refine .inl ⟨made, rfl, fun fill hfill => ?_⟩
      obtain ⟨group, hgroup, hlisting⟩ := List.mem_map.1 (mem_keys_groupByListing.2 ⟨fill, hfill, rfl⟩)
      rw [← hlisting]
      exact hall group hgroup
  · exact .inr hsplit

/-- What a report on a run comes to, by the fills that it is on. -/
structure Decides (market : Market σ) (replies : String → BalanceReply) (run : String) (start : ℤ)
    (before : Elapsed σ) (fills : List Fill) (result : Except ReportError WindowReport) : Prop where
  nothing : fills = [] → result = .error .noTrades
  all : fills ≠ [] → (∀ fill ∈ fills, market.failure? replies fill.listing = none) →
    ∃ made : WindowReport, result = .ok made ∧ made.Covers fills
  first : (∃ fill ∈ fills, market.failure? replies fill.listing ≠ none) →
    ∃ listing error, market.FailsFirst replies fills listing error ∧ result = .error error ∧
      ∀ (balances : BalanceSource σ) (others : String → BalanceReply),
        Answers { market with balances } others →
        (∀ name, ¬bytesOf listing.market < bytesOf name → others name = replies name) →
        (windowReport { market with balances } (some run) start).Settles before (.error error)

private theorem exists_decides (hanswers : market.Answers replies)
    (hsince : market.source.tradesSince start (some run) none = .ok fills)
    (hrange : ¬market.WindowOverflows run start before) :
    ∃ result, (market.windowReport (some run) start).Settles before result ∧
      market.Decides replies run start before (fills.filter Fill.isResolvable) result := by
  have hfinds := finds_windowReport hanswers hsince
  rw [← overflows_windowReport_iff] at hrange
  by_cases hfills : fills.filter Fill.isResolvable = []
  · have hnothing : market.report replies start fills = .error (.error .noTrades) := by
      rw [report, if_pos (isEmpty_groupByListing_iff.2 hfills)]
    rw [hnothing] at hfinds
    refine ⟨_, hfinds.settles_error before, ⟨fun _ => rfl, fun hne => absurd hfills hne, ?_⟩⟩
    rintro ⟨fill, hfill, -⟩
    rw [hfills] at hfill
    cases hfill
  · rcases report_cases hfills (hfinds.ne_overflow hrange) with
      ⟨made, hmade, hall⟩ | ⟨listing, error, earlier, later, hsplit⟩
    · rw [hmade] at hfinds
      refine ⟨_, hfinds.settles_ok before, ⟨fun hnone => absurd hnone hfills, fun _ _ => ⟨made, rfl, ?_⟩, ?_⟩⟩
      · obtain ⟨after, hgives⟩ := hfinds.exists_after before
        obtain ⟨fills', entries, hsince', hentries, hreport⟩ := gives_windowReport hgives
        obtain rfl : fills = fills' := Except.ok.inj (hsince.symm.trans hsince')
        exact WindowReport.covers_of_groups hentries hreport
      · rintro ⟨fill, hfill, hfailure⟩
        exact absurd (hall fill hfill) hfailure
    · rw [hsplit.report_eq market.balances fun _ _ => rfl] at hfinds
      refine ⟨_, hfinds.settles_error before, ⟨fun hnone => absurd hnone hfills, fun _ hall => ?_, fun _ => ?_⟩⟩
      · obtain ⟨fill, hfill, hlisting⟩ := hsplit.failsFirst.traded
        have hnone := hall fill hfill
        rw [hlisting, hsplit.fails] at hnone
        cases hnone
      · refine ⟨listing, error, hsplit.failsFirst, rfl, fun balances others hothers hsame => ?_⟩
        have hother : (windowReport { market with balances } (some run) start).Finds _ :=
          finds_windowReport hothers hsince
        rw [hsplit.report_eq balances hsame] at hother
        exact hother.settles_error before

theorem finds_of_unreadable {store : Store} {fault : Fault} (hsource : market.source = store.source)
    (h : store.allTrades = .error fault) :
    (market.windowReport (some run) start).Finds (.error (.error (.source fault))) := by
  have hsince : market.source.tradesSince start (some run) none = .error fault := by
    rw [hsource]
    show store.tradesSince start (some run) none = _
    rw [Store.tradesSince, h]
    rfl
  intro before
  rw [windowReport, hsince]
  rfl

/-- A window report has all listings of a run or none: the first that fails decides, and later markets have no say. -/
theorem windowReport_firstFailure {store : Store} (hsource : market.source = store.source)
    (hanswers : market.Answers replies) (scope : Option String)
    (hrange : ∀ run ∈ scope, ¬market.WindowOverflows run start before) :
    ∃ result, (market.windowReport scope start).Settles before result ∧
      (scope = none → result = .error .noActiveStrategy) ∧
      ∀ run ∈ scope,
        (∀ fault, store.allTrades = .error fault → result = .error (.source fault)) ∧
        ∀ fills, store.allTrades = .ok fills →
          market.Decides replies run start before (reportedFills run start fills) result := by
  cases scope with
  | none => exact ⟨_, (Reporting.finds_fail _).settles_error before, fun _ => rfl, fun _ hrun => by cases hrun⟩
  | some run =>
    have hrange := hrange run rfl
    cases hall : store.allTrades with
    | error fault =>
      refine ⟨_, (finds_of_unreadable hsource hall).settles_error before, (nomatch ·),
        fun other hother => ⟨fun fault' hfault => ?_, ?_⟩⟩
      · rw [Except.error.inj hfault]
      · intro fills hfills
        cases hfills
    | ok fills =>
      have hsince := Store.tradesSince_of_allTrades hall start run
      obtain ⟨result, hsettles, hdecides⟩ := exists_decides hanswers (by rw [hsource]; exact hsince) hrange
      rw [Store.reportedFills_eq hall hsince] at hdecides
      refine ⟨result, hsettles, (nomatch ·), fun other hother => ⟨fun fault hfault => ?_, fun fills' hfills => ?_⟩⟩
      · cases hfault
      · obtain rfl : run = other := Option.some.inj hother
        rw [← Except.ok.inj hfills]
        exact hdecides

/-- One market answers at once, the others after a minute. -/
def lateReplies (name : String) : BalanceReply :=
  if name = "hall" then ⟨0, .ok Table.empty⟩ else ⟨60000, .ok Table.empty⟩

def lateMarket : Market Unit :=
  { mixedMarket with balances := fun name => return lateReplies name }

private theorem lateMarket_answers : lateMarket.Answers lateReplies :=
  fun _ _ => rfl

/-- The first of three listings is resolved before the second fails. -/
theorem windowReport_firstFailure_late :
    lateMarket.Decides lateReplies "run" 0 ⟨(), 0⟩ (reportedFills "run" 0 mixedFills)
      (.error (.networkTimeout "venue" (30000 * nanosPerMilli))) := by
  have hfinds := finds_windowReport lateMarket_answers (tradesSince_mixedMarket "run")
  have hreport : lateMarket.report lateReplies 0
      (mixedFills.filter fun fill => decide (0 ≤ fill.time.toInt) && Store.isOfRun (some "run") fill)
      = .error (.error (.networkTimeout "venue" (30000 * nanosPerMilli))) := by
    decide +kernel
  rw [hreport] at hfinds
  have hrange : ∀ run ∈ some "run", ¬lateMarket.WindowOverflows run 0 ⟨(), 0⟩ := by
    rintro run ⟨⟩
    rw [← overflows_windowReport_iff]
    rintro ⟨cause, after, hcause⟩
    cases (hfinds ⟨(), 0⟩).symm.trans (congrArg Prod.fst hcause)
  have hsource : lateMarket.source = mixedStore.source := rfl
  obtain ⟨result, hsettles, -, hdecides⟩ := windowReport_firstFailure hsource lateMarket_answers (some "run") hrange
  rw [hsettles.unique (hfinds.settles_error ⟨(), 0⟩)] at hdecides
  exact (hdecides "run" rfl).2 mixedFills allTrades_mixedStore

/-- A log that cannot be read is not taken for one without trades. -/
theorem not_noTrades_garbled :
    ¬∀ (store : Store) (market : Market Unit) (replies : String → BalanceReply) (run : String) (start : ℤ)
      (before : Elapsed Unit), market.source = store.source → market.Answers replies →
      ¬market.WindowOverflows run start before →
      (¬∃ fills, store.allTrades = .ok fills ∧ reportedFills run start fills ≠ []) →
      (market.windowReport (some run) start).Settles before (.error .noTrades) := by
  intro h
  obtain ⟨fault, hfault⟩ := Store.exists_fault_garbledStore
  have hfinds : (windowReport { mixedMarket with source := Store.garbledStore.source } (some "run") 0).Finds
      (.error (.error (.source fault))) :=
    finds_of_unreadable rfl hfault
  have hrange : ¬{ mixedMarket with source := Store.garbledStore.source }.WindowOverflows "run" 0 ⟨(), 0⟩ := by
    rw [← overflows_windowReport_iff]
    rintro ⟨cause, after, hcause⟩
    cases (hfinds ⟨(), 0⟩).symm.trans (congrArg Prod.fst hcause)
  have hsettles := h Store.garbledStore _ (fun _ => ⟨0, .ok Table.empty⟩) "run" 0 ⟨(), 0⟩ rfl (fun _ _ => rfl) hrange
    (by
      rintro ⟨fills, hfills, -⟩
      cases hfault.symm.trans hfills)
  cases hsettles.unique (hfinds.settles_error ⟨(), 0⟩)

end Market

end TradeReport
