import TradeReport.Proofs.WindowReport
import TradeReport.Service.FullReporter
/-!
# Reports that overflow

A report has no outcome when arithmetic leaves the range of decimals. A window report overflows in the first listing
whose fees or figures do, provided that all listings before it and its own balances came through, or in the mean of
the returns (`overflows_windowReport_iff`). A full report overflows in the first run whose row does
(`compute_overflows_iff`).
-/

namespace TradeReport

namespace Market

variable {σ : Type} {market : Market σ} {scope : String} {start : Int} {before : Elapsed σ}

/-- The fees of a listing, or its figures, leave the range. -/
def FiguresOverflow (market : Market σ) (start : Int) (listing : Listing) (fills : List Fill)
    (holdings : Snapshot) : Prop :=
  (∃ cause, market.pricing listing.symbol fills = .error (.overflow cause)) ∨
    ∃ pricing cause, market.pricing listing.symbol fills = .ok pricing ∧
      Performance.calculate market.derivatives listing fills holdings (Int64.ofInt start) pricing
        = .error (.overflow cause)

/-- A listing overflows after all listings before it were resolved. -/
def GroupOverflows (market : Market σ) (start : Int) (groups : List (Listing × List Fill))
    (before : Elapsed σ) : Prop :=
  ∃ earlier listing fills later entries between holdings fetched,
    groups = earlier ++ (listing, fills) :: later ∧
      (earlier.mapM (market.resolve start)).Gives before entries between ∧
      (market.fetch listing.market).Gives between holdings fetched ∧
      market.FiguresOverflow start listing fills holdings

/-- All listings are resolved, and the mean of their returns overflows. -/
def MeanOverflows (market : Market σ) (start : Int) (groups : List (Listing × List Fill))
    (before : Elapsed σ) : Prop :=
  ∃ entries after cause, (groups.mapM (market.resolve start)).Gives before entries after ∧
    Decimal.mean? (entries.filterMap (·.returnRatio)) = .error cause

def WindowOverflows (market : Market σ) (scope : String) (start : Int) (before : Elapsed σ) : Prop :=
  ∃ fills, market.source.tradesSince start (some scope) none = .ok fills ∧
    (market.GroupOverflows start (groupByListing fills).entries before ∨
      market.MeanOverflows start (groupByListing fills).entries before)

/-- What becomes of a reply that took some time. -/
def received (market : Market σ) (name : String) (reply : BalanceReply) : Reporting σ Snapshot :=
  if reply.delay > market.timeout then
    Reporting.fail (.networkTimeout name (market.timeout * nanosPerMilli))
  else
    match reply.outcome with
    | .ok holdings => pure holdings
    | .error cause => Reporting.fail (.balanceUnavailable name cause)

theorem runFrom_fetch {name : String} {reply : BalanceReply} {state : σ}
    (hreply : (market.balances name).run before.state = (reply, state)) :
    (market.fetch name).runFrom before
      = (market.received name reply).runFrom ⟨state, before.clock + min reply.delay market.timeout⟩ := by
  have hget : (get : Reporting σ (Elapsed σ)).runFrom before = (.ok before, before) := rfl
  rw [fetch, Reporting.runFrom_bind, hget]
  dsimp only
  rw [hreply]
  rfl

theorem fetch_cases (market : Market σ) (name : String) (before : Elapsed σ) :
    ∃ after, (∃ holdings, (market.fetch name).Gives before holdings after) ∨
      ∃ error, error ≠ .serviceStopped ∧ (market.fetch name).Interrupted before (.error error) after := by
  rcases hreply : (market.balances name).run before.state with ⟨reply, state⟩
  refine ⟨⟨state, before.clock + min reply.delay market.timeout⟩, ?_⟩
  unfold Reporting.Gives Reporting.Interrupted
  rw [runFrom_fetch hreply, received]
  split
  · exact .inr ⟨_, by simp, rfl⟩
  · cases reply.outcome with
    | ok holdings => exact .inl ⟨holdings, rfl⟩
    | error cause => exact .inr ⟨_, by simp, rfl⟩

theorem not_overflows_fetch {name : String} : ¬(market.fetch name).Overflows before := by
  intro h
  obtain ⟨cause, after, h⟩ := h
  obtain ⟨after', ⟨holdings, hgives⟩ | ⟨error, -, herror⟩⟩ := fetch_cases market name before
  · cases h.symm.trans hgives
  · cases h.symm.trans herror

theorem neverStopped_fetch {name : String} : (market.fetch name).NeverStopped := by
  intro before after h
  obtain ⟨after', ⟨holdings, hgives⟩ | ⟨error, hne, herror⟩⟩ := fetch_cases market name before
  · cases h.symm.trans hgives
  · cases h.symm.trans herror
    exact hne rfl

theorem overflows_resolve_iff {listing : Listing} {fills : List Fill} :
    (market.resolve start (listing, fills)).Overflows before ↔
      ∃ holdings fetched, (market.fetch listing.market).Gives before holdings fetched ∧
        market.FiguresOverflow start listing fills holdings := by
  rw [resolve, Reporting.overflows_bind_iff]
  constructor
  · intro h
    rcases h with h | ⟨holdings, fetched, hfetch, h⟩
    · exact absurd h not_overflows_fetch
    · refine ⟨holdings, fetched, hfetch, ?_⟩
      rcases Reporting.overflows_bind_iff.1 h with h | ⟨pricing, _, hpricing, h⟩
      · exact .inl (Reporting.overflows_ofCalculation_iff.1 h)
      · obtain ⟨cause, hcause⟩ := Reporting.overflows_ofCalculation_iff.1 h
        exact .inr ⟨pricing, cause, (Reporting.gives_ofCalculation_iff.1 hpricing).1, hcause⟩
  · intro h
    obtain ⟨holdings, fetched, hfetch, h⟩ := h
    refine .inr ⟨holdings, fetched, hfetch, Reporting.overflows_bind_iff.2 ?_⟩
    rcases h with ⟨cause, hcause⟩ | ⟨pricing, cause, hpricing, hcause⟩
    · exact .inl (Reporting.overflows_ofCalculation_iff.2 ⟨cause, hcause⟩)
    · exact .inr ⟨pricing, fetched, Reporting.gives_ofCalculation_iff.2 ⟨hpricing, rfl⟩,
        Reporting.overflows_ofCalculation_iff.2 ⟨cause, hcause⟩⟩

theorem neverStopped_resolve (group : Listing × List Fill) : (market.resolve start group).NeverStopped :=
  Reporting.neverStopped_bind neverStopped_fetch fun _ =>
    Reporting.neverStopped_bind Reporting.neverStopped_ofCalculation fun _ => Reporting.neverStopped_ofCalculation

theorem overflows_groups_iff {groups : List (Listing × List Fill)} :
    (groups.mapM (market.resolve start)).Overflows before ↔ market.GroupOverflows start groups before := by
  rw [Reporting.overflows_mapM_iff]
  constructor
  · intro h
    obtain ⟨earlier, ⟨listing, fills⟩, later, entries, between, hgroups, hearlier, hgroup⟩ := h
    obtain ⟨holdings, fetched, hfetch, hfigures⟩ := overflows_resolve_iff.1 hgroup
    exact ⟨earlier, listing, fills, later, entries, between, holdings, fetched, hgroups, hearlier, hfetch,
      hfigures⟩
  · intro h
    obtain ⟨earlier, listing, fills, later, entries, between, holdings, fetched, hgroups, hearlier, hfetch,
      hfigures⟩ := h
    exact ⟨earlier, (listing, fills), later, entries, between, hgroups, hearlier,
      overflows_resolve_iff.2 ⟨holdings, fetched, hfetch, hfigures⟩⟩

/-- The mean overflows in a report exactly when it does over the entries as they were resolved. -/
theorem overflows_mean_iff {fills : List Fill} {window : Window} :
    (∃ entries after, ((groupByListing fills).entries.mapM (market.resolve start)).Gives before entries after ∧
        (Reporting.ofArithmetic (WindowReport.ofMarkets window entries) : Reporting σ WindowReport).Overflows after)
      ↔ market.MeanOverflows start (groupByListing fills).entries before := by
  have hmean : ∀ entries, WindowReport.Computed (groupByListing fills).entries entries →
      ((∃ cause, WindowReport.ofMarkets window entries = .error cause) ↔
        ∃ cause, Decimal.mean? (entries.filterMap (·.returnRatio)) = .error cause) := by
    intro entries hentries
    rw [WindowReport.ofMarkets_of_computed hentries]
    cases Decimal.mean? (entries.filterMap (·.returnRatio)) with
    | error cause => exact ⟨fun _ => ⟨cause, rfl⟩, fun _ => ⟨cause, rfl⟩⟩
    | ok mean =>
      constructor
      · intro h
        obtain ⟨_, h⟩ := h
        cases h
      · intro h
        obtain ⟨_, h⟩ := h
        cases h
  constructor
  · intro h
    obtain ⟨entries, after, hentries, h⟩ := h
    obtain ⟨cause, hcause⟩ := (hmean entries (computed_of_mapM hentries)).1
      (Reporting.overflows_ofArithmetic_iff.1 h)
    exact ⟨entries, after, cause, hentries, hcause⟩
  · intro h
    obtain ⟨entries, after, cause, hentries, hcause⟩ := h
    exact ⟨entries, after, hentries, Reporting.overflows_ofArithmetic_iff.2
      ((hmean entries (computed_of_mapM hentries)).2 ⟨cause, hcause⟩)⟩

/-- A window report overflows in a listing or in the mean of the returns. -/
theorem overflows_windowReport_iff :
    (market.windowReport (some scope) start).Overflows before ↔ market.WindowOverflows scope start before := by
  rw [windowReport, Reporting.overflows_bind_iff]
  constructor
  · intro h
    rcases h with h | ⟨fills, between, hfills, h⟩
    · exact absurd h Reporting.not_overflows_ofSource
    · obtain ⟨hsince, rfl⟩ := Reporting.gives_ofSource_iff.1 hfills
      refine ⟨fills, hsince, ?_⟩
      dsimp only at h
      split at h
      · exact absurd h Reporting.not_overflows_fail
      · rcases Reporting.overflows_bind_iff.1 h with h | h
        · exact .inl (overflows_groups_iff.1 h)
        · exact .inr (overflows_mean_iff.1 h)
  · intro h
    obtain ⟨fills, hfills, h⟩ := h
    refine .inr ⟨fills, before, Reporting.gives_ofSource_iff.2 ⟨hfills, rfl⟩, ?_⟩
    dsimp only
    split
    · rename_i hempty
      have hnone : (groupByListing fills).entries = [] := List.isEmpty_iff.1 hempty
      rw [hnone] at h
      rcases h with ⟨earlier, _, _, later, _, _, _, _, hgroups, -⟩ | ⟨entries, _, cause, hentries, hcause⟩
      · exact absurd hgroups (by simp)
      · rw [List.mapM_nil, Reporting.gives_pure_iff] at hentries
        rw [← hentries.1] at hcause
        cases hcause
    · rcases h with h | h
      · exact Reporting.overflows_bind_iff.2 (.inl (overflows_groups_iff.2 h))
      · exact Reporting.overflows_bind_iff.2 (.inr (overflows_mean_iff.2 h))

theorem neverStopped_windowReport (scope : Option String) : (market.windowReport scope start).NeverStopped := by
  cases scope with
  | none => exact Reporting.neverStopped_fail (by simp)
  | some scope =>
    refine Reporting.neverStopped_bind Reporting.neverStopped_ofSource fun fills => ?_
    dsimp only
    split
    · exact Reporting.neverStopped_fail (by simp)
    · exact Reporting.neverStopped_bind (Reporting.neverStopped_mapM neverStopped_resolve _) fun _ =>
        Reporting.neverStopped_ofArithmetic

end Market

/-! ## The full report -/

namespace FullReport

variable {source : TradeSource} {window : Window}

/-- The row of a run overflows after all rows before it were made. -/
def RowOverflows (source : TradeSource) (groups : List (String × List Fill)) : Prop :=
  ∃ earlier run fills later bounds cause, groups = earlier ++ (run, fills) :: later ∧
    (∀ group ∈ earlier, ∃ row, row? source group = .ok (.ok row)) ∧ source.balanceBounds run = .ok bounds ∧
    PortfolioRow.compute run fills bounds = .error (.overflow cause)

/-- The log can be read and has something to report, and a row overflows. -/
def Overflows (source : TradeSource) : Prop :=
  ∃ strategies markets grouped fills, source.distinctStrategies = .ok strategies ∧
    source.distinctMarkets = .ok markets ∧ source.strategiesByMarket = .ok grouped ∧
    strategies ≠ [] ∧ markets ≠ [] ∧ grouped.isEmpty = false ∧ source.allTrades = .ok fills ∧
    RowOverflows source (groupByStrategy fills).entries

theorem row?_of_bounds {run : String} {fills : List Fill} {bounds : Option BalanceBounds}
    (h : source.balanceBounds run = .ok bounds) :
    row? source (run, fills)
      = match PortfolioRow.compute run fills bounds with
        | .ok row => .ok (.ok (some row))
        | .error (.overflow cause) => .ok (.error cause)
        | .error _ => .ok (.ok none) := by
  rw [row?, asking, h]
  rfl

theorem row?_of_fault {run : String} {fills : List Fill} {fault : Fault}
    (h : source.balanceBounds run = .error fault) : ∃ fault, row? source (run, fills) = .error fault := by
  rw [row?, asking, h]
  exact ⟨_, rfl⟩

theorem row?_overflows_iff {run : String} {fills : List Fill} :
    (∃ cause, row? source (run, fills) = .ok (.error cause)) ↔
      ∃ bounds cause, source.balanceBounds run = .ok bounds ∧
        PortfolioRow.compute run fills bounds = .error (.overflow cause) := by
  cases hbounds : source.balanceBounds run with
  | error fault =>
    obtain ⟨fault', hfault⟩ : ∃ fault', row? source (run, fills) = .error fault' := row?_of_fault hbounds
    rw [hfault]
    simp
  | ok bounds =>
    rw [row?_of_bounds hbounds]
    rcases hrow : PortfolioRow.compute run fills bounds with (_ | symbol | cause) | row
    · simp [hrow]
    · simp [hrow]
    · simp [hrow]
    · simp [hrow]

private theorem rows_cons_eq_error_iff {group : String × List Fill} {rest : List (String × List Fill)}
    {cause : Overflow} :
    rows source (group :: rest) = .ok (.error cause) ↔
      row? source group = .ok (.error cause) ∨
        ∃ row, row? source group = .ok (.ok row) ∧ rows source rest = .ok (.error cause) := by
  rw [rows, bind_eq_ok]
  constructor
  · intro h
    obtain ⟨made, hmade, h⟩ := h
    cases made with
    | error other =>
      obtain rfl : other = cause := Except.error.inj (pure_eq_ok.1 h)
      exact .inl hmade
    | ok row =>
      obtain ⟨more, hmore, h⟩ := bind_eq_ok.1 h
      cases more with
      | error other =>
        obtain rfl : other = cause := Except.error.inj (pure_eq_ok.1 h)
        exact .inr ⟨row, hmade, hmore⟩
      | ok rows => cases pure_eq_ok.1 h
  · intro h
    rcases h with hmade | ⟨row, hmade, hmore⟩
    · exact ⟨_, hmade, rfl⟩
    · exact ⟨_, hmade, bind_eq_ok.2 ⟨_, hmore, rfl⟩⟩

theorem rows_overflows_iff {groups : List (String × List Fill)} :
    (∃ cause, rows source groups = .ok (.error cause)) ↔ RowOverflows source groups := by
  induction groups with
  | nil =>
    constructor
    · intro h
      obtain ⟨_, h⟩ := h
      cases h
    · intro h
      obtain ⟨earlier, _, _, later, _, _, hgroups, -⟩ := h
      exact absurd hgroups (by simp)
  | cons group rest ih =>
    simp only [rows_cons_eq_error_iff]
    constructor
    · intro h
      obtain ⟨cause, hmade | ⟨row, hrow, hmore⟩⟩ := h
      · obtain ⟨run, fills⟩ := group
        obtain ⟨bounds, other, hbounds, hcompute⟩ := row?_overflows_iff.1 ⟨cause, hmade⟩
        exact ⟨[], run, fills, rest, bounds, other, rfl, by simp, hbounds, hcompute⟩
      · obtain ⟨earlier, run, fills, later, bounds, other, rfl, hearlier, hbounds, hcompute⟩ := ih.1 ⟨cause, hmore⟩
        exact ⟨group :: earlier, run, fills, later, bounds, other, rfl,
          List.forall_mem_cons.2 ⟨⟨row, hrow⟩, hearlier⟩, hbounds, hcompute⟩
    · intro h
      obtain ⟨earlier, run, fills, later, bounds, other, hgroups, hearlier, hbounds, hcompute⟩ := h
      cases earlier with
      | nil =>
        rw [List.nil_append, List.cons.injEq] at hgroups
        obtain ⟨cause, hmade⟩ := row?_overflows_iff.2 ⟨bounds, other, hbounds, hcompute⟩
        rw [hgroups.1]
        exact ⟨cause, .inl hmade⟩
      | cons first earlier =>
        rw [List.cons_append, List.cons.injEq] at hgroups
        obtain ⟨rfl, rfl⟩ := hgroups
        rw [List.forall_mem_cons] at hearlier
        obtain ⟨row, hrow⟩ := hearlier.1
        obtain ⟨cause, hmore⟩ := ih.2 ⟨earlier, run, fills, later, bounds, other, rfl, hearlier.2, hbounds, hcompute⟩
        exact ⟨cause, .inr ⟨row, hrow, hmore⟩⟩

theorem assemble_eq_ok_iff {report : Except Overflow FullReport} :
    assemble source window = .ok report ↔
      ∃ strategies markets grouped, source.distinctStrategies = .ok strategies ∧
        source.distinctMarkets = .ok markets ∧ source.strategiesByMarket = .ok grouped ∧
        if strategies.isEmpty || markets.isEmpty || grouped.isEmpty then
          .ok (.failed .noHistoricalData) = report
        else
          ∃ fills made, source.allTrades = .ok fills ∧ rows source (groupByStrategy fills).entries = .ok made ∧
            made.map (fun rows => .aggregated ⟨window, rows, strategies, markets, grouped⟩) = report := by
  unfold assemble asking
  simp only [bind_eq_ok, mapError_eq_ok]
  constructor
  · intro h
    obtain ⟨strategies, hstrategies, markets, hmarkets, grouped, hgrouped, h⟩ := h
    refine ⟨strategies, markets, grouped, hstrategies, hmarkets, hgrouped, ?_⟩
    split at h
    · rename_i hempty
      rw [if_pos hempty]
      exact pure_eq_ok.1 h
    · rename_i hempty
      rw [if_neg hempty]
      obtain ⟨fills, hfills, h⟩ := bind_eq_ok.1 h
      obtain ⟨made, hmade, h⟩ := bind_eq_ok.1 h
      exact ⟨fills, made, mapError_eq_ok.1 hfills, hmade, pure_eq_ok.1 h⟩
  · intro h
    obtain ⟨strategies, markets, grouped, hstrategies, hmarkets, hgrouped, h⟩ := h
    refine ⟨strategies, hstrategies, markets, hmarkets, grouped, hgrouped, ?_⟩
    split
    · rename_i hempty
      rw [if_pos hempty] at h
      exact pure_eq_ok.2 h
    · rename_i hempty
      rw [if_neg hempty] at h
      obtain ⟨fills, made, hfills, hmade, h⟩ := h
      exact bind_eq_ok.2 ⟨fills, mapError_eq_ok.2 hfills, bind_eq_ok.2 ⟨made, hmade, pure_eq_ok.2 h⟩⟩

theorem compute_overflows_iff : (∃ cause, compute source window = .error cause) ↔ Overflows source := by
  have hassemble : (∃ cause, compute source window = .error cause) ↔
      ∃ cause, assemble source window = .ok (.error cause) := by
    unfold compute
    cases assemble source window with
    | error fault => simp
    | ok report => simp
  rw [hassemble]
  simp only [assemble_eq_ok_iff]
  constructor
  · intro h
    obtain ⟨cause, strategies, markets, grouped, hstrategies, hmarkets, hgrouped, h⟩ := h
    split at h
    · cases h
    · rename_i hempty
      obtain ⟨fills, made, hfills, hmade, h⟩ := h
      simp only [Bool.or_eq_true, not_or, List.isEmpty_iff, Bool.not_eq_true] at hempty
      obtain ⟨⟨hstrategies', hmarkets'⟩, hgrouped'⟩ := hempty
      refine ⟨strategies, markets, grouped, fills, hstrategies, hmarkets, hgrouped, hstrategies', hmarkets',
        hgrouped', hfills, rows_overflows_iff.1 ?_⟩
      cases made with
      | error other => exact ⟨other, hmade⟩
      | ok rows => cases h
  · intro h
    obtain ⟨strategies, markets, grouped, fills, hstrategies, hmarkets, hgrouped, hstrategies', hmarkets',
      hgrouped', hfills, hrows⟩ := h
    obtain ⟨cause, hcause⟩ := rows_overflows_iff.2 hrows
    refine ⟨cause, strategies, markets, grouped, hstrategies, hmarkets, hgrouped, ?_⟩
    rw [if_neg (by simp [hstrategies', hmarkets', hgrouped'])]
    exact ⟨fills, .error cause, hfills, hcause, rfl⟩

/-- A failed report of its own tells another error than that of a stopped service, or tells a trace. -/
theorem compute_ne_stopped :
    compute source window ≠ .ok (.failed ⟨ReportError.serviceStopped.message, none⟩) := by
  have hnone : ReportFailure.noHistoricalData ≠ ⟨ReportError.serviceStopped.message, none⟩ := by decide +kernel
  intro h
  unfold compute at h
  cases hassemble : assemble source window with
  | error fault =>
    rw [hassemble] at h
    have htrace := congrArg ReportFailure.trace (FullReport.failed.inj (Except.ok.inj h))
    cases htrace
  | ok report =>
    rw [hassemble] at h
    dsimp only at h
    obtain ⟨strategies, markets, grouped, -, -, -, hreport⟩ := assemble_eq_ok_iff.1 hassemble
    by_cases hempty : (strategies.isEmpty || markets.isEmpty || grouped.isEmpty) = true
    · rw [if_pos hempty] at hreport
      exact hnone (FullReport.failed.inj (Except.ok.inj (hreport.trans h)))
    · rw [if_neg hempty] at hreport
      obtain ⟨fills, made, -, -, hmade⟩ := hreport
      rw [← hmade] at h
      cases made with
      | error cause => cases h
      | ok rows => cases h

end FullReport

end TradeReport
