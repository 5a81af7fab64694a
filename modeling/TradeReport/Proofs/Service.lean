import TradeReport.Proofs.Overflow
import TradeReport.Service
/-!
# What stops the report service

A running service answers each request with an outcome of the request's own, and takes the next one, exactly as
long as no report overflows (`all_served_iff`). An overflow is the only way to the answer of a stopped service, and
there is no way back. Records that the log accepts can overflow (`not_all_served`).
-/

namespace TradeReport

variable {σ : Type} {market : Market σ} {request : Request} {before : Elapsed σ}

namespace Market

variable {start : Int} {maxRows : Nat}

theorem overflows_profitability_iff (scope : Option String) :
    (market.profitability scope start).Overflows before ↔ (market.windowReport scope start).Overflows before := by
  rw [profitability, Reporting.overflows_bind_iff]
  constructor
  · intro h
    rcases h with h | ⟨report, between, -, h⟩
    · exact h
    · exact absurd h Reporting.not_overflows_pure
  · exact .inl

theorem neverStopped_profitability (scope : Option String) : (market.profitability scope start).NeverStopped :=
  Reporting.neverStopped_bind (neverStopped_windowReport scope) fun _ => Reporting.neverStopped_pure

theorem not_overflows_recentTrades (scope : Option String) :
    ¬(market.recentTrades scope start maxRows).Overflows before := by
  cases scope with
  | none => exact Reporting.not_overflows_fail
  | some scope =>
    rw [recentTrades, Reporting.overflows_bind_iff]
    intro h
    rcases h with h | ⟨fills, between, -, h⟩
    · exact Reporting.not_overflows_ofSource h
    · exact Reporting.not_overflows_pure h

theorem neverStopped_recentTrades (scope : Option String) :
    (market.recentTrades scope start maxRows).NeverStopped := by
  cases scope with
  | none => exact Reporting.neverStopped_fail (by simp)
  | some scope =>
    exact Reporting.neverStopped_bind Reporting.neverStopped_ofSource fun _ => Reporting.neverStopped_pure

end Market

namespace Request

/-- The report that a request asks for leaves the range of decimals. Recent trades are listed as they are. -/
def Overflows (market : Market σ) (before : Elapsed σ) : Request → Prop
  | .window scope start => ∃ run ∈ scope, market.WindowOverflows run start before
  | .profitability scope start => ∃ run ∈ scope, market.WindowOverflows run start before
  | .recentTrades .. => False
  | .full _ => FullReport.Overflows market.source

theorem overflows_windowReport_iff (scope : Option String) (start : Int) :
    (market.windowReport scope start).Overflows before ↔
      ∃ run ∈ scope, market.WindowOverflows run start before := by
  cases scope with
  | none =>
    constructor
    · exact fun h => absurd h Reporting.not_overflows_fail
    · intro h
      obtain ⟨_, h, -⟩ := h
      cases h
  | some run =>
    rw [Market.overflows_windowReport_iff]
    simp

/-- A request has no answer exactly when its report overflows. -/
theorem answer_overflows_iff :
    (∃ cause after, (request.answer market).run before = (.error cause, after)) ↔
      request.Overflows market before := by
  cases request with
  | window scope start => exact Reporting.settled_overflows_iff.trans (overflows_windowReport_iff scope start)
  | profitability scope start =>
    exact Reporting.settled_overflows_iff.trans
      ((Market.overflows_profitability_iff scope).trans (overflows_windowReport_iff scope start))
  | recentTrades scope start maxRows =>
    exact Reporting.settled_overflows_iff.trans
      ⟨fun h => absurd h (Market.not_overflows_recentTrades scope), False.elim⟩
  | full start =>
    have hcompute : (∃ cause, FullReport.compute market.source ⟨start, market.now⟩ = .error cause) ↔
        FullReport.Overflows market.source := FullReport.compute_overflows_iff
    rw [Overflows, ← hcompute]
    constructor
    · intro h
      obtain ⟨cause, after, h⟩ := h
      exact ⟨cause, congrArg Prod.fst h⟩
    · intro h
      obtain ⟨cause, h⟩ := h
      exact ⟨cause, before, congrArg (·, before) h⟩

theorem answer_ne_stopped (after : Elapsed σ) :
    (request.answer market).run before ≠ (.ok request.stopped, after) := by
  cases request with
  | window scope start => exact Reporting.settled_ne_stopped (Market.neverStopped_windowReport scope) after
  | profitability scope start =>
    exact Reporting.settled_ne_stopped (Market.neverStopped_profitability scope) after
  | recentTrades scope start maxRows =>
    exact Reporting.settled_ne_stopped (Market.neverStopped_recentTrades scope) after
  | full start => exact fun h => FullReport.compute_ne_stopped (congrArg Prod.fst h)

end Request

namespace Service

variable {service : Service σ}

/-- What a request does to a service: nothing once it has stopped, and otherwise either the overflow stops it or the
answer is told. -/
theorem submit_eq (market : Market σ) (request : Request) (service : Service σ) :
    (submit market request).run service
      = if service.running = true then
          match (request.answer market).run service.elapsed with
          | (.error _, elapsed) => (request.stopped, { service with elapsed, running := false })
          | (.ok answer, elapsed) =>
            (answer, { service with elapsed }.tell (request.activities
              ((elapsed.clock - service.elapsed.clock) * nanosPerMilli) answer))
        else
          (request.stopped, service) := by
  by_cases hrunning : service.running = true
  · rw [if_pos hrunning]
    rcases hanswer : (request.answer market).run service.elapsed with ⟨cause | answer, elapsed⟩
    · simp only [submit, StateT.run_bind, StateT.run_get, pure_bind, hrunning, if_true, hanswer]
      rfl
    · simp only [submit, StateT.run_bind, StateT.run_get, pure_bind, hrunning, if_true, hanswer]
      rfl
  · rw [if_neg hrunning]
    simp only [submit, StateT.run_bind, StateT.run_get, pure_bind, if_neg hrunning]
    rfl

/-- The service after a request. -/
def next (service : Service σ) (asked : Market σ × Request) : Service σ :=
  ((submit asked.1 asked.2).run service).2

/-- The request is answered with an outcome of its own, and the service takes the next one. -/
def Serves (service : Service σ) (asked : Market σ × Request) : Prop :=
  ((submit asked.1 asked.2).run service).1 ≠ asked.2.stopped ∧ (service.next asked).running = true

/-- The service after a sequence of requests, each with the records and the time it is asked at. -/
def after (service : Service σ) (session : List (Market σ × Request)) : Service σ :=
  session.foldl next service

/-- One request is served exactly by a running service, and when its report does not overflow. -/
theorem serves_iff {asked : Market σ × Request} :
    service.Serves asked ↔ service.running = true ∧ ¬asked.2.Overflows asked.1 service.elapsed := by
  rw [← Request.answer_overflows_iff, Serves, next, submit_eq]
  by_cases hrunning : service.running = true
  · rw [if_pos hrunning]
    rcases hanswer : (asked.2.answer asked.1).run service.elapsed with ⟨cause | answer, elapsed⟩
    · constructor
      · intro h
        obtain ⟨-, h⟩ := h
        cases h
      · intro h
        obtain ⟨-, h⟩ := h
        exact absurd ⟨cause, elapsed, rfl⟩ h
    · constructor
      · rintro -
        refine ⟨hrunning, ?_⟩
        intro h
        obtain ⟨_, _, h⟩ := h
        cases h
      · rintro -
        refine ⟨fun hstopped => ?_, hrunning⟩
        rw [show answer = asked.2.stopped from hstopped] at hanswer
        exact Request.answer_ne_stopped elapsed hanswer
  · rw [if_neg hrunning]
    constructor
    · intro h
      obtain ⟨h, -⟩ := h
      exact absurd rfl h
    · intro h
      obtain ⟨h, -⟩ := h
      exact absurd h hrunning

/-- Each request of a sequence is served where it is asked. -/
def AllServed (service : Service σ) (session : List (Market σ × Request)) : Prop :=
  ∀ earlier asked later, session = earlier ++ asked :: later → (service.after earlier).Serves asked

def NoneOverflows (service : Service σ) (session : List (Market σ × Request)) : Prop :=
  ∀ earlier asked later, session = earlier ++ asked :: later →
    ¬asked.2.Overflows asked.1 (service.after earlier).elapsed

theorem running_after {session : List (Market σ × Request)} (hrunning : service.running = true)
    (h : service.NoneOverflows session) : (service.after session).running = true := by
  induction session generalizing service with
  | nil => exact hrunning
  | cons asked rest ih =>
    have hserves : service.Serves asked := serves_iff.2 ⟨hrunning, h [] asked rest rfl⟩
    refine ih hserves.2 fun earlier other later hrest => ?_
    exact h (asked :: earlier) other later (by rw [hrest, List.cons_append])

/-- A service that was started serves all requests of a sequence exactly when none of their reports overflows. -/
theorem all_served_iff (balances : σ) (session : List (Market σ × Request)) :
    (start balances).AllServed session ↔ (start balances).NoneOverflows session := by
  constructor
  · intro h earlier asked later hsession
    exact (serves_iff.1 (h earlier asked later hsession)).2
  · intro h earlier asked later hsession
    refine serves_iff.2 ⟨running_after rfl fun front other back hearlier => ?_, h earlier asked later hsession⟩
    exact h front other (back ++ asked :: later) (by rw [hsession, hearlier, List.append_assoc, List.cons_append])

/-! ## Records that stop a service -/

/-- Every line of a file is a fill, or every line is a balance. -/
def isLog : Content → Bool
  | .text text =>
    (Log.lines text).all (fun line => (Fill.ofLine? line).isSome)
      || (Log.lines text).all (fun line => (RecordedBalance.ofLine? line).isSome)
  | .binary _ => false

/-- The files of a store are logs that hold nothing but records. -/
def onlyRecords (store : Store) : Bool :=
  store.disk.nodes.entries.all fun entry =>
    match entry.2 with
    | .folder => true
    | .file content => isLog content

/-- A store with one purchase of 2 at the largest price there is. -/
def hugeStore : Store :=
  { disk := ⟨Table.ofList [(["data", "trades", "1970-01-01.jsonl"], .file (.ofText (
      "\x7b\"market\":\"venue\",\"symbol\":\"A-B\",\"strategy_id\":\"run\",\"side\":\"BUY\","
        ++ "\"price\":\"79228162514264337593543950335\",\"amount\":\"2\",\"timestamp\":1000\x7d\n")))]⟩
    home := "data" }

def hugeMarket : Market Unit :=
  ⟨hugeStore.source, .none, .paper Table.empty, .usual, 30000, 2000⟩

/-- A purchase that the log accepts stops the service: its notional is no decimal. -/
theorem not_all_served :
    ¬∀ (store : Store) (market : Market Unit) (requests : List Request), onlyRecords store = true →
      market.source = store.source → (start ()).AllServed (requests.map (market, ·)) := by
  intro h
  have hrecords : onlyRecords hugeStore = true := by
    rw [hugeStore, Content.ofText_append, String.toList_ofList, String.toList_ofList]
    decide +kernel
  have hserved := h hugeStore hugeMarket [.window (some "run") 0] hrecords rfl [] _ [] rfl
  have hstopped : ((start ()).next (hugeMarket, .window (some "run") 0)).running = false := by
    rw [hugeMarket, hugeStore, Content.ofText_append, String.toList_ofList, String.toList_ofList]
    decide +kernel
  exact absurd (hstopped.symm.trans hserved.2) (by decide)

end Service

end TradeReport
