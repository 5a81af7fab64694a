import TradeReport.Proofs.Service.Session
/-!
# Readings of the averaged return

The gauge of a run shows the last reading for it (`gauge_after_start`). A window report that succeeds is a reading, and
so is every check of profitability, also one that fails: it reads that there is no figure, and so clears the gauge.
Nothing else changes what is shown for a run.
-/

namespace TradeReport

namespace Request

def scope? : Request → Option String
  | .window scope _ => scope
  | .profitability scope _ => scope
  | .recentTrades scope _ _ => scope
  | .full _ => none

end Request

namespace Reply

/-- What an answer reads for a run: the averaged return of a window report, or what a check of profitability came to,
which is nothing when it failed. -/
def reading? (scope : String) : Reply → Option Figure
  | ⟨.window (some run) _, .ok report⟩ => if run = scope then some report.averageReturn else none
  | ⟨.profitability (some run) _, .ok figure⟩ => if run = scope then some figure else none
  | ⟨.profitability (some run) _, .error _⟩ => if run = scope then some none else none
  | _ => none

/-- An answer that reads nothing for a run: it is a window report that failed, a list of trades or a full report, or it
is not for the run. -/
inductive IsSilent (scope : String) : Reply → Prop where
  | failedWindow (run : Option String) (start : ℤ) (error : ReportError) :
    IsSilent scope ⟨.window run start, .error error⟩
  | recentTrades (run : Option String) (start : ℤ) (maxRows : ℕ) (result : Except ReportError RecentTrades) :
    IsSilent scope ⟨.recentTrades run start maxRows, result⟩
  | full (start : ℤ) (report : FullReport) : IsSilent scope ⟨.full start, report⟩
  | elsewhere (reply : Reply) (h : reply.request.scope? ≠ some scope) : IsSilent scope reply

variable {scope : String} {reply : Reply}

private theorem filterMap_reading?_activities (latency : Nanoseconds) (scope : String) (reply : Reply) :
    (reply.request.activities latency reply.answer).filterMap (Activity.reading? scope)
      = (reply.reading? scope).toList := by
  obtain ⟨request, answer⟩ := reply
  cases request with
  | window run start =>
    cases run with
    | none => cases answer <;> rfl
    | some run =>
      cases answer with
      | error error => rfl
      | ok report => by_cases hrun : run = scope <;> simp [Request.activities, Activity.reading?, reading?, hrun,
          Request.ending]
  | profitability run start =>
    cases run with
    | none => cases answer <;> rfl
    | some run =>
      cases answer <;> by_cases hrun : run = scope <;> simp [Request.activities, Activity.reading?, reading?, hrun,
        Request.ending, Except.toOption]
  | recentTrades run start maxRows => cases answer <;> rfl
  | full start => cases answer <;> rfl

theorem IsSilent.reading?_eq_none (h : reply.IsSilent scope) : reply.reading? scope = none := by
  cases h with
  | failedWindow run start error => cases run <;> rfl
  | recentTrades run start maxRows result => rfl
  | full start report => rfl
  | elsewhere _ h =>
    obtain ⟨request, answer⟩ := reply
    cases request with
    | window run start =>
      cases run with
      | none => rfl
      | some run =>
        have hne : run ≠ scope := fun hsame => h (congrArg some hsame)
        cases answer with
        | error error => rfl
        | ok report => rw [reading?, if_neg hne]
    | profitability run start =>
      cases run with
      | none => rfl
      | some run =>
        have hne : run ≠ scope := fun hsame => h (congrArg some hsame)
        cases answer <;> rw [reading?, if_neg hne]
    | recentTrades run start maxRows => rfl
    | full start => rfl

end Reply

namespace Service

variable {σ : Type} {service : Service σ} {asked : Market σ × Request} {scope : String}

/-- The reply of a service that handles the request, which a stopped service does not. -/
def handledBy? (service : Service σ) (asked : Market σ × Request) : Option Reply :=
  if service.running then ((asked.2.answer asked.1).run service.elapsed).1.toOption.map (Reply.mk asked.2) else none

def handled : Service σ → List (Market σ × Request) → List Reply
  | _, [] => []
  | service, asked :: rest => (service.handledBy? asked).toList ++ (service.next asked).handled rest

/-- A request that is handled is told, and another is not. -/
theorem exists_registry_next (service : Service σ) (asked : Market σ × Request) :
    ∃ latency, (service.next asked).registry
      = ((service.handledBy? asked).elim [] fun reply => reply.request.activities latency reply.answer).foldl
          MetricsRegistry.record service.registry := by
  rw [handledBy?, next, submit_eq]
  by_cases hrunning : service.running = true
  · rw [if_pos hrunning, if_pos hrunning]
    rcases hrun : (asked.2.answer asked.1).run service.elapsed with ⟨cause | answer, elapsed⟩
    · exact ⟨0, rfl⟩
    · exact ⟨_, registry_tell _ _⟩
  · rw [if_neg hrunning, if_neg hrunning]
    exact ⟨0, rfl⟩

private theorem gauge_next (service : Service σ) (asked : Market σ × Request) (scope : String) :
    (service.next asked).registry.gauge scope
      = ((service.handledBy? asked).bind (·.reading? scope)).elim (service.registry.gauge scope)
          (·.map Binary64.ofDecimal) := by
  obtain ⟨latency, hregistry⟩ := exists_registry_next service asked
  rw [hregistry, MetricsRegistry.gauge_foldl_record]
  cases service.handledBy? asked with
  | none => rfl
  | some reply =>
    rw [Option.elim_some, Reply.filterMap_reading?_activities, Option.bind_some]
    cases reply.reading? scope <;> rfl

theorem gauge_after (service : Service σ) (session : List (Market σ × Request)) (scope : String) :
    (service.after session).registry.gauge scope
      = (((service.handled session).filterMap (·.reading? scope)).getLast?).elim (service.registry.gauge scope)
          (·.map Binary64.ofDecimal) := by
  induction session generalizing service with
  | nil => rfl
  | cons asked rest ih =>
    have hrest := ih (service.next asked)
    rw [gauge_next] at hrest
    refine hrest.trans ?_
    rw [handled, List.filterMap_append, List.getLast?_append]
    cases ((service.next asked).handled rest).filterMap (·.reading? scope) |>.getLast? with
    | some reading => rfl
    | none =>
      cases service.handledBy? asked with
      | none => rfl
      | some reply =>
        cases hreading : reply.reading? scope <;> simp [hreading]

/-- After any session, what is shown for a run is its last reading: there is a figure exactly when there was one in
that reading. An answer that reads nothing for the run leaves what is shown for it. -/
theorem gauge_after_start (balances : σ) (session : List (Market σ × Request)) (scope : String) :
    ((start balances).after session).registry.gauge scope
        = (((start balances).handled session).filterMap (·.reading? scope)).getLast?.join.map Binary64.ofDecimal ∧
      ∀ earlier asked later reply, session = earlier ++ asked :: later →
        ((start balances).after earlier).handledBy? asked = some reply → reply.IsSilent scope →
        ((start balances).after (earlier ++ [asked])).registry.gauge scope
          = ((start balances).after earlier).registry.gauge scope := by
  constructor
  · rw [gauge_after]
    cases (((start balances).handled session).filterMap (·.reading? scope)).getLast? <;> rfl
  · intro earlier asked later reply _ hreply hsilent
    rw [after, List.foldl_append, List.foldl_cons, List.foldl_nil, ← after, gauge_next, hreply, Option.bind_some,
      hsilent.reading?_eq_none]
    rfl

end Service

end TradeReport
