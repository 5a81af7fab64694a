import TradeReport.Proofs.Metrics
import TradeReport.Proofs.Service
import TradeReport.Proofs.Store.Recording
/-!
# A session with the report service

The service is asked for reports while fills and balances are recorded, until it is told to stop. A request before the
shutdown is answered once, by the reporter that it is for and from the records as they are then, and raises one counter
by one. A request after the shutdown is refused, and nothing is counted (`serves_of_noneOverflows`). The counters of a
kind of report therefore add up to the requests of this kind that came before the shutdown.
-/

namespace TradeReport

/-! ## Answers of reporters -/

namespace Reporting

variable {σ α : Type} {before after : Elapsed σ}

/-- What is settled is the outcome of the action, whether it has a result or an error to report. -/
theorem settled_eq_ok_iff {action : Reporting σ α} {result : Except ReportError α} :
    action.settled.run before = (.ok result, after) ↔
      action.runFrom before = (result.mapError Interruption.error, after) := by
  rw [settled_eq]
  rcases action.runFrom before with ⟨(error | cause) | a, elapsed⟩ <;> cases result <;> constructor <;> intro h <;>
    cases h <;> rfl

end Reporting

namespace Request

variable {σ : Type}

/-- The reporter that a request is for comes to this answer. -/
def ReportedBy (market : Market σ) (before after : Elapsed σ) : (request : Request) → request.Answer → Prop
  | .window scope start, result =>
    (market.windowReport scope start).runFrom before = (result.mapError Interruption.error, after)
  | .profitability scope start, result =>
    (market.profitability scope start).runFrom before = (result.mapError Interruption.error, after)
  | .recentTrades scope start maxRows, result =>
    (market.recentTrades scope start maxRows).runFrom before = (result.mapError Interruption.error, after)
  | .full start, report =>
    FullReport.compute market.source ⟨start, market.now⟩ = .ok report ∧ after = before

theorem reportedBy_iff {market : Market σ} {before after : Elapsed σ} {request : Request} {answer : request.Answer} :
    request.ReportedBy market before after answer ↔ (request.answer market).run before = (.ok answer, after) := by
  cases request with
  | window scope start => exact Reporting.settled_eq_ok_iff.symm
  | profitability scope start => exact Reporting.settled_eq_ok_iff.symm
  | recentTrades scope start maxRows => exact Reporting.settled_eq_ok_iff.symm
  | full start =>
    constructor
    · rintro ⟨hreport, rfl⟩
      exact congrArg (·, after) hreport
    · intro h
      exact ⟨congrArg Prod.fst h, (congrArg Prod.snd h).symm⟩

private theorem exists_answer {market : Market σ} {before : Elapsed σ} {request : Request}
    (h : ¬request.Overflows market before) :
    ∃ answer after, (request.answer market).run before = (.ok answer, after) := by
  rcases hrun : (request.answer market).run before with ⟨cause | answer, after⟩
  · exact absurd (answer_overflows_iff.1 ⟨cause, after, hrun⟩) h
  · exact ⟨answer, after, rfl⟩

private theorem not_overflows_of_isSome {market : Market σ} {before : Elapsed σ} {request : Request}
    (h : ((request.answer market).run before).1.toOption.isSome = true) : ¬request.Overflows market before := by
  intro hoverflow
  obtain ⟨cause, after, hrun⟩ := answer_overflows_iff.2 hoverflow
  rw [hrun] at h
  cases h

/-- The counter of an outcome: that of its kind if it is a result, otherwise that of the reason for the error. -/
def counterOf {α : Type} (kind : ReportKind) : Except ReportError α → Counter
  | .ok _ => .completed kind
  | .error error => .failed kind error.reason

/-- The one counter that an answer raises. -/
def counter : (request : Request) → request.Answer → Counter
  | .window .., result => counterOf .window result
  | .profitability .., result => counterOf .profitability result
  | .recentTrades .., result => counterOf .recentTrades result
  | .full _, .aggregated _ => .completed .full
  | .full _, .failed _ => .failed .full "full_report_failed"

/-- An answer may tell a reading, and then tells how the request ended. -/
theorem exists_ending (latency : Nanoseconds) (request : Request) (answer : request.Answer) :
    ∃ readings last, request.activities latency answer = readings ++ [last] ∧
      (∀ activity ∈ readings, activity.counter? = none ∧ activity.ends? = none) ∧
      last.counter? = some (request.counter answer) ∧ last.ends? = some request.kind := by
  cases request with
  | window scope start =>
    cases scope with
    | none => cases answer <;> exact ⟨[], _, rfl, by simp, rfl, rfl⟩
    | some run =>
      cases answer with
      | error error => exact ⟨[], _, rfl, by simp, rfl, rfl⟩
      | ok report =>
        exact ⟨[.averageReturn run report.averageReturn], _, rfl, by simp [Activity.counter?, Activity.ends?], rfl, rfl⟩
  | profitability scope start =>
    cases scope with
    | none => cases answer <;> exact ⟨[], _, rfl, by simp, rfl, rfl⟩
    | some run =>
      cases answer <;>
        exact ⟨[.averageReturn run _], _, rfl, by simp [Activity.counter?, Activity.ends?], rfl, rfl⟩
  | recentTrades scope start maxRows => cases answer <;> exact ⟨[], _, rfl, by simp, rfl, rfl⟩
  | full start => cases answer <;> exact ⟨[], _, rfl, by simp, rfl, rfl⟩

private theorem filterMap_counter?_activities (latency : Nanoseconds) (request : Request) (answer : request.Answer) :
    (request.activities latency answer).filterMap Activity.counter? = [request.counter answer] := by
  obtain ⟨readings, last, hactivities, hreadings, hcounter, -⟩ := exists_ending latency request answer
  have hnone : readings.filterMap Activity.counter? = [] :=
    List.filterMap_eq_nil_iff.2 fun activity hactivity => (hreadings activity hactivity).1
  rw [hactivities, List.filterMap_append, hnone, List.nil_append, List.filterMap_cons_some hcounter]
  rfl

private theorem filterMap_ends?_activities (latency : Nanoseconds) (request : Request) (answer : request.Answer) :
    (request.activities latency answer).filterMap Activity.ends? = [request.kind] := by
  obtain ⟨readings, last, hactivities, hreadings, -, hends⟩ := exists_ending latency request answer
  have hnone : readings.filterMap Activity.ends? = [] :=
    List.filterMap_eq_nil_iff.2 fun activity hactivity => (hreadings activity hactivity).2
  rw [hactivities, List.filterMap_append, hnone, List.nil_append, List.filterMap_cons_some hends]
  rfl

end Request

namespace Service

variable {σ : Type}

def registry (service : Service σ) : MetricsRegistry :=
  .ofActivities service.told

theorem registry_tell (activities : List Activity) (service : Service σ) :
    (service.tell activities).registry = activities.foldl MetricsRegistry.record service.registry :=
  List.foldl_append

end Service

/-! ## Sessions -/

/-- The store after a balance was to be recorded, which leaves it as it was when that fails. -/
def Store.afterBalance (store : Store) (balance : RecordedBalance) : Store :=
  match store.recordBalance balance with
  | .ok after => after
  | .error _ => store

/-- What requests are answered from beside the records. -/
structure Desk (σ : Type) where
  oracle : Store → Oracle
  balances : Store → BalanceSource σ
  derivatives : DerivativeMarkets
  timeout : ℕ

def Desk.market {σ : Type} (desk : Desk σ) (store : Store) (now : ℤ) : Market σ :=
  { source := store.source
    oracle := desk.oracle store
    balances := desk.balances store
    derivatives := desk.derivatives
    timeout := desk.timeout
    now }

inductive Event where
  | ask (request : Request) (now : ℤ)
  | recordFill (fill : Fill)
  | recordBalance (balance : RecordedBalance)
  | shutdown
  deriving DecidableEq

/-- The event is a request for a kind of report. -/
def Event.asksFor (kind : ReportKind) : Event → Bool
  | ask request _ => request.kind = kind
  | _ => false

/-- An answer, with the request that it is for. -/
structure Reply where
  request : Request
  answer : request.Answer

/-- The records, and the service over them. -/
structure Office (σ : Type) where
  store : Store
  service : Service σ

namespace Office

open MetricsRegistry (endings)

variable {σ : Type} {desk : Desk σ} {office : Office σ} {event : Event} {earlier later events : List Event}
  {request : Request} {now : ℤ} {kind : ReportKind}

def opening (store : Store) (balances : σ) : Office σ :=
  ⟨store, .start balances⟩

def registry (office : Office σ) : MetricsRegistry :=
  office.service.registry

def next (desk : Desk σ) (office : Office σ) : Event → Office σ
  | .ask request now => { office with service := office.service.next (desk.market office.store now, request) }
  | .recordFill fill => { office with store := office.store.afterCall fill }
  | .recordBalance balance => { office with store := office.store.afterBalance balance }
  | .shutdown => { office with service := office.service.stop }

def after (desk : Desk σ) (office : Office σ) (events : List Event) : Office σ :=
  events.foldl (next desk) office

def replyTo? (desk : Desk σ) (office : Office σ) : Event → Option Reply
  | .ask request now => some ⟨request, ((Service.submit (desk.market office.store now) request).run office.service).1⟩
  | _ => none

def replies (desk : Desk σ) (office : Office σ) : List Event → List Reply
  | [] => []
  | event :: rest => (office.replyTo? desk event).toList ++ (office.next desk event).replies desk rest

/-- The request's report leaves the range of decimals. -/
def Overflows (desk : Desk σ) (office : Office σ) (request : Request) (now : ℤ) : Prop :=
  request.Overflows (desk.market office.store now) office.service.elapsed

def NoneOverflows (desk : Desk σ) (office : Office σ) (events : List Event) : Prop :=
  ∀ earlier request now later, events = earlier ++ .ask request now :: later → .shutdown ∉ earlier →
    ¬(office.after desk earlier).Overflows desk request now

theorem replies_append :
    office.replies desk (earlier ++ later)
      = office.replies desk earlier ++ (office.after desk earlier).replies desk later := by
  induction earlier generalizing office with
  | nil => rfl
  | cons event rest ih =>
    rw [List.cons_append, replies, ih, replies, List.append_assoc]
    rfl

theorem NoneOverflows.tail (h : office.NoneOverflows desk (event :: events)) (hevent : event ≠ .shutdown) :
    (office.next desk event).NoneOverflows desk events := by
  intro earlier request now later hevents hopen
  refine h (event :: earlier) request now later (by rw [hevents, List.cons_append]) ?_
  simpa [hevent.symm] using hopen

theorem NoneOverflows.cons (hhead : ∀ request now, event = .ask request now → ¬office.Overflows desk request now)
    (htail : event ≠ .shutdown → (office.next desk event).NoneOverflows desk events) :
    office.NoneOverflows desk (event :: events) := by
  intro earlier request now later hevents hopen
  cases earlier with
  | nil =>
    obtain ⟨rfl, rfl⟩ := List.cons.inj hevents
    exact hhead request now rfl
  | cons first earlier =>
    obtain ⟨rfl, rfl⟩ := List.cons.inj hevents
    rw [List.mem_cons, not_or] at hopen
    exact htail (Ne.symm hopen.1) earlier request now later rfl hopen.2

/-! ## One event -/

/-- A request is answered by its reporter, and raises the counter of the answer by one and no other. -/
structure Answers (desk : Desk σ) (office : Office σ) (request : Request) (now : ℤ) (answer : request.Answer) :
    Prop where
  reported : ∃ elapsed, request.ReportedBy (desk.market office.store now) office.service.elapsed elapsed answer
  counted : ∀ counter, (office.next desk (.ask request now)).registry.count counter
    = office.registry.count counter + if request.counter answer = counter then 1 else 0

/-- A request is refused, and no metric changes. -/
structure Refuses (desk : Desk σ) (office : Office σ) (request : Request) (now : ℤ) (answer : request.Answer) :
    Prop where
  stopped : answer = request.stopped
  registry : (office.next desk (.ask request now)).registry = office.registry

theorem exists_told (hrunning : office.service.running = true) (h : ¬office.Overflows desk request now) :
    ∃ answer elapsed latency,
      request.ReportedBy (desk.market office.store now) office.service.elapsed elapsed answer ∧
        office.replyTo? desk (.ask request now) = some ⟨request, answer⟩ ∧
        office.next desk (.ask request now) = { office with
          service := { office.service with elapsed }.tell (request.activities latency answer) } := by
  obtain ⟨answer, elapsed, hrun⟩ := Request.exists_answer h
  refine ⟨answer, elapsed, (elapsed.clock - office.service.elapsed.clock) * nanosPerMilli,
    Request.reportedBy_iff.2 hrun, ?_, ?_⟩
  · rw [replyTo?, Service.submit_eq, if_pos hrunning, hrun]
  · rw [next, Service.next, Service.submit_eq, if_pos hrunning, hrun]

private theorem exists_answers (hrunning : office.service.running = true) (h : ¬office.Overflows desk request now) :
    ∃ answer, office.replyTo? desk (.ask request now) = some ⟨request, answer⟩ ∧
      office.Answers desk request now answer := by
  obtain ⟨answer, elapsed, latency, hreported, hreply, hnext⟩ := exists_told hrunning h
  refine ⟨answer, hreply, ⟨elapsed, hreported⟩, fun counter => ?_⟩
  rw [hnext, registry, Service.registry_tell, MetricsRegistry.count_foldl_record, Request.filterMap_counter?_activities,
    List.count_singleton]
  simp only [beq_iff_eq]
  rfl

private theorem next_of_stopped (hstopped : office.service.running = false) :
    office.replyTo? desk (.ask request now) = some ⟨request, request.stopped⟩ ∧
      office.next desk (.ask request now) = office := by
  have hnot : ¬office.service.running = true := by simp [hstopped]
  rw [replyTo?, next, Service.next, Service.submit_eq, if_neg hnot]
  exact ⟨rfl, rfl⟩

private theorem running_next (hrunning : office.service.running = true) (hevent : event ≠ .shutdown)
    (h : office.NoneOverflows desk (event :: events)) : (office.next desk event).service.running = true := by
  cases event with
  | ask request now =>
    obtain ⟨answer, elapsed, latency, -, -, hnext⟩ := exists_told hrunning (h [] request now events rfl (by simp))
    rw [hnext]
    exact hrunning
  | recordFill fill => exact hrunning
  | recordBalance balance => exact hrunning
  | shutdown => exact absurd rfl hevent

/-- There is no way back from a stop, and nothing more is told. -/
theorem service_next_of_stopped (hstopped : office.service.running = false) :
    (office.next desk event).service = office.service := by
  cases event with
  | ask request now => rw [(next_of_stopped hstopped).2]
  | recordFill fill => rfl
  | recordBalance balance => rfl
  | shutdown => rw [next, Service.stop, ← hstopped]

theorem endings_next (hrunning : office.service.running = true) (h : office.NoneOverflows desk (event :: events)) :
    (office.next desk event).registry.endings kind
      = office.registry.endings kind + if event.asksFor kind then 1 else 0 := by
  cases event with
  | ask request now =>
    obtain ⟨answer, elapsed, latency, -, -, hnext⟩ := exists_told hrunning (h [] request now events rfl (by simp))
    rw [hnext, registry, Service.registry_tell, MetricsRegistry.endings_foldl_record,
      Request.filterMap_ends?_activities, List.count_singleton]
    simp only [Event.asksFor, beq_iff_eq, decide_eq_true_eq]
    rfl
  | recordFill fill => rfl
  | recordBalance balance => rfl
  | shutdown => rfl

/-! ## All events -/

theorem running_after (hrunning : office.service.running = true) (hopen : .shutdown ∉ earlier)
    (h : office.NoneOverflows desk (earlier ++ later)) : (office.after desk earlier).service.running = true := by
  induction earlier generalizing office with
  | nil => exact hrunning
  | cons event rest ih =>
    rw [List.mem_cons, not_or] at hopen
    obtain ⟨hevent, hrest⟩ := hopen
    exact ih (running_next hrunning (Ne.symm hevent) h) hrest (h.tail (Ne.symm hevent))

private theorem service_after_of_stopped (hstopped : office.service.running = false) :
    (office.after desk events).service = office.service := by
  induction events generalizing office with
  | nil => rfl
  | cons event rest ih =>
    have hnext : (office.next desk event).service = office.service := service_next_of_stopped hstopped
    exact (ih (hnext ▸ hstopped)).trans hnext

private theorem stopped_after (hclosed : .shutdown ∈ earlier) :
    (office.after desk earlier).service.running = false := by
  obtain ⟨front, back, rfl⟩ := List.append_of_mem hclosed
  have hstopped : ((office.after desk front).next desk .shutdown).service.running = false := rfl
  rw [after, List.foldl_append, List.foldl_cons]
  exact (congrArg Service.running (service_after_of_stopped hstopped)).trans hstopped

private theorem endings_after (hrunning : office.service.running = true) (h : office.NoneOverflows desk events) :
    (office.after desk events).registry.endings kind
      = office.registry.endings kind + (events.takeWhile (· ≠ .shutdown)).countP (·.asksFor kind) := by
  induction events generalizing office with
  | nil => rfl
  | cons event rest ih =>
    by_cases hevent : event = .shutdown
    -- What comes after the shutdown is not counted on either side, and need not keep from overflowing.
    · subst hevent
      have hstopped : (office.next desk .shutdown).service.running = false := rfl
      have hrest : ((office.next desk .shutdown).after desk rest).service = office.service.stop :=
        service_after_of_stopped hstopped
      rw [List.takeWhile_cons_of_neg (by simp)]
      exact congrArg (fun service => endings service.registry kind) hrest
    · have hrest := ih (running_next hrunning hevent h) (h.tail hevent)
      rw [endings_next hrunning h] at hrest
      rw [List.takeWhile_cons_of_pos (by simpa using hevent), List.countP_cons, add_comm (List.countP _ _), ← add_assoc]
      exact hrest

/-- What the service does over a whole session. -/
structure Serves (desk : Desk σ) (office : Office σ) (events : List Event) : Prop where
  /-- A request before the shutdown has one reply, its answer. -/
  answered : ∀ earlier request now later, events = earlier ++ .ask request now :: later → .shutdown ∉ earlier →
    ∃ answer, office.replies desk events = office.replies desk earlier ++
        ⟨request, answer⟩ :: (office.after desk (earlier ++ [.ask request now])).replies desk later ∧
      (office.after desk earlier).Answers desk request now answer
  /-- A request after the shutdown has one reply, a refusal. -/
  refused : ∀ earlier request now later, events = earlier ++ .ask request now :: later → .shutdown ∈ earlier →
    ∃ answer, office.replies desk events = office.replies desk earlier ++
        ⟨request, answer⟩ :: (office.after desk (earlier ++ [.ask request now])).replies desk later ∧
      (office.after desk earlier).Refuses desk request now answer
  /-- What was completed and what failed, for whatever reason, were the requests before the shutdown. -/
  counted : ∀ kind, (office.after desk events).registry.endings kind
    = (events.takeWhile (· ≠ .shutdown)).countP (·.asksFor kind)

private theorem replies_of_replyTo? {reply : Reply}
    (hreply : (office.after desk earlier).replyTo? desk event = some reply) :
    office.replies desk (earlier ++ event :: later)
      = office.replies desk earlier ++ reply :: (office.after desk (earlier ++ [event])).replies desk later := by
  rw [replies_append, replies, hreply, after, after, List.foldl_append]
  rfl

theorem serves_of_noneOverflows (desk : Desk σ) (store : Store) (balances : σ)
    (h : (opening store balances).NoneOverflows desk events) : (opening store balances).Serves desk events := by
  refine ⟨?_, ?_, fun kind => ?_⟩
  · rintro earlier request now later rfl hopen
    have hrunning : ((opening store balances).after desk earlier).service.running = true := running_after rfl hopen h
    obtain ⟨answer, hreply, hanswers⟩ := exists_answers hrunning (h earlier request now later rfl hopen)
    exact ⟨answer, replies_of_replyTo? hreply, hanswers⟩
  · rintro earlier request now later rfl hclosed
    obtain ⟨hreply, hnext⟩ := next_of_stopped (stopped_after hclosed)
    exact ⟨request.stopped, replies_of_replyTo? hreply, rfl, by rw [hnext]⟩
  · rw [endings_after rfl h, show (opening store balances).registry.endings kind = 0 from rfl, zero_add]

/-- Balances are empty and no price is known. -/
def quietDesk : Desk Unit :=
  ⟨fun _ => .none, fun _ => .paper Table.empty, .usual, 30000⟩

/-- Two reports on nothing, then a purchase and a list with it, and one more request after the shutdown. -/
def shortSession : List Event :=
  [.ask (.window (some "run") 0) 2000, .ask (.full 0) 2000, .recordFill Store.nextFill,
    .ask (.recentTrades (some "run") 0 5) 2000, .shutdown, .ask (.profitability (some "run") 0) 2000]

theorem serves_shortSession :
    (opening Store.freshStore ()).NoneOverflows quietDesk shortSession ∧
      (opening Store.freshStore ()).Serves quietDesk shortSession := by
  have hnone : (opening Store.freshStore ()).NoneOverflows quietDesk shortSession := by
    refine .cons ?_ fun _ => .cons ?_ fun _ => .cons ?_ fun _ => .cons ?_ fun _ => .cons ?_ fun h => absurd rfl h
    · rintro request now ⟨⟩
      exact Request.not_overflows_of_isSome (by decide +kernel)
    · rintro request now ⟨⟩
      exact Request.not_overflows_of_isSome (by decide +kernel)
    · simp
    · rintro request now ⟨⟩
      exact id
    · simp
  exact ⟨hnone, serves_of_noneOverflows quietDesk Store.freshStore () hnone⟩

end Office

end TradeReport
