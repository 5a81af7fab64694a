import TradeReport.Service.Activity
import TradeReport.Service.FullReporter
/-!
# The report service

One service answers requests one at a time. Every request gets an answer of its own kind, and what it led to
is told once. A stopped service still answers, with an error. Arithmetic that overflows stops the service,
since no caller could tell a wrong figure from a right one.
-/

namespace TradeReport

inductive Request where
  | window (scope : Option String) (start : Int)
  | profitability (scope : Option String) (start : Int)
  | recentTrades (scope : Option String) (start : Int) (maxRows : Nat)
  | full (start : Int)
  deriving DecidableEq, Repr

namespace Request

def kind : Request → ReportKind
  | .window .. => .window
  | .profitability .. => .profitability
  | .recentTrades .. => .recentTrades
  | .full .. => .full

/-- What a request is answered with. A failure of the full report is a report. -/
@[reducible]
def Answer : Request → Type
  | .window .. => Except ReportError WindowReport
  | .profitability .. => Except ReportError Figure
  | .recentTrades .. => Except ReportError RecentTrades
  | .full .. => FullReport

/-- The answer of a stopped service. -/
def stopped : (request : Request) → request.Answer
  | .window .. => .error .serviceStopped
  | .profitability .. => .error .serviceStopped
  | .recentTrades .. => .error .serviceStopped
  | .full .. => .failed ⟨ReportError.serviceStopped.message, none⟩

/-- The answer of the reporter that a request is for, or the overflow that leaves none. -/
def answer (market : Market σ) :
    (request : Request) → StateM (Elapsed σ) (Except Overflow request.Answer)
  | .window scope start => (market.windowReport scope start).settled
  | .profitability scope start => (market.profitability scope start).settled
  | .recentTrades scope start maxRows => (market.recentTrades scope start maxRows).settled
  | .full start => return FullReport.compute market.source ⟨start, market.now⟩

/-- How a request ended: completed, or failed with the reason of its error. -/
def ending (kind : ReportKind) (latency : Nanoseconds) : Except ReportError α → Activity
  | .ok _ => .completed kind latency
  | .error error => .failed kind error.reason

/-- What an answer tells. A reading of the averaged return comes with a window report, and with every check of
profitability, so that a failed check clears the reading before it. -/
def activities (latency : Nanoseconds) : (request : Request) → request.Answer → List Activity
  | .window scope _, result =>
    match scope, result with
    | some scope, .ok report => [.averageReturn scope report.averageReturn, ending .window latency result]
    | _, _ => [ending .window latency result]
  | .profitability scope _, result =>
    let reading : Figure := result.toOption.join
    match scope with
    | some scope => [.averageReturn scope reading, ending .profitability latency result]
    | none => [ending .profitability latency result]
  | .recentTrades .., result => [ending .recentTrades latency result]
  | .full _, report =>
    if report.isFailure then [.failed .full "full_report_failed"] else [.completed .full latency]

end Request

/-- A service between two requests: whether it runs, the balance source with the time that has passed, and
everything told so far. -/
structure Service (σ : Type) where
  running : Bool
  elapsed : Elapsed σ
  told : List Activity

namespace Service

/-- A running service that has told nothing. -/
def start (balances : σ) : Service σ :=
  ⟨true, ⟨balances, 0⟩, []⟩

/-- Told to stop. -/
def stop (service : Service σ) : Service σ :=
  { service with running := false }

def tell (activities : List Activity) (service : Service σ) : Service σ :=
  { service with told := service.told ++ activities }

/-- The answer to a request, from the records as they are when it is asked. -/
def submit (market : Market σ) (request : Request) : StateM (Service σ) request.Answer := do
  let service ← get
  if service.running then
    let (result, elapsed) := (request.answer market).run service.elapsed
    let latency := (elapsed.clock - service.elapsed.clock) * nanosPerMilli
    match result with
    | .error _ =>
      set { service with elapsed, running := false }
      return request.stopped
    | .ok answer =>
      set ({ service with elapsed }.tell (request.activities latency answer))
      return answer
  else
    return request.stopped

end Service

end TradeReport
