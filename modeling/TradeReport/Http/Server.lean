import TradeReport.Http.Target
import TradeReport.Metrics.Exposition
import TradeReport.Report.Document
import TradeReport.Service
/-!
# The report server

The routes over which reports are asked for. A report that cannot be had is told by the status of the response
and by the error with its reason. A full report that failed is a report, and its response a success.
-/

namespace TradeReport.Http

open Json (Value)

structure HttpRequest where
  method : String
  path : String
  query : List Char

inductive Body where
  | empty
  | text (content : String)
  | json (value : Value)

structure Response where
  status : Nat
  body : Body

/-- The request for a written target, if it can be read. -/
def HttpRequest.ofTarget? (method target : String) : Option HttpRequest :=
  (Target.ofChars? target.toList).map fun target => ⟨method, String.ofList target.path, target.query⟩

/-- The status for an error of a report. -/
def statusOf : ReportError → Nat
  | .noActiveStrategy => 409
  | .noTrades => 404
  | .networkTimeout _ _ => 504
  | .balanceUnavailable _ _ => 502
  | .serviceStopped => 503
  | .source _ | .emptyScope | .invalidPair _ => 500

def Response.ofError (error : ReportError) : Response :=
  ⟨statusOf error, .json (.record [("error", .text error.message), ("reason", .text error.reason)])⟩

inductive Route where
  | live
  | ready
  | metrics
  | window
  | full
  | trades
  deriving DecidableEq, Repr

def Route.ofPath? : String → Option Route
  | "/live" => some .live
  | "/ready" => some .ready
  | "/metrics" => some .metrics
  | "/report/window" => some .window
  | "/report/full" => some .full
  | "/report/trades" => some .trades
  | _ => none

structure Server where
  /-- The run that window reports are about. -/
  scope : Option String
  sessionStart : Int
  defaultPrecision : Option Nat
  maxTradesDisplay : Nat
  showsMetrics : Bool

namespace Server

/-- The text of all metrics, each line with its end. -/
def metricsText (told : List Activity) : String :=
  String.join ((MetricsRegistry.ofActivities told).lines.map (· ++ "\n"))

def metrics (server : Server) (told : List Activity) : Response :=
  if server.showsMetrics then ⟨200, .text (metricsText told)⟩ else ⟨404, .text "metrics disabled"⟩

/-- A document as a response, or the error that there is instead. -/
def respondWith (document : α → Except Overflow Value) :
    Except ReportError α → Except Overflow Response
  | .ok report => do return ⟨200, .json (← document report)⟩
  | .error error => return .ofError error

/-- The response of a report route, once its query is read. -/
def report (server : Server) (market : Market σ) (route : Route) (query : ReportQuery) :
    StateM (Service σ) (Except Overflow Response) := do
  let start := Window.startBack (query.days.getD 0) server.sessionStart market.now
  match route with
  | .full =>
    let report ← Service.submit market (.full start)
    return do return ⟨200, .json (← report.toJson)⟩
  | .trades =>
    let recent ← Service.submit market (.recentTrades server.scope start server.maxTradesDisplay)
    return respondWith (fun recent => return recent.toJson) recent
  | _ =>
    let precision := query.precision.or server.defaultPrecision
    let report ← Service.submit market (.window server.scope start)
    return respondWith (·.display precision) report

/-- The response of a route. Reports are asked for with a query, which must be readable. -/
def serve (server : Server) (market : Market σ) (store : Store) (route : Route)
    (request : HttpRequest) : StateM (Service σ) (Except Overflow Response) := do
  match route with
  | .live => return .ok ⟨200, .text "OK"⟩
  | .ready =>
    if (← get).running && store.isHealthy then return .ok ⟨200, .text "READY"⟩
    else return .ok ⟨503, .text "NOT READY"⟩
  | .metrics => return .ok (server.metrics (← get).told)
  | route =>
    match ReportQuery.ofChars? request.query with
    | none => return .ok ⟨400, .empty⟩
    | some query => server.report market route query

/-- The response to a request. Routes are only read; reading the head of a response gives its status without
its body. -/
def respond (server : Server) (market : Market σ) (store : Store) (request : HttpRequest) :
    StateM (Service σ) (Except Overflow Response) := do
  match Route.ofPath? request.path with
  | none => return .ok ⟨404, .empty⟩
  | some route =>
    if request.method = "GET" then
      server.serve market store route request
    else if request.method = "HEAD" then
      let response ← server.serve market store route request
      return response.map fun response => { response with body := .empty }
    else
      return .ok ⟨405, .empty⟩

end Server

end TradeReport.Http
