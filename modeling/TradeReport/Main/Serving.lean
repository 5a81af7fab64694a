import TradeReport.Main.Files
import Std.Http
import Std.Time
/-!
# Serving

An instance that serves answers requests from its socket and checks its kill switch at an interval. Both ask
one service, and both see the files as they are at that moment. Serving ends when the kill switch fires, when
the program is interrupted, or when there is no socket to be had.
-/

namespace TradeReport

open Std.Async (Async)

/-- The present in milliseconds. -/
def presentTime : IO Int := do
  return (← Std.Time.Timestamp.now).toMillisecondsSinceUnixEpoch.toInt

structure Serving where
  /-- The instance as it began. -/
  loaded : Instance
  begun : Int
  service : IO.Ref (Service Unit)

namespace Serving

def ofInstance (loaded : Instance) : IO Serving := do
  return ⟨loaded, ← presentTime, ← IO.mkRef (Service.start ())⟩

/-- The instance with its files as they are now. -/
def refreshed (serving : Serving) : IO Instance := do
  let store := serving.loaded.store
  return { serving.loaded with store := { store with disk := ← Files.withStore Disk.empty store.home } }

/-! ## Requests -/

def respond (serving : Serving) (request : Http.HttpRequest) : IO Http.Response := do
  let instanceNow ← serving.refreshed
  let server := instanceNow.server serving.begun
  let market := instanceNow.market (← presentTime)
  match ← serving.service.modifyGet (server.respond market instanceNow.store request).run with
  | .ok response => return response
  | .error _ => throw (IO.userError "a figure of the report cannot be shown")

/-- A response with its status and its body for the socket. -/
def encode (response : Http.Response) : Async (Std.Http.Response Std.Http.Body.Full) :=
  let status := (Std.Http.Status.ofCode none response.status.toUInt16).getD .internalServerError
  let builder := Std.Http.Response.withStatus status
  match response.body with
  | .empty => builder.text ""
  | .text content => builder.text content
  | .json value => builder.json value.compact

instance : Std.Http.Server.Handler Serving where
  ResponseBody := Std.Http.Body.Full
  onRequest serving request := do
    let line := request.line
    match Http.HttpRequest.ofTarget? (toString line.method) (toString line.uri) with
    | some request => encode (← serving.respond request)
    | none => encode ⟨400, .empty⟩

/-! ## The kill switch -/

/-- One check: whether the switch fires. -/
def fires (serving : Serving) (killSwitch : KillSwitch) : IO Bool := do
  let instanceNow ← serving.refreshed
  let market := instanceNow.market (← presentTime)
  let request := Request.profitability instanceNow.config.report.activeStrategy serving.begun
  match killSwitch.evaluate (← serving.service.modifyGet (Service.submit market request).run) with
  | .trigger _ =>
    serving.service.modify (Service.tell [.killSwitchFired])
    return true
  | .proceed _ | .unknown _ => return false

/-- Checks until the switch fires. -/
def watch (serving : Serving) (killSwitch : KillSwitch) : IO Unit := do
  let pause := min (serving.loaded.config.report.killSwitchInterval * 1000) (wordBound 32 - 1)
  while !(← serving.fires killSwitch) do
    IO.sleep pause.toUInt32

/-! ## The socket -/

/-- The address that is written as a host and a port. -/
def addressOf (written : String) : IO Std.Net.SocketAddress := do
  let parts := written.splitOn ":"
  let host := ":".intercalate parts.dropLast
  let some port := parts.getLast?.bind String.toNat? | throw (IO.userError "no port")
  let addresses ← (Std.Async.DNS.getAddrInfo host "").block
  match addresses.toList.head? with
  | some (.v4 address) => return .v4 ⟨address, port.toUInt16⟩
  | some (.v6 address) => return .v6 ⟨address, port.toUInt16⟩
  | none => throw (IO.userError "no such host")

/-- Serves until the end. -/
def run (serving : Serving) : IO Unit := do
  let address ← addressOf serving.loaded.config.metrics.bindAddress
  let server ← (Std.Http.Server.serve address serving).block
  let interrupted ← (← Std.Async.Signal.Waiter.mk .sigint false).wait
  let fired ← serving.loaded.killSwitch?.mapM fun killSwitch =>
    IO.asTask (serving.watch killSwitch) .dedicated
  let _ ← IO.waitAny (interrupted.map (fun _ => ()) :: fired.toList)
  server.shutdown.block

end Serving

end TradeReport
