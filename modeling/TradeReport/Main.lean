import TradeReport.Main.Serving
/-!
# The program

Reads the command line and the files that it names, works out what they lead to and tells it. The folders of the
store are made where they are missing.
-/

namespace TradeReport

/-- Serves as an instance; an address that cannot be used ends it at once. -/
def serve (loaded : Instance) : IO Unit := do
  try (← Serving.ofInstance loaded).run catch _ => return

/-- Prints what a run leads to, and gives its exit code. -/
def tellOutcome (outcome : Instance.Outcome) : IO UInt32 := do
  outcome.output.forM fun line => IO.println line
  outcome.fault.forM fun fault => IO.eprintln ("Error: " ++ fault.trace)
  return outcome.exitCode.toUInt32

/-- Carries out what is asked for. -/
def carryOut (invocation : Invocation) : IO UInt32 := do
  let disk ← Files.ofInstance invocation.config
  if invocation.command.needsStore then
    if let .ok loaded := Instance.load disk invocation.config then
      Files.makeFolders loaded.store
      if invocation.command matches .serve then
        serve loaded
  tellOutcome (invocation.outcome disk (← presentTime))

end TradeReport

def main (words : List String) : IO UInt32 := do
  match TradeReport.Invocation.ofWords? words with
  | some invocation => TradeReport.carryOut invocation
  | none =>
    IO.eprintln TradeReport.Invocation.usage
    return 2
