import TradeReport.Calendar
import TradeReport.Fault
import TradeReport.Store.Disk
import TradeReport.Store.Log
import TradeReport.Trade.Record
/-!
# The store

Fills and balances as strategy runs record them, in log files under one folder. Fills go to one file for each
day, balances to a single file. A store remembers nothing: every question reads the files again, and so sees
all that has been appended.
-/

namespace TradeReport

structure Store where
  disk : Disk
  /-- The folder of the store, as it was given. -/
  home : String

namespace Store

/-- A written path with one more name. -/
def joinPath (front name : String) : String :=
  if front = "" ∨ front.toList.getLast? = some '/' then front ++ name else front ++ "/" ++ name

def tradesFolder (store : Store) : String :=
  joinPath store.home "trades"

def balancesFolder (store : Store) : String :=
  joinPath store.home "balances"

def balanceLog (store : Store) : String :=
  joinPath store.balancesFolder "balance_log.jsonl"

def diskFault (context : String) (cause : DiskError) : Fault :=
  (Fault.ofMessage cause.message).within context

/-- The store of a folder, with the two folders that it writes to. -/
def openIn (disk : Disk) (home : String) : Except Fault Store := do
  let store : Store := ⟨disk, home⟩
  let disk ← (disk.makeFolder store.tradesFolder).mapError
    (diskFault "Failed to create trades directory")
  let disk ← (disk.makeFolder store.balancesFolder).mapError
    (diskFault "Failed to create balances directory")
  return { store with disk }

/-! ## Writing -/

def appendLine (store : Store) (path line : String) : Except Fault Store := do
  let disk ← (store.disk.append path (Log.entry line)).mapError
    (diskFault ("Failed to open " ++ path))
  return { store with disk }

/-- The file of the day of a fill. -/
def dayFile (store : Store) (time : Int) : String :=
  joinPath store.tradesFolder (String.ofList (Date.ofTime time).toChars ++ ".jsonl")

/-- A fill goes to the file of its day; a time without a date has none. -/
def recordFill (store : Store) (fill : Fill) : Except Fault Store :=
  let time := fill.time.toInt
  if hasDate time then
    store.appendLine (store.dayFile time) fill.toLine
  else
    throw (.ofMessage ("Fill timestamp out of range: " ++ toString time))

def recordBalance (store : Store) (balance : RecordedBalance) : Except Fault Store :=
  store.appendLine store.balanceLog balance.toLine

/-! ## Reading -/

/-- The records of one file; none when there is no file. -/
def readRecords (store : Store) (ofLine? : List Char → Option α) (path : String) :
    Except Fault (List α) := do
  if store.disk.isThere path then
    let text ← (store.disk.read path).mapError (diskFault ("Failed to read " ++ path))
    return Log.records ofLine? text
  else
    return []

/-- Names of log files: an ending after the last point, and something before that point. -/
def isLogName (name : String) : Bool :=
  ".jsonl".toList.isSuffixOf name.toList && name != ".jsonl"

/-- The names of the log files in a folder; none when there is no folder. -/
def logNames (store : Store) (folder : String) : Except Fault (List String) :=
  if store.disk.isThere folder then do
    let names ← (store.disk.names folder).mapError (diskFault ("Failed to list " ++ folder))
    return names.filter isLogName
  else
    return []

/-- The records of the named files of a folder, file after file. -/
def readFiles (store : Store) (ofLine? : List Char → Option α) (folder : String)
    (names : List String) : Except Fault (List α) := do
  return (← names.mapM fun name => store.readRecords ofLine? (joinPath folder name)).flatten

def byTime (fills : List Fill) : List Fill :=
  fills.mergeSort fun a b => (a.compareTime b).isLE

/-- The fills of the named files in order of time; fills of one moment in the order they are read. -/
def tradesIn (store : Store) (names : List String) : Except Fault (List Fill) := do
  return byTime (← store.readFiles Fill.ofLine? store.tradesFolder names)

/-- Every fill in order of time. Fills of one moment are in one file, so they stay in the order they were
recorded. -/
def allTrades (store : Store) : Except Fault (List Fill) := do
  store.tradesIn (← store.logNames store.tradesFolder)

/-- The newest `limit` of a list that is in order of time, newest first. -/
def newest (limit : Nat) (fills : List Fill) : List Fill :=
  fills.reverse.take limit

/-- Whether a fill is of a run; every fill is when no run is named. -/
def isOfRun (strategy : Option String) (fill : Fill) : Bool :=
  strategy.all (fill.strategy == ·)

/-- Fills from a time on, of one run or of all. A limit asks for the newest of them, newest first. -/
def tradesSince (store : Store) (start : Int) (strategy : Option String) (limit : Option Nat) :
    Except Fault (List Fill) := do
  let fills := (← store.allTrades).filter fun fill =>
    decide (start ≤ fill.time.toInt) && isOfRun strategy fill
  match limit with
  | none => return fills
  | some limit => return newest limit fills

/-- The different runs that have a name. -/
def distinctStrategies (store : Store) : Except Fault (List String) := do
  return distinct ((← store.allTrades).map (·.strategy) |>.filter (!isBlank ·))

/-- The different markets that have a name. -/
def distinctMarkets (store : Store) : Except Fault (List String) := do
  return distinct ((← store.allTrades).map (·.market) |>.filter (!isBlank ·))

/-- The runs that traded on each market. -/
def strategiesByMarket (store : Store) : Except Fault (Table String (List String)) := do
  let fills := (← store.allTrades).filter Fill.isResolvable
  return (Table.group Fill.market fills).mapValues fun group => distinct (group.map (·.strategy))

/-- The recorded balances of a run in order of time. -/
def balancesOf (store : Store) (strategy : String) : Except Fault (List RecordedBalance) := do
  let balances ← store.readRecords RecordedBalance.ofLine? store.balanceLog
  let own := balances.filter (·.strategy == strategy)
  return own.mergeSort fun a b => decide (a.time.toInt ≤ b.time.toInt)

def balanceBounds (store : Store) (strategy : String) : Except Fault (Option BalanceBounds) := do
  return BalanceBounds.ofOrdered? (← store.balancesOf strategy)

def latestBalance (store : Store) (strategy : String) : Except Fault (Option RecordedBalance) := do
  return (← store.balancesOf strategy).getLast?

/-- The folders are still there. -/
def isHealthy (store : Store) : Bool :=
  store.disk.isFolder store.tradesFolder && store.disk.isThere store.balancesFolder

end Store

end TradeReport
