import TradeReport.CommandLine
/-!
# The files of the program

A disk is a picture of real files: of a configuration, and of the store that the configuration names. What is
not there when the picture is taken is not on the disk.
-/

namespace TradeReport

namespace Files

/-- The written paths that lead to a path, and the path itself. -/
def wayTo (path : String) : List String :=
  let names := path.splitOn "/"
  ((List.range names.length).map fun count => "/".intercalate (names.take (count + 1))).filter (· != "")

/-- The disk with what is found at a path. -/
def look (disk : Disk) (path : String) : IO Disk := do
  let place := (← IO.currentDir) / path
  let seen ←
    if ← place.isDir then
      pure (disk.makeFolder path)
    else if ← place.pathExists then
      let bytes ← IO.FS.readBinFile place
      pure (disk.write path (.ofBytes bytes.toList))
    else
      pure (.ok disk)
  return seen.toOption.getD disk

/-- The disk with a configuration. -/
def ofConfig (path : String) : IO Disk :=
  (wayTo path).foldlM look Disk.empty

/-- The disk with the logs of a store. -/
def withStore (disk : Disk) (home : String) : IO Disk := do
  let store : Store := ⟨disk, home⟩
  let disk ← (wayTo store.tradesFolder ++ wayTo store.balanceLog).foldlM look disk
  if disk.isFolder store.tradesFolder then
    let entries ← ((← IO.currentDir) / store.tradesFolder).readDir
    let logs := entries.toList.map (·.fileName) |>.filter Store.isLogName
    (logs.map (Store.joinPath store.tradesFolder)).foldlM look disk
  else
    return disk

/-- The disk with a configuration and with the store that it names. -/
def ofInstance (path : String) : IO Disk := do
  let disk ← ofConfig path
  match Config.load disk path with
  | .ok config => withStore disk config.dataFolder
  | .error _ => return disk

/-- Makes the folders of a store. -/
def makeFolders (store : Store) : IO Unit := do
  IO.FS.createDirAll store.tradesFolder
  IO.FS.createDirAll store.balancesFolder

end Files

end TradeReport
