import TradeReport.Table
import TradeReport.Text.Utf8
/-!
# Files and folders

The tree of files that a store lives in, as a table from paths to what is there. A path is the list of names
on the way from the folder where the program works; a folder is there when the table has it or something below
it. Files are named by written paths, which are followed name by name: a name that is missing, a file where a
folder is needed, and a folder where a file is are told apart.
-/

namespace TradeReport

/-- What a file holds: text, or bytes that are no text. -/
inductive Content where
  | text (chars : List Char)
  | binary (bytes : List UInt8)
  deriving DecidableEq

namespace Content

def ofText (written : String) : Content :=
  .text written.toList

/-- Bytes are text when they are well-formed UTF-8. -/
def ofBytes (bytes : List UInt8) : Content :=
  match String.fromUTF8? (ByteArray.mk bytes.toArray) with
  | some written => .text written.toList
  | none => .binary bytes

/-- What a reader sees: text as it is, and a mark for bytes that are none. -/
def shown : Content → List Char
  | .text chars => chars
  | .binary bytes => Utf8.decoded bytes

/-- The content with more text at its end. -/
def append (content : Content) (more : String) : Content :=
  match content with
  | .text chars => .text (chars ++ more.toList)
  | .binary bytes => .binary (bytes ++ more.toUTF8.toList)

end Content

inductive Node where
  | folder
  | file (content : Content)
  deriving DecidableEq

/-- Why a path cannot be used. -/
inductive DiskError where
  | notFound
  | notAFolder
  | isAFolder
  | alreadyThere
  | nameTooLong
  | hasNul
  | notText
  deriving DecidableEq, Repr

def DiskError.message : DiskError → String
  | .notFound => "No such file or directory (os error 2)"
  | .notAFolder => "Not a directory (os error 20)"
  | .isAFolder => "Is a directory (os error 21)"
  | .alreadyThere => "File exists (os error 17)"
  | .nameTooLong => "File name too long (os error 36)"
  | .hasNul => "file name contained an unexpected NUL byte"
  | .notText => "stream did not contain valid UTF-8"

/-! ## Paths -/

/-- The names on the way to a place. A path that starts at the root has a slash as its first name, and one that
leads out of the folder where the program works begins with two points for every folder it goes up. -/
abbrev Path := List String

namespace Path

/-- The places that are folders whatever the table holds. -/
def isOutside (path : Path) : Bool :=
  path == ["/"] || path.all (· == "..")

/-- The folder above. The root is above itself. -/
def above (path : Path) : Path :=
  if path = ["/"] then path
  else if path.isOutside then ".." :: path
  else path.dropLast

end Path

/-- The longest name, in bytes. -/
def longestName : Nat := 255

/-- The longest written path, in bytes. -/
def longestPath : Nat := 4095

/-- The names between the slashes of a written path. A path without a slash is a single name. -/
def namesBetweenSlashes : List Char → List (List Char)
  | [] => [[]]
  | c :: rest =>
    if c = '/' then [] :: namesBetweenSlashes rest
    else
      match namesBetweenSlashes rest with
      | [] => [[c]]
      | name :: more => (c :: name) :: more

/-- The names of a written path, and the place where it starts. -/
def namesOf (written : String) : Except DiskError (Path × List String) :=
  if written.toList.contains '\x00' then .error .hasNul
  else if written = "" then .error .notFound
  else if written.utf8ByteSize > longestPath then .error .nameTooLong
  else
    .ok (if written.toList.head? = some '/' then ["/"] else [],
      (namesBetweenSlashes written.toList).map String.ofList)

/-- Names that lead into the folder of that name, and are not too long for one. -/
def leadsDown (name : String) : Bool :=
  name != "" && name != "." && name != ".." && name.utf8ByteSize ≤ longestName

structure Disk where
  nodes : Table Path Node

namespace Disk

def empty : Disk := ⟨Table.empty⟩

/-- What is at a place. -/
def find (disk : Disk) (path : Path) : Except DiskError Node :=
  match disk.nodes.get? path with
  | some node => .ok node
  | none =>
    if path.isOutside || disk.nodes.keys.any (path.isPrefixOf ·) then .ok .folder
    else if disk.nodes.entries.any fun (key, node) => (node matches .file _) && key.isPrefixOf path then
      .error .notAFolder
    else .error .notFound

def needFolder (disk : Disk) (path : Path) : Except DiskError Unit := do
  match ← disk.find path with
  | .file _ => throw .notAFolder
  | .folder => return ()

/-- Where names lead from a place. A name that stands for nothing or for the folder above needs a folder before
it, and so does one that is too long. -/
def follow (disk : Disk) (path : Path) : List String → Except DiskError Path
  | [] => .ok path
  | name :: rest =>
    if leadsDown name then
      disk.follow (path ++ [name]) rest
    else do
      disk.needFolder path
      if name.utf8ByteSize > longestName then throw .nameTooLong
      disk.follow (if name = ".." then path.above else path) rest

/-- The place that a written path leads to. -/
def place (disk : Disk) (written : String) : Except DiskError Path := do
  let (start, names) ← namesOf written
  disk.follow start names

/-! ## Looking -/

/-- What a written path leads to. -/
def look (disk : Disk) (written : String) : Except DiskError Node := do
  disk.find (← disk.place written)

/-- Whether there is a file or a folder. -/
def isThere (disk : Disk) (written : String) : Bool :=
  (disk.look written).toBool

def isFolder (disk : Disk) (written : String) : Bool :=
  disk.look written matches .ok .folder

/-- The text of a file. -/
def read (disk : Disk) (written : String) : Except DiskError (List Char) := do
  match ← disk.look written with
  | .folder => throw .isAFolder
  | .file (.binary _) => throw .notText
  | .file (.text chars) => return chars

/-- The names in a folder, in order. -/
def names (disk : Disk) (written : String) : Except DiskError (List String) := do
  let path ← disk.place written
  disk.needFolder path
  return distinct (disk.nodes.keys.filterMap fun key =>
    if path.isPrefixOf key then (key.drop path.length).head? else none)

/-- The files below a folder, with their paths. -/
def filesBelow (disk : Disk) (path : Path) : List (Path × Content) :=
  disk.nodes.entries.filterMap fun (key, node) =>
    match node with
    | .file content => if path.isPrefixOf key then some (key, content) else none
    | .folder => none

/-! ## Changing -/

def put (disk : Disk) (path : Path) (node : Node) : Disk :=
  ⟨disk.nodes.put path node⟩

/-- The folder at a place, made where there is none. The flag tells that a folder was made on the way: then a file
in the way is met as the thing that should be made. -/
def ensureFolder (disk : Disk) (path : Path) (made : Bool) : Except DiskError (Disk × Bool) :=
  match disk.find path with
  | .ok .folder => .ok (disk, made)
  | .error .notFound => .ok (disk.put path .folder, true)
  | _ => .error (if made then .alreadyThere else .notAFolder)

/-- The folder that names lead to from a place, with every folder on the way. -/
def makeFolderFrom (disk : Disk) (path : Path) (made : Bool) : List String → Except DiskError Disk
  | [] => do
    if (disk.find path) matches .ok (.file _) then throw .alreadyThere
    return (← disk.ensureFolder path made).1
  | name :: rest =>
    if leadsDown name then
      makeFolderFrom disk (path ++ [name]) made rest
    else do
      let (disk, made) ← disk.ensureFolder path made
      if name.utf8ByteSize > longestName then throw .nameTooLong
      makeFolderFrom disk (if name = ".." then path.above else path) made rest

def makeFolder (disk : Disk) (written : String) : Except DiskError Disk := do
  let (start, names) ← namesOf written
  disk.makeFolderFrom start false names

/-- The file with more text at its end; a new file where there is none, if its folder is there. -/
def append (disk : Disk) (written more : String) : Except DiskError Disk := do
  let path ← disk.place written
  disk.needFolder path.dropLast
  match disk.find path with
  | .ok .folder => throw .isAFolder
  | .ok (.file content) => return disk.put path (.file (content.append more))
  | .error _ => return disk.put path (.file (.ofText more))

/-- A file with the given content, in place of what was there, with the folders it needs. -/
def write (disk : Disk) (written : String) (content : Content) : Except DiskError Disk := do
  let (start, names) ← namesOf written
  let disk ← disk.makeFolderFrom start false names.dropLast
  let path ← disk.place written
  if disk.find path matches .ok .folder then throw .isAFolder
  return disk.put path (.file content)

/-- Without a file or folder and all below it. The folder that it was in stays. -/
def remove (disk : Disk) (written : String) : Disk :=
  match disk.place written with
  | .error _ => disk
  | .ok path =>
    if (disk.find path).toBool then
      let rest : Disk := ⟨disk.nodes.filter fun key _ => !path.isPrefixOf key⟩
      if rest.find path.dropLast matches .error _ then rest.put path.dropLast .folder else rest
    else
      disk

end Disk

end TradeReport
