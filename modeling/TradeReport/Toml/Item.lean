import TradeReport.Toml.Complaint
/-!
# Settings as a tree

Settings are tables of values. A table can be spread over a text: its members are written under a header, with
dotted keys, or between braces, and how it began decides how it may go on. A table between braces is complete.
One that a header names is not named again, and not extended by dotted keys. One that dotted keys began is
extended by dotted keys alone. One that was only passed on the way to another may still get a header of its own.
-/

namespace TradeReport.Toml

/-- How a table began. -/
inductive Origin where
  | header
  | passing
  | dotted
  | braces
  deriving DecidableEq, Repr

inductive Scalar where
  | text (s : String)
  | whole (n : Int)
  | double (x : Float)
  | truth (b : Bool)
  /-- A date, a time of day or both. -/
  | moment (s : String)

inductive Item where
  | scalar (span : Span) (value : Scalar)
  /-- The second kind of list is made of headers, one for each item, and has at least one. -/
  | list (span : Span) (items : List Item)
  | tables (front : List Item) (last : Item)
  /-- A table has a stretch of its own if it has a header or braces. -/
  | table (origin : Origin) (span : Option Span) (members : List (Name × Item))

abbrev Members := List (Name × Item)

namespace Item

/-- The stretch of a table, if it is one and has one. -/
def tableSpan? : Item → Option Span
  | table _ span _ => span
  | _ => none

/-- A list of tables reaches from the first header to the end of the last table. -/
def span? : Item → Option Span
  | scalar span _ | list span _ => some span
  | table _ span _ => span
  | tables front last => do
    return ⟨(← tableSpan? (front.headD last)).first, (← tableSpan? last).stop⟩

/-- The kind of an item, which is no table of its own. -/
def kind : Item → String
  | scalar _ (.text _) => "string"
  | scalar _ (.whole _) => "integer"
  | scalar _ (.double _) => "float"
  | scalar _ (.truth _) => "boolean"
  | scalar _ (.moment _) => "datetime"
  | list _ _ => "array"
  | tables _ _ => "array of tables"
  | table .braces _ _ => "inline table"
  | table _ _ _ => "table"

end Item

/-- The members of a table, and the stretch of its header or braces and of the values that follow it. -/
structure Body where
  span : Option Span
  members : Members

namespace Body

def empty : Body := ⟨none, []⟩

def get? (body : Body) (name : String) : Option Item :=
  (body.members.find? (·.1.text == name)).map (·.2)

/-- With one more member at the end. -/
def add (body : Body) (name : Name) (item : Item) : Body :=
  { body with members := body.members ++ [(name, item)] }

/-- With another item under a name. -/
def put (body : Body) (name : String) (item : Item) : Body :=
  { body with
    members := body.members.map fun member => if member.1.text = name then (member.1, item) else member }

def remove (body : Body) (name : String) : Body :=
  { body with members := body.members.filter (·.1.text != name) }

/-- With a stretch that goes up to the end of another. -/
def reaching (body : Body) (span : Option Span) : Body :=
  match body.span, span with
  | some mine, some other => { body with span := some ⟨mine.first, other.stop⟩ }
  | _, _ => body

def toItem (body : Body) (origin : Origin) : Item :=
  .table origin body.span body.members

/-! ## Headers -/

/-- A change to the table that a header's path leads to, with the names that are passed. Tables that are passed
for the first time begin. A list of tables stands for its last one. -/
def atPath (change : Body → Except Cause Body) (passed : List String) :
    List Name → Body → Except Cause Body
  | [], body => change body
  | name :: path, body =>
    let passed := passed ++ [name.text]
    match body.get? name.text with
    | none => do return body.add name ((← atPath change passed path empty).toItem .passing)
    | some (.tables front (.table origin span members)) => do
      let last ← atPath change passed path ⟨span, members⟩
      return body.put name.text (.tables front (last.toItem origin))
    | some (.table .braces span members) =>
      throw (.throughValue passed (Item.table .braces span members).kind)
    | some (.table origin span members) => do
      return body.put name.text ((← atPath change passed path ⟨span, members⟩).toItem origin)
    | some item => throw (.throughValue passed item.kind)

/-- A header for one table, at the end of the table around it. -/
def openTable (way : List String) (name : Name) (span : Span) (body : Body) : Except Cause Body :=
  match body.get? name.text with
  | none => return body.add name (.table .header (some span) [])
  | some (.table .passing _ inside) =>
    return (body.remove name.text).add name (.table .header (some span) inside)
  | some _ => throw (.duplicate (Cause.written name.text) (some way))

/-- A header for one more table of a list. -/
def openItem (way : List String) (name : Name) (span : Span) (body : Body) : Except Cause Body :=
  let table := Item.table .header (some span) []
  match body.get? name.text with
  | none => return body.add name (.tables [] table)
  | some (.tables front last) => return body.put name.text (.tables (front ++ [last]) table)
  | some _ => throw (.duplicate (Cause.written name.text) (some way))

/-! ## Values -/

/-- Where a value is written: in the table of a path, or between braces. -/
inductive Site where
  | table (path : List String)
  | braces

def Site.path? : Site → Option (List String)
  | .table path => some path
  | .braces => none

/-- A value under the last of several names. It must be new, and the table it goes to must belong to the keys
that lead there. -/
def assign (site : Site) (value : Item) (name : Name) (passed : List String) :
    List Name → Body → Except Cause Body
  | [], body =>
    if (body.get? name.text).isNone then return body.add name value
    else throw (.duplicate name.text site.path?)
  | key :: keys, body =>
    let passed := passed ++ [key.text]
    let go (origin : Origin) (inside : Body) : Except Cause Item :=
      if keys.isEmpty && origin != .dotted then throw (.duplicate name.text none)
      else do return (← assign site value name passed keys inside).toItem origin
    match body.get? key.text with
    | none => do return body.add key (← go .dotted empty)
    | some (.tables front (.table origin span members)) => do
      return body.put key.text (.tables front (← go origin ⟨span, members⟩))
    | some (.table origin span members) =>
      match origin, site with
      | .braces, .table _ => throw (.throughValue passed (Item.table origin span members).kind)
      | .braces, .braces | .header, _ => throw (.duplicate key.text none)
      | _, _ => do return body.put key.text (← go origin ⟨span, members⟩)
    | some item => throw (.throughValue passed item.kind)

end Body

/-- A dotted key: the names on the way, and the last one. -/
structure Key where
  way : List Name
  name : Name

/-- The settings so far, and the table that values go to. -/
structure Draft where
  body : Body
  path : List Name

namespace Draft

/-- A text begins with values of the outermost table, which has no header. -/
def empty : Draft := ⟨⟨some ⟨0, 0⟩, []⟩, []⟩

/-- A header for one table, or for one more table of a list. -/
def openTable (isItem : Bool) (key : Key) (span : Span) (draft : Draft) : Except Cause Draft := do
  let way := key.way.map (·.text)
  let change := if isItem then Body.openItem way key.name span else Body.openTable way key.name span
  return ⟨← draft.body.atPath change [] key.way, key.way ++ [key.name]⟩

/-- A value, up to whose end its table reaches now. -/
def assign (key : Key) (value : Item) (draft : Draft) : Except Cause Draft := do
  let change (body : Body) : Except Cause Body := do
    let body ← body.assign (.table (draft.path.map (·.text))) value key.name [] key.way
    return body.reaching value.span?
  return { draft with body := ← draft.body.atPath change [] draft.path }

end Draft

end TradeReport.Toml
