import TradeReport.Binary64.Shortest
import TradeReport.Text.Quoted
import TradeReport.Toml.Item
/-!
# Reading settings of a kind

Whoever takes settings says of which kind each one must be. What does not match is located as closely as it can
be: at the value, or else at the table around it, or else at the name under which it stands.
-/

namespace TradeReport.Toml

/-! ## Mismatches -/

inductive Problem where
  | wrongKind (found expected : String)
  | wrongValue (found expected : String)
  | tooFew (count : Nat) (expected : String)
  | missing (name : String)
  | unknownChoice (found : String) (choices : List String)
  | noChoice
  | severalChoices
  | notAChoice
  | notEmptyTable
  | notEmptyList
  | notATable (kind : String)

def Problem.message : Problem → String
  | wrongKind found expected => "invalid type: " ++ found ++ ", expected " ++ expected
  | wrongValue found expected => "invalid value: " ++ found ++ ", expected " ++ expected
  | tooFew count expected => "invalid length " ++ toString count ++ ", expected " ++ expected
  | missing name => "missing field \x60" ++ name ++ "\x60"
  | unknownChoice found choices =>
    "unknown variant \x60" ++ found ++ "\x60, expected "
      ++ " or ".intercalate (choices.map fun choice => "\x60" ++ choice ++ "\x60")
  | noChoice => "wanted exactly 1 element, found 0 elements"
  | severalChoices => "wanted exactly 1 element, more than 1 element"
  | notAChoice => "wanted string or table"
  | notEmptyTable => "expected empty table"
  | notEmptyList => "expected empty array"
  | notATable kind => "expected table, found " ++ kind

structure Mismatch where
  span : Option Span
  problem : Problem

/-- What settings give, or the first thing about them that does not match. -/
abbrev Reading := Except Mismatch

def Mismatch.flaw (mismatch : Mismatch) : Flaw :=
  ⟨mismatch.span.getD ⟨0, 0⟩, mismatch.problem.message⟩

namespace Reading

variable {α σ : Type}

/-- What does not match is at a stretch, unless it is known more closely. -/
def locate (span : Option Span) (reading : Reading α) : Reading α :=
  reading.mapError fun mismatch => { mismatch with span := mismatch.span <|> span }

def doubleText (x : Float) : String :=
  let text := Binary64.toText x
  if x.isFinite && !text.contains '.' then text ++ ".0" else text

/-- An item as a message shows it. -/
def shown : Item → String
  | .scalar _ (.text s) => "string " ++ Quoted.ofText s
  | .scalar _ (.whole n) => "integer \x60" ++ toString n ++ "\x60"
  | .scalar _ (.double x) => "floating point \x60" ++ doubleText x ++ "\x60"
  | .scalar _ (.truth b) => "boolean \x60" ++ toString b ++ "\x60"
  | .list _ _ | .tables _ _ => "sequence"
  | .scalar _ (.moment _) | .table _ _ _ => "map"

def wrongKind (expected : String) (item : Item) : Reading α :=
  throw ⟨item.span?, .wrongKind (shown item) expected⟩

def wrongValue (expected : String) (item : Item) : Reading α :=
  throw ⟨item.span?, .wrongValue (shown item) expected⟩

/-! ## Values -/

def text : Item → Reading String
  | .scalar _ (.text s) => return s
  | item => wrongKind "a string" item

def truth : Item → Reading Bool
  | .scalar _ (.truth b) => return b
  | item => wrongKind "a boolean" item

/-- A whole number that is not negative and has at most so many bits. -/
def natural (bits : Nat) (expected : String) : Item → Reading Nat
  | .scalar span (.whole n) =>
    if 0 ≤ n ∧ n < wordBound bits then return n.toNat
    else wrongValue expected (.scalar span (.whole n))
  | item => wrongKind expected item

def list (read : Item → Reading α) : Item → Reading (List α)
  | .list _ items => items.mapM read
  | .tables front last => (front ++ [last]).mapM read
  | item => wrongKind "a sequence" item

/-! ## Choices -/

/-- That nothing stands under a choice. -/
def nothing : Item → Reading Unit
  | .tables front last => throw ⟨(Item.tables front last).span?, .notEmptyList⟩
  | .list span items => if items.isEmpty then return else throw ⟨some span, .notEmptyTable⟩
  | .table _ span members => if members.isEmpty then return else throw ⟨span, .notEmptyTable⟩
  | item => throw ⟨item.span?, .notATable item.kind⟩

/-- One of several choices: its name, or a table in which it is the only member. -/
def choice (choices : List (String × α)) (item : Item) : Reading α :=
  locate item.span? <|
    match item with
    | .scalar _ (.text s) => ofName s
    | .table _ _ [] => throw ⟨none, .noChoice⟩
    | .table _ _ [(name, inside)] => do
      let found ← locate (some name.span) (ofName name.text)
      nothing inside
      return found
    | .table _ _ _ => throw ⟨none, .severalChoices⟩
    | _ => throw ⟨none, .notAChoice⟩
where
  ofName (name : String) : Reading α :=
    match choices.lookup name with
    | some found => return found
    | none => throw ⟨none, .unknownChoice name (choices.map (·.1))⟩

/-! ## Tables -/

/-- What stands under a name, which is located by the name if it has no stretch of its own. -/
def member (read : Item → Reading α) (member : Name × Item) : Reading α :=
  locate (member.2.span? <|> some member.1.span) (read member.2)

/-- A table of values of one kind, in the order in which they are written. -/
def table (read : Item → Reading α) : Item → Reading (List (String × α))
  | .table _ _ members => members.mapM fun entry => do return (entry.1.text, ← member read entry)
  | .scalar span (.moment s) => do return [(s, ← read (.scalar span (.text s)))]
  | item => wrongKind "a map" item

/-- A group of settings: what an item under each name changes in what is known so far. -/
structure Group (σ : Type) where
  title : String
  settings : List (String × (Item → σ → Reading σ))

namespace Group

/-- Each member in the order in which they are written; one under an unknown name changes nothing. -/
def ofMembers (group : Group σ) (start : σ) (members : Members) : Reading σ :=
  members.foldlM
    (fun state entry =>
      match group.settings.lookup entry.1.text with
      | some change => member (fun item => change item state) entry
      | none => return state)
    start

/-- A group may be given as the list of its settings in their order. -/
def ofList (group : Group σ) (start : σ) (items : List Item) : Reading σ :=
  (group.settings.zip items).foldlM (fun state (setting, item) => setting.2 item state) start

def read (group : Group σ) (start : σ) : Item → Reading σ
  | .table _ _ members => group.ofMembers start members
  | .list _ items => group.ofList start items
  | .tables front last => group.ofList start (front ++ [last])
  | .scalar _ (.moment _) => return start
  | item => wrongKind group.title item

end Group

end Reading

end TradeReport.Toml
