import TradeReport.Toml.Item
import TradeReport.Toml.Moment
/-!
# Reading settings

Settings are read line by line. A line holds a header, a pair or nothing, and may end in a comment. Values may
go on over several lines, and nest to a fixed depth.
-/

namespace TradeReport.Toml

open Scan

/-- The most lists and braces around a value. -/
abbrev nestingLimit : Nat := 79

/-- The most names in a dotted key. -/
abbrev keyLimit : Nat := 79

/-! ## Blanks -/

def spaces : Scan Unit :=
  discard (charsWhere isSpace)

def comment : Scan Unit := do
  char '#'
  let _ ← charsWhere isPlain

/-- The end of a line between the items of a list, behind a comment if there is one. -/
def breakInList : Scan Unit := do
  if (← next?) = some '#' then comment
  discard newline

/-- Space, comments and line breaks between the items of a list. A comment or a line that has begun must end. -/
def gap : Scan Unit := do
  spaces
  let _ ← many (breakInList *> spaces)
  if (← next?).any (fun c => c == '#' || c == '\r') then breakInList

/-- The end of a line or of the text. -/
def lineEnd : Scan Unit :=
  discard newline <|> atEnd

/-- What may stand on a line behind a header or a value. -/
def lineBehind : Scan Unit :=
  expecting (.char '#') <| expecting (.char '\n') do
    spaces
    if (← next?) = some '#' then comment
    lineEnd

/-! ## Keys -/

def bareName : Scan String := do
  let c ← charWhere Cause.isBare
  return String.ofList (c :: (← charsWhere Cause.isBare))

def name : Scan Name := do
  spaces
  let (text, span) ← spanned (doubleQuoted <|> singleQuoted <|> bareName)
  spaces
  return ⟨text, span⟩

def key : Scan Key :=
  (about "key" (separated (char '.') name)).ruled fun names =>
    match names.getLast? with
    | some last => if names.length ≤ keyLimit then .ok ⟨names.dropLast, last⟩ else .error .tooDeep
    | none => .error .tooDeep

/-- A key, the sign behind it, and a value. -/
def pair (value : Scan Item) : Scan (Key × Item) := do
  let key ← key
  firm do
    (char '=').expecting (.char '.') |>.expecting (.char '=')
    spaces
    return (key, ← value)

/-! ## Values -/

/-- A value up to the stretch where it is written. -/
abbrev Unplaced := Span → Item

def scalarOf (make : α → Scalar) (scan : Scan α) : Scan Unplaced := do
  let value := make (← scan)
  return fun span => .scalar span value

def listOf (value : Scan Item) : Scan Unplaced := do
  char '['
  let items ← firm do
    let items ← optional? (separated (char ',') (gap *> value <* gap) <* optional? (char ','))
    gap
    return items.getD []
  (char ']').firm.about "array" |>.expecting (.char ']')
  return fun span => .list span items

/-- A table between braces on one line. -/
def bracesOf (value : Scan Item) : Scan Unplaced := do
  char '\x7b'
  let pairs := (optional? (separated (char ',') (pair value <* spaces))) <* spaces
  let body ← firm <| pairs.ruled fun pairs =>
    (pairs.getD []).foldlM (fun body (key, value) => body.assign .braces value key.name [] key.way) Body.empty
  (char '\x7d').firm.about "inline table" |>.expecting (.char '\x7d')
  return fun span => .table .braces (some span) body.members

/-- A number or a moment, by a sign or a digit at its beginning. -/
def number : Scan Unplaced :=
  scalarOf .moment moment <|> scalarOf .double double <|> scalarOf .whole whole

/-- A value whose beginning tells no kind was meant as text. -/
def meantAsText (scan : Scan α) : Scan α :=
  (scan.about "string").expecting (.char '"') |>.expecting (.char '\'')

/-- A value, by its first character. -/
def valueWith (list braces : Scan Unplaced) : Scan Item := do
  let first ← next?
  let (item, span) ← spanned <|
    match first with
    | none => refuse
    | some '"' | some '\'' => scalarOf .text quoted
    | some '[' => list
    | some '\x7b' => braces
    | some '_' => (scalarOf .whole whole).expecting (.phrase "leading digit")
    | some '.' => (scalarOf .double double).expecting (.phrase "leading digit")
    | some 't' => meantAsText (scalarOf (fun _ => .truth true) (word "true").firm)
    | some 'f' => meantAsText (scalarOf (fun _ => .truth false) (word "false").firm)
    | some 'i' => meantAsText (scalarOf .double infinity)
    | some 'n' => meantAsText (scalarOf .double nan)
    | some c => if c == '+' || c == '-' || c.isDigit then number else meantAsText refuse
  return item span

/-- A value with at most so many lists and braces around what is inside it. -/
def value : Nat → Scan Item
  | 0 =>
    let tooDeep := firm do refuseAt (← place) (some .tooDeep)
    valueWith tooDeep tooDeep
  | depth + 1 => valueWith (listOf (value depth)) (bracesOf (value depth))

/-! ## Lines -/

/-- A key between brackets. -/
def bracketed (front back : String) : Scan Key := do
  word front
  firm do
    let key ← key
    (word back).expecting (.char '.') |>.expecting (.word back)
    return key

/-- A header. Two brackets stand around the key of one more table of a list. -/
def header (draft : Draft) : Scan Draft :=
  about "table header" do
    let isItem := (← optional? (word "[[").ahead).isSome
    discard (anyChar *> anyChar).ahead
    let key := if isItem then bracketed "[[" "]]" else bracketed "[" "]"
    (spanned key <* firm lineBehind).ruled fun (key, span) => draft.openTable isItem key span

/-- A key and its value, which goes to the table of the last header. -/
def assignment (draft : Draft) : Scan Draft :=
  (pair (value nestingLimit) <* firm lineBehind).ruled fun (key, value) => draft.assign key value

/-- One line with its end, which a last line can do without. -/
def line (draft : Draft) : Scan Draft := do
  let draft ←
    match ← next? with
    | none => refuse
    | some '#' => firm (comment *> lineEnd *> pure draft)
    | some '[' => firm (header draft)
    | some '\n' | some '\r' => newline *> pure draft
    | some _ => firm (assignment draft)
  spaces
  return draft

/-- The settings of a text. A mark of byte order may stand at its beginning. -/
def settings : Scan Body := do
  let _ ← optional? (char '\ufeff')
  spaces
  let draft ← steps line Draft.empty
  atEnd
  return draft.body

def read (text : List Char) : Except Flaw Body :=
  settings.ofText text

end TradeReport.Toml
