import TradeReport.Toml.Complaint
/-!
# Scanning text

A scan reads the front of a text and leaves the rest, or it complains. Where the complaint is not final another
scan can be tried in its place, from where the first one began.
-/

namespace TradeReport.Toml

/-- The rest of a text, and the number of the characters before it. -/
structure Cursor where
  place : Nat
  rest : List Char

/-- What is read from the front of a text, and the rest of the text. -/
def Scan (α : Type) : Type :=
  StateT Cursor (Except Complaint) α

namespace Scan

variable {α β : Type}

instance : Monad Scan :=
  inferInstanceAs (Monad (StateT Cursor (Except Complaint)))

/-- The second scan has its turn if the first one cannot read the text, and the complaint is its own then. -/
def orElse (first : Scan α) (second : Unit → Scan α) : Scan α := fun cursor =>
  match first cursor with
  | .error complaint => if complaint.isFinal then .error complaint else second () cursor
  | found => found

instance : OrElse (Scan α) := ⟨orElse⟩

/-! ## Complaints -/

def place : Scan Nat := fun cursor =>
  .ok (cursor.place, cursor)

/-- The next character, which is not read. -/
def next? : Scan (Option Char) := fun cursor =>
  .ok (cursor.rest.head?, cursor)

def refuseAt (place : Nat) (cause : Option Cause) : Scan α := fun _ =>
  .error { place, cause }

def refuse : Scan α := do
  refuseAt (← place) none

/-- The scan with another complaint. -/
def complaining (change : Cursor → Complaint → Complaint) (scan : Scan α) : Scan α := fun cursor =>
  (scan cursor).mapError (change cursor)

/-- What is being read, if the complaint does not say it more closely. -/
def about (subject : String) : Scan α → Scan α :=
  complaining fun _ complaint => { complaint with subject := complaint.subject <|> some subject }

def expecting (expectation : Expectation) : Scan α → Scan α :=
  complaining fun _ complaint => { complaint with expected := complaint.expected ++ [expectation] }

/-- The scan without another way to read the text. -/
def firm : Scan α → Scan α :=
  complaining fun _ complaint => { complaint with isFinal := true }

/-- What a rule makes of what is read. What breaks the rule is no longer read. -/
def ruled (scan : Scan α) (rule : α → Except Cause β) : Scan β := do
  let first ← place
  match rule (← scan) with
  | .ok found => return found
  | .error cause => refuseAt first (some cause)

/-- What is read by a scan, and is still there to be read again. -/
def ahead (scan : Scan α) : Scan α := fun cursor =>
  match scan.complaining (fun cursor complaint => { complaint with place := cursor.place }) cursor with
  | .ok (found, _) => .ok (found, cursor)
  | .error complaint => .error complaint

/-- What is read, and where. -/
def spanned (scan : Scan α) : Scan (α × Span) := do
  let first ← place
  let found ← scan
  return (found, ⟨first, ← place⟩)

/-! ## Characters -/

/-- One character of a class. -/
def charWhere (accept : Char → Bool) : Scan Char := fun cursor =>
  match cursor.rest with
  | [] => .error (.atPlace cursor.place)
  | c :: rest => if accept c then .ok (c, ⟨cursor.place + 1, rest⟩) else .error (.atPlace cursor.place)

def anyChar : Scan Char :=
  charWhere fun _ => true

def char (c : Char) : Scan Unit :=
  discard (charWhere (· == c))

/-- The characters of a word, one after the other. -/
def word (text : String) : Scan Unit := fun cursor =>
  match text.toList.isPrefixOf? cursor.rest with
  | some rest => .ok ((), ⟨cursor.place + text.length, rest⟩)
  | none => .error (.atPlace cursor.place)

/-- The longest run of characters of a class. -/
def charsWhere (accept : Char → Bool) : Scan (List Char) := fun cursor =>
  let (run, rest) := cursor.rest.span accept
  .ok (run, ⟨cursor.place + run.length, rest⟩)

/-- The next characters, if there are so many and all of them are of a class. -/
def exactly (count : Nat) (accept : Char → Bool) : Scan (List Char) := fun cursor =>
  let run := (cursor.rest.take count).takeWhile accept
  if run.length = count then .ok (run, ⟨cursor.place + count, cursor.rest.drop count⟩)
  else .error (.atPlace cursor.place)

def atEnd : Scan Unit := do
  if (← next?).isSome then refuse

/-! ## Repetition -/

/-- What is read if it is there. -/
def optional? (scan : Scan α) : Scan (Option α) :=
  (some <$> scan) <|> pure none

/-- A step at most so many times, and no further than the first time that nothing is read. -/
def stepsUpTo (step : β → Scan β) : Nat → β → Scan β
  | 0, state => pure state
  | limit + 1, state => fun cursor =>
    match step state cursor with
    | .error complaint => if complaint.isFinal then .error complaint else .ok (state, cursor)
    | .ok (after, behind) =>
      if cursor.place < behind.place then stepsUpTo step limit after behind else .ok (after, behind)

/-- A step as often as it succeeds. Each time but the last reads a character, so the limit is not met. -/
def steps (step : β → Scan β) (state : β) : Scan β := fun cursor =>
  stepsUpTo step (cursor.rest.length + 1) state cursor

def many (scan : Scan α) : Scan (List α) :=
  List.reverse <$> steps (fun found => do return (← scan) :: found) []

/-- One or more with a separator between each two. -/
def separated (separator : Scan Unit) (scan : Scan α) : Scan (List α) := do
  let first ← scan
  return first :: (← many (separator *> scan))

/-- What a scan makes of a text, or what is wrong with the text. -/
def ofText (scan : Scan α) (text : List Char) : Except Flaw α :=
  match scan ⟨0, text⟩ with
  | .ok (found, _) => .ok found
  | .error complaint => .error (complaint.flaw text)

end Scan

end TradeReport.Toml
