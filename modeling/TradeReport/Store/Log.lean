/-!
# Log files

A log file holds one record on a line. Writers only append, and a reader passes over lines that hold no record.
What is appended after a line that was cut off belongs to that line.
-/

namespace TradeReport.Log

/-- The lines of a text. A line break ends a line, and so does the end of the text when something precedes
it. -/
def lines : List Char → List (List Char)
  | [] => []
  | '\n' :: rest => [] :: lines rest
  | c :: rest =>
    match lines rest with
    | [] => [[c]]
    | line :: more => (c :: line) :: more

/-- The records of a log, given how a line is read. -/
def records (ofLine? : List Char → Option α) (text : List Char) : List α :=
  (lines text).filterMap ofLine?

/-- What is appended for one record. -/
def entry (line : String) : String :=
  line ++ "\n"

end TradeReport.Log
