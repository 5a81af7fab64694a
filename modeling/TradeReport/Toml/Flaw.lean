/-!
# Flaws of settings

A flaw is a stretch of a text and what is wrong there. Its report names the line and the column where the
stretch begins, shows that line, and puts a mark under it for every byte of the stretch that lies on it.
-/

namespace TradeReport.Toml

/-- A stretch of a text: the number of the characters before it, and of those up to its end. -/
structure Span where
  first : Nat
  stop : Nat
  deriving DecidableEq, Repr

/-- A name of a table or of a value, and where it is written. -/
structure Name where
  text : String
  span : Span
  deriving DecidableEq, Repr

structure Flaw where
  span : Span
  message : String
  deriving DecidableEq, Repr

namespace Flaw

def byteCount (text : List Char) : Nat :=
  text.foldl (fun count c => count + c.utf8Size) 0

/-- The front of a line, up to a character of the text, or to the last one where the text ends. -/
def lineFront (text : List Char) (place : Nat) : List Char :=
  ((text.take (min place (text.length - 1))).reverse.takeWhile (· != '\n')).reverse

/-- How many lines are above the line of a place. -/
def lineNumber (text : List Char) (place : Nat) : Nat :=
  (text.take (min place (text.length - 1))).count '\n'

/-- How many columns are before a place on its line. Characters are counted, or bytes if the character at the
place has more than one; the end of a text is one column behind its last character. -/
def column (text : List Char) (place : Nat) : Nat :=
  let front := lineFront text place
  match text[place]? with
  | some c => if c.utf8Size = 1 then front.length else byteCount front
  | none => front.length + min text.length 1

/-- The line of a place, without its end. -/
def line (text : List Char) (place : Nat) : List Char :=
  let front := lineFront text place
  front ++ (text.drop (min place (text.length - 1))).takeWhile (· != '\n')

/-- How many marks stand under the line: at least one, and none beyond its end. -/
def marks (text : List Char) (span : Span) : Nat :=
  let stretch := byteCount ((text.take span.stop).drop span.first)
  let room := byteCount (line text span.first) - column text span.first
  max 1 (min stretch room)

/-- The report, of which each line has an end. -/
def report (text : List Char) (flaw : Flaw) : String :=
  let number := toString (lineNumber text flaw.span.first + 1)
  let column := column text flaw.span.first
  let gutter := String.ofList (List.replicate (number.length + 1) ' ') ++ "|"
  let margin := String.ofList (List.replicate (column + 1) ' ')
  let lines :=
    [ "TOML parse error at line " ++ number ++ ", column " ++ toString (column + 1),
      gutter,
      number ++ " | " ++ String.ofList (line text flaw.span.first),
      gutter ++ margin ++ String.ofList (List.replicate (marks text flaw.span) '^'),
      flaw.message ]
  String.join (lines.map (· ++ "\n"))

end Flaw

end TradeReport.Toml
