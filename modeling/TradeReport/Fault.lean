import TradeReport.Text.Grid
/-!
# Faults

A fault is a message with the messages of what caused it, nearest first. Whoever passes a fault on may put a
message of its own in front.
-/

namespace TradeReport

structure Fault where
  message : String
  causes : List String
  deriving DecidableEq, Repr

namespace Fault

def ofMessage (message : String) : Fault := ⟨message, []⟩

/-- The fault as the cause of another. -/
def within (context : String) (fault : Fault) : Fault :=
  ⟨context, fault.message :: fault.causes⟩

/-- A text with its further lines indented under the first. -/
def indentedBelow (margin : List Char) (text : String) : List Char :=
  joinWith ('\n' :: margin) (splitAtBreaks text.toList)

/-- A cause with its number, which ends at the fifth column. -/
def numberedCause (number : Nat) (cause : String) : List Char :=
  let digits := Nat.toDigits 10 number
  '\n' :: List.replicate (5 - digits.length) ' ' ++ digits ++ ": ".toList
    ++ indentedBelow (List.replicate 7 ' ') cause

/-- The whole fault: its message, and below it the causes. Several causes are numbered. -/
def trace (fault : Fault) : String :=
  let causes :=
    match fault.causes with
    | [] => []
    | [cause] =>
      "\n\nCaused by:\n    ".toList ++ indentedBelow (List.replicate 4 ' ') cause
    | causes =>
      "\n\nCaused by:".toList
        ++ ((List.range causes.length).zip causes).flatMap fun (number, cause) =>
          numberedCause number cause
  String.ofList (fault.message.toList ++ causes)

end Fault

end TradeReport
