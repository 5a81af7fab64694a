/-!
# Fields of records

A record gives something for each of its fields or leaves it out. Here is how a field is read from what was
given.
-/

namespace TradeReport.Field

variable {α β : Type}

/-- A field that must be given. -/
def required (read : β → Option α) (slot : Option β) : Option α :=
  slot.bind read

/-- A field with a default. -/
def defaulting (default : α) (read : β → Option α) : Option β → Option α
  | none => some default
  | some given => read given

end TradeReport.Field
