import TradeReport.Decimal.Arithmetic
/-!
# Why no figures can be computed

There may be no fills, a symbol that names no pair, or a figure that no decimal can hold.
-/

namespace TradeReport

inductive CalculationError where
  | emptyScope
  | invalidPair (symbol : String)
  | overflow (cause : Overflow)
  deriving DecidableEq, Repr

def CalculationError.message : CalculationError → String
  | .emptyScope => "Cannot compute performance metrics on an empty trade set"
  | .invalidPair symbol => "Invalid trading pair symbol '" ++ symbol ++ "', expected BASE-QUOTE"
  | .overflow cause => cause.message

instance : MonadLift (Except Overflow) (Except CalculationError) :=
  ⟨fun result => result.mapError .overflow⟩

end TradeReport
