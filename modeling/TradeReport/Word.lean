import TradeReport.Power
/-!
# Words

Whole numbers that are kept in a fixed count of bits stay below a power of two.
-/

namespace TradeReport

/-- Words of so many bits stay below this bound. -/
abbrev wordBound (bits : Nat) : Nat := twoPower bits

end TradeReport
