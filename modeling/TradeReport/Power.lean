/-!
# Powers

The powers that bounds of words and places of decimals are made of.
-/

namespace TradeReport

abbrev twoPower (exponent : Nat) : Nat := Nat.pow 2 exponent

abbrev tenPower (exponent : Nat) : Nat := Nat.pow 10 exponent

end TradeReport
