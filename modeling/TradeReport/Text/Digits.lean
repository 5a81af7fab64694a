/-!
# Numbers of a fixed width

Parts of dates and the places of decimals are written with zeros in front.
-/

namespace TradeReport

/-- The digits of `value`, with zeros in front up to `width`. -/
def zeroPadded (width value : Nat) : List Char :=
  let digits := Nat.toDigits 10 value
  List.replicate (width - digits.length) '0' ++ digits

end TradeReport
