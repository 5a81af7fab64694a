/-!
# Blank text

The characters that count as white space in any script, and the names made of nothing else. A fill whose
market or run has such a name belongs to nobody.
-/

namespace TradeReport

/-- The characters with the `White_Space` property. -/
def isBlankChar (c : Char) : Bool :=
  let code := c.toNat
  (0x09 ≤ code && code ≤ 0x0D) || code == 0x20 || code == 0x85 || code == 0xA0 || code == 0x1680
    || (0x2000 ≤ code && code ≤ 0x200A) || code == 0x2028 || code == 0x2029 || code == 0x202F
    || code == 0x205F || code == 0x3000

/-- Empty, or white space throughout. -/
def isBlank (text : String) : Bool :=
  text.toList.all isBlankChar

end TradeReport
