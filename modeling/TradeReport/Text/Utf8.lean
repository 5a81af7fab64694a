/-!
# Text in bytes

How bytes are shown as text when they need not be text. A character takes one to four bytes, the first of which
tells how many follow; bytes that cannot be part of a character are shown by a replacement mark, one mark for as
many of them as began a character.
-/

namespace TradeReport.Utf8

/-- The mark that stands for bytes that are no text. -/
def replacement : Char := '\uFFFD'

/-- What follows a first byte: the value that it begins, and the range of each further byte. Absent for a byte
that cannot be first. -/
def ranges? (first : UInt8) : Option (Nat × List (UInt8 × UInt8)) :=
  let next : UInt8 × UInt8 := (0x80, 0xBF)
  if first < 0x80 then some (first.toNat, [])
  else if first < 0xC2 then none
  else if first < 0xE0 then some (first.toNat - 0xC0, [next])
  else if first = 0xE0 then some (0, [(0xA0, 0xBF), next])
  else if first = 0xED then some (0xD, [(0x80, 0x9F), next])
  else if first < 0xF0 then some (first.toNat - 0xE0, [next, next])
  else if first = 0xF0 then some (0, [(0x90, 0xBF), next, next])
  else if first < 0xF4 then some (first.toNat - 0xF0, [next, next, next])
  else if first = 0xF4 then some (4, [(0x80, 0x8F), next, next])
  else none

/-- The character whose value so far and further ranges are given, or the mark where a byte is out of its range,
and the number of further bytes that belong to it. -/
def follow (value : Nat) : List (UInt8 × UInt8) → List UInt8 → Char × Nat
  | [], _ => (Char.ofNat value, 0)
  | _ :: _, [] => (replacement, 0)
  | range :: ranges, byte :: bytes =>
    if range.1 ≤ byte ∧ byte ≤ range.2 then
      let (c, count) := follow (value * 64 + (byte.toNat - 0x80)) ranges bytes
      (c, count + 1)
    else
      (replacement, 0)

/-- The text that is shown for bytes. -/
def decoded : List UInt8 → List Char
  | [] => []
  | first :: rest =>
    match ranges? first with
    | none => replacement :: decoded rest
    | some (value, ranges) =>
      let (c, count) := follow value ranges rest
      c :: decoded (rest.drop count)
termination_by bytes => bytes.length
decreasing_by
  · simp
  · simp only [List.length_drop, List.length_cons]; omega

end TradeReport.Utf8
