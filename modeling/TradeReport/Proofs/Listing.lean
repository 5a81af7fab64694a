import Mathlib.Data.List.TakeDrop
import TradeReport.Proofs.Text.ByteOrder
import TradeReport.Trade.Pair
/-!
# Pairs and listings

A symbol is split at its first dash (`splitAtDash?_eq_some_iff`), and the symbol of a pair is the one it was read from
(`symbol_of_ofSymbol?`), so a listing is known from its market and its pair. Listings are ordered by the bytes of the
market, and within one market by those of the symbol.
-/

namespace TradeReport

theorem splitAtDash?_eq_some_iff {symbol front back : String} :
    splitAtDash? symbol = some (front, back) ↔ '-' ∉ front.toList ∧ front ++ "-" ++ back = symbol := by
  unfold splitAtDash?
  rw [List.span_eq_takeWhile_dropWhile]
  constructor
  · intro h
    have hjoin := List.takeWhile_append_dropWhile (p := (· != '-')) (l := symbol.toList)
    have hhead := List.head?_dropWhile_not (· != '-') symbol.toList
    cases hback : symbol.toList.dropWhile (· != '-') with
    | nil =>
      rw [hback] at h
      cases h
    | cons dash rest =>
      rw [hback] at h hjoin hhead
      obtain ⟨rfl, rfl⟩ := Prod.mk.inj (Option.some.inj h)
      obtain rfl : dash = '-' := by simpa using hhead
      refine ⟨fun hmem => ?_, ?_⟩
      · rw [String.toList_ofList] at hmem
        exact absurd (List.all_eq_true.1 List.all_takeWhile _ hmem) (by simp)
      · rw [← String.toList_inj]
        simp only [String.toList_append, String.toList_ofList, List.append_assoc]
        exact hjoin
  · rintro ⟨hfront, rfl⟩
    have hplain : ∀ c ∈ front.toList, (c != '-') = true := by
      intro c hc
      rw [bne_iff_ne]
      rintro rfl
      exact hfront hc
    have hchars : (front ++ "-" ++ back).toList = front.toList ++ '-' :: back.toList := by
      rw [String.toList_append, String.toList_append, List.append_assoc]
      rfl
    rw [hchars, List.takeWhile_append_of_pos hplain, List.dropWhile_append_of_pos hplain]
    simp

namespace Pair

variable {symbol : String} {pair : Pair}

theorem ofSymbol?_eq_some_iff_split : ofSymbol? symbol = some pair ↔
    splitAtDash? symbol = some (pair.base, pair.quote) ∧ pair.base ≠ "" ∧ pair.quote ≠ "" ∧
      '-' ∉ pair.quote.toList := by
  unfold ofSymbol? ofSymbol
  cases hsplit : splitAtDash? symbol with
  | none => exact iff_of_false nofun nofun
  | some sides =>
    obtain ⟨front, back⟩ := sides
    dsimp only
    split
    · rename_i hbroken
      refine iff_of_false nofun ?_
      rintro ⟨hsides, hbase, hquote, hdash⟩
      cases hsides
      tauto
    · rename_i hsound
      constructor
      · intro h
        cases h
        tauto
      · rintro ⟨hsides, -⟩
        cases hsides
        rfl

theorem splitAtDash?_of_ofSymbol? (h : ofSymbol? symbol = some pair) :
    splitAtDash? symbol = some (pair.base, pair.quote) :=
  (ofSymbol?_eq_some_iff_split.1 h).1

theorem symbol_of_ofSymbol? (h : ofSymbol? symbol = some pair) : pair.symbol = symbol :=
  (splitAtDash?_eq_some_iff.1 (splitAtDash?_of_ofSymbol? h)).2

theorem ofSymbol_eq_ok_iff : ofSymbol symbol = .ok pair ↔ ofSymbol? symbol = some pair := by
  unfold ofSymbol?
  cases ofSymbol symbol with
  | error error => exact iff_of_false nofun nofun
  | ok read => exact ⟨fun h => congrArg Except.toOption h, fun h => congrArg Except.ok (Option.some.inj h)⟩

theorem ofSymbol_of_none (h : ofSymbol? symbol = none) : ofSymbol symbol = .error (.invalidPair symbol) := by
  unfold ofSymbol? ofSymbol at h
  unfold ofSymbol
  split at h
  · split at h
    · rw [if_pos ‹_›]
      rfl
    · cases h
  · rfl

theorem ofSymbol_of_some (h : ofSymbol? symbol = some pair) : ofSymbol symbol = .ok pair :=
  ofSymbol_eq_ok_iff.2 h

theorem ofSymbol_eq_error_iff {error : CalculationError} :
    ofSymbol symbol = .error error ↔ ofSymbol? symbol = none ∧ error = .invalidPair symbol := by
  constructor
  · intro h
    have hnone : ofSymbol? symbol = none := congrArg Except.toOption h
    exact ⟨hnone, (Except.error.inj ((ofSymbol_of_none hnone).symm.trans h)).symm⟩
  · rintro ⟨hnone, rfl⟩
    exact ofSymbol_of_none hnone

end Pair

namespace Listing

instance : Std.LawfulEqOrd Listing where
  eq_of_compare {a b} h := by
    have hparts : compare a.market b.market = .eq ∧ compare a.symbol b.symbol = .eq := Ordering.then_eq_eq.1 h
    exact Listing.ext (Std.LawfulEqOrd.eq_of_compare hparts.1) (Std.LawfulEqOrd.eq_of_compare hparts.2)

/-- Before in the order of bytes, by the market first. -/
def BytesBefore (a b : Listing) : Prop :=
  bytesOf a.market < bytesOf b.market ∨ a.market = b.market ∧ bytesOf a.symbol < bytesOf b.symbol

theorem bytesBefore_of_compare {a b : Listing} (h : compare a b = .lt) : BytesBefore a b := by
  have hparts : (compare a.market b.market).then (compare a.symbol b.symbol) = .lt := h
  rcases Ordering.then_eq_lt.1 hparts with hmarket | ⟨hmarket, hsymbol⟩
  · exact .inl (bytesOf_lt hmarket)
  · exact .inr ⟨Std.LawfulEqOrd.eq_of_compare hmarket, bytesOf_lt hsymbol⟩

end Listing

end TradeReport
