import Mathlib.Data.String.Basic
/-!
# Text in byte order

Strings are ordered character by character, and that is the order of their bytes: of two characters the smaller one
also has the smaller bytes, at the first byte where the two differ (`encode_append_lt`).
-/

namespace TradeReport

def bytesOf (text : String) : List UInt8 :=
  text.toUTF8.data.toList

/-- Before the first byte where two characters differ, nothing after them counts. -/
theorem encode_append_lt {c d : Char} (h : c < d) (x y : List UInt8) :
    String.utf8EncodeChar c ++ x < String.utf8EncodeChar d ++ y := by
  have hlt : c.val.toNat < d.val.toNat := h
  have hbound : d.val.toNat < 0x110000 := by
    have hvalid := d.valid
    unfold UInt32.isValidChar Nat.isValidChar at hvalid
    omega
  unfold String.utf8EncodeChar
  dsimp only
  split_ifs
  all_goals
    simp only [List.cons_append, List.nil_append, List.cons_lt_cons_iff, UInt8.lt_iff_toNat_lt, ← UInt8.toNat_inj,
      UInt8.toNat_ofNat']
    simp (disch := omega) only [Nat.mod_eq_of_lt]
    omega

private theorem flatMap_encode_lt {front back : List Char} (h : front < back) :
    front.flatMap String.utf8EncodeChar < back.flatMap String.utf8EncodeChar := by
  induction front generalizing back with
  | nil =>
    cases back with
    | nil => exact absurd h (List.lt_irrefl _)
    | cons d rest =>
      obtain ⟨byte, more, hbytes⟩ := List.exists_cons_of_ne_nil (String.utf8EncodeChar_ne_nil (c := d))
      rw [List.flatMap_nil, List.flatMap_cons, hbytes]
      exact List.nil_lt_cons _ _
  | cons c front ih =>
    cases back with
    | nil => exact absurd h (List.not_lt_nil _)
    | cons d back =>
      rw [List.flatMap_cons, List.flatMap_cons]
      rcases List.cons_lt_cons_iff.1 h with hlt | ⟨rfl, hrest⟩
      · exact encode_append_lt hlt _ _
      · exact List.append_left_lt (ih hrest)

theorem bytesOf_eq (text : String) : bytesOf text = text.toList.flatMap String.utf8EncodeChar := by
  rw [bytesOf, String.toUTF8, ← String.utf8Encode_toList, List.utf8Encode, List.toList_data_toByteArray]

/-- A string before another has the bytes before the other's. -/
theorem bytesOf_lt {a b : String} (h : compare a b = .lt) : bytesOf a < bytesOf b := by
  have hlt : a < b := compareOfLessAndEq_eq_lt.1 h
  rw [bytesOf_eq, bytesOf_eq]
  exact flatMap_encode_lt hlt

theorem compare_eq_lt_iff {a b : String} : compare a b = .lt ↔ bytesOf a < bytesOf b := by
  refine ⟨bytesOf_lt, fun h => ?_⟩
  cases hab : compare a b with
  | lt => rfl
  | eq =>
    rw [Std.LawfulEqOrd.eq_of_compare hab] at h
    exact absurd h (List.lt_irrefl _)
  | gt => exact absurd (bytesOf_lt (Std.OrientedCmp.lt_of_gt hab)) (List.lt_asymm h)

end TradeReport
