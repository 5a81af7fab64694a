import Mathlib.Data.List.GetD
import TradeReport.Proofs.Json.Scan
/-!
# JSON values and their text

Reading undoes writing: the text of any value falls into the tokens of that value (`scan_compactValue`), and those
are read as the value (`run_tokens`). The text has no control characters, so a value is on one line
(`visible_compactValue`).
-/

namespace TradeReport.Json

namespace Value

mutual

def tokens : Value → List Token
  | .null => [.null]
  | .bool b => [.bool b]
  | .number n => [.number n]
  | .string text => [.string text]
  | .array [] => [.openArray, .closeArray]
  | .array (item :: rest) => .openArray :: (tokens item ++ (itemTokens rest ++ [.closeArray]))
  | .object [] => [.openObject, .closeObject]
  | .object ((name, value) :: rest) =>
    .openObject :: .string name :: .colon :: (tokens value ++ (memberTokens rest ++ [.closeObject]))

def itemTokens : List Value → List Token
  | [] => []
  | item :: rest => .comma :: (tokens item ++ itemTokens rest)

def memberTokens : List (Text × Value) → List Token
  | [] => []
  | (name, value) :: rest => .comma :: .string name :: .colon :: (tokens value ++ memberTokens rest)

end

end Value

namespace Reader

theorem run_append (state : State) (front back : List Token) :
    run state (front ++ back) = (run state front).bind fun between => run between back :=
  List.foldlM_append

theorem run_cons (state : State) (token : Token) (rest : List Token) :
    run state (token :: rest) = (step state token).bind fun between => run between rest :=
  List.foldlM_cons

theorem run_firstItem (value : Value) (rest : List Token) (opened : List Container) :
    run (.firstItem opened) (value.tokens ++ rest) = run (.value (.array [] :: opened)) (value.tokens ++ rest) := by
  unfold Value.tokens
  split <;> rfl

mutual

/-- The tokens of a value, where a value has to stand, are read as that value. -/
theorem run_tokens : ∀ (value : Value) (opened : List Container),
    run (.value opened) value.tokens = some (.finished value opened)
  | .null, opened | .bool b, opened | .number n, opened | .string text, opened => by
    rw [Value.tokens]
    rfl
  | .array [], opened => by
    rw [Value.tokens]
    rfl
  | .array (item :: rest), opened => by
    rw [Value.tokens, run_cons]
    change run (.firstItem opened) _ = _
    rw [run_firstItem, run_append, run_tokens item, Option.bind_some, run_itemTokens]
    rfl
  | .object [], opened => by
    rw [Value.tokens]
    rfl
  | .object ((name, value) :: rest), opened => by
    rw [Value.tokens, run_cons]
    change run (.value (.object [] name :: opened)) _ = _
    rw [run_append, run_tokens value, Option.bind_some, run_memberTokens]
    rfl

private theorem run_itemTokens : ∀ (items : List Value) (value : Value) (before : List Value) (opened : List Container),
    run (.finished value (.array before :: opened)) (Value.itemTokens items ++ [.closeArray])
      = some (.finished (.array ((value :: before).reverse ++ items)) opened)
  | [], value, before, opened => by
    rw [Value.itemTokens, List.append_nil]
    rfl
  | item :: rest, value, before, opened => by
    rw [Value.itemTokens, List.cons_append, run_cons]
    change run (.value (.array (value :: before) :: opened)) _ = _
    rw [List.append_assoc, run_append, run_tokens item, Option.bind_some, run_itemTokens rest]
    simp

private theorem run_memberTokens : ∀ (members : List (Text × Value)) (name : Text) (value : Value)
    (before : List (Text × Value)) (opened : List Container),
    run (.finished value (.object before name :: opened)) (Value.memberTokens members ++ [.closeObject])
      = some (.finished (.object (((name, value) :: before).reverse ++ members)) opened)
  | [], name, value, before, opened => by
    rw [Value.memberTokens, List.append_nil]
    rfl
  | (next, item) :: rest, name, value, before, opened => by
    rw [Value.memberTokens, List.cons_append, List.cons_append, List.cons_append, List.append_assoc, run_cons]
    change run (.value (.object ((name, value) :: before) next :: opened)) _ = _
    rw [run_append, run_tokens item, Option.bind_some, run_memberTokens rest]
    simp

end

end Reader

open Token (BeginsWithMark scan scan_append scan_mark)
open Writer (compactValue compactItems compactMembers separated writeText)

theorem separated_cons (separator part : List Char) (rest : List (List Char)) :
    separated separator (part :: rest) = part ++ rest.flatMap (separator ++ ·) := by
  induction rest generalizing part with
  | nil => rw [separated, List.flatMap_nil, List.append_nil]
  | cons next rest ih =>
    rw [separated, ih, List.flatMap_cons, List.append_assoc, List.append_assoc]
    exact List.cons_ne_nil next rest

theorem beginsWithMark_cons {c : Char} (h : (Token.mark? c).isSome = true) (text : List Char) :
    BeginsWithMark (c :: text) := by
  intro d hd
  rwa [← Option.some.inj hd]

/-- After an item comes a comma or the end of the container. -/
theorem beginsWithMark_parts (parts : List (List Char)) {c : Char} (h : (Token.mark? c).isSome = true) :
    BeginsWithMark (parts.flatMap ([','] ++ ·) ++ [c]) := by
  cases parts with
  | nil => exact beginsWithMark_cons h []
  | cons part parts => exact beginsWithMark_cons rfl _

mutual

theorem scan_compactValue : ∀ value : Value, scan (compactValue value) = some value.tokens
  | .null => by
    rw [compactValue, scan, scan, Value.tokens]
    rfl
  | .bool true => by
    rw [compactValue, scan, scan, Value.tokens]
    rfl
  | .bool false => by
    rw [compactValue, scan, scan, Value.tokens]
    rfl
  | .number n => by rw [compactValue, Token.scan_writeNumber, Value.tokens]
  | .string text => by rw [compactValue, Token.scan_writeText, Value.tokens]
  | .array [] => by
    rw [compactValue, compactItems, Value.tokens, separated, List.cons_append, scan_mark rfl, List.nil_append,
      scan_mark rfl, scan]
    rfl
  | .array (item :: rest) => by
    rw [compactValue, compactItems, Value.tokens, separated_cons, List.cons_append, List.append_assoc,
      scan_mark rfl, scan_append (scan_compactValue item) (beginsWithMark_parts _ rfl), scan_compactItems rest]
    rfl
  | .object [] => by
    rw [compactValue, compactMembers, Value.tokens, separated, List.cons_append, scan_mark rfl, List.nil_append,
      scan_mark rfl, scan]
    rfl
  | .object ((name, value) :: rest) => by
    rw [compactValue, compactMembers, Value.tokens, separated_cons, List.cons_append, List.append_assoc,
      List.append_assoc, List.cons_append, scan_mark rfl,
      scan_append (Token.scan_writeText name) (beginsWithMark_cons rfl _), scan_mark rfl,
      scan_append (scan_compactValue value) (beginsWithMark_parts _ rfl), scan_compactMembers rest]
    rfl

private theorem scan_compactItems : ∀ items : List Value,
    scan ((compactItems items).flatMap ([','] ++ ·) ++ [']']) = some (Value.itemTokens items ++ [.closeArray])
  | [] => by
    rw [compactItems, List.flatMap_nil, List.nil_append, scan_mark rfl, scan, Value.itemTokens]
    rfl
  | item :: rest => by
    rw [compactItems, List.flatMap_cons, Value.itemTokens, List.append_assoc, List.append_assoc, List.cons_append,
      List.nil_append, scan_mark rfl, scan_append (scan_compactValue item) (beginsWithMark_parts _ rfl),
      scan_compactItems rest, List.cons_append, List.append_assoc]
    rfl

private theorem scan_compactMembers : ∀ members : List (Text × Value),
    scan ((compactMembers members).flatMap ([','] ++ ·) ++ ['\x7d'])
      = some (Value.memberTokens members ++ [.closeObject])
  | [] => by
    rw [compactMembers, List.flatMap_nil, List.nil_append, scan_mark rfl, scan, Value.memberTokens]
    rfl
  | (name, value) :: rest => by
    rw [compactMembers, List.flatMap_cons, Value.memberTokens, List.append_assoc, List.append_assoc,
      List.append_assoc, List.cons_append, List.cons_append, List.nil_append, scan_mark rfl,
      scan_append (Token.scan_writeText name) (beginsWithMark_cons rfl _), scan_mark rfl,
      scan_append (scan_compactValue value) (beginsWithMark_parts _ rfl), scan_compactMembers rest]
    simp

end

/-- What is written for a value is read as that value. -/
theorem read?_compact (value : Value) : read? value.compact.toList = some value := by
  rw [Value.compact, String.toList_ofList, read?, scan_compactValue]
  simp only [Option.bind_eq_bind, Option.bind_some, Reader.run_tokens]

/-! ## No line breaks -/

def Visible (text : List Char) : Prop :=
  ∀ c ∈ text, 0x20 ≤ c.toNat

-- Named, since the characters are finitely many and a search could go through all of them.
instance (text : List Char) : Decidable (Visible text) :=
  List.decidableBAll _ text

theorem visible_nil : Visible [] := by
  intro c hc
  cases hc

theorem visible_cons {c : Char} {text : List Char} (hc : 0x20 ≤ c.toNat) (h : Visible text) : Visible (c :: text) :=
  List.forall_mem_cons.2 ⟨hc, h⟩

theorem visible_append {front back : List Char} (hfront : Visible front) (hback : Visible back) :
    Visible (front ++ back) :=
  List.forall_mem_append.2 ⟨hfront, hback⟩

theorem Visible.not_mem_break {text : List Char} (h : Visible text) : '\n' ∉ text ∧ '\r' ∉ text := by
  constructor <;>
  · intro hc
    exact absurd (h _ hc) (by decide)

private theorem visible_unicodeEscape (code : ℕ) : Visible (Writer.unicodeEscape code) := by
  have hdigit : ∀ index, 0x20 ≤ (Writer.hexDigits.getD index '0').toNat := by
    intro index
    by_cases hindex : index < Writer.hexDigits.length
    · have hall : Visible Writer.hexDigits := by decide
      rw [List.getD_eq_getElem _ _ hindex]
      exact hall _ (List.getElem_mem hindex)
    · rw [List.getD_eq_default _ _ (by omega)]
      decide
  refine visible_append (by decide) fun c hc => ?_
  obtain ⟨index, -, rfl⟩ := List.mem_map.1 hc
  exact hdigit index

private theorem visible_escape (c : Char) : Visible (Writer.escape c) := by
  unfold Writer.escape
  split
  case h_8 =>
    split
    · exact visible_unicodeEscape _
    · exact visible_cons (by omega) visible_nil
  all_goals decide

private theorem visible_writeText (text : Text) : Visible (writeText text) := by
  have hquote : Visible ['"'] := visible_cons (by decide) visible_nil
  cases text with
  | none => exact visible_append (visible_append hquote (visible_unicodeEscape _)) hquote
  | some text =>
    refine visible_append (visible_append hquote fun c hc => ?_) hquote
    obtain ⟨d, -, hd⟩ := List.mem_flatMap.1 hc
    exact visible_escape d c hd

private theorem visible_writeDigit : ∀ d, 0x20 ≤ (Writer.writeDigit d).toNat := by
  decide

private theorem visible_toDigits (n : ℕ) : Visible (Nat.toDigits 10 n) := by
  intro c hc
  have hdigit := Nat.isDigit_of_mem_toDigits (by decide) (by decide) hc
  obtain ⟨d, rfl⟩ := Token.exists_writeDigit hdigit
  exact visible_writeDigit d

private theorem visible_writeInt (n : ℤ) : Visible (Writer.writeInt n) := by
  refine visible_append ?_ (visible_toDigits _)
  split
  · exact visible_cons (by decide) visible_nil
  · exact visible_nil

private theorem visible_writeNumber (n : Number) : Visible (Writer.writeNumber n) := by
  refine visible_append (visible_append (visible_append ?_ (visible_toDigits _)) ?_) ?_
  · split
    · exact visible_cons (by decide) visible_nil
    · exact visible_nil
  · split
    · exact visible_nil
    · refine visible_cons (by decide) fun c hc => ?_
      obtain ⟨d, -, rfl⟩ := List.mem_map.1 hc
      exact visible_writeDigit d
  · cases n.exponent with
    | none => exact visible_nil
    | some exponent => exact visible_cons (by decide) (visible_writeInt exponent)

private theorem visible_separated {parts : List (List Char)} (h : ∀ part ∈ parts, Visible part) :
    Visible (separated [','] parts) := by
  cases parts with
  | nil => exact visible_nil
  | cons part rest =>
    rw [List.forall_mem_cons] at h
    rw [separated_cons]
    refine visible_append h.1 fun c hc => ?_
    obtain ⟨next, hnext, hc⟩ := List.mem_flatMap.1 hc
    exact visible_cons (by decide) (h.2 next hnext) c hc

mutual

theorem visible_compactValue : ∀ value : Value, Visible (compactValue value)
  | .null => by
    rw [compactValue]
    decide
  | .bool true => by
    rw [compactValue]
    decide
  | .bool false => by
    rw [compactValue]
    decide
  | .number n => by
    rw [compactValue]
    exact visible_writeNumber n
  | .string text => by
    rw [compactValue]
    exact visible_writeText text
  | .array items => by
    rw [compactValue]
    exact visible_append (visible_cons (by decide) (visible_separated (visible_compactItems items)))
      (visible_cons (by decide) visible_nil)
  | .object members => by
    rw [compactValue]
    exact visible_append (visible_cons (by decide) (visible_separated (visible_compactMembers members)))
      (visible_cons (by decide) visible_nil)

private theorem visible_compactItems : ∀ items : List Value, ∀ part ∈ compactItems items, Visible part
  | [] => by
    rw [compactItems]
    exact fun _ h => nomatch h
  | item :: rest => by
    rw [compactItems]
    exact List.forall_mem_cons.2 ⟨visible_compactValue item, visible_compactItems rest⟩

private theorem visible_compactMembers : ∀ members : List (Text × Value), ∀ part ∈ compactMembers members, Visible part
  | [] => by
    rw [compactMembers]
    exact fun _ h => nomatch h
  | (name, value) :: rest => by
    rw [compactMembers]
    exact List.forall_mem_cons.2 ⟨visible_append (visible_writeText name)
      (visible_cons (by decide) (visible_compactValue value)), visible_compactMembers rest⟩

end

theorem not_mem_break_compact (value : Value) : '\n' ∉ value.compact.toList ∧ '\r' ∉ value.compact.toList := by
  rw [Value.compact, String.toList_ofList]
  exact (visible_compactValue value).not_mem_break

end TradeReport.Json
