import TradeReport.Text.Ligature
import TradeReport.Text.Picture
/-!
# Display width

The columns that a text takes on a display of fixed pitch. That is the sum over its characters, except where
several are drawn as one: ligatures, pictures joined into one or coloured by a skin tone, and characters with a
selector behind them that picks a picture, a plain or a wide form.

What a character adds depends on what stands behind it, so the sum runs from the end of the text.
-/

namespace TradeReport.Width

/-- A mark directly behind a character that picks one of its forms. -/
inductive Selector where
  | picture
  | plain
  | wide
  deriving DecidableEq, Repr

/-- What stands behind a character, as far as its width depends on it. -/
inductive Behind where
  | other
  /-- An unfinished ligature, and whether a joiner stands in front of it. -/
  | ligature (part : Ligature) (joined : Bool)
  /-- The Kirat Rai vowel sign e, single or double. -/
  | vowelE (double : Bool)
  | skinTone
  /-- A flag letter, the first of them or a later one. -/
  | flagLetter (later : Bool)
  | picture
  /-- A joiner with a picture behind it. -/
  | joiner
  /-- The frame of a key cap in front of such a joiner. -/
  | joinedCap
  /-- Flag letters in front of such a joiner: one, an even number, or a larger odd number of them. -/
  | joinedLetter
  | joinedPairs
  | joinedOdd
  /-- Tags in front of such a joiner: their end, so many letters, so many digits. -/
  | joinedTags (letters digits : Nat)

/-- The columns that a character adds, what it is for the character before it, and whether it selects. -/
structure Step where
  columns : Int
  behind : Behind := .other
  selector : Option Selector := none

/-- The marks that select a form. -/
def selectorOf? (c : Char) : Option Selector :=
  if c.toNat = 0xFE0F then some .picture
  else if c.toNat = 0xFE0E then some .plain
  else if c.toNat = 0xFE01 then some .wide
  else none

/-- What a character is for the one before it, by itself. -/
def behindOf (c : Char) : Behind :=
  match Ligature.ofChar? c with
  | some part => .ligature part false
  | none =>
    if c.toNat = 0x16D67 then .vowelE false
    else if c.toNat = 0x16D68 then .vowelE true
    else if isSkinTone c then .skinTone
    else if isFlagLetter c then .flagLetter false
    else if isPicture c then .picture
    else .other

/-- A character that does not take part in what stands behind it. -/
def aloneStep (c : Char) : Step :=
  if c.toNat ≤ 0xA0 then ⟨1, .other, none⟩ else ⟨charWidth c, behindOf c, selectorOf? c⟩

/-- A selector leaves a ligature unfinished, and a joined picture too if it selects a picture. -/
def selectorStep (behind : Behind) (selector : Selector) : Step :=
  match behind, selector with
  | .ligature part joined, _ => ⟨0, .ligature part joined, some selector⟩
  | .joiner, .picture => ⟨0, .joiner, some .picture⟩
  | .joinedCap, .picture => ⟨0, .joinedCap, some .picture⟩
  | _, _ => ⟨0, .other, some selector⟩

/-- The tags of a flag: up to six letters, or up to four letters and then three digits before them. -/
def tagStep? (letters digits : Nat) (c : Char) : Option Step :=
  if isWithin [(0xE0061, 0xE007A)] c && digits == 0 && letters < 6 then
    some ⟨0, .joinedTags (letters + 1) 0, none⟩
  else if isWithin [(0xE0030, 0xE0039)] c && letters ≤ 4 && digits < 3 then
    some ⟨0, .joinedTags letters (digits + 1), none⟩
  else if c.toNat == 0x1F3F4 && (digits == 0 && 3 ≤ letters || digits == 3) then
    some ⟨0, .picture, none⟩
  else none

/-- Pictures, flags, key caps and tags in front of a joiner with a picture behind it take no column. -/
def joinerStep? (c : Char) : Option Step :=
  if c.toNat = 0x20E3 then some ⟨0, .joinedCap, none⟩
  else if isFlagLetter c then some ⟨1, .joinedLetter, none⟩
  else if isSkinTone c then some ⟨0, .skinTone, none⟩
  else if c.toNat = 0xE007F then some ⟨0, .joinedTags 0 0, none⟩
  else if isPicture c then some ⟨0, .picture, none⟩
  else none

/-- Sequences that are one and the same vowel sign take one column. -/
def vowelStep? (double : Bool) (c : Char) : Option Step :=
  if c.toNat = 0x16D63 then some ⟨0, .other, none⟩
  else if double then none
  else if c.toNat = 0x16D67 then some ⟨0, .vowelE true, none⟩
  else if c.toNat = 0x16D68 then some ⟨1, .vowelE false, none⟩
  else if c.toNat = 0x16D69 then some ⟨0, .other, none⟩
  else none

def ligatureStep? (part : Ligature) (joined : Bool) (c : Char) : Option Step :=
  match part with
  | .alef => extended
  | _ =>
    if c.toNat = 0x200D then some ⟨0, .ligature part true, none⟩
    else if Ligature.isSilentMark c then some ⟨0, .ligature part joined, selectorOf? c⟩
    else extended
where
  extended : Option Step :=
    (part.extend? joined c).map fun (columns, rest) =>
      ⟨columns, rest.elim .other fun part => .ligature part false, rest.bind fun _ => selectorOf? c⟩

/-- A character that is drawn together with what stands behind it. -/
def togetherStep? (behind : Behind) (c : Char) : Option Step :=
  let isJoiner := c.toNat == 0x200D
  match behind with
  | .other => none
  | .ligature part joined => ligatureStep? part joined c
  | .vowelE double => vowelStep? double c
  | .skinTone =>
    if isBody c then some ⟨0, .picture, none⟩
    else if isJoiner then some ⟨0, .joiner, none⟩
    else none
  | .flagLetter later =>
    if isFlagLetter c then some ⟨1, .flagLetter true, none⟩
    else if later && isJoiner then some ⟨0, .joiner, none⟩
    else none
  | .picture => if isJoiner then some ⟨0, .joiner, none⟩ else none
  | .joiner => joinerStep? c
  | .joinedCap => none
  | .joinedLetter => if isFlagLetter c then some ⟨-1, .joinedPairs, none⟩ else none
  | .joinedPairs =>
    if isFlagLetter c then some ⟨3, .joinedOdd, none⟩
    else if isJoiner then some ⟨0, .joiner, none⟩
    else none
  | .joinedOdd =>
    if isFlagLetter c then some ⟨-1, .joinedPairs, none⟩
    else if isJoiner then some ⟨0, .joiner, none⟩
    else none
  | .joinedTags letters digits => tagStep? letters digits c

/-- Quotation marks have a wide form. -/
def hasWideForm : Char → Bool :=
  isWithin [(0x2018, 0x2019), (0x201C, 0x201D)]

/-- A character in the form that the selector behind it picks, where it has one. -/
def selectedStep? (behind : Behind) (selector : Selector) (c : Char) : Option Step :=
  match selector with
  | .picture =>
    if isSelectable c then
      match behind with
      | .joiner | .joinedCap => some ⟨0, .picture, none⟩
      | _ => some ⟨2, .picture, none⟩
    else none
  | .plain => if isNarrowed c then some ⟨1, .other, none⟩ else none
  | .wide => if hasWideForm c then some ⟨2, .other, none⟩ else none

/-- What is left of what stands behind a selector that picks no form: only an unfinished ligature goes on. -/
def unselected : Behind → Behind
  | .ligature part joined => .ligature part joined
  | _ => .other

/-- The step of one character in front of what stands behind it. -/
def step (behind : Behind) (selector : Option Selector) (c : Char) : Step :=
  match selector.bind fun selector => selectedStep? behind selector c with
  | some step => step
  | none =>
    if c.toNat ≤ 0xA0 then aloneStep c
    else
      let behind := if selector.isSome then unselected behind else behind
      match selectorOf? c with
      | some .picture => selectorStep behind .picture
      | some .plain => selectorStep behind .plain
      | _ => (togetherStep? behind c).getD (aloneStep c)

/-- The columns of a text. -/
def columns (text : List Char) : Nat :=
  (text.foldr
    (fun c (total, behind, selector) =>
      let step := step behind selector c
      (total + step.columns, step.behind, step.selector))
    ((0 : Int), Behind.other, none)).1.toNat

end TradeReport.Width
