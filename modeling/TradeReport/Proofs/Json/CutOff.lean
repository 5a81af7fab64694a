import TradeReport.Proofs.Json.RoundTrip
/-!
# An object behind other text

When an object is written behind other text, the two are read as one value only if nothing but blanks stands before
the object (`read?_append_of_blank`, `read?_append_eq_none`). A string that the text leaves open would end at the
first quote of the object, and what follows there is no token; any other token ends where the object begins, and then
the text has begun a value of its own, which the object can end up inside of but cannot complete.
-/

namespace TradeReport.Json

namespace Token

variable {text more : List Char}

/-! ## Blanks -/

def Blank (text : List Char) : Prop :=
  ∀ c ∈ text, isBlank c = true

instance : Decidable (Blank text) :=
  List.decidableBAll _ text

theorem scan_append_of_blank (h : Blank text) (rest : List Char) :
    scan (text ++ rest) = scan rest := by
  induction text with
  | nil => rfl
  | cons c text ih =>
    rw [Blank, List.forall_mem_cons] at h
    rw [List.cons_append, scan_plain (plain_of_isBlank h.1), if_pos h.1, ih h.2]

theorem blank_of_scan (h : scan text = some []) : Blank text := by
  fun_induction scan text with
  | case1 => exact List.forall_mem_nil _
  | case2 | case3 | case4 | case5 | case7 | case10 | case11 =>
    obtain ⟨more, -, hmore⟩ := Option.map_eq_some_iff.1 h
    cases hmore
  | case6 | case8 | case12 => cases h
  | case9 c text _ _ _ _ _ hblank ih => exact List.forall_mem_cons.2 ⟨hblank, ih h⟩

/-! ## Strings that are left open -/

private theorem hexWord?_eq_none {digits : List Char} {c : Char} (hc : c ∈ digits) (h : hexDigit? c = none) :
    hexWord? digits = none := by
  unfold hexWord?
  generalize 0 = value
  induction digits generalizing value with
  | nil => cases hc
  | cons d digits ih =>
    rw [List.foldlM_cons]
    rcases List.mem_cons.1 hc with rfl | hc
    · rw [h]
      rfl
    · cases hexDigit? d with
      | none => rfl
      | some digit => exact ih hc _

/-- An escape by code that a brace falls into is none. -/
theorem pieces_brokenUnicode (h : text.length < 4) :
    pieces ('\\' :: 'u' :: (text ++ '\x7b' :: more)) = none := by
  have hbrace : '\x7b' ∈ (text ++ '\x7b' :: more).take 4 := by
    obtain ⟨left, hleft⟩ : ∃ left, 4 - text.length = left + 1 := ⟨_, (Nat.sub_add_cancel (by omega)).symm⟩
    rw [List.take_append, hleft, List.take_succ_cons]
    exact List.mem_append_right _ List.mem_cons_self
  generalize text ++ '\x7b' :: more = digits at hbrace
  rcases digits with _ | ⟨a, _ | ⟨b, _ | ⟨c, _ | ⟨d, rest⟩⟩⟩⟩
  case cons.cons.cons.cons =>
    have hmem : '\x7b' ∈ [a, b, c, d] := hbrace
    rw [pieces_code, hexWord?_eq_none hmem rfl]
    rfl
  all_goals
    rw [pieces]
    · rfl
    · simp

/-- The text after which a string that was left open is closed. -/
def ClosesAt (more : List Char) (found : Option (List Piece × List Char)) : Prop :=
  ∀ closed ∈ found, closed.2 = more

private theorem closesAt_map {found : Option (List Piece × List Char)} (h : ClosesAt more found) (piece : Piece) :
    ClosesAt more (found.map fun closed => (piece :: closed.1, closed.2)) := by
  intro closed hclosed
  obtain ⟨before, hbefore, rfl⟩ := Option.map_eq_some_iff.1 hclosed
  exact h before hbefore

private theorem closesAt_none : ClosesAt more none :=
  fun _ hclosed => nomatch hclosed

private theorem length_lt_four (h : ∀ a b c d rest, text ≠ a :: b :: c :: d :: rest) : text.length < 4 := by
  rcases text with _ | ⟨a, _ | ⟨b, _ | ⟨c, _ | ⟨d, rest⟩⟩⟩⟩
  case cons.cons.cons.cons => exact absurd rfl (h a b c d rest)
  all_goals simp

/-- No string goes on with a control character. -/
theorem pieces_control {c : Char} (hquote : c ≠ '"') (hcontrol : c.toNat < 0x20) (text : List Char) :
    pieces (c :: text) = none := by
  have hne : c ≠ '\\' := by
    rintro rfl
    exact absurd hcontrol (by decide)
  rw [pieces, if_pos (.inr hcontrol)]
  · exact hquote
  · exact fun _ _ _ _ _ h _ => hne h
  · exact fun _ _ h _ => hne h

/-- A string that is left open before a brace and a quote is closed by that quote, if by any. -/
theorem closesAt_of_open (h : pieces text = none) : ClosesAt more (pieces (text ++ '\x7b' :: '"' :: more)) := by
  induction text using pieces.induct with
  | case1 =>
    rw [List.nil_append, pieces_plain (by decide) (by decide), pieces]
    exact closesAt_map (fun closed hclosed => by rw [← Option.some.inj hclosed]) _
  | case2 tail =>
    rw [pieces] at h
    cases h
  | case3 a b c d tail ih =>
    rw [pieces_code] at h
    simp only [List.cons_append]
    rw [pieces_code]
    cases hcode : hexWord? [a, b, c, d] with
    | none => exact closesAt_none
    | some code =>
      rw [hcode, Option.bind_some, Option.map_eq_none_iff] at h
      exact closesAt_map (ih h) _
  | case4 c tail hshort ih =>
    rw [List.cons_append, List.cons_append]
    by_cases hc : c = 'u'
    · subst hc
      rw [pieces_brokenUnicode (length_lt_four fun a b c d rest htail => hshort a b c d rest rfl htail)]
      exact closesAt_none
    · rw [pieces_backslash hc] at h ⊢
      cases hmeant : escaped? c with
      | none => exact closesAt_none
      | some meant =>
        rw [hmeant, Option.bind_some, Option.map_eq_none_iff] at h
        exact closesAt_map (ih h) _
  | case5 c tail hquote _ hslash hbad =>
    rw [List.cons_append]
    rcases hbad with rfl | hcontrol
    · obtain rfl : tail = [] := by
        cases tail with
        | nil => rfl
        | cons d rest => exact absurd rfl (hslash d rest rfl)
      rw [List.nil_append, pieces_backslash (by decide)]
      exact closesAt_none
    · rw [pieces_control hquote hcontrol]
      exact closesAt_none
  | case6 c tail hquote _ _ hplain ih =>
    rw [pieces_plain hquote hplain, Option.map_eq_none_iff] at h
    rw [List.cons_append, pieces_plain hquote hplain]
    exact closesAt_map (ih h) _

/-! ## Tokens that are cut off -/

/-- A word that is cut off does not go on with a brace. -/
theorem exists_of_append_eq {word tail : List Char} (hword : '\x7b' ∉ word)
    (h : text ++ '\x7b' :: more = word ++ tail) : ∃ rest, text = word ++ rest := by
  rcases List.append_eq_append_iff.1 h with ⟨left, hleft, hbrace⟩ | ⟨rest, hrest, -⟩
  · cases left with
    | nil => exact ⟨[], by rw [hleft]; simp⟩
    | cons c left =>
      have hc : '\x7b' = c := (List.cons.inj hbrace).1
      rw [hleft, hc] at hword
      simp at hword
  · exact ⟨rest, hrest⟩

/-- Text that starts with a character that begins no token does not fall into tokens. -/
theorem scan_eq_none {c : Char} (hplain : beginsToken c = false) (hblank : isBlank c = false)
    (hmark : mark? c = none) (hdigit : c.isDigit = false) (text : List Char) : scan (c :: text) = none := by
  rw [scan_plain hplain, hblank, hmark, if_neg (by decide)]
  cases hfound : magnitude? false (c :: text) with
  | none => rfl
  | some found => exact absurd (isDigit_of_magnitude? hfound) (by rw [hdigit]; decide)

/-- A string that was left open ends at the first quote of the object, and no tokens follow there. -/
theorem scan_append_of_open (h : pieces text = none) (hmore : scan more = none) :
    scan ('"' :: (text ++ '\x7b' :: '"' :: more)) = none := by
  rw [scan_quote]
  cases hclosed : pieces (text ++ '\x7b' :: '"' :: more) with
  | none => rfl
  | some closed =>
    have hafter : closed.2 = more := closesAt_of_open h closed hclosed
    rw [Option.bind_some, hafter, hmore]
    rfl

/-- Neither a number nor a word that was cut off goes on with a brace. -/
theorem scan_append_of_noToken {c : Char} (htrue : ∀ rest, c = 't' → text = 'r' :: 'u' :: 'e' :: rest → False)
    (hfalse : ∀ rest, c = 'f' → text = 'a' :: 'l' :: 's' :: 'e' :: rest → False)
    (hnull : ∀ rest, c = 'n' → text = 'u' :: 'l' :: 'l' :: rest → False) (hquote : c ≠ '"') (hminus : c ≠ '-')
    (hblank : ¬isBlank c = true) (hnone : mark? c = none) (hnumber : magnitude? false (c :: text) = none) :
    scan (c :: (text ++ '\x7b' :: '"' :: more)) = none := by
  have hlonger : magnitude? false (c :: (text ++ '\x7b' :: '"' :: more)) = none := by
    rw [← List.cons_append, magnitude?_append (beginsWithMark_cons rfl _), hnumber]
    rfl
  rw [scan]
  · rw [if_neg hblank, hnone]
    dsimp only
    split
    · rename_i n after hread
      rw [hlonger] at hread
      cases hread
    · rfl
  · intro rest hc hword
    obtain ⟨left, hleft⟩ : ∃ left, text = ['r', 'u', 'e'] ++ left := exists_of_append_eq (by decide) hword
    exact htrue left hc hleft
  · intro rest hc hword
    obtain ⟨left, hleft⟩ : ∃ left, text = ['a', 'l', 's', 'e'] ++ left := exists_of_append_eq (by decide) hword
    exact hfalse left hc hleft
  · intro rest hc hword
    obtain ⟨left, hleft⟩ : ∃ left, text = ['u', 'l', 'l'] ++ left := exists_of_append_eq (by decide) hword
    exact hnull left hc hleft
  · exact hquote
  · exact hminus

/-- Text that does not fall into tokens does not become good by an object behind it. -/
theorem scan_append_eq_none (h : scan text = none) (hmore : scan more = none) :
    scan (text ++ '\x7b' :: '"' :: more) = none := by
  have hmark : BeginsWithMark ('\x7b' :: '"' :: more) := beginsWithMark_cons rfl _
  induction text using scan.induct with
  | case1 =>
    rw [scan] at h
    cases h
  | case2 text ih | case3 text ih | case4 text ih =>
    rw [scan, Option.map_eq_none_iff] at h
    simp only [List.cons_append, scan, ih h, Option.map_none]
  | case5 text found after hfound _ ih =>
    rw [scan_quote, hfound, Option.bind_some, Option.map_eq_none_iff] at h
    rw [List.cons_append, scan_quote, pieces_append hfound, Option.bind_some, ih h]
    rfl
  | case6 text hopen => exact scan_append_of_open hopen hmore
  | case7 text n after hfound _ ih =>
    rw [scan_minus, hfound, Option.bind_some, Option.map_eq_none_iff] at h
    rw [List.cons_append, scan_minus, magnitude?_append hmark, hfound, Option.map_some, Option.bind_some, ih h]
    rfl
  | case8 text hfound =>
    rw [List.cons_append, scan_minus, magnitude?_append hmark, hfound]
    rfl
  | case9 c text _ _ _ _ _ hblank ih =>
    rw [scan_plain (plain_of_isBlank hblank), if_pos hblank] at h
    rw [List.cons_append, scan_plain (plain_of_isBlank hblank), if_pos hblank, ih h]
  | case10 c text _ _ _ _ _ _ mark hc ih =>
    rw [scan_mark hc, Option.map_eq_none_iff] at h
    rw [List.cons_append, scan_mark hc, ih h]
    rfl
  | case11 c text _ _ _ _ _ _ _ n after hfound _ ih =>
    have hdigit := isDigit_of_magnitude? hfound
    rw [scan_digit hdigit, hfound, Option.bind_some, Option.map_eq_none_iff] at h
    rw [List.cons_append, scan_digit hdigit, ← List.cons_append, magnitude?_append hmark, hfound, Option.map_some,
      Option.bind_some, ih h]
    rfl
  | case12 c text htrue hfalse hnull hquote hminus hblank hnone hnumber =>
    exact scan_append_of_noToken htrue hfalse hnull hquote hminus hblank hnone hnumber

end Token

/-! ## Values that are cut off -/

namespace Reader

/-- Once there was a token, a value is only awaited within another. -/
theorem step_ne_start (state : State) (token : Token) : step state token ≠ some (.value []) := by
  have hbegin : ∀ opened, beginValue opened token ≠ some (.value []) := by
    cases token <;> exact fun _ h => nomatch h
  intro h
  unfold step at h
  split at h
  case h_1 | h_3 => exact hbegin _ h
  all_goals cases h

private theorem run_ne_start {tokens : List Token} (htokens : tokens ≠ []) (state : State) :
    run state tokens ≠ some (.value []) := by
  rw [← List.dropLast_append_getLast htokens, run_append]
  intro h
  obtain ⟨before, -, hlast⟩ := Option.bind_eq_some_iff.1 h
  rw [run_cons] at hlast
  obtain ⟨next, hnext, hrun⟩ := Option.bind_eq_some_iff.1 hlast
  cases hrun
  exact step_ne_start before _ hnext

private theorem tokens_object (members : List (Text × Value)) :
    ∃ rest, (Value.object members).tokens = .openObject :: rest := by
  rcases members with _ | ⟨⟨name, value⟩, members⟩
  · exact ⟨_, by rw [Value.tokens]⟩
  · exact ⟨_, by rw [Value.tokens]⟩

/-- An object that is not the first value is read within a container. -/
theorem run_object {state : State} (hstate : state ≠ .value []) (members : List (Text × Value)) :
    ∀ after ∈ run state (Value.object members).tokens, ∃ value container opened,
      after = .finished value (container :: opened) := by
  intro after hafter
  obtain ⟨rest, hrest⟩ := tokens_object members
  -- Only where a value or the first item may stand can a brace open an object.
  have hfails : step state .openObject = none → False := by
    intro hnone
    rw [hrest, run_cons, hnone] at hafter
    cases hafter
  cases state with
  | value opened =>
    rcases opened with _ | ⟨container, opened⟩
    · exact absurd rfl hstate
    · rw [run_tokens] at hafter
      exact ⟨_, container, opened, (Option.some.inj hafter).symm⟩
  | firstItem opened =>
    have hitem := run_firstItem (.object members) [] opened
    rw [List.append_nil, run_tokens] at hitem
    rw [hitem] at hafter
    exact ⟨_, _, opened, (Option.some.inj hafter).symm⟩
  | firstName opened => exact (hfails rfl).elim
  | name before opened => exact (hfails rfl).elim
  | colon before name opened => exact (hfails rfl).elim
  | finished value opened =>
    rcases opened with _ | ⟨_ | _, opened⟩
    all_goals exact (hfails rfl).elim

end Reader

open Token (Blank)

theorem read?_append_of_blank {text : List Char} (h : Blank text) (rest : List Char) :
    read? (text ++ rest) = read? rest := by
  rw [read?, Token.scan_append_of_blank h, read?]

theorem read?_of_blank {text : List Char} (h : Blank text) : read? text = none := by
  rw [← List.append_nil text, read?_append_of_blank h, read?, Token.scan]
  rfl

theorem read?_append_eq_none {text more : List Char} {members : List (Text × Value)}
    (hobject : (Value.object members).compact.toList = '\x7b' :: '"' :: more) (hmore : Token.scan more = none)
    (htext : ¬Blank text) :
    read? (text ++ (Value.object members).compact.toList) = none := by
  cases hscan : Token.scan text with
  | none =>
    rw [hobject, read?, Token.scan_append_eq_none hscan hmore]
    rfl
  | some front =>
    have hfront : front ≠ [] := by
      rintro rfl
      exact htext (Token.blank_of_scan hscan)
    have hboth : Token.scan (text ++ (Value.object members).compact.toList)
        = some (front ++ (Value.object members).tokens) := by
      rw [Token.scan_append hscan, Value.compact, String.toList_ofList, scan_compactValue]
      · rfl
      · rw [hobject]
        exact beginsWithMark_cons rfl _
    rw [read?, hboth]
    simp only [Option.bind_eq_bind, Option.bind_some, Reader.run_append]
    cases hrun : Reader.run (.value []) front with
    | none => rfl
    | some between =>
      have hbetween : between ≠ .value [] := by
        rintro rfl
        exact Reader.run_ne_start hfront _ hrun
      rw [Option.bind_some]
      cases hafter : Reader.run between (Value.object members).tokens with
      | none => rfl
      | some after =>
        obtain ⟨value, container, opened, rfl⟩ := Reader.run_object hbetween members after hafter
        rfl

end TradeReport.Json
