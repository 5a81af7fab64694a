import Mathlib.Data.List.Forall2
import TradeReport.Proofs.Trade.Record
/-!
# Fields of records

A record depends on its fields alone. Objects give them in any order, by any of their names, among further members that
mean nothing, and fields with a default may be left out; lists give them in the order of their declaration (`Gives`).
Readers find the same slots in all of these (`slots?_of_gives`), and so a fill is the same however it was given. What
they refuse are objects that name a field twice, that leave out a field without a default, or that have a name that is
no text (`ofLine?_readsFields`).
-/

namespace TradeReport

open Json (Value)

theorem mapM_eq_some_iff {α β : Type} {f : α → Option β} {items : List α} {results : List β} :
    items.mapM f = some results ↔ List.Forall₂ (fun a b => f a = some b) items results := by
  induction items generalizing results with
  | nil => simp [eq_comm]
  | cons a rest ih =>
    simp only [List.mapM_cons, Option.bind_eq_bind, Option.bind_eq_some_iff, Option.pure_def, Option.some.injEq,
      List.forall₂_cons_left_iff, ih]
    constructor
    · rintro ⟨b, hb, found, hfound, rfl⟩
      exact ⟨b, found, hb, hfound, rfl⟩
    · rintro ⟨b, found, hb, hfound, rfl⟩
      exact ⟨b, hb, found, hfound, rfl⟩

private theorem mapM_eq_none {α β : Type} {f : α → Option β} {items : List α} {a : α} (ha : a ∈ items)
    (h : f a = none) :
    items.mapM f = none := by
  induction ha with
  | head rest =>
    rw [List.mapM_cons, h]
    rfl
  | tail first _ ih =>
    rw [List.mapM_cons, ih]
    cases f first <;> rfl

namespace Record

/-! ## Records that give their fields -/

/-- One member for each of the slots that are not empty, by one of the names of its field. -/
inductive GivesEach : List (List String) → List (Option Value) → List (String × Value) → Prop
  | nil : GivesEach [] [] []
  | leftOut {fields slots given} {names : List String} (h : GivesEach fields slots given) :
      GivesEach (names :: fields) (none :: slots) given
  | given {fields slots given} {names : List String} {name : String} {value : Value} (hname : name ∈ names)
      (h : GivesEach fields slots given) :
      GivesEach (names :: fields) (some value :: slots) ((name, value) :: given)

def Omits (members : List (Json.Text × Value)) (names : List String) : Prop :=
  ∀ member ∈ members, ∀ name ∈ names, member.1 ≠ some name

def AreNamed (members : List (Json.Text × Value)) : Prop :=
  ∀ member ∈ members, member.1 ≠ none

/-- A record that gives the slots of its fields: an object, in any order and with further members among them, or a list
from which only the last ones can be left out. -/
inductive Gives (fields : List (List String)) (slots : List (Option Value)) (others : List (Json.Text × Value)) :
    Value → Prop
  | object {given : List (String × Value)} {members : List (Json.Text × Value)}
      (h : GivesEach fields slots given) (hothers : ∀ names ∈ fields, Omits others names)
      (hmembers : members.Perm (given.map (fun member => (some member.1, member.2)) ++ others)) :
      Gives fields slots others (.object members)
  | list {items : List Value} {missing : ℕ} (hslots : slots = items.map some ++ List.replicate missing none)
      (hlength : slots.length = fields.length) (hothers : others = []) : Gives fields slots others (.array items)

variable {fields : List (List String)} {slots : List (Option Value)} {names : List String}
  {given record : List (String × Value)} {members others : List (Json.Text × Value)}

/-! ## The slots that a reader finds -/

/-- The members whose names are texts. -/
def namedMembers (members : List (Json.Text × Value)) : List (String × Value) :=
  members.filterMap fun member => member.1.map (·, member.2)

def matching (names : List String) (record : List (String × Value)) : List (String × Value) :=
  record.filter fun member => names.contains member.1

def slot? (record : List (String × Value)) (names : List String) : Option (Option Value) :=
  match matching names record with
  | [] => some none
  | [member] => some (some member.2)
  | _ => none

theorem slots?_object (fields : List (List String)) (members : List (Json.Text × Value)) :
    slots? fields (.object members) = (Value.object members).toRecord?.bind fun record => fields.mapM (slot? record) :=
  rfl

theorem toRecord?_of_areNamed (h : AreNamed members) :
    (Value.object members).toRecord? = some (namedMembers members) := by
  have hread : members.mapM (fun member => member.1.map (·, member.2)) = some (namedMembers members) := by
    induction members with
    | nil => rfl
    | cons member rest ih =>
      rw [AreNamed, List.forall_mem_cons] at h
      obtain ⟨name, hname⟩ := Option.ne_none_iff_exists'.1 h.1
      have hcons : namedMembers (member :: rest) = (name, member.2) :: namedMembers rest := by
        rw [namedMembers, List.filterMap_cons, hname]
        rfl
      rw [List.mapM_cons, ih h.2, hname, hcons]
      rfl
  exact hread

private theorem matching_cons_of_mem {member : String × Value} (h : member.1 ∈ names) :
    matching names (member :: record) = member :: matching names record :=
  List.filter_cons_of_pos (by simpa using h)

private theorem matching_cons_of_not_mem {member : String × Value} (h : member.1 ∉ names) :
    matching names (member :: record) = matching names record :=
  List.filter_cons_of_neg (by simpa using h)

private theorem slot?_of_matching_eq_nil (h : matching names record = []) : slot? record names = some none := by
  rw [slot?, h]

private theorem slot?_of_matching_eq_singleton {member : String × Value} (h : matching names record = [member]) :
    slot? record names = some (some member.2) := by
  rw [slot?, h]

private theorem slot?_of_two_le (h : 2 ≤ (matching names record).length) : slot? record names = none := by
  match hfound : matching names record with
  | [] | [_] =>
    rw [hfound] at h
    exact absurd h (by simp)
  | _ :: _ :: _ => rw [slot?, hfound]

private theorem matching_of_omits (h : Omits members names) : matching names (namedMembers members) = [] := by
  refine List.filter_eq_nil_iff.2 fun member hmember => ?_
  obtain ⟨own, hown, hname⟩ := List.mem_filterMap.1 hmember
  obtain ⟨name, hkey, rfl⟩ := Option.map_eq_some_iff.1 hname
  exact fun hmem => h own hown name (List.contains_iff_mem.1 hmem) hkey

private theorem matching_of_disjoint (h : GivesEach fields slots given)
    (hdisjoint : ∀ more ∈ fields, names.Disjoint more) :
    matching names given = [] := by
  induction h with
  | nil => rfl
  | leftOut _ ih => exact ih fun more hmore => hdisjoint more (List.mem_cons_of_mem _ hmore)
  | given hname _ ih =>
    rw [List.forall_mem_cons] at hdisjoint
    rw [matching_cons_of_not_mem fun hmem => hdisjoint.1 hmem hname, ih hdisjoint.2]

theorem mapM_slot? (hdisjoint : fields.Pairwise List.Disjoint) (h : GivesEach fields slots given)
    (hrecord : ∀ names ∈ fields, (matching names record).Perm (matching names given)) :
    fields.mapM (slot? record) = some slots := by
  rw [mapM_eq_some_iff]
  induction h with
  | nil => exact .nil
  | leftOut hrest ih =>
    rw [List.pairwise_cons] at hdisjoint
    rw [List.forall_mem_cons, matching_of_disjoint hrest hdisjoint.1, List.perm_nil] at hrecord
    exact .cons (slot?_of_matching_eq_nil hrecord.1) (ih hdisjoint.2 hrecord.2)
  | given hname hrest ih =>
    rw [List.pairwise_cons] at hdisjoint
    rw [List.forall_mem_cons, matching_cons_of_mem hname, matching_of_disjoint hrest hdisjoint.1,
      List.perm_singleton] at hrecord
    refine .cons (slot?_of_matching_eq_singleton hrecord.1) (ih hdisjoint.2 fun more hmore => ?_)
    have hperm := hrecord.2 more hmore
    rwa [matching_cons_of_not_mem (hdisjoint.1 more hmore hname)] at hperm

theorem slots?_of_gives {value : Value} (hdisjoint : fields.Pairwise List.Disjoint) (hnamed : AreNamed others)
    (h : Gives fields slots others value) : slots? fields value = some slots := by
  cases h with
  | @object given members heach hothers hmembers =>
    have hall : AreNamed members := by
      intro member hmember
      rcases List.mem_append.1 (hmembers.mem_iff.1 hmember) with hgiven | hother
      · obtain ⟨own, -, rfl⟩ := List.mem_map.1 hgiven
        exact Option.some_ne_none _
      · exact hnamed member hother
    have hrecord : (namedMembers members).Perm (given ++ namedMembers others) := by
      have hperm := hmembers.filterMap fun member => member.1.map (·, member.2)
      have hown : namedMembers (given.map fun member => (some member.1, member.2)) = given := by
        simp [namedMembers, List.filterMap_map]
      rw [List.filterMap_append] at hperm
      exact hown ▸ hperm
    rw [slots?_object, toRecord?_of_areNamed hall, Option.bind_some]
    refine mapM_slot? hdisjoint heach fun names hnames => ?_
    have hmatching : (matching names (namedMembers members)).Perm
        (matching names given ++ matching names (namedMembers others)) := by
      rw [matching, matching, matching, ← List.filter_append]
      exact hrecord.filter _
    rwa [matching_of_omits (hothers names hnames), List.append_nil] at hmatching
  | @list items missing hslots hlength _ =>
    have hmissing : items.length + missing = fields.length := by
      rw [← hlength, hslots, List.length_append, List.length_map, List.length_replicate]
    obtain rfl : missing = fields.length - items.length := by omega
    rw [slots?, if_pos (by omega), hslots]

/-! ## Objects that are refused -/

/-- Some field is named twice, by one of its names or by two. -/
def Repeats (fields : List (List String)) (members : List (Json.Text × Value)) : Prop :=
  ∃ names ∈ fields, ∃ first ∈ names, ∃ second ∈ names, ∃ value value' : Value,
    [(some first, value), (some second, value')].Sublist members

theorem slots?_of_not_areNamed (h : ¬AreNamed members) : slots? fields (.object members) = none := by
  obtain ⟨member, hmember, hname⟩ : ∃ member ∈ members, member.1 = none := by simpa [AreNamed] using h
  have hread : (Value.object members).toRecord? = none := mapM_eq_none hmember (by rw [hname, Option.map_none])
  rw [slots?_object, hread, Option.bind_none]

private theorem slots?_of_repeats (h : Repeats fields members) : slots? fields (.object members) = none := by
  by_cases hnamed : AreNamed members
  · obtain ⟨names, hnames, first, hfirst, second, hsecond, value, value', htwice⟩ := h
    have hfound : (matching names [(first, value), (second, value')]).Sublist (matching names (namedMembers members)) :=
      (htwice.filterMap fun member : Json.Text × Value => member.1.map (·, member.2)).filter _
    rw [matching_cons_of_mem hfirst, matching_cons_of_mem hsecond] at hfound
    rw [slots?_object, toRecord?_of_areNamed hnamed, Option.bind_some]
    exact mapM_eq_none hnames (slot?_of_two_le hfound.length_le)
  · exact slots?_of_not_areNamed hnamed

private theorem mem_zip_of_omits (h : slots? fields (.object members) = some slots) (hnames : names ∈ fields)
    (homits : Omits members names) : (names, none) ∈ fields.zip slots := by
  by_cases hnamed : AreNamed members
  · rw [slots?_object, toRecord?_of_areNamed hnamed, Option.bind_some, mapM_eq_some_iff] at h
    have hslot := slot?_of_matching_eq_nil (matching_of_omits homits)
    induction h with
    | nil => cases hnames
    | cons hfirst _ ih =>
      rw [List.zip_cons_cons]
      rcases List.mem_cons.1 hnames with rfl | hlater
      · rw [hslot, Option.some.injEq] at hfirst
        subst hfirst
        exact List.mem_cons_self
      · exact List.mem_cons_of_mem _ (ih hlater)
  · rw [slots?_of_not_areNamed hnamed] at h
    cases h

end Record

/-- A slot of a field with a default. It may be left empty where the value is the default. -/
inductive Field.Gives {α : Type} (default : α) (IsGivenBy : α → Value → Prop) (a : α) : Option Value → Prop
  | leftOut (h : a = default) : Gives default IsGivenBy a none
  | given {value : Value} (h : IsGivenBy a value) : Gives default IsGivenBy a (some value)

theorem Field.defaulting_of_gives {α : Type} {default a b : α} {IsGivenBy : α → Value → Prop} {slot : Option Value}
    {read : Value → Option α} (h : Field.Gives default IsGivenBy a slot) (hdefault : a = default → b = default)
    (hread : ∀ value, IsGivenBy a value → read value = some b) : defaulting default read slot = some b := by
  cases h with
  | leftOut hleft => rw [defaulting, hdefault hleft]
  | given hgiven => exact hread _ hgiven

/-! ## Sides and fees -/

def Side.spellings : Side → List String
  | .buy => ["BUY", "buy", "Buy"]
  | .sell => ["SELL", "sell", "Sell"]

/-- A side is given by one of its spellings, as a text or as the name of an only member. -/
inductive Side.IsGivenBy (side : Side) : Value → Prop
  | text {name : String} (h : name ∈ side.spellings) : IsGivenBy side (.text name)
  | member {name : String} (h : name ∈ side.spellings) : IsGivenBy side (.object [(some name, .null)])

theorem Side.ofJson?_of_isGivenBy {side : Side} {value : Value} (h : side.IsGivenBy value) :
    ofJson? value = some side := by
  have hname : ∀ name ∈ side.spellings, ofName? name = some side := by
    cases side with
    | buy => simp [spellings, ofName?]
    | sell => simp [spellings, ofName?]
  cases h with
  | text h => exact hname _ h
  | member h => exact hname _ h

def IsNullableText (text : Option String) (value : Value) : Prop :=
  value = optionToJson Value.text text

theorem nullable_of_isNullableText {text : Option String} {value : Value} (h : IsNullableText text value) :
    Record.nullable Value.toText? value = some text := by
  rw [h, nullable_text]

def FlatFee.IsGivenBy (fee : FlatFee) (value : Value) : Prop :=
  ∃ others, Record.AreNamed others ∧
    Record.Gives [["token"], ["amount"]] [some (.text fee.token), some fee.amount.toJson] others value

theorem FlatFee.ofJson?_of_isGivenBy {fee : FlatFee} {value : Value} (h : fee.IsGivenBy value) :
    ofJson? value = some fee.plain := by
  obtain ⟨others, hnamed, hgiven⟩ := h
  have hdisjoint : List.Pairwise List.Disjoint [["token"], ["amount"]] := (List.nodup_flatten.1 (by decide)).2
  have hamount : Field.required Decimal.ofJson? (some fee.amount.toJson) = some fee.amount.plain :=
    Decimal.ofJson?_toJson _
  rw [ofJson?, Record.slots?_of_gives hdisjoint hnamed hgiven]
  simp only [Option.bind_eq_bind, Option.bind_some, hamount]
  rfl

structure Fee.IsGiven (fee : Fee) (percent token flat : Option Value) : Prop where
  percent : Field.Gives none (fun percent value => value = optionToJson Decimal.toJson percent) fee.percent percent
  token : Field.Gives none IsNullableText fee.percentToken token
  flat : Field.Gives []
    (fun flat value => ∃ items, value = .array items ∧ List.Forall₂ FlatFee.IsGivenBy flat items) fee.flat flat

def Fee.IsGivenBy (fee : Fee) (value : Value) : Prop :=
  ∃ percent token flat others, fee.IsGiven percent token flat ∧ Record.AreNamed others ∧
    Record.Gives [["percent"], ["percent_token"], ["flat_fees"]] [percent, token, flat] others value

theorem Fee.ofJson?_of_isGivenBy {fee : Fee} {value : Value} (h : fee.IsGivenBy value) :
    ofJson? value = some fee.plain := by
  obtain ⟨percent, token, flat, others, hslots, hnamed, hgiven⟩ := h
  have hdisjoint : List.Pairwise List.Disjoint [["percent"], ["percent_token"], ["flat_fees"]] :=
    (List.nodup_flatten.1 (by decide)).2
  have hpercent : Field.defaulting none (Record.nullable Decimal.ofJson?) percent
      = some (fee.percent.map Decimal.plain) := by
    refine Field.defaulting_of_gives hslots.percent (fun hnone => by rw [hnone, Option.map_none]) ?_
    rintro _ rfl
    exact nullable_decimal fee.percent
  have htoken : Field.defaulting none (Record.nullable Value.toText?) token = some fee.percentToken :=
    Field.defaulting_of_gives hslots.token id fun value => nullable_of_isNullableText
  have hflat : Field.defaulting [] (fun flat => flat.toArray?.bind fun items => items.mapM FlatFee.ofJson?) flat
      = some (fee.flat.map FlatFee.plain) := by
    refine Field.defaulting_of_gives hslots.flat (fun hnone => by rw [hnone, List.map_nil]) ?_
    rintro _ ⟨items, rfl, hitems⟩
    rw [Value.toArray?, Option.bind_some, mapM_eq_some_iff, List.forall₂_map_right_iff]
    exact (hitems.imp fun flat item => FlatFee.ofJson?_of_isGivenBy).flip
  rw [ofJson?, Record.slots?_of_gives hdisjoint hnamed hgiven]
  simp only [Option.bind_eq_bind, Option.bind_some, hpercent, htoken, hflat]
  rfl

/-! ## Fills -/

namespace Fill

variable {fill : Fill} {value : Value} {text : List Char} {members others : List (Json.Text × Value)}

structure IsGiven (fill : Fill) (side : Value) (fee order exchangeTrade : Option Value) : Prop where
  side : fill.side.IsGivenBy side
  fee : Field.Gives .free Fee.IsGivenBy fill.fee fee
  order : Field.Gives none IsNullableText fill.order order
  exchangeTrade : Field.Gives none IsNullableText fill.exchangeTrade exchangeTrade

/-- A record that gives each field of a fill once, the decimals with the texts that are written for them, and others
among them that are no fields. -/
def IsGivenBy (fill : Fill) (others : List (Json.Text × Value)) (value : Value) : Prop :=
  ∃ side fee order exchangeTrade, fill.IsGiven side fee order exchangeTrade ∧
    Record.Gives fieldNames
      [some (.text fill.market), some (.text fill.symbol), some (.text fill.strategy), some side,
        some fill.price.toJson, some fill.amount.toJson, fee, some (.int fill.time.toInt), order, exchangeTrade] others
      value

private theorem pairwise_disjoint_fieldNames : fieldNames.Pairwise List.Disjoint :=
  (List.nodup_flatten.1 (by decide)).2

theorem ofJson?_of_isGivenBy (hnamed : Record.AreNamed others) (h : fill.IsGivenBy others value) :
    ofJson? value = some fill.plain := by
  obtain ⟨side, fee, order, exchangeTrade, ⟨hside, hfee, horder, hexchangeTrade⟩, hgiven⟩ := h
  have hfeeRead : Field.defaulting .free Fee.ofJson? fee = some fill.fee.plain :=
    Field.defaulting_of_gives hfee (fun hfree => by rw [hfree]; rfl) fun value => Fee.ofJson?_of_isGivenBy
  have hnullable : ∀ {text slot}, Field.Gives none IsNullableText text slot →
      Field.defaulting none (Record.nullable Value.toText?) slot = some text :=
    fun htext => Field.defaulting_of_gives htext id fun value => nullable_of_isNullableText
  rw [ofJson?, Record.slots?_of_gives pairwise_disjoint_fieldNames hnamed hgiven]
  simp only [Option.bind_eq_bind, Option.bind_some, Field.required, Value.toText?_text,
    Side.ofJson?_of_isGivenBy hside, Decimal.ofJson?_toJson, hfeeRead, timeOfJson?_int, hnullable horder,
    hnullable hexchangeTrade]
  rfl

def requiredNames : List (List String) :=
  [ ["market"], ["symbol"], ["strategy_id", "config_file_path"], ["side", "trade_type"], ["price"], ["amount"],
    ["timestamp"] ]

private theorem none_ne_of_required {α : Type} {read : Value → Option α} {slot : Option Value} {a : α}
    (h : Field.required read slot = some a) : none ≠ slot := by
  rintro rfl
  cases h

private theorem not_mem_zip_of_ofJson? {slots : List (Option Value)} {names : List String}
    (h : ofJson? value = some fill)
    (hslots : Record.slots? fieldNames value = some slots) (hnames : names ∈ requiredNames) :
    (names, none) ∉ fieldNames.zip slots := by
  rw [ofJson?, hslots, Option.bind_eq_bind, Option.bind_some] at h
  split at h
  · simp only [Option.bind_eq_bind, Option.bind_eq_some_iff] at h
    obtain ⟨_, hmarket, _, hsymbol, _, hstrategy, _, hside, _, hprice, _, hamount, _, -, _, htime, -⟩ := h
    simp only [requiredNames, List.mem_cons, List.not_mem_nil, or_false] at hnames
    rcases hnames with rfl | rfl | rfl | rfl | rfl | rfl | rfl
    · simpa [fieldNames] using none_ne_of_required hmarket
    · simpa [fieldNames] using none_ne_of_required hsymbol
    · simpa [fieldNames] using none_ne_of_required hstrategy
    · simpa [fieldNames] using none_ne_of_required hside
    · simpa [fieldNames] using none_ne_of_required hprice
    · simpa [fieldNames] using none_ne_of_required hamount
    · simpa [fieldNames] using none_ne_of_required htime
  · cases h

theorem ofJson?_of_slots? (h : Record.slots? fieldNames value = none) : ofJson? value = none := by
  rw [ofJson?, h]
  rfl

theorem ofJson?_of_omits {names : List String} (hnames : names ∈ requiredNames) (h : Record.Omits members names) :
    ofJson? (.object members) = none := by
  have hfield : ∀ names ∈ requiredNames, names ∈ fieldNames := by decide
  cases hslots : Record.slots? fieldNames (.object members) with
  | none => exact ofJson?_of_slots? hslots
  | some slots =>
    rw [Option.eq_none_iff_forall_ne_some]
    exact fun fill hfill =>
      not_mem_zip_of_ofJson? hfill hslots hnames (Record.mem_zip_of_omits hslots (hfield names hnames) h)

/-- Whatever text gives the fields of a fill is read as that fill. An object with a field given twice, with none for a
field that has no default, or with a name that is no text is read as nothing. -/
theorem ofLine?_readsFields (text : List Char) :
    (∀ fill value others, Json.read? text = some value → Record.AreNamed others → fill.IsGivenBy others value →
      ∃ read, ofLine? text = some read ∧ fill.Same read ∧ (fill.IsPlain → read = fill)) ∧
    ∀ members, Json.read? text = some (.object members) →
      Record.Repeats fieldNames members ∨ (∃ names ∈ requiredNames, Record.Omits members names) ∨
        ¬Record.AreNamed members →
      ofLine? text = none := by
  refine ⟨fun fill value others hread hnamed hgiven => ⟨fill.plain, ?_, fill.same_plain, plain_of_isPlain⟩,
    fun members hread hfaulty => ?_⟩
  · rw [ofLine?, hread, Option.bind_eq_bind, Option.bind_some, ofJson?_of_isGivenBy hnamed hgiven]
  · rw [ofLine?, hread, Option.bind_eq_bind, Option.bind_some]
    rcases hfaulty with hrepeats | ⟨names, hnames, homits⟩ | hnameless
    · exact ofJson?_of_slots? (Record.slots?_of_repeats hrepeats)
    · exact ofJson?_of_omits hnames homits
    · exact ofJson?_of_slots? (Record.slots?_of_not_areNamed hnameless)

/-! ### A record with earlier names -/

def legacyFill : Fill :=
  { market := "venue", symbol := "A-B", strategy := "run", side := .sell, price := .one, amount := .two, fee := .free,
    time := 5, order := none, exchangeTrade := some "7" }

def legacyFields : List (String × Value) :=
  [ ("market", .text "venue"), ("symbol", .text "A-B"), ("config_file_path", .text "run"),
    ("trade_type", .text "Sell"), ("price", Decimal.one.toJson), ("amount", Decimal.two.toJson), ("timestamp", .int 5),
    ("exchange_trade_id", .text "7") ]

/-- The members from the last field to the first. -/
def legacyMembers : List (Json.Text × Value) :=
  (legacyFields.map fun member => (some member.1, member.2)).reverse

private theorem isGivenBy_legacyMembers {others : List (Json.Text × Value)}
    (hothers : ∀ names ∈ fieldNames, Record.Omits others names) :
    legacyFill.IsGivenBy others (.object (others ++ legacyMembers)) := by
  have hlast : Record.GivesEach [["order_id"], ["exchange_trade_id"]] [none, some (.text "7")]
      [("exchange_trade_id", .text "7")] := .leftOut (.given List.mem_cons_self .nil)
  have heach : Record.GivesEach fieldNames
      [some (.text "venue"), some (.text "A-B"), some (.text "run"), some (.text "Sell"), some Decimal.one.toJson,
        some Decimal.two.toJson, none, some (.int 5), none, some (.text "7")] legacyFields :=
    .given (by decide) (.given (by decide) (.given (by decide) (.given (by decide) (.given (by decide)
      (.given (by decide) (.leftOut (.given (by decide) hlast)))))))
  exact ⟨.text "Sell", none, none, some (.text "7"), ⟨.text (by decide), .leftOut rfl, .leftOut rfl, .given rfl⟩,
    .object heach hothers (List.perm_append_comm.trans ((List.reverse_perm _).append_right others))⟩

theorem ofLine?_readsFields_legacy :
    (∃ read, ofLine? (Value.object ((some "note", .array [.null]) :: legacyMembers)).compact.toList = some read ∧
        legacyFill.Same read) ∧
      ofLine? (Value.object ((some "side", .text "BUY") :: legacyMembers)).compact.toList = none := by
  have hnamed : Record.AreNamed [(some "note", .array [.null])] := by
    unfold Record.AreNamed
    decide
  have hforeign : ∀ names ∈ fieldNames, Record.Omits [(some "note", .array [.null])] names := by
    unfold Record.Omits
    decide
  have hgiven : legacyFill.IsGivenBy _ (.object ((some "note", .array [.null]) :: legacyMembers)) :=
    isGivenBy_legacyMembers hforeign
  have htwice : Record.Repeats fieldNames ((some "side", .text "BUY") :: legacyMembers) := by
    have hsecond : (some "trade_type", Value.text "Sell") ∈ legacyMembers := by simp [legacyMembers, legacyFields]
    exact ⟨["side", "trade_type"], by decide, "side", by decide, "trade_type", by decide, _, _,
      (List.singleton_sublist.2 hsecond).cons_cons _⟩
  obtain ⟨read, hread, hsame, -⟩ := (ofLine?_readsFields _).1 legacyFill _ _ (Json.read?_compact _) hnamed hgiven
  exact ⟨⟨read, hread, hsame⟩, (ofLine?_readsFields _).2 _ (Json.read?_compact _) (.inl htwice)⟩

/-- A name that is no text is not passed over like the name of another member. -/
theorem not_all_given_read :
    ¬∀ (text : List Char) (fill : Fill) (value : Value) (others : List (Json.Text × Value)),
      Json.read? text = some value → fill.IsGivenBy others value →
        ∃ read, ofLine? text = some read ∧ fill.Same read := by
  intro hall
  have hgiven : legacyFill.IsGivenBy [(none, .null)] (.object ((none, .null) :: legacyMembers)) :=
    isGivenBy_legacyMembers (by unfold Record.Omits; decide)
  obtain ⟨read, hread, -⟩ := hall _ legacyFill _ _ (Json.read?_compact _) hgiven
  have hnameless : ¬Record.AreNamed ((none, .null) :: legacyMembers) := fun hnamed => hnamed _ List.mem_cons_self rfl
  rw [ofLine?, Json.read?_compact, Option.bind_eq_bind, Option.bind_some,
    ofJson?_of_slots? (Record.slots?_of_not_areNamed hnameless)] at hread
  cases hread

end Fill

end TradeReport
