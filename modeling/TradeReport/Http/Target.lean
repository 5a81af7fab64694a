import TradeReport.Http.Query
/-!
# Request targets

What a request is addressed to: a path with a query, either alone or behind the scheme and the authority of a
whole address, or an authority alone. A mark of a fragment ends the target. Characters that an address cannot
hold make it unreadable.
-/

namespace TradeReport.Http

structure Target where
  path : List Char
  query : List Char

namespace Target

def isLetterOrDigit (c : Char) : Bool :=
  c.isAlphanum

/-- Characters outside of ASCII may stand in paths and queries. -/
def isForeign (c : Char) : Bool :=
  0x7F ≤ c.toNat

def isInPath (c : Char) : Bool :=
  isForeign c || isLetterOrDigit c || "!$%&'()*+,-./:;=@[\\]^_|~\"\x7b\x7d".toList.contains c

def isInQuery (c : Char) : Bool :=
  isForeign c || isLetterOrDigit c || "!$%&'()*+,-./:;=?@[\\]^_\x60\x7b|\x7d~".toList.contains c

/-- The path, which is a slash when nothing is written, and the query after the first question mark. -/
def ofPathAndQuery? (text : List Char) : Option Target :=
  let (path, query) := (text.takeWhile (· != '#')).span (· != '?')
  let query := query.drop 1
  if path.all isInPath && query.all isInQuery then
    some ⟨if path.isEmpty then ['/'] else path, query⟩
  else
    none

/-! ## Authorities -/

/-- What has been seen of an authority: colons that may stand before a port, brackets, and a percent sign. -/
structure AuthorityState where
  colons : Nat := 0
  opened : Bool := false
  closed : Bool := false
  percent : Bool := false
  /-- The last character was an at sign. -/
  atSign : Bool := false

/-- Names before an at sign may hold colons and percent signs, and so may an address in brackets; a host may have
one colon before its port. -/
def AuthorityState.next? (state : AuthorityState) (c : Char) : Option AuthorityState :=
  let state := { state with atSign := c == '@' }
  if c = ':' then
    if state.colons < 8 then some { state with colons := state.colons + 1 } else none
  else if c = '[' then
    if state.percent || state.opened then none else some { state with opened := true }
  else if c = ']' then
    if state.opened && !state.closed then some { state with closed := true, colons := 0, percent := false }
    else none
  else if c = '@' then some { state with colons := 0, percent := false }
  else if c = '%' then some { state with percent := true }
  else if isLetterOrDigit c || "!$&'()*+,-.;=_~".toList.contains c then some state
  else none

def AuthorityState.isFinal (state : AuthorityState) : Bool :=
  state.opened == state.closed && state.colons ≤ 1 && !state.atSign && !state.percent

/-- What follows the authority that a text begins with. -/
def afterAuthority? (text : List Char) : Option (List Char) := do
  let isEnd (c : Char) := c == '/' || c == '?' || c == '#'
  let (authority, rest) := text.span (!isEnd ·)
  let state ← authority.foldlM AuthorityState.next? ({} : AuthorityState)
  if state.isFinal && !authority.isEmpty then some rest else none

/-- What follows the scheme that a text begins with; nothing when it begins with none. -/
def afterScheme? (text : List Char) : Option (List Char) :=
  let isInScheme (c : Char) := isLetterOrDigit c || "+-.~".toList.contains c
  match text.span isInScheme with
  | (_, ':' :: '/' :: '/' :: rest) => some rest
  | _ => none

/-- The longest scheme. -/
def longestScheme : Nat := 64

/-- The longest target, in bytes. -/
def longest : Nat := 65534

def ofChars? (text : List Char) : Option Target :=
  if (String.ofList text).utf8ByteSize > longest then
    none
  else if text = ['*'] then
    some ⟨text, []⟩
  else if text.head? = some '/' then
    ofPathAndQuery? text
  else
    match afterScheme? text with
    | some rest =>
      if text.length > rest.length + 3 + longestScheme then none
      else (afterAuthority? rest).bind ofPathAndQuery?
    | none =>
      match afterAuthority? text with
      | some [] => some ⟨[], []⟩
      | _ => none

end Target

/-- The names of methods are made of these characters. -/
def isMethod (method : String) : Bool :=
  method != "" && method.toList.all fun c =>
    Target.isLetterOrDigit c || "!#$%&'*+-.^_\x60|~".toList.contains c

end TradeReport.Http
