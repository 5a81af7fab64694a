import TradeReport.Toml.Scan
/-!
# Quoted text in settings

Text stands between double quotes, where a backslash begins an escape, or between single quotes, where it is a
character like any other. Three quotes begin a text of several lines. It may hold one or two quotes together,
and a backslash at the end of a line joins the lines.
-/

namespace TradeReport.Toml

open Scan

/-- Characters that can stand in any text: all but controls, of which the tabulator alone is allowed. -/
def isPlain (c : Char) : Bool :=
  c == '\t' || (0x20 ≤ c.toNat && c.toNat != 0x7F)

def isSpace (c : Char) : Bool :=
  c == ' ' || c == '\t'

def newline : Scan Char := do
  char '\n' <|> (char '\r' *> char '\n')
  return '\n'

/-! ## Escapes -/

def isHexDigit (c : Char) : Bool :=
  c.isDigit || ('a' ≤ c && c ≤ 'f') || ('A' ≤ c && c ≤ 'F')

/-- The value of a digit of any base. -/
def digitValue (c : Char) : Nat :=
  if c.isDigit then c.toNat - 0x30 else c.toLower.toNat - 0x57

def valueOf (base : Nat) (digits : List Char) : Nat :=
  digits.foldl (fun n c => n * base + digitValue c) 0

/-- A character by its code. -/
def coded (digits : Nat) : Scan Char :=
  firm <| (exactly digits isHexDigit).ruled fun digits =>
    let code := valueOf 16 digits
    if code.isValidChar then .ok (Char.ofNat code) else .error .outOfRange

/-- The letters and signs that can stand behind a backslash. -/
def escapes : List Char :=
  ['b', 'f', 'n', 'r', 't', 'u', 'U', '\\', '"']

/-- What no escape begins with. Reading stops behind it if it is a single byte, and else before it. -/
def noEscape (c : Char) : Scan Char := do
  let behind ← place
  let complaint : Scan Char := refuseAt (if c.utf8Size = 1 then behind else behind - 1) none
  escapes.foldl (fun scan c => scan.expecting (.char c)) (complaint.firm.about "escape sequence")

def escape : Scan Char := do
  char '\\'
  match ← anyChar with
  | 'b' => return '\x08'
  | 't' => return '\t'
  | 'n' => return '\n'
  | 'f' => return '\x0c'
  | 'r' => return '\r'
  | '"' => return '"'
  | '\\' => return '\\'
  | 'u' => (coded 4).about "unicode 4-digit hex code"
  | 'U' => (coded 8).about "unicode 8-digit hex code"
  | c => noEscape c

/-! ## Text on one line -/

/-- A character that stands for itself between double quotes. -/
def unescaped : Scan Char :=
  charWhere fun c => isPlain c && c != '"' && c != '\\'

/-- Text on one line between double quotes. -/
def doubleQuoted : Scan String := do
  char '"'
  let chars ← many (unescaped <|> escape)
  (char '"').firm.about "basic string"
  return String.ofList chars

/-- Text on one line between single quotes. -/
def singleQuoted : Scan String :=
  about "literal string" do
    char '\''
    let chars ← charsWhere fun c => isPlain c && c != '\''
    (char '\'').firm
    return String.ofList chars

/-! ## Text of several lines -/

/-- One or two quotes before something else, which is not read. -/
def quotesBefore (quote : Char) (next : Scan Unit) : Scan (List Char) :=
  (exactly 2 (· == quote) <* next.ahead) <|> (exactly 1 (· == quote) <* next.ahead)

/-- A backslash before the end of a line, and all blanks up to the next character. -/
def joined : Scan Unit := do
  char '\\'
  let _ ← charsWhere isSpace
  let _ ← newline
  let _ ← many (charWhere isSpace <|> newline)

/-- Text of several lines. A line break at its beginning does not count. -/
def ofLines (subject : String) (quote : Char) (piece : Scan (List Char)) : Scan String :=
  let delimiter := word (String.ofList [quote, quote, quote])
  about subject do
    delimiter
    let _ ← optional? newline
    let pieces ← many (piece <|> quotesBefore quote (discard piece))
    let quotes ← optional? (quotesBefore quote delimiter)
    delimiter.firm
    return String.ofList (pieces.flatten ++ quotes.getD [])

def doubleQuotedLines : Scan String :=
  ofLines "multiline basic string" '"' <|
    (return [← unescaped]) <|> ((fun _ => []) <$> joined) <|> (return [← escape]) <|> (return [← newline])

def singleQuotedLines : Scan String :=
  ofLines "multiline literal string" '\'' <|
    (return [← charWhere fun c => isPlain c && c != '\'']) <|> (return [← newline])

def quoted : Scan String :=
  doubleQuotedLines <|> doubleQuoted <|> singleQuotedLines <|> singleQuoted

end TradeReport.Toml
