import TradeReport.Toml.Flaw
/-!
# Complaints about settings

A complaint says at which character reading stopped, what was being read there, what could have stood there
instead, and which rule of settings the text breaks.
-/

namespace TradeReport.Toml

/-- What could have stood somewhere. -/
inductive Expectation where
  | char (c : Char)
  | word (text : String)
  | phrase (text : String)

def Expectation.toText : Expectation → String
  | .char '\n' => "newline"
  | .char c => String.ofList ['\x60', c, '\x60']
  | .word text => "\x60" ++ text ++ "\x60"
  | .phrase text => text

/-- A rule that is broken by text which is written as it should be. -/
inductive Cause where
  | outOfRange
  | tooDeep
  | tooLarge
  | tooSmall
  /-- A second value or table under a name, in a table with a path of its own or in one without. -/
  | duplicate (name : String) (table : Option (List String))
  /-- A path through what is no table. -/
  | throughValue (path : List String) (kind : String)

namespace Cause

def isBare (c : Char) : Bool :=
  c.isAlphanum || c == '_' || c == '-'

def isControl (c : Char) : Bool :=
  c != '\t' && (c.toNat < 0x20 || c.toNat = 0x7F)

/-- A character within double quotes. -/
def escaped (c : Char) : List Char :=
  let digits := Nat.toDigits 16 c.toNat
  match c with
  | '\x08' => ['\\', 'b']
  | '\t' => ['\\', 't']
  | '\n' => ['\\', 'n']
  | '\x0c' => ['\\', 'f']
  | '\r' => ['\\', 'r']
  | '"' => ['\\', '"']
  | '\\' => ['\\', '\\']
  | c =>
    if isControl c then
      ['\\', 'u'] ++ List.replicate (4 - digits.length) '0' ++ digits.map Char.toUpper
    else [c]

/-- A name as it is best written: bare, or else between quotes. They are double, unless that takes escapes which
single quotes can do without. -/
def written (name : String) : String :=
  let chars := name.toList
  if !chars.isEmpty && chars.all isBare then
    name
  else if chars.any (fun c => c == '\\' || c == '"') && chars.all (fun c => !isControl c && c != '\'') then
    String.ofList ('\'' :: chars ++ ['\''])
  else
    String.ofList ('"' :: chars.flatMap escaped ++ ['"'])

def writtenPath (path : List String) : String :=
  ".".intercalate (path.map written)

def message : Cause → String
  | outOfRange => "value is out of range"
  | tooDeep => "recursion limit exceeded"
  | tooLarge => "number too large to fit in target type"
  | tooSmall => "number too small to fit in target type"
  | duplicate name none => "duplicate key \x60" ++ name ++ "\x60"
  | duplicate name (some []) => "duplicate key \x60" ++ name ++ "\x60 in document root"
  | duplicate name (some path) =>
    "duplicate key \x60" ++ name ++ "\x60 in table \x60" ++ writtenPath path ++ "\x60"
  | throughValue path kind =>
    "dotted key \x60" ++ writtenPath path ++ "\x60 attempted to extend non-table type (" ++ kind ++ ")"

end Cause

structure Complaint where
  /-- The number of the characters before the one where reading stopped. -/
  place : Nat
  subject : Option String := none
  expected : List Expectation := []
  cause : Option Cause := none
  /-- Whether the text cannot be read in another way either. -/
  isFinal : Bool := false

namespace Complaint

def atPlace (place : Nat) : Complaint := { place }

/-- The parts that are known, each on a line. -/
def message (complaint : Complaint) : String :=
  let subject := complaint.subject.toList.map fun subject => "invalid " ++ subject
  let expected :=
    if complaint.expected.isEmpty then []
    else ["expected " ++ ", ".intercalate (complaint.expected.map Expectation.toText)]
  let cause := complaint.cause.toList.map Cause.message
  "\n".intercalate (subject ++ expected ++ cause)

/-- The character where reading stopped, or the end of the text, with what is wrong there. -/
def flaw (text : List Char) (complaint : Complaint) : Flaw :=
  let stop := min (complaint.place + 1) text.length
  ⟨⟨complaint.place, stop⟩, complaint.message⟩

end Complaint

end TradeReport.Toml
