import TradeReport.Json.Value
/-!
# Writing JSON

Two layouts of one value: on one line without blanks, as log records are, and indented by two blanks for a
reader. Only quotes, backslashes and control characters are escaped.
-/

namespace TradeReport.Json

namespace Writer

def hexDigits : List Char :=
  "0123456789abcdef".toList

/-- The four digits of an escape. -/
def unicodeEscape (code : Nat) : List Char :=
  ['\\', 'u'] ++ [code / 4096, code / 256 % 16, code / 16 % 16, code % 16].map (hexDigits.getD · '0')

def escape (c : Char) : List Char :=
  match c with
  | '"' => ['\\', '"']
  | '\\' => ['\\', '\\']
  | '\x08' => ['\\', 'b']
  | '\x0c' => ['\\', 'f']
  | '\n' => ['\\', 'n']
  | '\r' => ['\\', 'r']
  | '\t' => ['\\', 't']
  | c => if c.toNat < 0x20 then unicodeEscape c.toNat else [c]

/-- A string that holds no text is written as one half of a surrogate pair. -/
def writeText : Text → List Char
  | some text => '"' :: text.toList.flatMap escape ++ ['"']
  | none => '"' :: unicodeEscape 0xD800 ++ ['"']

def writeDigit (d : Fin 10) : Char :=
  Char.ofNat ('0'.toNat + d.val)

def writeInt (n : Int) : List Char :=
  (if n < 0 then ['-'] else []) ++ Nat.toDigits 10 n.natAbs

def writeNumber (n : Number) : List Char :=
  (if n.negative then ['-'] else []) ++ Nat.toDigits 10 n.whole
    ++ (if n.fraction.isEmpty then [] else '.' :: n.fraction.map writeDigit)
    ++ n.exponent.elim [] fun exponent => 'e' :: writeInt exponent

/-- The parts with commas between them. -/
def separated (separator : List Char) : List (List Char) → List Char
  | [] => []
  | [part] => part
  | part :: rest => part ++ separator ++ separated separator rest

mutual

def compactValue : Value → List Char
  | .null => ['n', 'u', 'l', 'l']
  | .bool true => ['t', 'r', 'u', 'e']
  | .bool false => ['f', 'a', 'l', 's', 'e']
  | .number n => writeNumber n
  | .string text => writeText text
  | .array items => '[' :: separated [','] (compactItems items) ++ [']']
  | .object members => '\x7b' :: separated [','] (compactMembers members) ++ ['\x7d']

def compactItems : List Value → List (List Char)
  | [] => []
  | item :: rest => compactValue item :: compactItems rest

def compactMembers : List (Text × Value) → List (List Char)
  | [] => []
  | (name, value) :: rest => (writeText name ++ ':' :: compactValue value) :: compactMembers rest

end

/-- A new line at the given depth. -/
def newLine (depth : Nat) : List Char :=
  '\n' :: List.replicate (2 * depth) ' '

mutual

def indentedValue (depth : Nat) : Value → List Char
  | .array (item :: rest) =>
    '[' :: newLine (depth + 1)
      ++ separated (',' :: newLine (depth + 1)) (indentedItems (depth + 1) (item :: rest))
      ++ newLine depth ++ [']']
  | .object (member :: rest) =>
    '\x7b' :: newLine (depth + 1)
      ++ separated (',' :: newLine (depth + 1)) (indentedMembers (depth + 1) (member :: rest))
      ++ newLine depth ++ ['\x7d']
  | value => compactValue value

def indentedItems (depth : Nat) : List Value → List (List Char)
  | [] => []
  | item :: rest => indentedValue depth item :: indentedItems depth rest

def indentedMembers (depth : Nat) : List (Text × Value) → List (List Char)
  | [] => []
  | (name, value) :: rest =>
    (writeText name ++ ':' :: ' ' :: indentedValue depth value) :: indentedMembers depth rest

end

end Writer

/-- The value on one line. -/
def Value.compact (value : Value) : String :=
  String.ofList (Writer.compactValue value)

/-- The value over several lines, indented by two blanks for each container around it. -/
def Value.indented (value : Value) : String :=
  String.ofList (Writer.indentedValue 0 value)

end TradeReport.Json
