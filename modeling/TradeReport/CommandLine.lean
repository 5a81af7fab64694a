import TradeReport.Instance
/-!
# The command line

A command with its options. The path of the configuration is given before the command. An option takes its
value from the next word, unless that word looks like an option, or from behind an equals sign, and is given
once. The words are read in order: asking for help or for the version ends the reading, unless something before it
cannot be understood.
-/

namespace TradeReport

inductive Command where
  | history (days : Float) (precision : Option Nat) (verbose : Bool)
  | fullReport (days : Float)
  | serve
  | help
  | version

/-- Help and the version are told without a configuration. -/
def Command.needsStore : Command → Bool
  | .history .. | .fullReport _ | .serve => true
  | .help | .version => false

structure Invocation where
  config : String
  command : Command

namespace CommandLine

/-- An option as it was written: its name, and its value if it has one. -/
structure Given where
  name : String
  value : Option String

/-- The values that an option takes. -/
inductive Values where
  | nothing
  | text
  | days
  | places
  deriving DecidableEq, Repr

structure Known where
  name : String
  values : Values

/-- The options that may stand in one place, and whether the version may be asked for there. Help may be asked
for anywhere. -/
structure Grammar where
  options : List Known
  hasVersion : Bool

/-- What stands in front of the words: options, or a flag that ends the reading. -/
inductive Front where
  | options (given : List Given) (rest : List String)
  | asks (command : Command)

/-- Words that begin with a dash are options; a dash alone is a word. -/
def looksLikeOption (word : String) : Bool :=
  match word.toList with
  | '-' :: _ :: _ => true
  | _ => false

/-- The name and the value of a word with an equals sign, or the whole word. -/
def splitAtEquals (word : String) : String × Option String :=
  match word.toList.span (· != '=') with
  | (_, []) => (word, none)
  | (name, _ :: value) => (String.ofList name, some (String.ofList value))

def daysOf? (text : String) : Option Float :=
  Binary64.ofChars? text.toList

/-- A count of places: a whole number of 32 bits, which may have a sign. -/
def placesOf? (text : String) : Option Nat := do
  let (negative, digits) := Decimal.splitSign text.toList
  if digits.isEmpty then
    none
  else
    let n ← digits.foldlM (fun n c => (Decimal.digit? c).map (n * 10 + ·)) 0
    if n < wordBound 32 ∧ ¬ (negative ∧ n ≠ 0) then some n else none

def Values.accepts : Values → String → Bool
  | .nothing, _ => false
  | .text, _ => true
  | .days, value => (daysOf? value).isSome
  | .places, value => (placesOf? value).isSome

/-- The flags that end the reading. Of letters behind one dash only the first is looked at. -/
def Grammar.asked? (grammar : Grammar) (word : String) : Option Command :=
  match word.toList with
  | '-' :: 'h' :: _ => some .help
  | '-' :: 'V' :: _ => if grammar.hasVersion then some .version else none
  | _ =>
    if word = "--help" then some .help
    else if word = "--version" ∧ grammar.hasVersion then some .version
    else none

/-- The options in front of the words, the latest first. Absent when an option is not known, is given twice, lacks
its value, has one that it does not take, or has an unreadable one, unless a flag before it ends the reading. -/
def readOptions? (grammar : Grammar) (given : List Given) : List String → Option Front
  | [] => some (.options given [])
  | word :: rest =>
    if !looksLikeOption word || word == "--" then
      some (.options given (word :: rest))
    else if let some command := grammar.asked? word then
      some (.asks command)
    else
      let (name, value) := splitAtEquals word
      match grammar.options.find? (·.name = name), value with
      | none, _ => none
      | some option, value =>
        if given.any (·.name = name) then
          none
        else if option.values = .nothing then
          if value.isSome then none else readOptions? grammar (⟨name, none⟩ :: given) rest
        else
          match value, rest with
          | some value, rest =>
            if option.values.accepts value then
              readOptions? grammar (⟨name, some value⟩ :: given) rest
            else
              none
          | none, [] => none
          | none, value :: rest =>
            if !looksLikeOption value && option.values.accepts value then
              readOptions? grammar (⟨name, some value⟩ :: given) rest
            else
              none

/-- The value that was given for an option. -/
def valueOf? (name : String) (given : List Given) : Option String :=
  (given.find? (·.name = name)).bind (·.value)

def has (name : String) (given : List Given) : Bool :=
  given.any (·.name = name)

/-- What may stand behind the name of each command. -/
def grammarOf? : String → Option Grammar
  | "history" => some ⟨[⟨"--days", .days⟩, ⟨"--precision", .places⟩, ⟨"--verbose", .nothing⟩], false⟩
  | "full-report" => some ⟨[⟨"--days", .days⟩], false⟩
  | "serve" => some ⟨[], false⟩
  | _ => none

/-- The days to look back, none of them unless they are given. -/
def daysIn (given : List Given) : Float :=
  ((valueOf? "--days" given).bind daysOf?).getD 0

/-- The command of a name with the options given to it. -/
def commandOf? (name : String) (given : List Given) : Option Command :=
  match name with
  | "history" =>
    some (.history (daysIn given) ((valueOf? "--precision" given).bind placesOf?) (has "--verbose" given))
  | "full-report" => some (.fullReport (daysIn given))
  | "serve" => some .serve
  | _ => none

/-- Help about the program, or about one command. -/
def help? : List String → Option Command
  | [] => some .help
  | [name] => if name = "help" ∨ (grammarOf? name).isSome then some .help else none
  | _ => none

/-- A command with its options, and nothing behind them but the mark that ends options. -/
def command? (name : String) (words : List String) : Option Command :=
  if name = "help" then
    help? words
  else do
    match ← readOptions? (← grammarOf? name) [] words with
    | .asks command => some command
    | .options given rest => if rest = [] ∨ rest = ["--"] then commandOf? name given else none

end CommandLine

namespace Invocation

open CommandLine

/-- What may stand in front of the command. -/
def grammar : Grammar := ⟨[⟨"--config", .text⟩], true⟩

/-- What the words of a command line ask for, if they can be understood. -/
def ofWords? (words : List String) : Option Invocation := do
  match ← readOptions? grammar [] words with
  | .asks command => return ⟨"", command⟩
  | .options _ [] => none
  | .options given (name :: words) =>
    return ⟨(valueOf? "--config" given).getD "config.toml", ← command? name words⟩

/-- How the program is called. -/
def usage : String :=
  "Usage: strategy-analytics [--config <CONFIG>] <COMMAND>\n\nCommands:\n"
    ++ "  history      [--days <DAYS>] [--precision <PRECISION>] [--verbose]\n"
    ++ "  full-report  [--days <DAYS>]\n"
    ++ "  serve"

/-- A command against the files as they are. Serving prints nothing; it ends when the kill switch fires or the
address cannot be used. -/
def outcome (invocation : Invocation) (disk : Disk) (now : Int) : Instance.Outcome :=
  let report (work : Instance → StateM (Service Unit) Instance.Outcome) : Instance.Outcome :=
    match Instance.load disk invocation.config with
    | .error fault => .ofFault [] fault
    | .ok loaded => ((work loaded).run (Service.start ())).1
  match invocation.command with
  | .history days precision verbose => report fun loaded => loaded.history now days precision verbose
  | .fullReport days => report fun loaded => loaded.fullReport now days
  | .serve => report fun _ => return .ofOutput []
  | .help => .ofOutput [usage]
  | .version => .ofOutput ["strategy-analytics 0.3.0"]

end Invocation

end TradeReport
