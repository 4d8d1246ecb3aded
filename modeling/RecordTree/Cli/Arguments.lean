import RecordTree.Record.Target

/-!
# Arguments of the command line

Arguments are options, or texts of their own: the name of a command and its operands. Options may stand
before the command and after it, where they win. The arguments are read from left to right, and the first
of them that asks for help, for the version or for something unknown ends the reading.
-/

namespace RecordTree.Cli

/-! ### Commands -/

/-- How answers are shown. -/
inductive OutputFormat where
  | text
  | json
  deriving DecidableEq, Repr

/-- The output format with a name. -/
def OutputFormat.ofName? (s : String) : Option OutputFormat :=
  if s = "text" then some .text else if s = "json" then some .json else none

/-- The names of the commands. -/
inductive CommandName where
  | get | set | insert | delete | ls | history
  deriving DecidableEq, Repr

namespace CommandName

/-- All commands. -/
def all : List CommandName := [get, set, insert, delete, ls, history]

/-- The name of a command. -/
def name : CommandName → String
  | get => "get"
  | set => "set"
  | insert => "insert"
  | delete => "delete"
  | ls => "ls"
  | history => "history"

/-- The command with a name. -/
def ofName? (s : String) : Option CommandName := all.find? fun c => c.name = s

/-- The names of a command's operands. -/
def operands : CommandName → List String
  | get => ["COLLECTION", "KEY"]
  | set => ["COLLECTION", "KEY", "JSON"]
  | insert => ["COLLECTION", "KEY", "JSON"]
  | delete => ["COLLECTION", "KEY"]
  | ls => ["COLLECTION"]
  | history => []

end CommandName

/-- What can be done with records. -/
inductive Action where
  | get (key : RecordKey)
  /-- The fields of the record are a JSON text. -/
  | put (mode : PutMode) (key : RecordKey) (fields : String)
  | delete (key : RecordKey)
  | list (collection : String)
  deriving DecidableEq, Repr

/-- What the program is asked to do. -/
inductive Command where
  /-- To show the last changes of the record tree. -/
  | history (limit : Nat)
  | act (action : Action)
  deriving DecidableEq, Repr

/-- Where arguments stand: after the name of a command, or before any. -/
abbrev Level := Option CommandName

/-- Why no command is run. -/
inductive Stop where
  | help
  | version
  /-- The arguments make no sense. -/
  | misuse
  deriving DecidableEq, Repr

/-! ### Options -/

/-- The options with a value. -/
inductive Parameter where
  | config | root | definition | author | format | limit
  deriving DecidableEq, Repr

/-- The options. -/
inductive Switch where
  | help | version | verbose
  | parameter (p : Parameter)
  deriving DecidableEq, Repr

namespace Switch

/-- Whether an option can stand at a level. The version is told before the command only, and the history
alone has a limit. -/
def isKnown (level : Level) : Switch → Bool
  | version => level = none
  | parameter .limit => level = some .history
  | _ => true

/-- The option with a long name. -/
def ofName? : String → Option Switch
  | "help" => some help
  | "version" => some version
  | "verbose" => some verbose
  | "config" => some (parameter .config)
  | "root" => some (parameter .root)
  | "definition" => some (parameter .definition)
  | "author" => some (parameter .author)
  | "format" => some (parameter .format)
  | "limit" => some (parameter .limit)
  | _ => none

/-- The option with a letter. -/
def ofLetter? : Char → Option Switch
  | 'h' => some help
  | 'V' => some version
  | 'v' => some verbose
  | 'n' => some (parameter .limit)
  | _ => none

end Switch

/-- What the options say. -/
structure Options where
  config : Option String
  root : Option String
  definition : Option String
  author : Option String
  format : Option OutputFormat
  limit : Option Nat
  verbose : Bool
  deriving DecidableEq, Repr

namespace Options

/-- Nothing is said. -/
def empty : Options := ⟨none, none, none, none, none, none, false⟩

/-- Nothing is said twice, and what is said has to make sense. -/
def once {α : Type} (old new : Option α) : Except Stop (Option α) :=
  if old.isNone ∧ new.isSome then .ok new else .error .misuse

/-- A path that is not empty. -/
def path? (s : String) : Option String := if s.isEmpty then none else some s

/-- A number with or without a plus sign, of 64 bits. -/
def number? (s : String) : Option Nat :=
  let digits := match s.toList with
    | '+' :: cs => cs
    | cs => cs
  if digits.isEmpty ∨ !digits.all Char.isDigit then none
  else
    let n := digits.foldl (fun n c => n * 10 + (c.toNat - '0'.toNat)) 0
    if n < Nat.pow 2 64 then some n else none

/-- Gives an option its value. -/
def give (o : Options) (p : Parameter) (value : String) : Except Stop Options :=
  match p with
  | .config => return { o with config := ← once o.config (path? value) }
  | .root => return { o with root := ← once o.root (path? value) }
  | .definition => return { o with definition := ← once o.definition (path? value) }
  | .author => return { o with author := ← once o.author (some value) }
  | .format => return { o with format := ← once o.format (OutputFormat.ofName? value) }
  | .limit => return { o with limit := ← once o.limit (number? value) }

/-- The options before a command together with those after it, which win. -/
def merge (before after : Options) : Options where
  config := after.config <|> before.config
  root := after.root <|> before.root
  definition := after.definition <|> before.definition
  author := after.author <|> before.author
  format := after.format <|> before.format
  limit := after.limit <|> before.limit
  verbose := after.verbose || before.verbose

end Options

/-! ### From arguments to events -/

/-- What an argument, or an option with the argument after it, says. -/
inductive Event where
  | help | version | verbose
  /-- The value of an option is part of the option's argument, or an argument of its own. -/
  | give (p : Parameter) (value : String) (apart : Bool)
  | operand (text : String)
  | misuse
  deriving DecidableEq, Repr

namespace Event

/-- What an option without a value says. -/
def ofSwitch : Switch → Event
  | .help => .help
  | .version => .version
  | .verbose => .verbose
  | .parameter _ => .misuse

/-- What an option with a long name says, or the option whose value is still to come. -/
def long (level : Level) (text : List Char) : Event ⊕ Parameter :=
  let name := String.ofList (text.takeWhile (· ≠ '='))
  match (Switch.ofName? name).filter (Switch.isKnown level), text.dropWhile (· ≠ '=') with
  | some (.parameter p), _ :: value => .inl (.give p (String.ofList value) false)
  | some (.parameter p), [] => .inr p
  | some switch, [] => .inl (ofSwitch switch)
  | _, _ => .inl .misuse

/-- What a row of letters says: options without a value, of which the last may be one with a value. -/
def letters (level : Level) : List Char → List Event × Option Parameter
  | [] => ([], none)
  | c :: cs =>
    match (Switch.ofLetter? c).filter (Switch.isKnown level) with
    | none => ([.misuse], none)
    | some (.parameter p) =>
      match cs with
      | [] => ([], some p)
      | '=' :: value => ([.give p (String.ofList value) false], none)
      | value => ([.give p (String.ofList value) false], none)
    | some switch =>
      let (events, waiting) := letters level cs
      (ofSwitch switch :: events, waiting)

/-- What an argument says if it is an option, and the option whose value is still to come. -/
def option? (level : Level) (arg : String) : Option (List Event × Option Parameter) :=
  match arg.toList with
  | '-' :: '-' :: text =>
    match long level text with
    | .inl event => some ([event], none)
    | .inr p => some ([], some p)
  | '-' :: c :: cs => some (letters level (c :: cs))
  | _ => none

/-- Whether an argument can be the value of the option before it. -/
def isValue (arg : String) : Bool := arg = "-" || !arg.startsWith "-"

/-- What the arguments say. Before the command, the reading ends at the first argument that is no
option. After two dashes there are operands only. -/
def scan (level : Level) : List String → List Event × List String
  | [] => ([], [])
  | arg :: args =>
    if arg = "--" then (if level.isSome then args.map operand else [.misuse], [])
    else
      match option? level arg with
      | none =>
        if level.isNone then ([], arg :: args)
        else
          let (events, rest) := scan level args
          (.operand arg :: events, rest)
      | some (said, none) =>
        let (events, rest) := scan level args
        (said ++ events, rest)
      | some (said, some p) =>
        match args with
        | value :: args =>
          if isValue value then
            let (events, rest) := scan level args
            (said ++ .give p value true :: events, rest)
          else (said ++ [.misuse], [])
        | [] => (said ++ [.misuse], [])

end Event

/-! ### From events to a command -/

/-- What was said up to some event. -/
structure Said where
  options : Options
  operands : List String

/-- Hears an event, with so many operands asked for. -/
def Said.hear (most : Nat) (s : Said) : Event → Except Stop Said
  | .help => .error .help
  | .version => .error .version
  | .misuse => .error .misuse
  | .verbose =>
    if s.options.verbose then .error .misuse
    else .ok { s with options := { s.options with verbose := true } }
  | .give p value _ => return { s with options := ← s.options.give p value }
  | .operand text =>
    if s.operands.length < most then .ok { s with operands := s.operands ++ [text] }
    else .error .misuse

/-- The number of entries that the history shows unless told otherwise. -/
def defaultLimit : Nat := 20

/-- The command with its operands. -/
def Command.ofSaid (name : CommandName) (s : Said) : Except Stop Command :=
  match name, s.operands with
  | .get, [collection, id] => .ok (.act (.get ⟨collection, id⟩))
  | .set, [collection, id, fields] => .ok (.act (.put .set ⟨collection, id⟩ fields))
  | .insert, [collection, id, fields] => .ok (.act (.put .insert ⟨collection, id⟩ fields))
  | .delete, [collection, id] => .ok (.act (.delete ⟨collection, id⟩))
  | .ls, [collection] => .ok (.act (.list collection))
  | .history, [] => .ok (.history (s.options.limit.getD defaultLimit))
  | _, _ => .error .misuse

/-- Reads the arguments after a command's name. -/
def readCommand (name : CommandName) (args : List String) : Except Stop (Options × Command) := do
  let s ← (Event.scan (some name) args).1.foldlM (Said.hear name.operands.length) ⟨.empty, []⟩
  return (s.options, ← Command.ofSaid name s)

/-- Whether a request for help names at most one command. -/
def isHelpTopic : List String → Bool
  | [] => true
  | [name] => name = "help" || (CommandName.ofName? name).isSome
  | _ => false

/-- The events before the last option if its value is an argument of its own, and that option. -/
def splitWaiting (events : List Event) : List Event × List Event :=
  match events.getLast? with
  | some (.give _ _ true) => (events.dropLast, events.drop (events.length - 1))
  | _ => (events, [])

/-- Reads all arguments. A value that is an argument of its own is looked at when the option after it
is, and if the command follows, after the command's arguments. -/
def readArguments (args : List String) : Except Stop (Options × Command) := do
  let (events, rest) := Event.scan none args
  let (events, waiting) := splitWaiting events
  let s ← events.foldlM (Said.hear 0) ⟨.empty, []⟩
  match rest with
  | [] => .error .misuse
  | first :: args =>
    if first = "help" then .error (if isHelpTopic args then .help else .misuse)
    else
      match CommandName.ofName? first with
      | none => .error .misuse
      | some name =>
        let (options, command) ← readCommand name args
        let s ← waiting.foldlM (Said.hear 0) s
        return (s.options.merge options, command)

end RecordTree.Cli
