import RecordTree.Cli.Report
import RecordTree.Cli.Settings
import RecordTree.Definition.File
import RecordTree.Record.Session
import RecordTree.Store.Directory
import RecordTree.Tree.Walk

/-!
# Runs of the command line program

A run reads its arguments, looks up the settings, opens the record tree and does what it is asked to do.
Nothing is done to the file system here: the run is told how to look at it, and ends with the record
tree as it is to be.
-/

namespace RecordTree.Cli

/-- Why a command fails. -/
inductive Failure where
  /-- There is something wrong with the configuration file. -/
  | settings (path : String) (cause : SettingsError)
  /-- There is no record tree. -/
  | root (path : String)
  /-- Nobody says where the definition is. -/
  | definitionMissing
  /-- There is no definition where it should be. -/
  | definition (path : String)
  /-- The fields of a record are no JSON text. -/
  | fields
  | store (cause : StoreError)
  | record (cause : RecordError)
  deriving DecidableEq, Repr

/-- The message of a failure. -/
def Failure.message : Failure → String
  | settings path .unreadable => "reading " ++ path
  | settings path .malformed => "parsing " ++ path
  | root path => "opening record tree " ++ path
  | definitionMissing =>
    "no definition file: pass --definition or set `definition` in the config"
  | definition path => "loading definition " ++ path
  | fields => "record fields must be valid JSON"
  | store cause => cause.message
  | record cause => cause.message

/-! ### Commands -/

/-- What is said about a record that was put. -/
def putWord : PutMode → String
  | .set => "Saved"
  | .insert => "Inserted"

/-- An action as a program, which ends with what is shown. -/
def Action.program (d : Display) (s : Session) : Action → Except Failure (Program String)
  | .get key => .ok ((fun fields => d.record ((Record.empty key).answered fields)) <$> s.get key)
  | .put mode key fields =>
    match Json.read? fields with
    | none => .error .fields
    | some data => .ok ((fun _ => d.done (putWord mode) key) <$> s.put mode key data)
  | .delete key => .ok ((fun _ => d.done "Deleted" key) <$> s.delete key)
  | .list collection => .ok (d.entries <$> s.listFiles collection)

/-- The configuration file, unless another one is named. -/
def defaultConfig : String := "filedb.toml"

/-- The record tree, unless another one is named. -/
def defaultRoot : String := "."

section

variable {m : Type → Type} [Monad m] (look : String → m (Except Absence Tree))

/-- Looks up the settings. -/
def loadSettings (o : Options) : m (Except Failure Settings) := do
  let path := o.config.getD defaultConfig
  match Settings.ofFound path (← look path) with
  | .ok s => return .ok (s.override o)
  | .error cause => return .error (.settings path cause)

/-- Opens the record tree. -/
def openStore (s : Settings) : m (Except Failure DirectoryStore) := do
  let root := s.root.getD defaultRoot
  return (DirectoryStore.ofFound root (← look root)).mapError fun _ => .root root

/-- Loads the definition. -/
def openSession (s : Settings) : m (Except Failure Session) := do
  match s.definition with
  | none => return .error .definitionMissing
  | some path =>
    let content := match ← look path with
      | .ok (.file content) => some content
      | _ => none
    match Definition.ofFile path content with
    | .ok d => return .ok ⟨some d, s.author⟩
    | .error _ => return .error (.definition path)

/-- Does what is asked for in the given record tree: what is shown, and the tree in the end. -/
def Command.perform (now : Instant) (d : Display) (s : Settings) (store : DirectoryStore) :
    Command → m (Except Failure String × DirectoryStore)
  | .history limit => return ((store.history.mapError .store).map (d.history limit), store)
  | .act action => do
    match (← openSession look s).bind (action.program d) with
    | .error e => return (.error e, store)
    | .ok program =>
      let (shown, store) := program.runOn (DirectoryStore.call now) store
      return (shown.mapError .record, store)

/-! ### Runs -/

/-- How a run ends. -/
structure Ending where
  status : UInt32
  out : String
  err : String
  /-- The record tree as it is to be, if it was opened. -/
  store : Option DirectoryStore

/-- The version of the program. -/
def versionLine : String := "filedb 0.1.0\n"

/-- What the program can be asked for. -/
def helpText : String :=
  Display.lines (["Records stored as YAML and JSON files in a directory tree", "",
    "Usage: filedb [OPTIONS] <COMMAND>", "", "Commands:"] ++
    (CommandName.all.map fun c =>
      "  " ++ " ".intercalate (c.name :: c.operands.map fun name => "<" ++ name ++ ">")) ++
    ["  help [COMMAND]", "", "Options:",
      "      --config <CONFIG>          Configuration file",
      "      --root <ROOT>              Root of the record tree",
      "      --definition <DEFINITION>  Definition file",
      "      --author <AUTHOR>          Author recorded in change descriptions",
      "      --format <FORMAT>          text or json",
      "  -n, --limit <LIMIT>            Number of changes that history shows",
      "  -v, --verbose                  Say which record tree is used",
      "  -h, --help                     Print help",
      "  -V, --version                  Print version"])

/-- What is said to one who uses the program wrongly. -/
def usageText : String := "error: wrong arguments, try --help\n"

/-- Runs the program. -/
def run (now : Instant) (isColored : Bool) (args : List String) : m Ending := do
  match readArguments args with
  | .error .help => return ⟨0, helpText, "", none⟩
  | .error .version => return ⟨0, versionLine, "", none⟩
  | .error .misuse => return ⟨2, "", usageText, none⟩
  | .ok (options, command) =>
    let failed (e : Failure) : Ending := ⟨1, "", "Error: " ++ e.message ++ "\n", none⟩
    match ← loadSettings look options with
    | .error e => return failed e
    | .ok settings =>
      match ← openStore look settings with
      | .error e => return failed e
      | .ok store =>
        let note := if options.verbose then "record tree: " ++ store.root ++ "\n" else ""
        let display := ⟨options.format.getD .text, isColored⟩
        let (shown, store) ← command.perform look now display settings store
        match shown with
        | .ok text => return ⟨0, text, note, some store⟩
        | .error e => return { failed e with err := note ++ (failed e).err, store := some store }

end

/-- Runs the program in a file system. -/
def runIn (fs : FileSystem) (now : Instant) (isColored : Bool) (args : List String) : Ending × FileSystem :=
  let ending := Id.run (run (fun path => pure (fs.reach path)) now isColored args)
  match ending.store with
  | none => (ending, fs)
  | some store =>
    match fs.walk store.root with
    | .ok place => (ending, fs.replace place store.tree)
    | .error _ => (ending, fs)

end RecordTree.Cli
