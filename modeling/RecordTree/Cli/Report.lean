import RecordTree.Cli.Arguments
import RecordTree.Cli.Style
import RecordTree.Store.Log
import RecordTree.Store.Request

/-!
# What the commands show

The answers of the commands as lines of text, coloured or not, or as JSON.
-/

namespace RecordTree.Cli

/-- How answers are shown. -/
structure Display where
  format : OutputFormat
  /-- Whether parts of a text stand out. -/
  isColored : Bool

namespace Display

/-- A text that stands out if colours are wanted. -/
def paint (d : Display) (style : Style) (text : String) : String :=
  if d.isColored then style.paint text else text

/-- Lines of text, each with its line break. -/
def lines (ls : List String) : String := String.join (ls.map (· ++ "\n"))

/-- A value as JSON, or else lines of text. -/
def present (d : Display) (value : Value) (text : List String) : String :=
  match d.format with
  | .json => lines [Json.pretty value]
  | .text => lines text

/-- A record: its key and a line for each field. -/
def record (d : Display) (r : Record) : String :=
  d.present r.value <|
    if r.isFound then
      d.paint .bold r.key.text ::
        ((r.fields?.map SortedMap.entries).getD []).map fun (name, value) =>
          "  " ++ d.paint .cyan name ++ ": " ++ Json.compact value
    else [d.paint .yellow "not found:" ++ " " ++ r.key.text]

/-- What was done to a record. -/
def done (d : Display) (what : String) (key : RecordKey) : String :=
  lines [d.paint .boldGreen "✓" ++ " " ++ what ++ " " ++ d.paint .yellow key.text]

/-- An entry of a directory as a value. -/
def entryValue (e : DirEntry) : Value :=
  .object [("name", .string e.name), ("path", .string e.path), ("kind", .string e.kind.name)]

/-- An entry of a directory in a line. -/
def entryLine (d : Display) (e : DirEntry) : String :=
  match e.kind with
  | .dir => d.paint .boldBlue e.path ++ "/"
  | .file => e.path

/-- The entries of a directory. -/
def entries (d : Display) (es : List DirEntry) : String :=
  d.present (.array (es.map entryValue)) (if es.isEmpty then ["No files."] else es.map d.entryLine)

/-- A kind of change. -/
def kind (d : Display) (k : ChangeKind) : String :=
  d.paint (match k with
    | .write => .green
    | .delete => .red) k.name

/-- A change in two lines: what was done to which file, and the first line of its description. -/
def changeLines (d : Display) (e : LogEntry) : List String :=
  [d.paint .yellow e.change.revision.short ++ " " ++ d.paint .dim (e.time.dateTime " ") ++ " " ++
      d.kind e.change.kind ++ " " ++ d.paint .bold e.change.path,
    "    " ++ String.ofList ((Log.lines e.change.message.toList).headD [])]

/-- The last changes in a log, the newest first. -/
def history (d : Display) (limit : Nat) (log : List LogEntry) : String :=
  let recent := log.reverse.take limit
  d.present (.array (recent.map LogEntry.value))
    (if recent.isEmpty then ["No changes recorded."] else recent.flatMap d.changeLines)

end Display

end RecordTree.Cli
