import RecordTree.Json.Part
import RecordTree.Json.Printer
import RecordTree.Store.Change
import RecordTree.Time

/-!
# The change log

A store in a directory remembers its changes in a text file, one JSON object a line. `LogEntry.line`
writes such a line; since JSON escapes every line break, no message can end it early. `Log.read?` reads
a whole file of them.
-/

namespace RecordTree

/-- A change with the time at which it was made. -/
structure LogEntry where
  change : Change
  time : Instant
  deriving DecidableEq, Repr

namespace LogEntry

/-- An entry as a value; its fields stand in this order. -/
def value (e : LogEntry) : Value :=
  .object [("path", .string e.change.path), ("message", .string e.change.message),
    ("kind", .string e.change.kind.name), ("revision", .string e.change.revision.text),
    ("at", .string e.time.text)]

/-- The line of an entry, with its line break. -/
def line (e : LogEntry) : String := Json.compact e.value ++ "\n"

/-- A kind, as its name or as an object that has the name for its one key and nothing under it. -/
def kind? (cs : List Char) : Option ChangeKind :=
  match Json.string? cs with
  | some name => ChangeKind.ofName? name
  | none =>
    match Json.fields? cs with
    | some [(name, content)] =>
      if Json.readChars? content matches some .null then ChangeKind.ofName? name else none
    | _ => none

/-- The entry with the given parts. -/
def ofParts? (path message kind revision time : List Char) : Option LogEntry := do
  return {
    change := {
      path := ← Json.string? path
      message := ← Json.string? message
      kind := ← kind? kind
      revision := ⟨← Json.string? revision⟩ }
    time := ← Instant.read? (← Json.string? time) }

/-- The part under a key that must stand exactly once. -/
def only? (key : String) (fields : List (String × List Char)) : Option (List Char) :=
  match fields.filter (·.1 = key) with
  | [(_, part)] => some part
  | _ => none

/-- The entry on a line: an object, whose other fields say nothing, or the array of the parts. -/
def read? (cs : List Char) : Option LogEntry :=
  match Json.items? cs with
  | some [path, message, kind, revision, time] => ofParts? path message kind revision time
  | some _ => none
  | none => do
    let fields ← Json.fields? cs
    ofParts? (← only? "path" fields) (← only? "message" fields) (← only? "kind" fields)
      (← only? "revision" fields) (← only? "at" fields)

end LogEntry

namespace Log

/-- Cuts a text at its line breaks; a carriage return before one belongs to it. -/
def lines (cs : List Char) : List (List Char) := go [] cs
where
  /-- Goes on with the reversed start of a line. -/
  go (acc : List Char) : List Char → List (List Char)
    | [] => if acc.isEmpty then [] else [acc.reverse]
    | '\n' :: cs =>
      (match acc with
        | '\r' :: acc => acc.reverse
        | acc => acc.reverse) :: go [] cs
    | c :: cs => go (c :: acc) cs

/-- The entries of a log. Blank lines say nothing. -/
def read? (text : String) : Option (List LogEntry) :=
  ((lines text.toList).filter fun cs => !cs.all Text.isBlank).mapM LogEntry.read?

end Log

end RecordTree
