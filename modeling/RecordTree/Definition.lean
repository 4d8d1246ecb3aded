import RecordTree.Path
import RecordTree.SortedMap
import RecordTree.Text.Quoted

/-!
# Definitions

A definition says, for each collection of records, in which directory and in which files its records
are kept. `Definition.normalize` is the one check that a definition from a file passes: ids agree
with the keys they stand under, and a file shared by all records has no placeholder in its name.
-/

namespace RecordTree

/-- How the records of a collection are spread over files. -/
inductive RecordType where
  /-- Each record has a file of its own. -/
  | single
  /-- One file holds a list of records. Such a collection can be declared and not be served. -/
  | list
  /-- One file maps ids to records. -/
  | shared
  deriving DecidableEq, Repr

namespace RecordType

/-- The name of a type. -/
def name : RecordType → String
  | single => "map[string]any"
  | list => "[]map[string]any"
  | shared => "map[id]map[string]any"

/-- The type with a name, long or short. -/
def ofName? (s : String) : Option RecordType :=
  if s = "map[string]any" ∨ s = "single_record" then some single
  else if s = "[]map[string]any" ∨ s = "list_of_records" then some list
  else if s = "map[id]map[string]any" ∨ s = "map_of_id_records" then some shared
  else none

end RecordType

/-- The files of a collection. -/
structure RecordFile where
  /-- The file's name, perhaps with placeholders for the key. -/
  name : String
  /-- The name of the format, which is checked when the file is used. -/
  format : String
  type : RecordType
  deriving DecidableEq, Repr

/-- Whether a record file's name depends on the key. -/
def RecordFile.isKeyed (f : RecordFile) : Bool := Path.hasPlaceholder f.name.toList

/-- What a column is declared to hold. -/
inductive ColumnType where
  | string | int | float | bool | date | any
  deriving DecidableEq, Repr

namespace ColumnType

/-- The name of a type. -/
def name : ColumnType → String
  | string => "string"
  | int => "int"
  | float => "float"
  | bool => "bool"
  | date => "date"
  | any => "any"

/-- The type with a name. -/
def ofName? (s : String) : Option ColumnType :=
  [string, int, float, bool, date, any].find? (·.name = s)

end ColumnType

/-- A column of a collection. -/
structure Column where
  type : ColumnType
  /-- The locale under which the column's values are stored. -/
  locale : Option String
  deriving DecidableEq, Repr

/-- A collection of records. -/
structure Collection where
  id : String
  dir : String
  recordFile : Option RecordFile
  columns : SortedMap Column

namespace Collection

/-- The path of the file that holds a record. -/
def recordPath (c : Collection) (key : String) : Option String :=
  c.recordFile.map fun f => Path.ofRecord c.dir f.name key

/-- The columns that have a locale, with it, in the order of their names. -/
def localized (c : Collection) : List (String × String) :=
  c.columns.entries.filterMap fun (name, column) => column.locale.map fun l => (name, l)

end Collection

/-- The collections of a database by their ids. -/
structure Definition where
  collections : SortedMap Collection

/-- Why a definition is refused. -/
inductive DefinitionError where
  /-- The text does not describe a definition. -/
  | unreadable
  /-- A collection declares an id other than the key it stands under. -/
  | mismatchedId (key id : String)
  /-- The file shared by all records of a collection has a placeholder in its name. -/
  | keyedSharedFile (key name : String)
  /-- A definition file has an extension that names no format. -/
  | unknownExtension (extension : String)
  /-- A definition file cannot be read. -/
  | unreadableFile
  deriving DecidableEq, Repr

namespace DefinitionError

/-- The text that stands for what a reader of some format has to say. -/
def readerText : String := "<parser>"

/-- The message of an error. -/
def message : DefinitionError → String
  | unreadable => "invalid definition: " ++ readerText
  | mismatchedId key id =>
    "invalid definition: collection " ++ Text.quote key ++ " declares mismatched id " ++
      Text.quote id
  | keyedSharedFile key name =>
    "invalid definition: collection " ++ Text.quote key ++ ": shared record file " ++
      Text.quote name ++ " must not contain " ++ Path.placeholder
  | unknownExtension extension => "unsupported definition file extension: " ++ extension
  | unreadableFile => "unreadable definition file"

end DefinitionError

namespace Definition

/-- The definition without collections. -/
def empty : Definition := ⟨.empty⟩

/-- Adds a collection under its id. -/
def add (d : Definition) (c : Collection) : Definition := ⟨d.collections.insert c.id c⟩

/-- The collection with an id. -/
def collection? (d : Definition) (id : String) : Option Collection := d.collections.get? id

/-- Fills in a collection's id and checks the collection. -/
def normalizeCollection (key : String) (c : Collection) : Except DefinitionError Collection :=
  if c.id ≠ "" ∧ c.id ≠ key then .error (.mismatchedId key c.id)
  else
    match c.recordFile with
    | some f =>
      if f.type = .shared ∧ f.isKeyed then .error (.keyedSharedFile key f.name)
      else .ok { c with id := key }
    | none => .ok { c with id := key }

/-- Fills in the ids of all collections and checks them in the order of their keys. -/
def normalize (d : Definition) : Except DefinitionError Definition :=
  (d.collections.mapM normalizeCollection).map Definition.mk

end Definition

end RecordTree
