import RecordTree.Definition
import RecordTree.Format
import RecordTree.Record
import RecordTree.Store.Change
import RecordTree.Store.Error

/-!
# Record errors

What can go wrong with an operation on records, coarse kinds of it, and the words for it.
-/

namespace RecordTree

/-- What a database is asked for in vain. -/
inductive Feature where
  | exists | getMulti | query | setMulti | deleteMulti | update
  deriving DecidableEq, Repr

/-- The name of a feature. -/
def Feature.name : Feature → String
  | .exists => "exists"
  | .getMulti => "get_multi"
  | .query => "query"
  | .setMulti => "set_multi"
  | .deleteMulti => "delete_multi"
  | .update => "update"

/-- What can go wrong with an operation on records. -/
inductive RecordError where
  /-- There is no definition. -/
  | definitionMissing
  | unknownCollection (id : String)
  /-- A file that all records share has a placeholder in its name. -/
  | keyedSharedFile (collection name : String)
  /-- A collection does not say in which files its records are. -/
  | recordFileMissing (collection : String)
  /-- Records of a type are declared and not served. -/
  | unsupportedType (collection : String) (type : RecordType)
  | emptyId (key : RecordKey)
  /-- A payload is no mapping. -/
  | invalidPayload (key : RecordKey) (found : Value.Kind)
  | alreadyExists (key : RecordKey)
  | notFound (key : RecordKey)
  /-- A record file cannot be read or written in its format. -/
  | format (path : String) (cause : FormatError)
  | store (cause : StoreError)
  /-- The caller gave up, and nothing was changed. -/
  | cancelled
  /-- The caller gave up when a change was on its way, and nobody knows what became of it. -/
  | outcomeUnknown (path : String) (kind : ChangeKind)
  | unsupported (feature : Feature)
  deriving DecidableEq, Repr

/-- The coarse kinds of errors. -/
inductive ErrorKind where
  | notFound | validation | conflict | format | remote | cancelled | unsupported
  deriving DecidableEq, Repr

namespace RecordError

/-- The kind of an error. -/
def kind : RecordError → ErrorKind
  | notFound _ => .notFound
  | store (.invalidPath _ _) => .validation
  | definitionMissing => .validation
  | keyedSharedFile _ _ => .validation
  | unknownCollection _ => .validation
  | recordFileMissing _ => .validation
  | unsupportedType _ _ => .validation
  | emptyId _ => .validation
  | invalidPayload _ _ => .validation
  | alreadyExists _ => .conflict
  | format _ _ => .format
  | store _ => .remote
  | outcomeUnknown _ _ => .remote
  | cancelled => .cancelled
  | unsupported _ => .unsupported

/-- Whether the store refused a change because the file is not the one that was read. -/
def isRevisionConflict : RecordError → Bool
  | store cause => cause.isConflict
  | _ => false

/-- The message of an error. -/
def message : RecordError → String
  | definitionMissing => "no definition supplied"
  | unknownCollection id => "collection not found: " ++ id
  | keyedSharedFile collection name =>
    "invalid definition: collection " ++ collection ++ ": shared record file " ++ Text.quote name ++
      " must not contain " ++ Path.placeholder
  | recordFileMissing collection => "collection " ++ collection ++ " has no record file definition"
  | unsupportedType collection type =>
    "unsupported record type " ++ type.name ++ " in collection " ++ collection
  | emptyId key => "invalid record key " ++ key.text ++ ": record id must not be empty"
  | invalidPayload key found =>
    "invalid payload for " ++ key.text ++ ": expected a field map, found " ++ found.name
  | alreadyExists key => "record already exists: " ++ key.text
  | notFound key => "record not found: " ++ key.text
  | format path cause => "format error in " ++ path ++ ": " ++ cause.message
  | store cause => cause.message
  | cancelled => "operation cancelled"
  | outcomeUnknown path kind =>
    kind.name ++ " of " ++ path ++ " was cancelled in flight; its outcome is unknown"
  | unsupported feature => "unsupported operation: " ++ feature.name

end RecordError

end RecordTree
