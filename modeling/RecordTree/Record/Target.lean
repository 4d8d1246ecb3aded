import RecordTree.Codec
import RecordTree.Record.Error

/-!
# Targets

A key leads to a target: the file that holds the record, and how it is written. Nothing is asked of a
store for that. What an operation does to a record is then a function on the content of that one file:
`Target.seen` reads the record off it, `Target.put` and `Target.removed` say what becomes of it.
-/

namespace RecordTree

/-- The collection of a key. -/
def resolveCollection (definition : Option Definition) (key : RecordKey) :
    Except RecordError Collection := do
  let some d := definition | throw .definitionMissing
  let some c := d.collection? key.collection | throw (.unknownCollection key.collection)
  if key.id.isEmpty then throw (.emptyId key)
  return c

/-- The record file that a collection must have. -/
def requireRecordFile (c : Collection) : Except RecordError RecordFile :=
  match c.recordFile with
  | some f => .ok f
  | none => .error (.recordFileMissing c.id)

/-- How records lie in files. -/
inductive Layout where
  /-- The file holds one record. -/
  | single
  /-- The file maps ids to records. -/
  | shared
  deriving DecidableEq, Repr

/-- The layout of a collection's record files. -/
def resolveLayout (c : Collection) (f : RecordFile) : Except RecordError Layout :=
  match f.type with
  | .single => .ok .single
  | .shared => if f.isKeyed then .error (.keyedSharedFile c.id f.name) else .ok .shared
  | .list => .error (.unsupportedType c.id f.type)

/-- The file that holds a record. -/
structure Target where
  key : RecordKey
  path : String
  layout : Layout
  codec : Codec
  deriving DecidableEq, Repr

/-- Whether a record may be there before it is put. -/
inductive PutMode where
  /-- The record is made or replaced. -/
  | set
  /-- The record must not be there. -/
  | insert
  deriving DecidableEq, Repr

/-- What becomes of a file. -/
inductive Edit where
  | write (document : Value)
  | remove

namespace Target

/-- The target of a key. -/
def resolve (definition : Option Definition) (key : RecordKey) : Except RecordError Target := do
  let c ← resolveCollection definition key
  let f ← requireRecordFile c
  let path := Path.ofRecord c.dir f.name key.id
  let layout ← resolveLayout c f
  let codec ← (Codec.ofCollection c f).mapError (.format path)
  return { key, path, layout, codec }

/-- The stored fields in a file of one record. -/
def decodeFields (t : Target) (content : ByteArray) : Except RecordError Fields :=
  (t.codec.decodeFields content).mapError (.format t.path)

/-- The records in a shared file, of which there are none without a file. -/
def decodeRecords (t : Target) : Option ByteArray → Except RecordError RecordMap
  | none => .ok .empty
  | some content => (t.codec.decodeRecords content).mapError (.format t.path)

/-- What is seen of the record, if the file holds it. -/
def seen (t : Target) (content : Option ByteArray) : Except RecordError (Option Fields) :=
  match t.layout with
  | .single =>
    match content with
    | none => .ok none
    | some content => (t.decodeFields content).map fun raw => some (t.codec.view raw)
  | .shared =>
    (t.decodeRecords content).map fun records => (records.get? t.key.id).map t.codec.view

/-- The document of a file of one record after the record is put. What was there is looked at only if
other locales are to be kept. -/
def putSingle (t : Target) (mode : PutMode) (fields : Fields) (content : Option ByteArray) :
    Except RecordError Value := do
  if mode = .insert ∧ content.isSome then throw (.alreadyExists t.key)
  let existing ← match content with
    | some content =>
      if t.codec.mergesOnWrite then some <$> t.decodeFields content else pure none
    | none => pure none
  return .ofFields (t.codec.stored fields existing)

/-- The document of a shared file after the record is put. -/
def putShared (t : Target) (mode : PutMode) (fields : Fields) (content : Option ByteArray) :
    Except RecordError Value := do
  let records ← t.decodeRecords content
  let existing := records.get? t.key.id
  if mode = .insert ∧ existing.isSome then throw (.alreadyExists t.key)
  return .ofRecords (records.insert t.key.id (t.codec.stored fields existing))

/-- What becomes of the file when the record is put. -/
def put (t : Target) (mode : PutMode) (fields : Fields) (content : Option ByteArray) :
    Except RecordError Edit :=
  match t.layout with
  | .single => (t.putSingle mode fields content).map .write
  | .shared => (t.putShared mode fields content).map .write

/-- What becomes of the file when the record is deleted. A shared file stays, even without records. -/
def removed (t : Target) (content : Option ByteArray) : Except RecordError Edit :=
  match content with
  | none => .error (.notFound t.key)
  | some content =>
    match t.layout with
    | .single => .ok .remove
    | .shared => do
      let records ← t.decodeRecords (some content)
      if (records.get? t.key.id).isNone then throw (.notFound t.key)
      return .write (.ofRecords (records.erase t.key.id))

end Target

end RecordTree
