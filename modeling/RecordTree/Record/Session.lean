import RecordTree.Record.Program
import RecordTree.Record.Target

/-!
# Sessions

A session is a definition together with the author that the history is to name. Its operations are
programs. A get looks into the one file of the record. Each of those that change something makes two
requests: it reads the file, and it writes or removes it under the revision that it has read. Nothing is
tried twice.
-/

namespace RecordTree

/-- What a change does to its record. -/
inductive Verb where
  | insert
  | set
  | delete
  deriving DecidableEq, Repr

/-- The name of a verb. -/
def Verb.name : Verb → String
  | insert => "insert"
  | set => "set"
  | delete => "delete"

/-- The verb of a put. -/
def PutMode.verb : PutMode → Verb
  | set => .set
  | insert => .insert

/-- What the history says about a change of a record. -/
def changeMessage (verb : Verb) (key : RecordKey) (author : Option String) : String :=
  verb.name ++ " record " ++ key.text ++
    match author with
    | some author => "\n\nAuthor: " ++ author
    | none => ""

/-- A definition, if there is one, and the author of what is done. -/
structure Session where
  definition : Option Definition
  author : Option String

namespace Session

open Program

/-- The fields of a payload, which must be a mapping. -/
def payload (key : RecordKey) (data : Value) : Except RecordError Fields :=
  match data.fields? with
  | some fields => .ok fields
  | none => .error (.invalidPayload key data.kind)

/-- Reads the target's file, and changes it as the function says from its content. -/
def mutate (t : Target) (message : String) (change : Option ByteArray → Except RecordError Edit) :
    Program Unit := do
  let snapshot ← read t.path
  let expected := (snapshot.map Snapshot.revision).getD .none
  match ← ofExcept (change (snapshot.map Snapshot.content)) with
  | .write document => discard (write t.path message (t.codec.format.encode document) expected)
  | .remove => delete t.path message expected

/-- The fields of a record, if it is there. -/
def get (s : Session) (key : RecordKey) : Program (Option Fields) := do
  let t ← ofExcept (Target.resolve s.definition key)
  ofExcept (t.seen (← peek t.path))

/-- Puts a record. The payload is looked at first. -/
def put (s : Session) (mode : PutMode) (key : RecordKey) (data : Value) : Program Unit := do
  let fields ← ofExcept (payload key data)
  let t ← ofExcept (Target.resolve s.definition key)
  mutate t (changeMessage mode.verb key s.author) (t.put mode fields)

/-- Makes or replaces a record. -/
def set (s : Session) (key : RecordKey) (data : Value) : Program Unit := s.put .set key data

/-- Makes a record that must not be there. -/
def insert (s : Session) (key : RecordKey) (data : Value) : Program Unit := s.put .insert key data

/-- Deletes a record that must be there. -/
def delete (s : Session) (key : RecordKey) : Program Unit := do
  let t ← ofExcept (Target.resolve s.definition key)
  mutate t (changeMessage .delete key s.author) t.removed

/-- The entries of a collection's directory. -/
def listFiles (s : Session) (collection : String) : Program (List DirEntry) := do
  match s.definition with
  | none => fail .definitionMissing
  | some d =>
    match d.collection? collection with
    | none => fail (.unknownCollection collection)
    | some c => list c.dir

/-- What is asked for in vain fails without a request. -/
def unsupported {α : Type} (feature : Feature) : Program α := fail (.unsupported feature)

/-- Runs a program for a caller unless the caller has given up already. -/
def transaction {α : Type} (cancelled : Bool) (body : Program α) : Program α :=
  if cancelled then fail .cancelled else body

end Session

end RecordTree
