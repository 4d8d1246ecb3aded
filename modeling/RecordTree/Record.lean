import RecordTree.Value

/-!
# Records

A record is addressed by its collection and its id. What a caller holds of it is the payload and whether
a store was seen to have it.
-/

namespace RecordTree

/-- The address of a record. -/
structure RecordKey where
  collection : String
  id : String
  deriving DecidableEq, Repr

/-- The key as it stands in messages. -/
def RecordKey.text (k : RecordKey) : String := k.collection ++ "/" ++ k.id

/-- A record as a caller holds it. -/
structure Record where
  key : RecordKey
  /-- The payload, or null where there is none. -/
  data : Value
  /-- Whether the payload came from a store. -/
  isFound : Bool

namespace Record

/-- A record with a payload that no store was asked about. -/
def new (key : RecordKey) (data : Value) : Record := ⟨key, data, false⟩

/-- A record of which only the key is known. -/
def empty (key : RecordKey) : Record := new key .null

/-- The record with the fields that a store has. -/
def found (r : Record) (fields : Fields) : Record := { r with data := .ofFields fields, isFound := true }

/-- The record, which no store has. -/
def missing (r : Record) : Record := { r with data := .null, isFound := false }

/-- What is known of the record after a store was asked and has answered. -/
def answered (r : Record) : Option Fields → Record
  | some fields => r.found fields
  | none => r.missing

/-- The fields, if the payload is a mapping. -/
def fields? (r : Record) : Option Fields := r.data.fields?

/-- A record as a value; its parts stand in this order. -/
def value (r : Record) : Value :=
  .object [("key", .object [("collection", .string r.key.collection), ("id", .string r.key.id)]),
    ("data", r.data), ("exists", .bool r.isFound)]

end Record

end RecordTree
