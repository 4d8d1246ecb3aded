import RecordTree.Format
import RecordTree.Locale

/-!
# Record files

What a record file holds: the fields of one record, or a mapping from ids to the fields of records.
Where a mapping is expected, nothing counts as the empty mapping.
-/

namespace RecordTree

/-- The records of a shared file: their stored fields by their ids. -/
abbrev RecordMap := SortedMap Fields

/-- The document of a shared file. -/
def Value.ofRecords (records : RecordMap) : Value := .ofFields (records.map ofFields)

/-- How the record files of a collection are read and written. -/
structure Codec where
  format : Format
  projection : Projection
  deriving DecidableEq, Repr

namespace Codec

/-- The codec of a collection with the given record file. -/
def ofCollection (c : Collection) (f : RecordFile) : Except FormatError Codec :=
  (Format.ofName f.format).map fun format => ⟨format, .ofCollection c⟩

/-- Whether a write has to look at what is stored, because other locales are to be kept. -/
def mergesOnWrite (c : Codec) : Bool := !c.projection.isIdentity

/-- The fields of a value that must be a mapping. -/
def expectMapping (place : String) (v : Value) : Except FormatError Fields :=
  match v with
  | .null => .ok .empty
  | .object fields => .ok (.ofList fields)
  | v => .error (.notAMapping place v.kind)

/-- The stored fields that a file of one record holds. -/
def decodeFields (c : Codec) (content : ByteArray) : Except FormatError Fields :=
  (c.format.decode content).bind (expectMapping "document root")

/-- The stored fields that a shared file holds for each id. -/
def decodeRecords (c : Codec) (content : ByteArray) : Except FormatError RecordMap := do
  let root ← expectMapping "document root" (← c.format.decode content)
  root.mapM fun id v => expectMapping ("record " ++ Text.quote id) v

/-- The content of a file of one record. -/
def encodeFields (c : Codec) (fields : Fields) : ByteArray := c.format.encode (.ofFields fields)

/-- The content of a shared file. -/
def encodeRecords (c : Codec) (records : RecordMap) : ByteArray := c.format.encode (.ofRecords records)

/-- What is seen of stored fields. -/
def view (c : Codec) (raw : Fields) : Fields := c.projection.view raw

/-- The fields to store for incoming ones. -/
def stored (c : Codec) (incoming : Fields) (existing : Option Fields) : Fields :=
  c.projection.stored incoming existing

end Codec

end RecordTree
