import RecordTree.Json.Printer
import RecordTree.Json.Reader
import RecordTree.Text.Blank
import RecordTree.Text.Quoted
import RecordTree.Yaml.Document
import RecordTree.Yaml.Printer

/-!
# Record formats

The formats in which record files are written, and what can be wrong with the content of a file. A
content of nothing but ASCII blanks holds nothing in every format.
-/

namespace RecordTree

/-- The format of a record file. -/
inductive Format where
  | yaml
  | json
  deriving DecidableEq, Repr

/-- What can be wrong with a format or with a content. -/
inductive FormatError where
  /-- No format has the name. -/
  | unsupported (name : String)
  /-- The content is no document of its format. -/
  | malformed (format : Format)
  /-- The document holds something else where it must hold a mapping. -/
  | notAMapping (place : String) (found : Value.Kind)
  deriving DecidableEq, Repr

namespace Format

/-- The name of a format. -/
def name : Format → String
  | yaml => "yaml"
  | json => "json"

/-- The format with a name; blanks around it and capitals do not matter. -/
def ofName (s : String) : Except FormatError Format :=
  let key := Text.lowerAscii (Text.trim s)
  if key = "yaml" ∨ key = "yml" then .ok yaml
  else if key = "json" then .ok json
  else .error (.unsupported s)

/-- Whether a byte is an ASCII blank. -/
def isBlankByte (b : UInt8) : Bool := b == 0x20 || b == 0x09 || b == 0x0A || b == 0x0C || b == 0x0D

/-- The text of a document. -/
def print : Format → Value → String
  | yaml, v => Yaml.print v
  | json, v => Json.pretty v ++ "\n"

/-- The value that a text holds. -/
def read? : Format → String → Option Value
  | yaml, s => Yaml.read? s
  | json, s => Json.read? s

/-- The content of a file that holds a value. -/
def encode (f : Format) (v : Value) : ByteArray := (f.print v).toUTF8

/-- The value that the content of a file holds. -/
def decode (f : Format) (content : ByteArray) : Except FormatError Value :=
  if content.data.all isBlankByte then .ok .null
  else
    match (String.fromUTF8? content).bind f.read? with
    | some v => .ok v
    | none => .error (.malformed f)

end Format

/-- The message of an error. -/
def FormatError.message : FormatError → String
  | unsupported name => "unsupported record format: " ++ Text.quote name
  | malformed format => "malformed " ++ format.name ++ " document: <parser>"
  | notAMapping place found => "expected a mapping at " ++ place ++ ", found " ++ found.name

end RecordTree
