import RecordTree.Decimal.Double
import RecordTree.SortedMap

/-!
# Record values

A `Value` is what a record field or a whole document holds, whatever format it was written in. The
fields of a mapping are kept as a bare list because a nested type cannot carry the order of its
own entries; `Value.fields?` gives them back as a `SortedMap`, and `Value.ofFields` is its
inverse.
-/

namespace RecordTree

open Decimal

/-- A number: a whole one, or a binary64 one. -/
inductive Number where
  | whole (n : Int)
  | double (x : Double)
  deriving DecidableEq, Repr, Inhabited

/-- A document or a part of one. -/
inductive Value where
  | null
  | bool (b : Bool)
  | number (n : Number)
  | string (s : String)
  | array (items : List Value)
  | object (fields : List (String × Value))
  deriving Repr, Inhabited

/-- The fields of a record, in key order. -/
abbrev Fields := SortedMap Value

namespace Value

/-- The kinds of values. -/
inductive Kind where
  | null | bool | number | string | array | object
  deriving DecidableEq, Repr

/-- The kind of a value. -/
def kind : Value → Kind
  | .null => .null
  | .bool _ => .bool
  | .number _ => .number
  | .string _ => .string
  | .array _ => .array
  | .object _ => .object

/-- The name of a kind in messages. -/
def Kind.name : Kind → String
  | .null => "null"
  | .bool => "bool"
  | .number => "number"
  | .string => "string"
  | .array => "sequence"
  | .object => "mapping"

/-- The mapping with the given fields. -/
def ofFields (fields : Fields) : Value := .object fields.entries

/-- The fields of a mapping. -/
def fields? : Value → Option Fields
  | .object fields => some (SortedMap.ofList fields)
  | _ => none

@[simp] theorem fields?_ofFields (fields : Fields) : (ofFields fields).fields? = some fields := by
  simp [fields?, ofFields, SortedMap.ofList_entries]

mutual

/-- How many containers are nested in a value, the value itself included. -/
def depth : Value → Nat
  | .array items => depthItems items + 1
  | .object fields => depthFields fields + 1
  | _ => 0

/-- The greatest depth of the values in a list. -/
def depthItems : List Value → Nat
  | [] => 0
  | v :: vs => max (depth v) (depthItems vs)

/-- The greatest depth of the values in a list of fields. -/
def depthFields : List (String × Value) → Nat
  | [] => 0
  | (_, v) :: fs => max (depth v) (depthFields fs)

end

end Value

end RecordTree
