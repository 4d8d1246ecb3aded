import RecordTree.Definition
import RecordTree.Toml.Document
import RecordTree.Toml.Field

/-!
# Definitions in TOML

A definition is a table, and every name in it is a string. A table with known fields may also be written
as an array of their values in a fixed order, and a time counts as such a table without any of them.
-/

namespace RecordTree.Definition.OfToml

open Toml

/-- The fields with the given names. -/
def fields? (names : List String) : Toml.Value → Option Table
  | .table _ t => some t
  | .array items => some (names.zip items)
  | .tables elements => some (names.zip (elements.map (Toml.Value.table .header)))
  | .time => some []
  | _ => none

/-- A choice by name: a string, or a table whose one key is the name, with nothing under it. -/
def choice {α : Type} (ofName? : String → Option α) : Toml.Value → Option α
  | .string s => ofName? s
  | .table _ [(name, .table _ [])] => ofName? name
  | _ => none

/-- A map from names. -/
def map {α : Type} (read : Toml.Value → Option α) (v : Toml.Value) : Option (SortedMap α) := do
  return .ofList (← (← v.table?).mapM fun e => (read e.2).map fun a => (e.1, a))

/-- The files of a collection. -/
def recordFile (v : Toml.Value) : Option RecordFile := do
  let t ← fields? ["name", "format", "type"] v
  return {
    name := ← t.required "name" Value.string?
    format := ← t.required "format" Value.string?
    type := ← t.required "type" (choice RecordType.ofName?) }

/-- A column. -/
def column (v : Toml.Value) : Option Column := do
  let t ← fields? ["type", "locale"] v
  return {
    type := ← t.field "type" .any (choice ColumnType.ofName?)
    locale := ← t.optional "locale" Value.string? }

/-- A collection, its id not filled in. -/
def collection (v : Toml.Value) : Option Collection := do
  let t ← fields? ["id", "dir_path", "record_file", "columns"] v
  return {
    id := ← t.field "id" "" Value.string?
    dir := ← t.field "dir_path" "" Value.string?
    recordFile := ← t.optional "record_file" recordFile
    columns := ← t.field "columns" .empty (map column) }

/-- A definition before it is checked. -/
def definition (t : Table) : Option Definition := do
  return ⟨← t.field "collections" .empty (map collection)⟩

end OfToml

/-- The definition that a TOML text describes. -/
def ofToml (text : String) : Except DefinitionError Definition :=
  match (Toml.read? text).bind OfToml.definition with
  | some definition => definition.normalize
  | none => .error .unreadable

end RecordTree.Definition
