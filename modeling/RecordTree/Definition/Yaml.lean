import RecordTree.Definition
import RecordTree.Yaml.Document

/-!
# Definitions in YAML

A definition is read off the nodes of a document, not off its value: every scalar has a text that can
serve as a name, whatever it would stand for as a value. A field that is not known says nothing, and one
that is known stands at most once.
-/

namespace RecordTree.Definition.OfYaml

open Yaml

/-- A node of a document. -/
abbrev Part := Node Nat

/-- A row of fields by their names. -/
abbrev Parts := List (String × Part)

/-- The entries of a mapping. An empty place counts as a mapping without entries. -/
def entries (d : Document) (n : Part) : Document.Read Parts := do
  match ← d.follow n with
  | .mapping _ es => es.mapM fun e => do return (← d.key e.1, e.2)
  | .scalar _ .plain [] => pure []
  | _ => failure

/-- The part under a name. -/
def field? (name : String) (parts : Parts) : Document.Read (Option Part) :=
  match parts.filter (·.1 = name) with
  | [] => pure none
  | [(_, part)] => pure (some part)
  | _ => failure

/-- Reads the part under a name, or takes the value for a part that is not there. -/
def field {α : Type} (name : String) (parts : Parts) (missing : α)
    (read : Part → Document.Read α) : Document.Read α := do
  match ← field? name parts with
  | some part => read part
  | none => pure missing

/-- Reads the part under a name that must be there. -/
def required {α : Type} (name : String) (parts : Parts) (read : Part → Document.Read α) :
    Document.Read α := do
  match ← field? name parts with
  | some part => read part
  | none => failure

/-- Reads a part unless it says that there is nothing. -/
def optional {α : Type} (d : Document) (read : Part → Document.Read α) (n : Part) :
    Document.Read (Option α) := do
  let n ← d.follow n
  match n with
  | .scalar props .plain text =>
    match props.tag with
    | none => if text.isEmpty || isNullName text then pure none else some <$> read n
    | some tag =>
      if tag = coreTag "null" then if isNullName text then pure none else failure
      else some <$> read n
  | _ => some <$> read n

/-- A choice by name: the text of a scalar, or a tag of the application with nothing behind it. -/
def choice {α : Type} (d : Document) (ofName? : String → Option α) (n : Part) : Document.Read α := do
  match ← d.follow n with
  | .scalar props style text =>
    match props.tag.bind localTag? with
    | none => StateT.lift (ofName? (String.ofList text))
    | some name =>
      if style = .plain ∧ (text.isEmpty ∨ isNullName text) then StateT.lift (ofName? name)
      else failure
  | _ => failure

/-- A map from names. A name that stands twice has its last part. -/
def map {α : Type} (d : Document) (read : Part → Document.Read α) (n : Part) :
    Document.Read (SortedMap α) := do
  return .ofList (← (← entries d n).mapM fun e => do return (e.1, ← read e.2))

/-- The files of a collection. -/
def recordFile (d : Document) (n : Part) : Document.Read RecordFile := do
  let parts ← entries d n
  return {
    name := ← required "name" parts d.key
    format := ← required "format" parts d.key
    type := ← required "type" parts (choice d RecordType.ofName?) }

/-- A column. -/
def column (d : Document) (n : Part) : Document.Read Column := do
  let parts ← entries d n
  return {
    type := ← field "type" parts .any (choice d ColumnType.ofName?)
    locale := ← field "locale" parts none (optional d d.key) }

/-- A collection, its id not filled in. -/
def collection (d : Document) (n : Part) : Document.Read Collection := do
  let parts ← entries d n
  return {
    id := ← field "id" parts "" d.key
    dir := ← field "dir_path" parts "" d.key
    recordFile := ← field "record_file" parts none (optional d (recordFile d))
    columns := ← field "columns" parts .empty (map d (column d)) }

/-- A definition before it is checked. -/
def definition (d : Document) : Document.Read Definition := do
  let parts ← entries d d.root
  return ⟨← field "collections" parts .empty (map d (collection d))⟩

end OfYaml

/-- The definition that a YAML text describes. A text without a document has no collections. -/
def ofYaml (text : String) : Except DefinitionError Definition := do
  match Yaml.Document.parse? text with
  | none => .error .unreadable
  | some none => .ok .empty
  | some (some d) =>
    match (OfYaml.definition d).run' 0 with
    | some definition => definition.normalize
    | none => .error .unreadable

end RecordTree.Definition
