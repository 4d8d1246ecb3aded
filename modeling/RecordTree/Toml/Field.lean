import RecordTree.Toml.Value

/-!
# Fields of TOML tables

How the readers of configurations look for what they know in a table: under a name stands a value of the
right kind, or nothing where nothing has to stand.
-/

namespace RecordTree.Toml

/-- A string. -/
def Value.string? : Value → Option String
  | .string s => some s
  | _ => none

/-- The entries of a table. -/
def Value.table? : Value → Option Table
  | .table _ t => some t
  | _ => none

namespace Table

/-- Reads the value under a name, or takes another one if there is none. -/
def field {α : Type} (t : Table) (name : String) (missing : α) (read : Value → Option α) : Option α :=
  match Entries.find? name t with
  | some v => read v
  | none => some missing

/-- Reads the value under a name that must be there. -/
def required {α : Type} (t : Table) (name : String) (read : Value → Option α) : Option α :=
  (Entries.find? name t).bind read

/-- Reads the value under a name that need not be there. -/
def optional {α : Type} (t : Table) (name : String) (read : Value → Option α) : Option (Option α) :=
  t.field name none fun v => (read v).map some

end Table

end RecordTree.Toml
