import RecordTree.Definition
import RecordTree.Value

/-!
# Localized columns

A localized column is stored as a mapping from locales to values, and a reader sees only the value
under the locale that the definition declares. `Projection.view` takes the stored fields to what is
seen; `Projection.stored` takes what a writer gives to the fields to store, keeping the values under
other locales that were stored before.
-/

namespace RecordTree

/-- The localized columns of a collection with their locales. A column that is listed twice is governed
by the last of its pairs. -/
structure Projection where
  columns : List (String × String)
  deriving DecidableEq, Repr

namespace Projection

/-- The projection that a collection declares. -/
def ofCollection (c : Collection) : Projection := ⟨c.localized⟩

/-- Whether no column is localized. -/
def isIdentity (p : Projection) : Bool := p.columns.isEmpty

/-- What is seen of one column: the value under its locale. A stored value that is not a mapping is seen
as it is. -/
def viewColumn (raw : Fields) (out : Fields) (column : String × String) : Fields :=
  match (raw.get? column.1).bind Value.fields? with
  | some variants =>
    match variants.get? column.2 with
    | some value => out.insert column.1 value
    | none => out.erase column.1
  | none => out

/-- What is seen of stored fields. -/
def view (p : Projection) (raw : Fields) : Fields :=
  p.columns.foldl (viewColumn raw) raw

/-- The values of a column under all locales. -/
def variants (existing : Option Fields) (column : String) : Fields :=
  ((existing.bind (·.get? column)).bind Value.fields?).getD .empty

/-- Stores one column: its value goes under its locale, or is taken away from there. A column without any
value is left out. -/
def storeColumn (incoming : Fields) (existing : Option Fields) (out : Fields)
    (column : String × String) : Fields :=
  let before := variants existing column.1
  let after :=
    match incoming.get? column.1 with
    | some value => before.insert column.2 value
    | none => before.erase column.2
  if after.isEmpty then out.erase column.1 else out.insert column.1 (.ofFields after)

/-- The fields to store for incoming ones, given those that were stored before. -/
def stored (p : Projection) (incoming : Fields) (existing : Option Fields) : Fields :=
  p.columns.foldl (storeColumn incoming existing) incoming

end Projection

end RecordTree
