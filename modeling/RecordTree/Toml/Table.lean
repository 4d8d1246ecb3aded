import RecordTree.Toml.Value

/-!
# Building TOML tables

A table grows by entries under dotted keys and by headers. The tables on the way are made if they are
not there. What is written down once is not written again: a table with a header, a table written as a
value and a table that dotted keys have made are each added to only in their own way.
-/

namespace RecordTree.Toml

namespace Table

/-- Changes the table at the end of a path. A dotted path makes dotted tables and does not pass through a
table that has a header. -/
def descend (isDotted : Bool) (change : Origin → Table → Option Table) :
    List String → Origin → Table → Option Table
  | [], origin, t => change origin t
  | key :: path, _, t =>
    let put (v : Value) : Table := Entries.insert key v t
    match Entries.find? key t with
    | none =>
      let origin := if isDotted then .dotted else .implied
      (descend isDotted change path origin []).map fun inner => put (.table origin inner)
    | some (.table origin inner) =>
      if origin = .closed ∨ (isDotted ∧ origin = .header) then none
      else (descend isDotted change path origin inner).map fun inner => put (.table origin inner)
    | some (.tables elements) =>
      match elements.getLast? with
      | some last =>
        (descend isDotted change path .header last).map fun last =>
          put (.tables (elements.dropLast ++ [last]))
      | none => none
    | some _ => none

/-- Puts a value under a key that has none. -/
def define (key : String) (v : Value) (t : Table) : Option Table :=
  match Entries.find? key t with
  | none => some (Entries.insert key v t)
  | some _ => none

/-- Puts a value under a dotted key. The table in which it ends is a dotted one exactly if the key has
more than one part. -/
def assign (path : List String) (key : String) (v : Value) (t : Table) : Option Table :=
  descend true (fun origin t =>
    if path.isEmpty ∨ origin = .dotted then define key v t else none) path .header t

/-- Gives a table a header. -/
def openTable (key : String) (t : Table) : Option Table :=
  match Entries.find? key t with
  | none => some (Entries.insert key (.table .header []) t)
  | some (.table .implied inner) => some (Entries.insert key (.table .header inner) t)
  | some _ => none

/-- Adds a table to those with the same header. -/
def openElement (key : String) (t : Table) : Option Table :=
  match Entries.find? key t with
  | none => some (Entries.insert key (.tables [[]]) t)
  | some (.tables elements) => some (Entries.insert key (.tables (elements ++ [[]])) t)
  | some _ => none

end Table

end RecordTree.Toml
