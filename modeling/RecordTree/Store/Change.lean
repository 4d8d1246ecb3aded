import RecordTree.Revision

/-!
# Changes

A store remembers each change that it made: to which file, with which description, and which content
came or went.
-/

namespace RecordTree

/-- What a change did to its file. -/
inductive ChangeKind where
  | write
  | delete
  deriving DecidableEq, Repr

namespace ChangeKind

/-- The name of a kind. -/
def name : ChangeKind → String
  | write => "write"
  | delete => "delete"

/-- The kind with a name. -/
def ofName? (s : String) : Option ChangeKind :=
  if s = "write" then some write else if s = "delete" then some delete else none

theorem ofName?_name (k : ChangeKind) : ofName? k.name = some k := by
  cases k <;> decide

end ChangeKind

/-- A change to a file. -/
structure Change where
  path : String
  /-- What the writer says about the change. -/
  message : String
  kind : ChangeKind
  /-- The revision of the content that was written, or of the one that was removed. -/
  revision : Revision
  deriving DecidableEq, Repr

end RecordTree
