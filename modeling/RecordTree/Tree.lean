import RecordTree.SortedMap

/-!
# Directory trees

A tree is a file or a directory, whose entries stand in the order of their names. A place in a tree is
the list of names on the way down to it. `Tree.find` looks at a place and says why nothing is there:
an entry is missing, or the place can hold nothing.
-/

namespace RecordTree

/-- A file with its content, or a directory with its entries. -/
inductive Tree where
  | file (content : ByteArray)
  | dir (entries : List (String × Tree))
  deriving Inhabited

/-- Why nothing is found at a place. -/
inductive Absence where
  /-- A directory on the way has no entry with the name. -/
  | missing
  /-- The place is below a file, or a name on the way is none that an entry can have. -/
  | refused
  deriving DecidableEq, Repr

namespace Tree

/-- The directory without entries. -/
def empty : Tree := .dir []

/-- The greatest length of a name in bytes. -/
def nameLimit : Nat := 255

/-- Whether an entry can have the name. -/
def isName (name : String) : Bool := name.utf8ByteSize ≤ nameLimit

/-- Whether a tree is a directory. -/
def isDir : Tree → Bool
  | .dir _ => true
  | .file _ => false

/-- What is at a place. -/
def find : Tree → List String → Except Absence Tree
  | t, [] => .ok t
  | .file _, _ :: _ => .error .refused
  | .dir entries, name :: place =>
    if !isName name then .error .refused
    else
      match Entries.find? name entries with
      | some t => t.find place
      | none => .error .missing

/-- The content of the file at a place. -/
def file? (t : Tree) (place : List String) : Option ByteArray :=
  match t.find place with
  | .ok (.file content) => some content
  | _ => none

/-- Makes the directories on the way to a place, and says whether there is a directory in the end. What
could be made stays. -/
def makeDirs : Tree → List String → Bool × Tree
  | t, [] => (t.isDir, t)
  | .file content, _ :: _ => (false, .file content)
  | .dir entries, name :: place =>
    if !isName name then (false, .dir entries)
    else
      let (made, t) := ((Entries.find? name entries).getD empty).makeDirs place
      (made, .dir (Entries.insert name t entries))

/-- Puts a file at a place whose directory is there. A directory is not replaced. -/
def putFile (content : ByteArray) : Tree → List String → Option Tree
  | .dir entries, [name] =>
    if isName name ∧ !((Entries.find? name entries).any isDir) then
      some (.dir (Entries.insert name (.file content) entries))
    else none
  | .dir entries, name :: place =>
    match Entries.find? name entries with
    | some t => (t.putFile content place).map fun t => .dir (Entries.insert name t entries)
    | none => none
  | _, _ => none

/-- Removes the entry at a place. -/
def remove : Tree → List String → Tree
  | .dir entries, [name] => .dir (Entries.erase name entries)
  | .dir entries, name :: place =>
    match Entries.find? name entries with
    | some t => .dir (Entries.insert name (t.remove place) entries)
    | none => .dir entries
  | t, _ => t

/-- Puts a tree in the place of what is there. -/
def replace : Tree → List String → Tree → Tree
  | _, [], new => new
  | .dir entries, name :: place, new =>
    match Entries.find? name entries with
    | some t => .dir (Entries.insert name (t.replace place new) entries)
    | none => .dir entries
  | .file content, _ :: _, _ => .file content

/-- Puts a file at a place, with the directories above it. -/
def plant (t : Tree) (place : List String) (content : ByteArray) : Tree :=
  let (_, t) := t.makeDirs place.dropLast
  (t.putFile content place).getD t

mutual

/-- All files of a tree with their places below the given one. -/
def filesBelow (above : List String) : Tree → List (List String × ByteArray)
  | .file content => [(above, content)]
  | .dir entries => filesOf above entries

/-- All files of the entries of a directory. -/
def filesOf (above : List String) : List (String × Tree) → List (List String × ByteArray)
  | [] => []
  | (name, t) :: entries => filesBelow (above ++ [name]) t ++ filesOf above entries

end

/-- All files of a tree with their places. -/
def files (t : Tree) : List (List String × ByteArray) := filesBelow [] t

end Tree

end RecordTree
