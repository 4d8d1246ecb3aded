import RecordTree.SortedMap
import RecordTree.Store.Change
import RecordTree.Store.Request

/-!
# The store in memory

A store that keeps its files in a map from canonical paths to contents. Faults can be put in front of
its requests: each of the next ones is answered with a fault and does nothing else.
-/

namespace RecordTree

/-- A store in memory. -/
structure MemoryStore where
  /-- The files by their canonical paths. -/
  files : SortedMap ByteArray
  /-- The changes, the oldest first. -/
  history : List Change
  /-- The errors with which the next requests are answered. -/
  faults : List StoreError

namespace MemoryStore

/-- The store without files. -/
def empty : MemoryStore := ⟨.empty, [], []⟩

/-- Puts a file into the store without a change being remembered. A path that leaves the store is
ignored. -/
def seed (s : MemoryStore) (path : String) (content : ByteArray) : MemoryStore :=
  match Path.normalize? path with
  | some q => { s with files := s.files.insert q content }
  | none => s

/-- The content of a file, at a path in any form. -/
def file? (s : MemoryStore) (path : String) : Option ByteArray :=
  (Path.normalize? path).bind s.files.get?

/-- Lets the next request that has no fault before it yet fail. -/
def failNext (s : MemoryStore) (e : StoreError) : MemoryStore := { s with faults := s.faults ++ [e] }

/-- The revision of a file. -/
def revision? (s : MemoryStore) (path : String) : Option Revision :=
  (s.files.get? path).map .ofContent

/-! ### Directories -/

/-- What stands before the names in a directory. -/
def childPrefix (dir : String) : String := if dir = "." then "" else dir ++ "/"

/-- The entry through which one sees a file from a directory: the file itself, or the directory in
which it is. -/
def entryOf (pre : String) (rest : List Char) : DirEntry :=
  let name := String.ofList (rest.takeWhile (· ≠ '/'))
  ⟨name, pre ++ name, if '/' ∈ rest then .dir else .file⟩

/-- Puts an entry in its place by name, files before directories, unless it is there. -/
def addEntry (e : DirEntry) : List DirEntry → List DirEntry
  | [] => [e]
  | e' :: es =>
    if e = e' then e' :: es
    else if e.name < e'.name ∨ e.name = e'.name ∧ e.kind = .file then e :: e' :: es
    else e' :: addEntry e es

/-- What is left of a text behind a prefix. -/
def behind? : List Char → List Char → Option (List Char)
  | [], cs => some cs
  | p :: ps, c :: cs => if p = c then behind? ps cs else none
  | _ :: _, [] => none

/-- The entries of the directory whose names stand behind a prefix. -/
def entries (s : MemoryStore) (pre : String) : List DirEntry :=
  s.files.entries.foldr (fun (path, _) out =>
    match behind? pre.toList path.toList with
    | some rest => addEntry (entryOf pre rest) out
    | none => out) []

/-! ### Requests -/

/-- The file at a path in any form, as it is read. -/
def snapshot (s : MemoryStore) (path : String) : Except StoreError (Option Snapshot) := do
  return (s.files.get? (← storePath path)).map .ofContent

/-- Fulfils a request in a store without faults. -/
def fulfil : FileStore MemoryStore
  | .peek path, s => (peeked (s.snapshot path), s)
  | .read path, s => (s.snapshot path, s)
  | .write path message content expected, s =>
    match storePath path with
    | .error e => (.error e, s)
    | .ok q =>
      match checkWrite q (s.revision? q) expected with
      | .error e => (.error e, s)
      | .ok () =>
        let revision := Revision.ofContent content
        (.ok revision,
          { s with
            files := s.files.insert q content
            history := s.history ++ [⟨q, message, .write, revision⟩] })
  | .delete path message expected, s =>
    match storePath path with
    | .error e => (.error e, s)
    | .ok q =>
      match checkDelete q (s.revision? q) expected with
      | .error e => (.error e, s)
      | .ok () =>
        (.ok (),
          { s with
            files := s.files.erase q
            history := s.history ++ [⟨q, message, .delete, expected⟩] })
  | .list path, s =>
    match storePath path with
    | .error e => (.error e, s)
    | .ok dir =>
      let found := s.entries (childPrefix dir)
      if found.isEmpty ∧ dir ≠ "." then (.error (.notFound dir), s) else (.ok found, s)

/-- Answers a request: with the first fault, if there is one. -/
def call : FileStore MemoryStore := fun r s =>
  match s.faults with
  | e :: rest => (.error e, { s with faults := rest })
  | [] => fulfil r s

end MemoryStore

end RecordTree
