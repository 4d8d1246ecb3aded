import RecordTree.Store.Log
import RecordTree.Store.Request
import RecordTree.SystemPath
import RecordTree.Tree

/-!
# The store in a directory

A store that keeps its files in a directory of the file system, and its change log in the directory
`.filedb` there, which no request can reach. Each change is logged after it is made.

A file is written in one step: its content is drafted beside it, and the draft is moved into its place.
The draft has no counterpart here. It is assumed that one can be made and filled in every directory that
is there. Where it cannot, because its path is too long or the disk is full, a write fails with the file
system's error at that directory or at the file, and touches neither the file nor the log. It is assumed
as well that nothing in the directory is a link or closed to the store, and that nobody else changes it
while a request is answered.
-/

namespace RecordTree

/-- A store in a directory. -/
structure DirectoryStore where
  /-- The path by which the operating system knows the directory. -/
  root : String
  /-- What the directory holds. -/
  tree : Tree

namespace DirectoryStore

/-- The name of the directory that the store keeps for itself. -/
def metaName : String := ".filedb"

/-- The name of the log there. -/
def logName : String := "history.log"

/-- The path of the log. -/
def logPath : String := metaName ++ "/" ++ logName

/-- The place of the log. -/
def logPlace : List String := [metaName, logName]

/-- Opens the store in what is found at a path of the operating system. -/
def ofFound (root : String) (found : Except Absence Tree) : Except StoreError DirectoryStore :=
  match found with
  | .ok (.dir entries) => .ok ⟨root, .dir entries⟩
  | .ok (.file _) => .error (.invalidPath root "store root is not a directory")
  | .error _ => .error (.io root)

/-! ### Paths -/

/-- The names on the way to a canonical path. -/
def place (path : String) : List String :=
  if path = "." then [] else (Path.split path.toList).map String.ofList

/-- The path by which the operating system knows a canonical path. -/
def systemPath (s : DirectoryStore) (path : String) : String :=
  if path = "." then s.root else SystemPath.join s.root path

/-- The canonical path of the directory that holds a file. -/
def parentPath (path : String) : String :=
  let parts := (Path.split path.toList).dropLast
  if parts.isEmpty then "." else String.ofList (Path.joinAll parts)

/-- The file system's error at a canonical path. -/
def ioError (s : DirectoryStore) (path : String) : StoreError := .io (s.systemPath path)

/-- The canonical form of a path, which must not reach what the store keeps for itself. -/
def resolve (path : String) : Except StoreError String := do
  let q ← storePath path
  if q = metaName ∨ (metaName ++ "/").toList.isPrefixOf q.toList then
    .error (.invalidPath path (metaName ++ " is reserved"))
  else .ok q

/-- The greatest length of a system path in bytes. -/
def pathLimit : Nat := 4095

/-- Whether the operating system takes a path at all. -/
def isSystemPath (path : String) : Bool := !path.toList.contains '\x00' && path.utf8ByteSize ≤ pathLimit

/-- What is at a canonical path. -/
def find (s : DirectoryStore) (path : String) : Except Absence Tree :=
  if isSystemPath (s.systemPath path) then s.tree.find (place path) else .error .refused

/-! ### Files -/

/-- The content of the file at a canonical path. A missing entry means that there is no file, and
anything else in its place is an error. -/
def current (s : DirectoryStore) (path : String) : Except StoreError (Option ByteArray) :=
  match s.find path with
  | .ok (.file content) => .ok (some content)
  | .error .missing => .ok none
  | _ => .error (s.ioError path)

/-- Adds an entry to the log, and makes the log if need be. -/
def log (s : DirectoryStore) (e : LogEntry) : Except StoreError Unit × DirectoryStore :=
  if !isSystemPath (s.systemPath metaName) then (.error (s.ioError metaName), s)
  else
    let (made, tree) := s.tree.makeDirs [metaName]
    let s := { s with tree }
    if !made then (.error (s.ioError metaName), s)
    else
      match s.current logPath with
      | .error e => (.error e, s)
      | .ok before =>
        match tree.putFile (before.getD .empty ++ e.line.toUTF8) logPlace with
        | some tree => (.ok (), { s with tree })
        | none => (.error (s.ioError logPath), s)

/-- Writes a file: makes the directories above it, puts the content in its place in one step, and logs
the change. -/
def write (now : Instant) (s : DirectoryStore) (q message : String) (content : ByteArray)
    (expected : Revision) : Except StoreError Revision × DirectoryStore :=
  match s.current q with
  | .error e => (.error e, s)
  | .ok before =>
    match checkWrite q (before.map .ofContent) expected with
    | .error e => (.error e, s)
    | .ok () =>
      let (made, tree) := s.tree.makeDirs (place (parentPath q))
      let s := { s with tree }
      if !made then (.error (s.ioError (parentPath q)), s)
      else
        match tree.putFile content (place q) with
        | none => (.error (s.ioError q), s)
        | some tree =>
          let revision := Revision.ofContent content
          let (logged, s) := { s with tree }.log ⟨⟨q, message, .write, revision⟩, now⟩
          (logged.map fun () => revision, s)

/-- Removes a file and logs the change. -/
def delete (now : Instant) (s : DirectoryStore) (q message : String) (expected : Revision) :
    Except StoreError Unit × DirectoryStore :=
  match s.current q with
  | .error e => (.error e, s)
  | .ok before =>
    match checkDelete q (before.map .ofContent) expected with
    | .error e => (.error e, s)
    | .ok () =>
      { s with tree := s.tree.remove (place q) }.log ⟨⟨q, message, .delete, expected⟩, now⟩

/-- The entries of a directory, without what the store keeps for itself. -/
def entries (s : DirectoryStore) (q : String) : Except StoreError (List DirEntry) :=
  match s.find q with
  | .ok (.dir children) =>
    let pre := if q = "." then "" else q ++ "/"
    .ok ((children.filter fun (name, _) => !(q = "." ∧ name = metaName)).map fun (name, t) =>
      ⟨name, pre ++ name, if t.isDir then .dir else .file⟩)
  | _ => .error (.notFound q)

/-! ### Requests -/

/-- The file at a path in any form, as it is read. -/
def snapshot (s : DirectoryStore) (path : String) : Except StoreError (Option Snapshot) := do
  return (← s.current (← resolve path)).map .ofContent

/-- Answers a request at the given time. -/
def call (now : Instant) : FileStore DirectoryStore
  | .peek path, s => (peeked (s.snapshot path), s)
  | .read path, s => (s.snapshot path, s)
  | .write path message content expected, s =>
    match resolve path with
    | .error e => (.error e, s)
    | .ok q => s.write now q message content expected
  | .delete path message expected, s =>
    match resolve path with
    | .error e => (.error e, s)
    | .ok q => s.delete now q message expected
  | .list path, s => (do s.entries (← resolve path), s)

/-- The changes in the log, the oldest first. -/
def history (s : DirectoryStore) : Except StoreError (List LogEntry) :=
  match s.find logPath with
  | .error .missing => .ok []
  | .ok (.file content) =>
    match String.fromUTF8? content with
    | none => .error (s.ioError logPath)
    | some text =>
      match Log.read? text with
      | some entries => .ok entries
      | none => .error (.internal "corrupt history entry: <parser>")
  | _ => .error (s.ioError logPath)

end DirectoryStore

end RecordTree
