import RecordTree.Path
import RecordTree.Store.Error

/-!
# Requests to a file store

The five things that a file store can be asked for, what it answers, and the two rules by which every
store that keeps revisions decides about a change: a file is created only where there is none, and it
is replaced or removed only by one who has seen its content. A reader who is not going to change the
file peeks at it, and is not told the revision.
-/

namespace RecordTree

/-- A file as it was read: its content and the revision of it. -/
structure Snapshot where
  content : ByteArray
  revision : Revision

/-- The snapshot of a content. -/
def Snapshot.ofContent (content : ByteArray) : Snapshot := ⟨content, .ofContent content⟩

/-- What an entry of a directory is. -/
inductive EntryKind where
  | file
  | dir
  deriving DecidableEq, Repr

/-- The name of a kind. -/
def EntryKind.name : EntryKind → String
  | file => "file"
  | dir => "dir"

/-- An entry of a directory. -/
structure DirEntry where
  name : String
  /-- The entry's path in the store. -/
  path : String
  kind : EntryKind
  deriving DecidableEq, Repr

/-- A request to a file store. -/
inductive Request where
  | peek (path : String)
  | read (path : String)
  | write (path message : String) (content : ByteArray) (expected : Revision)
  | delete (path message : String) (expected : Revision)
  | list (path : String)

namespace Request

/-- The path that a request is about. -/
def path : Request → String
  | peek path => path
  | read path => path
  | write path _ _ _ => path
  | delete path _ _ => path
  | list path => path

/-- What a store answers to a request that it fulfils. -/
def Answer : Request → Type
  /- What the file holds, if there is one. -/
  | peek _ => Option ByteArray
  /- The same with its revision. -/
  | read _ => Option Snapshot
  /- The revision of the content that was written. -/
  | write _ _ _ _ => Revision
  | delete _ _ _ => Unit
  | list _ => List DirEntry

end Request

/-- A store over states of some type: what it answers to a request, and the state that it is left in. -/
abbrev FileStore (σ : Type) := (r : Request) → σ → Except StoreError r.Answer × σ

/-- The answer to a peek by a store that would give this one to a read: the revision is dropped. -/
def peeked : Except StoreError (Option Snapshot) → Except StoreError (Option ByteArray) :=
  Except.map (Option.map Snapshot.content)

/-! ### Paths and revisions -/

/-- The canonical form of a path, which must not leave the store. -/
def storePath (path : String) : Except StoreError String :=
  match Path.normalize? path with
  | some q => .ok q
  | none => .error (.invalidPath path "escapes the store root")

/-- Whether a file has the revision that the caller expects. -/
def checkSame (path : String) (actual expected : Revision) : Except StoreError Unit :=
  if actual = expected then .ok () else .error (.revisionMismatch path expected actual)

/-- Whether a file may be written by one who expects the given revision. -/
def checkWrite (path : String) (current : Option Revision) (expected : Revision) :
    Except StoreError Unit :=
  match current, expected.isNone with
  | none, true => .ok ()
  | some _, true => .error (.alreadyExists path)
  | none, false => .error (.notFound path)
  | some actual, false => checkSame path actual expected

/-- Whether a file may be removed by one who expects the given revision. -/
def checkDelete (path : String) (current : Option Revision) (expected : Revision) :
    Except StoreError Unit :=
  match current with
  | none => .error (.notFound path)
  | some actual => checkSame path actual expected

end RecordTree
