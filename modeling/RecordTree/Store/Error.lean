import RecordTree.Revision
import RecordTree.Text.Quoted

/-!
# Store errors

What a file store can answer instead of what it was asked for. Each error names its cause; the wording
is `StoreError.message` alone.
-/

namespace RecordTree

/-- Which of a remote store's rate limits was hit. -/
inductive RateLimit where
  /-- The budget of requests is used up. -/
  | primary
  /-- Requests came too fast. -/
  | secondary
  deriving DecidableEq, Repr

/-- The name of a rate limit. -/
def RateLimit.name : RateLimit → String
  | primary => "primary"
  | secondary => "secondary"

/-- What a file store can answer instead of what it was asked for. -/
inductive StoreError where
  /-- There is no such file or directory. -/
  | notFound (path : String)
  /-- A file was to be created and is there. -/
  | alreadyExists (path : String)
  /-- A file is not the one that the caller has seen. -/
  | revisionMismatch (path : String) (expected actual : Revision)
  /-- A remote store refused a change that does not fit its state. -/
  | conflict (path detail : String)
  /-- A remote store takes no request for now. -/
  | rateLimited (path : String) (limit : RateLimit) (retryAfter : Option Nat)
  /-- A remote store did not let the caller in. -/
  | forbidden (path detail : String)
  /-- A remote store answered with some other failure. -/
  | api (path : String) (status : Nat) (detail : String)
  /-- A remote store did not answer. -/
  | transport (path detail : String)
  /-- The store takes no such path. -/
  | invalidPath (path reason : String)
  /-- The file system refused. -/
  | io (path : String)
  /-- A remote store is not configured. -/
  | config (detail : String)
  /-- The store itself is broken. -/
  | internal (detail : String)
  deriving DecidableEq, Repr

namespace StoreError

/-- The text that stands for what a file system has to say. -/
def systemText : String := "<os>"

/-- The message of an error. -/
def message : StoreError → String
  | notFound path => "file not found: " ++ path
  | alreadyExists path => "file already exists: " ++ path
  | revisionMismatch path expected actual =>
    "revision mismatch for " ++ path ++ ": expected " ++ expected.text ++ ", found " ++ actual.text
  | conflict path detail => "write conflict at " ++ path ++ ": " ++ detail
  | rateLimited path limit _ => limit.name ++ " rate limit exceeded at " ++ path
  | forbidden path detail => "access forbidden at " ++ path ++ ": " ++ detail
  | api path status detail =>
    "remote API error at " ++ path ++ ": status " ++ toString status ++ ": " ++ detail
  | transport path detail => "transport failure at " ++ path ++ ": " ++ detail
  | invalidPath path reason => "invalid path " ++ Text.quote path ++ ": " ++ reason
  | io path => "I/O error at " ++ path ++ ": " ++ systemText
  | config detail => "invalid remote configuration: " ++ detail
  | internal detail => "internal store error: " ++ detail

/-- Whether the error says that nothing is there. -/
def isNotFound : StoreError → Bool
  | notFound _ => true
  | _ => false

/-- Whether the error says that the file is not in the state that the caller expects. -/
def isConflict : StoreError → Bool
  | alreadyExists _ => true
  | revisionMismatch _ _ _ => true
  | conflict _ _ => true
  | _ => false

/-- The path that the error is about. -/
def path? : StoreError → Option String
  | notFound path => some path
  | alreadyExists path => some path
  | revisionMismatch path _ _ => some path
  | conflict path _ => some path
  | rateLimited path _ _ => some path
  | forbidden path _ => some path
  | api path _ _ => some path
  | transport path _ => some path
  | invalidPath path _ => some path
  | io path => some path
  | config _ => none
  | internal _ => none

end StoreError

end RecordTree
