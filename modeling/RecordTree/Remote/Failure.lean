import RecordTree.Store.Error
import RecordTree.Text.Blank

/-!
# Failures of a remote store

What went wrong with a request to a remote store is known from the status of its answer and from what
the answer says about limits. `RemoteFailure.classify` turns it into a store error.
-/

namespace RecordTree

/-- What is known about a request that failed. -/
structure RemoteFailure where
  /-- The status of the answer, unless none came. -/
  status : Option Nat
  message : String
  /-- How many requests the answer says are left. -/
  remaining : Option Nat
  /-- After how many seconds the answer says to try again. -/
  retryAfter : Option Nat
  deriving DecidableEq, Repr

namespace RemoteFailure

/-- Whether a text holds another one. -/
def mentions (part : List Char) : List Char → Bool
  | [] => part.isEmpty
  | c :: cs => part.isPrefixOf (c :: cs) || mentions part cs

/-- Whether the answer speaks of requests that came too fast. -/
def isSecondary (f : RemoteFailure) : Bool :=
  f.retryAfter.isSome ||
    mentions "secondary rate limit".toList (Text.lowerAscii f.message).toList

/-- The store error for a failure that an answer reports. -/
def ofStatus (path : String) (f : RemoteFailure) (status : Nat) : StoreError :=
  if status = 404 then .notFound path
  else if (status = 403 ∨ status = 429) ∧ f.remaining = some 0 then
    .rateLimited path .primary f.retryAfter
  else if (status = 403 ∨ status = 429) ∧ f.isSecondary then
    .rateLimited path .secondary f.retryAfter
  else if status = 429 then .rateLimited path .secondary none
  else if status = 401 ∨ status = 403 then .forbidden path f.message
  else if status = 409 ∨ status = 412 ∨ status = 422 then .conflict path f.message
  else .api path status f.message

/-- The store error for a failure. -/
def classify (path : String) (f : RemoteFailure) : StoreError :=
  match f.status with
  | none => .transport path f.message
  | some status => f.ofStatus path status

end RemoteFailure

end RecordTree
