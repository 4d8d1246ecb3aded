import RecordTree.Store.Memory
import Mathlib.Tactic.Common

/-!
# The store in memory

What requests to a store in memory come to when no fault is in front of them. No content has the empty
revision (`Revision.isNone_ofContent`), so a writer that names the revision of a content never creates a
file, and whoever has read a file may change it as long as it stays as it was (`checkWrite_current`,
`checkDelete_current`).
-/

namespace RecordTree

/-! ### Revisions -/

theorem Blake3.digest_ne_nil (input : ByteArray) : Blake3.digest input ≠ [] := by
  have length : ((Blake3.tree input 0 input.size).compress Blake3.root).toList.length = 8 :=
    Vector.length_toList
  intro h
  rw [Blake3.digest, List.flatMap_eq_nil_iff] at h
  cases words : ((Blake3.tree input 0 input.size).compress Blake3.root).toList with
  | nil => simp [words] at length
  | cons w ws => simpa using h w (by simp [words])

/-- The revision of a content never stands for "no file". -/
@[simp] theorem Revision.isNone_ofContent (content : ByteArray) :
    (Revision.ofContent content).isNone = false := by
  obtain ⟨byte, bytes, h⟩ := List.exists_cons_of_ne_nil (Blake3.digest_ne_nil (Revision.seed ++ content))
  simp [Revision.isNone, Revision.ofContent, h, Revision.hexByte]

@[simp] theorem Revision.isNone_none : Revision.none.isNone = true := rfl

/-! ### Requests -/

/-- What a request asks to be done with its file, if it asks for a change. -/
def Request.changeKind? : Request → Option ChangeKind
  | write _ _ _ _ => some .write
  | delete _ _ _ => some .delete
  | _ => none

/-! ### Paths -/

theorem storePath_eq_ok_iff {path q : String} :
    storePath path = .ok q ↔ Path.normalize? path = some q := by
  unfold storePath
  cases Path.normalize? path <;> simp

/-- A refused path is no missing file. -/
theorem isNotFound_of_storePath_eq_error {path : String} {e : StoreError}
    (h : storePath path = .error e) : e.isNotFound = false := by
  unfold storePath at h
  cases normal : Path.normalize? path with
  | none =>
      simp only [normal, Except.error.injEq] at h
      subst h
      rfl
  | some q => simp [normal] at h

/-! ### The two rules -/

/-- A file may be written by one who has seen what is there. -/
theorem checkWrite_current (q : String) (content : Option ByteArray) :
    checkWrite q (content.map .ofContent) ((content.map .ofContent).getD .none) = .ok () := by
  cases content <;> simp [checkWrite, checkSame]

/-- A file may be removed by one who has seen it. -/
theorem checkDelete_current (q : String) (content : ByteArray) :
    checkDelete q (some (.ofContent content)) (.ofContent content) = .ok () := by
  simp [checkDelete, checkSame]

namespace MemoryStore

variable {s : MemoryStore} {path q : String}

/-- Without faults a store fulfils what it is asked for. -/
theorem call_of_faultless (faultless : s.faults = []) (r : Request) : call r s = fulfil r s := by
  simp [call, faultless]

/-- A read answers with the file under the path, if there is one. -/
theorem call_read (faultless : s.faults = []) (h : storePath path = .ok q) :
    call (.read path) s = (.ok ((s.files.get? q).map .ofContent), s) := by
  rw [call_of_faultless faultless, fulfil, snapshot, h]
  rfl

/-- A peek is answered like a read, without the revision. -/
theorem call_peek_eq (path : String) (s : MemoryStore) :
    call (.peek path) s = (peeked (call (.read path) s).1, (call (.read path) s).2) := by
  unfold call
  cases s.faults with
  | nil => rfl
  | cons e rest => rfl

/-- A peek answers with the content of the file under the path, if there is one. -/
theorem call_peek (faultless : s.faults = []) (h : storePath path = .ok q) :
    call (.peek path) s = (.ok (s.files.get? q), s) := by
  rw [call_peek_eq, call_read faultless h]
  cases s.files.get? q <;> rfl

/-- A path that leaves the store is refused, whatever is asked for. -/
theorem call_of_refused (faultless : s.faults = []) {r : Request} {e : StoreError}
    (h : storePath r.path = .error e) : call r s = (.error e, s) := by
  rw [call_of_faultless faultless]
  cases r <;> simp only [Request.path] at h <;> simp only [fulfil, snapshot, h] <;> rfl

variable {message : String} {content : ByteArray} {expected : Revision}

/-- A write is made if the file is in the state that the writer expects. -/
theorem call_write (faultless : s.faults = []) (h : storePath path = .ok q) :
    call (.write path message content expected) s =
      match checkWrite q ((s.files.get? q).map .ofContent) expected with
      | .error e => (.error e, s)
      | .ok () =>
        (.ok (.ofContent content),
          { s with
            files := s.files.insert q content
            history := s.history ++ [⟨q, message, .write, .ofContent content⟩] }) := by
  rw [call_of_faultless faultless, fulfil, h]
  rfl

/-- A removal is made if the file is in the state that the caller expects. -/
theorem call_delete (faultless : s.faults = []) (h : storePath path = .ok q) :
    call (.delete path message expected) s =
      match checkDelete q ((s.files.get? q).map .ofContent) expected with
      | .error e => (.error e, s)
      | .ok () =>
        (.ok (),
          { s with
            files := s.files.erase q
            history := s.history ++ [⟨q, message, .delete, expected⟩] }) := by
  rw [call_of_faultless faultless, fulfil, h]
  rfl

theorem file?_eq (h : storePath path = .ok q) : s.file? path = s.files.get? q := by
  simp [file?, storePath_eq_ok_iff.mp h]

theorem file?_eq_some_iff {content : ByteArray} :
    s.file? path = some content ↔ ∃ q, storePath path = .ok q ∧ s.files.get? q = some content := by
  simp [file?, storePath_eq_ok_iff, Option.bind_eq_some_iff]

end MemoryStore

end RecordTree
