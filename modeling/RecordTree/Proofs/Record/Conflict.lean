import RecordTree.Proofs.Record.Interleaving

/-!
# Changes that are refused

Without faults a store refuses a change only if its file is no longer the one that was read. Whether a caller
can tell a lost race from other failures (`RecordError.isRevisionConflict`) depends on what has become of the
file: one that was made or changed is told, and one that was removed is not.
-/

namespace RecordTree

open Program

/-! ### Refused edits -/

/-- A change of a file that is there is refused as a conflict. -/
theorem Edit.isConflict_of_check_some {edit : Edit} {q : String} {actual expected : Revision}
    {e : StoreError} (refused : edit.check q (some actual) expected = .error e) : e.isConflict = true := by
  have mismatch : checkSame q actual expected = .error e → e.isConflict = true := by
    intro h
    unfold checkSame at h
    split at h
    · cases h
    · cases h
      rfl
  cases edit with
  | write document =>
      cases absent : expected.isNone with
      | true =>
          simp only [check, checkWrite, absent] at refused
          cases refused
          rfl
      | false => exact mismatch (by simpa [check, checkWrite, absent] using refused)
  | remove => exact mismatch refused

/-- Without a file a change is refused because there is none. -/
theorem Edit.eq_notFound_of_check_none {edit : Edit} {q : String} {expected : Revision} {e : StoreError}
    (refused : edit.check q none expected = .error e) : e = .notFound q := by
  cases edit with
  | write document =>
      cases absent : expected.isNone <;> simp only [check, checkWrite, absent] at refused
      · cases refused
        rfl
      · cases refused
  | remove =>
      cases refused
      rfl

namespace Intent

variable {d : Option Definition} {i : Invocation}

/-- A change passes if its file still holds what was read. -/
theorem check_of_unchanged (n : Intent d i) {s : MemoryStore}
    (same : s.files.get? n.file = n.read.before.files.get? n.file) :
    n.edit.check n.file (s.revision? n.file) n.expected = .ok () := by
  have there : n.edit = .remove → (n.read.before.files.get? n.file).isSome := by
    intro removes
    cases held : n.read.before.files.get? n.file with
    | some content => rfl
    | none =>
        have decided := n.decided
        rw [held, removes] at decided
        exact absurd decided (Invocation.decide_none_ne_remove n.planned n.message)
  rw [expected, MemoryStore.revision?, MemoryStore.revision?, same]
  exact n.edit.check_current n.file _ there

/-- A change that is refused has lost a race, and what is told of it depends on whether there is a file. -/
theorem lost_of_check_error (n : Intent d i) {s : MemoryStore} {e : StoreError}
    (refused : n.edit.check n.file (s.revision? n.file) n.expected = .error e) :
    s.files.get? n.file ≠ n.read.before.files.get? n.file ∧
      (e.isConflict = true ↔ s.files.get? n.file ≠ none) ∧
      (s.files.get? n.file = none → e = .notFound n.file) := by
  constructor
  · intro same
    rw [n.check_of_unchanged same] at refused
    cases refused
  · unfold MemoryStore.revision? at refused
    cases held : s.files.get? n.file with
    | none =>
        rw [held] at refused
        obtain rfl := Edit.eq_notFound_of_check_none refused
        simp [StoreError.isConflict]
    | some content =>
        rw [held] at refused
        simpa using Edit.isConflict_of_check_some refused

end Intent

namespace System

variable {ι : Type} [DecidableEq ι] {d : Option Definition}

/-! ### Lost races -/

/-- **What is told of a lost race.** A change that fails was refused because its file has become another one
since it was read, and its error is told from other failures if and only if there still is a file. -/
theorem isRevisionConflict_iff_of_refused {s : MemoryStore} (faultless : s.faults = [])
    (scripts : ι → Script) (schedule : List ι) {o : Completed ι}
    (logged : o ∈ ((start s scripts).run d schedule).log) {change : Call} (made : change ∈ o.calls)
    (changes : change.request.isChange = true) {e : RecordError} (failed : o.result = .error e) :
    ∃ read file,
      o.calls = [read, change] ∧
        read.request = .read change.request.path ∧
        storePath change.request.path = .ok file ∧
        change.before.files.get? file ≠ read.before.files.get? file ∧
        (e.isRevisionConflict = true ↔ change.before.files.get? file ≠ none) ∧
        (change.before.files.get? file = none → e = .store (.notFound file)) := by
  have ending := ending_of_mem_log (settled_start (d := d) faultless scripts)
    (fun o mem => by cases mem) schedule o logged
  obtain ⟨client, i, calls, result, finish⟩ := o
  change Ending d i finish calls result at ending
  change result = .error e at failed
  change change ∈ calls at made
  change ∃ read file, calls = [read, change] ∧ _
  cases ending with
  | unchecked planned => cases made
  | @refused plan _ _ planned path =>
      cases List.mem_singleton.mp made
      cases plan.request_isChange.symm.trans changes
  | @answered plan _ _ _ planned path decided =>
      cases List.mem_singleton.mp made
      cases plan.request_isChange.symm.trans changes
  | @edited before after _ n faultless submitted =>
      rcases List.mem_pair.mp made with rfl | rfl
      · rw [n.request] at changes
        cases changes
      · obtain ⟨x, check, rfl, -⟩ | ⟨-, made, -⟩ := n.refused_or_made faultless submitted
        · obtain ⟨differs, told, gone⟩ := n.lost_of_check_error check
          obtain rfl : .store x = e := Except.error.inj failed
          have path : n.change.path = n.plan.target.path := n.edit.request_path ..
          exact ⟨n.read, n.file, rfl, path ▸ n.request, path ▸ n.path, differs, told,
            fun absent => by rw [gone absent]⟩
        · rw [failed] at made
          cases made

/-! ### A file that is removed in between -/

/-- A collection in which every record has a JSON file of its own. -/
def keyedTags : Definition :=
  .add .empty ⟨"tags", "tags", some ⟨Path.placeholder ++ ".json", "json", .single⟩, .empty⟩

/-- One client sets a record while another one deletes it. -/
def removingScripts : Bool → Script
  | true => .perform ⟨none, .put .set ⟨"tags", "a"⟩ (.object [])⟩ fun _ => .finished
  | false => .perform ⟨none, .delete ⟨"tags", "a"⟩⟩ fun _ => .finished

/-- The store before the race. -/
def removedFrom : MemoryStore := MemoryStore.empty.seed "tags/a.json" "\x7b\x7d\n".toUTF8

/-- The race: the record is deleted after the file was read to set it. -/
def removingRun : System Bool :=
  (start removedFrom removingScripts).run (some keyedTags) [true, false, false, true]

/-- Whether an operation is told that the record's file is missing, which was there when it was read. -/
def isLost (o : Completed Bool) : Bool :=
  match o.calls, o.result with
  | [seen, change], .error e =>
    change.request.isChange && e = .store (.notFound "tags/a.json") &&
      Path.normalize? change.request.path = some "tags/a.json" &&
      (seen.before.files.get? "tags/a.json").isSome && (change.before.files.get? "tags/a.json").isNone
  | _, _ => false

set_option maxRecDepth 20000 in
/-- The one who sets the record is told that there is no file. -/
theorem removed_mem_log :
    ∃ o ∈ removingRun.log, ∃ read change,
      o.calls = [read, change] ∧
        change.request.isChange = true ∧
        storePath change.request.path = .ok "tags/a.json" ∧
        change.before.files.get? "tags/a.json" ≠ read.before.files.get? "tags/a.json" ∧
        o.result = .error (.store (.notFound "tags/a.json")) := by
  have found : removingRun.log.any isLost = true := by decide +kernel
  obtain ⟨o, logged, lost⟩ := List.any_eq_true.mp found
  unfold isLost at lost
  split at lost
  · rename_i seen change e calls result
    simp only [Bool.and_eq_true, decide_eq_true_eq] at lost
    obtain ⟨⟨⟨⟨changes, rfl⟩, path⟩, was⟩, gone⟩ := lost
    have differs : change.before.files.get? "tags/a.json" ≠ seen.before.files.get? "tags/a.json" := by
      intro same
      rw [← same, Option.isSome_iff_ne_none] at was
      exact was (Option.isNone_iff_eq_none.mp gone)
    exact ⟨o, logged, seen, change, calls, changes, storePath_eq_ok_iff.mpr path, differs, result⟩
  · cases lost

/-- A lost race that is not told from other failures. -/
theorem isRevisionConflict_iff_of_refused_removed :
    removedFrom.faults = [] ∧
      ∃ o ∈ removingRun.log, ∃ change ∈ o.calls, change.request.isChange = true ∧
        ∃ e, o.result = .error e ∧
          (∃ read file,
            o.calls = [read, change] ∧
              read.request = .read change.request.path ∧
              storePath change.request.path = .ok file ∧
              change.before.files.get? file ≠ read.before.files.get? file ∧
              (e.isRevisionConflict = true ↔ change.before.files.get? file ≠ none) ∧
              (change.before.files.get? file = none → e = .store (.notFound file))) := by
  have faultless : removedFrom.faults = [] := by decide
  obtain ⟨o, logged, read, change, calls, changes, path, differs, result⟩ := removed_mem_log
  have made : change ∈ o.calls := by simp [calls]
  exact ⟨faultless, o, logged, change, made, changes, _, result,
    isRevisionConflict_iff_of_refused faultless removingScripts _ logged made changes result⟩

/-- Not every lost race is told: one that is lost to a removal is not. -/
theorem not_forall_isRevisionConflict_of_lost_race :
    ¬ ∀ (d : Option Definition) (s : MemoryStore), s.faults = [] →
      ∀ (scripts : Bool → Script) (schedule : List Bool),
        ∀ o ∈ ((start s scripts).run d schedule).log, ∀ read change : Call,
          o.calls = [read, change] → change.request.isChange = true →
            ∀ file, storePath change.request.path = .ok file →
              change.before.files.get? file ≠ read.before.files.get? file →
                ∀ e, o.result = .error e → e.isRevisionConflict = true := by
  intro told
  obtain ⟨o, logged, read, change, calls, changes, path, differs, result⟩ := removed_mem_log
  have conflict := told (some keyedTags) removedFrom (by decide) removingScripts _ o logged read change
    calls changes _ path differs _ result
  cases conflict

end System

end RecordTree
