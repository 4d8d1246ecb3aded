import Mathlib.Data.List.Induction
import RecordTree.Proofs.Path
import RecordTree.Proofs.Record.Faults

/-!
# The trail that a store in memory leaves

The history of a store explains its files. A request leaves the tree as it was, or it makes one change and adds one
entry, and which of the two depends on whether the file is in the state that the caller expects
(`MemoryStore.changedBy_or_sameTree`). So at every point of a run, whatever faults have come in between, a file without
an entry is as it was at the beginning, and any other file is what its last entry says (`Explained`). The entry of a
deletion names the content that was removed (`explained_run`), though it repeats what the caller expects.
-/

namespace RecordTree

/-- The empty revision is the one that stands for no file. -/
theorem Revision.isNone_iff {r : Revision} : r.isNone = true ↔ r = .none := by
  obtain ⟨text⟩ := r
  simp [isNone, none]

/-- The revision of a content is not the one that stands for no file. -/
theorem Revision.ofContent_ne_none (content : ByteArray) : Revision.ofContent content ≠ .none := by
  intro same
  have empty := Revision.isNone_iff.mpr same
  simp at empty

namespace MemoryStore

/-! ### Single requests -/

/-- Whether the file at a path is in the state that a request for a change expects. -/
def Fits (s : MemoryStore) (q : String) : Request → Prop
  | .write _ _ _ expected => expected = .none ∧ s.files.get? q = none ∨ s.revision? q = some expected
  | .delete _ _ expected => s.revision? q = some expected
  | _ => False

variable {s s' : MemoryStore} {q : String} {c : Change}

/-- A file may be written by one who expects the state that it is in, and by nobody else. -/
theorem checkWrite_eq_ok_iff (q : String) (expected : Revision) :
    checkWrite q (s.revision? q) expected = .ok () ↔
      expected = .none ∧ s.files.get? q = none ∨ s.revision? q = some expected := by
  have empty : expected.isNone = true ↔ expected = .none := Revision.isNone_iff
  unfold MemoryStore.revision?
  cases s.files.get? q with
  | none => cases none : expected.isNone <;> simp_all [checkWrite]
  | some content =>
      have named : expected = .none → Revision.ofContent content ≠ expected :=
        fun none same => Revision.ofContent_ne_none content (same.trans none)
      cases none : expected.isNone with
      | true => simp_all [checkWrite]
      | false => simp [checkWrite, none, checkSame]

/-- A file may be removed by one who names the revision of its content, and by nobody else. -/
theorem checkDelete_eq_ok_iff (q : String) (expected : Revision) :
    checkDelete q (s.revision? q) expected = .ok () ↔ s.revision? q = some expected := by
  unfold MemoryStore.revision?
  cases s.files.get? q with
  | none => simp [checkDelete]
  | some content => simp [checkDelete, checkSame]

/-- **What a request does** that no fault meets and whose path is accepted: it makes one change of its file if the
file is in the state that it expects, and else it leaves the tree as it was. -/
theorem changedBy_or_sameTree (faultless : s.faults = []) {r : Request} (accepted : storePath r.path = .ok q) :
    (s.Fits q r ∧ ∃ c, c.path = q ∧ r.changeKind? = some c.kind ∧ s.ChangedBy (call r s).2 c) ∨
      (¬ s.Fits q r ∧ s.SameTree (call r s).2) := by
  cases r with
  | peek path =>
      rw [call_peek faultless (show storePath path = .ok q from accepted)]
      exact .inr ⟨id, .refl s⟩
  | read path =>
      rw [call_read faultless (show storePath path = .ok q from accepted)]
      exact .inr ⟨id, .refl s⟩
  | list path => exact .inr ⟨id, sameTree_call_list path⟩
  | write path message content expected =>
      rw [call_write faultless (show storePath path = .ok q from accepted)]
      have fits := s.checkWrite_eq_ok_iff q expected
      cases check : checkWrite q ((s.files.get? q).map .ofContent) expected with
      | ok passed =>
          exact .inl ⟨fits.mp check, ⟨q, message, .write, .ofContent content⟩, rfl, rfl, rfl, content, rfl, rfl⟩
      | error e =>
          refine .inr ⟨fun fit => ?_, .refl s⟩
          cases check.symm.trans (fits.mpr fit)
  | delete path message expected =>
      rw [call_delete faultless (show storePath path = .ok q from accepted)]
      have fits := s.checkDelete_eq_ok_iff q expected
      cases check : checkDelete q ((s.files.get? q).map .ofContent) expected with
      | ok passed =>
          have named : s.revision? q = some expected := fits.mp check
          obtain ⟨content, held, rfl⟩ := Option.map_eq_some_iff.mp named
          exact .inl ⟨named, ⟨q, message, .delete, .ofContent content⟩, rfl, rfl, rfl, content, rfl, held, rfl⟩
      | error e =>
          refine .inr ⟨fun fit => ?_, .refl s⟩
          cases check.symm.trans (fits.mpr fit)

/-- Any request leaves the tree as it was, or makes one change at a canonical path. -/
theorem sameTree_or_changedBy (s : MemoryStore) (r : Request) :
    s.SameTree (call r s).2 ∨ ∃ c, storePath c.path = .ok c.path ∧ s.ChangedBy (call r s).2 c := by
  cases faults : s.faults with
  | cons e rest =>
      rw [call_of_fault faults]
      exact .inl ⟨rfl, rfl⟩
  | nil =>
      cases accepted : storePath r.path with
      | error e =>
          rw [call_of_refused faults accepted]
          exact .inl (.refl s)
      | ok q =>
          obtain ⟨-, c, rfl, -, changed⟩ | ⟨-, same⟩ := changedBy_or_sameTree faults accepted
          · refine .inr ⟨c, ?_, changed⟩
            exact storePath_eq_ok_iff.mpr (Path.normalize?_of_normalize? (storePath_eq_ok_iff.mp accepted))
          · exact .inl same

/-! ### Runs -/

/-- What happens to a store: it is asked for something, or a fault is put in front of what comes next. -/
inductive Event where
  | request (r : Request)
  | fault (e : StoreError)

/-- The store after an event. -/
def perform (s : MemoryStore) : Event → MemoryStore
  | .request r => (call r s).2
  | .fault e => s.failNext e

/-- The store after some events. -/
def run (s : MemoryStore) (events : List Event) : MemoryStore := events.foldl perform s

/-- The store with files that no entry tells of. -/
def seeded (files : List (String × ByteArray)) : MemoryStore :=
  files.foldl (fun s f => s.seed f.1 f.2) empty

theorem run_append_singleton (s : MemoryStore) (past : List Event) (e : Event) :
    s.run (past ++ [e]) = (s.run past).perform e := by
  simp [run]

/-- Whether all files stand under canonical paths. -/
def Canonical (s : MemoryStore) : Prop :=
  ∀ path content, s.files.get? path = some content → storePath path = .ok path

theorem canonical_empty : empty.Canonical := by
  intro path content held
  cases held

/-- A file is seeded under its canonical path. -/
theorem Canonical.seed (canonical : s.Canonical) (path : String) (content : ByteArray) :
    (s.seed path content).Canonical := by
  unfold MemoryStore.seed
  cases normal : Path.normalize? path with
  | none => exact canonical
  | some q =>
      intro path' content' held
      rw [SortedMap.get?_insert] at held
      split at held
      · rename_i same
        rw [same]
        exact storePath_eq_ok_iff.mpr (Path.normalize?_of_normalize? normal)
      · exact canonical path' content' held

/-- A change at a canonical path keeps all files under canonical paths. -/
theorem Canonical.of_changedBy (canonical : s.Canonical) (accepted : storePath c.path = .ok c.path)
    (changed : s.ChangedBy s' c) : s'.Canonical := by
  intro path content held
  by_cases same : path = c.path
  · rw [same, accepted]
  · exact canonical path content (changed.get?_of_ne same ▸ held)

theorem history_seed (s : MemoryStore) (path : String) (content : ByteArray) :
    (s.seed path content).history = s.history := by
  unfold seed
  split <;> rfl

theorem seeded_append_singleton (files : List (String × ByteArray)) (f : String × ByteArray) :
    seeded (files ++ [f]) = (seeded files).seed f.1 f.2 := by
  simp [seeded]

theorem canonical_seeded (files : List (String × ByteArray)) : (seeded files).Canonical := by
  induction files using List.reverseRecOn with
  | nil => exact canonical_empty
  | append_singleton rest f ih =>
      rw [seeded_append_singleton]
      exact ih.seed f.1 f.2

theorem history_seeded (files : List (String × ByteArray)) : (seeded files).history = [] := by
  induction files using List.reverseRecOn with
  | nil => rfl
  | append_singleton rest f ih => rw [seeded_append_singleton, history_seed, ih]

/-- The entries about a file, the oldest first. -/
def entriesOf (history : List Change) (path : String) : List Change := history.filter (·.path = path)

/-- The history of a store explains its files, given those of an earlier one. -/
structure Explained (first s : MemoryStore) : Prop where
  canonical : s.Canonical
  untouched : ∀ path, entriesOf s.history path = [] → s.files.get? path = first.files.get? path
  touched : ∀ path c, (entriesOf s.history path).getLast? = some c →
    match c.kind with
    | .write => s.revision? path = some c.revision
    | .delete => s.files.get? path = none

namespace Explained

variable {first : MemoryStore}

theorem of_sameTree (explained : Explained first s) (same : s.SameTree s') : Explained first s' := by
  obtain ⟨files, history⟩ := same
  obtain ⟨canonical, untouched, touched⟩ := explained
  constructor
  · rwa [Canonical, files]
  · rwa [files, history]
  · unfold MemoryStore.revision? at touched ⊢
    rwa [files, history]

theorem of_changedBy (explained : Explained first s) (accepted : storePath c.path = .ok c.path)
    (changed : s.ChangedBy s' c) : Explained first s' := by
  have others : ∀ path, path ≠ c.path → s'.files.get? path = s.files.get? path :=
    fun path other => changed.get?_of_ne other
  have entries : ∀ path, path ≠ c.path → entriesOf s'.history path = entriesOf s.history path := by
    intro path other
    simp [entriesOf, changed.history, Ne.symm other]
  have own : entriesOf s'.history c.path = entriesOf s.history c.path ++ [c] := by
    simp [entriesOf, changed.history]
  constructor
  · exact explained.canonical.of_changedBy accepted changed
  · intro path none
    by_cases same : path = c.path
    · rw [same, own] at none
      simp at none
    · rw [others path same]
      exact explained.untouched path (entries path same ▸ none)
  · intro path c' last
    by_cases same : path = c.path
    · subst same
      rw [own, List.getLast?_concat] at last
      cases last
      obtain ⟨content, revision, files⟩ := changed.files
      cases kind : c.kind with
      | write =>
          rw [kind] at files
          simp [MemoryStore.revision?, files, revision]
      | delete =>
          rw [kind] at files
          simp [files.2]
    · rw [entries path same] at last
      simpa only [MemoryStore.revision?, others path same] using explained.touched path c' last

end Explained

/-- A run that starts from seeded files is explained at every point. -/
theorem explained_seeded_run (files : List (String × ByteArray)) (events : List Event) :
    Explained (seeded files) ((seeded files).run events) := by
  induction events using List.reverseRecOn with
  | nil =>
      refine ⟨canonical_seeded files, fun path none => rfl, fun path c last => ?_⟩
      simp [run, history_seeded, entriesOf] at last
  | append_singleton past e ih =>
      rw [run_append_singleton]
      cases e with
      | fault e => exact ih.of_sameTree ⟨rfl, rfl⟩
      | request r =>
          rcases ((seeded files).run past).sameTree_or_changedBy r with same | ⟨c, accepted, changed⟩
          · exact ih.of_sameTree same
          · exact ih.of_changedBy accepted changed

/-- **Every entry was added by one request**, which made the change that the entry tells of. -/
theorem exists_request_of_history (first : MemoryStore) (events : List Event) {before after : List Change}
    (entry : (first.run events).history = first.history ++ before ++ c :: after) :
    ∃ past r rest, events = past ++ .request r :: rest ∧ (first.run past).history = first.history ++ before ∧
      (first.run past).ChangedBy (first.run (past ++ [.request r])) c := by
  induction events using List.reverseRecOn generalizing after with
  | nil =>
      have length := congrArg List.length entry
      simp [run] at length
  | append_singleton past e ih =>
      -- an entry that was there before the event was added by an earlier one
      have earlier : ∀ after, (first.run past).history = first.history ++ before ++ c :: after →
          ∃ past' r rest, past ++ [e] = past' ++ .request r :: rest ∧
            (first.run past').history = first.history ++ before ∧
              (first.run past').ChangedBy (first.run (past' ++ [.request r])) c := by
        intro after entry
        obtain ⟨past', r, rest, rfl, unchanged, changed⟩ := ih entry
        exact ⟨past', r, rest ++ [e], by simp, unchanged, changed⟩
      cases e with
      | fault e =>
          rw [run_append_singleton] at entry
          exact earlier after entry
      | request r =>
          have next : first.run (past ++ [.request r]) = (call r (first.run past)).2 :=
            first.run_append_singleton past _
          rcases (first.run past).sameTree_or_changedBy r with same | ⟨c', accepted, changed⟩
          · exact earlier after (same.2 ▸ next ▸ entry)
          · rw [next, changed.history] at entry
            rcases List.eq_nil_or_concat after with rfl | ⟨l, y, rfl⟩
            · obtain ⟨unchanged, same⟩ := List.append_inj' entry rfl
              obtain rfl : c' = c := by simpa using same
              exact ⟨past, r, [], rfl, unchanged, next ▸ changed⟩
            · have longer : (first.run past).history ++ [c'] = (first.history ++ before ++ c :: l) ++ [y] := by
                simpa using entry
              exact earlier l (List.append_inj' longer rfl).1

/-- What an entry about a removal tells: the removed content is the one that the entry before it about the same file
was written with, or the seeded one if there is none. -/
def Removal (first : MemoryStore) (before : List Change) (c : Change) : Prop :=
  match (entriesOf before c.path).getLast? with
  | some c' => c'.kind = .write ∧ c'.revision = c.revision
  | none => first.revision? c.path = some c.revision

/-- A change that removes a file tells of what was there. -/
theorem Explained.removal {first : MemoryStore} (explained : Explained first s) (changed : s.ChangedBy s' c)
    (removed : c.kind = .delete) : Removal first s.history c := by
  obtain ⟨content, revision, files⟩ := changed.files
  rw [removed] at files
  have held : s.revision? c.path = some c.revision := by
    rw [revision]
    exact congrArg _ files.1
  unfold Removal
  cases last : (entriesOf s.history c.path).getLast? with
  | none =>
      have same := explained.untouched c.path (List.getLast?_eq_none_iff.mp last)
      simpa only [MemoryStore.revision?, same] using held
  | some c' =>
      have told := explained.touched c.path c' last
      cases kind : c'.kind with
      | write =>
          rw [kind] at told
          exact ⟨kind, Option.some.inj (told.symm.trans held)⟩
      | delete =>
          rw [kind] at told
          cases told.symm.trans files.1

/-- **The history explains the store.** In any run of a store with seeded files, at every point of it, whatever
faults have come in between: the files are as the history tells (`Explained`), every removal was made by a request and
tells of the content that was there, and the next request, if no fault meets it and its path is accepted, makes one
change of its file and adds one entry if the file is in the state that the request expects, and else does nothing. -/
theorem explained_run (files : List (String × ByteArray)) (events : List Event) :
    Explained (seeded files) ((seeded files).run events) ∧
      (∀ before c after, ((seeded files).run events).history = before ++ c :: after → c.kind = .delete →
        Removal (seeded files) before c ∧
          ∃ past r rest, events = past ++ .request r :: rest ∧ ((seeded files).run past).history = before ∧
            ((seeded files).run past).ChangedBy ((seeded files).run (past ++ [.request r])) c) ∧
      ∀ r q, ((seeded files).run events).faults = [] → storePath r.path = .ok q →
        (((seeded files).run events).Fits q r ∧ ∃ c, c.path = q ∧ r.changeKind? = some c.kind ∧
            ((seeded files).run events).ChangedBy ((seeded files).run (events ++ [.request r])) c) ∨
          (¬ ((seeded files).run events).Fits q r ∧
            ((seeded files).run events).SameTree ((seeded files).run (events ++ [.request r]))) := by
  have unremembered := history_seeded files
  refine ⟨explained_seeded_run files events, ?_, ?_⟩
  · intro before c after entry removed
    rw [← List.nil_append before, ← unremembered] at entry
    obtain ⟨past, r, rest, split, unchanged, changed⟩ := exists_request_of_history (seeded files) events entry
    rw [unremembered, List.nil_append] at unchanged
    refine ⟨?_, past, r, rest, split, unchanged, changed⟩
    rw [← unchanged]
    exact (explained_seeded_run files past).removal changed removed
  · intro r q faultless accepted
    rw [run_append_singleton]
    exact changedBy_or_sameTree faultless accepted

/-- A file is removed under another spelling of its path, made again after a fault, and removed once more. -/
def restoring : List Event :=
  [.request (.delete "d//a" "gone" (.ofContent "1".toUTF8)), .fault (.io "d"), .request (.read "d/a"),
    .request (.write "./d/a" "back" "2".toUTF8 .none), .request (.delete "d/a" "gone" (.ofContent "2".toUTF8))]

/-- The two removals tell of the seeded content and of the written one. -/
theorem explained_run_restoring :
    ∃ first second third : Change,
      ((seeded [("d/a", "1".toUTF8)]).run restoring).history = [first, second, third] ∧
        first.kind = .delete ∧ third.kind = .delete ∧
          Removal (seeded [("d/a", "1".toUTF8)]) [] first ∧
            Removal (seeded [("d/a", "1".toUTF8)]) [first, second] third := by
  have history : ((seeded [("d/a", "1".toUTF8)]).run restoring).history =
      [⟨"d/a", "gone", .delete, .ofContent "1".toUTF8⟩, ⟨"d/a", "back", .write, .ofContent "2".toUTF8⟩,
        ⟨"d/a", "gone", .delete, .ofContent "2".toUTF8⟩] := by
    decide +kernel
  obtain ⟨-, removals, -⟩ := explained_run [("d/a", "1".toUTF8)] restoring
  exact ⟨_, _, _, history, rfl, rfl, (removals [] _ _ history rfl).1, (removals [_, _] _ [] history rfl).1⟩

end MemoryStore

end RecordTree
