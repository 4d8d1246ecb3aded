import RecordTree.Proofs.Record.Alone

/-!
# Faults

A store in memory may answer with a fault instead of what it was asked for, and a record operation that fails,
for whatever reason, leaves the files and the history as they were (`SameTree`). One that succeeds owes nothing
to a fault: a file that a fault has hidden from its read cannot be created over, so it ends as it does without
faults, with one file written or removed and one entry more in the history (`ChangedBy`).
-/

namespace RecordTree

open Program

namespace MemoryStore

/-! ### What requests leave behind -/

/-- Two stores have the same files and remember the same changes. -/
def SameTree (before after : MemoryStore) : Prop :=
  after.files = before.files ∧ after.history = before.history

/-- A store has become another one by a single change: its file was written or removed, no other one was
touched, and the change was added to the history. -/
structure ChangedBy (before after : MemoryStore) (c : Change) : Prop where
  history : after.history = before.history ++ [c]
  files : ∃ content, c.revision = .ofContent content ∧
    match c.kind with
    | .write => after.files = before.files.insert c.path content
    | .delete => before.files.get? c.path = some content ∧ after.files = before.files.erase c.path

/-- The store, without the faults that are in front of its requests. -/
def withoutFaults (s : MemoryStore) : MemoryStore := { s with faults := [] }

theorem withoutFaults_eq {s : MemoryStore} (faultless : s.faults = []) : s.withoutFaults = s := by
  obtain ⟨files, history, faults⟩ := s
  cases faultless
  rfl

variable {s s' s'' : MemoryStore}

theorem SameTree.refl (s : MemoryStore) : SameTree s s := ⟨rfl, rfl⟩

theorem SameTree.trans (first : SameTree s s') (second : SameTree s' s'') : SameTree s s'' :=
  ⟨second.1.trans first.1, second.2.trans first.2⟩

/-- A change touches its own file alone. -/
theorem ChangedBy.get?_of_ne {c : Change} (changed : s.ChangedBy s' c) {path : String}
    (other : path ≠ c.path) : s'.files.get? path = s.files.get? path := by
  obtain ⟨content, -, files⟩ := changed.files
  cases kind : c.kind with
  | write =>
      rw [kind] at files
      rw [files, SortedMap.get?_insert_of_ne _ other]
  | delete =>
      rw [kind] at files
      rw [files.2, SortedMap.get?_erase_of_ne _ other]

/-- The next request is answered with the first fault. -/
theorem call_of_fault {e : StoreError} {rest : List StoreError} (faults : s.faults = e :: rest) (r : Request) :
    call r s = (.error e, { s with faults := rest }) := by
  simp [call, faults]

/-- To look at a directory changes nothing. -/
theorem sameTree_call_list (path : String) : SameTree s (call (.list path) s).2 := by
  cases faults : s.faults with
  | cons e rest =>
      rw [call_of_fault faults]
      exact ⟨rfl, rfl⟩
  | nil =>
      rw [call_of_faultless faults]
      simp only [fulfil]
      split
      · exact .refl s
      · split <;> exact .refl s

end MemoryStore

open MemoryStore

variable {s : MemoryStore} {d : Option Definition} {i : Invocation} {t : Target} {message : String}
  {expected : Revision}

/-! ### Failures -/

/-- To look at a file changes nothing, whether or not it can be read. -/
theorem Plan.sameTree_call (p : Plan) : s.SameTree (MemoryStore.call p.request s).2 := by
  cases faults : s.faults with
  | cons e rest =>
      rw [call_of_fault faults]
      exact ⟨rfl, rfl⟩
  | nil =>
      rw [call_of_faultless faults, request]
      cases p.look <;> exact .refl s

/-- A fault in front of an edit is what comes of it. -/
theorem Edit.runOn_submit_of_fault (edit : Edit) {e : StoreError} {rest : List StoreError}
    (faults : s.faults = e :: rest) :
    (edit.submit t message expected).runOn MemoryStore.call s =
      (.error (.store e), { s with faults := rest }) := by
  cases edit with
  | write document =>
      simp only [submit, Program.write, call_bind, runOn_call, call_of_fault faults]
      rfl
  | remove =>
      simp only [submit, Program.delete, call_bind, runOn_call, call_of_fault faults]
      rfl

/-- An edit whose path is refused fails. -/
theorem Edit.runOn_submit_of_refused (edit : Edit) (faultless : s.faults = []) {e : StoreError}
    (refused : storePath t.path = .error e) :
    (edit.submit t message expected).runOn MemoryStore.call s = (.error (.store e), s) := by
  have answered : ∀ r : Request, r.path = t.path → MemoryStore.call r s = (.error e, s) := fun r same =>
    call_of_refused faultless (same ▸ refused)
  cases edit with
  | write document =>
      simp only [submit, Program.write, call_bind, runOn_call, answered (.write _ _ _ _) rfl]
      rfl
  | remove =>
      simp only [submit, Program.delete, call_bind, runOn_call, answered (.delete _ _ _) rfl]
      rfl

/-- What comes of an edit: it fails and leaves the tree as it was, or it passes its check and is made, and no
fault was in front of it. -/
theorem Edit.failed_or_made (edit : Edit) (t : Target) (message : String) (expected : Revision)
    (s : MemoryStore) :
    (∃ x, ((edit.submit t message expected).runOn MemoryStore.call s).1 = .error x ∧
        s.SameTree ((edit.submit t message expected).runOn MemoryStore.call s).2) ∨
      ∃ path, s.faults = [] ∧ storePath t.path = .ok path ∧
        edit.check path (s.revision? path) expected = .ok () ∧
        (edit.submit t message expected).runOn MemoryStore.call s =
          (.ok .changed, edit.apply t.codec.format path message expected s) := by
  cases faults : s.faults with
  | cons e rest =>
      rw [edit.runOn_submit_of_fault faults]
      exact .inl ⟨_, rfl, rfl, rfl⟩
  | nil =>
      cases accepted : storePath t.path with
      | error e =>
          rw [edit.runOn_submit_of_refused faults accepted]
          exact .inl ⟨_, rfl, .refl s⟩
      | ok path =>
          rw [edit.runOn_submit t faults accepted]
          cases check : edit.check path (s.revision? path) expected with
          | error e => exact .inl ⟨_, rfl, .refl s⟩
          | ok passed => exact .inr ⟨path, rfl, rfl, check, rfl⟩

/-- A plan that fails leaves the tree as it was, whatever it has read. -/
theorem Plan.sameTree_of_proceed_error {p : Plan} {snapshot : Option Snapshot} {x : RecordError}
    (failed : ((p.proceed snapshot).runOn MemoryStore.call s).1 = .error x) :
    s.SameTree ((p.proceed snapshot).runOn MemoryStore.call s).2 := by
  unfold proceed at failed ⊢
  split at failed
  · exact .refl s
  · rename_i message edit _
    obtain ⟨x', -, same⟩ | ⟨path, -, -, -, made⟩ := edit.failed_or_made p.target message
      ((snapshot.map Snapshot.revision).getD .none) s
    · exact same
    · rw [made] at failed
      cases failed

/-- **An operation that fails leaves the tree as it was.** -/
theorem Invocation.sameTree_of_error {x : RecordError}
    (failed : ((i.program d).runOn MemoryStore.call s).1 = .error x) :
    s.SameTree ((i.program d).runOn MemoryStore.call s).2 := by
  rw [i.program_eq] at failed ⊢
  cases planned : i.plan d with
  | error e => exact .refl s
  | ok p =>
      have looked := p.sameTree_call (s := s)
      simp only [planned, p.program_eq_call, runOn_call] at failed ⊢
      cases seen : p.seen (MemoryStore.call p.request s).1 with
      | error e => exact looked
      | ok snapshot =>
          simp only [seen] at failed
          exact looked.trans (Plan.sameTree_of_proceed_error failed)

/-- A listing changes nothing. -/
theorem sameTree_listFiles (session : Session) (collection : String) :
    s.SameTree ((session.listFiles collection).runOn MemoryStore.call s).2 := by
  unfold Session.listFiles
  split
  · exact .refl s
  · split
    · exact .refl s
    · rename_i c _
      simp only [Program.list, runOn_call]
      exact sameTree_call_list c.dir

/-! ### Successes -/

/-- A plan whose look meets a fault fails, unless the fault says that there is no file. -/
theorem Plan.runOn_program_of_fault (p : Plan) {e : StoreError} {rest : List StoreError}
    (faults : s.faults = e :: rest) :
    p.program.runOn MemoryStore.call s =
      if e.isNotFound then (p.proceed none).runOn MemoryStore.call { s with faults := rest }
      else (.error (.store e), { s with faults := rest }) := by
  simp only [program_eq_call, runOn_call, call_of_fault faults, seen_error]
  cases e.isNotFound <;> rfl

/-- A write that expects no file passes only if there is none. -/
theorem get?_eq_none_of_check_write {document : Value} {path : String}
    (passed : (Edit.write document).check path (s.revision? path) .none = .ok ()) :
    s.files.get? path = none := by
  cases held : s.files.get? path with
  | none => rfl
  | some content => simp [Edit.check, MemoryStore.revision?, held, checkWrite] at passed

/-- **A plan that changes something** makes the edit that the content of its file calls for. A fault may have
hidden the file from the read, but then the edit was made because there was none. -/
theorem Plan.runOn_program_of_changed {p : Plan} (there : ∀ message, p.decide none ≠ .edit message .remove)
    (silent : ∀ content, p.decide content ≠ .answer (.ok .changed))
    (changed : (p.program.runOn MemoryStore.call s).1 = .ok .changed) :
    ∃ path message edit, storePath p.target.path = .ok path ∧
      p.decide (s.files.get? path) = .edit message edit ∧
      (p.program.runOn MemoryStore.call s).2 =
        edit.apply p.target.codec.format path message ((s.revision? path).getD .none) s.withoutFaults := by
  cases faults : s.faults with
  | nil =>
      cases accepted : storePath p.target.path with
      | error e =>
          rw [p.runOn_program_of_refused faults accepted] at changed
          cases changed
      | ok path =>
          rw [p.runOn_program_eq faults accepted there] at changed ⊢
          cases decided : p.decide (s.files.get? path) with
          | answer result =>
              rw [decided] at changed
              obtain rfl : result = .ok .changed := changed
              exact absurd decided (silent _)
          | edit message edit =>
              exact ⟨path, message, edit, rfl, decided, by rw [withoutFaults_eq faults]⟩
  | cons e rest =>
      rw [p.runOn_program_of_fault faults] at changed ⊢
      cases hidden : e.isNotFound with
      | false =>
          rw [hidden] at changed
          cases changed
      | true =>
          simp only [hidden, ↓reduceIte] at changed ⊢
          cases decided : p.decide none with
          | answer result =>
              simp only [proceed, Option.map_none, decided] at changed
              obtain rfl : result = .ok .changed := changed
              exact absurd decided (silent none)
          | edit message edit =>
              simp only [proceed, Option.map_none, Option.getD_none, decided] at changed ⊢
              obtain ⟨x, failed, -⟩ | ⟨path, faultless, accepted, passed, made⟩ :=
                edit.failed_or_made p.target message .none { s with faults := rest }
              · rw [failed] at changed
                cases changed
              · obtain rfl : rest = [] := faultless
                cases edit with
                | remove => exact absurd decided (there message)
                | write document =>
                    have absent : s.files.get? path = none := get?_eq_none_of_check_write passed
                    refine ⟨path, message, _, accepted, absent ▸ decided, ?_⟩
                    rw [made, MemoryStore.revision?, absent]
                    rfl

/-! ### The change that was made -/

/-- What the history calls an operation, if it can change something. -/
def Operation.verb? : Operation → Option Verb
  | get _ => none
  | put mode _ _ => some mode.verb
  | delete _ => some .delete

/-- What an operation that changes something does to its file: only the file of a single record goes with the
record. -/
def Operation.changeKind (layout : Layout) : Operation → ChangeKind
  | delete _ => if layout = .single then .delete else .write
  | _ => .write

/-- What an edit does to its file. -/
def Edit.kind : Edit → ChangeKind
  | write _ => .write
  | remove => .delete

/-- Only the deletion of a single record removes its file. -/
theorem Target.removed_eq_ok {content : Option ByteArray} {edit : Edit} (removed : t.removed content = .ok edit) :
    edit.kind = if t.layout = .single then .delete else .write := by
  unfold Target.removed at removed
  split at removed
  · cases removed
  · split at removed
    · rename_i layout
      cases removed
      simp [layout, Edit.kind]
    · rename_i layout
      obtain ⟨records, -, removed⟩ := Target.exists_of_bind_eq_ok removed
      split at removed
      · cases removed
      · cases removed
        simp [layout, Edit.kind]

/-- What is said about an edit, and what it does to the file. -/
theorem Invocation.decide_eq_edit {p : Plan} (planned : i.plan d = .ok p) {content : Option ByteArray}
    {edit : Edit} (decided : p.decide content = .edit message edit) :
    ∃ verb, i.operation.verb? = some verb ∧ message = changeMessage verb i.operation.key i.author ∧
      edit.kind = i.operation.changeKind p.target.layout := by
  obtain ⟨-, -, decides⟩ := i.plan_eq_ok planned
  cases operation : i.operation with
  | get key =>
      rw [operation] at decides
      simp [decides] at decided
  | put mode key data =>
      rw [operation] at decides
      obtain ⟨fields, -, decides⟩ := decides
      obtain ⟨rfl, put⟩ := Decision.ofEdit_eq_edit_iff.mp (decides content ▸ decided)
      refine ⟨mode.verb, rfl, rfl, ?_⟩
      cases edit with
      | write document => rfl
      | remove => exact absurd put (Target.put_ne_remove _ _ _ _)
  | delete key =>
      rw [operation] at decides
      obtain ⟨rfl, removed⟩ := Decision.ofEdit_eq_edit_iff.mp (decides content ▸ decided)
      exact ⟨.delete, rfl, rfl, Target.removed_eq_ok removed⟩

/-- No operation is over with a change that it has not made. -/
theorem Invocation.decide_ne_answer_changed {p : Plan} (planned : i.plan d = .ok p)
    (content : Option ByteArray) : p.decide content ≠ .answer (.ok .changed) := by
  have unedited : ∀ (said : String) (x : Except RecordError Edit),
      Decision.ofEdit said x ≠ .answer (.ok .changed) := by
    intro said x same
    obtain ⟨e, -, ⟨⟩⟩ := Decision.ofEdit_eq_answer_iff.mp same
  obtain ⟨-, -, decides⟩ := i.plan_eq_ok planned
  cases operation : i.operation with
  | get key =>
      rw [operation] at decides
      rw [decides]
      cases p.target.seen content <;> simp [Except.map]
  | put mode key data =>
      rw [operation] at decides
      obtain ⟨fields, -, decides⟩ := decides
      rw [decides]
      exact unedited _ _
  | delete key =>
      rw [operation] at decides
      rw [decides]
      exact unedited _ _

/-- An operation whose plan decides on an edit makes it. -/
theorem Invocation.runOn_program_of_edit {p : Plan} {path : String} {edit : Edit}
    (faultless : s.faults = []) (planned : i.plan d = .ok p) (accepted : storePath p.target.path = .ok path)
    (decided : p.decide (s.file? p.target.path) = .edit message edit) :
    (i.program d).runOn MemoryStore.call s =
      (.ok .changed, edit.apply p.target.codec.format path message ((s.revision? path).getD .none) s) := by
  rw [Invocation.runOn_program faultless planned accepted, decided]

/-- An operation that has changed a store has made the edit that its plan has decided on. -/
theorem Invocation.exists_edit_of_changed (faultless : s.faults = [])
    {s' : MemoryStore} (changed : (i.program d).runOn MemoryStore.call s = (.ok .changed, s')) :
    ∃ p path message edit, i.plan d = .ok p ∧ storePath p.target.path = .ok path ∧
      p.decide (s.file? p.target.path) = .edit message edit ∧
        s' = edit.apply p.target.codec.format path message ((s.revision? path).getD .none) s := by
  cases planned : i.plan d with
  | error e =>
      rw [i.program_eq, planned] at changed
      cases changed
  | ok p =>
      cases accepted : storePath p.target.path with
      | error e =>
          rw [i.program_eq, planned] at changed
          simp [p.runOn_program_of_refused faultless accepted] at changed
      | ok path =>
          cases decided : p.decide (s.file? p.target.path) with
          | answer result =>
              rw [Invocation.runOn_program faultless planned accepted, decided] at changed
              obtain rfl : result = .ok .changed := congrArg Prod.fst changed
              exact absurd decided (Invocation.decide_ne_answer_changed planned _)
          | edit message edit =>
              rw [Invocation.runOn_program_of_edit faultless planned accepted decided] at changed
              exact ⟨p, path, message, edit, rfl, accepted, decided, (congrArg Prod.snd changed).symm⟩

/-- An edit by one who has seen the file is a single change. -/
theorem Edit.changedBy_apply (edit : Edit) (f : Format) {path : String}
    (there : edit = .remove → (s.files.get? path).isSome) :
    ∃ revision, s.ChangedBy
      (edit.apply f path message ((s.revision? path).getD .none) s.withoutFaults)
      ⟨path, message, edit.kind, revision⟩ := by
  cases edit with
  | write document => exact ⟨_, rfl, _, rfl, rfl⟩
  | remove =>
      obtain ⟨content, held⟩ := Option.isSome_iff_exists.mp (there rfl)
      have revision : (s.revision? path).getD .none = .ofContent content := by
        simp [MemoryStore.revision?, held]
      rw [revision]
      exact ⟨_, rfl, content, rfl, held, rfl⟩

/-- **An operation that changes something** does what it does without faults, and it makes one change: to the
file of its record, with what is said about it. -/
theorem Invocation.changedBy_of_changed
    (changed : ((i.program d).runOn MemoryStore.call s).1 = .ok .changed) :
    (i.program d).runOn MemoryStore.call s.withoutFaults = (i.program d).runOn MemoryStore.call s ∧
      ∃ t path verb change,
        Target.resolve d i.operation.key = .ok t ∧ storePath t.path = .ok path ∧
          i.operation.verb? = some verb ∧ change.path = path ∧
          change.message = changeMessage verb i.operation.key i.author ∧
          change.kind = i.operation.changeKind t.layout ∧
          s.ChangedBy ((i.program d).runOn MemoryStore.call s).2 change := by
  have program := i.program_eq d
  cases planned : i.plan d with
  | error e =>
      rw [program, planned] at changed
      cases changed
  | ok p =>
      rw [planned] at program
      rw [program] at changed ⊢
      have there := i.decide_none_ne_remove planned
      obtain ⟨path, message, edit, accepted, decided, made⟩ :=
        p.runOn_program_of_changed there (i.decide_ne_answer_changed planned) changed
      obtain ⟨verb, verb_eq, rfl, kind⟩ := i.decide_eq_edit planned decided
      have present : edit = .remove → (s.files.get? path).isSome := by
        rintro rfl
        cases held : s.files.get? path with
        | none => exact absurd (held ▸ decided) (there _)
        | some content => rfl
      obtain ⟨revision, changedBy⟩ := edit.changedBy_apply p.target.codec.format present
      refine ⟨?_, p.target, path, verb, _, (i.plan_eq_ok planned).1, accepted, verb_eq, rfl, rfl, kind, made ▸ changedBy⟩
      rw [p.runOn_program_eq rfl accepted there, ← Prod.eta ((p.program).runOn MemoryStore.call s), made, changed]
      simp only [withoutFaults, decided]
      rfl

/-- An operation that can change something answers nothing but that it has done so. -/
theorem Invocation.eq_changed_of_ok {verb : Verb} (changes : i.operation.verb? = some verb) {reply : Reply}
    (done : ((i.program d).runOn MemoryStore.call s).1 = .ok reply) : reply = .changed := by
  have last : ∀ p : Program Unit,
      ((p.bind fun _ => .done (.ok Reply.changed)).runOn MemoryStore.call s).1 = .ok reply →
        reply = .changed := by
    intro p answered
    rw [runOn_bind] at answered
    split at answered <;> cases answered
    rfl
  obtain ⟨author, operation⟩ := i
  cases operation with
  | get key => cases changes
  | put mode key data => exact last _ done
  | delete key => exact last _ done

/-- **Failures are clean, and no success owes anything to a fault.** Whatever is queued in front of the
requests, an operation or a listing that fails leaves the files and the history as they were. A set, insert or
delete that succeeds does so without faults too and leaves the same files; either way it has made one change, to
the file of its record, which the history describes. -/
theorem sameTree_of_failed_and_changedBy_of_done (d : Option Definition) (s : MemoryStore) :
    (∀ (i : Invocation) (x : RecordError), ((i.program d).runOn MemoryStore.call s).1 = .error x →
        s.SameTree ((i.program d).runOn MemoryStore.call s).2) ∧
      (∀ (author : Option String) (collection : String) (x : RecordError),
        (((⟨d, author⟩ : Session).listFiles collection).runOn MemoryStore.call s).1 = .error x →
          s.SameTree (((⟨d, author⟩ : Session).listFiles collection).runOn MemoryStore.call s).2) ∧
      ∀ (i : Invocation) (verb : Verb) (reply : Reply), i.operation.verb? = some verb →
        ((i.program d).runOn MemoryStore.call s).1 = .ok reply →
          ((i.program d).runOn MemoryStore.call s.withoutFaults).1 = .ok reply ∧
            ((i.program d).runOn MemoryStore.call s.withoutFaults).2.files =
              ((i.program d).runOn MemoryStore.call s).2.files ∧
            ∃ t path change,
              Target.resolve d i.operation.key = .ok t ∧ storePath t.path = .ok path ∧
                change.path = path ∧ change.message = changeMessage verb i.operation.key i.author ∧
                change.kind = i.operation.changeKind t.layout ∧
                s.ChangedBy ((i.program d).runOn MemoryStore.call s).2 change ∧
                s.withoutFaults.ChangedBy ((i.program d).runOn MemoryStore.call s.withoutFaults).2 change := by
  refine ⟨fun i x failed => i.sameTree_of_error failed,
    fun author collection x _ => sameTree_listFiles ⟨d, author⟩ collection, ?_⟩
  intro i verb reply changes done
  obtain rfl := i.eq_changed_of_ok changes done
  obtain ⟨alike, t, path, verb', change, resolved, accepted, verb_eq, at_path, described, kind, changed⟩ :=
    i.changedBy_of_changed done
  obtain rfl : verb' = verb := by simpa [changes] using verb_eq.symm
  rw [alike]
  exact ⟨done, rfl, t, path, change, resolved, accepted, at_path, described, kind, changed, changed.1, changed.2⟩

/-! ### What is got, faults apart -/

/-- What a get of a record answers, faults apart. -/
def MemoryStore.got (d : Option Definition) (s : MemoryStore) (key : RecordKey) :
    Except RecordError (Option Fields) :=
  (((⟨d, none⟩ : Session).get key).runOn MemoryStore.call s.withoutFaults).1

/-- **What is got of a record** is what is seen in its file. -/
theorem got_eq (s : MemoryStore) {key : RecordKey} {t : Target} (resolved : Target.resolve d key = .ok t) :
    s.got d key =
      match storePath t.path with
      | .ok path => t.seen (s.files.get? path)
      | .error e => .error (.store e) := by
  unfold MemoryStore.got
  cases accepted : storePath t.path with
  | ok path =>
      rw [runOn_get rfl none resolved accepted, MemoryStore.file?_eq accepted]
      rfl
  | error e =>
      have faultless : s.withoutFaults.faults = [] := rfl
      rw [runOn_get_of_answer resolved (MemoryStore.call_of_refused faultless accepted)]
      simp only [Target.seenIn, heard, isNotFound_of_storePath_eq_error accepted, Bool.false_eq_true, if_false]

theorem got_of_unresolved (s : MemoryStore) {key : RecordKey} {e : RecordError} (unresolved : Target.resolve d key = .error e) :
    s.got d key = .error e := by
  simp only [MemoryStore.got, Session.get, unresolved, bind_eq, ofExcept_eq]
  rfl

/-! ### A fault that hides nothing -/

/-- A collection in which every record has a JSON file of its own. -/
def plainTags : Definition :=
  .add .empty ⟨"tags", "tags", some ⟨Path.placeholder ++ ".json", "json", .single⟩, .empty⟩

/-- A store without files that answers its next request that there is no such file. -/
def forgetfulStore : MemoryStore := MemoryStore.empty.failNext (.notFound "tags/a.json")

/-- A set succeeds behind the fault; a deletion and a listing fail. -/
theorem sameTree_of_failed_and_changedBy_of_done_forgetful :
    let d := some plainTags
    let s := forgetfulStore
    let deletion : Invocation := ⟨none, .delete ⟨"tags", "a"⟩⟩
    let set : Invocation := ⟨some "ann", .put .set ⟨"tags", "a"⟩ (.object [])⟩
    ((deletion.program d).runOn MemoryStore.call s).1 = .error (.notFound ⟨"tags", "a"⟩) ∧
      s.SameTree ((deletion.program d).runOn MemoryStore.call s).2 ∧
      (((⟨d, none⟩ : Session).listFiles "tags").runOn MemoryStore.call s).1 =
        .error (.store (.notFound "tags/a.json")) ∧
      s.SameTree (((⟨d, none⟩ : Session).listFiles "tags").runOn MemoryStore.call s).2 ∧
      ((set.program d).runOn MemoryStore.call s).1 = .ok .changed ∧
      ((set.program d).runOn MemoryStore.call s.withoutFaults).1 = .ok .changed ∧
      ((set.program d).runOn MemoryStore.call s.withoutFaults).2.files =
        ((set.program d).runOn MemoryStore.call s).2.files ∧
      ∃ t path change,
        Target.resolve d ⟨"tags", "a"⟩ = .ok t ∧ storePath t.path = .ok path ∧ change.path = path ∧
          change.message = changeMessage .set ⟨"tags", "a"⟩ (some "ann") ∧
          change.kind = set.operation.changeKind t.layout ∧
          s.ChangedBy ((set.program d).runOn MemoryStore.call s).2 change ∧
          s.withoutFaults.ChangedBy ((set.program d).runOn MemoryStore.call s.withoutFaults).2 change := by
  intro d s deletion set
  have refused : ((deletion.program d).runOn MemoryStore.call s).1 = .error (.notFound ⟨"tags", "a"⟩) := by
    decide
  have unlisted : (((⟨d, none⟩ : Session).listFiles "tags").runOn MemoryStore.call s).1 =
      .error (.store (.notFound "tags/a.json")) := by
    decide
  have done : ((set.program d).runOn MemoryStore.call s).1 = .ok .changed := by decide
  obtain ⟨operations, listings, changes⟩ := sameTree_of_failed_and_changedBy_of_done d s
  exact ⟨refused, operations deletion _ refused, unlisted, listings none "tags" _ unlisted, done,
    changes set .set .changed rfl done⟩

end RecordTree
