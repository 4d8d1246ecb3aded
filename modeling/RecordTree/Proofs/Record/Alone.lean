import RecordTree.Proofs.Record.Operation
import RecordTree.Proofs.Record.Target
import RecordTree.Proofs.Store.Memory

/-!
# Operations one at a time

What an operation does on a store in memory while nobody else uses the store. Without faults it comes to
a function of the content of one file: `Plan.runOn_program` gives the result and the store that is left.
`runAlone` runs operations one after the other.
-/

namespace RecordTree

open Program

/-! ### One look -/

/-- To look into a file is to hear what the store answers. -/
theorem Program.runOn_peek {σ : Type} (store : FileStore σ) (path : String) (s : σ) :
    (Program.peek path).runOn store s = ((heard (store (.peek path) s).1).mapError .store, (store (.peek path) s).2) :=
  congrArg (runOn store · (store (.peek path) s).2) (found_answered (store (.peek path) s).1)

namespace Plan

variable {s : MemoryStore} {q : String}

/-- To look at a file is to look it up. -/
theorem exists_answer (p : Plan) (faultless : s.faults = []) (accepted : storePath p.target.path = .ok q) :
    ∃ answer, MemoryStore.call p.request s = (answer, s) ∧ p.seen answer = .ok ((s.files.get? q).map .ofContent) := by
  obtain ⟨t, look, decide, reads⟩ := p
  cases look with
  | peek => exact ⟨_, MemoryStore.call_peek faultless accepted, rfl⟩
  | read => exact ⟨_, MemoryStore.call_read faultless accepted, rfl⟩

/-- To look at a refused path is to be told so. -/
theorem call_of_refused (p : Plan) (faultless : s.faults = []) {e : StoreError}
    (refused : storePath p.target.path = .error e) :
    MemoryStore.call p.request s = (.error e, s) ∧ p.seen (.error e) = .error e := by
  refine ⟨MemoryStore.call_of_refused faultless (p.request_path.symm ▸ refused), ?_⟩
  rw [seen_error, isNotFound_of_storePath_eq_error refused]
  rfl

end Plan

/-! ### One edit -/

namespace Edit

/-- Whether a store lets an edit pass that expects the given revision. -/
def check (q : String) (current : Option Revision) (expected : Revision) : Edit → Except StoreError Unit
  | write _ => checkWrite q current expected
  | remove => checkDelete q current expected

/-- The store after an edit. -/
def apply (f : Format) (q message : String) (expected : Revision) (s : MemoryStore) : Edit → MemoryStore
  | write document =>
    { s with
      files := s.files.insert q (f.encode document)
      history := s.history ++ [⟨q, message, .write, .ofContent (f.encode document)⟩] }
  | remove =>
    { s with
      files := s.files.erase q
      history := s.history ++ [⟨q, message, .delete, expected⟩] }

variable {f : Format} {q message : String} {expected : Revision} {s : MemoryStore}

@[simp] theorem apply_faults (e : Edit) : (e.apply f q message expected s).faults = s.faults := by
  cases e <;> rfl

/-- An edit changes its file and no other. -/
theorem get?_apply (e : Edit) (q' : String) :
    (e.apply f q message expected s).files.get? q' =
      if q' = q then e.content f else s.files.get? q' := by
  cases e with
  | write document => exact SortedMap.get?_insert ..
  | remove => exact SortedMap.get?_erase ..

/-- What an edit leaves in its file. -/
theorem file?_apply {path : String} (accepted : storePath path = .ok q) (e : Edit) :
    (e.apply f q message expected s).file? path = e.content f := by
  rw [MemoryStore.file?_eq accepted, get?_apply, if_pos rfl]

/-- An edit by one who has seen the file passes, unless it removes a file that is not there. -/
theorem check_current (e : Edit) (q : String) (content : Option ByteArray)
    (there : e = .remove → content.isSome) :
    e.check q (content.map .ofContent) ((content.map .ofContent).getD .none) = .ok () := by
  cases e with
  | write document => exact checkWrite_current q content
  | remove =>
    obtain ⟨c, rfl⟩ := Option.isSome_iff_exists.mp (there rfl)
    exact checkDelete_current q c

/-- To submit an edit is to have it checked and made. -/
theorem runOn_submit (e : Edit) (t : Target) (faultless : s.faults = [])
    (path : storePath t.path = .ok q) :
    (e.submit t message expected).runOn MemoryStore.call s =
      match e.check q (s.revision? q) expected with
      | .error x => (.error (.store x), s)
      | .ok () => (.ok .changed, e.apply t.codec.format q message expected s) := by
  cases e with
  | write document =>
    simp only [submit, Program.write, call_bind, runOn_call,
      MemoryStore.call_of_faultless faultless, MemoryStore.fulfil, path, check]
    cases checkWrite q (s.revision? q) expected <;> rfl
  | remove =>
    simp only [submit, Program.delete, call_bind, runOn_call,
      MemoryStore.call_of_faultless faultless, MemoryStore.fulfil, path, check]
    cases checkDelete q (s.revision? q) expected <;> rfl

end Edit

/-! ### One operation -/

namespace Plan

variable {s : MemoryStore} {q : String}

/-- A plan whose path is refused fails, and changes nothing. -/
theorem runOn_program_of_refused (p : Plan) (faultless : s.faults = []) {e : StoreError}
    (path : storePath p.target.path = .error e) :
    p.program.runOn MemoryStore.call s = (.error (.store e), s) := by
  obtain ⟨answered, told⟩ := p.call_of_refused faultless path
  simp only [program_eq_call, runOn_call, answered, told]
  rfl

/-- A plan proceeds with what its file holds. -/
theorem runOn_program (p : Plan) (faultless : s.faults = []) (path : storePath p.target.path = .ok q) :
    p.program.runOn MemoryStore.call s =
      (p.proceed ((s.files.get? q).map .ofContent)).runOn MemoryStore.call s := by
  obtain ⟨answer, answered, shown⟩ := p.exists_answer faultless path
  simp only [program_eq_call, runOn_call, answered, shown]

/-- **What a plan does**, given the content of its file: it is over, or it makes its edit. -/
theorem runOn_program_eq (p : Plan) (faultless : s.faults = []) (path : storePath p.target.path = .ok q)
    (there : ∀ message, p.decide none ≠ .edit message .remove) :
    p.program.runOn MemoryStore.call s =
      match p.decide (s.files.get? q) with
      | .answer result => (result, s)
      | .edit message e =>
        (.ok .changed,
          e.apply p.target.codec.format q message ((s.revision? q).getD .none) s) := by
  rw [runOn_program p faultless path, proceed_ofContent]
  cases decided : p.decide (s.files.get? q) with
  | answer result => rfl
  | edit message e =>
    have present : e = .remove → (s.files.get? q).isSome := by
      rintro rfl
      cases found : s.files.get? q with
      | none => exact absurd (found ▸ decided) (there message)
      | some c => rfl
    simp only [e.runOn_submit p.target faultless path, MemoryStore.revision?, e.check_current q _ present]

end Plan

/-- **What an operation does** that has passed its checks. -/
theorem Invocation.runOn_program {d : Option Definition} {i : Invocation} {p : Plan} {s : MemoryStore}
    {path : String} (faultless : s.faults = []) (planned : i.plan d = .ok p)
    (accepted : storePath p.target.path = .ok path) :
    (i.program d).runOn MemoryStore.call s =
      match p.decide (s.file? p.target.path) with
      | .answer result => (result, s)
      | .edit message e =>
        (.ok .changed,
          e.apply p.target.codec.format path message ((s.revision? path).getD .none) s) := by
  rw [i.program_eq, planned, MemoryStore.file?_eq accepted]
  exact p.runOn_program_eq faultless accepted (i.decide_none_ne_remove planned)

/-- What a get of a record makes of the answer to the look into its file. -/
def Target.seenIn (t : Target) (answer : Except StoreError (Option ByteArray)) : Except RecordError (Option Fields) :=
  match heard answer with
  | .ok content => t.seen content
  | .error e => .error (.store e)

/-- A get of a record looks into one file, on any store. -/
theorem runOn_get_of_answer {σ : Type} {store : FileStore σ} {session : Session} {key : RecordKey} {t : Target}
    {s s' : σ} {answer : Except StoreError (Option ByteArray)}
    (resolved : Target.resolve session.definition key = .ok t) (answered : store (.peek t.path) s = (answer, s')) :
    (session.get key).runOn store s = (t.seenIn answer, s') := by
  simp only [Session.get, resolved, bind_eq, ofExcept_eq, done_ok_bind, runOn_bind, runOn_peek, answered, Target.seenIn]
  cases heard answer <;> rfl

/-- A get answers what is seen in the file of its record. -/
theorem runOn_get {d : Option Definition} {s : MemoryStore} (faultless : s.faults = []) (author : Option String)
    {key : RecordKey} {t : Target} (resolved : Target.resolve d key = .ok t) {path : String}
    (accepted : storePath t.path = .ok path) :
    ((⟨d, author⟩ : Session).get key).runOn MemoryStore.call s = (t.seen (s.file? t.path), s) := by
  rw [MemoryStore.file?_eq accepted, runOn_get_of_answer resolved (MemoryStore.call_peek faultless accepted)]
  rfl

/-- The document that an operation writes, if it writes one, and the format of it. -/
def Invocation.written (d : Option Definition) (s : MemoryStore) (i : Invocation) : Option (Format × Value) :=
  match i.plan d with
  | .error _ => none
  | .ok p =>
    match p.decide (s.file? p.target.path) with
    | .edit _ (.write document) => some (p.target.codec.format, document)
    | _ => none

/-- An operation writes the document that it has decided on, so the edit is faithful if what is written is read back. -/
theorem Invocation.faithful_of_decide {d : Option Definition} {i : Invocation} {p : Plan} {s : MemoryStore}
    (planned : i.plan d = .ok p) {message : String} {edit : Edit}
    (decided : p.decide (s.file? p.target.path) = .edit message edit)
    (faithful : ∀ w ∈ i.written d s, w.1.decode (w.1.encode w.2) = .ok w.2) :
    edit.Faithful p.target.codec.format := by
  cases edit with
  | remove => trivial
  | write document =>
      refine faithful (p.target.codec.format, document) ?_
      simp [written, planned, decided]

/-! ### Many operations -/

/-- Runs operations one after the other, each without interruption. -/
def runAlone (d : Option Definition) : List Invocation → MemoryStore → List Result × MemoryStore
  | [], s => ([], s)
  | i :: rest, s =>
    let (result, s) := (i.program d).runOn MemoryStore.call s
    let (results, s) := runAlone d rest s
    (result :: results, s)

theorem runAlone_append_singleton (d : Option Definition) (past : List Invocation) (i : Invocation)
    (s : MemoryStore) :
    runAlone d (past ++ [i]) s =
      let (results, s) := runAlone d past s
      let (result, s) := (i.program d).runOn MemoryStore.call s
      (results ++ [result], s) := by
  induction past generalizing s with
  | nil => rfl
  | cons first rest ih => simp only [List.cons_append, runAlone, ih]

end RecordTree
