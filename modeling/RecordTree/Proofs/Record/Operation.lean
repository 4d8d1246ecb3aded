import RecordTree.Proofs.Record.Program
import RecordTree.Proofs.Record.Target
import RecordTree.Proofs.Value
import RecordTree.Record.Session

/-!
# Operations on records

The operations on records in one form. An operation that passes its checks has a `Plan`: it looks at the
one file of its record (`Look`), and from the content alone it decides what comes next (`Decision`): it is
over, or it submits one edit of that file under the revision that it has read. A plan that may come to an
edit reads the revision, and one that never does only peeks. `Invocation.program_eq` says that the
operations of a session do exactly this.
-/

namespace RecordTree

open Program

/-- What is asked of a database. -/
inductive Operation where
  | get (key : RecordKey)
  | put (mode : PutMode) (key : RecordKey) (data : Value)
  | delete (key : RecordKey)

/-- The record that an operation is about. -/
def Operation.key : Operation → RecordKey
  | get key => key
  | put _ key _ => key
  | delete key => key

/-- What an operation answers when it succeeds. -/
inductive Reply where
  /-- The fields of the record, if it is there. -/
  | seen (fields : Option Fields)
  | changed
  deriving DecidableEq

/-- What comes of an operation. -/
abbrev Result := Except RecordError Reply

/-- An operation, and the author of what it changes. -/
structure Invocation where
  author : Option String
  operation : Operation

/-- The program of an invocation in a database with the given definition. -/
def Invocation.program (d : Option Definition) (i : Invocation) : Program Reply :=
  let session : Session := ⟨d, i.author⟩
  match i.operation with
  | .get key => return .seen (← session.get key)
  | .put mode key data => do session.put mode key data; return .changed
  | .delete key => do session.delete key; return .changed

/-! ### Looks -/

/-- What a reader makes of an answer: a file that the store does not find is not there. -/
def heard {α : Type} : Except StoreError (Option α) → Except StoreError (Option α)
  | .ok x => .ok x
  | .error e => if e.isNotFound then .ok none else .error e

/-- A reader goes on with what it has heard, unless it has failed or its caller has given up. -/
theorem Program.found_answered {α : Type} (x : Except StoreError (Option α)) :
    found (.answered x) = done ((heard x).mapError .store) := by
  cases x with
  | ok x => rfl
  | error e =>
    simp only [found, heard]
    cases e.isNotFound <;> rfl

/-- How an operation looks at the file of its record: it asks for the content alone, or for the revision too. -/
inductive Look where
  | peek
  | read
  deriving DecidableEq

namespace Look

/-- The request by which a file is looked at. -/
def request (path : String) : Look → Request
  | peek => .peek path
  | read => .read path

/-- What is seen of the file. Who peeks is not told the revision, and takes the one of the content. -/
def seen (path : String) : (l : Look) → Except StoreError (l.request path).Answer → Except StoreError (Option Snapshot)
  | peek, answer => (heard answer).map (Option.map .ofContent)
  | read, answer => heard answer

/-- Looks at a file. -/
def program (path : String) : Look → Program (Option Snapshot)
  | peek => (Program.peek path).bind fun content => done (.ok (content.map .ofContent))
  | read => Program.read path

@[simp] theorem request_path (l : Look) (path : String) : (l.request path).path = path := by
  cases l <;> rfl

/-- A file that the store does not find is seen to be none, and any other error is heard. -/
theorem seen_error (l : Look) (path : String) (e : StoreError) :
    l.seen path (.error e) = if e.isNotFound then .ok none else .error e := by
  cases l with
  | peek =>
    simp only [seen, heard]
    cases e.isNotFound <;> rfl
  | read => rfl

/-- To look at a file takes one request. -/
theorem program_eq_call (l : Look) (path : String) :
    l.program path = .call (l.request path) fun
      | .notStarted => fail .cancelled
      | .abandoned => fail .cancelled
      | .answered x => done ((l.seen path x).mapError .store) := by
  cases l with
  | peek =>
    have answered : ∀ x : Except StoreError (Option ByteArray),
        ((found (.answered x)).bind fun content => done (.ok (content.map Snapshot.ofContent))) =
          done (((heard x).map (Option.map Snapshot.ofContent)).mapError .store) := by
      intro x
      rw [found_answered]
      cases heard x <;> rfl
    refine congrArg (Program.call (.peek path)) (funext fun outcome => ?_)
    cases outcome with
    | answered x => exact answered x
    | _ => rfl
  | read =>
    refine congrArg (Program.call (.read path)) (funext fun outcome => ?_)
    cases outcome with
    | answered x => exact found_answered x
    | _ => rfl

end Look

/-- How an operation looks at its file: a get has no use for the revision. -/
def Operation.look : Operation → Look
  | get _ => .peek
  | put _ _ _ => .read
  | delete _ => .read

/-! ### Plans -/

/-- What an operation does once it has looked at its file. -/
inductive Decision where
  /-- It is over, and nothing was changed. -/
  | answer (result : Result)
  /-- It changes the file. -/
  | edit (message : String) (e : Edit)

/-- Makes an edit that may have failed. -/
def Decision.ofEdit (message : String) : Except RecordError Edit → Decision
  | .ok e => edit message e
  | .error e => answer (.error e)

/-- An edit that is decided on has not failed. -/
theorem Decision.ofEdit_eq_edit_iff {said message : String} {x : Except RecordError Edit} {e : Edit} :
    ofEdit said x = edit message e ↔ said = message ∧ x = .ok e := by
  cases x <;> simp [ofEdit]

/-- What is answered in place of an edit is why it failed. -/
theorem Decision.ofEdit_eq_answer_iff {said : String} {x : Except RecordError Edit} {result : Result} :
    ofEdit said x = answer result ↔ ∃ e, x = .error e ∧ result = .error e := by
  cases x <;> simp [ofEdit, eq_comm]

/-- Submits an edit of the target's file under the revision that its maker has seen. -/
def Edit.submit (t : Target) (message : String) (expected : Revision) : Edit → Program Reply
  | write document =>
    (Program.write t.path message (t.codec.format.encode document) expected).bind fun _ =>
      done (.ok .changed)
  | remove => (Program.delete t.path message expected).bind fun _ => done (.ok .changed)

/-- An operation that has passed its checks. -/
structure Plan where
  target : Target
  look : Look
  /-- What to do, given the content of the target's file. -/
  decide : Option ByteArray → Decision
  /-- Nobody changes a file whose revision was not read. -/
  reads : ∀ content message e, decide content = .edit message e → look = .read

namespace Plan

/-- What a plan does after it has looked at its file. -/
def proceed (p : Plan) (snapshot : Option Snapshot) : Program Reply :=
  match p.decide (snapshot.map Snapshot.content) with
  | .answer result => done result
  | .edit message e => e.submit p.target message ((snapshot.map Snapshot.revision).getD .none)

/-- What a plan does with a content. -/
theorem proceed_ofContent (p : Plan) (content : Option ByteArray) :
    p.proceed (content.map .ofContent) =
      match p.decide content with
      | .answer result => done result
      | .edit message e => e.submit p.target message ((content.map Revision.ofContent).getD .none) := by
  cases content <;> rfl

/-- The program of a plan. -/
def program (p : Plan) : Program Reply := (p.look.program p.target.path).bind p.proceed

/-- The request by which a plan looks at its file. -/
def request (p : Plan) : Request := p.look.request p.target.path

@[simp] theorem request_path (p : Plan) : p.request.path = p.target.path := p.look.request_path _

/-- What a plan sees in the answer to its look. -/
def seen (p : Plan) (answer : Except StoreError p.request.Answer) : Except StoreError (Option Snapshot) :=
  p.look.seen p.target.path answer

theorem seen_error (p : Plan) (e : StoreError) :
    p.seen (.error e) = if e.isNotFound then .ok none else .error e :=
  p.look.seen_error _ e

/-- A plan looks at its file, and goes on unless the look has failed or its caller has given up. -/
theorem program_eq_call (p : Plan) :
    p.program = .call p.request fun
      | .notStarted => fail .cancelled
      | .abandoned => fail .cancelled
      | .answered x =>
        match p.seen x with
        | .ok snapshot => p.proceed snapshot
        | .error e => fail (.store e) := by
  rw [program, Look.program_eq_call]
  refine congrArg (Program.call p.request) (funext fun outcome => ?_)
  cases outcome with
  | answered x =>
    change (done ((p.seen x).mapError RecordError.store)).bind p.proceed = match p.seen x with
      | .ok snapshot => p.proceed snapshot
      | .error e => fail (.store e)
    cases p.seen x <;> rfl
  | _ => rfl

end Plan

/-- The plan of an invocation, unless its checks fail. -/
def Invocation.plan (d : Option Definition) (i : Invocation) : Except RecordError Plan :=
  match i.operation with
  | .get key => do
    let t ← Target.resolve d key
    return ⟨t, .peek, fun content => .answer ((t.seen content).map .seen), by simp⟩
  | .put mode key data => do
    let fields ← Session.payload key data
    let t ← Target.resolve d key
    let message := changeMessage mode.verb key i.author
    return ⟨t, .read, fun content => .ofEdit message (t.put mode fields content), by simp⟩
  | .delete key => do
    let t ← Target.resolve d key
    let message := changeMessage .delete key i.author
    return ⟨t, .read, fun content => .ofEdit message (t.removed content), by simp⟩

/-- A payload that passes its check has fields. -/
theorem fields?_of_payload {key : RecordKey} {data : Value} {fields : Fields}
    (payload : Session.payload key data = .ok fields) : data.fields? = some fields := by
  unfold Session.payload at payload
  split at payload
  · cases payload
    assumption
  · cases payload

/-- What a plan is made of: the target of the key, the operation's way to look at the file, and what the operation does
with a content. -/
theorem Invocation.plan_eq_ok {d : Option Definition} {i : Invocation} {p : Plan} (planned : i.plan d = .ok p) :
    Target.resolve d i.operation.key = .ok p.target ∧ p.look = i.operation.look ∧
      match i.operation with
      | .get _ => ∀ content, p.decide content = .answer ((p.target.seen content).map .seen)
      | .put mode key data =>
        ∃ fields, Session.payload key data = .ok fields ∧
          ∀ content, p.decide content =
            .ofEdit (changeMessage mode.verb key i.author) (p.target.put mode fields content)
      | .delete key =>
        ∀ content, p.decide content =
          .ofEdit (changeMessage .delete key i.author) (p.target.removed content) := by
  obtain ⟨author, operation⟩ := i
  cases operation with
  | get key =>
    obtain ⟨t, resolved, made⟩ := Target.exists_of_bind_eq_ok planned
    cases made
    exact ⟨resolved, rfl, fun _ => rfl⟩
  | put mode key data =>
    obtain ⟨fields, payload, planned⟩ := Target.exists_of_bind_eq_ok planned
    obtain ⟨t, resolved, made⟩ := Target.exists_of_bind_eq_ok planned
    cases made
    exact ⟨resolved, rfl, fields, payload, fun _ => rfl⟩
  | delete key =>
    obtain ⟨t, resolved, made⟩ := Target.exists_of_bind_eq_ok planned
    cases made
    exact ⟨resolved, rfl, fun _ => rfl⟩

/-- What is planned when fields are put. -/
theorem Invocation.plan_put {d : Option Definition} {key : RecordKey} {t : Target}
    (resolved : Target.resolve d key = .ok t) (author : Option String) (mode : PutMode) (fields : Fields) :
    Invocation.plan d ⟨author, .put mode key (.ofFields fields)⟩ = .ok ⟨t, .read, fun content =>
      .ofEdit (changeMessage mode.verb key author) (t.put mode fields content), by simp⟩ := by
  simp only [plan, Session.payload, Value.fields?_ofFields, resolved]
  rfl

/-- To put a record never removes its file. -/
theorem Target.put_ne_remove (t : Target) (mode : PutMode) (fields : Fields) (content : Option ByteArray) :
    t.put mode fields content ≠ .ok .remove := by
  unfold put
  cases t.layout with
  | single => cases t.putSingle mode fields content <;> simp [Except.map]
  | shared => cases t.putShared mode fields content <;> simp [Except.map]

/-- No operation removes a file that is not there. -/
theorem Invocation.decide_none_ne_remove {d : Option Definition} {i : Invocation} {p : Plan}
    (planned : i.plan d = .ok p) (message : String) : p.decide none ≠ .edit message .remove := by
  obtain ⟨-, -, decides⟩ := i.plan_eq_ok planned
  cases operation : i.operation with
  | get key =>
    rw [operation] at decides
    simp [decides]
  | put mode key data =>
    rw [operation] at decides
    obtain ⟨fields, -, decides⟩ := decides
    intro h
    cases edit : p.target.put mode fields none with
    | error e => simp [decides, edit, Decision.ofEdit] at h
    | ok e =>
      simp only [decides, edit, Decision.ofEdit, Decision.edit.injEq] at h
      exact Target.put_ne_remove _ _ _ _ (h.2 ▸ edit)
  | delete key =>
    rw [operation] at decides
    simp [decides, Target.removed, Decision.ofEdit]

/-- To change a file from its content is to proceed with the edit that the content calls for. -/
theorem mutate_bind_changed (t : Target) (message : String)
    (change : Option ByteArray → Except RecordError Edit) :
    ((Session.mutate t message change).bind fun _ => done (.ok Reply.changed)) =
      Plan.program ⟨t, .read, fun content => .ofEdit message (change content), by simp⟩ := by
  simp only [Session.mutate, Plan.program, Look.program, bind_eq, Program.bind_assoc]
  refine congrArg _ (funext fun snapshot => ?_)
  simp only [Plan.proceed]
  cases change (snapshot.map Snapshot.content) with
  | error e => rfl
  | ok e =>
    cases e with
    | write document => exact Program.bind_assoc _ _ _
    | remove => rfl

/-- **Every operation is its plan**: it fails without a request if its checks fail, and else it looks at one
file and submits at most one edit of it. -/
theorem Invocation.program_eq (d : Option Definition) (i : Invocation) :
    i.program d =
      match i.plan d with
      | .ok p => p.program
      | .error e => fail e := by
  obtain ⟨author, operation⟩ := i
  cases operation with
  | get key =>
    simp only [program, plan, Session.get]
    cases Target.resolve d key with
    | error e => rfl
    | ok t =>
      simp only [bind_eq, ofExcept_eq, done_ok_bind, Program.bind_assoc]
      refine .trans (congrArg _ (funext fun content => ?_)) (Program.bind_assoc (peek t.path) _ _).symm
      simp only [done_ok_bind, Plan.proceed_ofContent]
      cases t.seen content <;> rfl
  | put mode key data =>
    simp only [program, plan, Session.put]
    cases Session.payload key data with
    | error e => rfl
    | ok fields =>
      cases Target.resolve d key with
      | error e => rfl
      | ok t => exact mutate_bind_changed t _ _
  | delete key =>
    simp only [program, plan, Session.delete]
    cases Target.resolve d key with
    | error e => rfl
    | ok t => exact mutate_bind_changed t _ _

end RecordTree
