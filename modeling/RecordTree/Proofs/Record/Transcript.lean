import RecordTree.Proofs.Record.Faults
import RecordTree.Proofs.Record.Interleaving

/-!
# What operations ask of a store

The transcript of a run lists the requests that a program makes, with what the store answers to each
(`Program.exchanges`). Nothing is assumed of the store: its answers may contradict each other and the revisions
that it hands out may be anything.

A get that has passed its checks peeks at the one file of its record, and that is all. Any other operation reads the
file with its revision; after that it is over, or it asks for one change of that file under the very revision that it
was told, and what the store answers is the end of it (`Invocation.exchanges_of_passes`). That a store does not find
the file means that there is none, but only to the first look.
-/

namespace RecordTree

/-! ### What a put writes -/

/-- What an insertion writes is what a set would write. -/
theorem Target.put_set_of_put {t : Target} {mode : PutMode} {fields : Fields} {content : Option ByteArray}
    {edit : Edit} (put : t.put mode fields content = .ok edit) : t.put .set fields content = .ok edit := by
  have always : ∀ there : Bool, ¬(PutMode.set = .insert ∧ there) := fun _ both => by cases both.1
  unfold Target.put at put ⊢
  cases layout : t.layout with
  | single =>
      simp only [layout, putSingle, always, ↓reduceIte] at put ⊢
      by_cases present : mode = .insert ∧ content.isSome
      · rw [if_pos present] at put
        cases put
      · rwa [if_neg present] at put
  | shared =>
      simp only [layout, putShared, always, ↓reduceIte] at put ⊢
      cases decodes : t.decodeRecords content with
      | error e =>
          rw [decodes] at put
          cases put
      | ok records =>
          simp only [decodes, bind, Except.bind] at put ⊢
          by_cases present : mode = .insert ∧ (records.get? t.key.id).isSome
          · rw [if_pos present] at put
            cases put
          · rwa [if_neg present] at put

open Program

/-! ### Transcripts -/

/-- A request, and what a store answers to it. -/
structure Exchange where
  request : Request
  answer : Except StoreError request.Answer

/-- The requests that a program makes of a store, with what it answers. -/
def Program.exchanges {α σ : Type} (store : FileStore σ) : Program α → σ → List Exchange
  | .done _, _ => []
  | .call r next, s =>
    ⟨r, (store r s).1⟩ :: (next (.answered (store r s).1)).exchanges store (store r s).2

/-! ### What a caller makes of an answer -/

/-- What a caller is told of a change that a store has answered to. -/
def told {α : Type} : Except StoreError α → Result
  | .ok _ => .ok .changed
  | .error e => .error (.store e)

/-- An edit is one request. Whoever gives up before it is made has changed nothing, and whoever gives up later
does not know. -/
theorem Edit.submit_eq (edit : Edit) (t : Target) (message : String) (expected : Revision) :
    edit.submit t message expected = .call (edit.request t message expected) fun
      | .notStarted => fail .cancelled
      | .abandoned => fail (.outcomeUnknown t.path edit.kind)
      | .answered x => .done (told x) := by
  cases edit with
  | write document =>
      refine congrArg (Program.call ((Edit.write document).request t message expected)) (funext fun outcome => ?_)
      cases outcome with
      | answered x => cases x <;> rfl
      | _ => rfl
  | remove =>
      refine congrArg (Program.call (Edit.remove.request t message expected)) (funext fun outcome => ?_)
      cases outcome with
      | answered x => cases x <;> rfl
      | _ => rfl

/-! ### What follows a read -/

/-- All that can follow once an operation has read its file with the revision: the further exchanges, and the result.
What it decides comes from the content, and the revision is passed on as it was told. -/
inductive Sequel (i : Invocation) (t : Target) (seen : Option Snapshot) : List Exchange → Result → Prop where
  /-- A put is over, because the record must not be there or the file cannot be read. -/
  | unput {mode : PutMode} {key : RecordKey} {data : Value} {fields : Fields} {e : RecordError}
      (operation : i.operation = .put mode key data) (payload : Session.payload key data = .ok fields)
      (put : t.put mode fields (seen.map Snapshot.content) = .error e) :
      Sequel i t seen [] (.error e)
  /-- A put writes the file. An insertion writes the document that a set would write. -/
  | put {mode : PutMode} {key : RecordKey} {data document : Value} {fields : Fields}
      (operation : i.operation = .put mode key data) (payload : Session.payload key data = .ok fields)
      (put : t.put mode fields (seen.map Snapshot.content) = .ok (.write document))
      (alike : t.put .set fields (seen.map Snapshot.content) = .ok (.write document))
      (answer : Except StoreError Revision) :
      Sequel i t seen
        [⟨.write t.path (changeMessage mode.verb key i.author) (t.codec.format.encode document)
          ((seen.map Snapshot.revision).getD .none), answer⟩]
        (told answer)
  /-- Without a file there is nothing to delete. -/
  | absent {key : RecordKey} (operation : i.operation = .delete key) (absent : seen = none) :
      Sequel i t seen [] (.error (.notFound key))
  /-- A deletion is over, because the record is not in its file or the file cannot be read. -/
  | undeleted {key : RecordKey} {snapshot : Snapshot} {e : RecordError} (operation : i.operation = .delete key)
      (there : seen = some snapshot) (shared : t.layout = .shared)
      (removed : t.removed (some snapshot.content) = .error e) :
      Sequel i t seen [] (.error e)
  /-- The deletion of a record with a file of its own removes the file, whatever is in it. -/
  | deleted {key : RecordKey} {snapshot : Snapshot} (operation : i.operation = .delete key)
      (there : seen = some snapshot) (single : t.layout = .single) (answer : Except StoreError Unit) :
      Sequel i t seen
        [⟨.delete t.path (changeMessage .delete key i.author) snapshot.revision, answer⟩] (told answer)
  /-- The deletion of a record in a shared file writes the file, even if no record is left. -/
  | erased {key : RecordKey} {snapshot : Snapshot} {document : Value} (operation : i.operation = .delete key)
      (there : seen = some snapshot) (shared : t.layout = .shared)
      (removed : t.removed (some snapshot.content) = .ok (.write document))
      (answer : Except StoreError Revision) :
      Sequel i t seen
        [⟨.write t.path (changeMessage .delete key i.author) (t.codec.format.encode document)
          snapshot.revision, answer⟩]
        (told answer)

variable {σ : Type} (store : FileStore σ) (s : σ)

/-- A plan that is over once it has read makes no further exchange. -/
theorem Plan.transcript_of_answer {p : Plan} (seen : Option Snapshot) {result : Result}
    (decided : p.decide (seen.map Snapshot.content) = .answer result) :
    (p.proceed seen).exchanges store s = [] ∧ ((p.proceed seen).runOn store s).1 = result := by
  rw [proceed, decided]
  exact ⟨rfl, rfl⟩

/-- A plan that makes an edit makes one further exchange, and its answer is the result. -/
theorem Plan.transcript_of_edit {p : Plan} (seen : Option Snapshot) {message : String} {edit : Edit}
    (decided : p.decide (seen.map Snapshot.content) = .edit message edit) :
    ∃ answer,
      (p.proceed seen).exchanges store s =
          [⟨edit.request p.target message ((seen.map Snapshot.revision).getD .none), answer⟩] ∧
        ((p.proceed seen).runOn store s).1 = told answer := by
  simp only [proceed, decided, edit.submit_eq]
  exact ⟨_, rfl, rfl⟩

/-- A plan that peeks and is over makes one exchange. -/
theorem Plan.transcript_of_peek {p : Plan} (look : p.look = .peek) {result : Option ByteArray → Result}
    (decides : ∀ content, p.decide content = .answer (result content)) :
    p.program.exchanges store s = [⟨.peek p.target.path, (store (.peek p.target.path) s).1⟩] ∧
      (p.program.runOn store s).1 =
        match heard (store (.peek p.target.path) s).1 with
        | .ok content => result content
        | .error e => .error (.store e) := by
  obtain ⟨t, _, decide, reads⟩ := p
  cases look
  change ∀ content, decide content = _ at decides
  simp only [program_eq_call, runOn_call, exchanges, request, Look.request, seen, Look.seen]
  cases heard (store (.peek t.path) s).1 with
  | error e => exact ⟨rfl, rfl⟩
  | ok content =>
      simp only [Except.map, proceed_ofContent, decides]
      exact ⟨rfl, rfl⟩

/-- **What follows a read**: the operation is over, or it makes one more exchange. -/
theorem Plan.sequel_proceed {d : Option Definition} {i : Invocation} {p : Plan} (planned : i.plan d = .ok p)
    (look : p.look = .read) (seen : Option Snapshot) :
    Sequel i p.target seen ((p.proceed seen).exchanges store s) ((p.proceed seen).runOn store s).1 := by
  obtain ⟨resolved, looks, decides⟩ := i.plan_eq_ok planned
  have own := Target.key_of_resolve resolved
  cases operation : i.operation with
  | get key =>
      rw [looks, operation] at look
      cases look
  | put mode key data =>
      rw [operation] at decides
      obtain ⟨fields, payload, decides⟩ := decides
      have decided := decides (seen.map Snapshot.content)
      cases put : p.target.put mode fields (seen.map Snapshot.content) with
      | error e =>
          rw [put] at decided
          obtain ⟨exchanges, result⟩ := Plan.transcript_of_answer store s seen decided
          rw [exchanges, result]
          exact .unput operation payload put
      | ok edit =>
          rw [put] at decided
          obtain ⟨answer, exchanges, result⟩ := Plan.transcript_of_edit store s seen decided
          rw [exchanges, result]
          cases edit with
          | remove => exact absurd put (Target.put_ne_remove _ _ _ _)
          | write document => exact .put operation payload put (Target.put_set_of_put put) answer
  | delete key =>
      rw [operation] at decides own
      have decided := decides (seen.map Snapshot.content)
      cases seen with
      | none =>
          obtain ⟨exchanges, result⟩ := Plan.transcript_of_answer store s none decided
          rw [exchanges, result, own]
          exact .absent operation rfl
      | some snapshot =>
          rw [Option.map_some] at decided
          cases removed : p.target.removed (some snapshot.content) with
          | error e =>
              rw [removed] at decided
              obtain ⟨exchanges, result⟩ := Plan.transcript_of_answer store s (some snapshot) decided
              rw [exchanges, result]
              cases layout : p.target.layout with
              | single => simp [Target.removed, layout] at removed
              | shared => exact .undeleted operation rfl layout removed
          | ok edit =>
              rw [removed] at decided
              obtain ⟨answer, exchanges, result⟩ := Plan.transcript_of_edit store s (some snapshot) decided
              rw [exchanges, result]
              have kind := Target.removed_eq_ok removed
              cases layout : p.target.layout with
              | single =>
                  simp only [layout, ↓reduceIte] at kind
                  cases edit with
                  | write document => cases kind
                  | remove => exact .deleted operation rfl layout answer
              | shared =>
                  simp only [layout, reduceCtorEq, ↓reduceIte] at kind
                  cases edit with
                  | write document => exact .erased operation rfl layout removed answer
                  | remove => cases kind

/-- A plan that reads the revision makes one exchange, and goes on with what it has heard. -/
theorem Plan.sequel_program {d : Option Definition} {i : Invocation} {p : Plan} (planned : i.plan d = .ok p)
    (look : p.look = .read) :
    ∃ answer, (store (.read p.target.path) s).1 = answer ∧
      match heard answer with
      | .error e =>
        p.program.exchanges store s = [⟨.read p.target.path, answer⟩] ∧ (p.program.runOn store s).1 = .error (.store e)
      | .ok seen =>
        ∃ rest, p.program.exchanges store s = ⟨.read p.target.path, answer⟩ :: rest ∧
          Sequel i p.target seen rest (p.program.runOn store s).1 := by
  have goes_on := fun snapshot s => p.sequel_proceed store s planned look snapshot
  obtain ⟨t, _, decide, reads⟩ := p
  cases look
  refine ⟨_, rfl, ?_⟩
  simp only [program_eq_call, runOn_call, exchanges, request, Look.request, Plan.seen, Look.seen]
  cases heard (store (.read t.path) s).1 with
  | error e => exact ⟨rfl, rfl⟩
  | ok snapshot => exact ⟨_, rfl, goes_on snapshot _⟩

/-- An invocation passes its checks: its key leads to the target, and its payload is a mapping. -/
structure Invocation.Passes (d : Option Definition) (i : Invocation) (t : Target) : Prop where
  resolves : Target.resolve d i.operation.key = .ok t
  payload : ∀ mode key data, i.operation = .put mode key data → ∃ fields, Session.payload key data = .ok fields

/-- An invocation that passes its checks has a plan for its target. -/
theorem Invocation.Passes.exists_plan {d : Option Definition} {i : Invocation} {t : Target}
    (passes : i.Passes d t) : ∃ p, i.plan d = .ok p ∧ p.target = t := by
  obtain ⟨resolves, payload⟩ := passes
  obtain ⟨author, operation⟩ := i
  cases operation with
  | put mode key data =>
      change Target.resolve d key = .ok t at resolves
      obtain ⟨fields, payload⟩ := payload mode key data rfl
      simp only [plan, payload, resolves]
      exact ⟨_, rfl, rfl⟩
  | get key =>
      change Target.resolve d key = .ok t at resolves
      simp only [plan, resolves]
      exact ⟨_, rfl, rfl⟩
  | delete key =>
      change Target.resolve d key = .ok t at resolves
      simp only [plan, resolves]
      exact ⟨_, rfl, rfl⟩

/-- **What an operation asks of a store**, whatever the store answers. A get that passes its checks peeks at the file of
its record, and comes to what is seen there. Any other operation reads the file with its revision. If the read fails,
the operation is over and its result is the store's error; else there follows what `Sequel` allows, and a file that
the store does not find is none. -/
theorem Invocation.exchanges_of_passes {d : Option Definition} {i : Invocation} {t : Target}
    (passes : i.Passes d t) :
    match i.operation with
    | .get _ =>
      ∃ answer, (store (.peek t.path) s).1 = answer ∧
        (i.program d).exchanges store s = [⟨.peek t.path, answer⟩] ∧
          ((i.program d).runOn store s).1 = (t.seenIn answer).map .seen
    | _ =>
      ∃ answer, (store (.read t.path) s).1 = answer ∧
        match heard answer with
        | .error e =>
          (i.program d).exchanges store s = [⟨.read t.path, answer⟩] ∧
            ((i.program d).runOn store s).1 = .error (.store e)
        | .ok seen =>
          ∃ rest, (i.program d).exchanges store s = ⟨.read t.path, answer⟩ :: rest ∧
            Sequel i t seen rest ((i.program d).runOn store s).1 := by
  obtain ⟨p, planned, rfl⟩ := passes.exists_plan
  have program : i.program d = p.program := by rw [i.program_eq, planned]
  obtain ⟨-, look, decides⟩ := i.plan_eq_ok planned
  rw [program]
  cases operation : i.operation with
  | get key =>
      rw [operation] at look decides
      obtain ⟨made, result⟩ := Plan.transcript_of_peek store s look decides
      refine ⟨_, rfl, made, result.trans ?_⟩
      unfold Target.seenIn
      cases heard (store (.peek p.target.path) s).1 <;> rfl
  | put mode key data => exact p.sequel_program store s planned (look.trans (congrArg Operation.look operation))
  | delete key => exact p.sequel_program store s planned (look.trans (congrArg Operation.look operation))

/-! ### A store that contradicts itself -/

/-- A file with one tag, under a revision that is not that of its content. -/
def mislabelledTag : Snapshot := ⟨"\x7b\"a\": \x7b\x7d\x7d".toUTF8, ⟨"first"⟩⟩

/-- A store that shows a file, and does not find it when it is to be changed. It counts its requests. -/
def fickleStore : FileStore Nat
  | .peek _, n => (.ok (some mislabelledTag.content), n + 1)
  | .read _, n => (.ok (some mislabelledTag), n + 1)
  | .write path _ _ _, n => (.error (.notFound path), n + 1)
  | .delete path _ _, n => (.error (.notFound path), n + 1)
  | .list _, n => (.ok [], n + 1)

/-- A collection whose tags share a JSON file. -/
def commonTags : Definition :=
  .add .empty ⟨"tags", "tags", some ⟨"all.json", "json", .shared⟩, .empty⟩

/-- The deletion of the only tag writes an empty mapping under the revision that was told. A get of it is not told the
revision. -/
theorem Invocation.exchanges_of_passes_fickle :
    let i : Invocation := ⟨none, .delete ⟨"tags", "a"⟩⟩
    let get : Invocation := ⟨none, .get ⟨"tags", "a"⟩⟩
    let t : Target := ⟨⟨"tags", "a"⟩, "tags/all.json", .shared, ⟨.json, ⟨[]⟩⟩⟩
    i.Passes (some commonTags) t ∧ get.Passes (some commonTags) t ∧
      (get.program (some commonTags)).exchanges fickleStore 0 =
        [⟨.peek "tags/all.json", .ok (some mislabelledTag.content)⟩] ∧
      ∃ answer,
        (i.program (some commonTags)).exchanges fickleStore 0 =
            [⟨.read "tags/all.json", .ok (some mislabelledTag)⟩,
              ⟨.write "tags/all.json" "delete record tags/a" (Format.json.encode (.object [])) ⟨"first"⟩, answer⟩] ∧
          ((i.program (some commonTags)).runOn fickleStore 0).1 = told answer := by
  intro i get t
  have passes : i.Passes (some commonTags) t := by
    refine ⟨by decide, fun mode key data operation => ?_⟩
    cases operation
  have passes' : get.Passes (some commonTags) t := by
    refine ⟨by decide, fun mode key data operation => ?_⟩
    cases operation
  have removed : t.removed (some mislabelledTag.content) = .ok (.write (.object [])) := by
    have decoded : t.codec.decodeRecords mislabelledTag.content = .ok (SortedMap.empty.insert "a" .empty) := by
      decide +kernel
    have records := Target.decodeRecords_eq_ok.mpr decoded
    simp only [Target.removed, t, records]
    rfl
  obtain ⟨_, rfl, peeked, -⟩ := get.exchanges_of_passes fickleStore 0 passes'
  refine ⟨passes, passes', peeked, ?_⟩
  obtain ⟨_, rfl, rest, exchanges, sequel⟩ := i.exchanges_of_passes fickleStore 0 passes
  generalize ((i.program (some commonTags)).runOn fickleStore 0).1 = result at sequel ⊢
  cases sequel with
  | unput operation _ _ => cases operation
  | put operation _ _ _ _ => cases operation
  | absent _ none => cases none
  | undeleted _ there _ refused =>
      cases there
      cases removed.symm.trans refused
  | deleted _ _ single _ => cases single
  | @erased _ _ document operation there _ written answer =>
      cases operation
      cases there
      cases removed.symm.trans written
      exact ⟨answer, exchanges, rfl⟩

end RecordTree
