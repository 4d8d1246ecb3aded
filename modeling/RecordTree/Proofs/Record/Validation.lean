import RecordTree.Proofs.Record.Cancellation
import RecordTree.Proofs.Record.Target

/-!
# Requests that are refused unseen

An operation is checked before anything is asked of a store. What can be wrong with it is listed in `Flaw`, each flaw
on its own and with the error that tells of it: the payload of a put may be no mapping, and for each operation the key
may lead nowhere in the definition (`KeyFlaw`). Several flaws can come together, and then the one that is looked for
first is told (`FirstFlaw`).

An operation with a flaw is that error and nothing else, whoever answers its requests and whatever its caller's token
says; an operation without one asks the store for its file (`Invocation.refused_or_asks`).
-/

namespace RecordTree

open Program

/-! ### Flaws -/

/-- What can be wrong with a key in a definition. -/
inductive KeyFlaw (d : Option Definition) (key : RecordKey) : RecordError → Prop where
  /-- There is no definition. -/
  | definition (missing : d = none) : KeyFlaw d key .definitionMissing
  /-- The definition has no such collection. -/
  | collection {definition : Definition} (given : d = some definition)
    (unknown : definition.collection? key.collection = none) : KeyFlaw d key (.unknownCollection key.collection)
  | id (empty : key.id = "") : KeyFlaw d key (.emptyId key)
  /-- The collection does not say in which files its records are. -/
  | recordFile {c : Collection} (found : d.bind (·.collection? key.collection) = some c)
    (missing : c.recordFile = none) : KeyFlaw d key (.recordFileMissing c.id)
  /-- The records are declared as a list. -/
  | list {c : Collection} {f : RecordFile} (found : d.bind (·.collection? key.collection) = some c)
    (file : c.recordFile = some f) (list : f.type = .list) : KeyFlaw d key (.unsupportedType c.id .list)
  /-- The file that all records share has a placeholder in its name. -/
  | keyed {c : Collection} {f : RecordFile} (found : d.bind (·.collection? key.collection) = some c)
    (file : c.recordFile = some f) (shared : f.type = .shared) (keyed : f.isKeyed = true) :
    KeyFlaw d key (.keyedSharedFile c.id f.name)
  /-- The format is none that is known. -/
  | format {c : Collection} {f : RecordFile} (found : d.bind (·.collection? key.collection) = some c)
    (file : c.recordFile = some f) (unknown : Text.lowerAscii (Text.trim f.format) ∉ ["yaml", "yml", "json"]) :
    KeyFlaw d key (.format (Path.ofRecord c.dir f.name key.id) (.unsupported f.format))

/-- What can be wrong with an operation. -/
inductive Flaw (d : Option Definition) : Operation → RecordError → Prop where
  /-- The payload of a put is no mapping. -/
  | payload {mode : PutMode} {key : RecordKey} {data : Value} (unmapped : data.kind ≠ .object) :
    Flaw d (.put mode key data) (.invalidPayload key data.kind)
  | key {op : Operation} {e : RecordError} (flaw : KeyFlaw d op.key e) : Flaw d op e

/-- The order in which flaws are looked for. A record file is of one type, so that two flaws can have one place. -/
def RecordError.place : RecordError → Nat
  | .invalidPayload _ _ => 0
  | .definitionMissing => 1
  | .unknownCollection _ => 2
  | .emptyId _ => 3
  | .recordFileMissing _ => 4
  | .unsupportedType _ _ => 5
  | .keyedSharedFile _ _ => 5
  | _ => 6

/-- The flaw of an operation that is looked for first. -/
structure FirstFlaw (d : Option Definition) (op : Operation) (e : RecordError) : Prop where
  flaw : Flaw d op e
  first : ∀ e', Flaw d op e' → e.place ≤ e'.place

/-! ### Keys that lead nowhere -/

variable {d : Option Definition} {key : RecordKey} {c : Collection} {f : RecordFile} {e : RecordError}

theorem requireRecordFile_eq_error_iff :
    requireRecordFile c = .error e ↔ c.recordFile = none ∧ e = .recordFileMissing c.id := by
  rw [requireRecordFile]
  cases c.recordFile with
  | none => simpa using eq_comm
  | some f => simp

theorem resolveLayout_eq_error_iff :
    resolveLayout c f = .error e ↔
      (f.type = .list ∧ e = .unsupportedType c.id .list) ∨
        (f.type = .shared ∧ f.isKeyed = true ∧ e = .keyedSharedFile c.id f.name) := by
  rw [resolveLayout]
  cases f.type with
  | single => simp
  | list => simpa using eq_comm
  | shared =>
      cases f.isKeyed with
      | true => simpa using eq_comm
      | false => simp

theorem Codec.ofCollection_eq_error_iff {cause : FormatError} :
    Codec.ofCollection c f = .error cause ↔
      Text.lowerAscii (Text.trim f.format) ∉ ["yaml", "yml", "json"] ∧ cause = .unsupported f.format := by
  rw [Codec.ofCollection, Format.ofName]
  generalize Text.lowerAscii (Text.trim f.format) = name
  split_ifs with yaml json
  · have known : name ∈ ["yaml", "yml", "json"] := by
      rcases yaml with rfl | rfl <;> decide
    simp only [Except.map, known, reduceCtorEq, not_true_eq_false, false_and]
  · have known : name ∈ ["yaml", "yml", "json"] := by
      rw [json]
      decide
    simp only [Except.map, known, reduceCtorEq, not_true_eq_false, false_and]
  · have unknown : name ∉ ["yaml", "yml", "json"] := by
      simpa [and_assoc, not_or] using And.intro yaml json
    simp only [Except.map, unknown, Except.error.injEq, not_false_eq_true, true_and]
    exact eq_comm

/-- **A key that is refused has the flaw that is told.** -/
theorem KeyFlaw.of_resolve (refused : Target.resolve d key = .error e) : KeyFlaw d key e := by
  rcases Target.error_or_of_bind_eq_error refused with lost | ⟨c, collection, refused⟩
  · cases d with
    | none =>
        cases lost
        exact .definition rfl
    | some definition =>
        cases known : definition.collection? key.collection with
        | none =>
            rw [resolveCollection_of_unknown known] at lost
            cases lost
            exact .collection rfl known
        | some c =>
            rw [resolveCollection_of_found (Option.bind_eq_some_iff.mpr ⟨definition, rfl, known⟩)] at lost
            split_ifs at lost with empty
            cases lost
            exact .id empty
  · have found := (resolveCollection_eq_ok_iff.mp collection).1
    rcases Target.error_or_of_bind_eq_error refused with lost | ⟨f, file, refused⟩
    · obtain ⟨missing, rfl⟩ := requireRecordFile_eq_error_iff.mp lost
      exact .recordFile found missing
    · rw [requireRecordFile_eq_ok_iff] at file
      rcases Target.error_or_of_bind_eq_error refused with lost | ⟨layout, -, refused⟩
      · rcases resolveLayout_eq_error_iff.mp lost with ⟨list, rfl⟩ | ⟨shared, keyed, rfl⟩
        · exact .list found file list
        · exact .keyed found file shared keyed
      · cases codec : Codec.ofCollection c f with
        | ok codec' =>
            rw [codec] at refused
            cases refused
        | error cause =>
            rw [codec] at refused
            cases refused
            obtain ⟨unknown, rfl⟩ := Codec.ofCollection_eq_error_iff.mp codec
            exact .format found file unknown

/-- What comes of a key whose collection is not there. -/
theorem Target.resolve_of_unknown {definition : Definition}
    (unknown : definition.collection? key.collection = none) :
    resolve (some definition) key = .error (.unknownCollection key.collection) := by
  rw [resolve, resolveCollection_of_unknown unknown]
  rfl

/-- What comes of a key whose collection is there. -/
theorem Target.resolve_of_found (found : d.bind (·.collection? key.collection) = some c) :
    resolve d key =
      if key.id = "" then .error (.emptyId key)
      else do
        let f ← requireRecordFile c
        let path := Path.ofRecord c.dir f.name key.id
        let layout ← resolveLayout c f
        let codec ← (Codec.ofCollection c f).mapError (.format path)
        return { key, path, layout, codec } := by
  rw [resolve, resolveCollection_of_found found]
  split_ifs <;> rfl

/-- What comes of a key whose collection says in which files its records are. -/
theorem Target.resolve_of_file (found : d.bind (·.collection? key.collection) = some c)
    (file : c.recordFile = some f) :
    resolve d key =
      if key.id = "" then .error (.emptyId key)
      else do
        let layout ← resolveLayout c f
        let path := Path.ofRecord c.dir f.name key.id
        let codec ← (Codec.ofCollection c f).mapError (.format path)
        return { key, path, layout, codec } := by
  rw [resolve_of_found found, requireRecordFile_eq_ok_iff.mpr file]
  rfl

/-- **A key with a flaw is refused**, for this flaw or for one that is looked for earlier. -/
theorem KeyFlaw.exists_error (flaw : KeyFlaw d key e) :
    ∃ e', Target.resolve d key = .error e' ∧ e'.place ≤ e.place := by
  cases flaw with
  | definition missing =>
      subst missing
      exact ⟨_, rfl, Nat.le_refl _⟩
  | collection given unknown =>
      subst given
      exact ⟨_, Target.resolve_of_unknown unknown, Nat.le_refl _⟩
  | id empty =>
      cases d with
      | none => exact ⟨_, rfl, by simp [RecordError.place]⟩
      | some definition =>
          cases known : definition.collection? key.collection with
          | none => exact ⟨_, Target.resolve_of_unknown known, by simp [RecordError.place]⟩
          | some c =>
              rw [Target.resolve_of_found (Option.bind_eq_some_iff.mpr ⟨definition, rfl, known⟩), if_pos empty]
              exact ⟨_, rfl, Nat.le_refl _⟩
  | recordFile found missing =>
      rw [Target.resolve_of_found found, requireRecordFile_eq_error_iff.mpr ⟨missing, rfl⟩]
      split_ifs
      · exact ⟨_, rfl, by simp [RecordError.place]⟩
      · exact ⟨_, rfl, Nat.le_refl _⟩
  | list found file list =>
      rw [Target.resolve_of_file found file, resolveLayout_eq_error_iff.mpr (.inl ⟨list, rfl⟩)]
      split_ifs
      · exact ⟨_, rfl, by simp [RecordError.place]⟩
      · exact ⟨_, rfl, Nat.le_refl _⟩
  | keyed found file shared keyed =>
      rw [Target.resolve_of_file found file, resolveLayout_eq_error_iff.mpr (.inr ⟨shared, keyed, rfl⟩)]
      split_ifs
      · exact ⟨_, rfl, by simp [RecordError.place]⟩
      · exact ⟨_, rfl, Nat.le_refl _⟩
  | @format c f found file unknown =>
      rw [Target.resolve_of_file found file, Codec.ofCollection_eq_error_iff.mpr ⟨unknown, rfl⟩]
      split_ifs
      · exact ⟨_, rfl, by simp [RecordError.place]⟩
      · cases layout : resolveLayout c f with
        | error e' =>
            refine ⟨e', rfl, ?_⟩
            rcases resolveLayout_eq_error_iff.mp layout with ⟨-, rfl⟩ | ⟨-, -, rfl⟩
            · simp [RecordError.place]
            · simp [RecordError.place]
        | ok _ => exact ⟨_, rfl, Nat.le_refl _⟩

/-! ### Operations that are refused -/

theorem Session.payload_eq_error_iff {data : Value} :
    payload key data = .error e ↔ data.kind ≠ .object ∧ e = .invalidPayload key data.kind := by
  rw [payload]
  cases data with
  | object fields => simp [Value.fields?, Value.kind]
  | _ => simpa [Value.fields?, Value.kind] using eq_comm

variable {i : Invocation}

/-- **An operation whose checks fail has the flaw that is told.** -/
theorem Flaw.of_plan (refused : i.plan d = .error e) : Flaw d i.operation e := by
  obtain ⟨author, operation⟩ := i
  cases operation with
  | get key =>
      rcases Target.error_or_of_bind_eq_error refused with lost | ⟨t, -, planned⟩
      · exact .key (.of_resolve lost)
      · cases planned
  | put mode key data =>
      rcases Target.error_or_of_bind_eq_error refused with lost | ⟨fields, -, refused⟩
      · obtain ⟨unmapped, rfl⟩ := Session.payload_eq_error_iff.mp lost
        exact .payload unmapped
      · rcases Target.error_or_of_bind_eq_error refused with lost | ⟨t, -, planned⟩
        · exact .key (.of_resolve lost)
        · cases planned
  | delete key =>
      rcases Target.error_or_of_bind_eq_error refused with lost | ⟨t, -, planned⟩
      · exact .key (.of_resolve lost)
      · cases planned

/-- A payload that is no mapping is told before anything else is looked at. -/
theorem Invocation.plan_of_unmapped {mode : PutMode} {data : Value} (operation : i.operation = .put mode key data)
    (unmapped : data.kind ≠ .object) : i.plan d = .error (.invalidPayload key data.kind) := by
  have lost : Session.payload key data = .error (.invalidPayload key data.kind) :=
    Session.payload_eq_error_iff.mpr ⟨unmapped, rfl⟩
  simp only [plan, operation, lost]
  rfl

/-- The checks of an operation on a key that is refused fail, unless its payload is found to be flawed before. -/
theorem Invocation.plan_of_refused (refused : Target.resolve d i.operation.key = .error e) :
    i.plan d = .error e ∨ ∃ e', i.plan d = .error e' ∧ e'.place = 0 := by
  obtain ⟨author, operation⟩ := i
  cases operation with
  | get key =>
      left
      simp only [plan, show Target.resolve d key = .error e from refused]
      rfl
  | put mode key data =>
      cases payload : Session.payload key data with
      | error e' =>
          right
          obtain ⟨-, rfl⟩ := Session.payload_eq_error_iff.mp payload
          simp only [plan, payload]
          exact ⟨_, rfl, rfl⟩
      | ok fields =>
          left
          simp only [plan, payload, show Target.resolve d key = .error e from refused]
          rfl
  | delete key =>
      left
      simp only [plan, show Target.resolve d key = .error e from refused]
      rfl

/-- **The checks of an operation with a flaw fail**, for this flaw or for one that is looked for earlier. -/
theorem Flaw.exists_error (flaw : Flaw d i.operation e) : ∃ e', i.plan d = .error e' ∧ e'.place ≤ e.place := by
  obtain ⟨author, operation⟩ := i
  cases flaw with
  | payload unmapped => exact ⟨_, Invocation.plan_of_unmapped rfl unmapped, Nat.le_refl _⟩
  | key flaw =>
      obtain ⟨e', refused, earlier⟩ := flaw.exists_error
      rcases Invocation.plan_of_refused (i := ⟨author, operation⟩) refused with failed | ⟨first, failed, place⟩
      · exact ⟨e', failed, earlier⟩
      · exact ⟨first, failed, place ▸ Nat.zero_le _⟩

/-- What an operation whose checks fail is told is its first flaw. -/
theorem FirstFlaw.of_plan (refused : i.plan d = .error e) : FirstFlaw d i.operation e := by
  refine ⟨.of_plan refused, fun e' flaw => ?_⟩
  obtain ⟨first, failed, earlier⟩ := flaw.exists_error
  obtain rfl : e = first := by simpa [refused] using failed
  exact earlier

/-! ### What becomes of an operation -/

/-- An operation comes to an error unseen: whoever answers its requests, it makes none, and whatever its caller's
token says, the token is not looked at. -/
structure Invocation.RefusedUnseen (d : Option Definition) (i : Invocation) (e : RecordError) : Prop where
  run_eq : ∀ {σ : Type} (respond : Responder σ) (s : σ), (i.program d).run respond s = (.error e, s)
  after_eq : ∀ {σ : Type} (respond : SlowStore σ) (token : Nat → Bool) (s : σ) (n : Nat),
    (Ongoing.start (i.program d) s).after respond token n = ⟨fail e, false, s, 0, []⟩

/-- The first thing that an operation does is to look at a file: the request is there in every transcript, and it is
polled unless the caller has given up before. -/
structure Invocation.Asks (d : Option Definition) (i : Invocation) (path : String) : Prop where
  exchanges_eq : ∀ {σ : Type} (store : FileStore σ) (s : σ),
    ∃ answer rest, (i.program d).exchanges store s = ⟨i.operation.look.request path, answer⟩ :: rest
  polls_eq : ∀ {σ : Type} (respond : SlowStore σ) (token : Nat → Bool) (s : σ), token 0 = false → token 1 = false →
    ∃ answer, ((Ongoing.start (i.program d) s).after respond token 2).polls =
      [⟨i.operation.look.request path, answer⟩]

theorem Invocation.RefusedUnseen.of_plan (refused : i.plan d = .error e) : i.RefusedUnseen d e := by
  have program : i.program d = fail e := by rw [i.program_eq, refused]
  constructor
  · intro σ respond s
    rw [program]
    rfl
  · intro σ respond token s n
    rw [program]
    exact Ongoing.after_of_done rfl n

/-- A request is polled at the second look, unless the caller has given up. -/
theorem Ongoing.polls_after_two {α σ : Type} (respond : SlowStore σ) {token : Nat → Bool} (r : Request)
    (next : Outcome r.Answer → Program α) (s : σ) (first : token 0 = false) (second : token 1 = false) :
    ∃ answer, ((start (.call r next) s).after respond token 2).polls = [⟨r, answer⟩] := by
  have made : (start (.call r next) s).step respond token = ⟨.call r next, true, s, 1, []⟩ := by
    simp only [start, step, first, Bool.false_eq_true, ↓reduceIte]
  rw [after, after, after, made]
  rcases answered : respond r s with ⟨_ | x, s'⟩
  · exact ⟨none, by simp [step, second, answered]⟩
  · exact ⟨some x, by simp [step, second, answered]⟩

theorem Invocation.Asks.of_plan {p : Plan} (planned : i.plan d = .ok p) : i.Asks d p.target.path := by
  have program := i.program_eq d
  rw [planned] at program
  simp only [p.program_eq_call] at program
  have request : i.operation.look.request p.target.path = p.request := by rw [Plan.request, (i.plan_eq_ok planned).2.1]
  constructor <;> rw [request]
  · intro σ store s
    rw [program]
    exact ⟨_, _, rfl⟩
  · intro σ respond token s first second
    rw [program]
    exact Ongoing.polls_after_two respond _ _ s first second

/-- **Invalid operations are refused unseen, and all others ask the store.** An operation with a flaw comes to the
error of the flaw that is looked for first, and to nothing else, over every store and for every caller; a payload
that is no mapping is told before all that can be wrong with the key. An operation without a flaw looks at the file
of its record. -/
theorem Invocation.refused_or_asks (d : Option Definition) (i : Invocation) :
    ((∃ e, Flaw d i.operation e) → ∃ e, FirstFlaw d i.operation e ∧ i.RefusedUnseen d e) ∧
      (∀ mode key data, i.operation = .put mode key data → data.kind ≠ .object →
        i.RefusedUnseen d (.invalidPayload key data.kind)) ∧
      ((¬∃ e, Flaw d i.operation e) →
        ∃ t, Target.resolve d i.operation.key = .ok t ∧ i.Asks d t.path) := by
  refine ⟨fun ⟨e, flaw⟩ => ?_, fun mode key data operation unmapped => ?_, fun flawless => ?_⟩
  · obtain ⟨first, refused, -⟩ := flaw.exists_error
    exact ⟨first, .of_plan refused, .of_plan refused⟩
  · exact .of_plan (plan_of_unmapped operation unmapped)
  · cases planned : i.plan d with
    | error e => exact absurd ⟨e, .of_plan planned⟩ flawless
    | ok p => exact ⟨p.target, (i.plan_eq_ok planned).1, .of_plan planned⟩

/-- Without a definition and under an empty id, a set of nothing is told of its payload by every store in memory,
whatever faults it has in hand, and a get of the missing definition. With a definition, a get asks for its file. -/
theorem Invocation.refused_or_asks_tags :
    let set : Invocation := ⟨none, .put .set ⟨"tags", ""⟩ .null⟩
    let lost : Invocation := ⟨none, .get ⟨"tags", ""⟩⟩
    let get : Invocation := ⟨none, .get ⟨"tags", "a"⟩⟩
    (∀ s, (set.program none).runOn MemoryStore.call s = (.error (.invalidPayload ⟨"tags", ""⟩ .null), s)) ∧
      (∀ s, (lost.program none).runOn MemoryStore.call s = (.error .definitionMissing, s)) ∧
      get.Asks (some plainTags) "tags/a.json" := by
  intro set lost get
  obtain ⟨-, payload, -⟩ := set.refused_or_asks none
  obtain ⟨flawed, -, -⟩ := lost.refused_or_asks none
  obtain ⟨-, -, flawless⟩ := get.refused_or_asks (some plainTags)
  refine ⟨?_, ?_, ?_⟩
  · exact (payload .set ⟨"tags", ""⟩ .null rfl (by decide)).run_eq _
  · obtain ⟨e, -, refused⟩ := flawed ⟨_, .key (.definition rfl)⟩
    obtain rfl : e = .definitionMissing := by
      have told := refused.run_eq (answering MemoryStore.call) .empty
      cases told
      rfl
    exact refused.run_eq _
  · have resolves : Target.resolve (some plainTags) ⟨"tags", "a"⟩ =
        .ok ⟨⟨"tags", "a"⟩, "tags/a.json", .single, ⟨.json, ⟨[]⟩⟩⟩ := by
      decide
    obtain ⟨t, resolved, asks⟩ := flawless fun ⟨e, flaw⟩ => by
      obtain ⟨e', failed, -⟩ := flaw.exists_error
      cases failed
    cases resolves.symm.trans resolved
    exact asks

end RecordTree
