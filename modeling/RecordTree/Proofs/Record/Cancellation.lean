import RecordTree.Proofs.Record.Transcript

/-!
# Callers that give up

The answer to a request may take its time. Before a program makes a request it looks at the token by which its
caller can give up, and from then on the request is polled: each time the token is looked at first, and then the
store, which may leave the request pending as often as it likes and may do what it was asked for at any poll, or
never (`SlowStore`). One look at the token is one step (`Ongoing.step`).

What a caller is told is never more than what is known (`Accounted`): it has given up and nothing was changed, only
if no change was polled; and once a change was polled, it learns the store's own answer, or that nobody knows.
`Invocation.accounted_of_passes` says so over every store and every token.
-/

namespace RecordTree

open Program

/-! ### Polls -/

/-- A store whose answers may take their time: what a poll of a request brings, if the request does not stay
pending, and the state that it leaves. Whatever else happens to the store between two polls is part of the
state. -/
abbrev SlowStore (σ : Type) := (r : Request) → σ → Option (Except StoreError r.Answer) × σ

/-- A poll of a request. -/
structure Poll where
  request : Request
  /-- What it has brought, unless the request has stayed pending. -/
  answer : Option (Except StoreError request.Answer)

/-- A program on its way. -/
structure Ongoing (α σ : Type) where
  rest : Program α
  /-- Whether the request at hand was made, so that it is polled. -/
  underWay : Bool
  store : σ
  /-- How often the token was looked at. -/
  looks : Nat
  polls : List Poll

namespace Ongoing

variable {α σ : Type}

/-- A program at its beginning. -/
def start (p : Program α) (s : σ) : Ongoing α σ := ⟨p, false, s, 0, []⟩

/-- Looks at the token once. If the caller has not given up, the request at hand is made, or polled if it was
made before. What a look sees is given by its number. -/
def step (respond : SlowStore σ) (token : Nat → Bool) (o : Ongoing α σ) : Ongoing α σ :=
  match o.rest with
  | .done _ => o
  | .call r next =>
    if token o.looks then
      { o with
        rest := next (if o.underWay then .abandoned else .notStarted)
        looks := o.looks + 1 }
    else if o.underWay then
      match respond r o.store with
      | (some x, s) => ⟨next (.answered x), false, s, o.looks + 1, o.polls ++ [⟨r, some x⟩]⟩
      | (none, s) => { o with store := s, looks := o.looks + 1, polls := o.polls ++ [⟨r, none⟩] }
    else { o with underWay := true, looks := o.looks + 1 }

/-- The result of a program that is over. -/
def result? (o : Ongoing α σ) : Option (Except RecordError α) :=
  match o.rest with
  | .done x => some x
  | .call _ _ => none

/-- The program after some steps. -/
def after (respond : SlowStore σ) (token : Nat → Bool) (o : Ongoing α σ) : Nat → Ongoing α σ
  | 0 => o
  | n + 1 => (o.after respond token n).step respond token

end Ongoing

variable {α σ : Type} {respond : SlowStore σ} {token : Nat → Bool}

/-! ### Single steps -/

namespace Ongoing

/-- All that one step can do to a program at a request. -/
inductive Move (token : Nat → Bool) (r : Request) (next : Outcome r.Answer → Program α) (underWay : Bool) (s : σ)
    (looks : Nat) (polls : List Poll) : Ongoing α σ → Prop where
  /-- The caller has given up. -/
  | givenUp (look : token looks = true) :
      Move token r next underWay s looks polls
        ⟨next (if underWay then .abandoned else .notStarted), underWay, s, looks + 1, polls⟩
  /-- The request is made. -/
  | made (look : token looks = false) (idle : underWay = false) :
      Move token r next underWay s looks polls ⟨.call r next, true, s, looks + 1, polls⟩
  /-- A poll brings the answer. -/
  | answered (look : token looks = false) (made : underWay = true) (x : Except StoreError r.Answer) (s' : σ) :
      Move token r next underWay s looks polls
        ⟨next (.answered x), false, s', looks + 1, polls ++ [⟨r, some x⟩]⟩
  /-- A poll leaves the request pending. -/
  | pending (look : token looks = false) (made : underWay = true) (s' : σ) :
      Move token r next underWay s looks polls ⟨.call r next, true, s', looks + 1, polls ++ [⟨r, none⟩]⟩

/-- **A step is one of the four moves.** -/
theorem move_step (respond : SlowStore σ) (token : Nat → Bool) {o : Ongoing α σ} {r : Request}
    {next : Outcome r.Answer → Program α} (rest : o.rest = .call r next) :
    Move token r next o.underWay o.store o.looks o.polls (o.step respond token) := by
  obtain ⟨_, underWay, s, looks, polls⟩ := o
  cases rest
  cases look : token looks with
  | true =>
      simp only [step, look, ↓reduceIte]
      exact .givenUp look
  | false =>
      cases made : underWay with
      | false =>
          simp only [step, look, Bool.false_eq_true, ↓reduceIte]
          exact .made look rfl
      | true =>
          simp only [step, look, Bool.false_eq_true, ↓reduceIte]
          rcases respond r s with ⟨x | x, s'⟩
          · exact .pending look rfl s'
          · exact .answered look rfl x s'

theorem result?_eq_some_iff {o : Ongoing α σ} {x : Except RecordError α} : o.result? = some x ↔ o.rest = .done x := by
  unfold result?
  cases o.rest <;> simp

/-- A look that sees that the caller has given up. -/
theorem step_of_cancelled {o : Ongoing α σ} {r : Request} {next : Outcome r.Answer → Program α}
    (rest : o.rest = .call r next) (cancelled : token o.looks = true) :
    o.step respond token =
      { o with rest := next (if o.underWay then .abandoned else .notStarted), looks := o.looks + 1 } := by
  simp only [step, rest, cancelled, ↓reduceIte]

theorem step_of_done {o : Ongoing α σ} {x : Except RecordError α} (rest : o.rest = .done x) :
    o.step respond token = o := by
  simp only [step, rest]

/-- Every step of a program that is not over looks at the token once. -/
theorem looks_after (respond : SlowStore σ) (token : Nat → Bool) (p : Program α) (s : σ) (n : Nat) :
    (∃ x, ((start p s).after respond token n).rest = .done x) ∨
      ((start p s).after respond token n).looks = n := by
  induction n with
  | zero => exact .inr rfl
  | succ n ih =>
      rw [after]
      generalize (start p s).after respond token n = o at ih ⊢
      cases rest : o.rest with
      | done x =>
          rw [step_of_done rest]
          exact .inl ⟨x, rest⟩
      | call r next =>
          obtain rfl : o.looks = n := ih.resolve_left fun ⟨x, ended⟩ => by cases rest.symm.trans ended
          have move := move_step respond token rest
          generalize o.step respond token = o' at move ⊢
          cases move with
          | givenUp => exact .inr rfl
          | made => exact .inr rfl
          | answered => exact .inr rfl
          | pending => exact .inr rfl

end Ongoing

/-! ### What is known of a change -/

@[simp] theorem Edit.changeKind?_request (edit : Edit) (t : Target) (message : String) (expected : Revision) :
    (edit.request t message expected).changeKind? = some edit.kind := by
  cases edit <;> rfl

@[simp] theorem Plan.changeKind?_request (p : Plan) : p.request.changeKind? = none := by
  unfold request
  cases p.look <;> rfl

/-- What an operation may come to, given the polls that it has made: nothing is claimed that is not known. -/
structure Accounted (i : Invocation) (t : Target) (polls : List Poll) (result : Result) : Prop where
  /-- An operation that is cancelled has never polled a change. -/
  unpolled_of_cancelled : result = .error .cancelled → ∀ q ∈ polls, q.request.changeKind? = none
  /-- An operation that has polled a change comes to what the store has answered to it in the end, or says that
  nobody knows what became of it. -/
  told_or_unknown : ∀ q ∈ polls, ∀ kind, q.request.changeKind? = some kind →
    q.request.path = t.path ∧
      (result = .error (.outcomeUnknown t.path kind) ∨
        ∃ answer, polls.getLast? = some ⟨q.request, some answer⟩ ∧ result = told answer)
  /-- An operation that changes something succeeds only if the store has made the change. -/
  changed_of_ok : ∀ verb reply, i.operation.verb? = some verb → result = .ok reply →
    ∃ r answer, r.changeKind? ≠ none ∧ polls.getLast? = some ⟨r, some (.ok answer)⟩

/-- Where no change was polled, anything may be said but that one was made. -/
theorem Accounted.of_quiet {i : Invocation} {t : Target} {polls : List Poll} {result : Result}
    (quiet : ∀ q ∈ polls, q.request.changeKind? = none)
    (silent : ∀ verb, i.operation.verb? = some verb → ∃ e, result = .error e) : Accounted i t polls result := by
  refine ⟨fun _ => quiet, fun q mem kind asks => ?_, fun verb reply changes done => ?_⟩
  · rw [quiet q mem] at asks
    cases asks
  · obtain ⟨e, rfl⟩ := silent verb changes
    cases done

/-! ### Stages -/

/-- Where an operation stands: it looks at its file, it awaits the end of its edit, or it is over. -/
inductive Stage (i : Invocation) (p : Plan) : Ongoing Reply σ → Prop where
  | reading {underWay : Bool} {s : σ} {looks : Nat} {polls : List Poll}
      (quiet : ∀ q ∈ polls, q.request.changeKind? = none) :
      Stage i p ⟨p.program, underWay, s, looks, polls⟩
  | editing {edit : Edit} {message : String} {expected : Revision} {underWay : Bool} {s : σ} {looks : Nat}
      {polls : List Poll}
      (pending : ∀ q ∈ polls, q.request.changeKind? ≠ none →
        underWay = true ∧ q = ⟨edit.request p.target message expected, none⟩) :
      Stage i p ⟨edit.submit p.target message expected, underWay, s, looks, polls⟩
  | ended {result : Result} {underWay : Bool} {s : σ} {looks : Nat} {polls : List Poll}
      (accounted : Accounted i p.target polls result) :
      Stage i p ⟨.done result, underWay, s, looks, polls⟩

variable {d : Option Definition} {i : Invocation} {p : Plan}

/-- An operation that can change something and is over with what its file holds has failed. -/
theorem Invocation.exists_error_of_answer (planned : i.plan d = .ok p) {content : Option ByteArray}
    {result : Result} (decided : p.decide content = .answer result) {verb : Verb}
    (changes : i.operation.verb? = some verb) : ∃ e, result = .error e := by
  obtain ⟨-, -, decides⟩ := i.plan_eq_ok planned
  cases operation : i.operation with
  | get key =>
      rw [operation] at changes
      cases changes
  | put mode key data =>
      rw [operation] at decides
      obtain ⟨fields, -, decides⟩ := decides
      obtain ⟨e, -, failed⟩ := Decision.ofEdit_eq_answer_iff.mp (decides content ▸ decided)
      exact ⟨e, failed⟩
  | delete key =>
      rw [operation] at decides
      obtain ⟨e, -, failed⟩ := Decision.ofEdit_eq_answer_iff.mp (decides content ▸ decided)
      exact ⟨e, failed⟩

section Edited

variable {t : Target} {edit : Edit} {message : String} {expected : Revision} {polls : List Poll}

/-- Whoever gives up when a change was polled does not know what became of it. -/
theorem Accounted.unknown (asked : ∀ q ∈ polls, q.request.changeKind? ≠ none →
    q.request = edit.request t message expected) :
    Accounted i t polls (.error (.outcomeUnknown t.path edit.kind)) where
  unpolled_of_cancelled cancelled := by cases cancelled
  told_or_unknown := by
    intro q mem kind asks
    have same := asked q mem (by simp [asks])
    rw [same, Edit.changeKind?_request] at asks
    cases asks
    rw [same]
    exact ⟨Edit.request_path .., .inl rfl⟩
  changed_of_ok := by
    intro verb reply changes done
    cases done

/-- Whoever has waited for the answer is told it. -/
theorem Accounted.told (asked : ∀ q ∈ polls, q.request.changeKind? ≠ none →
      q.request = edit.request t message expected)
    (x : Except StoreError (edit.request t message expected).Answer) :
    Accounted i t (polls ++ [⟨edit.request t message expected, some x⟩]) (RecordTree.told x) where
  unpolled_of_cancelled cancelled := by cases x <;> cases cancelled
  told_or_unknown := by
    intro q mem kind asks
    have same : q.request = edit.request t message expected := by
      rcases List.mem_append.mp mem with earlier | last
      · exact asked q earlier (by simp [asks])
      · rw [List.mem_singleton.mp last]
    rw [same]
    exact ⟨Edit.request_path .., .inr ⟨x, by simp, rfl⟩⟩
  changed_of_ok := by
    intro verb reply changes done
    cases x with
    | error e => cases done
    | ok answer => exact ⟨_, answer, by simp, by simp⟩

end Edited

/-- What an operation does after it has looked leads on to its edit, or it is over. -/
theorem Stage.proceed (planned : i.plan d = .ok p) {polls : List Poll}
    (quiet : ∀ q ∈ polls, q.request.changeKind? = none) (snapshot : Option Snapshot) (s : σ) (looks : Nat) :
    Stage i p ⟨p.proceed snapshot, false, s, looks, polls⟩ := by
  unfold Plan.proceed
  cases decided : p.decide (snapshot.map Snapshot.content) with
  | answer result => exact .ended (.of_quiet quiet fun verb => i.exists_error_of_answer planned decided)
  | edit message edit => exact .editing fun q mem asks => absurd (quiet q mem) asks

/-- **One step** leads from stage to stage. -/
theorem Stage.step (planned : i.plan d = .ok p) {o : Ongoing Reply σ} (stage : Stage i p o)
    (respond : SlowStore σ) (token : Nat → Bool) : Stage i p (o.step respond token) := by
  have looked : ∀ {polls : List Poll} (answer : Option (Except StoreError p.request.Answer)),
      (∀ q ∈ polls, q.request.changeKind? = none) →
        ∀ q ∈ polls ++ [⟨p.request, answer⟩], q.request.changeKind? = none := by
    intro polls answer quiet
    rw [List.forall_mem_append, List.forall_mem_singleton]
    exact ⟨quiet, p.changeKind?_request⟩
  cases stage with
  | @reading underWay s looks polls quiet =>
      have move := Ongoing.move_step respond token (o := ⟨p.program, underWay, s, looks, polls⟩) p.program_eq_call
      generalize Ongoing.step respond token _ = o at move ⊢
      cases move with
      | givenUp =>
          cases underWay <;> exact .ended (.of_quiet quiet fun _ _ => ⟨_, rfl⟩)
      | made =>
          rw [← p.program_eq_call]
          exact .reading quiet
      | pending =>
          rw [← p.program_eq_call]
          exact .reading (looked none quiet)
      | answered _ _ x =>
          dsimp only
          cases p.seen x with
          | ok snapshot => exact .proceed planned (looked (some x) quiet) snapshot _ _
          | error e => exact .ended (.of_quiet (looked (some x) quiet) fun _ _ => ⟨_, rfl⟩)
  | @editing edit message expected underWay s looks polls pending =>
      have move := Ongoing.move_step respond token
        (o := ⟨edit.submit p.target message expected, underWay, s, looks, polls⟩)
        (edit.submit_eq p.target message expected)
      generalize Ongoing.step respond token _ = o at move ⊢
      cases move with
      | givenUp =>
          cases underWay with
          | true => exact .ended (.unknown fun q mem asks => by rw [(pending q mem asks).2])
          | false =>
              refine .ended (.of_quiet (fun q mem => ?_) fun _ _ => ⟨_, rfl⟩)
              by_contra asks
              exact Bool.false_ne_true (pending q mem asks).1
      | made _ idle =>
          rw [← edit.submit_eq]
          refine .editing fun q mem asks => ?_
          exact absurd (idle.symm.trans (pending q mem asks).1) Bool.false_ne_true
      | pending _ made =>
          rw [← edit.submit_eq]
          refine .editing fun q mem asks => ⟨rfl, ?_⟩
          rcases List.mem_append.mp mem with earlier | last
          · exact (pending q earlier asks).2
          · exact List.mem_singleton.mp last
      | answered _ _ x => exact .ended (.told (fun q mem asks => by rw [(pending q mem asks).2]) x)
  | ended accounted =>
      rw [Ongoing.step_of_done rfl]
      exact .ended accounted

/-- A look that sees that the caller has given up is the last one. -/
theorem Stage.exists_done_of_cancelled {o : Ongoing Reply σ} (stage : Stage i p o) (respond : SlowStore σ)
    (cancelled : token o.looks = true) : ∃ result, (o.step respond token).rest = .done result := by
  cases stage with
  | @reading underWay _ _ _ quiet =>
      rw [Ongoing.step_of_cancelled p.program_eq_call cancelled]
      cases underWay <;> exact ⟨_, rfl⟩
  | @editing edit message expected underWay _ _ _ pending =>
      rw [Ongoing.step_of_cancelled (edit.submit_eq p.target message expected) cancelled]
      cases underWay <;> exact ⟨_, rfl⟩
  | ended accounted =>
      rw [Ongoing.step_of_done rfl]
      exact ⟨_, rfl⟩

/-- **Every step** finds the operation at some stage. -/
theorem Stage.after (planned : i.plan d = .ok p) (respond : SlowStore σ) (token : Nat → Bool) (s : σ) (n : Nat) :
    Stage i p ((Ongoing.start p.program s).after respond token n) := by
  induction n with
  | zero => exact .reading fun q mem => by cases mem
  | succ n ih => exact ih.step planned respond token

/-- An operation that is over is accounted for. -/
theorem Stage.accounted {o : Ongoing Reply σ} (stage : Stage i p o) {result : Result}
    (ended : o.rest = .done result) : Accounted i p.target o.polls result := by
  cases stage with
  | reading quiet =>
      rw [p.program_eq_call] at ended
      cases ended
  | @editing edit message expected _ _ _ _ pending =>
      rw [edit.submit_eq p.target message expected] at ended
      cases ended
  | ended accounted =>
      cases ended
      exact accounted

/-! ### Runs -/

namespace Ongoing

theorem after_succ (o : Ongoing α σ) (n : Nat) :
    o.after respond token (n + 1) = (o.step respond token).after respond token n := by
  induction n with
  | zero => rfl
  | succ n ih => exact congrArg (step respond token) ih

/-- What is over stays so. -/
theorem after_of_done {o : Ongoing α σ} {x : Except RecordError α} (rest : o.rest = .done x) (n : Nat) :
    o.after respond token n = o := by
  induction n with
  | zero => rfl
  | succ n ih => rw [after, ih, step_of_done rest]

end Ongoing

/-- The store that answers every request at its first poll. -/
def SlowStore.prompt (store : FileStore σ) : SlowStore σ := fun r s => (some (store r s).1, (store r s).2)

/-- **A caller that never gives up** and need not wait comes to what it comes to at once, and each request was
polled once. -/
theorem Ongoing.exists_after_prompt (store : FileStore σ) (program : Program α) (s : σ) :
    ∃ n,
      let o := (start program s).after (.prompt store) (fun _ => false) n
      o.result? = some (program.runOn store s).1 ∧ o.store = (program.runOn store s).2 ∧
        o.polls = (program.exchanges store s).map fun e => ⟨e.request, some e.answer⟩ := by
  suffices general : ∀ looks polls, ∃ n,
      let o := (⟨program, false, s, looks, polls⟩ : Ongoing α σ).after (.prompt store) (fun _ => false) n
      o.result? = some (program.runOn store s).1 ∧ o.store = (program.runOn store s).2 ∧
        o.polls = polls ++ (program.exchanges store s).map fun e => ⟨e.request, some e.answer⟩ from
    general 0 []
  induction program generalizing s with
  | done x => exact fun looks polls => ⟨0, rfl, rfl, by simp [after, exchanges]⟩
  | call r next ih =>
      intro looks polls
      obtain ⟨n, result, left, made⟩ :=
        ih (.answered (store r s).1) (store r s).2 (looks + 2) (polls ++ [⟨r, some (store r s).1⟩])
      refine ⟨n + 2, ?_⟩
      rw [after_succ, after_succ]
      refine ⟨result, left, made.trans ?_⟩
      simp [exchanges]

/-- **Giving up is neither success nor a promise that nothing has happened.** For an operation that has passed its
checks, over every store and whatever the looks at the token see: if the caller had given up before, the operation
is cancelled and nothing is polled; the first look that sees it is the last; and whatever the operation comes to,
it is accounted for by its polls. -/
theorem Invocation.accounted_of_passes (respond : SlowStore σ) (token : Nat → Bool) (s : σ) {t : Target}
    (passes : i.Passes d t) :
    let run := (Ongoing.start (i.program d) s).after respond token
    (token 0 = true → ∀ n, (run (n + 1)).result? = some (.error .cancelled) ∧ (run n).polls = []) ∧
      (∀ n, token n = true → ∃ result, (run (n + 1)).result? = some result) ∧
      ∀ n result, (run n).result? = some result → Accounted i t (run n).polls result := by
  obtain ⟨p, planned, rfl⟩ := passes.exists_plan
  have program : i.program d = p.program := by rw [i.program_eq, planned]
  rw [program]
  refine ⟨fun cancelled n => ?_, fun n cancelled => ?_, fun n result ended => ?_⟩
  · have first : (Ongoing.start p.program s).step respond token = ⟨fail .cancelled, false, s, 1, []⟩ :=
      (Ongoing.step_of_cancelled (o := .start p.program s) p.program_eq_call cancelled).trans rfl
    have later : ∀ n, (Ongoing.start p.program s).after respond token (n + 1) = ⟨fail .cancelled, false, s, 1, []⟩ := by
      intro n
      rw [Ongoing.after_succ, first]
      exact Ongoing.after_of_done rfl n
    refine ⟨by rw [later]; rfl, ?_⟩
    cases n with
    | zero => rfl
    | succ n => rw [later]
  · have stage := Stage.after planned respond token s n
    simp only [Ongoing.result?_eq_some_iff]
    rcases Ongoing.looks_after respond token p.program s n with ⟨result, ended⟩ | looks
    · exact ⟨result, by rw [Ongoing.after, Ongoing.step_of_done ended, ended]⟩
    · exact stage.exists_done_of_cancelled respond (looks.symm ▸ cancelled)
  · exact (Stage.after planned respond token s n).accounted (Ongoing.result?_eq_some_iff.mp ended)

/-! ### A write that never ends -/

/-- A store without files that leaves every change pending. -/
def stallingStore : SlowStore Unit
  | .peek _, s => (some (.ok none), s)
  | .read _, s => (some (.ok none), s)
  | .list _, s => (some (.ok []), s)
  | .write _ _ _ _, s => (none, s)
  | .delete _ _ _, s => (none, s)

/-- A set whose caller gives up when the write was polled once does not know what became of the write. -/
theorem Invocation.accounted_of_passes_stalling :
    let i : Invocation := ⟨none, .put .set ⟨"tags", "a"⟩ (.object [])⟩
    let t : Target := ⟨⟨"tags", "a"⟩, "tags/a.json", .single, ⟨.json, ⟨[]⟩⟩⟩
    let token : Nat → Bool := fun n => 4 ≤ n
    let run := (Ongoing.start (i.program (some plainTags)) ()).after stallingStore token
    i.Passes (some plainTags) t ∧
      (run 4).result? = none ∧ (run 4).polls.map (fun q => q.request.changeKind?) = [none, some .write] ∧
      Accounted i t (run 5).polls (.error (.outcomeUnknown "tags/a.json" .write)) := by
  intro i t token run
  have passes : i.Passes (some plainTags) t := by
    refine ⟨by decide, fun mode key data operation => ?_⟩
    cases operation
    exact ⟨_, rfl⟩
  have ended : (run 5).result? = some (.error (.outcomeUnknown "tags/a.json" .write)) := by decide
  obtain ⟨-, -, accounted⟩ := i.accounted_of_passes stallingStore token () passes
  exact ⟨passes, by decide, by decide, accounted 5 _ ended⟩

end RecordTree
