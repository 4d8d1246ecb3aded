import Mathlib.Data.List.Infix
import RecordTree.Proofs.Record.Alone

/-!
# Clients that share a store

A system is a store in memory and any number of clients, each with a finite script of operations that
may depend on what came of earlier ones. One step of the system is one request of one client, and a
schedule says whose turn it is; nothing else is atomic.

The log keeps every operation that is over, with the requests that it made. `Ending` lists all that such an
operation can have done, and `ending_of_mem_log` says that the list is complete, over every schedule.
-/

namespace RecordTree

open Program

/-! ### Systems -/

/-- What a client does. -/
inductive Script where
  | finished
  | perform (i : Invocation) (next : Result → Script)

/-- Whether a request asks for a change. -/
def Request.isChange : Request → Bool
  | write _ _ _ _ => true
  | delete _ _ _ => true
  | _ => false

@[simp] theorem Request.isChange_read (path : String) : (read path).isChange = false := rfl

/-- Whether a request asks for a file. -/
def Request.isRead : Request → Bool
  | peek _ => true
  | read _ => true
  | _ => false

@[simp] theorem Plan.request_isChange (p : Plan) : p.request.isChange = false := by
  unfold Plan.request
  cases p.look <;> rfl

@[simp] theorem Plan.request_isRead (p : Plan) : p.request.isRead = true := by
  unfold Plan.request
  cases p.look <;> rfl

/-- A request that was answered: when, and the store before and after it. -/
structure Call where
  moment : Nat
  request : Request
  before : MemoryStore
  after : MemoryStore

/-- An operation that is on its way. -/
structure Pending where
  invocation : Invocation
  /-- The requests that it has made. -/
  calls : List Call
  rest : Program Reply
  next : Result → Script

/-- Where a client stands. -/
inductive Client where
  | idle (script : Script)
  | busy (p : Pending)

/-- An operation that is over. -/
structure Completed (ι : Type) where
  client : ι
  invocation : Invocation
  calls : List Call
  result : Result
  /-- The moment of its last step. -/
  finish : Nat

/-- A store and its clients. -/
structure System (ι : Type) where
  store : MemoryStore
  clients : ι → Client
  /-- The operations that are over, in the order in which they ended. -/
  log : List (Completed ι)
  /-- How many steps were taken. -/
  clock : Nat

/-- Makes the next request of an operation, if it has one. -/
def Pending.advance (moment : Nat) (s : MemoryStore) (p : Pending) : Pending × MemoryStore :=
  match p.rest with
  | .done _ => (p, s)
  | .call r next =>
    let (answer, after) := MemoryStore.call r s
    ({ p with calls := p.calls ++ [⟨moment, r, s, after⟩], rest := next (.answered answer) }, after)

namespace System

variable {ι : Type} [DecidableEq ι]

/-- The system in which every client is at the beginning of its script. -/
def start (s : MemoryStore) (scripts : ι → Script) : System ι := ⟨s, fun i => .idle (scripts i), [], 0⟩

/-- A client's operation makes its next request; an operation without a further one is over. -/
def proceed (sys : System ι) (i : ι) (p : Pending) : System ι :=
  let (p, store) := p.advance sys.clock sys.store
  match p.rest with
  | .done result =>
    { store, clock := sys.clock + 1
      clients := Function.update sys.clients i (.idle (p.next result))
      log := sys.log ++ [⟨i, p.invocation, p.calls, result, sys.clock⟩] }
  | .call _ _ =>
    { sys with store, clock := sys.clock + 1, clients := Function.update sys.clients i (.busy p) }

/-- One step of a client: it goes on with its operation, or begins its next one. -/
def step (d : Option Definition) (sys : System ι) (i : ι) : System ι :=
  match sys.clients i with
  | .busy p => sys.proceed i p
  | .idle (.perform invocation next) => sys.proceed i ⟨invocation, [], invocation.program d, next⟩
  | .idle .finished => { sys with clock := sys.clock + 1 }

/-- The steps of a schedule, one after the other. -/
def run (d : Option Definition) (schedule : List ι) (sys : System ι) : System ι :=
  schedule.foldl (step d) sys

theorem run_append_singleton (d : Option Definition) (past : List ι) (i : ι) (sys : System ι) :
    sys.run d (past ++ [i]) = (sys.run d past).step d i :=
  List.foldl_concat ..

end System

/-! ### What an operation can have done -/

/-- The request by which an edit is submitted. -/
def Edit.request (t : Target) (message : String) (expected : Revision) : Edit → Request
  | write document => .write t.path message (t.codec.format.encode document) expected
  | remove => .delete t.path message expected

theorem Edit.request_path (e : Edit) (t : Target) (message : String) (expected : Revision) :
    (e.request t message expected).path = t.path := by
  cases e <;> rfl

@[simp] theorem Edit.request_isChange (e : Edit) (t : Target) (message : String) (expected : Revision) :
    (e.request t message expected).isChange = true := by
  cases e <;> rfl

/-- To submit an edit takes one request, and whatever comes of it is the end. -/
theorem Edit.submit_eq_call (e : Edit) (t : Target) (message : String) (expected : Revision) :
    ∃ next, e.submit t message expected = .call (e.request t message expected) next ∧
      ∀ answer, ∃ result, next (.answered answer) = .done result := by
  cases e with
  | write document => exact ⟨_, rfl, fun answer => by cases answer <;> exact ⟨_, rfl⟩⟩
  | remove => exact ⟨_, rfl, fun answer => by cases answer <;> exact ⟨_, rfl⟩⟩

/-- What an invocation is about to do once it has read its file and decided to change it. -/
structure Intent (d : Option Definition) (i : Invocation) where
  plan : Plan
  /-- The canonical path of the file. -/
  file : String
  read : Call
  message : String
  edit : Edit
  planned : i.plan d = .ok plan
  path : storePath plan.target.path = .ok file
  request : read.request = .read plan.target.path
  unchanged : read.after = read.before
  decided : plan.decide (read.before.files.get? file) = .edit message edit

namespace Intent

variable {d : Option Definition} {i : Invocation}

/-- The revision that was seen. -/
def expected (n : Intent d i) : Revision := (n.read.before.revision? n.file).getD .none

/-- The request that is about to be made. -/
def change (n : Intent d i) : Request := n.edit.request n.plan.target n.message n.expected

/-- What is left of the operation. -/
def rest (n : Intent d i) : Program Reply := n.edit.submit n.plan.target n.message n.expected

/-- The store after the edit was made. -/
def applied (n : Intent d i) (s : MemoryStore) : MemoryStore :=
  n.edit.apply n.plan.target.codec.format n.file n.message n.expected s

/-- The store checks the edit, and makes it if it passes. -/
theorem runOn_rest (n : Intent d i) {s : MemoryStore} (faultless : s.faults = []) :
    n.rest.runOn MemoryStore.call s =
      match n.edit.check n.file (s.revision? n.file) n.expected with
      | .error e => (.error (.store e), s)
      | .ok () => (.ok .changed, n.applied s) :=
  n.edit.runOn_submit n.plan.target faultless n.path

/-- **What comes of the edit**: it is refused and nothing happens, or it passes and is made. -/
theorem refused_or_made (n : Intent d i) {s s' : MemoryStore} {result : Result} (faultless : s.faults = [])
    (submitted : n.rest.runOn MemoryStore.call s = (result, s')) :
    (∃ e, n.edit.check n.file (s.revision? n.file) n.expected = .error e ∧
        result = .error (.store e) ∧ s' = s) ∨
      (n.edit.check n.file (s.revision? n.file) n.expected = .ok () ∧
        result = .ok .changed ∧ s' = n.applied s) := by
  rw [n.runOn_rest faultless] at submitted
  cases check : n.edit.check n.file (s.revision? n.file) n.expected with
  | error e =>
      rw [check] at submitted
      cases submitted
      exact .inl ⟨e, rfl, rfl, rfl⟩
  | ok passed =>
      rw [check] at submitted
      cases submitted
      exact .inr ⟨rfl, rfl, rfl⟩

theorem faults_of_submitted {n : Intent d i} {s s' : MemoryStore} {result : Result} (faultless : s.faults = [])
    (submitted : n.rest.runOn MemoryStore.call s = (result, s')) : s'.faults = [] := by
  rcases n.refused_or_made faultless submitted with ⟨e, -, -, rfl⟩ | ⟨-, -, rfl⟩
  · exact faultless
  · exact (Edit.apply_faults _).trans faultless

end Intent

/-- All that an operation can have done when it ends at a moment: the requests that it made, and what came
of it. -/
inductive Ending (d : Option Definition) (i : Invocation) (moment : Nat) : List Call → Result → Prop where
  /-- Its checks failed, and it made no request. -/
  | unchecked {e : RecordError} (planned : i.plan d = .error e) : Ending d i moment [] (.error e)
  /-- Its path was refused. -/
  | refused {plan : Plan} {s : MemoryStore} {e : StoreError} (planned : i.plan d = .ok plan)
      (path : storePath plan.target.path = .error e) :
      Ending d i moment [⟨moment, plan.request, s, s⟩] (.error (.store e))
  /-- It was over once it had looked at its file. -/
  | answered {plan : Plan} {s : MemoryStore} {file : String} {result : Result}
      (planned : i.plan d = .ok plan) (path : storePath plan.target.path = .ok file)
      (decided : plan.decide (s.files.get? file) = .answer result) :
      Ending d i moment [⟨moment, plan.request, s, s⟩] result
  /-- It submitted an edit. -/
  | edited {s s' : MemoryStore} {result : Result} (n : Intent d i) (faultless : s.faults = [])
      (submitted : n.rest.runOn MemoryStore.call s = (result, s')) :
      Ending d i moment [n.read, ⟨moment, n.change, s, s'⟩] result

/-! ### One step -/

namespace Pending

variable {d : Option Definition} {s : MemoryStore} {moment : Nat}

theorem advance_done {p : Pending} {result : Result} (rest : p.rest = .done result) :
    p.advance moment s = (p, s) := by
  simp [advance, rest]

theorem advance_call {p : Pending} {r : Request} {next : Outcome r.Answer → Program Reply}
    (rest : p.rest = .call r next) :
    p.advance moment s =
      ({ p with
          calls := p.calls ++ [⟨moment, r, s, (MemoryStore.call r s).2⟩]
          rest := next (.answered (MemoryStore.call r s).1) },
        (MemoryStore.call r s).2) := by
  simp [advance, rest]

/-- To advance an operation changes nothing about what it comes to. -/
theorem runOn_advance (p : Pending) (moment : Nat) (s : MemoryStore) :
    (p.advance moment s).1.rest.runOn MemoryStore.call (p.advance moment s).2 =
      p.rest.runOn MemoryStore.call s := by
  cases rest : p.rest with
  | done result => rw [advance_done rest, rest]
  | call r next => rw [advance_call rest]; rfl

/-- **The first step of an operation** changes nothing: the operation is over, or it awaits its turn to submit
an edit. -/
theorem advance_program (d : Option Definition) (moment : Nat) (i : Invocation) (next : Result → Script)
    (faultless : s.faults = []) :
    ∃ calls rest,
      (⟨i, [], i.program d, next⟩ : Pending).advance moment s = (⟨i, calls, rest, next⟩, s) ∧
        ((∃ result, rest = .done result ∧ Ending d i moment calls result) ∨
          ∃ n : Intent d i, n.read.before = s ∧ calls = [n.read] ∧ rest = n.rest) := by
  cases planned : i.plan d with
  | error e =>
      have program : i.program d = .done (.error e) := by simp [i.program_eq, planned, fail]
      exact ⟨[], _, advance_done program, .inl ⟨_, program, .unchecked planned⟩⟩
  | ok plan =>
      have program : i.program d = plan.program := by simp [i.program_eq, planned]
      rw [advance_call (program.trans plan.program_eq_call)]
      cases path : storePath plan.target.path with
      | error e =>
          obtain ⟨answered, told⟩ := plan.call_of_refused faultless path
          refine ⟨_, .done (.error (.store e)), ?_, .inl ⟨_, rfl, .refused (s := s) planned path⟩⟩
          simp [answered, told, fail]
      | ok file =>
          obtain ⟨answer, answered, shown⟩ := plan.exists_answer faultless path
          cases decided : plan.decide (s.files.get? file) with
          | answer result =>
              refine ⟨_, .done result, ?_, .inl ⟨_, rfl, .answered (s := s) planned path decided⟩⟩
              simp [answered, shown, plan.proceed_ofContent, decided]
          | edit message e =>
              have request : plan.request = .read plan.target.path := by
                rw [Plan.request, plan.reads _ _ _ decided]
                rfl
              let n : Intent d i :=
                { plan, file, read := ⟨moment, plan.request, s, s⟩, message, edit := e
                  planned, path, request, unchanged := rfl, decided }
              refine ⟨[n.read], n.rest, ?_, .inr ⟨n, rfl, rfl, rfl⟩⟩
              simp [answered, shown, plan.proceed_ofContent, decided, n, Intent.rest, Intent.expected,
                MemoryStore.revision?]

/-- The last step of an operation that awaits its turn is its one request for a change. -/
theorem advance_rest (moment : Nat) (s : MemoryStore) {i : Invocation} (n : Intent d i)
    (next : Result → Script) :
    ∃ result s',
      n.rest.runOn MemoryStore.call s = (result, s') ∧
        (⟨i, [n.read], n.rest, next⟩ : Pending).advance moment s =
          (⟨i, [n.read, ⟨moment, n.change, s, s'⟩], .done result, next⟩, s') := by
  obtain ⟨more, call, last⟩ := n.edit.submit_eq_call n.plan.target n.message n.expected
  obtain ⟨result, ends⟩ := last (MemoryStore.call n.change s).1
  refine ⟨result, (MemoryStore.call n.change s).2, ?_, (advance_call call).trans ?_⟩
  · rw [Intent.rest, call, runOn_call]
    exact congrArg (runOn MemoryStore.call · _) ends
  · rw [← ends]
    rfl

end Pending

/-- Whether a client is between two operations or awaits its turn to submit an edit. -/
inductive Client.Waiting (d : Option Definition) : Client → Prop where
  | idle (script : Script) : Waiting d (.idle script)
  | busy {i : Invocation} (n : Intent d i) (next : Result → Script) :
      Waiting d (.busy ⟨i, [n.read], n.rest, next⟩)

namespace System

variable {ι : Type} {d : Option Definition}

/-- What holds between two steps: no fault is left, and every client waits. -/
structure Settled (d : Option Definition) (sys : System ι) : Prop where
  faultless : sys.store.faults = []
  waiting : ∀ i, (sys.clients i).Waiting d

theorem settled_start {s : MemoryStore} (faultless : s.faults = []) (scripts : ι → Script) :
    (start s scripts).Settled d :=
  ⟨faultless, fun i => .idle (scripts i)⟩

variable [DecidableEq ι]

/-- All that one step can do. -/
inductive Move (d : Option Definition) (sys : System ι) (i : ι) : System ι → Prop where
  /-- The client has nothing left to do. -/
  | rest (idle : sys.clients i = .idle .finished) : Move d sys i { sys with clock := sys.clock + 1 }
  /-- An operation reads its file, and is to change it. -/
  | read {invocation : Invocation} {next : Result → Script} (n : Intent d invocation)
      (idle : sys.clients i = .idle (.perform invocation next)) (before : n.read.before = sys.store) :
      Move d sys i
        { sys with
          clock := sys.clock + 1
          clients := Function.update sys.clients i (.busy ⟨invocation, [n.read], n.rest, next⟩) }
  /-- An operation is over at its first step. -/
  | answer {invocation : Invocation} {next : Result → Script} {calls : List Call} {result : Result}
      (idle : sys.clients i = .idle (.perform invocation next))
      (ending : Ending d invocation sys.clock calls result)
      (alone : (invocation.program d).runOn MemoryStore.call sys.store = (result, sys.store)) :
      Move d sys i
        { sys with
          clock := sys.clock + 1
          clients := Function.update sys.clients i (.idle (next result))
          log := sys.log ++ [⟨i, invocation, calls, result, sys.clock⟩] }
  /-- An operation submits its edit. -/
  | change {invocation : Invocation} {next : Result → Script} {result : Result} {s' : MemoryStore}
      (n : Intent d invocation)
      (busy : sys.clients i = .busy ⟨invocation, [n.read], n.rest, next⟩)
      (submitted : n.rest.runOn MemoryStore.call sys.store = (result, s')) :
      Move d sys i
        { store := s'
          clock := sys.clock + 1
          clients := Function.update sys.clients i (.idle (next result))
          log := sys.log ++ [⟨i, invocation, [n.read, ⟨sys.clock, n.change, sys.store, s'⟩], result,
            sys.clock⟩] }

/-- **A step is one of the four moves.** -/
theorem move_step {sys : System ι} (settled : sys.Settled d) (i : ι) : Move d sys i (sys.step d i) := by
  have waiting := settled.waiting i
  unfold step
  split
  · rename_i p busy
    cases busy ▸ waiting with
    | busy n next =>
        obtain ⟨result, s', submitted, advanced⟩ := Pending.advance_rest sys.clock sys.store n next
        rw [proceed, advanced]
        exact .change n busy submitted
  · rename_i invocation next idle
    obtain ⟨calls, rest, advanced, more⟩ :=
      Pending.advance_program d sys.clock invocation next settled.faultless
    have alone := Pending.runOn_advance ⟨invocation, [], invocation.program d, next⟩ sys.clock sys.store
    rw [proceed]
    rw [advanced] at alone ⊢
    obtain ⟨result, rfl, ending⟩ | ⟨n, before, rfl, rfl⟩ := more
    · exact .answer idle ending alone.symm
    · have move := Move.read n idle before
      obtain ⟨more, call, -⟩ := n.edit.submit_eq_call n.plan.target n.message n.expected
      rw [show n.rest = .call n.change more from call] at move ⊢
      exact move
  · rename_i idle
    exact .rest idle

/-- Steps lead from settled systems to settled systems. -/
theorem Settled.step {sys : System ι} (settled : sys.Settled d) (i : ι) : (sys.step d i).Settled d := by
  have others : ∀ {c : Client}, c.Waiting d → ∀ j, (Function.update sys.clients i c j).Waiting d :=
    fun own => (Function.forall_update_iff sys.clients fun _ c => c.Waiting d).mpr
      ⟨own, fun j _ => settled.waiting j⟩
  generalize after : sys.step d i = sys'
  cases after ▸ move_step settled i with
  | rest idle => exact ⟨settled.faultless, settled.waiting⟩
  | read n idle before => exact ⟨settled.faultless, others (.busy n _)⟩
  | answer idle ending alone => exact ⟨settled.faultless, others (.idle _)⟩
  | change n busy submitted =>
      exact ⟨n.faults_of_submitted settled.faultless submitted, others (.idle _)⟩

theorem Settled.run {sys : System ι} (settled : sys.Settled d) (schedule : List ι) :
    (sys.run d schedule).Settled d := by
  induction schedule generalizing sys with
  | nil => exact settled
  | cons i rest ih => exact ih (settled.step i)

/-- **Every operation in the log has ended in one of the four ways**, whatever the schedule was. -/
theorem ending_of_mem_log {sys : System ι} (settled : sys.Settled d)
    (known : ∀ o ∈ sys.log, Ending d o.invocation o.finish o.calls o.result) (schedule : List ι) :
    ∀ o ∈ (sys.run d schedule).log, Ending d o.invocation o.finish o.calls o.result := by
  induction schedule using List.reverseRecOn with
  | nil => exact known
  | append_singleton past i ih =>
      rw [run_append_singleton]
      have before := settled.run past
      generalize sys.run d past = sys' at ih before ⊢
      generalize after : sys'.step d i = sys''
      cases after ▸ move_step before i with
      | rest idle => exact ih
      | read n idle _ => exact ih
      | answer idle ending alone =>
          simp only [List.forall_mem_append, List.forall_mem_singleton]
          exact ⟨ih, ending⟩
      | change n busy submitted =>
          simp only [List.forall_mem_append, List.forall_mem_singleton]
          exact ⟨ih, .edited n before.faultless submitted⟩

end System

end RecordTree
