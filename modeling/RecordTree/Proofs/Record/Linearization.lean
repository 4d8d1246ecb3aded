import RecordTree.Proofs.Record.Interleaving
import RecordTree.Proofs.SortedMap

/-!
# No update is lost

Whatever the schedule, the operations in which the store had not the last word come to the same as if they
had run one after the other, each without interruption: a change at the moment of its second request, and
everything else at the moment of its read (`Completed.moment`). Those that the store refused have changed
nothing.

A change goes through only if its file has the revision that was read. As long as different contents have
different revisions, the file then holds what was read, also if it was something else in between, and the
operation does what it would do if it read the file now.
-/

namespace RecordTree

open Program

/-! ### Moments -/

namespace Completed

variable {ι : Type}

/-- Whether the store had the last word, and refused a request. -/
def isRefused (o : Completed ι) : Bool :=
  match o.result with
  | .error (.store _) => true
  | _ => false

/-- When an operation took effect: a change when it was made, and everything else when its file was read.
An operation without a request takes effect when it ends. -/
def moment (o : Completed ι) : Nat :=
  match o.result, o.calls.find? (·.request.isChange) with
  | .ok _, some change => change.moment
  | _, _ =>
    match o.calls.find? (·.request.isRead) with
    | some seen => seen.moment
    | none => o.finish

end Completed

/-! ### A read that is as good as new -/

/-- An edit passes only if the file is the one that its maker has seen, unless two contents have one
revision. -/
theorem Edit.seen_eq_of_check {e : Edit} {q : String} {now seen : Option ByteArray}
    (passed : e.check q (now.map .ofContent) ((seen.map .ofContent).getD .none) = .ok ())
    (distinct : ∀ a ∈ now, ∀ b ∈ seen, Revision.ofContent a = Revision.ofContent b → a = b) :
    now = seen := by
  have same : ∀ {a b : ByteArray}, now = some a → seen = some b →
      checkSame q (.ofContent a) (.ofContent b) = .ok () → now = seen := by
    intro a b hnow hseen h
    have tags : Revision.ofContent a = Revision.ofContent b := by
      by_contra hne
      simp [checkSame, hne] at h
    rw [hnow, hseen, distinct a hnow b hseen tags]
  cases hnow : now with
  | none =>
      cases hseen : seen with
      | none => rfl
      | some b => cases e <;> simp [check, checkWrite, checkDelete, hnow, hseen] at passed
  | some a =>
      cases hseen : seen with
      | none =>
          cases e with
          | write document => simp [check, checkWrite, hnow, hseen] at passed
          | remove =>
              have tags : Revision.ofContent a = Revision.none := by
                by_contra hne
                simp [check, checkDelete, checkSame, hnow, hseen, hne] at passed
              exact absurd (tags ▸ Revision.isNone_ofContent a) (by simp)
      | some b =>
          rw [← hnow, ← hseen]
          refine same hnow hseen ?_
          cases e with
          | write document => simpa [check, checkWrite, hnow, hseen] using passed
          | remove => simpa [check, checkDelete, hnow, hseen] using passed

/-- A change that passes is the one that its operation would make now. -/
theorem Intent.runOn_program {d : Option Definition} {i : Invocation} (n : Intent d i) {s : MemoryStore}
    (faultless : s.faults = []) (same : s.files.get? n.file = n.read.before.files.get? n.file) :
    (i.program d).runOn MemoryStore.call s = n.rest.runOn MemoryStore.call s := by
  rw [i.program_eq, n.planned]
  simp only [n.plan.runOn_program faultless n.path, n.plan.proceed_ofContent, same, n.decided]
  rfl

/-! ### What occurs in a run -/

namespace System

variable {ι : Type} [DecidableEq ι] {d : Option Definition}

/-- The stores of a run, after each of its steps and before the first one. -/
def stores (d : Option Definition) (schedule : List ι) (sys : System ι) : List MemoryStore :=
  schedule.inits.map fun past => (sys.run d past).store

/-- The contents that files have in a run. -/
def contents (d : Option Definition) (schedule : List ι) (sys : System ι) : List ByteArray :=
  (sys.stores d schedule).flatMap fun s => s.files.entries.map Prod.snd

theorem stores_append_singleton (d : Option Definition) (past : List ι) (i : ι) (sys : System ι) :
    sys.stores d (past ++ [i]) = sys.stores d past ++ [(sys.run d (past ++ [i])).store] := by
  simp [stores, List.inits_append]

theorem store_run_mem_stores (d : Option Definition) (schedule : List ι) (sys : System ι) :
    (sys.run d schedule).store ∈ sys.stores d schedule :=
  List.mem_map_of_mem ((List.mem_inits _ _).mpr List.prefix_rfl)

theorem mem_contents {schedule : List ι} {sys : System ι} {s : MemoryStore}
    (visited : s ∈ sys.stores d schedule) {q : String} {content : ByteArray}
    (there : s.files.get? q = some content) : content ∈ sys.contents d schedule :=
  List.mem_flatMap.mpr ⟨s, visited, List.mem_map_of_mem (SortedMap.get?_eq_some_iff.mp there)⟩

/-- What an operation on its way has read was a store of the run. -/
theorem before_mem_stores {s : MemoryStore} (faultless : s.faults = []) (scripts : ι → Script)
    (schedule : List ι) {i : ι} {p : Pending}
    (busy : ((start s scripts).run d schedule).clients i = .busy p) {c : Call} (called : c ∈ p.calls) :
    c.before ∈ (start s scripts).stores d schedule := by
  induction schedule using List.reverseRecOn generalizing i p with
  | nil => cases busy
  | append_singleton past j ih =>
      have settled := (settled_start (d := d) faultless scripts).run past
      have now := store_run_mem_stores d past (start s scripts)
      rw [stores_append_singleton]
      rw [run_append_singleton] at busy
      refine List.mem_append_left _ ?_
      generalize (start s scripts).run d past = sys at *
      -- Only the client whose turn it was can have begun an operation.
      have others : ∀ {client : Client}, Function.update sys.clients j client i = .busy p →
          client = .busy p ∨ sys.clients i = .busy p := by
        intro client h
        by_cases turn : i = j
        · subst turn
          exact .inl (by simpa using h)
        · exact .inr (by simpa [turn] using h)
      generalize after : sys.step d j = sys' at busy
      cases after ▸ move_step settled j with
      | rest idle => exact ih busy called
      | read n idle before =>
          rcases others busy with h | h
          · cases h
            rw [List.mem_singleton.mp called, before]
            exact now
          · exact ih h called
      | answer idle ending alone =>
          rcases others busy with h | h
          · cases h
          · exact ih h called
      | change n was submitted =>
          rcases others busy with h | h
          · cases h
          · exact ih h called

/-! ### The order of the moments -/

/-- The log is in the order in which operations ended, and each of them ended in a step of its own. -/
theorem log_ordered {s : MemoryStore} (faultless : s.faults = []) (scripts : ι → Script)
    (schedule : List ι) :
    let final := (start s scripts).run d schedule
    final.log.Pairwise (·.finish < ·.finish) ∧ ∀ o ∈ final.log, o.finish < final.clock := by
  induction schedule using List.reverseRecOn with
  | nil => exact ⟨.nil, fun o mem => by cases mem⟩
  | append_singleton past i ih =>
      have settled := (settled_start (d := d) faultless scripts).run past
      rw [run_append_singleton]
      generalize (start s scripts).run d past = sys at *
      obtain ⟨ordered, bounded⟩ := ih
      have later : ∀ o ∈ sys.log, o.finish < sys.clock + 1 := fun o mem => (bounded o mem).trans (by omega)
      have ended : ∀ o : Completed ι, o.finish = sys.clock →
          (sys.log ++ [o]).Pairwise (·.finish < ·.finish) ∧
            ∀ o' ∈ sys.log ++ [o], o'.finish < sys.clock + 1 := by
        intro o last
        simp only [List.pairwise_append, List.pairwise_singleton, List.forall_mem_append,
          List.mem_singleton, forall_eq, true_and, last]
        exact ⟨⟨ordered, bounded⟩, later, by omega⟩
      generalize after : sys.step d i = sys'
      cases after ▸ move_step settled i with
      | rest idle => exact ⟨ordered, later⟩
      | read n idle before => exact ⟨ordered, later⟩
      | answer idle ending alone => exact ended _ rfl
      | change n busy submitted => exact ended _ rfl

end System

/-! ### Endings -/

namespace Ending

variable {d : Option Definition} {i : Invocation} {moment : Nat} {calls : List Call}

/-- An operation that was refused has changed nothing. -/
theorem unchanged_of_refused {e : StoreError} (ending : Ending d i moment calls (.error (.store e))) :
    ∀ c ∈ calls, c.after = c.before := by
  cases ending with
  | unchecked planned => simp
  | refused planned path => simp
  | answered planned path decided => simp
  | edited n faultless submitted =>
      obtain ⟨x, -, -, rfl⟩ | ⟨-, made, -⟩ := n.refused_or_made faultless submitted
      · simp [n.unchanged]
      · cases made

end Ending

variable {ι : Type} {d : Option Definition}

/-- An operation that was not refused takes effect at its last step. -/
theorem Completed.moment_eq_finish {o : Completed ι} (ending : Ending d o.invocation o.finish o.calls o.result)
    (answered : o.isRefused = false) : o.moment = o.finish := by
  obtain ⟨client, i, calls, result, finish⟩ := o
  change Ending d i finish calls result at ending
  cases ending with
  | unchecked planned => rfl
  | refused planned path => simp [isRefused] at answered
  | answered planned path decided => cases result <;> simp [moment]
  | edited n faultless submitted =>
      obtain ⟨x, -, rfl, -⟩ | ⟨-, rfl, -⟩ := n.refused_or_made faultless submitted
      · simp [isRefused] at answered
      · simp [moment, n.request, Intent.change]

namespace System

variable [DecidableEq ι]

/-! ### One at a time -/

/-- The operations that the store did not refuse, one at a time, give the same results and the same store. -/
theorem runAlone_log {s : MemoryStore} (faultless : s.faults = []) (scripts : ι → Script)
    (schedule : List ι)
    (distinct : ∀ a ∈ (start s scripts).contents d schedule, ∀ b ∈ (start s scripts).contents d schedule,
      Revision.ofContent a = Revision.ofContent b → a = b) :
    let final := (start s scripts).run d schedule
    let order := final.log.filter (!·.isRefused)
    runAlone d (order.map (·.invocation)) s = (order.map (·.result), final.store) := by
  induction schedule using List.reverseRecOn with
  | nil => rfl
  | append_singleton past i ih =>
      have known : ∀ a ∈ (start s scripts).contents d past, a ∈ (start s scripts).contents d (past ++ [i]) := by
        simp only [contents, stores_append_singleton, List.flatMap_append]
        exact fun a mem => List.mem_append_left _ mem
      have sequential := ih fun a ha b hb => distinct a (known a ha) b (known b hb)
      have settled := (settled_start (d := d) faultless scripts).run past
      have now := store_run_mem_stores d past (start s scripts)
      have seen := fun p => before_mem_stores (d := d) faultless scripts past (i := i) (p := p)
      rw [run_append_singleton]
      generalize (start s scripts).run d past = sys at *
      -- An operation that ends adds itself at the end of the order, unless the store refused it.
      have ended : ∀ (o : Completed ι) (s' : MemoryStore), (o.isRefused = true → s' = sys.store) →
          (o.isRefused = false →
            (o.invocation.program d).runOn MemoryStore.call sys.store = (o.result, s')) →
          runAlone d (((sys.log ++ [o]).filter (!·.isRefused)).map (·.invocation)) s =
            (((sys.log ++ [o]).filter (!·.isRefused)).map (·.result), s') := by
        intro o s' refused alone
        cases h : o.isRefused with
        | true => simpa [h, refused h] using sequential
        | false => simp [h, runAlone_append_singleton, sequential, alone h]
      generalize after : sys.step d i = sys'
      cases after ▸ move_step settled i with
      | rest idle => exact sequential
      | read n idle before => exact sequential
      | answer idle ending alone => exact ended _ _ (fun _ => rfl) fun _ => alone
      | @change invocation next result s' n busy submitted =>
          obtain ⟨x, -, rfl, rfl⟩ | ⟨check, rfl, rfl⟩ := n.refused_or_made settled.faultless submitted
          · exact ended _ _ (fun _ => rfl) fun answered => by cases answered
          · refine ended _ _ (fun refused => by cases refused) fun _ => ?_
            refine (n.runOn_program settled.faultless ?_).trans submitted
            have read := seen _ busy (List.mem_singleton_self n.read)
            exact Edit.seen_eq_of_check check fun a ha b hb =>
              distinct a (known a (mem_contents now ha)) b (known b (mem_contents read hb))

/-- **No update is lost.** Whatever clients do and in whatever order their requests are answered, the
operations that were not refused come to the same as one after the other, in the order of their moments: each
of them has the result that it has there, and the store is left as it is left there. Those that were refused
have changed nothing. -/
theorem linearizable {s : MemoryStore} (faultless : s.faults = []) (scripts : ι → Script)
    (schedule : List ι)
    (distinct : ∀ a ∈ (start s scripts).contents d schedule, ∀ b ∈ (start s scripts).contents d schedule,
      Revision.ofContent a = Revision.ofContent b → a = b) :
    let final := (start s scripts).run d schedule
    (∃ order : List (Completed ι),
      order.Perm (final.log.filter (!·.isRefused)) ∧
        order.Pairwise (·.moment < ·.moment) ∧
        runAlone d (order.map (·.invocation)) s = (order.map (·.result), final.store)) ∧
      ∀ o ∈ final.log, o.isRefused = true → ∀ c ∈ o.calls, c.after = c.before := by
  intro final
  have ending := ending_of_mem_log (settled_start (d := d) faultless scripts)
    (fun o mem => by cases mem) schedule
  refine ⟨⟨_, .refl _, ?_, runAlone_log faultless scripts schedule distinct⟩, ?_⟩
  · -- The log is in order, and an operation that was not refused takes effect when it ends.
    refine ((log_ordered faultless scripts schedule).1.filter _).imp_of_mem fun {o o'} mem mem' before => ?_
    obtain ⟨logged, answered⟩ := List.mem_filter.mp mem
    obtain ⟨logged', answered'⟩ := List.mem_filter.mp mem'
    rw [Completed.moment_eq_finish (ending o logged) (by simpa using answered),
      Completed.moment_eq_finish (ending o' logged') (by simpa using answered')]
    exact before
  · intro o logged refused
    have ended := ending o logged
    cases result : o.result with
    | ok reply => simp [Completed.isRefused, result] at refused
    | error e =>
        cases e <;> simp only [Completed.isRefused, result, Bool.false_eq_true] at refused
        rw [result] at ended
        exact ended.unchanged_of_refused

/-! ### A file that comes back -/

/-- A collection whose records share a JSON file. -/
def sharedTags : Definition := .add .empty ⟨"tags", "tags", some ⟨"all.json", "json", .shared⟩, .empty⟩

/-- One client makes a record while another one makes one and takes it away again. -/
def restoringScripts : Bool → Script
  | true => .perform ⟨none, .put .insert ⟨"tags", "a"⟩ (.object [])⟩ fun _ => .finished
  | false =>
    .perform ⟨none, .put .set ⟨"tags", "b"⟩ (.object [])⟩ fun _ =>
      .perform ⟨none, .delete ⟨"tags", "b"⟩⟩ fun _ => .finished

/-- What the file holds in the course of the run: no record, the one of the second client, the one of the first. -/
def restoredContents : List ByteArray :=
  ["\x7b\x7d\n".toUTF8, "\x7b\n  \"b\": \x7b\x7d\n\x7d\n".toUTF8, "\x7b\n  \"a\": \x7b\x7d\n\x7d\n".toUTF8]

set_option maxRecDepth 20000 in
theorem digests_restored : ∀ a ∈ restoredContents, ∀ b ∈ restoredContents,
    Revision.ofContent a = Revision.ofContent b → a = b := by
  decide +kernel

set_option maxRecDepth 20000 in
/-- The first client reads the file before it changes and writes it after it has come back. -/
theorem linearizable_restored_file :
    let s := MemoryStore.empty.seed "tags/all.json" "\x7b\x7d\n".toUTF8
    let schedule := [true, false, false, false, false, true]
    let final := (start s restoringScripts).run (some sharedTags) schedule
    s.faults = [] ∧
      (∀ a ∈ (start s restoringScripts).contents (some sharedTags) schedule,
        ∀ b ∈ (start s restoringScripts).contents (some sharedTags) schedule,
          Revision.ofContent a = Revision.ofContent b → a = b) ∧
      (∃ order : List (Completed Bool),
        order.Perm (final.log.filter (!·.isRefused)) ∧
          order.Pairwise (·.moment < ·.moment) ∧
          runAlone (some sharedTags) (order.map (·.invocation)) s =
            (order.map (·.result), final.store)) ∧
      (∀ o ∈ final.log, o.isRefused = true → ∀ c ∈ o.calls, c.after = c.before) ∧
      final.log.map (fun o => (o.client, o.isRefused, o.moment)) =
        [(false, false, 2), (false, false, 4), (true, false, 5)] := by
  intro s schedule final
  have faultless : s.faults = [] := rfl
  have distinct : ∀ a ∈ (start s restoringScripts).contents (some sharedTags) schedule,
      ∀ b ∈ (start s restoringScripts).contents (some sharedTags) schedule,
        Revision.ofContent a = Revision.ofContent b → a = b := by
    have restored : ∀ a ∈ (start s restoringScripts).contents (some sharedTags) schedule,
        ∃ held ∈ restoredContents, a = held := by
      decide +kernel
    intro a mem b mem'
    obtain ⟨_, held, rfl⟩ := restored a mem
    obtain ⟨_, held', rfl⟩ := restored b mem'
    exact digests_restored a held b held'
  obtain ⟨order, refused⟩ := linearizable faultless restoringScripts schedule distinct
  exact ⟨faultless, distinct, order, refused, by decide +kernel⟩

end System

end RecordTree
