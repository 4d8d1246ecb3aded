import RecordTree.Proofs.Record.Faults
import RecordTree.Proofs.Store.Sight

/-!
# Files that are not there

A store in a directory takes a file to be absent if the file system misses an entry on the way to it. Whatever else
there may be in the place of the file is an error to it: a directory, a file where a directory should lead on, and a
name or a path that the file system does not take. So a record of which there is no file is reported to be missing if
the view to its place is clear (`Clear`), and else every get of it fails (`reports_absent`).
-/

namespace RecordTree

open Program

namespace DirectoryStore

variable {s : DirectoryStore} {path q : String} {now : Instant}

/-- Whether nothing hides from a store that there is no file at a path: the system takes the path, no directory is in
the place of the file, and on the way to it no file is in the place of a directory, nor is any directory looked up for a
name that no entry can have. -/
structure Clear (s : DirectoryStore) (q : String) : Prop where
  taken : isSystemPath (s.systemPath q) = true
  vacant : ¬ s.tree.IsDirAt (place q)
  passable : ∀ above name below, place q = above ++ name :: below →
    s.tree.file? above = none ∧ (s.tree.IsDirAt above → Tree.isName name = true)

/-- **An absent file is seen to be absent** if the view to its place is clear, and else the store fails to look. -/
theorem current_eq_ok_none_iff (absent : s.tree.file? (place q) = none) : s.current q = .ok none ↔ s.Clear q := by
  rw [current_eq_ok_iff, and_iff_left absent]
  constructor
  · rintro ⟨taken, vacant, reached⟩
    rw [ne_eq, Tree.find_eq_refused_iff_exists] at reached
    refine ⟨taken, vacant, fun above name below split => ⟨?_, fun found => ?_⟩⟩
    · cases held : s.tree.file? above with
      | none => rfl
      | some content => exact absurd ⟨above, name, below, split, .inl ⟨content, held⟩⟩ reached
    · cases named : Tree.isName name with
      | true => rfl
      | false => exact absurd ⟨above, name, below, split, .inr ⟨found, named⟩⟩ reached
  · rintro ⟨taken, vacant, passable⟩
    refine ⟨taken, vacant, fun refused => ?_⟩
    obtain ⟨above, name, below, split, ⟨content, held⟩ | ⟨found, bad⟩⟩ := Tree.find_eq_refused_iff_exists.mp refused
    · rw [(passable above name below split).1] at held
      cases held
    · rw [(passable above name below split).2 found] at bad
      cases bad

/-- Whether a read of a path is answered in a given way, and so are a peek at it and a get of any record whose file has
the path. None of them changes the store. -/
structure Reports (s : DirectoryStore) (now : Instant) (path : String) (answer : Except StoreError (Option Snapshot))
    (result : Except RecordError (Option Fields)) : Prop where
  read : call now (.read path) s = (answer, s)
  peek : call now (.peek path) s = (peeked answer, s)
  get : ∀ (session : Session) (key : RecordKey) (t : Target), Target.resolve session.definition key = .ok t →
    t.path = path → (session.get key).runOn (call now) s = (result, s)

theorem Reports.of_answer {answer : Except StoreError (Option Snapshot)} {result : Except RecordError (Option Fields)}
    (answered : call now (.read path) s = (answer, s)) (got : ∀ t : Target, t.seenIn (peeked answer) = result) :
    s.Reports now path answer result := by
  have glimpsed : call now (.peek path) s = (peeked answer, s) := by rw [call_peek_eq, answered]
  refine ⟨answered, glimpsed, ?_⟩
  rintro session key t target rfl
  rw [runOn_get_of_answer target glimpsed, got]

/-- **What is reported of a file that is not there**, at a path that the store takes. If the view to its place is clear,
a read answers that there is no file, and the get of a record in it that there is no such record. Else both fail. -/
theorem reports_absent (resolved : resolve path = .ok q) (absent : s.tree.file? (place q) = none) (now : Instant) :
    (s.Clear q → s.Reports now path (.ok none) (.ok none)) ∧
      (¬ s.Clear q → s.Reports now path (.error (s.ioError q)) (.error (.store (s.ioError q)))) := by
  have answered := call_read (s := s) now resolved
  rw [← current_eq_ok_none_iff absent]
  constructor
  · intro found
    rw [found] at answered
    exact .of_answer answered Target.seen_none
  · intro hidden
    have failed : s.current q = .error (s.ioError q) := by
      cases found : s.current q with
      | error failure => rw [current_eq_error found]
      | ok before =>
          obtain ⟨-, -, held⟩ := current_eq_ok_iff.mp found
          exact absurd (by rw [found, ← held, absent]) hidden
    rw [failed] at answered
    exact .of_answer answered fun _ => rfl

/-- A store with a file in the place of the directory of a collection, and an empty directory. -/
def obstructed : DirectoryStore := ⟨"data", .dir [("d", .dir []), ("tags", .file "x".toUTF8)]⟩

/-- Behind the file, a read and the get of a record fail; in the directory, they find nothing. -/
theorem reports_absent_obstructed :
    resolve "tags/a.json" = .ok "tags/a.json" ∧ obstructed.tree.file? (place "tags/a.json") = none ∧
      call ⟨0, 0⟩ (.read "tags/a.json") obstructed = (.error (obstructed.ioError "tags/a.json"), obstructed) ∧
        ((⟨some plainTags, none⟩ : Session).get ⟨"tags", "a"⟩).runOn (call ⟨0, 0⟩) obstructed =
          (.error (.store (obstructed.ioError "tags/a.json")), obstructed) ∧
        obstructed.Clear "d/a.json" ∧ obstructed.Reports ⟨0, 0⟩ "d/./a.json" (.ok none) (.ok none) := by
  have resolved : resolve "tags/a.json" = .ok "tags/a.json" := by decide +kernel
  have absent : obstructed.tree.file? (place "tags/a.json") = none := by decide +kernel
  have hidden : ¬ obstructed.Clear "tags/a.json" := fun clear =>
    absurd (clear.passable ["tags"] "a.json" [] (by decide +kernel)).1 (by decide +kernel)
  have fails := (reports_absent resolved absent ⟨0, 0⟩).2 hidden
  have target : Target.resolve (some plainTags) ⟨"tags", "a"⟩ =
      .ok ⟨⟨"tags", "a"⟩, "tags/a.json", .single, ⟨.json, .ofCollection ⟨"tags", "tags", none, .empty⟩⟩⟩ := by
    decide +kernel
  have absent' : obstructed.tree.file? (place "d/a.json") = none := by decide +kernel
  have clear : obstructed.Clear "d/a.json" := (current_eq_ok_none_iff absent').mp (by decide +kernel)
  exact ⟨resolved, absent, fails.read, fails.get _ _ _ target rfl, clear,
    (reports_absent (by decide +kernel) absent' ⟨0, 0⟩).1 clear⟩

/-- Not every read of an absent file answers that there is none. -/
theorem not_forall_read_absent :
    ¬ ∀ (s : DirectoryStore) (path q : String) (now : Instant), s.tree.isDir = true → resolve path = .ok q →
        s.tree.file? (place q) = none → (call now (.read path) s).1 = .ok none := by
  intro always
  have answer := always obstructed "tags/a.json" "tags/a.json" ⟨0, 0⟩ rfl (by decide +kernel) (by decide +kernel)
  have failed : (call ⟨0, 0⟩ (.read "tags/a.json") obstructed).1.isOk = false := by decide +kernel
  rw [answer] at failed
  cases failed

end DirectoryStore

end RecordTree
