import RecordTree.Proofs.Store.Directory
import RecordTree.Proofs.Tree.Frame

/-!
# What a store in a directory sees

A request for a canonical path is about one entry. What it answers depends on what is to be seen of that entry
(`sight`) and, for a change, on whether the log can be opened (`logSight`); so the answer is the same in every store
in which these are (`answer_of_sight`).
-/

namespace RecordTree.DirectoryStore

open RecordTree.Path (IsName)
open RecordTree.Tree (SameBeside TouchedAt ChangedAt)

/-! ### What is seen -/

/-- What can be seen of an entry: why it is not there, the content of a file, or the names of what a directory holds
and whether they are directories. -/
inductive Sight where
  | nothing (why : Absence)
  | file (content : ByteArray)
  | dir (names : List (String × Bool))

/-- What is shown of the entries of a directory: at the root, not what the store keeps for itself. -/
def shown (q : String) (children : List (String × Tree)) : List (String × Tree) :=
  children.filter fun (name, _) => !(q = "." ∧ name = metaName)

/-- What can be seen at a canonical path. -/
def sight (t : Tree) (q : String) : Sight :=
  match t.find (place q) with
  | .error why => .nothing why
  | .ok (.file content) => .file content
  | .ok (.dir children) => .dir ((shown q children).map fun e => (e.1, e.2.isDir))

/-- What can be seen of the log: why it is not there, or whether a directory is in its place. -/
def logSight (t : Tree) : Except Absence Bool := (t.find logPlace).map Tree.isDir

variable {s s' : DirectoryStore} {t t' : Tree} {q : String} {r : Request} {before : Option ByteArray}
  {content? : Option ByteArray} {e : LogEntry}

theorem shown_root (children : List (String × Tree)) : shown "." children = Entries.erase metaName children := by
  rw [shown, Entries.erase_eq_filter]
  exact List.filter_congr fun e _ => by simp

theorem systemPath_congr (root : s'.root = s.root) (q : String) : s'.systemPath q = s.systemPath q := by
  simp only [systemPath, root]

theorem ioError_congr (root : s'.root = s.root) (q : String) : s'.ioError q = s.ioError q := by
  rw [ioError, ioError, systemPath_congr root]

/-- What is read is what can be seen. -/
theorem current_eq_of_sight (s : DirectoryStore) (q : String) :
    s.current q =
      if isSystemPath (s.systemPath q) then
        match sight s.tree q with
        | .file content => .ok (some content)
        | .nothing .missing => .ok none
        | _ => .error (s.ioError q)
      else .error (s.ioError q) := by
  simp only [current, find, sight]
  split_ifs
  · cases s.tree.find (place q) with
    | error why => cases why <;> rfl
    | ok t => cases t <;> rfl
  · rfl

/-- What is listed is what can be seen. -/
theorem entries_eq_of_sight (s : DirectoryStore) (q : String) :
    s.entries q =
      if isSystemPath (s.systemPath q) then
        match sight s.tree q with
        | .dir names =>
          .ok (names.map fun e => ⟨e.1, (if q = "." then "" else q ++ "/") ++ e.1, if e.2 then .dir else .file⟩)
        | _ => .error (.notFound q)
      else .error (.notFound q) := by
  simp only [entries, find, sight]
  by_cases taken : isSystemPath (s.systemPath q) = true
  · rw [if_pos taken, if_pos taken]
    cases s.tree.find (place q) with
    | error why => rfl
    | ok t =>
        cases t with
        | file content => rfl
        | dir children =>
            simp only [List.map_map]
            rfl
  · rw [if_neg taken, if_neg taken]

/-- Trees that are the same but for what the store keeps for itself look the same from every other path. -/
theorem sight_of_sameBeside (same : SameBeside metaName t t') (tidy : t.Tidy) (tidy' : t'.Tidy)
    (outside : (place q).head? ≠ some metaName) : sight t' q = sight t q := by
  by_cases root : q = "."
  · subst root
    obtain ⟨entries, entries', rfl, rfl, -⟩ := id same
    simp only [sight, place, if_true, Tree.find_nil, shown_root, same.erase_eq tidy tidy']
  · have found := same.find outside fun top => root (place_eq_nil_iff.mp top)
    simp only [sight, found]

/-! ### The log -/

/-- What becomes of an entry that is to be added to the log. -/
def logAnswer (s : DirectoryStore) : Except StoreError Unit :=
  if isSystemPath (s.systemPath metaName) then
    match logSight s.tree with
    | .error .refused => .error (s.ioError metaName)
    | .ok true => .error (s.ioError logPath)
    | _ => if isSystemPath (s.systemPath logPath) then .ok () else .error (s.ioError logPath)
  else .error (s.ioError metaName)

theorem logAnswer_congr (root : s'.root = s.root) (seen : logSight s'.tree = logSight s.tree) :
    s'.logAnswer = s.logAnswer := by
  simp only [logAnswer, systemPath_congr root, ioError_congr root, seen]

/-- Whether the directory of the log is made can be told from what is seen of the log, and the log looks the same
then. -/
theorem find_logPlace_makeDirs (root : t.isDir = true) :
    ((t.makeDirs [metaName]).1 = false ↔ logSight t = .error .refused) ∧
      (t.makeDirs [metaName]).2.find logPlace = t.find logPlace := by
  unfold logSight
  cases t with
  | file content => cases root
  | dir entries =>
      have named : Tree.isName metaName = true ∧ Tree.isName logName = true := by decide
      rw [Tree.makeDirs_cons named.1, logPlace, Tree.find_insert_self named.1]
      cases held : Entries.find? metaName entries with
      | none => simp [Tree.find, named, held, Tree.makeDirs, Tree.empty, Tree.isDir, Entries.find?, Except.map]
      | some u =>
          cases u with
          | file content => simp [Tree.find, named, held, Tree.makeDirs, Tree.isDir, Except.map]
          | dir children =>
              cases inside : Entries.find? logName children <;>
                simp [Tree.find, named, held, inside, Tree.makeDirs, Tree.isDir, Except.map]

/-- What an error says about a file that cannot be looked at. -/
theorem current_eq_error {failure : StoreError} (failed : s.current q = .error failure) : failure = s.ioError q := by
  unfold current at failed
  split at failed <;> cases failed
  rfl

theorem place_logPath : place logPath = logPlace := rfl

/-- Whether the log can be opened can be told from what is seen of it. -/
theorem logOpens_iff :
    s.LogOpens ↔ isSystemPath (s.systemPath logPath) = true ∧
      (logSight s.tree = .ok false ∨ logSight s.tree = .error .missing) := by
  simp only [LogOpens, current_eq_ok_iff, exists_and_left, exists_eq', and_true, Tree.isOpen_iff, Tree.file?, logSight,
    place_logPath]
  refine and_congr_right fun _ => ?_
  cases s.tree.find logPlace with
  | error why => cases why <;> simp [Except.map]
  | ok t => cases t <;> simp [Except.map, Tree.isDir]

theorem logAnswer_eq_ok_iff : s.logAnswer = .ok () ↔ s.LogOpens := by
  rw [logOpens_iff, logAnswer]
  by_cases inner : isSystemPath (s.systemPath logPath) = true
  · have outer : isSystemPath (s.systemPath metaName) = true := by
      rw [systemPath_logPath] at inner
      exact isSystemPath_of_append inner
    simp only [outer, inner, if_true, true_and]
    cases logSight s.tree with
    | error why => cases why <;> simp
    | ok dir => cases dir <;> simp
  · simp only [inner, Bool.false_eq_true, if_false, false_and, iff_false]
    split_ifs
    · split <;> simp
    · simp

/-- An entry is not added to a log that cannot be opened; at most the directory of the log is made. -/
theorem log_of_closed (root : s.tree.isDir = true) (closed : ¬ s.LogOpens) (e : LogEntry) :
    ∃ tree, s.log e = (s.logAnswer, { s with tree }) ∧ (tree = s.tree ∨ tree = (s.tree.makeDirs [metaName]).2) := by
  obtain ⟨made, same⟩ := find_logPlace_makeDirs root
  have failed : s.current logPath = .error (s.ioError logPath) := by
    cases result : s.current logPath with
    | ok before => exact absurd ⟨before, result⟩ closed
    | error failure => rw [current_eq_error result]
  have failed' : { s with tree := (s.tree.makeDirs [metaName]).2 : DirectoryStore }.current logPath =
      .error (s.ioError logPath) := by
    rw [← failed]
    exact current_congr rfl same
  unfold log logAnswer
  by_cases outer : isSystemPath (s.systemPath metaName) = true
  · refine ⟨(s.tree.makeDirs [metaName]).2, ?_, .inr rfl⟩
    simp only [outer, Bool.not_true, Bool.false_eq_true, if_false, if_true]
    cases result : (s.tree.makeDirs [metaName]).1 with
    | false =>
        rw [made.mp result]
        rfl
    | true =>
        simp only [failed', Bool.not_true, Bool.false_eq_true, if_false]
        split
        · rename_i refused
          rw [made.mpr refused] at result
          cases result
        · rfl
        · rename_i free occupied
          rw [logOpens_iff] at closed
          have inner : ¬ isSystemPath (s.systemPath logPath) = true := by
            intro inner
            refine closed ⟨inner, ?_⟩
            cases seen : logSight s.tree with
            | error why => cases why <;> simp_all
            | ok dir => cases dir <;> simp_all
          rw [if_neg inner]
  · refine ⟨s.tree, ?_, .inl rfl⟩
    simp only [outer, Bool.not_false, if_true, Bool.false_eq_true, if_false]

/-- Only what the store keeps for itself is another one after an entry was to be added. -/
theorem sameBeside_log (root : s.tree.isDir = true) (e : LogEntry) :
    SameBeside metaName s.tree (s.log e).2.tree := by
  have made : SameBeside metaName s.tree (s.tree.makeDirs [metaName]).2 := .makeDirs_own root []
  unfold log
  simp only
  split_ifs
  · exact .refl root
  · exact made
  · split
    · exact made
    · split
      · rename_i tree put
        exact made.trans (.putFile_own put)
      · exact made

/-- What is so of a store after an entry was to be added to its log. -/
structure Logged (s : DirectoryStore) (e : LogEntry) (tree : Tree) : Prop where
  state : s.log e = (s.logAnswer, { s with tree })
  touched : s.tree.TouchedAt tree logPlace True
  file? : tree.file? logPlace =
    if s.logAnswer.isOk then some ((s.tree.file? logPlace).getD .empty ++ e.line.toUTF8) else s.tree.file? logPlace
  seen : logSight tree = if s.logAnswer.isOk then .ok false else logSight s.tree

/-- **An entry is added to the log** or nothing happens but that the directory of the log is made, and which of the
two can be told from what is seen of the log. -/
theorem exists_logged (root : s.tree.isDir = true) (e : LogEntry) : ∃ tree, s.Logged e tree := by
  by_cases opens : s.LogOpens
  · obtain ⟨before, opened⟩ := id opens
    obtain ⟨-, -, held⟩ := current_eq_ok_iff.mp opened
    obtain ⟨tree, changed, logged⟩ := log_of_opens root opened e
    have answer : s.logAnswer = .ok () := logAnswer_eq_ok_iff.mpr opens
    have written := changed.file? logPlace
    rw [if_pos rfl] at written
    refine ⟨tree, logged.trans (by rw [answer]), changed.touchedAt.mono fun _ => trivial, ?_, ?_⟩
    · rw [written, answer, ← held]
      rfl
    · rw [answer, logSight, Tree.file?_eq_some.mp written]
      rfl
  · obtain ⟨tree, logged, same⟩ := log_of_closed root opens e
    have failed : s.logAnswer.isOk = false := by
      cases answer : s.logAnswer with
      | error failure => rfl
      | ok done => exact absurd (logAnswer_eq_ok_iff.mp answer) opens
    refine ⟨tree, logged, ?_, ?_, ?_⟩
    · rcases same with rfl | rfl
      · exact .refl root _
      · have nonempty : logPlace ≠ [] := by decide
        exact Tree.touchedAt_makeDirs root nonempty
    · rw [failed]
      rcases same with rfl | rfl
      · rfl
      · exact Tree.file?_makeDirs s.tree _ _
    · rw [failed]
      rcases same with rfl | rfl
      · rfl
      · rw [logSight, (find_logPlace_makeDirs root).2]
        rfl

/-! ### Answers -/

/-- A change elsewhere is not seen in the log. -/
theorem logAnswer_of_changedAt (outside : (place q).head? ≠ some metaName)
    (changed : s.tree.ChangedAt t (place q) content?) : ({ s with tree := t } : DirectoryStore).logAnswer = s.logAnswer := by
  refine logAnswer_congr rfl ?_
  rw [logSight, logSight, changed.find logPlace (by decide) (Ne.symm outside)]

section Answers

variable (root : s.tree.isDir = true) (canonical : IsCanonical q) (outside : (place q).head? ≠ some metaName)
  (now : Instant) (message : String) (content : ByteArray) (expected : Revision)

include root outside

/-- What a write answers depends on the file that it is about, on its name, and on the log. -/
theorem write_answer (canonical : IsCanonical q) :
    (s.write now q message content expected).1 =
      match s.current q with
      | .error failure => .error failure
      | .ok before =>
        match checkWrite q (before.map .ofContent) expected with
        | .error failure => .error failure
        | .ok () =>
          if ∀ name ∈ place q, Tree.isName name = true then s.logAnswer.map fun () => .ofContent content
          else .error (s.ioError (if ∀ name ∈ (place q).dropLast, Tree.isName name = true then q else parentPath q)) := by
  cases found : s.current q with
  | error failure => simp only [write, found]
  | ok before =>
      simp only
      cases checked : checkWrite q (before.map .ofContent) expected with
      | error failure => simp only [write, found, checked]
      | ok passed =>
          simp only
          by_cases names : ∀ name ∈ place q, Tree.isName name = true
          · obtain ⟨tree, changed, written⟩ := write_of_checked now message content root canonical found checked names
            obtain ⟨tree', logged⟩ := exists_logged changed.isDir (s := { s with tree })
              ⟨⟨q, message, .write, .ofContent content⟩, now⟩
            rw [written, logged.state, logAnswer_of_changedAt outside changed, if_pos names]
          · rw [write_of_unnamed now message content root canonical found checked names, if_neg names]

/-- What a removal answers depends on the file that it is about and on the log. -/
theorem delete_answer :
    (s.delete now q message expected).1 =
      match s.current q with
      | .error failure => .error failure
      | .ok before =>
        match checkDelete q (before.map .ofContent) expected with
        | .error failure => .error failure
        | .ok () => s.logAnswer := by
  cases found : s.current q with
  | error failure => simp only [delete, found]
  | ok before =>
      simp only
      cases checked : checkDelete q (before.map .ofContent) expected with
      | error failure => simp only [delete, found, checked]
      | ok passed =>
          obtain ⟨tree, changed, removed⟩ := delete_of_checked now message root found checked
          obtain ⟨tree', logged⟩ := exists_logged changed.isDir (s := { s with tree })
            ⟨⟨q, message, .delete, expected⟩, now⟩
          simp only
          rw [removed, logged.state, logAnswer_of_changedAt outside changed]

end Answers

section Resolved

variable {path : String} (now : Instant) (resolved : resolve path = .ok q)

include resolved

theorem call_read : call now (.read path) s = ((s.current q).map (·.map .ofContent), s) := by
  simp only [call, snapshot, resolved, bind, Except.bind, pure, Except.pure, Except.map]
  cases s.current q <;> rfl

theorem call_peek : call now (.peek path) s = (s.current q, s) := by
  rw [call_peek_eq, call_read now resolved]
  cases s.current q with
  | error e => rfl
  | ok content => cases content <;> rfl

theorem call_list : call now (.list path) s = (s.entries q, s) := by
  simp only [call, resolved]
  rfl

end Resolved

/-- **What is answered depends on what is seen** of the entry that the request is about and, if something is to be
changed, of the log. -/
theorem answer_of_sight (resolved : resolve r.path = .ok q) (isDir : s.tree.isDir = true) (isDir' : s'.tree.isDir = true)
    (root : s'.root = s.root) (seen : sight s'.tree q = sight s.tree q)
    (log : r.outcome? = none ∨ logSight s'.tree = logSight s.tree) (now : Instant) :
    (call now r s').1 = (call now r s).1 := by
  have current : s'.current q = s.current q := by
    rw [current_eq_of_sight, current_eq_of_sight, systemPath_congr root, ioError_congr root, seen]
  obtain ⟨canonical, outside⟩ := isCanonical_of_resolve resolved
  cases r with
  | peek path =>
      change resolve path = .ok q at resolved
      rw [call_peek now resolved, call_peek now resolved, current]
  | read path =>
      change resolve path = .ok q at resolved
      rw [call_read now resolved, call_read now resolved, current]
  | list path =>
      change resolve path = .ok q at resolved
      rw [call_list now resolved, call_list now resolved, entries_eq_of_sight, entries_eq_of_sight,
        systemPath_congr root, seen]
  | write path message content expected =>
      change resolve path = .ok q at resolved
      have answer : s'.logAnswer = s.logAnswer := logAnswer_congr root (log.resolve_left (by simp [Request.outcome?]))
      rw [call_write now _ _ _ resolved, call_write now _ _ _ resolved, write_answer isDir' outside _ _ _ _ canonical,
        write_answer isDir outside _ _ _ _ canonical, current, answer, ioError_congr root]
  | delete path message expected =>
      change resolve path = .ok q at resolved
      have answer : s'.logAnswer = s.logAnswer := logAnswer_congr root (log.resolve_left (by simp [Request.outcome?]))
      rw [call_delete now _ _ resolved, call_delete now _ _ resolved, delete_answer isDir' outside,
        delete_answer isDir outside, current, answer]

end RecordTree.DirectoryStore
