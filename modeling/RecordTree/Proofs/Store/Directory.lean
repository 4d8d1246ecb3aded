import RecordTree.Proofs.Path
import RecordTree.Proofs.Tree.Change
import RecordTree.Store.Directory

/-!
# More on the store in a directory

What a change does to the tree of a store. A change that passes every check before its file is touched
(`DirectoryStore.Admits`) changes the file, and then it is logged, which succeeds if and only if the log can be
opened. So the files stay as they were under an error unless the log is what failed.
-/

namespace RecordTree

namespace DirectoryStore

open RecordTree.Path (IsName ofNames)

/-! ### Canonical paths -/

section Names

variable {names : List Path.Component} (all : ∀ name ∈ names, IsName name)

include all

theorem split_ofNames (nonempty : names ≠ []) : Path.split (ofNames names) = names := by
  rw [Path.ofNames_eq_of_ne_nil nonempty, Path.split_joinAll nonempty fun name mem => (all name mem).slashless]

theorem ofNames_ne_here (nonempty : names ≠ []) : String.ofList (ofNames names) ≠ "." := by
  intro same
  have cut := split_ofNames all nonempty
  rw [← String.toList_ofList (l := ofNames names), same] at cut
  exact (all Path.here (cut ▸ by decide)).ne_here rfl

/-- The way to a canonical path goes over its names. -/
theorem place_ofNames : place (String.ofList (ofNames names)) = names.map String.ofList := by
  by_cases nonempty : names = []
  · subst nonempty
    rfl
  · rw [place, if_neg (ofNames_ne_here all nonempty), String.toList_ofList, split_ofNames all nonempty]

/-- The directory of a file is one name up. -/
theorem place_parentPath :
    place (parentPath (String.ofList (ofNames names))) = (place (String.ofList (ofNames names))).dropLast := by
  rw [place_ofNames all, ← List.map_dropLast]
  have above : ∀ name ∈ names.dropLast, IsName name := fun name mem => all name ((List.dropLast_prefix names).subset mem)
  have cut : (Path.split (ofNames names)).dropLast = names.dropLast := by
    by_cases nonempty : names = []
    · subst nonempty
      rfl
    · rw [split_ofNames all nonempty]
  rw [parentPath, String.toList_ofList, cut]
  by_cases top : names.dropLast = []
  · rw [top]
    rfl
  · rw [← place_ofNames above, Path.ofNames_eq_of_ne_nil top]
    simp [top]

end Names

theorem place_eq_nil_iff {q : String} : place q = [] ↔ q = "." := by
  unfold place
  split_ifs with root
  · simp [root]
  · simp [root, Path.split_ne_nil]

/-- Different paths have different ways. -/
theorem place_injective {q q' : String} (same : place q = place q') : q = q' := by
  have back : ∀ q, q ≠ "." → String.ofList (Path.joinAll ((place q).map String.toList)) = q := by
    intro q inner
    have texts : (place q).map String.toList = Path.split q.toList := by simp [place, inner, Function.comp_def]
    rw [texts, Path.joinAll_split, String.ofList_toList]
  by_cases root : q = "."
  · rw [root, eq_comm, ← place_eq_nil_iff, ← same, root]
    rfl
  · have root' : q' ≠ "." := fun h => root (place_eq_nil_iff.mp (same.trans (place_eq_nil_iff.mpr h)))
    rw [← back q root, same, back q' root']

/-- Whether a path is in canonical form. -/
def IsCanonical (q : String) : Prop := ∃ names, (∀ name ∈ names, IsName name) ∧ q = String.ofList (ofNames names)

/-- The way to a canonical path goes over names. -/
theorem IsCanonical.isName {q : String} (canonical : IsCanonical q) : ∀ name ∈ place q, IsName name.toList := by
  obtain ⟨names, all, rfl⟩ := canonical
  rw [place_ofNames all]
  intro name mem
  obtain ⟨part, named, rfl⟩ := List.mem_map.mp mem
  rw [String.toList_ofList]
  exact all part named

/-- A path is the store's own if and only if its way begins with the name of the directory that the store keeps for
itself; no other path is refused. -/
theorem resolve_eq {path q : String} (normal : Path.normalize? path = some q) :
    resolve path =
      if (place q).head? = some metaName then .error (.invalidPath path (metaName ++ " is reserved")) else .ok q := by
  have own : q = metaName ∨ (metaName ++ "/").toList.isPrefixOf q.toList ↔ (place q).head? = some metaName := by
    obtain ⟨names, all, rfl⟩ := Path.normalize?_eq_some normal
    by_cases nonempty : names = []
    · subst nonempty
      decide
    · have first : names.head? = some metaName.toList ↔
          ofNames names = metaName.toList ∨ metaName.toList ++ ['/'] <+: ofNames names := by
        rw [← Path.head?_split_eq_some_iff (by decide), split_ofNames all nonempty]
      have text : ∀ cs : List Char, String.ofList cs = metaName ↔ cs = metaName.toList := fun cs =>
        ⟨fun same => by rw [← same, String.toList_ofList], fun same => by rw [same, String.ofList_toList]⟩
      have named : names.head?.map String.ofList = some metaName ↔ names.head? = some metaName.toList := by
        cases names.head? <;> simp [text]
      rw [place_ofNames all, List.head?_map, named, first, text, List.isPrefixOf_iff_prefix, String.toList_append,
        String.toList_ofList (l := ofNames names)]
      rfl
  rw [resolve, storePath, normal]
  simp only [bind, Except.bind, own]

/-- A path that is accepted is replaced by its canonical form. -/
theorem normalize?_of_resolve {path q : String} (resolved : resolve path = .ok q) :
    Path.normalize? path = some q ∧ (place q).head? ≠ some metaName := by
  cases normal : Path.normalize? path with
  | none =>
      rw [resolve, storePath, normal] at resolved
      cases resolved
  | some q' =>
      rw [resolve_eq normal] at resolved
      split_ifs at resolved with own
      cases resolved
      exact ⟨rfl, own⟩

theorem isCanonical_of_resolve {path q : String} (resolved : resolve path = .ok q) :
    IsCanonical q ∧ (place q).head? ≠ some metaName :=
  (normalize?_of_resolve resolved).imp_left Path.normalize?_eq_some

/-! ### What is at a path -/

variable {s : DirectoryStore} {q : String} {before : Option ByteArray}

/-- A file can be read, or be seen to be missing, where the system takes the path and the place is open. -/
theorem current_eq_ok_iff :
    s.current q = .ok before ↔
      isSystemPath (s.systemPath q) = true ∧ s.tree.IsOpen (place q) ∧ s.tree.file? (place q) = before := by
  by_cases taken : isSystemPath (s.systemPath q) = true
  · simp only [current, find, taken, if_true, true_and, Tree.isOpen_iff]
    cases found : s.tree.find (place q) with
    | error absence => cases absence <;> simp [Tree.file?, found]
    | ok t => cases t <;> simp [Tree.file?, found]
  · simp [current, find, taken]

theorem current_congr {s' : DirectoryStore} (root : s'.root = s.root)
    (same : s'.tree.find (place q) = s.tree.find (place q)) : s'.current q = s.current q := by
  have path : s'.systemPath q = s.systemPath q := by simp [systemPath, root]
  simp [current, find, ioError, path, same]

/-- The system takes a path that is joined from parts if it takes all of them with a slash between them. -/
theorem isSystemPath_systemPath (inner : q ≠ ".") (taken : isSystemPath (s.root ++ "/" ++ q) = true) :
    isSystemPath (s.systemPath q) = true := by
  simp only [isSystemPath, Bool.and_eq_true, Bool.not_eq_true', decide_eq_true_eq, String.toList_append,
    String.utf8ByteSize_append, List.contains_eq_mem, List.mem_append, decide_eq_false_iff_not, not_or] at taken ⊢
  rw [systemPath, if_neg inner, SystemPath.join]
  split_ifs
  · exact ⟨taken.1.2, by omega⟩
  · rw [String.toList_append, String.utf8ByteSize_append, List.mem_append, not_or]
    exact ⟨⟨taken.1.1.1, taken.1.2⟩, by omega⟩
  · simp only [String.toList_append, String.utf8ByteSize_append, List.mem_append, not_or]
    exact taken

/-! ### The log -/

/-- Whether the log can be opened: there is one, or nothing stands in its way. -/
def LogOpens (s : DirectoryStore) : Prop := ∃ before, s.current logPath = .ok before

theorem systemPath_logPath (s : DirectoryStore) :
    s.systemPath logPath = s.systemPath metaName ++ ("/" ++ logName) := by
  have relative : metaName.startsWith "/" = false ∧ logPath.startsWith "/" = false := by
    simp only [String.startsWith_string_eq_false_iff]
    decide
  have inner : metaName ≠ "." ∧ logPath ≠ "." := by decide
  simp only [systemPath, inner, if_false, SystemPath.join, relative, Bool.false_eq_true, or_false]
  split_ifs with empty slash <;> simp [logPath, String.append_assoc]

theorem isSystemPath_of_append {path rest : String} (taken : isSystemPath (path ++ rest) = true) :
    isSystemPath path = true := by
  simp only [isSystemPath, Bool.and_eq_true, Bool.not_eq_true', decide_eq_true_eq, String.toList_append,
    String.utf8ByteSize_append, List.contains_eq_mem, List.mem_append, decide_eq_false_iff_not, not_or] at taken ⊢
  exact ⟨taken.1.1, by omega⟩

theorem isOpen_logPlace_iff (t : Tree) :
    (t.makeDirs [metaName]).2.IsOpen (place logPath) ↔ t.IsOpen (place logPath) := by
  have kept : (t.makeDirs logPlace.dropLast).2.IsOpen logPlace ↔ t.IsOpen logPlace :=
    Tree.isOpen_makeDirs_iff (by decide) (by decide)
  exact kept

/-- **An entry is added to the log** if the log can be opened. -/
theorem log_of_opens (root : s.tree.isDir = true) (opened : s.current logPath = .ok before) (e : LogEntry) :
    ∃ tree, s.tree.ChangedAt tree logPlace (some (before.getD .empty ++ e.line.toUTF8)) ∧
      s.log e = (.ok (), { s with tree }) := by
  obtain ⟨taken, isOpen, held⟩ := current_eq_ok_iff.mp opened
  obtain ⟨made, tree, put, changed⟩ := Tree.exists_changedAt_putFile
    (before.getD .empty ++ e.line.toUTF8) root isOpen (by decide)
  have opened' : { s with tree := (s.tree.makeDirs [metaName]).2 : DirectoryStore }.current logPath = .ok before := by
    refine current_eq_ok_iff.mpr ⟨taken, (isOpen_logPlace_iff s.tree).mpr isOpen, ?_⟩
    rw [← held]
    exact Tree.file?_makeDirs s.tree [metaName] _
  refine ⟨tree, changed, ?_⟩
  have outer : isSystemPath (s.systemPath metaName) = true := by
    rw [systemPath_logPath] at taken
    exact isSystemPath_of_append taken
  have made' : (s.tree.makeDirs [metaName]).1 = true := made
  have put' : (s.tree.makeDirs [metaName]).2.putFile (before.getD .empty ++ e.line.toUTF8) logPlace = some tree := put
  simp only [log, outer, made', opened', put', Bool.not_true, Bool.false_eq_true, ↓reduceIte]

/-- Whatever becomes of an entry, no file is changed outside of what the store keeps for itself; and an entry is
added to no log that cannot be opened. -/
theorem log_frame (s : DirectoryStore) (e : LogEntry) :
    (∀ p, p.head? ≠ some metaName → (s.log e).2.tree.file? p = s.tree.file? p) ∧
      ((s.log e).1 = .ok () → s.LogOpens) := by
  have made : ∀ p, (s.tree.makeDirs [metaName]).2.file? p = s.tree.file? p := Tree.file?_makeDirs s.tree [metaName]
  unfold log
  split
  · exact ⟨fun p _ => rfl, fun logged => by cases logged⟩
  · simp only
    split
    · exact ⟨fun p _ => made p, fun logged => by cases logged⟩
    · split
      · exact ⟨fun p _ => made p, fun logged => by cases logged⟩
      · rename_i before opened
        obtain ⟨taken, isOpen, held⟩ := current_eq_ok_iff.mp opened
        have opens : s.LogOpens := ⟨_, current_eq_ok_iff.mpr ⟨taken, (isOpen_logPlace_iff s.tree).mp isOpen, rfl⟩⟩
        split
        · rename_i tree put
          refine ⟨fun p outside => ?_, fun _ => opens⟩
          have elsewhere : p ≠ logPlace := by
            rintro rfl
            exact outside rfl
          rw [Tree.file?_putFile put (by decide), if_neg elsewhere, made]
        · exact ⟨fun p _ => made p, fun logged => by cases logged⟩

/-! ### Changes -/

variable {expected : Revision} (now : Instant) (message : String) (content : ByteArray)

/-- **A write that passes the checks** puts the file in its place, and then it is logged. -/
theorem write_of_checked (root : s.tree.isDir = true) (canonical : IsCanonical q)
    (found : s.current q = .ok before) (checked : checkWrite q (before.map .ofContent) expected = .ok ())
    (names : ∀ name ∈ place q, Tree.isName name = true) :
    ∃ tree, s.tree.ChangedAt tree (place q) (some content) ∧
      s.write now q message content expected =
        (({ s with tree }.log ⟨⟨q, message, .write, .ofContent content⟩, now⟩).1.map fun () => .ofContent content,
          ({ s with tree }.log ⟨⟨q, message, .write, .ofContent content⟩, now⟩).2) := by
  obtain ⟨parts, all, rfl⟩ := canonical
  obtain ⟨-, isOpen, -⟩ := current_eq_ok_iff.mp found
  obtain ⟨made, tree, put, changed⟩ := Tree.exists_changedAt_putFile content root isOpen names
  refine ⟨tree, changed, ?_⟩
  simp only [write, found, checked, place_parentPath all, made, put, Bool.not_true, Bool.false_eq_true, ↓reduceIte]

/-- A write that is to put a file under no proper name makes the directories above it, as far as they can be made, and
fails. -/
theorem write_of_unnamed (root : s.tree.isDir = true) (canonical : IsCanonical q)
    (found : s.current q = .ok before) (checked : checkWrite q (before.map .ofContent) expected = .ok ())
    (unnamed : ¬ ∀ name ∈ place q, Tree.isName name = true) :
    s.write now q message content expected =
      (.error (s.ioError (if ∀ name ∈ (place q).dropLast, Tree.isName name = true then q else parentPath q)),
        { s with tree := (s.tree.makeDirs (place q).dropLast).2 }) := by
  obtain ⟨parts, all, rfl⟩ := canonical
  obtain ⟨-, isOpen, -⟩ := current_eq_ok_iff.mp found
  have nonempty : place (String.ofList (ofNames parts)) ≠ [] := fun top => isOpen.vacant (top ▸ Tree.isDirAt_nil root)
  have free : ∀ above, above <+: (place (String.ofList (ofNames parts))).dropLast → s.tree.file? above = none := by
    intro above within
    obtain ⟨within, proper⟩ := Tree.proper_of_prefix_dropLast nonempty within
    exact isOpen.file?_above within proper
  simp only [write, found, checked, place_parentPath all]
  split_ifs with made names names
  · rw [(Tree.isDirAt_makeDirs names free).1] at made
    cases made
  · rfl
  · split
    · rfl
    · rename_i tree put
      have made : (s.tree.makeDirs (place (String.ofList (ofNames parts))).dropLast).1 = true := by simpa using made
      exact absurd (Tree.isName_of_makeDirs_putFile made put) unnamed
  · have made : (s.tree.makeDirs (place (String.ofList (ofNames parts))).dropLast).1 = true := by simpa using made
    exact absurd (Tree.isName_of_makeDirs made) names

/-- A write that fails a check does nothing. -/
theorem write_of_unchecked
    (refused : ¬ ∃ before, s.current q = .ok before ∧ checkWrite q (before.map .ofContent) expected = .ok ()) :
    ∃ failure, s.write now q message content expected = (.error failure, s) := by
  cases found : s.current q with
  | error e => exact ⟨e, by simp only [write, found]⟩
  | ok before =>
      cases checked : checkWrite q (before.map .ofContent) expected with
      | error e => exact ⟨e, by simp only [write, found, checked]⟩
      | ok _ => exact absurd ⟨before, found, checked⟩ refused

/-- A write that fails a check, or that is to put a file under no proper name, changes no file. -/
theorem write_of_refused (root : s.tree.isDir = true) (canonical : IsCanonical q)
    (refused : ¬ ((∃ before, s.current q = .ok before ∧ checkWrite q (before.map .ofContent) expected = .ok ()) ∧
      ∀ name ∈ place q, Tree.isName name = true)) :
    ∃ failure tree, s.write now q message content expected = (.error failure, { s with tree }) ∧
      ∀ p, tree.file? p = s.tree.file? p := by
  by_cases fit : ∃ before, s.current q = .ok before ∧ checkWrite q (before.map .ofContent) expected = .ok ()
  · obtain ⟨before, found, checked⟩ := fit
    have unnamed : ¬ ∀ name ∈ place q, Tree.isName name = true := fun names =>
      refused ⟨⟨before, found, checked⟩, names⟩
    exact ⟨_, _, write_of_unnamed now message content root canonical found checked unnamed,
      Tree.file?_makeDirs s.tree _⟩
  · obtain ⟨failure, failed⟩ := write_of_unchecked now message content fit
    exact ⟨failure, s.tree, failed, fun p => rfl⟩

/-- **A removal that passes the checks** takes the file away, and then it is logged. -/
theorem delete_of_checked (root : s.tree.isDir = true) (found : s.current q = .ok before)
    (checked : checkDelete q (before.map .ofContent) expected = .ok ()) :
    ∃ tree, s.tree.ChangedAt tree (place q) none ∧
      s.delete now q message expected = { s with tree }.log ⟨⟨q, message, .delete, expected⟩, now⟩ := by
  obtain ⟨-, -, held⟩ := current_eq_ok_iff.mp found
  cases before with
  | none => cases checked
  | some content =>
      refine ⟨s.tree.remove (place q), Tree.changedAt_remove root held, ?_⟩
      simp only [delete, found, checked]

theorem delete_of_refused
    (refused : ¬ ∃ before, s.current q = .ok before ∧ checkDelete q (before.map .ofContent) expected = .ok ()) :
    ∃ failure, s.delete now q message expected = (.error failure, s) := by
  cases found : s.current q with
  | error e => exact ⟨e, by simp only [delete, found]⟩
  | ok before =>
      cases checked : checkDelete q (before.map .ofContent) expected with
      | error e => exact ⟨e, by simp only [delete, found, checked]⟩
      | ok _ => exact absurd ⟨before, found, checked⟩ refused

end DirectoryStore

/-! ### Requests for a change -/

/-- What a change leaves in its file: the content that is written, or no file. Other requests change nothing. -/
def Request.outcome? : Request → Option (Option ByteArray)
  | .write _ _ content _ => some (some content)
  | .delete _ _ _ => some none
  | .peek _ => none
  | .read _ => none
  | .list _ => none

/-- Whether a change may be made to a file in its current state. -/
def Request.check : Request → String → Option Revision → Except StoreError Unit
  | .write _ _ _ expected, q, current => checkWrite q current expected
  | .delete _ _ expected, q, current => checkDelete q current expected
  | .peek _, _, _ => .ok ()
  | .read _, _, _ => .ok ()
  | .list _, _, _ => .ok ()

/-- The entry that a change leaves in the log of a store once it is made. -/
def Request.note? (now : Instant) : Request → Option LogEntry
  | .write path message content _ =>
    (Path.normalize? path).map fun q => ⟨⟨q, message, .write, .ofContent content⟩, now⟩
  | .delete path message expected => (Path.normalize? path).map fun q => ⟨⟨q, message, .delete, expected⟩, now⟩
  | .peek _ => none
  | .read _ => none
  | .list _ => none

namespace DirectoryStore

/-- Whether a change passes every check that is made before its file is touched: the path is one of a file that the
store can look at, the file is in the state that the caller expects, and the file system takes the names. -/
structure Admits (s : DirectoryStore) (r : Request) (q : String) : Prop where
  resolved : resolve r.path = .ok q
  checked : ∃ before, s.current q = .ok before ∧ r.check q (before.map .ofContent) = .ok ()
  named : ∀ name ∈ place q, Tree.isName name = true

variable {s : DirectoryStore} {q : String} {r : Request} {content? : Option ByteArray}

section Resolved

variable {path : String} (now : Instant) (message : String) (content : ByteArray) (expected : Revision)

theorem call_write (resolved : resolve path = .ok q) :
    call now (.write path message content expected) s = s.write now q message content expected := by
  simp only [call, resolved]
  rfl

theorem call_delete (resolved : resolve path = .ok q) :
    call now (.delete path message expected) s = s.delete now q message expected := by
  simp only [call, resolved]
  rfl

end Resolved

/-- A peek is answered like a read, without the revision. -/
theorem call_peek_eq (now : Instant) (path : String) (s : DirectoryStore) :
    call now (.peek path) s = (peeked (call now (.read path) s).1, s) :=
  rfl

/-- A path that is refused is refused whatever is asked for. -/
theorem call_of_unresolved (now : Instant) {e : StoreError} (refused : resolve r.path = .error e) :
    call now r s = (.error e, s) := by
  cases r <;> simp only [Request.path] at refused <;> simp only [call, snapshot, refused] <;> rfl

/-- **A change that is admitted** is made, and then it is logged; that it is done means that it is logged. -/
theorem call_of_admits (root : s.tree.isDir = true) (now : Instant) (changes : r.outcome? = some content?)
    (admits : s.Admits r q) :
    ∃ tree entry, r.note? now = some entry ∧ s.tree.ChangedAt tree (place q) content? ∧
      (call now r s).2 = ({ s with tree }.log entry).2 ∧
      ((∃ answer, (call now r s).1 = .ok answer) ↔ ({ s with tree }.log entry).1 = .ok ()) := by
  obtain ⟨before, found, checked⟩ := admits.checked
  obtain ⟨normal, -⟩ := normalize?_of_resolve admits.resolved
  cases r with
  | peek path => cases changes
  | read path => cases changes
  | list path => cases changes
  | write path message content expected =>
      cases changes
      obtain ⟨tree, changed, written⟩ := write_of_checked now message content root
        (isCanonical_of_resolve admits.resolved).1 found checked admits.named
      have resolved : resolve path = .ok q := admits.resolved
      have normal' : Path.normalize? path = some q := normal
      have called := (call_write now message content expected resolved).trans written
      refine ⟨tree, ⟨⟨q, message, .write, .ofContent content⟩, now⟩, by simp [Request.note?, normal'], changed,
        by rw [called], ?_⟩
      rw [called]
      cases ({ s with tree }.log ⟨⟨q, message, .write, .ofContent content⟩, now⟩).1 with
      | error e =>
          constructor
          · rintro ⟨_, done⟩
            cases done
          · intro logged
            cases logged
      | ok _ => exact ⟨fun _ => rfl, fun _ => ⟨_, rfl⟩⟩
  | delete path message expected =>
      cases changes
      obtain ⟨tree, changed, removed⟩ := delete_of_checked now message root found checked
      have resolved : resolve path = .ok q := admits.resolved
      have normal' : Path.normalize? path = some q := normal
      have called := (call_delete now message expected resolved).trans removed
      refine ⟨tree, ⟨⟨q, message, .delete, expected⟩, now⟩, by simp [Request.note?, normal'], changed, by rw [called], ?_⟩
      rw [called]
      exact ⟨fun ⟨_, logged⟩ => logged, fun logged => ⟨(), logged⟩⟩

theorem call_of_refused (root : s.tree.isDir = true) (now : Instant) (changes : r.outcome? = some content?) (refused : ∀ q, ¬ s.Admits r q) :
    ∃ failure tree, call now r s = (.error failure, { s with tree }) ∧ ∀ p, tree.file? p = s.tree.file? p := by
  cases r with
  | peek path => cases changes
  | read path => cases changes
  | list path => cases changes
  | write path message content expected =>
      cases resolved : resolve path with
      | error e => exact ⟨e, s.tree, by simp only [call, resolved], fun p => rfl⟩
      | ok q =>
          obtain ⟨failure, tree, written, kept⟩ := write_of_refused now message content root
            (isCanonical_of_resolve resolved).1 fun admits => refused q ⟨resolved, admits.1, admits.2⟩
          exact ⟨failure, tree, (call_write now message content expected resolved).trans written, kept⟩
  | delete path message expected =>
      cases resolved : resolve path with
      | error e => exact ⟨e, s.tree, by simp only [call, resolved], fun p => rfl⟩
      | ok q =>
          have unchecked : ¬ ∃ before, s.current q = .ok before ∧
              checkDelete q (before.map .ofContent) expected = .ok () := by
            rintro ⟨before, found, checked⟩
            refine refused q ⟨resolved, ⟨before, found, checked⟩, ?_⟩
            cases before with
            | none => cases checked
            | some content => exact Tree.isName_of_file? (current_eq_ok_iff.mp found).2.2
          obtain ⟨failure, removed⟩ := delete_of_refused now message unchecked
          exact ⟨failure, s.tree, (call_delete now message expected resolved).trans removed, fun p => rfl⟩

/-- What is changed does not stand in the way of the log. -/
theorem logOpens_iff_of_changedAt {tree : Tree} (outside : (place q).head? ≠ some metaName)
    (changed : s.tree.ChangedAt tree (place q) content?) :
    { s with tree : DirectoryStore }.LogOpens ↔ s.LogOpens := by
  have same : { s with tree : DirectoryStore }.current logPath = s.current logPath :=
    current_congr rfl (changed.find _ (by decide) (Ne.symm outside))
  unfold LogOpens
  rw [same]

/-- A change that is admitted is done if the log can be opened. -/
theorem done_of_admits (root : s.tree.isDir = true) (opened : s.LogOpens) (now : Instant)
    (changes : r.outcome? = some content?) (admits : s.Admits r q) :
    ∃ answer, (call now r s).1 = .ok answer := by
  obtain ⟨tree, entry, -, changed, -, answer⟩ := call_of_admits root now changes admits
  obtain ⟨before, opened⟩ := (logOpens_iff_of_changedAt (isCanonical_of_resolve admits.resolved).2 changed).mpr opened
  obtain ⟨tree', -, logged⟩ := log_of_opens changed.isDir opened entry
  exact answer.mpr (by rw [logged])

/-- A change that is admitted fails if the log cannot be opened, but it was made. -/
theorem failed_of_admits (root : s.tree.isDir = true) (closed : ¬ s.LogOpens) (now : Instant)
    (changes : r.outcome? = some content?) (admits : s.Admits r q) :
    (∃ failure, (call now r s).1 = .error failure) ∧
      ∀ p, p.head? ≠ some metaName →
        (call now r s).2.tree.file? p = if p = place q then content? else s.tree.file? p := by
  obtain ⟨tree, entry, -, changed, state, answer⟩ := call_of_admits root now changes admits
  have opens := logOpens_iff_of_changedAt (isCanonical_of_resolve admits.resolved).2 changed
  constructor
  · cases result : (call now r s).1 with
    | error failure => exact ⟨failure, rfl⟩
    | ok result' => exact absurd (opens.mp ((log_frame _ entry).2 (answer.mp ⟨result', result⟩))) closed
  · intro p outside
    rw [state, (log_frame _ entry).1 p outside]
    exact changed.file? p

/-- **When a store keeps its files under an error**: a write or a removal that fails leaves every file as it was,
outside of what the store keeps for itself, if and only if the log can be opened or the change is refused before its
file is touched (or would leave the file as it is). -/
theorem keeps_files_of_failed_iff (root : s.tree.isDir = true) (now : Instant) (changes : r.outcome? = some content?) :
    (∀ failure, (call now r s).1 = .error failure →
        ∀ p, p.head? ≠ some metaName → (call now r s).2.tree.file? p = s.tree.file? p) ↔
      s.LogOpens ∨ ∀ q, s.Admits r q → s.tree.file? (place q) = content? := by
  constructor
  · intro keeps
    refine or_iff_not_imp_left.mpr fun closed q admits => ?_
    obtain ⟨⟨failure, failed⟩, files⟩ := failed_of_admits root closed now changes admits
    have inside := (isCanonical_of_resolve admits.resolved).2
    have kept := keeps failure failed (place q) inside
    rw [files _ inside, if_pos rfl] at kept
    exact kept.symm
  · intro safe failure failed p outside
    by_cases admitted : ∃ q, s.Admits r q
    · obtain ⟨q, admits⟩ := admitted
      rcases Classical.em s.LogOpens with opened | closed
      · obtain ⟨answer, done⟩ := done_of_admits root opened now changes admits
        rw [done] at failed
        cases failed
      · rw [(failed_of_admits root closed now changes admits).2 p outside]
        split_ifs with here
        · rw [here, safe.resolve_left closed q admits]
        · rfl
    · obtain ⟨failure', tree, refused, kept⟩ := call_of_refused root now changes fun q admits => admitted ⟨q, admits⟩
      rw [refused]
      exact kept p

/-- A store in which a file stands where the directory of the log would be. -/
def blocked : DirectoryStore := ⟨"/data", .dir [(metaName, .file "x".toUTF8)]⟩

theorem blocked_admits : blocked.Admits (.write "a.json" "add a" "{}".toUTF8 .none) "a.json" where
  resolved := rfl
  checked := by
    have taken : isSystemPath (blocked.systemPath "a.json") = true :=
      isSystemPath_systemPath (by decide) (by decide)
    have isOpen : blocked.tree.IsOpen (place "a.json") := Tree.isOpen_iff.mpr (.inr rfl)
    exact ⟨none, current_eq_ok_iff.mpr ⟨taken, isOpen, rfl⟩, rfl⟩
  named := by decide

/-- In such a store a new file cannot be told from one that was refused. -/
theorem keeps_files_of_failed_iff_blocked :
    blocked.tree.isDir = true ∧
      ((∀ failure, (call ⟨0, 0⟩ (.write "a.json" "add a" "{}".toUTF8 .none) blocked).1 = .error failure →
          ∀ p, p.head? ≠ some metaName →
            (call ⟨0, 0⟩ (.write "a.json" "add a" "{}".toUTF8 .none) blocked).2.tree.file? p =
              blocked.tree.file? p) ↔
        blocked.LogOpens ∨ ∀ q, blocked.Admits (.write "a.json" "add a" "{}".toUTF8 .none) q →
          blocked.tree.file? (place q) = some "{}".toUTF8) :=
  ⟨rfl, keeps_files_of_failed_iff rfl ⟨0, 0⟩ rfl⟩

/-- A write fails and has put its file in place. -/
theorem not_forall_keeps_files_of_failed :
    ¬ ∀ (s : DirectoryStore) (now : Instant) (r : Request) (content? : Option ByteArray), s.tree.isDir = true →
      r.outcome? = some content? → ∀ failure, (call now r s).1 = .error failure →
        ∀ p, p.head? ≠ some metaName → (call now r s).2.tree.file? p = s.tree.file? p := by
  intro keeps
  have closed : ¬ blocked.LogOpens := by
    rintro ⟨before, opened⟩
    exact (current_eq_ok_iff.mp opened).2.1.reached rfl
  obtain ⟨⟨failure, failed⟩, files⟩ := failed_of_admits rfl closed ⟨0, 0⟩ rfl blocked_admits
  have kept := keeps blocked ⟨0, 0⟩ _ _ rfl rfl failure failed ["a.json"] (by decide)
  rw [files _ (by decide)] at kept
  cases kept

end DirectoryStore

end RecordTree
