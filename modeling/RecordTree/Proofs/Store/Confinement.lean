import RecordTree.Proofs.Store.Effects
import RecordTree.Proofs.Store.Log
import RecordTree.Proofs.Store.Reach

/-!
# A store in a directory is confined

A request about a path of any spelling is refused before anything is looked at, or it is about one entry below the
root of the store that is neither the store's own directory nor in it, and there it stays (`confined`). So no sequence
of requests tells or changes anything outside of the root, or anything that is in the store's own directory but for the
log, which only grows: two stores that differ in nothing else answer alike (`SameOutside.run`), and what came of a
store differs from it in the files of the requests and in the end of the log alone (`Keeps`).
-/

namespace RecordTree.DirectoryStore

open RecordTree.Path (IsName ofNames)
open RecordTree.Tree (SameBeside)

variable {s s' s'' : DirectoryStore} {q : String} {r : Request} {calls calls' : List (Instant × Request)}

/-! ### Stores that differ in what is their own -/

/-- Whether two stores are the same for one who can neither look into what a store keeps for itself nor tell whether
the log is there. -/
structure SameOutside (s s' : DirectoryStore) : Prop where
  root : s'.root = s.root
  tidy : s.tree.Tidy
  tidy' : s'.tree.Tidy
  beside : SameBeside metaName s.tree s'.tree
  log : logSight s'.tree = logSight s.tree

section Beside

variable (current : s'.current q = s.current q)
  (beside : SameBeside metaName s.tree s'.tree) (outside : (place q).head? ≠ some metaName)
  (now : Instant) (message : String) (content : ByteArray) (expected : Revision)

include current beside outside

/-- A file is written in both stores or in neither. -/
theorem sameBeside_write (canonical : IsCanonical q) :
    SameBeside metaName (s.write now q message content expected).2.tree
      (s'.write now q message content expected).2.tree := by
  obtain ⟨parts, all, rfl⟩ := canonical
  have above := Tree.head?_ne_head?_dropLast (p := [metaName]) (by simp) (Ne.symm outside)
  obtain ⟨made, beside'⟩ := beside.makeDirs (Ne.symm above)
  unfold write
  simp only [current, place_parentPath all, made]
  split
  · exact beside
  · split
    · exact beside
    · split_ifs
      · exact beside'
      · rcases beside'.putFile outside with ⟨put, put'⟩ | ⟨u, u', put, put', beside''⟩
        · rw [put, put']
          exact beside'
        · rw [put, put']
          have logged := sameBeside_log (s := { s with tree := u }) beside''.isDir.1
          have logged' := sameBeside_log (s := { s' with tree := u' }) beside''.isDir.2
          exact ((logged _).symm.trans beside'').trans (logged' _)

/-- A file is removed from both stores or from neither. -/
theorem sameBeside_delete :
    SameBeside metaName (s.delete now q message expected).2.tree (s'.delete now q message expected).2.tree := by
  unfold delete
  simp only [current]
  split
  · exact beside
  · split
    · exact beside
    · have removed := beside.remove outside
      have logged := sameBeside_log (s := { s with tree := s.tree.remove (place q) }) removed.isDir.1
      have logged' := sameBeside_log (s := { s' with tree := s'.tree.remove (place q) }) removed.isDir.2
      exact ((logged _).symm.trans removed).trans (logged' _)

end Beside

/-- **Nothing that a store keeps for itself is told**: stores that are the same outside of it answer alike, and they
are left the same outside of it. -/
theorem SameOutside.call (same : SameOutside s s') (now : Instant) (r : Request) :
    (call now r s').1 = (call now r s).1 ∧ SameOutside (call now r s).2 (call now r s').2 := by
  cases resolved : resolve r.path with
  | error failure =>
      rw [call_of_unresolved now resolved, call_of_unresolved now resolved]
      exact ⟨rfl, same⟩
  | ok q =>
      obtain ⟨canonical, outside⟩ := isCanonical_of_resolve resolved
      obtain ⟨isDir, isDir'⟩ := same.beside.isDir
      have seen := sight_of_sameBeside same.beside same.tidy same.tidy' outside
      have answer := answer_of_sight resolved isDir isDir' same.root seen (.inr same.log) now
      have touched := touches isDir resolved now
      have touched' := touches isDir' resolved now
      have current : s'.current q = s.current q := by
        rw [current_eq_of_sight, current_eq_of_sight, systemPath_congr same.root, ioError_congr same.root, seen]
      refine ⟨answer, ?_, touched.tidy same.tidy, touched'.tidy same.tidy', ?_, ?_⟩
      · rw [touched.root, touched'.root, same.root]
      · cases r with
        | write path message content expected =>
            have resolved : resolve path = .ok q := resolved
            rw [call_write now _ _ _ resolved, call_write now _ _ _ resolved]
            exact sameBeside_write current same.beside outside _ _ _ _ canonical
        | delete path message expected =>
            have resolved : resolve path = .ok q := resolved
            rw [call_delete now _ _ resolved, call_delete now _ _ resolved]
            exact sameBeside_delete current same.beside outside _ _ _
        -- The others only look.
        | _ =>
            rw [touched.looks rfl, touched'.looks rfl]
            exact same.beside
      · rw [logSight_call isDir resolved, logSight_call isDir' resolved, answer, same.log]

/-! ### Runs -/

/-- An answer with the request that it is for. -/
abbrev Reply := Σ r : Request, Except StoreError r.Answer

/-- Answers requests, each at its time, one after the other. -/
def run : List (Instant × Request) → DirectoryStore → List Reply × DirectoryStore
  | [], s => ([], s)
  | (now, r) :: calls, s =>
    let (answer, s) := call now r s
    let (replies, s) := run calls s
    (⟨r, answer⟩ :: replies, s)

theorem run_cons (now : Instant) (r : Request) (calls : List (Instant × Request)) (s : DirectoryStore) :
    run ((now, r) :: calls) s =
      (⟨r, (call now r s).1⟩ :: (run calls (call now r s).2).1, (run calls (call now r s).2).2) := rfl

/-- Stores that are the same outside of what is their own answer alike all along. -/
theorem SameOutside.run (same : SameOutside s s') (calls : List (Instant × Request)) :
    (run calls s').1 = (run calls s).1 := by
  induction calls generalizing s s' with
  | nil => rfl
  | cons c calls ih =>
      obtain ⟨now, r⟩ := c
      obtain ⟨answer, same'⟩ := same.call now r
      rw [run_cons, run_cons, answer, ih same']

/-- Whether a request is for a change of the file at a place. -/
def Changes (r : Request) (p : List String) : Prop :=
  r.outcome? ≠ none ∧ ∃ q, resolve r.path = .ok q ∧ p = place q

/-- Whether a request is for a write to a place below a directory. -/
def WritesBelow (r : Request) (p : List String) : Prop :=
  (∃ content, r.outcome? = some (some content)) ∧ ∃ q, resolve r.path = .ok q ∧ p <+: place q ∧ p ≠ place q

/-- What the log is when some entries were added to it. -/
def withEntries (before : Option ByteArray) (entries : List LogEntry) : Option ByteArray :=
  if entries = [] then before else some (before.getD .empty ++ (Log.text entries).toUTF8)

theorem withEntries_append (before : Option ByteArray) (entries entries' : List LogEntry) :
    withEntries before (entries ++ entries') = withEntries (withEntries before entries) entries' := by
  by_cases none : entries = []
  · simp [withEntries, none]
  · by_cases none' : entries' = []
    · simp [withEntries, none, none']
    · simp [withEntries, none, none', Log.text_append_text, ByteArray.append_assoc]

/-- What a store keeps while requests are answered. -/
structure Keeps (calls : List (Instant × Request)) (s s' : DirectoryStore) : Prop where
  root : s'.root = s.root
  isDir : s'.tree.isDir = true
  tidy : s.tree.Tidy → s'.tree.Tidy
  /-- No file is another one but those that were to be changed, and the log. -/
  files : ∀ p, s'.tree.file? p ≠ s.tree.file? p → p = logPlace ∨ ∃ c ∈ calls, Changes c.2 p
  /-- The log is what it was, with a line behind it for each change that was done. -/
  log : ∃ entries, entries.Sublist (calls.filterMap fun c => c.2.note? c.1) ∧
    s'.tree.file? logPlace = withEntries (s.tree.file? logPlace) entries
  kept : ∀ p, s.tree.IsDirAt p → s'.tree.IsDirAt p
  /-- No directory came but those above files that were to be written, and the one of the log. -/
  grown : ∀ p, s'.tree.IsDirAt p → s.tree.IsDirAt p ∨ p = [metaName] ∨ ∃ c ∈ calls, WritesBelow c.2 p

namespace Keeps

theorem nil (isDir : s.tree.isDir = true) : Keeps [] s s where
  root := rfl
  isDir := isDir
  tidy tidy := tidy
  files _ other := absurd rfl other
  log := ⟨[], .slnil, rfl⟩
  kept _ found := found
  grown _ found := .inl found

/-- One request. -/
theorem call (isDir : s.tree.isDir = true) (now : Instant) (r : Request) : Keeps [(now, r)] s (call now r s).2 := by
  cases resolved : resolve r.path with
  | error failure =>
      rw [call_of_unresolved now resolved]
      exact { nil isDir with
        files := fun _ other => absurd rfl other
        log := ⟨[], List.nil_sublist _, rfl⟩
        grown := fun _ found => .inl found }
  | ok q =>
      have touched := touches isDir resolved now
      refine ⟨touched.root, touched.isDir, touched.tidy, fun p other => ?_, ?_, touched.kept, fun p found => ?_⟩
      · refine or_iff_not_imp_left.mpr fun elsewhere => ⟨_, List.mem_singleton_self _, fun quiet => ?_, q, resolved, ?_⟩
        · rw [touched.looks quiet] at other
          exact other rfl
        · by_contra other'
          exact other (touched.others p other' elsewhere)
      · by_cases quiet : r.outcome? = none
        · rw [touched.looks quiet]
          exact ⟨[], List.nil_sublist _, rfl⟩
        · obtain ⟨entry, noted⟩ := exists_entry resolved quiet now
          have text := touched.logged entry noted
          cases done : (DirectoryStore.call now r s).1.isOk with
          | false =>
              rw [done] at text
              exact ⟨[], List.nil_sublist _, text⟩
          | true =>
              rw [done] at text
              refine ⟨[entry], by simp [noted], text.trans ?_⟩
              simp [withEntries, Log.text_singleton]
      · rcases touched.grown p found with found | ⟨writes, above⟩ | ⟨-, -, own⟩
        · exact .inl found
        · exact .inr (.inr ⟨_, List.mem_singleton_self _, writes, q, resolved, above⟩)
        · exact .inr (.inl own)

/-- Requests after requests. -/
theorem trans (first : Keeps calls s s') (second : Keeps calls' s' s'') : Keeps (calls ++ calls') s s'' where
  root := second.root.trans first.root
  isDir := second.isDir
  tidy tidy := second.tidy (first.tidy tidy)
  files p other := by
    by_cases same : s'.tree.file? p = s.tree.file? p
    · rw [← same] at other
      exact (second.files p other).imp_right fun ⟨c, mem, changes⟩ => ⟨c, List.mem_append_right _ mem, changes⟩
    · exact (first.files p same).imp_right fun ⟨c, mem, changes⟩ => ⟨c, List.mem_append_left _ mem, changes⟩
  log := by
    obtain ⟨entries, noted, text⟩ := first.log
    obtain ⟨entries', noted', text'⟩ := second.log
    refine ⟨entries ++ entries', ?_, by rw [text', text, withEntries_append]⟩
    rw [List.filterMap_append]
    exact noted.append noted'
  kept p found := second.kept p (first.kept p found)
  grown p found := by
    rcases second.grown p found with found' | own | ⟨c, mem, writes⟩
    · rcases first.grown p found' with found | own | ⟨c, mem, writes⟩
      · exact .inl found
      · exact .inr (.inl own)
      · exact .inr (.inr ⟨c, List.mem_append_left _ mem, writes⟩)
    · exact .inr (.inl own)
    · exact .inr (.inr ⟨c, List.mem_append_right _ mem, writes⟩)

/-- Any number of requests. -/
theorem run (isDir : s.tree.isDir = true) (calls : List (Instant × Request)) : Keeps calls s (run calls s).2 := by
  induction calls generalizing s with
  | nil => exact nil isDir
  | cons c calls ih =>
      obtain ⟨now, r⟩ := c
      have first := Keeps.call isDir now r
      rw [run_cons]
      exact first.trans (ih first.isDir)

end Keeps

/-! ### Confinement -/

/-- A path is refused as one that the store does not take. -/
theorem eq_invalidPath_of_resolve {path : String} {failure : StoreError} (refused : resolve path = .error failure) :
    ∃ reason, failure = .invalidPath path reason := by
  cases normal : Path.normalize? path with
  | none =>
      rw [resolve, storePath, normal] at refused
      cases refused
      exact ⟨_, rfl⟩
  | some q =>
      rw [resolve_eq normal] at refused
      split_ifs at refused
      cases refused
      exact ⟨_, rfl⟩

/-- What keeps a request within the entry at a canonical path. -/
structure Confined (r : Request) (q : String) : Prop where
  normal : Path.normalize? r.path = some q
  /-- No part of the path is a step up, … -/
  down : Path.above ∉ Path.split q.toList
  /-- … and on the way that it tells stand names alone, … -/
  names : ∀ name ∈ place q, IsName name.toList
  /-- … of which the first is not that of the store's own directory. -/
  outside : (place q).head? ≠ some metaName
  /-- Every path that the operating system is given leads below the root of the store, and what the store takes to be
  there is what the operating system finds. -/
  led : ∀ (s : DirectoryStore) fs base, s.LiesAt fs base → ∀ p ∈ [q, parentPath q, metaName, logPath],
    (∀ reached, fs.walk (s.systemPath p) = .ok reached → reached = base ++ place p) ∧
      s.find p = if isSystemPath (s.systemPath p) then fs.reach (s.systemPath p) else .error .refused
  /-- Nothing but the entry is read, and of the log, whether it can be opened. -/
  answers : ∀ now (s s' : DirectoryStore), s.tree.isDir = true → s'.tree.isDir = true → s'.root = s.root →
    sight s'.tree q = sight s.tree q → (r.outcome? = none ∨ logSight s'.tree = logSight s.tree) →
      (call now r s').1 = (call now r s).1
  touches : ∀ now (s : DirectoryStore), s.tree.isDir = true → Touches now r q s

/-- What keeps a sequence of requests within a store. -/
structure Enclosed (calls : List (Instant × Request)) (s : DirectoryStore) : Prop where
  keeps : Keeps calls s (run calls s).2
  /-- Of what the store keeps for itself, nothing but the log is touched. -/
  own : ∀ p, p.head? = some metaName →
    (p ≠ logPlace → (run calls s).2.tree.file? p = s.tree.file? p) ∧
      ((run calls s).2.tree.IsDirAt p → s.tree.IsDirAt p ∨ p = [metaName])
  /-- Nothing of it is told. -/
  blind : ∀ s', SameOutside s s' → (run calls s').1 = (run calls s).1
  /-- The store stays where it is in a file system, … -/
  stays : ∀ fs base, s.LiesAt fs base → (run calls s).2.LiesAt (fs.replace base (run calls s).2.tree) base
  /-- … in which no file is another one but those that were to be changed, and the log; … -/
  files : ∀ fs base, s.LiesAt fs base → ∀ p, (fs.replace base (run calls s).2.tree).tree.file? p ≠ fs.tree.file? p →
    ∃ below, p = base ++ below ∧ (below = logPlace ∨ ∃ c ∈ calls, Changes c.2 below)
  /-- … and the directories are the same outside of the store. -/
  directories : ∀ fs base, s.LiesAt fs base → ∀ p, ¬ base <+: p →
    ((fs.replace base (run calls s).2.tree).tree.IsDirAt p ↔ fs.tree.IsDirAt p)

theorem confined_of_resolve (resolved : resolve r.path = .ok q) : Confined r q := by
  obtain ⟨normal, outside⟩ := normalize?_of_resolve resolved
  obtain ⟨canonical, -⟩ := isCanonical_of_resolve resolved
  constructor
  · exact normal
  · intro up
    by_cases root : q = "."
    · subst root
      revert up
      decide
    · exact (canonical.isName_of_mem_split root _ up).ne_above rfl
  · exact canonical.isName
  · exact outside
  · intro s fs base lies p mem
    have canonical' : IsCanonical p := by
      simp only [List.mem_cons, List.not_mem_nil, or_false] at mem
      rcases mem with rfl | rfl | rfl | rfl
      · exact canonical
      · exact canonical.parentPath
      · exact isCanonical_metaName
      · exact isCanonical_logPath
    exact ⟨fun reached walked => eq_append_of_walk_systemPath lies canonical' walked, find_eq_reach lies canonical'⟩
  · intro now s s' isDir isDir' root seen log
    exact answer_of_sight resolved isDir isDir' root seen log now
  · intro now s isDir
    exact DirectoryStore.touches isDir resolved now

/-- What is changed or written is not in the store's own directory. -/
theorem Changes.outside {p : List String} (changes : Changes r p) : p.head? ≠ some metaName := by
  obtain ⟨-, q, resolved, rfl⟩ := changes
  exact (isCanonical_of_resolve resolved).2

theorem WritesBelow.outside {p : List String} (writes : WritesBelow r p) : p.head? ≠ some metaName := by
  obtain ⟨-, q, resolved, ⟨below, same⟩, -⟩ := writes
  intro own
  obtain ⟨rest, rfl⟩ := List.head?_eq_some_iff.mp own
  exact (isCanonical_of_resolve resolved).2 (by rw [← same]; rfl)

theorem enclosed (isDir : s.tree.isDir = true) (calls : List (Instant × Request)) : Enclosed calls s := by
  have keeps := Keeps.run isDir calls
  constructor
  · exact keeps
  · intro p own
    constructor
    · intro elsewhere
      by_contra other
      rcases keeps.files p other with same | ⟨c, -, changes⟩
      · exact elsewhere same
      · exact changes.outside own
    · intro found
      rcases keeps.grown p found with there | same | ⟨c, -, writes⟩
      · exact .inl there
      · exact .inr same
      · exact absurd own writes.outside
  · exact fun s' same => same.run calls
  · exact fun fs base lies => lies.replace keeps.root keeps.kept
  · intro fs base lies p other
    by_cases inside : base <+: p
    · obtain ⟨below, rfl⟩ := inside
      refine ⟨below, rfl, keeps.files below ?_⟩
      have found : fs.tree.find (base ++ below) = s.tree.find below := by rw [Tree.find_append, lies.held]; rfl
      rwa [FileSystem.replace_tree, Tree.file?_congr (Tree.find_replace_append _ lies.held below), Tree.file?_congr found] at other
    · exact absurd (Tree.file?_replace _ lies.held inside) other
  · intro fs base lies p outside
    exact Tree.isDirAt_replace_iff _ lies.held outside

/-- **A store in a directory is confined.** Every request is refused for its path before the store is looked at, or it
is confined to the entry at a canonical path; every sequence of requests is enclosed in the store; and every store that
is opened is one that lies in a file system. -/
theorem confined :
    (∀ r : Request, (∃ reason, ∀ now (s : DirectoryStore), call now r s = (.error (.invalidPath r.path reason), s)) ∨
      ∃ q, Confined r q) ∧
    (∀ (s : DirectoryStore) (calls : List (Instant × Request)), s.tree.isDir = true → Enclosed calls s) ∧
    ∀ (fs : FileSystem) (root : String) (s : DirectoryStore), ofFound root (fs.reach root) = .ok s →
      s.tree.isDir = true ∧ ∃ base, s.LiesAt fs base := by
  refine ⟨fun r => ?_, fun s calls isDir => enclosed isDir calls, fun fs root s opened => liesAt_of_ofFound opened⟩
  cases resolved : resolve r.path with
  | ok q => exact .inr ⟨q, confined_of_resolve resolved⟩
  | error failure =>
      obtain ⟨reason, rfl⟩ := eq_invalidPath_of_resolve resolved
      exact .inl ⟨reason, fun now s => call_of_unresolved now resolved⟩

/-- A store that has a log, in the directory `data` beside the working directory. -/
def guarded : DirectoryStore :=
  ⟨"../data", .dir [(metaName, .dir [(logName, .file "old\n".toUTF8)]), ("a.json", .file "{}".toUTF8)]⟩

/-- The file system around it, with another file beside it. -/
def around : FileSystem := ⟨.dir [("data", guarded.tree), ("home", .empty), ("secret", .file "s".toUTF8)], ["home"]⟩

/-- Requests that take detours to what the store keeps for itself, out of it, and to a file of it. -/
def detours : List (Instant × Request) :=
  [(⟨0, 0⟩, .read "x/../.filedb/./history.log"), (⟨1, 0⟩, .delete "a/../../secret" "gone" (.ofContent "s".toUTF8)),
    (⟨2, 0⟩, .write "/x/..//b/c.json" "new" "{}".toUTF8 .none)]

/-- The log is not read, and the file beside the store stays. -/
theorem confined_detours :
    (∃ reason, ∀ now (s : DirectoryStore), call now (.read "x/../.filedb/./history.log") s =
        (.error (.invalidPath "x/../.filedb/./history.log" reason), s)) ∧
      guarded.tree.isDir = true ∧ ofFound "../data" (around.reach "../data") = .ok guarded ∧ Enclosed detours guarded ∧
        (around.replace ["data"] (run detours guarded).2.tree).tree.file? ["secret"] = around.tree.file? ["secret"] := by
  obtain ⟨requests, sequences, opens⟩ := confined
  have opened : ofFound "../data" (around.reach "../data") = .ok guarded := rfl
  obtain ⟨isDir, -⟩ := opens around "../data" guarded opened
  have enclosed := sequences guarded detours isDir
  have lies : guarded.LiesAt around ["data"] := ⟨rfl, rfl⟩
  refine ⟨(requests _).resolve_right ?_, isDir, opened, enclosed, ?_⟩
  · rintro ⟨q, within⟩
    have normal : Path.normalize? "x/../.filedb/./history.log" = some ".filedb/history.log" := by decide
    obtain rfl : ".filedb/history.log" = q := Option.some.inj (normal.symm.trans within.normal)
    exact within.outside rfl
  · by_contra other
    obtain ⟨below, same, -⟩ := enclosed.files around ["data"] lies ["secret"] other
    simp at same

end RecordTree.DirectoryStore
