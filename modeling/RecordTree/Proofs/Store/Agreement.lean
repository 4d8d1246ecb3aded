import RecordTree.Proofs.Store.History
import RecordTree.Proofs.Store.Listing
import RecordTree.Proofs.Store.Memory

/-!
# The store in memory and the store in a directory

Both stores answer alike at every step of every sequence of calls, and they come to hold the same files and to
remember the same changes, if they hold the same files at first and no file is called under a path that runs through
another one. One of them keeps a flat map from paths and the other one a tree, in which a write makes directories
that a removal leaves behind. What relates the two between the calls is `Simulates`: the files are the same, every
directory is on the way to a file that may be called, and the log reads as the history. Of every file that may be
called both then see the same (`Simulates.current_eq`), so a change is refused by both or is made by both, and when
it is made, the relation is kept (`Simulates.changed`).
-/

namespace RecordTree

/-- Whether a request is about a file. -/
def Request.isForFile : Request → Bool
  | .list _ => false
  | _ => true

namespace DirectoryStore

/-! ### What is to agree -/

/-- Whether two stores hold the same files, outside of what a store keeps for itself. -/
def SameFiles (m : MemoryStore) (s : DirectoryStore) : Prop :=
  ∀ p content, p.head? ≠ some metaName →
    (s.tree.file? p = some content ↔ ∃ q, m.files.get? q = some content ∧ place q = p)

/-- Whether two stores hold the same files and remember the same changes. -/
structure SameContent (m : MemoryStore) (s : DirectoryStore) : Prop where
  files : SameFiles m s
  history : ∃ entries, s.history = .ok entries ∧ entries.map (·.change) = m.history

/-- Whether the first answer, of a store in memory, is the one that a store in a directory gives. In a listing,
directories without files say nothing. -/
def Alike (s : DirectoryStore) : (r : Request) → Except StoreError r.Answer → Except StoreError r.Answer → Prop
  | .peek _, answer, answer' => answer = answer'
  | .read _, answer, answer' => answer = answer'
  | .write _ _ _ _, answer, answer' => answer = answer'
  | .delete _ _ _, answer, answer' => answer = answer'
  | .list path, answer, answer' =>
    match Path.normalize? path with
    | some q => answer = s.withoutBare q answer'
    | none => answer = answer'

/-- Whether two stores agree at every step of a sequence of calls, of which each comes at its time. -/
def AgreeAlong : MemoryStore → DirectoryStore → List (Instant × Request) → Prop
  | m, s, [] => SameContent m s
  | m, s, (now, r) :: calls =>
    SameContent m s ∧ Alike s r (MemoryStore.call r m).1 (call now r s).1 ∧
      AgreeAlong (MemoryStore.call r m).2 (call now r s).2 calls

/-! ### How the stores are at first, and what is called -/

/-- Whether the file system takes a path below a directory and every name on it. -/
structure Accepts (root q : String) : Prop where
  taken : isSystemPath (systemPath ⟨root, .empty⟩ q) = true
  named : ∀ name ∈ place q, Tree.isName name = true

/-- Whether two stores hold the same files and nothing else: no change is remembered, and there is no directory that
is not above one of the files. -/
structure SameStart (m : MemoryStore) (s : DirectoryStore) : Prop where
  faultless : m.faults = []
  unchanged : m.history = []
  canonical : ∀ q content, m.files.get? q = some content → IsCanonical q
  root : s.tree.isDir = true
  tidy : s.tree.Tidy
  files : ∀ p content, s.tree.file? p = some content ↔ ∃ q, m.files.get? q = some content ∧ place q = p
  directories : ∀ p, s.tree.IsDirAt p →
    p = [] ∨ ∃ q content, m.files.get? q = some content ∧ p <+: place q ∧ p ≠ place q
  unlogged : s.tree.find [metaName] = .error .missing

/-- The canonical paths of the files that are there at first or are called. -/
def IsFile (m : MemoryStore) (calls : List (Instant × Request)) (q : String) : Prop :=
  (∃ content, m.files.get? q = some content) ∨
    ∃ c ∈ calls, c.2.isForFile = true ∧ Path.normalize? c.2.path = some q

/-- The canonical paths that are involved at all. -/
def IsInvolved (m : MemoryStore) (calls : List (Instant × Request)) (q : String) : Prop :=
  (∃ content, m.files.get? q = some content) ∨ ∃ c ∈ calls, Path.normalize? c.2.path = some q

theorem IsFile.isInvolved {m : MemoryStore} {calls : List (Instant × Request)} {q : String}
    (file : IsFile m calls q) : IsInvolved m calls q :=
  file.imp_right fun ⟨c, mem, _, normal⟩ => ⟨c, mem, normal⟩

/-- Whether calls are such that both stores can fulfil them: none is about what a store keeps for itself, none takes
the root for a file, no file is above another one, the file system accepts every name, and the clock shows what can
be written down. -/
structure Fits (m : MemoryStore) (s : DirectoryStore) (calls : List (Instant × Request)) : Prop where
  outside : ∀ q, IsInvolved m calls q → (place q).head? ≠ some metaName
  inner : ∀ q, IsFile m calls q → q ≠ "."
  apart : ∀ q q', IsFile m calls q → IsFile m calls q' → place q <+: place q' → q = q'
  accepted : ∀ q, IsInvolved m calls q → Accepts s.root q
  logged : Accepts s.root logPath
  clock : ∀ c ∈ calls, c.1.IsPlain

/-! ### What relates the stores -/

variable {P : String → Prop} {m m' : MemoryStore} {s : DirectoryStore} {q : String} {content? : Option ByteArray}

/-- What the paths of files have to be. -/
structure Scope (P : String → Prop) (root : String) : Prop where
  canonical : ∀ q, P q → IsCanonical q
  outside : ∀ q, P q → (place q).head? ≠ some metaName
  inner : ∀ q, P q → q ≠ "."
  apart : ∀ q q', P q → P q' → place q <+: place q' → q = q'
  accepted : ∀ q, P q → Accepts root q

/-- What is so of a store in memory and a store in a directory between the calls. -/
structure Simulates (P : String → Prop) (m : MemoryStore) (s : DirectoryStore) : Prop where
  faultless : m.faults = []
  keys : ∀ q content, m.files.get? q = some content → P q
  root : s.tree.isDir = true
  tidy : s.tree.Tidy
  files : SameFiles m s
  directories : ∀ p, s.tree.IsDirAt p →
    p = [] ∨ p.head? = some metaName ∨ ∃ q, P q ∧ p <+: place q ∧ p ≠ place q
  log : ∃ entries, s.Remembers entries ∧ (∀ e ∈ entries, e.time.IsPlain) ∧ entries.map (·.change) = m.history

/-- The same change in both stores leaves them the same files. -/
theorem SameFiles.changed {tree : Tree} (same : SameFiles m s) (changed : s.tree.ChangedAt tree (place q) content?)
    (files : ∀ key, m'.files.get? key = if key = q then content? else m.files.get? key) :
    SameFiles m' { s with tree } := by
  intro p content outside
  rw [changed.file?]
  simp only [files]
  by_cases here : p = place q
  · subst here
    rw [if_pos rfl]
    constructor
    · rintro rfl
      exact ⟨q, if_pos rfl, rfl⟩
    · rintro ⟨key, found, same⟩
      rwa [if_pos (place_injective same)] at found
  · rw [if_neg here, same p content outside]
    refine exists_congr fun key => and_congr_left fun there => ?_
    have other : key ≠ q := by
      rintro rfl
      exact here there.symm
    rw [if_neg other]

/-- The log is no file that both stores hold. -/
theorem SameFiles.logged {tree tree' : Tree} (same : SameFiles m { s with tree })
    (logged : tree.ChangedAt tree' logPlace content?) : SameFiles m { s with tree := tree' } := by
  intro p content outside
  have elsewhere : p ≠ logPlace := by
    rintro rfl
    exact outside rfl
  rw [logged.file?, if_neg elsewhere]
  exact same p content outside

theorem head?_eq_of_within {p p' : List String} (within : p <+: p') (nonempty : p ≠ []) : p.head? = p'.head? := by
  obtain ⟨below, rfl⟩ := within
  exact (List.head?_append_of_ne_nil _ nonempty).symm

namespace Simulates

/-- A path that may be called is that of a file or could come to be one. -/
theorem isOpen (sim : Simulates P m s) (scope : Scope P s.root) (mem : P q) : s.tree.IsOpen (place q) := by
  refine ⟨fun there => ?_, fun refused => ?_⟩
  · rcases sim.directories _ there with top | own | ⟨q', mem', within, proper⟩
    · exact scope.inner q mem (place_eq_nil_iff.mp top)
    · exact scope.outside q mem own
    · exact proper (congrArg place (scope.apart q q' mem mem' within))
  · obtain ⟨above, below, content, split, deeper, held⟩ :=
      (Tree.find_eq_refused_iff (scope.accepted q mem).named).mp refused
    have nonempty : above ≠ [] := by
      rintro rfl
      rw [Tree.file?_of_isDirAt (Tree.isDirAt_nil sim.root)] at held
      cases held
    have within : above <+: place q := ⟨below, split.symm⟩
    have outside : above.head? ≠ some metaName := head?_eq_of_within within nonempty ▸ scope.outside q mem
    obtain ⟨q', held', rfl⟩ := (sim.files above content outside).mp held
    obtain rfl := scope.apart q' q (sim.keys q' content held') mem within
    exact deeper (by simpa using split)

theorem file?_place (sim : Simulates P m s) (scope : Scope P s.root) (mem : P q) :
    s.tree.file? (place q) = m.files.get? q := by
  ext content
  rw [sim.files _ _ (scope.outside q mem)]
  constructor
  · rintro ⟨q', held, same⟩
    rw [← place_injective same]
    exact held
  · exact fun held => ⟨q, held, rfl⟩

/-- **Both stores see the same of a file.** -/
theorem current_eq (sim : Simulates P m s) (scope : Scope P s.root) (mem : P q) :
    s.current q = .ok (m.files.get? q) :=
  current_eq_ok_iff.mpr ⟨(scope.accepted q mem).taken, sim.isOpen scope mem, sim.file?_place scope mem⟩

theorem sameContent (sim : Simulates P m s) : SameContent m s := by
  obtain ⟨entries, remembers, plain, changes⟩ := sim.log
  exact ⟨sim.files, entries, remembers.history_eq plain, changes⟩

/-- **A change that both stores make keeps what relates them.** -/
theorem changed (sim : Simulates P m s) (scope : Scope P s.root) (mem : P q) {tree : Tree}
    (changed : s.tree.ChangedAt tree (place q) content?) (e : LogEntry) (plain : e.time.IsPlain) (m' : MemoryStore)
    (files : ∀ key, m'.files.get? key = if key = q then content? else m.files.get? key)
    (history : m'.history = m.history ++ [e.change]) (faultless : m'.faults = []) :
    ∃ tree', ({ s with tree } : DirectoryStore).log e = (.ok (), { s with tree := tree' }) ∧
      Simulates P m' { s with tree := tree' } := by
  obtain ⟨entries, remembers, plains, changes⟩ := sim.log
  obtain ⟨tree', content, logged, written, remembers'⟩ :=
    (remembers.of_changedAt (scope.outside q mem) changed).log changed.isDir e
  refine ⟨tree', written, ⟨faultless, fun key content found => ?_, logged.isDir, logged.tidy (changed.tidy sim.tidy),
    (sim.files.changed changed files).logged logged, fun p there => ?_, entries ++ [e], remembers', ?_, ?_⟩⟩
  · rw [files] at found
    split_ifs at found with same
    · exact same ▸ mem
    · exact sim.keys key content found
  · rcases logged.isDirAt p there with there | ⟨within, -⟩
    · rcases changed.isDirAt p there with there | ⟨within, proper⟩
      · exact sim.directories p there
      · exact .inr (.inr ⟨q, mem, within, proper⟩)
    · by_cases top : p = []
      · exact .inl top
      · exact .inr (.inl (head?_eq_of_within within top))
  · intro e' mem'
    rcases List.mem_append.mp mem' with old | new
    · exact plains e' old
    · rw [List.mem_singleton.mp new]
      exact plain
  · rw [List.map_append, changes, history]
    rfl

/-- The files are at the same places. -/
theorem holds_iff (sim : Simulates P m s) (scope : Scope P s.root) (p : List String) : m.Holds p ↔ s.Holds p := by
  constructor
  · rintro ⟨key, content, held, rfl⟩
    have outside := scope.outside key (sim.keys key content held)
    exact ⟨outside, content, (sim.files _ _ outside).mpr ⟨key, held, rfl⟩⟩
  · rintro ⟨outside, content, held⟩
    obtain ⟨key, held, same⟩ := (sim.files p content outside).mp held
    exact ⟨key, content, held, same⟩

end Simulates

/-! ### One call -/

/-- What a call has to be for both stores to fulfil it. -/
structure Callable (P : String → Prop) (root : String) (now : Instant) (r : Request) : Prop where
  clock : now.IsPlain
  outside : ∀ q, Path.normalize? r.path = some q → (place q).head? ≠ some metaName
  accepted : ∀ q, Path.normalize? r.path = some q → Accepts root q
  file : r.isForFile = true → ∀ q, Path.normalize? r.path = some q → P q

/-- Whether both stores give the same answer to a call, and what relates them is kept. -/
def StepAgrees (P : String → Prop) (m : MemoryStore) (s : DirectoryStore) (now : Instant) (r : Request) : Prop :=
  Alike s r (MemoryStore.call r m).1 (call now r s).1 ∧
    ∃ tree, (call now r s).2 = { s with tree } ∧ Simulates P (MemoryStore.call r m).2 { s with tree }

variable {now : Instant} {path message : String} {content : ByteArray} {expected : Revision}

/-- A path that leaves the store is refused by both. -/
theorem stepAgrees_of_escape (sim : Simulates P m s) (now : Instant) {r : Request}
    (escape : Path.normalize? r.path = none) : StepAgrees P m s now r := by
  have refused : storePath r.path = .error (.invalidPath r.path "escapes the store root") := by
    rw [storePath, escape]
  have refused' : resolve r.path = .error (.invalidPath r.path "escapes the store root") := by
    rw [resolve, refused]
    rfl
  have alike : ∀ e : StoreError, Alike s r (.error e) (.error e) := by
    intro e
    cases r with
    | list path =>
        have escape : Path.normalize? path = none := escape
        simp only [Alike, escape]
    | _ => rfl
  unfold StepAgrees
  rw [MemoryStore.call_of_refused sim.faultless refused, call_of_unresolved now refused']
  exact ⟨alike _, s.tree, rfl, sim⟩

section Resolved

variable (sim : Simulates P m s) (scope : Scope P s.root) (normal : Path.normalize? path = some q)

include sim scope normal

/-- A file is read alike. -/
theorem stepAgrees_read (mem : P q) : StepAgrees P m s now (.read path) := by
  have resolved : resolve path = .ok q := by rw [resolve_eq normal, if_neg (scope.outside q mem)]
  unfold StepAgrees
  rw [MemoryStore.call_read sim.faultless (storePath_eq_ok_iff.mpr normal)]
  simp only [call, snapshot, resolved, bind, Except.bind, sim.current_eq scope mem, Alike]
  exact ⟨rfl, s.tree, rfl, sim⟩

/-- A file is looked into alike. -/
theorem stepAgrees_peek (mem : P q) : StepAgrees P m s now (.peek path) := by
  obtain ⟨alike, tree, state, sim'⟩ : StepAgrees P m s now (.read path) := stepAgrees_read sim scope normal mem
  unfold StepAgrees
  rw [MemoryStore.call_peek_eq]
  exact ⟨congrArg peeked alike, tree, state, sim'⟩

/-- A file is written by both or by none. -/
theorem stepAgrees_write (mem : P q) (plain : now.IsPlain) :
    StepAgrees P m s now (.write path message content expected) := by
  have resolved : resolve path = .ok q := by rw [resolve_eq normal, if_neg (scope.outside q mem)]
  have current := sim.current_eq scope mem
  unfold StepAgrees
  rw [MemoryStore.call_write sim.faultless (storePath_eq_ok_iff.mpr normal),
    call_write now message content expected resolved]
  cases checked : checkWrite q ((m.files.get? q).map .ofContent) expected with
  | error e =>
      simp only [write, current, checked]
      exact ⟨rfl, s.tree, rfl, sim⟩
  | ok _ =>
      obtain ⟨tree, changed, written⟩ := write_of_checked now message content sim.root (scope.canonical q mem)
        current checked (scope.accepted q mem).named
      obtain ⟨tree', logged, sim'⟩ := sim.changed scope mem changed ⟨⟨q, message, .write, .ofContent content⟩, now⟩
        plain
        { m with
          files := m.files.insert q content
          history := m.history ++ [⟨q, message, .write, .ofContent content⟩] }
        (fun key => m.files.get?_insert q key content) rfl sim.faultless
      rw [written, logged]
      exact ⟨rfl, tree', rfl, sim'⟩

/-- A file is removed by both or by none. -/
theorem stepAgrees_delete (mem : P q) (plain : now.IsPlain) :
    StepAgrees P m s now (.delete path message expected) := by
  have resolved : resolve path = .ok q := by rw [resolve_eq normal, if_neg (scope.outside q mem)]
  have current := sim.current_eq scope mem
  unfold StepAgrees
  rw [MemoryStore.call_delete sim.faultless (storePath_eq_ok_iff.mpr normal),
    call_delete now message expected resolved]
  cases checked : checkDelete q ((m.files.get? q).map .ofContent) expected with
  | error e =>
      simp only [delete, current, checked]
      exact ⟨rfl, s.tree, rfl, sim⟩
  | ok _ =>
      obtain ⟨tree, changed, removed⟩ := delete_of_checked now message sim.root current checked
      obtain ⟨tree', logged, sim'⟩ := sim.changed scope mem changed ⟨⟨q, message, .delete, expected⟩, now⟩ plain
        { m with
          files := m.files.erase q
          history := m.history ++ [⟨q, message, .delete, expected⟩] }
        (fun key => m.files.get?_erase q key) rfl sim.faultless
      rw [removed, logged]
      exact ⟨rfl, tree', rfl, sim'⟩

/-- A directory is listed alike. -/
theorem stepAgrees_list (outside : (place q).head? ≠ some metaName) (accepted : Accepts s.root q) :
    StepAgrees P m s now (.list path) := by
  have resolved : resolve path = .ok q := by rw [resolve_eq normal, if_neg outside]
  have keys : ∀ key content, m.files.get? key = some content → IsCanonical key ∧ key ≠ "." := by
    intro key content held
    have mem := sim.keys key content held
    exact ⟨scope.canonical key mem, scope.inner key mem⟩
  have listed := list_eq_withoutBare keys (sim.holds_iff scope) sim.root sim.tidy
    (Path.normalize?_eq_some normal) outside accepted.taken
  unfold StepAgrees
  rw [MemoryStore.call_of_faultless sim.faultless]
  simp only [MemoryStore.fulfil, storePath_eq_ok_iff.mpr normal, call, resolved, Alike, normal, bind, Except.bind,
    ← listed]
  split
  · exact ⟨rfl, s.tree, rfl, sim⟩
  · exact ⟨rfl, s.tree, rfl, sim⟩

end Resolved

/-- **Both stores answer a call alike**, and what relates them is kept. -/
theorem stepAgrees (sim : Simulates P m s) (scope : Scope P s.root) {r : Request}
    (callable : Callable P s.root now r) : StepAgrees P m s now r := by
  cases normal : Path.normalize? r.path with
  | none => exact stepAgrees_of_escape sim now normal
  | some q =>
      cases r with
      | peek path => exact stepAgrees_peek sim scope normal (callable.file rfl q normal)
      | read path => exact stepAgrees_read sim scope normal (callable.file rfl q normal)
      | write path message content expected =>
          exact stepAgrees_write sim scope normal (callable.file rfl q normal) callable.clock
      | delete path message expected =>
          exact stepAgrees_delete sim scope normal (callable.file rfl q normal) callable.clock
      | list path =>
          exact stepAgrees_list sim scope normal (callable.outside q normal) (callable.accepted q normal)

/-! ### All calls -/

theorem Simulates.agreeAlong (sim : Simulates P m s) (scope : Scope P s.root)
    {calls : List (Instant × Request)} (callable : ∀ c ∈ calls, Callable P s.root c.1 c.2) :
    AgreeAlong m s calls := by
  induction calls generalizing m s with
  | nil => exact sim.sameContent
  | cons c calls ih =>
      obtain ⟨now, r⟩ := c
      obtain ⟨first, others⟩ := List.forall_mem_cons.mp callable
      obtain ⟨alike, tree, state, sim'⟩ := stepAgrees sim scope first
      refine ⟨sim.sameContent, alike, ?_⟩
      rw [state]
      exact ih sim' scope others

/-- Stores that hold the same files at first are related. -/
theorem SameStart.simulates (start : SameStart m s) {calls : List (Instant × Request)} (fits : Fits m s calls) :
    Simulates (IsFile m calls) m s where
  faultless := start.faultless
  keys := fun _ content held => .inl ⟨content, held⟩
  root := start.root
  tidy := start.tidy
  files := fun p content _ => start.files p content
  directories := by
    intro p there
    rcases start.directories p there with top | ⟨q, content, held, within, proper⟩
    · exact .inl top
    · exact .inr (.inr ⟨q, .inl ⟨content, held⟩, within, proper⟩)
  log := ⟨[], remembers_nil fits.logged.taken start.unlogged, by simp, start.unchanged.symm⟩

theorem Fits.scope (start : SameStart m s) {calls : List (Instant × Request)} (fits : Fits m s calls) :
    Scope (IsFile m calls) s.root where
  canonical := by
    rintro q (⟨content, held⟩ | ⟨c, mem, -, normal⟩)
    · exact start.canonical q content held
    · exact Path.normalize?_eq_some normal
  outside := fun q mem => fits.outside q mem.isInvolved
  inner := fits.inner
  apart := fits.apart
  accepted := fun q mem => fits.accepted q mem.isInvolved

/-- **The two stores agree**: if they hold the same files at first, they give the same answers to all calls, and hold
the same files and remember the same changes at every step. -/
theorem agreeAlong_of_sameStart (start : SameStart m s) {calls : List (Instant × Request)} (fits : Fits m s calls) :
    AgreeAlong m s calls := by
  refine (start.simulates fits).agreeAlong (fits.scope start) fun c mem => ?_
  refine ⟨fits.clock c mem, fun q normal => ?_, fun q normal => ?_, fun file q normal => ?_⟩
  · exact fits.outside q (.inr ⟨c, mem, normal⟩)
  · exact fits.accepted q (.inr ⟨c, mem, normal⟩)
  · exact .inr ⟨c, mem, file, normal⟩

section Sole

/-- A store in memory with one file. -/
def soleInMemory : MemoryStore := ⟨SortedMap.empty.insert "a.json" "{}".toUTF8, [], []⟩

/-- A store in a directory with the same file. -/
def soleInDirectory : DirectoryStore := ⟨"/data", .dir [("a.json", .file "{}".toUTF8)]⟩

/-- A file is written and removed, which leaves a directory that is then listed. -/
def callsBelow : List (Instant × Request) :=
  [(⟨0, 0⟩, .write "b/c.json" "add c" "{}".toUTF8 .none),
    (⟨1, 0⟩, .delete "b//c.json" "drop c" (.ofContent "{}".toUTF8)), (⟨2, 0⟩, .list "./b")]

theorem get?_soleInMemory {q : String} {content : ByteArray} :
    soleInMemory.files.get? q = some content ↔ q = "a.json" ∧ content = "{}".toUTF8 := by
  rw [soleInMemory, SortedMap.get?_insert]
  split_ifs with same
  · simp [same, eq_comm]
  · simp [same]

theorem sameStart_sole : SameStart soleInMemory soleInDirectory := by
  have tidy : soleInDirectory.tree.Tidy :=
    .dir (List.pairwise_singleton _ _) (by decide) (List.forall_mem_singleton.mpr (.file _))
  refine ⟨rfl, rfl, fun q content held => ?_, rfl, tidy, fun p content => ?_, fun p there => ?_, rfl⟩
  · rw [(get?_soleInMemory.mp held).1]
    exact ⟨["a.json".toList], by decide, rfl⟩
  · rw [← Tree.mem_files_iff tidy]
    simp only [get?_soleInMemory]
    constructor
    · intro mem
      obtain ⟨rfl, rfl⟩ := Prod.mk.inj (List.mem_singleton.mp mem)
      exact ⟨_, ⟨rfl, rfl⟩, rfl⟩
    · rintro ⟨q, ⟨rfl, rfl⟩, rfl⟩
      exact List.mem_singleton.mpr rfl
  · left
    cases p with
    | nil => rfl
    | cons name p =>
        cases named : Tree.isName name with
        | false =>
            obtain ⟨entries, found⟩ := there
            rw [soleInDirectory, Tree.find_of_not_isName named] at found
            cases found
        | true =>
            obtain ⟨u, found, entries, below⟩ := (Tree.isDirAt_dir_cons named).mp there
            simp only [Entries.find?] at found
            split_ifs at found
            cases found
            cases p <;> cases below

theorem isFile_sole {q : String} (file : IsFile soleInMemory callsBelow q) : q ∈ ["a.json", "b/c.json"] := by
  rcases file with ⟨content, held⟩ | ⟨c, mem, file, normal⟩
  · rw [(get?_soleInMemory.mp held).1]
    exact List.mem_cons_self
  · simp only [callsBelow, List.mem_cons, List.not_mem_nil, or_false] at mem
    rcases mem with rfl | rfl | rfl
    · cases normal
      decide
    · cases normal
      decide
    · cases file

theorem isInvolved_sole {q : String} (involved : IsInvolved soleInMemory callsBelow q) :
    q ∈ ["a.json", "b/c.json", "b"] := by
  rcases involved with ⟨content, held⟩ | ⟨c, mem, normal⟩
  · rw [(get?_soleInMemory.mp held).1]
    exact List.mem_cons_self
  · simp only [callsBelow, List.mem_cons, List.not_mem_nil, or_false] at mem
    rcases mem with rfl | rfl | rfl <;> cases normal <;> decide

theorem fits_sole : Fits soleInMemory soleInDirectory callsBelow := by
  have accepts : ∀ q, q ≠ "." → isSystemPath ("/data" ++ "/" ++ q) = true →
      (∀ name ∈ place q, Tree.isName name = true) → Accepts "/data" q :=
    fun q inner taken named => ⟨isSystemPath_systemPath inner taken, named⟩
  refine ⟨fun q involved => ?_, fun q file => ?_, fun q q' file file' => ?_, fun q involved => ?_, ?_, ?_⟩
  · have outside : ∀ q ∈ ["a.json", "b/c.json", "b"], (place q).head? ≠ some metaName := by decide
    exact outside q (isInvolved_sole involved)
  · have inner : ∀ q ∈ ["a.json", "b/c.json"], q ≠ "." := by decide
    exact inner q (isFile_sole file)
  · have apart : ∀ q ∈ ["a.json", "b/c.json"], ∀ q' ∈ ["a.json", "b/c.json"], place q <+: place q' → q = q' := by decide
    exact apart q (isFile_sole file) q' (isFile_sole file')
  · have accepted : ∀ q ∈ ["a.json", "b/c.json", "b"], q ≠ "." ∧ isSystemPath ("/data" ++ "/" ++ q) = true ∧
        ∀ name ∈ place q, Tree.isName name = true := by decide
    obtain ⟨inner, taken, named⟩ := accepted q (isInvolved_sole involved)
    exact accepts q inner taken named
  · exact accepts logPath (by decide) (by decide) (by decide)
  · intro c mem
    simp only [callsBelow, List.mem_cons, List.not_mem_nil, or_false] at mem
    rcases mem with rfl | rfl | rfl <;> exact ⟨by decide, by decide⟩

/-- Both stores list the directory that is left as missing. -/
theorem agreeAlong_of_sameStart_sole :
    SameStart soleInMemory soleInDirectory ∧ Fits soleInMemory soleInDirectory callsBelow ∧
      AgreeAlong soleInMemory soleInDirectory callsBelow :=
  ⟨sameStart_sole, fits_sole, agreeAlong_of_sameStart sameStart_sole fits_sole⟩

end Sole

end DirectoryStore

end RecordTree
