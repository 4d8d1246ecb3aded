import RecordTree.Proofs.Store.Directory
import RecordTree.Proofs.Store.Log

/-!
# The history of a store in a directory

What the log of a store holds (`Remembers`) is its history, as long as every entry was made at a time that can be
written down (`Remembers.history_eq`). A change to a file outside of the store's own directory leaves the log as it
is, and to log a change adds one entry at the end (`Remembers.log`).
-/

namespace RecordTree.DirectoryStore

/-- Whether the log of a store can be opened and is the text of the given entries. No log is the text of no entry. -/
def Remembers (s : DirectoryStore) (entries : List LogEntry) : Prop :=
  ∃ before, s.current logPath = .ok before ∧ before.getD .empty = (Log.text entries).toUTF8

variable {s : DirectoryStore} {q : String} {entries : List LogEntry} {content? : Option ByteArray} {tree : Tree}

/-- A store without a directory of its own remembers nothing. -/
theorem remembers_nil (taken : isSystemPath (s.systemPath logPath) = true)
    (unlogged : s.tree.find [metaName] = .error .missing) : s.Remembers [] := by
  have missing : s.tree.find (place logPath) = .error .missing := by
    have below := s.tree.find_append [metaName] [logName]
    rw [unlogged] at below
    exact below
  refine ⟨none, current_eq_ok_iff.mpr ⟨taken, Tree.isOpen_iff.mpr (.inr missing), ?_⟩, rfl⟩
  rw [Tree.file?, missing]

namespace Remembers

/-- **What is logged is the history.** -/
theorem history_eq (remembers : s.Remembers entries) (plain : ∀ e ∈ entries, e.time.IsPlain) :
    s.history = .ok entries := by
  obtain ⟨before, opened, text⟩ := remembers
  obtain ⟨taken, isOpen, held⟩ := current_eq_ok_iff.mp opened
  rcases Tree.isOpen_iff.mp isOpen with ⟨content, held'⟩ | missing
  · have found := Tree.file?_eq_some.mp held'
    obtain rfl : before = some content := held.symm.trans held'
    obtain rfl : content = (Log.text entries).toUTF8 := text
    simp only [history, find, taken, if_true, found, Json.fromUTF8?_toUTF8, Log.read?_text plain]
  · obtain rfl : before = none := by rw [← held, Tree.file?, missing]
    have empty : Log.text entries = "" := String.toByteArray_inj.mp text.symm
    have read := Log.read?_text plain
    rw [empty] at read
    obtain rfl : [] = entries := Option.some.inj read
    simp only [history, find, taken, if_true, missing]

/-- What is done elsewhere leaves the log as it is. -/
theorem of_find (remembers : s.Remembers entries) (same : tree.find logPlace = s.tree.find logPlace) :
    ({ s with tree } : DirectoryStore).Remembers entries := by
  obtain ⟨before, opened, text⟩ := remembers
  refine ⟨before, ?_, text⟩
  rw [← opened]
  exact current_congr rfl same

/-- A change elsewhere leaves the log as it is. -/
theorem of_changedAt (remembers : s.Remembers entries) (outside : (place q).head? ≠ some metaName)
    (changed : s.tree.ChangedAt tree (place q) content?) : ({ s with tree } : DirectoryStore).Remembers entries :=
  remembers.of_find (changed.find _ (by decide) (Ne.symm outside))

/-- **To log a change adds one entry at the end.** -/
theorem log (remembers : s.Remembers entries) (root : s.tree.isDir = true) (e : LogEntry) :
    ∃ tree content, s.tree.ChangedAt tree logPlace (some content) ∧ s.log e = (.ok (), { s with tree }) ∧
      ({ s with tree } : DirectoryStore).Remembers (entries ++ [e]) := by
  obtain ⟨before, opened, text⟩ := remembers
  obtain ⟨taken, -, -⟩ := current_eq_ok_iff.mp opened
  obtain ⟨tree, logged, written⟩ := log_of_opens root opened e
  have held : tree.file? logPlace = some (before.getD .empty ++ e.line.toUTF8) := by
    rw [logged.file?, if_pos rfl]
  refine ⟨tree, _, logged, written, _,
    current_eq_ok_iff.mpr ⟨taken, Tree.isOpen_iff.mpr (.inl ⟨_, held⟩), held⟩, ?_⟩
  rw [Option.getD_some, text, Log.text_append]
  exact String.toByteArray_append.symm

end Remembers

end RecordTree.DirectoryStore
