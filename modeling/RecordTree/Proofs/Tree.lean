import Mathlib.Tactic.Common
import RecordTree.Proofs.Path
import RecordTree.Proofs.SortedMap
import RecordTree.Tree

/-!
# More on directory trees

What is found in a tree after it was changed. Directories that are made change no file (`file?_makeDirs`); to put
or remove a file changes the file at its place alone (`file?_putFile`, `file?_remove`), and makes no directory.
-/

namespace RecordTree.Tree

/-! ### Going down -/

@[simp] theorem find_nil (t : Tree) : t.find [] = .ok t := by
  cases t <;> rfl

theorem find_append (t : Tree) (above below : List String) :
    t.find (above ++ below) = (t.find above).bind (·.find below) := by
  induction above generalizing t with
  | nil => simp [Except.bind]
  | cons name above ih =>
      cases t with
      | file content => rfl
      | dir entries =>
          simp only [List.cons_append, find]
          split_ifs
          · rfl
          · split
            · exact ih _
            · rfl

theorem find_of_not_isName {entries : List (String × Tree)} {name : String} (bad : isName name = false)
    (place : List String) : (dir entries).find (name :: place) = .error .refused := by
  simp [find, bad]

section Entries

variable {entries : List (String × Tree)} {name n : String} {t : Tree} {place : List String}

theorem find_insert_self (named : isName name = true) :
    (dir (Entries.insert name t entries)).find (name :: place) = t.find place := by
  simp [find, named, Entries.find?_insert]

theorem find_insert_of_ne (other : n ≠ name) :
    (dir (Entries.insert name t entries)).find (n :: place) = (dir entries).find (n :: place) := by
  simp [find, Entries.find?_insert, other]

theorem find_erase_self (named : isName name = true) :
    (dir (Entries.erase name entries)).find (name :: place) = .error .missing := by
  simp [find, named, Entries.find?_erase]

theorem find_erase_of_ne (other : n ≠ name) :
    (dir (Entries.erase name entries)).find (n :: place) = (dir entries).find (n :: place) := by
  simp [find, Entries.find?_erase, other]

end Entries

/-! ### Files and directories at places -/

variable {t t' : Tree} {place p : List String} {content : ByteArray}

theorem file?_eq_some : t.file? place = some content ↔ t.find place = .ok (.file content) := by
  unfold file?
  split <;> simp_all

@[simp] theorem file?_empty (place : List String) : empty.file? place = none := by
  cases place with
  | nil => rfl
  | cons name place => cases named : isName name <;> simp [file?, find, empty, Entries.find?, named]

theorem file?_dir_cons {entries : List (String × Tree)} {name : String} (named : isName name = true)
    (place : List String) :
    (dir entries).file? (name :: place) = (Entries.find? name entries).bind (·.file? place) := by
  simp only [file?, find, named, Bool.not_true, Bool.false_eq_true, ↓reduceIte]
  cases Entries.find? name entries <;> rfl

theorem file?_congr {u : Tree} {q : List String} (same : t.find place = u.find q) : t.file? place = u.file? q := by
  unfold file?
  rw [same]

/-- Whether there is a directory at a place. -/
def IsDirAt (t : Tree) (place : List String) : Prop := ∃ entries, t.find place = .ok (.dir entries)

theorem isDirAt_congr {u : Tree} {q : List String} (same : t.find place = u.find q) :
    t.IsDirAt place ↔ u.IsDirAt q := by
  unfold IsDirAt
  rw [same]

theorem file?_of_isDirAt (found : t.IsDirAt place) : t.file? place = none := by
  obtain ⟨entries, found⟩ := found
  simp [file?, found]

theorem isDirAt_nil (root : t.isDir = true) : t.IsDirAt [] := by
  cases t with
  | file content => cases root
  | dir entries => exact ⟨entries, rfl⟩

theorem isDir_of_isDirAt_nil (found : t.IsDirAt []) : t.isDir = true := by
  obtain ⟨entries, found⟩ := found
  rw [find_nil] at found
  cases found
  rfl

/-- Nothing is below a file. -/
theorem find_of_file_above {below : List String} (found : t.file? place = some content) (deeper : below ≠ []) :
    t.find (place ++ below) = .error .refused := by
  obtain ⟨name, below, rfl⟩ := List.exists_cons_of_ne_nil deeper
  rw [find_append, file?_eq_some.mp found]
  rfl

/-- What is above something that is there is a directory. -/
theorem isDirAt_above {below : List String} (found : t.find (place ++ below) = .ok t') (deeper : below ≠ []) :
    t.IsDirAt place := by
  rw [find_append] at found
  cases above : t.find place with
  | error e =>
      rw [above] at found
      cases found
  | ok u =>
      cases u with
      | dir entries => exact ⟨entries, above⟩
      | file content =>
          obtain ⟨name, below, rfl⟩ := List.exists_cons_of_ne_nil deeper
          rw [above] at found
          cases found

/-- A file is at its own place, and what has a file below it is a directory. -/
theorem isDir_iff_of_file? (held : t.file? place = some content) : t.isDir = true ↔ place ≠ [] := by
  cases t with
  | file content' =>
      cases place with
      | nil => simp [isDir]
      | cons name place => cases held
  | dir entries =>
      cases place with
      | nil => cases held
      | cons name place => simp [isDir]

/-- **A place is refused** for a file that is on the way, or for the name that a directory on the way is looked up
for. -/
theorem find_eq_refused_iff_exists :
    t.find place = .error .refused ↔
      ∃ above name below, place = above ++ name :: below ∧
        ((∃ content, t.file? above = some content) ∨ t.IsDirAt above ∧ isName name = false) := by
  constructor
  · intro refused
    induction place generalizing t with
    | nil => simp at refused
    | cons name place ih =>
        cases t with
        | file content => exact ⟨[], name, place, rfl, .inl ⟨content, rfl⟩⟩
        | dir entries =>
            cases named : isName name with
            | false => exact ⟨[], name, place, rfl, .inr ⟨⟨entries, rfl⟩, named⟩⟩
            | true =>
                simp only [find, named, Bool.not_true, Bool.false_eq_true, ↓reduceIte] at refused
                cases found : Entries.find? name entries with
                | none => simp [found] at refused
                | some u =>
                    simp only [found] at refused
                    obtain ⟨above, bad, below, rfl, cause⟩ := ih refused
                    have down : (dir entries).find (name :: above) = u.find above := by simp [find, named, found]
                    refine ⟨name :: above, bad, below, rfl, ?_⟩
                    rwa [file?_congr down, isDirAt_congr down]
  · rintro ⟨above, name, below, rfl, ⟨content, held⟩ | ⟨⟨entries, found⟩, bad⟩⟩
    · exact find_of_file_above held (List.cons_ne_nil name below)
    · rw [find_append, found]
      simp [Except.bind, find, bad]

/-- A place is refused for a name on the way or for a file that is in the way. -/
theorem of_find_eq_refused (refused : t.find place = .error .refused) :
    (∃ name ∈ place, isName name = false) ∨
      ∃ above below content, place = above ++ below ∧ below ≠ [] ∧ t.file? above = some content := by
  obtain ⟨above, name, below, rfl, ⟨content, held⟩ | ⟨-, bad⟩⟩ := find_eq_refused_iff_exists.mp refused
  · exact .inr ⟨above, name :: below, content, rfl, List.cons_ne_nil name below, held⟩
  · exact .inl ⟨name, by simp, bad⟩

theorem isDirAt_dir_cons {entries : List (String × Tree)} {name : String} (named : isName name = true) :
    (dir entries).IsDirAt (name :: place) ↔ ∃ u, Entries.find? name entries = some u ∧ u.IsDirAt place := by
  simp only [IsDirAt, find, named, Bool.not_true, Bool.false_eq_true, ↓reduceIte]
  cases Entries.find? name entries <;> simp

theorem eq_nil_of_isDirAt_empty (found : empty.IsDirAt place) : place = [] := by
  cases place with
  | nil => rfl
  | cons name place =>
      obtain ⟨entries, found⟩ := found
      cases named : isName name <;> simp [find, empty, Entries.find?, named] at found

/-! ### Making directories -/

theorem makeDirs_cons {entries : List (String × Tree)} {name : String} (named : isName name = true)
    (place : List String) :
    (dir entries).makeDirs (name :: place) =
      ((((Entries.find? name entries).getD empty).makeDirs place).1,
        dir (Entries.insert name (((Entries.find? name entries).getD empty).makeDirs place).2 entries)) := by
  simp [makeDirs, named]

theorem makeDirs_of_not_isName {entries : List (String × Tree)} {name : String} (bad : isName name = false)
    (place : List String) : (dir entries).makeDirs (name :: place) = (false, dir entries) := by
  simp [makeDirs, bad]

/-- **Directories that are made change no file.** -/
theorem file?_makeDirs (t : Tree) (place p : List String) : (t.makeDirs place).2.file? p = t.file? p := by
  induction place generalizing t p with
  | nil => cases t <;> rfl
  | cons name place ih =>
      cases t with
      | file content => rfl
      | dir entries =>
          cases named : isName name with
          | false => rw [makeDirs_of_not_isName named]
          | true =>
              rw [makeDirs_cons named]
              cases p with
              | nil => rfl
              | cons n p =>
                  by_cases same : n = name
                  · subst same
                    rw [file?_congr (find_insert_self named), ih, file?_dir_cons named]
                    cases Entries.find? n entries with
                    | none => exact file?_empty p
                    | some u => rfl
                  · exact file?_congr (find_insert_of_ne same)

/-- The directories that are there after some were made were there or are on the way. -/
theorem of_isDirAt_makeDirs (found : (t.makeDirs place).2.IsDirAt p) : t.IsDirAt p ∨ p <+: place := by
  induction place generalizing t p with
  | nil =>
      left
      cases t <;> exact found
  | cons name place ih =>
      cases t with
      | file content => exact .inl found
      | dir entries =>
          cases named : isName name with
          | false =>
              rw [makeDirs_of_not_isName named] at found
              exact .inl found
          | true =>
              rw [makeDirs_cons named] at found
              cases p with
              | nil => exact .inr List.nil_prefix
              | cons n p =>
                  by_cases same : n = name
                  · subst same
                    rw [isDirAt_congr (find_insert_self named)] at found
                    rcases ih found with there | above
                    · cases held : Entries.find? n entries with
                      | none =>
                          rw [held] at there
                          obtain rfl := eq_nil_of_isDirAt_empty there
                          exact .inr (List.cons_prefix_cons.mpr ⟨rfl, List.nil_prefix⟩)
                      | some u =>
                          rw [held] at there
                          exact .inl ((isDirAt_dir_cons named).mpr ⟨u, held, there⟩)
                    · exact .inr (List.cons_prefix_cons.mpr ⟨rfl, above⟩)
                  · exact .inl ((isDirAt_congr (find_insert_of_ne same)).mp found)

/-- Directories that are there stay when some are made. -/
theorem isDirAt_makeDirs_of_isDirAt (place : List String) (found : t.IsDirAt p) :
    (t.makeDirs place).2.IsDirAt p := by
  induction place generalizing t p with
  | nil => cases t <;> exact found
  | cons name place ih =>
      cases t with
      | file content => exact found
      | dir entries =>
          cases named : isName name with
          | false =>
              rw [makeDirs_of_not_isName named]
              exact found
          | true =>
              rw [makeDirs_cons named]
              cases p with
              | nil => exact ⟨_, rfl⟩
              | cons n p =>
                  by_cases same : n = name
                  · subst same
                    obtain ⟨u, held, below⟩ := (isDirAt_dir_cons named).mp found
                    rw [isDirAt_congr (find_insert_self named), held]
                    exact ih below
                  · exact (isDirAt_congr (find_insert_of_ne same)).mpr found

/-- Directories are made under proper names where no file is in the way. -/
theorem isDirAt_makeDirs (names : ∀ name ∈ place, isName name = true)
    (free : ∀ above, above <+: place → t.file? above = none) :
    (t.makeDirs place).1 = true ∧ (t.makeDirs place).2.IsDirAt place := by
  induction place generalizing t with
  | nil =>
      cases t with
      | file content => cases free [] List.nil_prefix
      | dir entries => exact ⟨rfl, entries, rfl⟩
  | cons name place ih =>
      obtain ⟨named, names⟩ := List.forall_mem_cons.mp names
      cases t with
      | file content => cases free [] List.nil_prefix
      | dir entries =>
          have free' : ∀ above, above <+: place →
              ((Entries.find? name entries).getD empty).file? above = none := by
            intro above within
            have outer := free (name :: above) (List.cons_prefix_cons.mpr ⟨rfl, within⟩)
            rw [file?_dir_cons named] at outer
            cases held : Entries.find? name entries with
            | none => exact file?_empty above
            | some u => simpa [held] using outer
          obtain ⟨made, found⟩ := ih names free'
          rw [makeDirs_cons named]
          exact ⟨made, (isDirAt_congr (find_insert_self named)).mpr found⟩

/-- Directories are made under proper names only. -/
theorem isName_of_makeDirs (made : (t.makeDirs place).1 = true) : ∀ name ∈ place, isName name = true := by
  induction place generalizing t with
  | nil => simp
  | cons name place ih =>
      cases t with
      | file content => cases made
      | dir entries =>
          cases named : isName name with
          | false =>
              rw [makeDirs_of_not_isName named] at made
              cases made
          | true =>
              rw [makeDirs_cons named] at made
              exact List.forall_mem_cons.mpr ⟨named, ih made⟩

/-! ### Putting files -/

/-- What it takes to put a file. -/
theorem putFile_eq_some (put : t.putFile content place = some t') :
    ∃ entries name rest, t = dir entries ∧ place = name :: rest ∧
      ((rest = [] ∧ isName name = true ∧ (∀ u, Entries.find? name entries = some u → u.isDir = false) ∧
          t' = dir (Entries.insert name (file content) entries)) ∨
        (rest ≠ [] ∧ ∃ u u', Entries.find? name entries = some u ∧ u.putFile content rest = some u' ∧
          t' = dir (Entries.insert name u' entries))) := by
  unfold putFile at put
  split at put
  · rename_i entries name
    split_ifs at put with vacant
    cases put
    refine ⟨entries, name, [], rfl, rfl, .inl ⟨rfl, vacant.1, fun u held => ?_, rfl⟩⟩
    simpa [held] using vacant.2
  · rename_i entries name rest more
    split at put
    · rename_i u held
      obtain ⟨u', inner, rfl⟩ := Option.map_eq_some_iff.mp put
      exact ⟨entries, name, rest, rfl, rfl, .inr ⟨fun h => more h, u, u', held, inner, rfl⟩⟩
    · cases put
  · cases put

/-- **To put a file changes the file at its place alone.** -/
theorem file?_putFile (put : t.putFile content place = some t') (names : ∀ name ∈ place, isName name = true)
    (p : List String) : t'.file? p = if p = place then some content else t.file? p := by
  induction place generalizing t t' p with
  | nil =>
      obtain ⟨entries, name, rest, -, absurd, -⟩ := putFile_eq_some put
      cases absurd
  | cons name place ih =>
      obtain ⟨named, below⟩ := List.forall_mem_cons.mp names
      obtain ⟨entries, _, _, rfl, same, step⟩ := putFile_eq_some put
      cases same
      cases p with
      | nil => rcases step with ⟨-, -, -, rfl⟩ | ⟨-, u, u', -, -, rfl⟩ <;> rfl
      | cons n p =>
          by_cases same : n = name
          · subst same
            simp only [List.cons.injEq, true_and, file?_dir_cons named]
            rcases step with ⟨rfl, -, vacant, rfl⟩ | ⟨-, u, u', held, inner, rfl⟩
            · rw [file?_congr (find_insert_self named)]
              cases p with
              | nil => rfl
              | cons n' p =>
                  cases held : Entries.find? n entries with
                  | none => rfl
                  | some u =>
                      cases u with
                      | file content' => rfl
                      | dir es => cases vacant _ held
            · rw [file?_congr (find_insert_self named), ih inner below, held]
              rfl
          · have other : ¬ (n :: p = name :: place) := fun h => same (List.cons.inj h).1
            rw [if_neg other]
            rcases step with ⟨-, -, -, rfl⟩ | ⟨-, u, u', -, -, rfl⟩ <;>
              exact file?_congr (find_insert_of_ne same)

/-- To put a file makes no directory. -/
theorem of_isDirAt_putFile (put : t.putFile content place = some t') (names : ∀ name ∈ place, isName name = true)
    (found : t'.IsDirAt p) : t.IsDirAt p := by
  induction place generalizing t t' p with
  | nil =>
      obtain ⟨entries, name, rest, -, absurd, -⟩ := putFile_eq_some put
      cases absurd
  | cons name place ih =>
      obtain ⟨named, below⟩ := List.forall_mem_cons.mp names
      obtain ⟨entries, _, _, rfl, same, step⟩ := putFile_eq_some put
      cases same
      cases p with
      | nil => exact ⟨entries, rfl⟩
      | cons n p =>
          by_cases same : n = name
          · subst same
            rcases step with ⟨rfl, -, vacant, rfl⟩ | ⟨-, u, u', held, inner, rfl⟩
            · rw [isDirAt_congr (find_insert_self named)] at found
              obtain ⟨es, found⟩ := found
              cases p <;> cases found
            · rw [isDirAt_congr (find_insert_self named)] at found
              exact (isDirAt_dir_cons named).mpr ⟨u, held, ih inner below found⟩
          · rcases step with ⟨-, -, -, rfl⟩ | ⟨-, u, u', -, -, rfl⟩ <;>
              exact (isDirAt_congr (find_insert_of_ne same)).mp found

/-- To put a file takes no directory away. -/
theorem isDirAt_putFile_of_isDirAt (put : t.putFile content place = some t') (names : ∀ name ∈ place, isName name = true)
    (found : t.IsDirAt p) : t'.IsDirAt p := by
  induction place generalizing t t' p with
  | nil =>
      obtain ⟨entries, name, rest, -, absurd, -⟩ := putFile_eq_some put
      cases absurd
  | cons name place ih =>
      obtain ⟨named, below⟩ := List.forall_mem_cons.mp names
      obtain ⟨entries, _, _, rfl, same, step⟩ := putFile_eq_some put
      cases same
      cases p with
      | nil => rcases step with ⟨-, -, -, rfl⟩ | ⟨-, u, u', -, -, rfl⟩ <;> exact ⟨_, rfl⟩
      | cons n p =>
          by_cases same : n = name
          · subst same
            obtain ⟨u, held, inside⟩ := (isDirAt_dir_cons named).mp found
            rcases step with ⟨rfl, -, vacant, rfl⟩ | ⟨-, u, u', held', inner, rfl⟩
            · obtain ⟨es, inside⟩ := inside
              cases u with
              | dir es => cases vacant _ held
              | file content' => cases p <;> cases inside
            · cases held'.symm.trans held
              exact (isDirAt_congr (find_insert_self named)).mpr (ih inner below inside)
          · rcases step with ⟨-, -, -, rfl⟩ | ⟨-, u, u', -, -, rfl⟩ <;>
              exact (isDirAt_congr (find_insert_of_ne same)).mpr found

/-- A file is put into a directory that is there, under a proper name that no directory has. -/
theorem exists_putFile {name : String} (content : ByteArray) (parent : t.IsDirAt place)
    (names : ∀ name ∈ place, isName name = true) (named : isName name = true)
    (vacant : ¬ t.IsDirAt (place ++ [name])) : ∃ t', t.putFile content (place ++ [name]) = some t' := by
  induction place generalizing t with
  | nil =>
      obtain ⟨entries, found⟩ := parent
      cases t with
      | file content => cases found
      | dir entries =>
          have free : ((Entries.find? name entries).any isDir) = false := by
            cases held : Entries.find? name entries with
            | none => rfl
            | some u =>
                cases u with
                | file content => rfl
                | dir es => exact absurd ((isDirAt_dir_cons named).mpr ⟨_, held, es, rfl⟩) vacant
          exact ⟨_, by simp only [List.nil_append, putFile, named, free]; rfl⟩
  | cons n place ih =>
      obtain ⟨first, names⟩ := List.forall_mem_cons.mp names
      obtain ⟨entries, found⟩ := parent
      cases t with
      | file content => cases found
      | dir es =>
          obtain ⟨u, held, parent⟩ := (isDirAt_dir_cons first).mp ⟨entries, found⟩
          have vacant' : ¬ u.IsDirAt (place ++ [name]) := fun there =>
            vacant ((isDirAt_dir_cons first).mpr ⟨u, held, there⟩)
          obtain ⟨u', inner⟩ := ih parent names vacant'
          refine ⟨dir (Entries.insert n u' es), ?_⟩
          rw [List.cons_append, putFile.eq_def]
          cases rest : place ++ [name] with
          | nil => simp at rest
          | cons n' rest' =>
              rw [rest] at inner
              simp [held, inner]

/-- A file is put under a proper name only. -/
theorem isName_of_putFile {name : String} (put : t.putFile content (place ++ [name]) = some t') :
    isName name = true := by
  induction place generalizing t t' with
  | nil =>
      obtain ⟨entries, _, _, -, same, ⟨-, named, -⟩ | ⟨more, -⟩⟩ := putFile_eq_some put
      · cases same
        exact named
      · cases same
        exact absurd rfl more
  | cons n place ih =>
      obtain ⟨entries, _, _, -, same, ⟨last, -⟩ | ⟨-, u, u', -, inner, -⟩⟩ := putFile_eq_some put
      · cases same
        simp at last
      · cases same
        exact ih inner

/-- A file is put below directories that were made for it under proper names only. -/
theorem isName_of_makeDirs_putFile (made : (t.makeDirs place.dropLast).1 = true)
    (put : (t.makeDirs place.dropLast).2.putFile content place = some t') : ∀ name ∈ place, isName name = true := by
  have nonempty : place ≠ [] := by
    rintro rfl
    obtain ⟨entries, name, rest, -, absurd, -⟩ := putFile_eq_some put
    cases absurd
  have last := List.dropLast_concat_getLast nonempty
  intro name mem
  rw [← last] at mem put
  rcases List.mem_append.mp mem with above | same
  · exact isName_of_makeDirs made name above
  · rw [List.mem_singleton.mp same]
    exact isName_of_putFile put

@[simp] theorem isDir_putFile (put : t.putFile content place = some t') : t'.isDir = true := by
  obtain ⟨entries, name, rest, -, -, ⟨-, -, -, rfl⟩ | ⟨-, u, u', -, -, rfl⟩⟩ := putFile_eq_some put <;> rfl

/-! ### Removing files -/

/-- The first step on the way to a file. -/
theorem exists_of_file?_cons {name : String} (held : t.file? (name :: place) = some content) :
    ∃ entries u, t = dir entries ∧ isName name = true ∧ Entries.find? name entries = some u ∧
      u.file? place = some content := by
  cases t with
  | file content' => cases held
  | dir entries =>
      cases named : isName name with
      | false =>
          rw [file?, find_of_not_isName named] at held
          cases held
      | true =>
          rw [file?_dir_cons named] at held
          obtain ⟨u, found, held⟩ := Option.bind_eq_some_iff.mp held
          exact ⟨entries, u, rfl, rfl, found, held⟩

/-- Files are found under proper names only. -/
theorem isName_of_file? (held : t.file? place = some content) : ∀ name ∈ place, isName name = true := by
  induction place generalizing t with
  | nil => simp
  | cons name place ih =>
      obtain ⟨entries, u, rfl, named, -, inner⟩ := exists_of_file?_cons held
      exact List.forall_mem_cons.mpr ⟨named, ih inner⟩

theorem remove_cons {entries : List (String × Tree)} {name : String} {u : Tree}
    (found : Entries.find? name entries = some u) (more : place ≠ []) :
    (dir entries).remove (name :: place) = dir (Entries.insert name (u.remove place) entries) := by
  obtain ⟨n, rest, rfl⟩ := List.exists_cons_of_ne_nil more
  simp [remove, found]

/-- **To remove a file takes the file at its place away and changes no other one.** -/
theorem file?_remove (nonempty : place ≠ []) (held : t.file? place = some content) (p : List String) :
    (t.remove place).file? p = if p = place then none else t.file? p := by
  induction place generalizing t p with
  | nil => contradiction
  | cons name place ih =>
      obtain ⟨entries, u, rfl, named, found, inner⟩ := exists_of_file?_cons held
      cases p with
      | nil =>
          by_cases last : place = []
          · subst last
            rfl
          · rw [remove_cons found last]
            rfl
      | cons n p =>
          by_cases same : n = name
          · subst same
            simp only [List.cons.injEq, true_and, file?_dir_cons named, found, Option.bind_some]
            by_cases last : place = []
            · subst last
              rw [remove, file?_dir_cons named, Entries.find?_erase]
              obtain rfl : u = file content := by simpa using file?_eq_some.mp inner
              cases p <;> simp [file?, find]
            · rw [remove_cons found last, file?_congr (find_insert_self named), ih last inner]
          · have other : ¬ (n :: p = name :: place) := fun h => same (List.cons.inj h).1
            rw [if_neg other]
            by_cases last : place = []
            · subst last
              exact file?_congr (find_erase_of_ne same)
            · rw [remove_cons found last]
              exact file?_congr (find_insert_of_ne same)

/-- To remove a file makes no directory. -/
theorem of_isDirAt_remove (held : t.file? place = some content) (found : (t.remove place).IsDirAt p) :
    t.IsDirAt p := by
  induction place generalizing t p with
  | nil => cases t <;> exact found
  | cons name place ih =>
      obtain ⟨entries, u, rfl, named, there, inner⟩ := exists_of_file?_cons held
      cases p with
      | nil => exact ⟨entries, rfl⟩
      | cons n p =>
          by_cases last : place = []
          · subst last
            rw [remove] at found
            by_cases same : n = name
            · subst same
              obtain ⟨es, found⟩ := found
              rw [find_erase_self named] at found
              cases found
            · exact (isDirAt_congr (find_erase_of_ne same)).mp found
          · rw [remove_cons there last] at found
            by_cases same : n = name
            · subst same
              rw [isDirAt_congr (find_insert_self named)] at found
              exact (isDirAt_dir_cons named).mpr ⟨u, there, ih inner found⟩
            · exact (isDirAt_congr (find_insert_of_ne same)).mp found

/-- To remove a file takes no directory away. -/
theorem isDirAt_remove_of_isDirAt (held : t.file? place = some content) (found : t.IsDirAt p) :
    (t.remove place).IsDirAt p := by
  induction place generalizing t p with
  | nil => cases t <;> exact found
  | cons name place ih =>
      obtain ⟨entries, u, rfl, named, there, inner⟩ := exists_of_file?_cons held
      have gone : place = [] → (dir entries).remove (name :: place) = dir (Entries.erase name entries) := by
        rintro rfl
        rfl
      cases p with
      | nil =>
          by_cases last : place = []
          · rw [gone last]
            exact ⟨_, rfl⟩
          · rw [remove_cons there last]
            exact ⟨_, rfl⟩
      | cons n p =>
          by_cases same : n = name
          · subst same
            obtain ⟨u', there', inside⟩ := (isDirAt_dir_cons named).mp found
            cases there.symm.trans there'
            by_cases last : place = []
            · subst last
              obtain ⟨es, inside⟩ := inside
              cases u with
              | dir es => cases inner
              | file content' => cases p <;> cases inside
            · rw [remove_cons there last]
              exact (isDirAt_congr (find_insert_self named)).mpr (ih inner inside)
          · by_cases last : place = []
            · rw [gone last]
              exact (isDirAt_congr (find_erase_of_ne same)).mpr found
            · rw [remove_cons there last]
              exact (isDirAt_congr (find_insert_of_ne same)).mpr found

end RecordTree.Tree
