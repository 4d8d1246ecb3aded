import RecordTree.Proofs.Tree

/-!
# Tidy trees and changes to one file

In a tidy tree, in which every directory has its entries in order and under proper names, the list of all files says
what is found (`mem_files_iff`). To put a file at an open place or to remove one is a change to that one file
(`ChangedAt`): every other file stays, a directory that comes to be is on the way to the file, and a tidy tree stays
tidy.
-/

namespace RecordTree.Tree

variable {t t' : Tree} {place p : List String} {content : ByteArray}

/-! ### Tidy trees -/

/-- Whether a tree is as a file system keeps it: the entries of each directory stand in the order of their names,
and the names are such as entries can have. -/
inductive Tidy : Tree → Prop where
  | file (content : ByteArray) : Tidy (.file content)
  | dir {entries : List (String × Tree)} (sorted : Entries.Sorted entries)
      (names : ∀ e ∈ entries, isName e.1 = true) (below : ∀ e ∈ entries, Tidy e.2) : Tidy (.dir entries)

namespace Tidy

theorem empty : Tidy Tree.empty := .dir List.Pairwise.nil (by simp) (by simp)

variable {entries : List (String × Tree)} {name : String}

theorem entries_sorted (tidy : Tidy (.dir entries)) : Entries.Sorted entries := by
  cases tidy
  assumption

theorem of_find? (tidy : Tidy (.dir entries)) (found : Entries.find? name entries = some t) :
    isName name = true ∧ Tidy t := by
  cases tidy with
  | dir sorted names below =>
      have mem := sorted.find?_eq_some_iff.mp found
      exact ⟨names _ mem, below _ mem⟩

theorem insert (tidy : Tidy (.dir entries)) (named : isName name = true) (inner : Tidy t) :
    Tidy (.dir (Entries.insert name t entries)) := by
  cases tidy with
  | dir sorted names below =>
      refine .dir sorted.insert (fun e mem => ?_) fun e mem => ?_
      · rcases Entries.mem_insert mem with rfl | mem
        · exact named
        · exact names e mem
      · rcases Entries.mem_insert mem with rfl | mem
        · exact inner
        · exact below e mem

theorem erase (tidy : Tidy (.dir entries)) : Tidy (.dir (Entries.erase name entries)) := by
  cases tidy with
  | dir sorted names below =>
      have within : ∀ e ∈ Entries.erase name entries, e ∈ entries := (Entries.erase_sublist name entries).subset
      exact .dir sorted.erase (fun e mem => names e (within e mem)) fun e mem => below e (within e mem)

theorem find (tidy : Tidy t) (found : t.find place = .ok t') : Tidy t' := by
  induction place generalizing t with
  | nil =>
      rw [find_nil] at found
      cases found
      exact tidy
  | cons name place ih =>
      cases t with
      | file content => cases found
      | dir entries =>
          cases named : isName name with
          | false =>
              rw [find_of_not_isName named] at found
              cases found
          | true =>
              simp only [Tree.find, named, Bool.not_true, Bool.false_eq_true, ↓reduceIte] at found
              cases held : Entries.find? name entries with
              | none => simp [held] at found
              | some u =>
                  rw [held] at found
                  exact ih (tidy.of_find? held).2 found

theorem makeDirs (tidy : Tidy t) (place : List String) : Tidy (t.makeDirs place).2 := by
  induction place generalizing t with
  | nil => cases t <;> exact tidy
  | cons name place ih =>
      cases t with
      | file content => exact tidy
      | dir entries =>
          cases named : isName name with
          | false =>
              rw [makeDirs_of_not_isName named]
              exact tidy
          | true =>
              rw [makeDirs_cons named]
              refine tidy.insert named (ih ?_)
              cases held : Entries.find? name entries with
              | none => exact .empty
              | some u => exact (tidy.of_find? held).2

theorem putFile (tidy : Tidy t) (put : t.putFile content place = some t') : Tidy t' := by
  induction place generalizing t t' with
  | nil =>
      obtain ⟨entries, name, rest, -, absurd, -⟩ := putFile_eq_some put
      cases absurd
  | cons name place ih =>
      obtain ⟨entries, _, _, rfl, same, ⟨-, named, -, rfl⟩ | ⟨-, u, u', held, inner, rfl⟩⟩ := putFile_eq_some put
      · cases same
        exact tidy.insert named (.file content)
      · cases same
        obtain ⟨named, below⟩ := tidy.of_find? held
        exact tidy.insert named (ih below inner)

theorem remove (tidy : Tidy t) (held : t.file? place = some content) : Tidy (t.remove place) := by
  induction place generalizing t with
  | nil => cases t <;> exact tidy
  | cons name place ih =>
      obtain ⟨entries, u, rfl, named, found, inner⟩ := exists_of_file?_cons held
      by_cases last : place = []
      · subst last
        exact tidy.erase
      · rw [remove_cons found last]
        exact tidy.insert named (ih (tidy.of_find? found).2 inner)

end Tidy

theorem mem_filesOf {above : List String} {entries : List (String × Tree)} :
    (p, content) ∈ filesOf above entries ↔ ∃ e ∈ entries, (p, content) ∈ filesBelow (above ++ [e.1]) e.2 := by
  induction entries with
  | nil => simp [filesOf]
  | cons e entries ih => simp [filesOf, ih]

theorem mem_filesBelow (tidy : Tidy t) (above : List String) :
    (p, content) ∈ filesBelow above t ↔ ∃ rest, p = above ++ rest ∧ t.file? rest = some content := by
  induction tidy generalizing above with
  | file content' =>
      rw [filesBelow]
      constructor
      · rintro mem
        simp only [List.mem_cons, Prod.mk.injEq, List.not_mem_nil, or_false] at mem
        exact ⟨[], by simp [mem.1], by simp [mem.2, file?]⟩
      · rintro ⟨rest, rfl, held⟩
        cases rest <;> simp_all [file?, find]
  | dir sorted names below ih =>
      rename_i entries
      rw [filesBelow, mem_filesOf]
      constructor
      · rintro ⟨e, mem, inner⟩
        obtain ⟨rest, rfl, held⟩ := (ih e mem _).mp inner
        refine ⟨e.1 :: rest, by simp, ?_⟩
        rw [file?_dir_cons (names e mem), sorted.find?_eq_some_iff.mpr mem]
        exact held
      · rintro ⟨rest, rfl, held⟩
        cases rest with
        | nil => simp [file?] at held
        | cons name rest =>
            obtain ⟨_, u, same, named, found, held⟩ := exists_of_file?_cons held
            cases same
            have mem := sorted.find?_eq_some_iff.mp found
            exact ⟨(name, u), mem, (ih _ mem _).mpr ⟨rest, by simp, held⟩⟩

/-- **The files of a tidy tree** are those that are found in it. -/
theorem mem_files_iff (tidy : Tidy t) : (p, content) ∈ t.files ↔ t.file? p = some content := by
  simp [files, mem_filesBelow tidy]

theorem files_eq_nil_iff (tidy : Tidy t) : t.files = [] ↔ ∀ p, t.file? p = none := by
  constructor
  · intro bare p
    cases held : t.file? p with
    | none => rfl
    | some content => simpa [bare] using (mem_files_iff tidy).mpr held
  · intro bare
    refine List.eq_nil_iff_forall_not_mem.mpr fun ⟨p, content⟩ mem => ?_
    have held := (mem_files_iff tidy).mp mem
    rw [bare] at held
    cases held

/-! ### Changes to one file -/

section Elsewhere

variable (elsewhere : p.head? ≠ place.head?) (below : p ≠ [])

include elsewhere below

theorem find_makeDirs_of_ne : (t.makeDirs place).2.find p = t.find p := by
  obtain ⟨n, rest, rfl⟩ := List.exists_cons_of_ne_nil below
  cases t with
  | file content => cases place <;> rfl
  | dir entries =>
      cases place with
      | nil => rfl
      | cons name place =>
          have other : n ≠ name := fun same => elsewhere (congrArg some same)
          cases named : isName name with
          | false => rw [makeDirs_of_not_isName named]
          | true =>
              rw [makeDirs_cons named]
              exact find_insert_of_ne other

theorem find_putFile_of_ne (put : t.putFile content place = some t') : t'.find p = t.find p := by
  obtain ⟨n, rest, rfl⟩ := List.exists_cons_of_ne_nil below
  obtain ⟨entries, name, place, rfl, rfl, step⟩ := putFile_eq_some put
  have other : n ≠ name := fun same => elsewhere (congrArg some same)
  rcases step with ⟨-, -, -, rfl⟩ | ⟨-, u, u', -, -, rfl⟩ <;> exact find_insert_of_ne other

theorem find_remove_of_ne : (t.remove place).find p = t.find p := by
  obtain ⟨n, rest, rfl⟩ := List.exists_cons_of_ne_nil below
  cases t with
  | file content => cases place <;> rfl
  | dir entries =>
      cases place with
      | nil => rfl
      | cons name place =>
          have other : n ≠ name := fun same => elsewhere (congrArg some same)
          by_cases last : place = []
          · subst last
            exact find_erase_of_ne other
          · cases held : Entries.find? name entries with
            | some u =>
                rw [remove_cons held last]
                exact find_insert_of_ne other
            | none =>
                obtain ⟨n', rest', rfl⟩ := List.exists_cons_of_ne_nil last
                simp only [remove, held]

end Elsewhere

/-- Whether a file is at a place or could come to be there: no directory has the place, and nothing on the way
refuses to lead there. -/
structure IsOpen (t : Tree) (place : List String) : Prop where
  vacant : ¬ t.IsDirAt place
  reached : t.find place ≠ .error .refused

theorem isOpen_iff : t.IsOpen place ↔ (∃ content, t.file? place = some content) ∨ t.find place = .error .missing := by
  constructor
  · rintro ⟨vacant, reached⟩
    cases found : t.find place with
    | error absence =>
        cases absence with
        | missing => exact .inr rfl
        | refused => exact absurd found reached
    | ok u =>
        cases u with
        | file content => exact .inl ⟨content, file?_eq_some.mpr found⟩
        | dir entries => exact absurd ⟨entries, found⟩ vacant
  · rintro (⟨content, held⟩ | missing)
    · refine ⟨fun there => ?_, fun refused => ?_⟩
      · rw [file?_of_isDirAt there] at held
        cases held
      · rw [file?_eq_some.mp held] at refused
        cases refused
    · refine ⟨fun ⟨entries, found⟩ => ?_, fun refused => ?_⟩
      · rw [missing] at found
        cases found
      · rw [missing] at refused
        cases refused

/-- No file is on the way to an open place. -/
theorem IsOpen.file?_above (isOpen : t.IsOpen place) {above : List String} (within : above <+: place)
    (proper : above ≠ place) : t.file? above = none := by
  obtain ⟨below, rfl⟩ := within
  cases held : t.file? above with
  | none => rfl
  | some content =>
      have deeper : below ≠ [] := fun last => proper (by simp [last])
      exact absurd (find_of_file_above held deeper) isOpen.reached

/-- A place under proper names is refused for the files on the way to it alone. -/
theorem find_eq_refused_iff (names : ∀ name ∈ place, isName name = true) :
    t.find place = .error .refused ↔
      ∃ above below content, place = above ++ below ∧ below ≠ [] ∧ t.file? above = some content := by
  constructor
  · intro refused
    refine (of_find_eq_refused refused).resolve_left fun ⟨name, mem, bad⟩ => ?_
    rw [names name mem] at bad
    cases bad
  · rintro ⟨above, below, content, rfl, deeper, held⟩
    exact find_of_file_above held deeper

/-- What is above a place is not the place itself. -/
theorem proper_of_prefix_dropLast (nonempty : place ≠ []) (within : p <+: place.dropLast) :
    p <+: place ∧ p ≠ place := by
  refine ⟨within.trans (List.dropLast_prefix place), ?_⟩
  rintro rfl
  have short := within.length_le
  have pos := List.length_pos_iff.mpr nonempty
  rw [List.length_dropLast] at short
  omega

/-- What is elsewhere is not on the way either. -/
theorem head?_ne_head?_dropLast (below : p ≠ []) (elsewhere : p.head? ≠ place.head?) :
    p.head? ≠ place.dropLast.head? := by
  cases place with
  | nil => exact elsewhere
  | cons name place =>
      cases place with
      | nil => simpa using below
      | cons name' place => exact elsewhere

/-- To make the directories above a place neither opens nor closes it. -/
theorem isOpen_makeDirs_iff (nonempty : place ≠ []) (names : ∀ name ∈ place, isName name = true) :
    (t.makeDirs place.dropLast).2.IsOpen place ↔ t.IsOpen place := by
  have vacant : (t.makeDirs place.dropLast).2.IsDirAt place ↔ t.IsDirAt place := by
    refine ⟨fun found => (of_isDirAt_makeDirs found).resolve_right fun within => ?_,
      isDirAt_makeDirs_of_isDirAt place.dropLast⟩
    exact (proper_of_prefix_dropLast nonempty within).2 rfl
  have reached : (t.makeDirs place.dropLast).2.find place = .error .refused ↔ t.find place = .error .refused := by
    rw [find_eq_refused_iff names, find_eq_refused_iff names]
    simp only [file?_makeDirs]
  constructor
  · exact fun isOpen => ⟨fun found => isOpen.vacant (vacant.mpr found), fun h => isOpen.reached (reached.mpr h)⟩
  · exact fun isOpen => ⟨fun found => isOpen.vacant (vacant.mp found), fun h => isOpen.reached (reached.mp h)⟩

/-- Whether a tree came from another one by the change of one file, which has the given content now or is gone. Only
directories on the way to it were made, and none if the file is gone; and all that were there are there. -/
structure ChangedAt (t t' : Tree) (place : List String) (content? : Option ByteArray) : Prop where
  isDir : t'.isDir = true
  file? : ∀ p, t'.file? p = if p = place then content? else t.file? p
  isDirAt : ∀ p, t'.IsDirAt p → t.IsDirAt p ∨ p <+: place ∧ p ≠ place
  bare : content? = none → ∀ p, t'.IsDirAt p → t.IsDirAt p
  kept : ∀ p, t.IsDirAt p → t'.IsDirAt p
  find : ∀ p, p ≠ [] → p.head? ≠ place.head? → t'.find p = t.find p
  tidy : t.Tidy → t'.Tidy

/-- **A file is put at an open place** under proper names once the directories above it are made. -/
theorem exists_changedAt_putFile (content : ByteArray) (root : t.isDir = true) (isOpen : t.IsOpen place)
    (names : ∀ name ∈ place, isName name = true) :
    (t.makeDirs place.dropLast).1 = true ∧
      ∃ t', (t.makeDirs place.dropLast).2.putFile content place = some t' ∧
        t.ChangedAt t' place (some content) := by
  have nonempty : place ≠ [] := by
    rintro rfl
    exact isOpen.vacant (isDirAt_nil root)
  have last := List.dropLast_concat_getLast nonempty
  have free : ∀ above, above <+: place.dropLast → t.file? above = none := fun above within =>
    have ⟨within, proper⟩ := proper_of_prefix_dropLast nonempty within
    isOpen.file?_above within proper
  have above : ∀ name ∈ place.dropLast, isName name = true := fun name mem =>
    names name ((List.dropLast_prefix place).subset mem)
  obtain ⟨made, parent⟩ := isDirAt_makeDirs above free
  have vacant : ¬ (t.makeDirs place.dropLast).2.IsDirAt (place.dropLast ++ [place.getLast nonempty]) := by
    rw [last]
    exact ((isOpen_makeDirs_iff nonempty names).mpr isOpen).vacant
  obtain ⟨t', put⟩ := exists_putFile content parent above (names _ (List.getLast_mem nonempty)) vacant
  rw [last] at put
  refine ⟨made, t', put, isDir_putFile put, fun p => ?_, fun p found => ?_, nofun,
    fun p found => isDirAt_putFile_of_isDirAt put names (isDirAt_makeDirs_of_isDirAt _ found),
    fun p below elsewhere => ?_, fun tidy => (tidy.makeDirs _).putFile put⟩
  · rw [file?_putFile put names, file?_makeDirs]
  · exact (of_isDirAt_makeDirs (of_isDirAt_putFile put names found)).imp_right
      (proper_of_prefix_dropLast nonempty)
  · rw [find_putFile_of_ne elsewhere below put,
      find_makeDirs_of_ne (head?_ne_head?_dropLast below elsewhere) below]

/-- A file that is there is removed. -/
theorem changedAt_remove (root : t.isDir = true) (held : t.file? place = some content) :
    t.ChangedAt (t.remove place) place none := by
  have nonempty : place ≠ [] := by
    rintro rfl
    cases t <;> simp_all [isDir, file?]
  refine ⟨?_, file?_remove nonempty held, fun p found => .inl (of_isDirAt_remove held found),
    fun _ p found => of_isDirAt_remove held found, fun p found => isDirAt_remove_of_isDirAt held found,
    fun p below elsewhere => find_remove_of_ne elsewhere below, fun tidy => tidy.remove held⟩
  obtain ⟨name, rest, rfl⟩ := List.exists_cons_of_ne_nil nonempty
  obtain ⟨entries, u, rfl, -, found, -⟩ := exists_of_file?_cons held
  by_cases last : rest = []
  · subst last
    rfl
  · rw [remove_cons found last]
    rfl

end RecordTree.Tree
