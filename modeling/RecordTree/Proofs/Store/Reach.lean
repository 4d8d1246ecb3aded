import RecordTree.Proofs.Store.Directory
import RecordTree.Proofs.Tree.Walk

/-!
# Where the paths of a store lead

A store in a directory of a file system (`DirectoryStore.LiesAt`) gives the operating system texts: its root, a slash
and a canonical path. Such a text leads below the directory, since no part of a canonical path is a step
(`eq_append_of_walk_systemPath`), and what the operating system finds there is what the store takes to be there
(`find_eq_reach`). That holds of every root that leads to a directory: one that begins at the top of the file system,
one that begins in the working directory, and one that goes up on its way.
-/

namespace RecordTree

namespace FileSystem

variable {fs : FileSystem} {base : List String} {path : String}

/-- A walk that comes to a place began with a text that is not empty and has no null character in it. -/
theorem walk_eq_ok (walked : fs.walk path = .ok base) :
    path.toList ≠ [] ∧ '\x00' ∉ path.toList ∧
      fs.tree.walkFrom (fs.origin path).reverse (Path.split path.toList) = .ok base := by
  unfold walk at walked
  split_ifs at walked with empty null
  exact ⟨fun h => empty (by simpa [String.isEmpty_iff] using h), by simpa using null, walked⟩

/-- A walk begins where it did, whatever is added to a text that it could begin with. -/
theorem walk_append (walked : fs.walk path = .ok base) (rest : String) :
    fs.walk (path ++ rest) =
      if '\x00' ∈ rest.toList then .error .refused
      else fs.tree.walkFrom (fs.origin path).reverse (Path.split (path ++ rest).toList) := by
  obtain ⟨nonempty, plain, -⟩ := walk_eq_ok walked
  have nonempty' : ¬ (path ++ rest).isEmpty = true := by
    rw [String.isEmpty_iff, ← String.toList_eq_nil_iff, String.toList_append]
    exact fun empty => nonempty (List.append_eq_nil_iff.mp empty).1
  have start : fs.origin (path ++ rest) = fs.origin path := by
    obtain ⟨c, cs, text⟩ := List.exists_cons_of_ne_nil nonempty
    rw [origin, origin, String.toList_append, text]
    rfl
  unfold walk
  simp only [if_neg nonempty', start, String.toList_append, List.contains_eq_mem, List.mem_append, plain, false_or,
    decide_eq_true_eq]

end FileSystem

/-- An empty step stays where it is. -/
theorem Tree.eq_of_walkFrom_nil_step {t : Tree} {place base : List String} (walked : t.walkFrom place [[]] = .ok base) :
    base = place.reverse := by
  rw [walkFrom.eq_def] at walked
  simp only at walked
  split at walked
  · cases walked
  · cases walked
  · simp only [true_or, if_true] at walked
    cases walked
    rfl

namespace DirectoryStore

open RecordTree.Path (IsName ofNames)

/-- Whether the root of a store leads to a place of the file system, and the store holds what is there. -/
structure LiesAt (s : DirectoryStore) (fs : FileSystem) (base : List String) : Prop where
  walked : fs.walk s.root = .ok base
  held : fs.tree.find base = .ok s.tree

variable {s : DirectoryStore} {fs : FileSystem} {base p : List String} {q : String}

/-- A canonical path does not start from the root of the system. -/
theorem IsCanonical.relative (canonical : IsCanonical q) : q.startsWith "/" = false := by
  obtain ⟨names, all, rfl⟩ := canonical
  rw [String.startsWith_string_eq_false_iff, String.toList_ofList]
  cases names with
  | nil => decide
  | cons name names =>
      have first := all name List.mem_cons_self
      rintro ⟨rest, same⟩
      have head : (Path.joinAll (name :: names)).head? = name.head? := Path.head?_joinAll first.ne_nil
      rw [← Path.ofNames_eq_of_ne_nil (by simp), ← String.toList_ofList (l := ofNames _), ← same] at head
      exact first.slashless (List.mem_of_head? head.symm)

/-- The path of the directory above a file is canonical. -/
theorem IsCanonical.parentPath (canonical : IsCanonical q) : IsCanonical (parentPath q) := by
  obtain ⟨names, all, rfl⟩ := canonical
  refine ⟨names.dropLast, fun name mem => all name ((List.dropLast_prefix names).subset mem), ?_⟩
  have cut : (Path.split (ofNames names)).dropLast = names.dropLast := by
    by_cases nonempty : names = []
    · subst nonempty
      rfl
    · rw [split_ofNames all nonempty]
  rw [DirectoryStore.parentPath, String.toList_ofList, cut]
  by_cases top : names.dropLast = []
  · rw [top]
    rfl
  · simp [top, Path.ofNames_eq_of_ne_nil top]

theorem isCanonical_metaName : IsCanonical metaName := ⟨[metaName.toList], by decide, rfl⟩

theorem isCanonical_logPath : IsCanonical logPath := ⟨[metaName.toList, logName.toList], by decide, by decide⟩

/-- The parts of a canonical path are names. -/
theorem IsCanonical.isName_of_mem_split (canonical : IsCanonical q) (inner : q ≠ ".") :
    ∀ step ∈ Path.split q.toList, IsName step := by
  intro step mem
  have name := canonical.isName (String.ofList step) (by
    rw [place, if_neg inner]
    exact List.mem_map_of_mem mem)
  rwa [String.toList_ofList] at name

/-- The path that the operating system is given is the root and the canonical path, with one slash between them. -/
theorem systemPath_eq (canonical : IsCanonical q) (inner : q ≠ ".") (nonempty : s.root ≠ "") :
    (∃ above, s.root.toList = above ++ ['/'] ∧ s.systemPath q = s.root ++ q) ∨
      s.systemPath q = s.root ++ ("/" ++ q) := by
  have nonempty' : s.root.isEmpty = false := by simpa [String.isEmpty_iff] using nonempty
  simp only [systemPath, inner, if_false, SystemPath.join, nonempty', canonical.relative, Bool.false_eq_true, or_self]
  split_ifs with slash
  · obtain ⟨above, same⟩ : "/".toList <:+ s.root.toList := by
      rw [String.endsWith_eq_endsWith_toSlice, String.Slice.endsWith_string_iff] at slash
      simpa using slash
    exact .inl ⟨above, same.symm, rfl⟩
  · exact .inr (String.append_assoc ..)

/-- A store that is opened holds a directory of the file system. -/
theorem liesAt_of_ofFound {root : String} (opened : ofFound root (fs.reach root) = .ok s) :
    s.tree.isDir = true ∧ ∃ base, s.LiesAt fs base := by
  unfold ofFound at opened
  split at opened
  · rename_i entries found
    cases opened
    refine ⟨rfl, ?_⟩
    unfold FileSystem.reach at found
    cases walked : fs.walk root with
    | error absence =>
        rw [walked] at found
        cases found
    | ok base =>
        rw [walked] at found
        exact ⟨base, walked, found⟩
  · cases opened
  · cases opened

section Lies

variable (lies : s.LiesAt fs base) (canonical : IsCanonical q)

include lies canonical

/-- A walk to a canonical path of a store goes through the directory of the store. -/
theorem walk_systemPath (inner : q ≠ ".") :
    fs.walk (s.systemPath q) =
      if '\x00' ∈ q.toList then .error .refused else fs.tree.walkFrom base.reverse (Path.split q.toList) := by
  obtain ⟨nonempty, -, walked⟩ := FileSystem.walk_eq_ok lies.walked
  have through : ∀ steps, fs.tree.walkFrom (fs.origin s.root).reverse steps = .ok base →
      fs.tree.walkFrom (fs.origin s.root).reverse (steps ++ Path.split q.toList) =
        fs.tree.walkFrom base.reverse (Path.split q.toList) := by
    intro steps reached
    rw [Tree.walkFrom_append, reached]
    rfl
  have nonempty' : s.root ≠ "" := fun empty => nonempty (by rw [empty]; rfl)
  rcases systemPath_eq canonical inner nonempty' with ⟨above, root, joined⟩ | joined
  · -- the slash at the end of the root is the one before the path
    have walked : fs.tree.walkFrom (fs.origin s.root).reverse (Path.split above ++ Path.split []) = .ok base := by
      rw [← Path.split_append_slash, ← root]
      exact walked
    rw [Tree.walkFrom_append] at walked
    cases reached : fs.tree.walkFrom (fs.origin s.root).reverse (Path.split above) with
    | error absence =>
        rw [reached] at walked
        cases walked
    | ok place =>
        rw [reached] at walked
        have same : base = place.reverse.reverse := Tree.eq_of_walkFrom_nil_step walked
        rw [List.reverse_reverse] at same
        subst same
        rw [joined, FileSystem.walk_append lies.walked, String.toList_append, root, List.append_assoc, List.singleton_append,
          Path.split_append_slash, through _ reached]
  · have null : '\x00' ∈ ("/" ++ q).toList ↔ '\x00' ∈ q.toList := by simp
    have text : (s.root ++ ("/" ++ q)).toList = s.root.toList ++ '/' :: q.toList := by simp
    rw [joined, FileSystem.walk_append lies.walked, text, Path.split_append_slash, through _ walked]
    simp only [null]

/-- **The operating system is led below the directory of the store**, to the place that the store means. -/
theorem eq_append_of_walk_systemPath (walked : fs.walk (s.systemPath q) = .ok p) : p = base ++ place q := by
  by_cases inner : q = "."
  · subst inner
    rw [systemPath, if_pos rfl, lies.walked] at walked
    cases walked
    simp [place]
  · rw [walk_systemPath lies canonical inner] at walked
    split_ifs at walked
    have ends := Tree.eq_append_of_walkFrom (canonical.isName_of_mem_split inner) walked
    rw [List.reverse_reverse] at ends
    rw [ends, place, if_neg inner]

/-- **What the store takes to be at a canonical path** is what the operating system finds there, if it takes a path
of this length at all. -/
theorem find_eq_reach :
    s.find q = if isSystemPath (s.systemPath q) then fs.reach (s.systemPath q) else .error .refused := by
  unfold find
  split_ifs with taken
  · unfold FileSystem.reach
    by_cases inner : q = "."
    · subst inner
      rw [systemPath, if_pos rfl, lies.walked]
      exact (Tree.find_nil s.tree).trans lies.held.symm
    · have plain : '\x00' ∉ q.toList := by
        have nonempty : s.root ≠ "" := fun empty => (FileSystem.walk_eq_ok lies.walked).1 (by rw [empty]; rfl)
        intro null
        unfold isSystemPath at taken
        rcases systemPath_eq canonical inner nonempty with ⟨-, -, joined⟩ | joined <;>
          simp [joined, null] at taken
      have found := Tree.find_walkFrom (t := fs.tree) (canonical.isName_of_mem_split inner) base.reverse
      rw [List.reverse_reverse, lies.held] at found
      rw [walk_systemPath lies canonical inner, if_neg plain, place, if_neg inner]
      exact found.symm
  · rfl

end Lies

/-- A store stays where it is while no directory is gone from it. -/
theorem LiesAt.replace {s' : DirectoryStore} (lies : s.LiesAt fs base) (root : s'.root = s.root)
    (kept : ∀ p, s.tree.IsDirAt p → s'.tree.IsDirAt p) : s'.LiesAt (fs.replace base s'.tree) base where
  walked := by
    rw [root]
    have workdir : (fs.replace base s'.tree).workdir = fs.workdir := rfl
    refine FileSystem.walk_of_kept workdir (fun p there => ?_) lies.walked
    rw [FileSystem.replace_tree]
    by_cases inside : base <+: p
    · obtain ⟨below, rfl⟩ := inside
      have found : fs.tree.find (base ++ below) = s.tree.find below := by rw [Tree.find_append, lies.held]; rfl
      rw [Tree.isDirAt_congr (Tree.find_replace_append s'.tree lies.held below)]
      exact kept below ((Tree.isDirAt_congr found).mp there)
    · exact (Tree.isDirAt_replace_iff s'.tree lies.held inside).mpr there
  held := by
    have found := Tree.find_replace_append s'.tree lies.held []
    rwa [List.append_nil, Tree.find_nil] at found

end DirectoryStore

end RecordTree
