import Mathlib.Data.List.Sort
import Mathlib.Data.List.TakeWhile
import RecordTree.Proofs.Store.Directory
import RecordTree.Store.Memory

/-!
# What a directory is listed to hold

Two stores list a directory in two ways: one looks at every file and takes note of the first name behind the
directory, the other one reads the entries of the directory. What both show is the same (`Shows`): an entry for each
name under which a file is found, at some depth. Both list in the same order (`DirEntry.Before`), so they answer
alike if they hold the same files, except that a directory without files is seen in a tree alone. An answer of which
such directories are left out is `DirectoryStore.withoutBare`, and it is the answer of the store in memory
(`list_eq_withoutBare`).
-/

namespace RecordTree

open DirectoryStore (place metaName IsCanonical)

/-! ### The order of a listing -/

namespace DirEntry

/-- How the entries of a directory are listed: by their names, a file before a directory of the same name. -/
def Before (e e' : DirEntry) : Prop :=
  e.name < e'.name ∨ e.name = e'.name ∧ e.kind = .file ∧ e'.kind = .dir

variable {e e' e'' : DirEntry}

theorem Before.asymm (before : Before e e') : ¬ Before e' e := by
  rintro (after | ⟨same, file, dir⟩)
  · rcases before with before | ⟨same, -, -⟩
    · exact String.lt_irrefl _ (String.lt_trans before after)
    · exact String.lt_irrefl _ (same ▸ after)
  · rcases before with before | ⟨-, -, dir'⟩
    · exact String.lt_irrefl _ (same ▸ before)
    · rw [file] at dir'
      cases dir'

theorem Before.trans (first : Before e e') (second : Before e' e'') : Before e e'' := by
  rcases first with first | ⟨same, file, dir⟩
  · rcases second with second | ⟨same', -, -⟩
    · exact .inl (String.lt_trans first second)
    · exact .inl (same' ▸ first)
  · rcases second with second | ⟨-, file', -⟩
    · exact .inl (same ▸ second)
    · rw [dir] at file'
      cases file'

instance : Std.Irrefl Before := ⟨fun _ before => before.asymm before⟩

instance : Std.Antisymm Before := ⟨fun _ _ before after => absurd after before.asymm⟩

end DirEntry

/-! ### What is shown -/

/-- The entry through which one sees a file below a directory: the file itself, or the directory in which it is. -/
def seenFrom (q name : String) (more : List String) : DirEntry :=
  ⟨name, MemoryStore.childPrefix q ++ name, if more = [] then .file else .dir⟩

/-- Whether an entry of a directory stands for one of the files, of which the places are given. -/
def Shows (files : List String → Prop) (q : String) (e : DirEntry) : Prop :=
  ∃ name more, files (place q ++ name :: more) ∧ e = seenFrom q name more

/-! ### In memory -/

namespace MemoryStore

theorem behind?_eq_some {pre cs rest : List Char} : behind? pre cs = some rest ↔ cs = pre ++ rest := by
  induction pre generalizing cs with
  | nil => simp [behind?]
  | cons p pre ih =>
      cases cs with
      | nil => simp [behind?]
      | cons c cs =>
          by_cases same : p = c
          · simp [behind?, same, ih]
          · simp [behind?, same, Ne.symm same]

/-- What is seen of a text is its first component. -/
theorem entryOf_eq (pre : String) {rest : List Char} {name : Path.Component} {more : List Path.Component}
    (cut : Path.split rest = name :: more) :
    entryOf pre rest = ⟨String.ofList name, pre ++ String.ofList name, if more = [] then .file else .dir⟩ := by
  have slashless : '/' ∉ name := Path.slashless_of_mem_split (cut ▸ List.mem_cons_self)
  have whole : ∀ c ∈ name, decide (c ≠ '/') = true := by
    intro c mem
    refine decide_eq_true ?_
    rintro rfl
    exact slashless mem
  have joined := Path.joinAll_split rest
  rw [cut] at joined
  cases more with
  | nil =>
      obtain rfl : name = rest := joined
      have first : name.takeWhile (· ≠ '/') = name := List.takeWhile_eq_self_iff.mpr whole
      simp only [entryOf, first, slashless, if_false, if_true]
  | cons part more =>
      rw [Path.joinAll_cons (by simp)] at joined
      have first : rest.takeWhile (· ≠ '/') = name := by
        rw [← joined, List.takeWhile_append_of_pos whole]
        simp
      have inner : '/' ∈ rest := by simp [← joined]
      simp only [entryOf, first, inner, if_true, List.cons_ne_nil, if_false]

theorem mem_addEntry {e e' : DirEntry} {es : List DirEntry} : e' ∈ addEntry e es ↔ e' = e ∨ e' ∈ es := by
  induction es with
  | nil => simp [addEntry]
  | cons first es ih =>
      rw [addEntry]
      split_ifs with same before
      · simp [same]
      · simp
      · simp [ih, or_left_comm]

/-- An entry is put in its place. -/
theorem pairwise_addEntry {e : DirEntry} {es : List DirEntry} (ordered : es.Pairwise DirEntry.Before)
    (same : ∀ e' ∈ es, e'.name = e.name → e'.kind = e.kind → e' = e) :
    (addEntry e es).Pairwise DirEntry.Before := by
  induction es with
  | nil => exact List.pairwise_singleton _ _
  | cons first es ih =>
      obtain ⟨above, rest⟩ := List.pairwise_cons.mp ordered
      obtain ⟨same, others⟩ := List.forall_mem_cons.mp same
      rw [addEntry]
      split_ifs with known before
      · exact ordered
      · have before' : DirEntry.Before e first := by
          rcases before with before | ⟨equal, file⟩
          · exact .inl before
          · cases kind : first.kind with
            | file => exact absurd (same equal.symm (by rw [kind, file])).symm known
            | dir => exact .inr ⟨equal, file, kind⟩
        refine List.pairwise_cons.mpr ⟨List.forall_mem_cons.mpr ⟨before', fun e' mem => ?_⟩, ordered⟩
        exact before'.trans (above e' mem)
      · have after : DirEntry.Before first e := by
          obtain ⟨notLess, notFile⟩ := not_or.mp before
          by_cases equal : e.name = first.name
          · have dir : e.kind = .dir := by
              cases kind : e.kind with
              | file => exact absurd ⟨equal, kind⟩ notFile
              | dir => rfl
            cases kind : first.kind with
            | file => exact .inr ⟨equal.symm, kind, dir⟩
            | dir => exact absurd (same equal.symm (by rw [kind, dir])).symm known
          · refine .inl (Classical.byContradiction fun notLess' => equal ?_)
            exact String.le_antisymm (String.not_lt.mp notLess') (String.not_lt.mp notLess)
        refine List.pairwise_cons.mpr ⟨fun e' mem => ?_, ih rest others⟩
        rcases mem_addEntry.mp mem with rfl | mem
        · exact after
        · exact above e' mem

theorem mem_foldr_addEntry {e : DirEntry} {es : List DirEntry} : e ∈ es.foldr addEntry [] ↔ e ∈ es := by
  induction es with
  | nil => rfl
  | cons first es ih => rw [List.foldr_cons, mem_addEntry, ih, List.mem_cons]

/-- Entries are listed in order, and each once, if the name and the kind tell what an entry is. -/
theorem pairwise_foldr_addEntry {es : List DirEntry}
    (same : ∀ e ∈ es, ∀ e' ∈ es, e'.name = e.name → e'.kind = e.kind → e' = e) :
    (es.foldr addEntry []).Pairwise DirEntry.Before := by
  induction es with
  | nil => exact List.Pairwise.nil
  | cons first es ih =>
      rw [List.foldr_cons]
      refine pairwise_addEntry (ih fun e mem e' mem' => ?_) fun e' mem' => ?_
      · exact same e (List.mem_cons_of_mem _ mem) e' (List.mem_cons_of_mem _ mem')
      · exact same first List.mem_cons_self e' (List.mem_cons_of_mem _ (mem_foldr_addEntry.mp mem'))

variable {m : MemoryStore} {q : String}

/-- The entries that are seen of the files behind a prefix, as often as there are files. -/
def seenBehind (pre : String) (fs : List (String × ByteArray)) : List DirEntry :=
  fs.filterMap fun f => (behind? pre.toList f.1.toList).map (entryOf pre)

theorem entries_eq (m : MemoryStore) (pre : String) :
    m.entries pre = (seenBehind pre m.files.entries).foldr addEntry [] := by
  unfold entries seenBehind
  induction m.files.entries with
  | nil => rfl
  | cons f fs ih =>
      rw [List.foldr_cons, ih]
      cases found : behind? pre.toList f.1.toList <;> simp [found]

theorem mem_entries {pre : String} {e : DirEntry} :
    e ∈ m.entries pre ↔
      ∃ f ∈ m.files.entries, ∃ rest, f.1.toList = pre.toList ++ rest ∧ e = entryOf pre rest := by
  rw [entries_eq, mem_foldr_addEntry, seenBehind, List.mem_filterMap]
  simp only [Option.map_eq_some_iff, behind?_eq_some, @eq_comm _ _ e]

/-- A store in memory lists in order. -/
theorem pairwise_entries (m : MemoryStore) (pre : String) : (m.entries pre).Pairwise DirEntry.Before := by
  have path : ∀ e ∈ seenBehind pre m.files.entries, e.path = pre ++ e.name := by
    intro e mem
    rw [← mem_foldr_addEntry, ← entries_eq, mem_entries] at mem
    obtain ⟨f, -, rest, -, rfl⟩ := mem
    rfl
  rw [entries_eq]
  refine pairwise_foldr_addEntry fun e mem e' mem' name kind => ?_
  have paths : e'.path = e.path := by rw [path e mem, path e' mem', name]
  cases e
  cases e'
  simp_all

/-- A file is below a directory if its path begins with the path of the directory. -/
theorem toList_eq_childPrefix_append_iff {key : String} (canonical : IsCanonical key) (inner : key ≠ ".")
    (canonical' : IsCanonical q) {rest : List Char} :
    key.toList = (childPrefix q).toList ++ rest ↔
      place key = place q ++ (Path.split rest).map String.ofList := by
  obtain ⟨names, all, rfl⟩ := canonical
  obtain ⟨above, all', rfl⟩ := canonical'
  have nonempty : names ≠ [] := by
    rintro rfl
    exact inner rfl
  rw [DirectoryStore.place_ofNames all, DirectoryStore.place_ofNames all', ← List.map_append,
    (List.map_injective_iff.mpr fun _ _ => String.ofList_injective).eq_iff, String.toList_ofList,
    Path.ofNames_eq_of_ne_nil nonempty]
  have cut := Path.split_joinAll nonempty fun name mem => (all name mem).slashless
  by_cases top : above = []
  · subst top
    constructor
    · intro (joined : Path.joinAll names = rest)
      rw [← joined, cut]
      rfl
    · rintro rfl
      exact Path.joinAll_split rest
  · rw [childPrefix, if_neg (DirectoryStore.ofNames_ne_here all' top), String.toList_append, String.toList_ofList,
      Path.ofNames_eq_of_ne_nil top]
    have cut' := Path.split_joinAll top fun name mem => (all' name mem).slashless
    constructor
    · intro joined
      rw [← cut, joined, List.append_assoc]
      refine (Path.split_append_slash _ _).trans ?_
      rw [cut']
      rfl
    · rintro rfl
      rw [Path.joinAll_append top (Path.split_ne_nil rest), Path.joinAll_split, List.append_assoc]
      rfl

/-- Whether there is a file at a place. -/
def Holds (m : MemoryStore) (p : List String) : Prop := ∃ key content, m.files.get? key = some content ∧ place key = p

/-- **What a store in memory lists.** -/
theorem mem_entries_iff_shows (keys : ∀ key content, m.files.get? key = some content → IsCanonical key ∧ key ≠ ".")
    (canonical : IsCanonical q) {e : DirEntry} : e ∈ m.entries (childPrefix q) ↔ Shows m.Holds q e := by
  rw [mem_entries]
  constructor
  · rintro ⟨⟨key, content⟩, mem, rest, joined, rfl⟩
    have held := SortedMap.get?_eq_some_iff.mpr mem
    obtain ⟨canonical', inner⟩ := keys key content held
    obtain ⟨name, more, cut⟩ := Path.exists_split rest
    have below := (toList_eq_childPrefix_append_iff canonical' inner canonical).mp joined
    rw [cut] at below
    refine ⟨String.ofList name, more.map String.ofList, ⟨key, content, held, below⟩, ?_⟩
    rw [entryOf_eq _ cut, seenFrom]
    simp
  · rintro ⟨name, more, ⟨key, content, held, below⟩, rfl⟩
    obtain ⟨canonical', inner⟩ := keys key content held
    -- the names on the way to a canonical path have no slash, so they are cut again as they were joined
    have slashless : ∀ part ∈ (name :: more).map String.toList, '/' ∉ part := by
      intro part mem
      obtain ⟨text, within, rfl⟩ := List.mem_map.mp mem
      exact (canonical'.isName text (below ▸ List.mem_append_right _ within)).slashless
    have cut := Path.split_joinAll (by simp) slashless
    have again : (Path.split (Path.joinAll ((name :: more).map String.toList))).map String.ofList = name :: more := by
      rw [cut]
      simp
    refine ⟨(key, content), SortedMap.get?_eq_some_iff.mp held, Path.joinAll ((name :: more).map String.toList),
      (toList_eq_childPrefix_append_iff canonical' inner canonical).mpr (by rw [again, below]), ?_⟩
    rw [entryOf_eq _ cut, seenFrom]
    simp

end MemoryStore

/-! ### In a directory -/

namespace DirectoryStore

variable {s : DirectoryStore} {q : String}

/-- Whether there is a file at a place or below it, at any depth. -/
def holdsFile (s : DirectoryStore) (p : List String) : Bool :=
  match s.tree.find p with
  | .ok t => !t.files.isEmpty
  | .error _ => false

/-- What is left of the answer for a directory if directories without files at any depth say nothing. The store's
root is always there. -/
def withoutBare (s : DirectoryStore) (q : String) :
    Except StoreError (List DirEntry) → Except StoreError (List DirEntry)
  | .ok es =>
    if q = "." ∨ s.holdsFile (place q) then
      .ok (es.filter fun e => e.kind = .file ∨ s.holdsFile (place q ++ [e.name]))
    else .error (.notFound q)
  | .error e => .error e

theorem holdsFile_iff (tidy : s.tree.Tidy) {p : List String} :
    s.holdsFile p = true ↔ ∃ below content, s.tree.file? (p ++ below) = some content := by
  have below : ∀ t, s.tree.find p = .ok t → ∀ rest, s.tree.file? (p ++ rest) = t.file? rest := by
    intro t found rest
    exact Tree.file?_congr (by rw [Tree.find_append, found]; rfl)
  unfold holdsFile
  cases found : s.tree.find p with
  | error absence =>
      have nothing : ∀ rest, s.tree.file? (p ++ rest) = none := fun rest => by
        simp [Tree.file?, Tree.find_append, found, Except.bind]
      simp [nothing]
  | ok t =>
      simp only [below t found, Bool.not_eq_true', List.isEmpty_eq_false_iff, ne_eq,
        Tree.files_eq_nil_iff (tidy.find found), not_forall, Option.eq_none_iff_forall_ne_some, not_not]

/-- The places of the files that are not the store's own. -/
def Holds (s : DirectoryStore) (p : List String) : Prop :=
  p.head? ≠ some metaName ∧ ∃ content, s.tree.file? p = some content

/-- What is below a directory is the store's own if the directory is, or if it is where the store keeps what is its
own. -/
theorem head?_below_iff {name : String} {more : List String} :
    (place q ++ name :: more).head? = some metaName ↔
      (place q).head? = some metaName ∨ q = "." ∧ name = metaName := by
  rw [← place_eq_nil_iff]
  cases place q <;> simp

section Directory

variable {children : List (String × Tree)} (tidy : s.tree.Tidy) (found : s.tree.find (place q) = .ok (.dir children))

include found

theorem file?_below (below : List String) : s.tree.file? (place q ++ below) = (Tree.dir children).file? below :=
  Tree.file?_congr (by rw [Tree.find_append, found]; rfl)

include tidy

/-- **What a directory lists** if directories without files are left out. -/
theorem exists_child_iff_shows (outside : (place q).head? ≠ some metaName) {e : DirEntry} :
    (∃ f ∈ children, ¬ (q = "." ∧ f.1 = metaName) ∧
        e = ⟨f.1, MemoryStore.childPrefix q ++ f.1, if f.2.isDir then .dir else .file⟩) ∧
      (e.kind = .file ∨ s.holdsFile (place q ++ [e.name]) = true) ↔ Shows s.Holds q e := by
  have inner : (Tree.dir children).Tidy := tidy.find found
  constructor
  · rintro ⟨⟨⟨name, t⟩, mem, own, rfl⟩, held⟩
    have there := inner.entries_sorted.find?_eq_some_iff.mpr mem
    have below : ∀ more, s.tree.file? (place q ++ name :: more) = t.file? more := fun more => by
      rw [file?_below found, Tree.file?_dir_cons (inner.of_find? there).1, there]
      rfl
    have filed : ∃ more content, t.file? more = some content := by
      cases t with
      | file content => exact ⟨[], content, rfl⟩
      | dir entries =>
          obtain ⟨more, content, held⟩ := (holdsFile_iff tidy).mp (held.resolve_left (by simp [Tree.isDir]))
          rw [List.append_assoc, List.singleton_append, below] at held
          exact ⟨more, content, held⟩
    obtain ⟨more, content, held⟩ := filed
    refine ⟨name, more, ⟨?_, content, (below more).trans held⟩, ?_⟩
    · rw [ne_eq, head?_below_iff, not_or]
      exact ⟨outside, own⟩
    · simp [seenFrom, Tree.isDir_iff_of_file? held]
  · rintro ⟨name, more, ⟨head, content, held⟩, rfl⟩
    rw [ne_eq, head?_below_iff, not_or] at head
    refine ⟨?_, .inr ((holdsFile_iff tidy).mpr ⟨more, content, by simpa [seenFrom] using held⟩)⟩
    rw [file?_below found] at held
    obtain ⟨_, u, same, named, there, held⟩ := Tree.exists_of_file?_cons held
    cases same
    refine ⟨(name, u), inner.entries_sorted.find?_eq_some_iff.mp there, head.2, ?_⟩
    simp [seenFrom, Tree.isDir_iff_of_file? held]

theorem entries_of_dir (taken : isSystemPath (s.systemPath q) = true) :
    ∃ es, s.entries q = .ok es ∧ es.Pairwise DirEntry.Before ∧
      ∀ e, e ∈ es ↔ ∃ f ∈ children, ¬ (q = "." ∧ f.1 = metaName) ∧
        e = ⟨f.1, MemoryStore.childPrefix q ++ f.1, if f.2.isDir then .dir else .file⟩ := by
  have sorted := (tidy.find found).entries_sorted
  refine ⟨_, by rw [entries, find, if_pos taken, found], ?_, fun e => ?_⟩
  · exact List.Pairwise.map _ (fun f f' before => .inl before) (sorted.sublist List.filter_sublist)
  · simp only [List.mem_map, List.mem_filter, Bool.not_eq_true', decide_eq_false_iff_not, and_assoc,
      MemoryStore.childPrefix]
    exact exists_congr fun f => and_congr_right' (and_congr_right' eq_comm)

/-- A directory other than the root holds a file if and only if it shows one. -/
theorem holdsFile_iff_shows (outside : (place q).head? ≠ some metaName) (inner : q ≠ ".") :
    s.holdsFile (place q) = true ↔ ∃ e, Shows s.Holds q e := by
  rw [holdsFile_iff tidy]
  constructor
  · rintro ⟨below, content, held⟩
    cases below with
    | nil =>
        rw [file?_below found] at held
        cases held
    | cons name more =>
        refine ⟨_, name, more, ⟨?_, content, held⟩, rfl⟩
        rw [ne_eq, head?_below_iff, not_or]
        exact ⟨outside, fun root => inner root.1⟩
  · rintro ⟨e, name, more, ⟨-, content, held⟩, -⟩
    exact ⟨name :: more, content, held⟩

end Directory

/-- Nothing is shown of what is no directory. -/
theorem not_shows {e : DirEntry} (bare : ∀ children, s.tree.find (place q) ≠ .ok (.dir children)) :
    ¬ Shows s.Holds q e := by
  rintro ⟨name, more, ⟨-, content, held⟩, -⟩
  obtain ⟨children, found⟩ := Tree.isDirAt_above (Tree.file?_eq_some.mp held) (List.cons_ne_nil name more)
  exact bare children found

/-- **Both stores list alike** if they hold the same files and directories without files are left out. -/
theorem list_eq_withoutBare {m : MemoryStore}
    (keys : ∀ key content, m.files.get? key = some content → IsCanonical key ∧ key ≠ ".")
    (same : ∀ p, m.Holds p ↔ s.Holds p) (root : s.tree.isDir = true) (tidy : s.tree.Tidy)
    (canonical : IsCanonical q) (outside : (place q).head? ≠ some metaName)
    (taken : isSystemPath (s.systemPath q) = true) :
    (if (m.entries (MemoryStore.childPrefix q)).isEmpty ∧ q ≠ "." then Except.error (StoreError.notFound q)
      else .ok (m.entries (MemoryStore.childPrefix q))) = s.withoutBare q (s.entries q) := by
  have shown : ∀ e, e ∈ m.entries (MemoryStore.childPrefix q) ↔ Shows s.Holds q e := by
    intro e
    rw [MemoryStore.mem_entries_iff_shows keys canonical, Shows, Shows]
    simp only [same]
  by_cases directory : ∃ children, s.tree.find (place q) = .ok (.dir children)
  · obtain ⟨children, found⟩ := directory
    obtain ⟨es, listed, ordered, members⟩ := entries_of_dir tidy found taken
    have kept : es.filter (fun e => e.kind = .file ∨ s.holdsFile (place q ++ [e.name])) =
        m.entries (MemoryStore.childPrefix q) := by
      refine (ordered.sublist List.filter_sublist).eq_of_mem_iff (m.pairwise_entries _) fun e => ?_
      rw [List.mem_filter, members, shown, decide_eq_true_iff]
      exact exists_child_iff_shows tidy found outside
    rw [listed, withoutBare, kept]
    by_cases top : q = "."
    · simp [top]
    · have full : s.holdsFile (place q) = true ↔ (m.entries (MemoryStore.childPrefix q)).isEmpty = false := by
        rw [holdsFile_iff_shows tidy found outside top, List.isEmpty_eq_false_iff_exists_mem]
        simp only [shown]
      simp only [full]
      cases (m.entries (MemoryStore.childPrefix q)).isEmpty <;> simp [top]
  · have noDirectory : ∀ children, s.tree.find (place q) ≠ .ok (.dir children) := fun children found =>
      directory ⟨children, found⟩
    have bare : m.entries (MemoryStore.childPrefix q) = [] :=
      List.eq_nil_iff_forall_not_mem.mpr fun e mem => not_shows noDirectory ((shown e).mp mem)
    have inner : q ≠ "." := by
      rintro rfl
      exact directory (Tree.isDirAt_nil root)
    have failed : s.entries q = .error (.notFound q) := by
      rw [entries, find, if_pos taken]
      split
      · rename_i children found
        exact absurd found (noDirectory children)
      · rfl
    rw [failed, bare]
    simp [withoutBare, inner]

end DirectoryStore

end RecordTree
