import RecordTree.Proofs.Path

/-!
# Walking a path

What a path means is where it leads. A walk begins in the current directory, or at the root if the path is rooted. An
empty component and `.` lead nowhere, `..` leads out of the directory that was entered last, and every other component
leads on into the directory of its name (`Directory.walk`).

`clean` picks one text for each meaning. The text is in a plain form (`isPlain_clean`) and leads where the path leads
(`walk_clean`), and paths with one meaning have one text: that they lead to one place from a directory that is deep
enough, and from the root, tells how many steps up and which names are left of them (`left_eq_of_walk_eq`).
-/

namespace RecordTree.Path

/-! ### Walks -/

/-- The names on the way to a place once one more component is walked. The root is above itself. -/
def enter (names : List Component) (part : Component) : List Component :=
  if part = [] ∨ part = here then names
  else if part = above then names.dropLast
  else names ++ [part]

theorem enter_of_isName {name : Component} (named : IsName name) (names : List Component) :
    enter names name = names ++ [name] := by
  simp [enter, named.ne_nil, named.ne_here, named.ne_above]

theorem enter_above (names : List Component) : enter names above = names.dropLast := by
  rw [enter, if_neg (by decide), if_pos rfl]

theorem isName_of_mem_enter {names : List Component} (all : ∀ name ∈ names, IsName name) {part : Component}
    (slashless : '/' ∉ part) : ∀ name ∈ enter names part, IsName name := by
  unfold enter
  split_ifs with silent up
  · exact all
  · exact fun name mem => all name (List.dropLast_subset names mem)
  · rw [not_or] at silent
    exact List.forall_mem_append.mpr ⟨all, List.forall_mem_singleton.mpr ⟨silent.1, silent.2, up, slashless⟩⟩

theorem isName_of_mem_foldl_enter {parts : List Component} (slashless : ∀ part ∈ parts, '/' ∉ part)
    {names : List Component} (all : ∀ name ∈ names, IsName name) : ∀ name ∈ parts.foldl enter names, IsName name := by
  induction parts generalizing names with
  | nil => exact all
  | cons part parts ih =>
      obtain ⟨first, rest⟩ := List.forall_mem_cons.mp slashless
      exact ih rest (isName_of_mem_enter all first)

/-- A directory, by the names on the way to it from the root. -/
structure Directory where
  names : List Component
  all : ∀ name ∈ names, IsName name

namespace Directory

/-- The root. -/
def root : Directory := ⟨[], fun _ mem => nomatch mem⟩

/-- Where a walk along a path begins. -/
def origin (d : Directory) (path : String) : Directory := if path.toList.head? = some '/' then root else d

/-- Where a path leads. -/
def walk (d : Directory) (path : String) : Directory where
  names := (split path.toList).foldl enter (d.origin path).names
  all := isName_of_mem_foldl_enter (fun _ mem => slashless_of_mem_split mem) (d.origin path).all

@[ext] theorem ext {d d' : Directory} (same : d.names = d'.names) : d = d' := by
  cases d
  cases d'
  cases same
  rfl

end Directory

/-! ### What is left of a path leads where the path leads -/

/-- To walk what is left after a component was added is to walk what was left before, and the component. -/
theorem foldl_enter_push {rooted : Bool} {stack : List Component} (cleaned : Cleaned rooted stack)
    {names : List Component} (start : rooted = true → names = []) (part : Component) :
    (push rooted stack part).reverse.foldl enter names = enter (stack.reverse.foldl enter names) part := by
  by_cases up : part = above
  · subst up
    rw [push_above]
    obtain ⟨last, count, rfl, all, root⟩ := cleaned
    cases last with
    | cons name last =>
        obtain ⟨first, -⟩ := List.forall_mem_cons.mp all
        simp only [List.cons_append, ne_eq, first.ne_above, not_false_eq_true, ↓reduceIte]
        rw [List.reverse_cons, List.foldl_append, List.foldl_cons, List.foldl_nil, enter_of_isName first, enter_above,
          List.dropLast_concat]
    | nil =>
        cases rooted with
        | true =>
            rw [root rfl, start rfl]
            rfl
        | false => cases count <;> simp [List.replicate_succ]
  · rw [push_of_ne_above up]
    split_ifs with silent
    · rw [enter, if_pos silent]
    · rw [List.reverse_cons, List.foldl_append]
      rfl

theorem foldl_enter_foldl_push {rooted : Bool} {names : List Component} (start : rooted = true → names = [])
    {parts : List Component} (slashless : ∀ part ∈ parts, '/' ∉ part) {stack : List Component}
    (cleaned : Cleaned rooted stack) :
    (parts.foldl (push rooted) stack).reverse.foldl enter names =
      parts.foldl enter (stack.reverse.foldl enter names) := by
  induction parts generalizing stack with
  | nil => rfl
  | cons part parts ih =>
      obtain ⟨first, rest⟩ := List.forall_mem_cons.mp slashless
      rw [List.foldl_cons, ih rest (cleaned.push first), foldl_enter_push cleaned start]
      rfl

/-- **What is left of a path leads where the path leads.** -/
theorem names_walk (d : Directory) (path : String) :
    (d.walk path).names = (left path.toList).foldl enter (d.origin path).names := by
  have start : decide (path.toList.head? = some '/') = true → (d.origin path).names = [] := by
    intro rooted
    rw [Directory.origin, if_pos (of_decide_eq_true rooted)]
    rfl
  exact (foldl_enter_foldl_push start (fun _ mem => slashless_of_mem_split mem)
    ⟨[], 0, rfl, by simp, fun _ => rfl⟩).symm

theorem foldl_enter_of_names {names : List Component} (all : ∀ name ∈ names, IsName name) (start : List Component) :
    names.foldl enter start = start ++ names := by
  induction names generalizing start with
  | nil => simp
  | cons name names ih =>
      obtain ⟨first, rest⟩ := List.forall_mem_cons.mp all
      rw [List.foldl_cons, ih rest, enter_of_isName first]
      simp

theorem foldl_enter_replicate_above (count : Nat) (start : List Component) :
    (List.replicate count above).foldl enter start = start.take (start.length - count) := by
  induction count generalizing start with
  | zero => simp
  | succ count ih =>
      rw [List.replicate_succ, List.foldl_cons, ih, enter_above, List.dropLast_eq_take, List.take_take,
        List.length_take]
      congr 1
      omega

/-- **Where a path leads**: some directories up, and down along the names that are left. -/
theorem names_walk_of_left {path : String} {count : Nat} {names : List Component}
    (eq : left path.toList = List.replicate count above ++ names) (all : ∀ name ∈ names, IsName name) (d : Directory) :
    (d.walk path).names = (d.origin path).names.take ((d.origin path).names.length - count) ++ names := by
  rw [names_walk, eq, List.foldl_append, foldl_enter_replicate_above, foldl_enter_of_names all]

/-! ### The plain form -/

/-- A path in plain form. -/
inductive IsPlain : List Char → Prop where
  /-- The current directory. -/
  | here : IsPlain here
  /-- The root. -/
  | root : IsPlain ['/']
  /-- A path from the root has names on it alone. -/
  | rooted {names : List Component} (nonempty : names ≠ []) (all : ∀ name ∈ names, IsName name) :
    IsPlain ('/' :: joinAll names)
  /-- Any other path goes up first, and then down. -/
  | relative {count : Nat} {names : List Component} (nonempty : 0 < count ∨ names ≠ [])
    (all : ∀ name ∈ names, IsName name) : IsPlain (joinAll (List.replicate count above ++ names))

/-- **A cleaned path is in plain form.** -/
theorem isPlain_cleanChars (cs : List Char) : IsPlain (cleanChars cs) := by
  obtain ⟨count, names, eq, all, root⟩ := left_eq cs
  rw [cleanChars_eq, eq]
  split_ifs with rooted
  · obtain rfl := root rooted
    rw [List.replicate_zero, List.nil_append]
    by_cases none : names = []
    · rw [none]
      exact .root
    · exact .rooted none all
  · rw [ofNames]
    split_ifs with none
    · exact .here
    · refine .relative ?_ all
      rw [List.append_eq_nil_iff, List.replicate_eq_nil_iff, not_and_or] at none
      exact none.imp_left Nat.pos_of_ne_zero

theorem head?_joinAll_ne_slash {parts : List Component} (all : ∀ part ∈ parts, part ≠ [] ∧ '/' ∉ part) :
    (joinAll parts).head? ≠ some '/' := by
  intro slash
  cases parts with
  | nil => cases slash
  | cons part parts =>
      obtain ⟨nonempty, slashless⟩ := all part List.mem_cons_self
      rw [head?_joinAll nonempty] at slash
      exact slashless (List.mem_of_mem_head? slash)

/-- Cleaning keeps whether a path is rooted. -/
theorem head?_cleanChars (cs : List Char) : (cleanChars cs).head? = some '/' ↔ cs.head? = some '/' := by
  rw [cleanChars_eq, ofNames]
  split_ifs with rooted none
  · simp [rooted]
  · simpa [here] using rooted
  · simpa [rooted] using head?_joinAll_ne_slash fun part mem => of_mem_left mem

/-- What is left of a path is left of the cleaned path. -/
theorem left_cleanChars_self (cs : List Char) : left (cleanChars cs) = left cs := by
  rw [← left_cleanChars cs]
  by_cases rooted : cs.head? = some '/'
  · obtain ⟨count, names, eq, all, root⟩ := left_eq cs
    refine (left_dropWhile ?_).symm
    rw [left_cleanChars, eq, root rooted]
    exact head?_ne_above all
  · cases chars : cleanChars cs with
    | nil => rfl
    | cons first rest =>
        have unrooted : first ≠ '/' := by
          rintro rfl
          exact rooted ((head?_cleanChars cs).mp (by rw [chars]; rfl))
        rw [List.dropWhile_cons_of_neg (by simpa using unrooted)]

/-- A path is cleaned to what its beginning and what is left of it say. -/
theorem cleanChars_congr {cs cs' : List Char} (start : cs.head? = some '/' ↔ cs'.head? = some '/')
    (same : left cs = left cs') : cleanChars cs = cleanChars cs' := by
  rw [cleanChars_eq, cleanChars_eq, same]
  simp only [start]

/-- **What is in plain form is clean.** -/
theorem cleanChars_of_isPlain {cs : List Char} (plain : IsPlain cs) : cleanChars cs = cs := by
  cases plain with
  | here => decide
  | root => decide
  | @rooted names nonempty all =>
      have sound : ∀ part ∈ names, part ≠ [] ∧ '/' ∉ part := fun part mem =>
        ⟨(all part mem).ne_nil, (all part mem).slashless⟩
      obtain ⟨drop, below⟩ := left_joinAll nonempty sound
      rw [reduce_of_names all] at below
      have unslashed : left (('/' :: joinAll names).dropWhile (· = '/')) = names := by
        rw [List.dropWhile_cons_of_pos (by simp), drop, below]
      rw [cleanChars_eq, if_pos (by rfl), ← left_dropWhile (unslashed.symm ▸ head?_ne_above all), unslashed]
  | @relative count names nonempty all =>
      have nonempty' : List.replicate count above ++ names ≠ [] := by
        rw [ne_eq, List.append_eq_nil_iff, List.replicate_eq_nil_iff, not_and_or]
        exact nonempty.imp_left Nat.ne_of_gt
      have sound : ∀ part ∈ List.replicate count above ++ names, part ≠ [] ∧ '/' ∉ part := by
        intro part mem
        rcases List.mem_append.mp mem with up | name
        · rw [List.eq_of_mem_replicate up]
          decide
        · exact ⟨(all part name).ne_nil, (all part name).slashless⟩
      rw [cleanChars_eq, if_neg (head?_joinAll_ne_slash sound), (left_joinAll nonempty' sound).2,
        reduce_of_cleaned all, ofNames_eq_of_ne_nil nonempty']

/-- The clean paths are those in plain form. -/
theorem clean_eq_self_iff {path : String} : clean path = path ↔ IsPlain path.toList := by
  rw [clean, ← String.toList_inj, String.toList_ofList]
  constructor
  · intro same
    rw [← same]
    exact isPlain_cleanChars path.toList
  · exact cleanChars_of_isPlain

/-- **A cleaned path leads where the path leads.** -/
theorem walk_clean (d : Directory) (path : String) : d.walk (clean path) = d.walk path := by
  have chars : (clean path).toList = cleanChars path.toList := String.toList_ofList
  have origin : d.origin (clean path) = d.origin path := by
    simp only [Directory.origin, chars, head?_cleanChars]
  ext1
  rw [names_walk, names_walk, chars, left_cleanChars_self, origin]

/-! ### Paths with one meaning -/

/-- A directory at a depth. -/
def Directory.atDepth (depth : Nat) : Directory where
  names := List.replicate depth ['d']
  all name mem := by
    rw [List.eq_of_mem_replicate mem]
    decide

theorem Directory.length_origin_atDepth (depth : Nat) (path : String) :
    ((atDepth depth).origin path).names.length = if path.toList.head? = some '/' then 0 else depth := by
  unfold origin
  split_ifs
  · rfl
  · exact List.length_replicate

/-- **Paths that lead to the same places** begin at the same place, and the same is left of them. -/
theorem left_eq_of_walk_eq {p q : String} (same : ∀ d : Directory, d.walk p = d.walk q) :
    (p.toList.head? = some '/' ↔ q.toList.head? = some '/') ∧ left p.toList = left q.toList := by
  obtain ⟨count, names, eq, all, root⟩ := left_eq p.toList
  obtain ⟨count', names', eq', all', root'⟩ := left_eq q.toList
  have places : ∀ d : Directory,
      (d.origin p).names.take ((d.origin p).names.length - count) ++ names =
        (d.origin q).names.take ((d.origin q).names.length - count') ++ names' := by
    intro d
    rw [← names_walk_of_left eq all, ← names_walk_of_left eq' all', same]
  -- From the root no path gets up, so that it shows the names.
  have down : names = names' := by
    simpa [Directory.origin, Directory.root] using places .root
  -- A directory deeper than both paths go up shows how far they do.
  have lengths := congrArg List.length (places (.atDepth (count + count' + 1)))
  simp only [List.length_append, List.length_take, Directory.length_origin_atDepth, down] at lengths
  rw [eq, eq', down]
  by_cases rooted : p.toList.head? = some '/'
  · by_cases rooted' : q.toList.head? = some '/'
    · rw [root rooted, root' rooted']
      exact ⟨iff_of_true rooted rooted', rfl⟩
    · rw [if_pos rooted, if_neg rooted'] at lengths
      omega
  · by_cases rooted' : q.toList.head? = some '/'
    · rw [if_neg rooted, if_pos rooted'] at lengths
      omega
    · rw [if_neg rooted, if_neg rooted'] at lengths
      obtain rfl : count = count' := by omega
      exact ⟨iff_of_false rooted rooted', rfl⟩

/-- **The canonical form of a path.** To clean a path once is enough, and the clean paths are those in plain form. A
cleaned path leads where the path leads from every directory, and two paths have one cleaned path if and only if they
lead to the same place from every directory. -/
theorem clean_canonical (p : String) :
    (clean (clean p) = clean p ∧ IsPlain (clean p).toList) ∧ (clean p = p ↔ IsPlain p.toList) ∧
      (∀ d : Directory, d.walk (clean p) = d.walk p) ∧
        ∀ q, clean p = clean q ↔ ∀ d : Directory, d.walk p = d.walk q := by
  have plain : IsPlain (clean p).toList := by
    rw [clean, String.toList_ofList]
    exact isPlain_cleanChars p.toList
  refine ⟨⟨clean_eq_self_iff.mpr plain, plain⟩, clean_eq_self_iff, fun d => walk_clean d p, fun q => ?_⟩
  constructor
  · intro same d
    rw [← walk_clean d p, same, walk_clean]
  · intro same
    obtain ⟨start, left⟩ := left_eq_of_walk_eq same
    exact congrArg String.ofList (cleanChars_congr start left)

end RecordTree.Path
