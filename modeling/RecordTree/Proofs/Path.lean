import Mathlib.Tactic.Common
import RecordTree.Path

/-!
# Paths as lists of names

To cut a path at its slashes and to join components undo each other. What is left of a path when every step up
has taken back the name before it are steps up and, behind them, names (`reduce_eq`); a path inside a store comes
down to its names alone (`normalize?_eq_some`).
-/

namespace RecordTree.Path

/-! ### Cutting and joining -/

theorem exists_split (cs : List Char) : ∃ part parts, split cs = part :: parts := by
  cases cs with
  | nil => exact ⟨_, _, rfl⟩
  | cons c cs =>
      rw [split]
      split_ifs
      · exact ⟨_, _, rfl⟩
      · split <;> exact ⟨_, _, rfl⟩

theorem split_ne_nil (cs : List Char) : split cs ≠ [] := by
  obtain ⟨part, parts, h⟩ := exists_split cs
  simp [h]

/-- What stands before the first slash joins the first component. -/
theorem split_append {cs : List Char} (slashless : '/' ∉ cs) {cs' : List Char} {part : Component}
    {parts : List Component} (h : split cs' = part :: parts) : split (cs ++ cs') = (cs ++ part) :: parts := by
  induction cs with
  | nil => exact h
  | cons c cs ih =>
      simp only [List.mem_cons, not_or] at slashless
      rw [List.cons_append, split, if_neg (Ne.symm slashless.1), ih slashless.2]
      rfl

theorem split_of_slashless {cs : List Char} (slashless : '/' ∉ cs) : split cs = [cs] := by
  have nothing : split [] = [[]] := rfl
  simpa using split_append slashless nothing

theorem split_append_slash (cs cs' : List Char) : split (cs ++ '/' :: cs') = split cs ++ split cs' := by
  induction cs with
  | nil => rfl
  | cons c cs ih =>
      rw [List.cons_append, split, split, ih]
      obtain ⟨part, parts, h⟩ := exists_split cs
      split_ifs <;> simp [h]

theorem slashless_of_mem_split {cs : List Char} {part : Component} (mem : part ∈ split cs) : '/' ∉ part := by
  induction cs generalizing part with
  | nil => simp_all [split]
  | cons c cs ih =>
      obtain ⟨first, parts, h⟩ := exists_split cs
      rw [h] at ih
      simp only [split, h] at mem
      split_ifs at mem with hc
      · rcases List.mem_cons.mp mem with rfl | mem
        · exact List.not_mem_nil
        · exact ih mem
      · rcases List.mem_cons.mp mem with rfl | mem
        · simpa [Ne.symm hc] using ih List.mem_cons_self
        · exact ih (List.mem_cons_of_mem _ mem)

theorem joinAll_cons {part : Component} {parts : List Component} (more : parts ≠ []) :
    joinAll (part :: parts) = part ++ '/' :: joinAll parts := by
  cases parts with
  | nil => contradiction
  | cons part' parts => rfl

theorem joinAll_append {parts parts' : List Component} (some : parts ≠ []) (more : parts' ≠ []) :
    joinAll (parts ++ parts') = joinAll parts ++ '/' :: joinAll parts' := by
  induction parts with
  | nil => contradiction
  | cons part parts ih =>
      cases parts with
      | nil => exact joinAll_cons more
      | cons part' parts =>
          have rest : part' :: parts ≠ [] := by simp
          rw [List.cons_append, joinAll_cons (by simp), ih rest, joinAll_cons rest, List.append_assoc]
          rfl

theorem joinAll_split (cs : List Char) : joinAll (split cs) = cs := by
  induction cs with
  | nil => rfl
  | cons c cs ih =>
      obtain ⟨part, parts, h⟩ := exists_split cs
      rw [h] at ih
      rw [split, h]
      split_ifs with hc
      · rw [joinAll_cons (by simp), ih, hc]
        rfl
      · cases parts with
        | nil => rw [← ih]; rfl
        | cons part' parts => rw [← ih]; rfl

/-- **Components without slashes are cut again as they were joined.** -/
theorem split_joinAll {parts : List Component} (some : parts ≠ []) (slashless : ∀ part ∈ parts, '/' ∉ part) :
    split (joinAll parts) = parts := by
  induction parts with
  | nil => contradiction
  | cons part parts ih =>
      obtain ⟨first, rest⟩ := List.forall_mem_cons.mp slashless
      cases parts with
      | nil => exact split_of_slashless first
      | cons part' parts =>
          rw [joinAll_cons (by simp), split_append_slash, split_of_slashless first, ih (by simp) rest]
          rfl

/-- What stands first in a path that is cut. -/
theorem head?_split_eq_some_iff {cs : List Char} {part : Component} (slashless : '/' ∉ part) :
    (split cs).head? = some part ↔ cs = part ∨ part ++ ['/'] <+: cs := by
  constructor
  · intro first
    obtain ⟨part', parts, cut⟩ := exists_split cs
    rw [cut] at first
    cases first
    rw [← joinAll_split cs, cut]
    cases parts with
    | nil => exact .inl rfl
    | cons part' parts =>
        refine .inr ⟨joinAll (part' :: parts), ?_⟩
        rw [List.append_assoc]
        rfl
  · rintro (rfl | ⟨rest, rfl⟩)
    · rw [split_of_slashless slashless]
      rfl
    · rw [List.append_assoc, List.singleton_append, split_append_slash, split_of_slashless slashless]
      rfl

/-! ### Names -/

/-- Whether a component is a name, and neither empty nor a step. -/
structure IsName (part : Component) : Prop where
  ne_nil : part ≠ []
  ne_here : part ≠ here
  ne_above : part ≠ above
  slashless : '/' ∉ part

instance (part : Component) : Decidable (IsName part) :=
  decidable_of_iff (part ≠ [] ∧ part ≠ here ∧ part ≠ above ∧ '/' ∉ part)
    ⟨fun ⟨a, b, c, d⟩ => ⟨a, b, c, d⟩, fun ⟨a, b, c, d⟩ => ⟨a, b, c, d⟩⟩

theorem push_of_isName {part : Component} (name : IsName part) (rooted : Bool) (stack : List Component) :
    push rooted stack part = part :: stack := by
  simp [push, name.ne_nil, name.ne_here, name.ne_above]

theorem foldl_push_of_names {names : List Component} (all : ∀ name ∈ names, IsName name) (rooted : Bool)
    (stack : List Component) : names.foldl (push rooted) stack = names.reverse ++ stack := by
  induction names generalizing stack with
  | nil => rfl
  | cons name names ih =>
      obtain ⟨first, rest⟩ := List.forall_mem_cons.mp all
      rw [List.foldl_cons, push_of_isName first, ih rest]
      simp

/-- A stack of a cleaned path: names, and below them steps up, which a rooted path has none of. -/
def Cleaned (rooted : Bool) (stack : List Component) : Prop :=
  ∃ names count, stack = names ++ List.replicate count above ∧ (∀ name ∈ names, IsName name) ∧
    (rooted = true → count = 0)

theorem Cleaned.push {rooted : Bool} {stack : List Component} (cleaned : Cleaned rooted stack)
    {part : Component} (slashless : '/' ∉ part) : Cleaned rooted (Path.push rooted stack part) := by
  obtain ⟨names, count, rfl, all, root⟩ := cleaned
  by_cases silent : part = [] ∨ part = here
  · rw [Path.push.eq_def, if_pos silent]
    exact ⟨names, count, rfl, all, root⟩
  · by_cases up : part = above
    · subst up
      rw [Path.push.eq_def, if_neg silent, if_pos rfl]
      cases names with
      | cons name names =>
          obtain ⟨first, rest⟩ := List.forall_mem_cons.mp all
          simp only [List.cons_append, first.ne_above, ne_eq, not_false_eq_true, ↓reduceIte]
          exact ⟨names, count, rfl, rest, root⟩
      | nil =>
          cases rooted with
          | true =>
              obtain rfl := root rfl
              exact ⟨[], 0, rfl, all, root⟩
          | false =>
              refine ⟨[], count + 1, ?_, all, by simp⟩
              cases count <;> simp [List.replicate_succ]
    · have name : IsName part :=
        ⟨fun h => silent (.inl h), fun h => silent (.inr h), up, slashless⟩
      rw [push_of_isName name]
      exact ⟨part :: names, count, rfl, List.forall_mem_cons.mpr ⟨name, all⟩, root⟩

/-- **What is left of a path**: steps up, of which a rooted path has none, and names behind them. -/
theorem reduce_eq (rooted : Bool) (cs : List Char) :
    ∃ count names, reduce rooted (split cs) = List.replicate count above ++ names ∧
      (∀ name ∈ names, IsName name) ∧ (rooted = true → count = 0) := by
  have fold : ∀ (parts : List Component), (∀ part ∈ parts, '/' ∉ part) → ∀ stack, Cleaned rooted stack →
      Cleaned rooted (parts.foldl (push rooted) stack) := by
    intro parts
    induction parts with
    | nil => exact fun _ stack cleaned => cleaned
    | cons part parts ih =>
        intro slashless stack cleaned
        obtain ⟨first, rest⟩ := List.forall_mem_cons.mp slashless
        exact ih rest _ (cleaned.push first)
  obtain ⟨names, count, stack, all, root⟩ :=
    fold (split cs) (fun _ mem => slashless_of_mem_split mem) [] ⟨[], 0, rfl, by simp, fun _ => rfl⟩
  refine ⟨count, names.reverse, ?_, by simpa using all, root⟩
  rw [reduce, stack]
  simp

/-- What is left of a path is left again. -/
theorem reduce_of_cleaned {names : List Component} (all : ∀ name ∈ names, IsName name) (count : Nat) :
    reduce false (List.replicate count above ++ names) = List.replicate count above ++ names := by
  have climb : ∀ count, (List.replicate count above).foldl (push false) [] = List.replicate count above := by
    intro count
    induction count with
    | zero => rfl
    | succ count ih =>
        rw [List.replicate_succ', List.foldl_append, ih, ← List.replicate_succ']
        cases count <;> simp [push, above, here, List.replicate_succ]
  rw [reduce, List.foldl_append, climb, foldl_push_of_names all]
  simp

theorem reduce_of_names {names : List Component} (all : ∀ name ∈ names, IsName name) :
    reduce false names = names := by
  simpa using reduce_of_cleaned all 0

/-! ### Paths inside a store -/

/-- The canonical path with the given names on it. -/
def ofNames (names : List Component) : List Char := if names = [] then here else joinAll names

theorem climbs_iff {cs : List Char} : climbs cs = true ↔ (split cs).head? = some above := by
  constructor
  · intro h
    unfold climbs at h
    split at h
    · rfl
    · rename_i rest
      exact congrArg List.head? (split_append_slash above rest)
    · cases h
  · intro h
    obtain ⟨part, parts, cut⟩ := exists_split cs
    rw [cut] at h
    cases h
    rw [← joinAll_split cs, cut]
    cases parts <;> rfl

theorem ofNames_eq_of_ne_nil {names : List Component} (some : names ≠ []) : ofNames names = joinAll names := by
  simp [ofNames, some]

/-- The components that are left of a path when it is cleaned. -/
def left (cs : List Char) : List Component := reduce (cs.head? = some '/') (split cs)

theorem left_eq (cs : List Char) :
    ∃ count names, left cs = List.replicate count above ++ names ∧ (∀ name ∈ names, IsName name) ∧
      (cs.head? = some '/' → count = 0) := by
  obtain ⟨count, names, eq, all, root⟩ := reduce_eq (cs.head? = some '/') cs
  exact ⟨count, names, eq, all, fun rooted => root (by simpa using rooted)⟩

theorem of_mem_left {cs : List Char} {part : Component} (mem : part ∈ left cs) : part ≠ [] ∧ '/' ∉ part := by
  obtain ⟨count, names, eq, all, -⟩ := left_eq cs
  rw [eq, List.mem_append] at mem
  rcases mem with up | name
  · rw [List.eq_of_mem_replicate up]
    decide
  · exact ⟨(all part name).ne_nil, (all part name).slashless⟩

theorem head?_joinAll {part : Component} {parts : List Component} (nonempty : part ≠ []) :
    (joinAll (part :: parts)).head? = part.head? := by
  cases part with
  | nil => contradiction
  | cons c cs => cases parts <;> rfl

/-- A cleaned path is made of what is left of it. -/
theorem cleanChars_eq (cs : List Char) :
    cleanChars cs = if cs.head? = some '/' then '/' :: joinAll (left cs) else ofNames (left cs) := by
  have empty : joinAll (left cs) = [] ↔ left cs = [] := by
    refine ⟨fun h => ?_, fun h => by rw [h]; rfl⟩
    cases parts : left cs with
    | nil => rfl
    | cons part rest =>
        have nonempty := (of_mem_left (parts ▸ List.mem_cons_self)).1
        have head : (joinAll (part :: rest)).head? = part.head? := head?_joinAll nonempty
        rw [parts] at h
        rw [h] at head
        exact absurd (List.head?_eq_none_iff.mp head.symm) nonempty
  unfold left at empty
  by_cases rooted : cs.head? = some '/'
  · simp [cleanChars, left, rooted]
  · simp only [rooted, decide_false] at empty
    simp [cleanChars, left, ofNames, rooted, empty]

theorem left_joinAll {parts : List Component} (some : parts ≠ [])
    (all : ∀ part ∈ parts, part ≠ [] ∧ '/' ∉ part) :
    (joinAll parts).dropWhile (· = '/') = joinAll parts ∧ left (joinAll parts) = reduce false parts := by
  have head : (joinAll parts).head? ≠ Option.some '/' := by
    cases parts with
    | nil => contradiction
    | cons part parts =>
        obtain ⟨nonempty, slashless⟩ := all part List.mem_cons_self
        rw [head?_joinAll nonempty]
        exact fun h => slashless (List.mem_of_mem_head? h)
  constructor
  · cases cut : joinAll parts with
    | nil => rfl
    | cons c cs =>
        rw [cut] at head
        simp_all
  · rw [left, split_joinAll some fun part mem => (all part mem).2]
    simp [head]

/-- What is left of a path is left of its cleaned form. -/
theorem left_cleanChars (cs : List Char) : left ((cleanChars cs).dropWhile (· = '/')) = left cs := by
  obtain ⟨count, names, eq, all, root⟩ := left_eq cs
  have again : reduce false (left cs) = left cs := by
    rw [eq]
    exact reduce_of_cleaned all count
  rw [cleanChars_eq]
  by_cases empty : left cs = []
  · rw [empty]
    split_ifs <;> decide
  · obtain ⟨drop, left'⟩ := left_joinAll empty fun part mem => of_mem_left mem
    rw [ofNames_eq_of_ne_nil empty]
    split_ifs
    · rw [List.dropWhile_cons_of_pos (by simp), drop, left', again]
    · rw [drop, left', again]

/-- What is left of a path without its leading slashes is no rooted path. -/
theorem head?_dropWhile_ne_slash (cs : List Char) : (cs.dropWhile (· = '/')).head? ≠ some '/' := by
  intro slash
  have none := List.head?_dropWhile_not (· = '/') cs
  rw [slash] at none
  simp at none

/-- **A path inside a store** is refused if a step up is left in front of it, and else it comes down to the names
that are left. -/
theorem normalize?_eq (path : String) :
    normalize? path =
      if (left (path.toList.dropWhile (· = '/'))).head? = some above then none
      else some (String.ofList (ofNames (left (path.toList.dropWhile (· = '/'))))) := by
  obtain ⟨count, names, eq, all, -⟩ := left_eq (path.toList.dropWhile (· = '/'))
  have climb : climbs (ofNames (left (path.toList.dropWhile (· = '/')))) = true ↔
      (left (path.toList.dropWhile (· = '/'))).head? = some above := by
    by_cases empty : left (path.toList.dropWhile (· = '/')) = []
    · rw [empty]
      decide
    · rw [ofNames_eq_of_ne_nil empty, climbs_iff, split_joinAll empty fun part mem => (of_mem_left mem).2]
  rw [normalize?, cleanChars_eq, if_neg (head?_dropWhile_ne_slash _)]
  simp only [climb]

/-- If no step up is left in front of a path, names alone are left. -/
theorem isName_of_mem_left {cs : List Char} (down : (left cs).head? ≠ some above) : ∀ name ∈ left cs, IsName name := by
  obtain ⟨count, names, eq, all, -⟩ := left_eq cs
  rw [eq] at down ⊢
  cases count with
  | zero => exact all
  | succ count => simp [List.replicate_succ] at down

/-- What a path inside a store comes down to. -/
theorem normalize?_eq_some {path q : String} (normal : normalize? path = some q) :
    ∃ names, (∀ name ∈ names, IsName name) ∧ q = String.ofList (ofNames names) := by
  rw [normalize?_eq] at normal
  split_ifs at normal with up
  cases normal
  exact ⟨_, isName_of_mem_left up, rfl⟩

theorem left_ofNames {names : List Component} (all : ∀ name ∈ names, IsName name) :
    left ((ofNames names).dropWhile (· = '/')) = names := by
  by_cases empty : names = []
  · rw [empty]
    decide
  · obtain ⟨drop, left'⟩ := left_joinAll empty fun part mem => ⟨(all part mem).ne_nil, (all part mem).slashless⟩
    rw [ofNames_eq_of_ne_nil empty, drop, left', reduce_of_names all]

/-- Names do not begin with a step up. -/
theorem head?_ne_above {names : List Component} (all : ∀ name ∈ names, IsName name) : names.head? ≠ some above :=
  fun up => (all above (List.mem_of_mem_head? up)).ne_above rfl

/-- A canonical path is its own canonical form. -/
theorem normalize?_ofNames {names : List Component} (all : ∀ name ∈ names, IsName name) :
    normalize? (String.ofList (ofNames names)) = some (String.ofList (ofNames names)) := by
  rw [normalize?_eq, String.toList_ofList, left_ofNames all, if_neg (head?_ne_above all)]

theorem normalize?_of_normalize? {path q : String} (normal : normalize? path = some q) :
    normalize? q = some q := by
  obtain ⟨names, all, rfl⟩ := normalize?_eq_some normal
  exact normalize?_ofNames all

/-- Canonical paths with different names are different. -/
theorem ofNames_injective {names names' : List Component} (all : ∀ name ∈ names, IsName name)
    (all' : ∀ name ∈ names', IsName name) (same : ofNames names = ofNames names') : names = names' := by
  rw [← left_ofNames all, same, left_ofNames all']

/-! ### Rooted paths -/

theorem push_above (rooted : Bool) (stack : List Component) :
    push rooted stack above =
      match stack with
      | last :: rest => if last ≠ above then rest else if rooted then stack else above :: stack
      | [] => if rooted then [] else [above] := by
  have opened := push.eq_def rooted stack above
  rw [if_neg (by decide), if_pos rfl] at opened
  exact opened

/-- Only a step up is affected by whether a path is rooted. -/
theorem push_of_ne_above {part : Component} (down : part ≠ above) (rooted : Bool) (stack : List Component) :
    push rooted stack part = if part = [] ∨ part = here then stack else part :: stack := by
  rw [push.eq_def, if_neg down]

/-- A step up that is left on a path that is not rooted stays there. -/
theorem above_mem_push {stack : List Component} (mem : above ∈ stack) (part : Component) :
    above ∈ push false stack part := by
  by_cases up : part = above
  · cases stack with
    | nil => cases mem
    | cons last rest =>
        rw [up, push_above]
        by_cases same : last = above
        · simp [same]
        · simpa [same, Ne.symm same] using mem
  · rw [push_of_ne_above up]
    split
    · exact mem
    · exact List.mem_cons_of_mem part mem

theorem above_mem_foldl_push {parts stack : List Component} (mem : above ∈ stack) :
    above ∈ parts.foldl (push false) stack := by
  induction parts generalizing stack with
  | nil => exact mem
  | cons part parts ih => exact ih (above_mem_push mem part)

/-- Rooted or not is the same for a component that leaves no step up. -/
theorem push_true {stack : List Component} {part : Component} (down : above ∉ push false stack part) :
    push true stack part = push false stack part := by
  by_cases up : part = above
  · rw [up, push_above] at down ⊢
    cases stack with
    | nil => simp at down
    | cons last rest =>
        by_cases same : last = above
        · simp [same] at down
        · simp [push_above, same]
  · rw [push_of_ne_above up, push_of_ne_above up]

/-- **Rooted or not is the same** for a path on which no step up is left. -/
theorem foldl_push_true {parts stack : List Component} (down : above ∉ parts.foldl (push false) stack) :
    parts.foldl (push true) stack = parts.foldl (push false) stack := by
  induction parts generalizing stack with
  | nil => rfl
  | cons part parts ih =>
      rw [List.foldl_cons] at down
      rw [List.foldl_cons, List.foldl_cons, push_true fun mem => down (above_mem_foldl_push mem), ih down]

/-- The slashes in front of a path say nothing but that it is rooted. -/
theorem reduce_split_dropWhile (rooted : Bool) (cs : List Char) :
    reduce rooted (split (cs.dropWhile (· = '/'))) = reduce rooted (split cs) := by
  induction cs with
  | nil => rfl
  | cons c cs ih =>
      by_cases slash : c = '/'
      · subst slash
        rw [List.dropWhile_cons_of_pos (by simp), ih]
        simp [split, reduce, push]
      · rw [List.dropWhile_cons_of_neg (by simpa using slash)]

/-- What a path inside a store comes down to, whatever slashes are in front of it. -/
theorem left_dropWhile_eq_reduce (cs : List Char) : left (cs.dropWhile (· = '/')) = reduce false (split cs) := by
  rw [left, decide_eq_false (head?_dropWhile_ne_slash cs), reduce_split_dropWhile]

/-- A path inside a store comes down to the same names with the slashes in front of it and without them. -/
theorem left_dropWhile {cs : List Char} (down : (left (cs.dropWhile (· = '/'))).head? ≠ some above) :
    left (cs.dropWhile (· = '/')) = left cs := by
  have names := isName_of_mem_left down
  rw [left_dropWhile_eq_reduce] at names ⊢
  unfold left
  cases decide (cs.head? = some '/') with
  | false => rfl
  | true =>
      refine congrArg List.reverse (foldl_push_true fun mem => ?_).symm
      exact (names above (List.mem_reverse.mpr mem)).ne_above rfl

end RecordTree.Path
