import RecordTree.Proofs.Tree
import RecordTree.Tree.Walk

/-!
# Walks down a tree

A walk whose steps are all names goes straight down: it ends below where it starts (`eq_append_of_walkFrom`), and it
comes to what is found there (`find_walkFrom`). Only a step up leads anywhere else. What is put in the place of a
directory stays within it: everything that is not below is as it was (`file?_replace`, `isDirAt_replace_iff`). A walk
goes over directories alone, so it ends where it did as long as none is gone (`FileSystem.walk_of_kept`).
-/

namespace RecordTree

namespace Tree

open RecordTree.Path (Component IsName)

variable {t old : Tree} {place p base : List String} {steps steps' : List Component}

/-- A walk goes on from where it has come to. -/
theorem walkFrom_append (t : Tree) (place : List String) (steps steps' : List Component) :
    t.walkFrom place (steps ++ steps') =
      (t.walkFrom place steps).bind fun reached => t.walkFrom reached.reverse steps' := by
  induction steps generalizing place with
  | nil =>
      rw [List.nil_append, walkFrom, Except.bind, List.reverse_reverse]
  | cons step steps ih =>
      rw [List.cons_append, walkFrom.eq_def, walkFrom.eq_def t place (step :: steps)]
      simp only
      cases t.find place.reverse with
      | error absence => rfl
      | ok u =>
          cases u with
          | file content => rfl
          | dir entries =>
              simp only
              split_ifs <;> exact ih _

/-- A name leads down. -/
theorem walkFrom_cons {step : Component} (name : IsName step) (place : List String) (steps : List Component) :
    t.walkFrom place (step :: steps) =
      match t.find place.reverse with
      | .error absence => .error absence
      | .ok (.file _) => .error .refused
      | .ok (.dir _) => t.walkFrom (String.ofList step :: place) steps := by
  have opened := walkFrom.eq_def t place (step :: steps)
  simp only [name.ne_nil, name.ne_here, name.ne_above, or_self, if_false] at opened
  refine opened.trans ?_
  cases t.find place.reverse with
  | error absence => rfl
  | ok u => cases u <;> rfl

/-- **A walk along names ends where they lead.** -/
theorem eq_append_of_walkFrom (names : ∀ step ∈ steps, IsName step) (walked : t.walkFrom place steps = .ok p) :
    p = place.reverse ++ steps.map String.ofList := by
  induction steps generalizing place with
  | nil =>
      cases walked
      simp
  | cons step steps ih =>
      obtain ⟨name, names⟩ := List.forall_mem_cons.mp names
      rw [walkFrom_cons name] at walked
      split at walked
      · cases walked
      · cases walked
      · rw [ih names walked, List.reverse_cons, List.append_assoc]
        rfl

/-- **A walk along names comes to what is found there.** -/
theorem find_walkFrom (names : ∀ step ∈ steps, IsName step) (place : List String) :
    (t.walkFrom place steps).bind t.find = (t.find place.reverse).bind (·.find (steps.map String.ofList)) := by
  induction steps generalizing place with
  | nil =>
      rw [walkFrom, Except.bind]
      cases t.find place.reverse with
      | error absence => rfl
      | ok u => exact (find_nil u).symm
  | cons step steps ih =>
      obtain ⟨name, names⟩ := List.forall_mem_cons.mp names
      rw [walkFrom_cons name]
      cases found : t.find place.reverse with
      | error absence => rfl
      | ok u =>
          cases u with
          | file content => rfl
          | dir entries =>
              have below := ih names (String.ofList step :: place)
              rw [List.reverse_cons, find_append, found] at below
              simp only
              rw [below]
              exact ((dir entries).find_append [String.ofList step] _).symm

/-- A walk ends where it did in a tree in which no directory is gone. -/
theorem walkFrom_of_kept {t' : Tree} (kept : ∀ p, t.IsDirAt p → t'.IsDirAt p)
    (walked : t.walkFrom place steps = .ok p) : t'.walkFrom place steps = .ok p := by
  induction steps generalizing place with
  | nil => exact walked
  | cons step steps ih =>
      rw [walkFrom.eq_def] at walked ⊢
      simp only at walked ⊢
      split at walked
      · cases walked
      · cases walked
      · rename_i entries found
        obtain ⟨entries', found'⟩ := kept _ ⟨entries, found⟩
        rw [found']
        simp only
        split_ifs at walked ⊢ <;> exact ih walked

/-! ### Filling a place anew -/

/-- The first step on the way to what is found. -/
theorem exists_of_find_cons {name : String} (held : t.find (name :: base) = .ok old) :
    ∃ entries u, t = dir entries ∧ isName name = true ∧ Entries.find? name entries = some u ∧
      u.find base = .ok old := by
  cases t with
  | file content => cases held
  | dir entries =>
      cases named : isName name with
      | false =>
          rw [find_of_not_isName named] at held
          cases held
      | true =>
          simp only [find, named, Bool.not_true, Bool.false_eq_true, ↓reduceIte] at held
          cases there : Entries.find? name entries with
          | none => simp [there] at held
          | some u =>
              rw [there] at held
              exact ⟨entries, u, rfl, rfl, there, held⟩

/-- What is put in a place is found there. -/
theorem find_replace_append (new : Tree) (held : t.find base = .ok old) (p : List String) :
    (t.replace base new).find (base ++ p) = new.find p := by
  induction base generalizing t with
  | nil => cases t <;> rfl
  | cons name base ih =>
      obtain ⟨entries, u, rfl, named, there, inner⟩ := exists_of_find_cons held
      rw [replace, there, List.cons_append, find_insert_self named]
      exact ih inner

section Replace

variable (new : Tree) (held : t.find base = .ok old) (outside : ¬ base <+: p)

include held outside

/-- What is outside of a place that is filled anew is found as before, unless the place is below it; then it is a
directory as before. -/
theorem find_replace : (t.replace base new).find p = t.find p ∨ (t.replace base new).IsDirAt p ∧ t.IsDirAt p := by
  induction base generalizing t p with
  | nil => exact absurd List.nil_prefix outside
  | cons name base ih =>
      obtain ⟨entries, u, rfl, named, there, inner⟩ := exists_of_find_cons held
      rw [replace, there]
      cases p with
      | nil => exact .inr ⟨⟨_, rfl⟩, ⟨_, rfl⟩⟩
      | cons n p =>
          by_cases same : n = name
          · subst same
            have outside' : ¬ base <+: p := by
              intro within
              exact outside (List.cons_prefix_cons.mpr ⟨rfl, within⟩)
            have down : (dir entries).find (n :: p) = u.find p := by simp [find, named, there]
            rw [find_insert_self named, isDirAt_congr (find_insert_self named), down, isDirAt_congr down]
            exact ih inner outside'
          · exact .inl (find_insert_of_ne same)

theorem file?_replace : (t.replace base new).file? p = t.file? p := by
  rcases find_replace new held outside with same | ⟨there, there'⟩
  · exact file?_congr same
  · rw [file?_of_isDirAt there, file?_of_isDirAt there']

theorem isDirAt_replace_iff : (t.replace base new).IsDirAt p ↔ t.IsDirAt p := by
  rcases find_replace new held outside with same | ⟨there, there'⟩
  · exact isDirAt_congr same
  · exact iff_of_true there there'

end Replace

end Tree

namespace FileSystem

variable {fs fs' : FileSystem} {path : String} {place : List String}

@[simp] theorem replace_tree (fs : FileSystem) (place : List String) (new : Tree) :
    (fs.replace place new).tree = fs.tree.replace place new := rfl

/-- A walk ends where it did in a file system in which no directory is gone. -/
theorem walk_of_kept (workdir : fs'.workdir = fs.workdir) (kept : ∀ p, fs.tree.IsDirAt p → fs'.tree.IsDirAt p)
    (walked : fs.walk path = .ok place) : fs'.walk path = .ok place := by
  unfold walk origin at walked ⊢
  rw [workdir]
  split_ifs at walked ⊢ <;> exact Tree.walkFrom_of_kept kept walked

end FileSystem

end RecordTree
