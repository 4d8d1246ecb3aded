import Mathlib.Data.List.Induction
import Mathlib.Logic.Relation
import RecordTree.Proofs.Path
import RecordTree.Store.Request

/-!
# Which paths stay inside a store

A path leaves a store if somewhere along it there were more steps up than names (`ClimbsOut`). The store looks at
something else: it cleans the whole path, and then at how the result begins. Both come to the same
(`storePath_eq_error_iff`), because a step up that finds no name to take back is never taken back itself, and ends up
in front.

In a path that stays inside, every step up cancels a name before it (`Cancels`). In which order this is done does not
matter (`cancelsTo_steps_iff`): the names that are left in the end are those of the path that the store goes on with.
-/

namespace RecordTree.Path

/-! ### Steps -/

/-- The components of a path that lead somewhere. -/
def steps (path : String) : List Component := (split path.toList).filter fun part => part ≠ [] ∧ part ≠ here

/-- A step goes up or down. -/
theorem of_mem_steps {path : String} {part : Component} (mem : part ∈ steps path) : part = above ∨ IsName part := by
  obtain ⟨mem, loud⟩ := List.mem_filter.mp mem
  rw [decide_eq_true_iff] at loud
  by_cases up : part = above
  · exact .inl up
  · exact .inr ⟨loud.1, loud.2, up, slashless_of_mem_split mem⟩

/-- What is left of a path comes from its steps. -/
theorem reduce_steps (rooted : Bool) (path : String) : reduce rooted (steps path) = reduce rooted (split path.toList) := by
  have fold : ∀ (parts stack : List Component),
      (parts.filter fun part => part ≠ [] ∧ part ≠ here).foldl (push rooted) stack =
        parts.foldl (push rooted) stack := by
    intro parts
    induction parts with
    | nil => exact fun stack => rfl
    | cons part parts ih =>
        intro stack
        by_cases silent : part = [] ∨ part = here
        · have stays : push rooted stack part = stack := by rw [push.eq_def, if_pos silent]
          rw [List.filter_cons_of_neg (by simpa [← not_or] using silent), List.foldl_cons, stays, ih]
        · rw [List.filter_cons_of_pos (by simpa [not_or] using silent), List.foldl_cons, List.foldl_cons, ih]
  exact congrArg List.reverse (fold _ [])

/-! ### Steps that leave the place where they begin -/

/-- Somewhere along the components there were more steps up than names. -/
def ClimbsOut (parts : List Component) : Prop :=
  ∃ first, first <+: parts ∧ first.countP (· ≠ above) < first.count above

/-- One more component leads out if the components before it did, or if it is one step up too many. -/
theorem climbsOut_concat {parts : List Component} {part : Component} :
    ClimbsOut (parts ++ [part]) ↔
      ClimbsOut parts ∨ (parts ++ [part]).countP (· ≠ above) < (parts ++ [part]).count above := by
  constructor
  · rintro ⟨first, start, more⟩
    rcases List.prefix_concat_iff.mp start with rfl | start
    · exact .inr more
    · exact .inl ⟨first, start, more⟩
  · rintro (⟨first, start, more⟩ | more)
    · exact ⟨first, start.trans (List.prefix_append parts [part]), more⟩
    · exact ⟨_, List.prefix_rfl, more⟩

/-! ### Steps up that cancel names -/

/-- A step up cancels the name before it. -/
inductive Cancels : List Component → List Component → Prop where
  | cancel (before : List Component) {name : Component} (named : IsName name) (after : List Component) :
    Cancels (before ++ name :: above :: after) (before ++ after)

/-- What components come to when every step up has cancelled a name. -/
def CancelsTo (parts names : List Component) : Prop := Relation.ReflTransGen Cancels parts names ∧ above ∉ names

variable {parts parts' names : List Component}

theorem Cancels.append (cancels : Cancels parts parts') (part : Component) :
    Cancels (parts ++ [part]) (parts' ++ [part]) := by
  obtain ⟨before, named, after⟩ := cancels
  simpa using Cancels.cancel before named (after ++ [part])

theorem Cancels.sublist (cancels : Cancels parts parts') : parts'.Sublist parts := by
  obtain ⟨before, named, after⟩ := cancels
  exact (List.Sublist.refl before).append ((List.sublist_cons_self above after).cons _)

/-- What cancels out is taken back by cleaning, too. -/
theorem Cancels.foldl_push (cancels : Cancels parts parts') (stack : List Component) :
    parts.foldl (push false) stack = parts'.foldl (push false) stack := by
  obtain ⟨before, named, after⟩ := cancels
  simp only [List.foldl_append, List.foldl_cons, push_of_isName named, push_above, ne_eq, named.ne_above,
    not_false_eq_true, ↓reduceIte]

/-- Each name that is cancelled takes a step up with it. -/
theorem Cancels.balance (cancels : Cancels parts parts') :
    parts.countP (· ≠ above) + parts'.count above = parts'.countP (· ≠ above) + parts.count above := by
  obtain ⟨before, named, after⟩ := cancels
  rw [List.countP_append, List.countP_append, List.count_append, List.count_append,
    List.countP_cons_of_pos (by simpa using named.ne_above), List.countP_cons_of_neg (by simp),
    List.count_cons_of_ne named.ne_above, List.count_cons_self]
  omega

/-- Where every step up has cancelled a name, the names that are left are the surplus of names. -/
theorem countP_of_cancels (cancels : Relation.ReflTransGen Cancels parts names) (all : ∀ name ∈ names, IsName name) :
    parts.countP (· ≠ above) = names.length + parts.count above := by
  induction cancels using Relation.ReflTransGen.head_induction_on with
  | refl =>
      have down : names.countP (· ≠ above) = names.length :=
        List.countP_eq_length.mpr fun name mem => decide_eq_true (all name mem).ne_above
      have level : names.count above = 0 := List.count_eq_zero.mpr fun up => (all above up).ne_above rfl
      rw [down, level, Nat.add_zero]
  | head step _ ih =>
      have balance := step.balance
      omega

/-! ### Cleaning is cancelling -/

/-- Components that have not led out so far, and the stack of the names that no step up has cancelled yet. -/
structure StaysInside (parts stack : List Component) : Prop where
  inside : ¬ ClimbsOut parts
  names : ∀ name ∈ stack, IsName name
  cancels : Relation.ReflTransGen Cancels parts stack.reverse

namespace StaysInside

variable {stack : List Component} {part : Component}

theorem nil : StaysInside [] [] := by
  refine ⟨?_, by simp, .refl⟩
  rintro ⟨first, start, more⟩
  rw [List.prefix_nil.mp start] at more
  exact Nat.lt_irrefl 0 more

theorem surplus (stays : StaysInside parts stack) : parts.countP (· ≠ above) = stack.length + parts.count above := by
  rw [countP_of_cancels stays.cancels (by simpa using stays.names), List.length_reverse]

/-- One more component leads out only if it is one step up too many. -/
theorem climbsOut_concat_iff (stays : StaysInside parts stack) :
    ClimbsOut (parts ++ [part]) ↔
      stack.length + parts.count above + [part].countP (· ≠ above) < parts.count above + [part].count above := by
  rw [climbsOut_concat, or_iff_right stays.inside, List.countP_append, List.count_append, stays.surplus]

theorem moved (stays : StaysInside parts stack) (part : Component) :
    Relation.ReflTransGen Cancels (parts ++ [part]) (stack.reverse ++ [part]) :=
  stays.cancels.lift (· ++ [part]) fun _ _ step => step.append part

/-- A name is kept. -/
theorem name (stays : StaysInside parts stack) (named : IsName part) :
    StaysInside (parts ++ [part]) (part :: stack) where
  inside := by
    rw [stays.climbsOut_concat_iff, List.count_singleton, if_neg (by simpa using named.ne_above)]
    omega
  names := List.forall_mem_cons.mpr ⟨named, stays.names⟩
  cancels := by
    rw [List.reverse_cons]
    exact stays.moved part

/-- A step up cancels the name that was kept last. -/
theorem up {name : Component} (stays : StaysInside parts (name :: stack)) : StaysInside (parts ++ [above]) stack where
  inside := by
    rw [stays.climbsOut_concat_iff, List.length_cons, List.count_singleton_self]
    omega
  names := (List.forall_mem_cons.mp stays.names).2
  cancels := by
    refine (stays.moved above).tail ?_
    simpa using Cancels.cancel stack.reverse (stays.names name List.mem_cons_self) []

/-- Where no name is kept, a step up leads out. -/
theorem out (stays : StaysInside parts []) : ClimbsOut (parts ++ [above]) := by
  rw [stays.climbsOut_concat_iff]
  simp

end StaysInside

/-- **Cleaning is cancelling**, until a step up finds no name before it. From then on a step up is left. -/
theorem climbsOut_or_staysInside {parts : List Component} (all : ∀ part ∈ parts, part = above ∨ IsName part) :
    (ClimbsOut parts ∧ above ∈ parts.foldl (push false) []) ∨ StaysInside parts (parts.foldl (push false) []) := by
  induction parts using List.reverseRecOn with
  | nil => exact .inr .nil
  | append_singleton parts part ih =>
      obtain ⟨earlier, last⟩ := List.forall_mem_append.mp all
      rw [List.forall_mem_singleton] at last
      rw [List.foldl_append, List.foldl_cons, List.foldl_nil]
      rcases ih earlier with ⟨out, up⟩ | stays
      · exact .inl ⟨climbsOut_concat.mpr (.inl out), above_mem_push up part⟩
      · generalize parts.foldl (push false) [] = stack at stays ⊢
        rcases last with rfl | named
        · rw [push_above]
          cases stack with
          | nil => exact .inl ⟨stays.out, List.mem_singleton_self above⟩
          | cons name rest =>
              dsimp only
              rw [if_pos (stays.names name List.mem_cons_self).ne_above]
              exact .inr stays.up
        · rw [push_of_isName named]
          exact .inr (stays.name named)

/-! ### Paths inside a store -/

variable {path : String}

/-- A step up is left of a path that leads out, and of no other one. -/
theorem above_mem_reduce_steps_iff : above ∈ reduce false (steps path) ↔ ClimbsOut (steps path) := by
  rw [reduce, List.mem_reverse]
  rcases climbsOut_or_staysInside fun part mem => of_mem_steps mem with ⟨out, up⟩ | stays
  · exact iff_of_true up out
  · exact iff_of_false (fun up => (stays.names above up).ne_above rfl) stays.inside

/-- **Where the order of cancelling leads** in a path that stays inside: to the names that cleaning leaves. -/
theorem cancelsTo_steps_iff (inside : ¬ ClimbsOut (steps path)) :
    CancelsTo (steps path) names ↔ names = reduce false (steps path) := by
  have stays := (climbsOut_or_staysInside fun part mem => of_mem_steps mem).resolve_left fun out => inside out.1
  constructor
  · rintro ⟨cancels, down⟩
    have kept : reduce false (steps path) = reduce false names ∧ names.Sublist (steps path) := by
      clear down
      induction cancels with
      | refl => exact ⟨rfl, .refl _⟩
      | tail _ step ih => exact ⟨ih.1.trans (congrArg List.reverse (step.foldl_push [])), step.sublist.trans ih.2⟩
    have all : ∀ name ∈ names, IsName name := fun name mem =>
      (of_mem_steps (kept.2.subset mem)).resolve_left fun up => down (up ▸ mem)
    rw [kept.1, reduce_of_names all]
  · rintro rfl
    exact ⟨stays.cancels, fun up => inside (above_mem_reduce_steps_iff.mp up)⟩

/-- Of a path that stays inside, names alone are left. -/
theorem isName_of_mem_reduce_steps (inside : ¬ ClimbsOut (steps path)) :
    ∀ name ∈ reduce false (steps path), IsName name := by
  intro name mem
  have stays := (climbsOut_or_staysInside fun part mem => of_mem_steps mem).resolve_left fun out => inside out.1
  exact stays.names name (List.mem_reverse.mp mem)

/-- What the store makes of a path. -/
theorem storePath_eq (path : String) :
    storePath path =
      if above ∈ reduce false (steps path) then .error (.invalidPath path "escapes the store root")
      else .ok (String.ofList (ofNames (reduce false (steps path)))) := by
  have first : (reduce false (steps path)).head? = some above ↔ above ∈ reduce false (steps path) := by
    rw [reduce_steps, ← left_dropWhile_eq_reduce]
    refine ⟨List.mem_of_mem_head?, fun mem => ?_⟩
    by_contra down
    exact (isName_of_mem_left down above mem).ne_above rfl
  rw [storePath, normalize?_eq, left_dropWhile_eq_reduce, ← reduce_steps]
  simp only [first]
  split_ifs <;> rfl

/-- **The store refuses the paths that climb out of it**, and says which. -/
theorem storePath_eq_error_iff {e : StoreError} :
    storePath path = .error e ↔ ClimbsOut (steps path) ∧ e = .invalidPath path "escapes the store root" := by
  rw [storePath_eq, ← above_mem_reduce_steps_iff]
  split_ifs with up
  · simp [up, eq_comm]
  · simp [up]

/-- The store accepts all other paths, and goes on with the names that are left. -/
theorem storePath_eq_ok_iff_reduce {q : String} :
    storePath path = .ok q ↔ ¬ ClimbsOut (steps path) ∧ q = String.ofList (ofNames (reduce false (steps path))) := by
  rw [storePath_eq, ← above_mem_reduce_steps_iff]
  split_ifs with up
  · simp [up]
  · simp [up, eq_comm]

-- Names may begin with dots.
example : storePath "..x/..." = .ok "..x/..." := by decide

/-- **Which paths stay inside a store, and what becomes of them.** A path is refused if and only if somewhere along it
there were more steps up than names. Of any other path there are left the names that no step up cancels, in whichever
order that is done, and the path made of them is its own canonical form. So two paths have one canonical form if and
only if the same names are left of both. -/
theorem storePath_characterized (path : String) :
    (∀ e, storePath path = .error e ↔ ClimbsOut (steps path) ∧ e = .invalidPath path "escapes the store root") ∧
      (¬ ClimbsOut (steps path) → ∃ q names, storePath path = .ok q ∧ storePath q = .ok q ∧
        q = (if names = [] then "." else String.ofList (joinAll names)) ∧ (∀ name ∈ names, IsName name) ∧
          ∀ names', CancelsTo (steps path) names' ↔ names' = names) ∧
      ∀ path' q q', storePath path = .ok q → storePath path' = .ok q' →
        (q = q' ↔ ∃ names, CancelsTo (steps path) names ∧ CancelsTo (steps path') names) := by
  refine ⟨fun e => storePath_eq_error_iff, fun inside => ?_, fun path' q q' accepted accepted' => ?_⟩
  · have all := isName_of_mem_reduce_steps inside
    refine ⟨_, reduce false (steps path), storePath_eq_ok_iff_reduce.mpr ⟨inside, rfl⟩, ?_, ?_, all,
      fun names' => cancelsTo_steps_iff inside⟩
    · rw [storePath, normalize?_ofNames all]
    · rw [ofNames]
      split_ifs <;> rfl
  · obtain ⟨inside, rfl⟩ := storePath_eq_ok_iff_reduce.mp accepted
    obtain ⟨inside', rfl⟩ := storePath_eq_ok_iff_reduce.mp accepted'
    simp only [cancelsTo_steps_iff inside, cancelsTo_steps_iff inside', exists_eq_left]
    constructor
    · intro same
      exact ofNames_injective (isName_of_mem_reduce_steps inside) (isName_of_mem_reduce_steps inside')
        (String.ofList_injective same)
    · intro same
      rw [same]

/-- A path with a detour and one without it come to the same file. -/
theorem storePath_characterized_detour :
    storePath "/a//../b/./c" = .ok "b/c" ∧ storePath "b/c/" = .ok "b/c" ∧
      ∃ names, CancelsTo (steps "/a//../b/./c") names ∧ CancelsTo (steps "b/c/") names := by
  have detour : storePath "/a//../b/./c" = .ok "b/c" := by decide
  have direct : storePath "b/c/" = .ok "b/c" := by decide
  obtain ⟨-, -, same⟩ := storePath_characterized "/a//../b/./c"
  exact ⟨detour, direct, (same "b/c/" "b/c" "b/c" detour direct).mp rfl⟩

end RecordTree.Path
