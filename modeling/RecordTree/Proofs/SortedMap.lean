import Mathlib.Tactic.Common
import RecordTree.SortedMap

/-!
# More on maps with text keys

The look-ups of a map and its entries say the same (`get?_eq_some_iff`), and a function that undoes another
one on every value undoes it on the map (`mapM_map`).
-/

namespace RecordTree

universe u v

theorem Entries.Sorted.find?_eq_some_iff {α : Type u} {es : List (String × α)} (sorted : Sorted es)
    {key : String} {a : α} : find? key es = some a ↔ (key, a) ∈ es := by
  induction es with
  | nil => simp [find?]
  | cons e es ih =>
      obtain ⟨k, b⟩ := e
      obtain ⟨above, rest⟩ := List.pairwise_cons.mp sorted
      by_cases h : key = k
      · subst h
        have fresh : (key, a) ∉ es := fun mem => String.lt_irrefl key (above _ mem)
        simp [find?, fresh, eq_comm]
      · simp [find?, h, ih rest]

/-- What is found in a list stands in it. -/
theorem Entries.mem_of_find? {α : Type u} {es : List (String × α)} {key : String} {a : α}
    (found : find? key es = some a) : (key, a) ∈ es := by
  induction es with
  | nil => cases found
  | cons e es ih =>
      obtain ⟨k, b⟩ := e
      by_cases h : key = k
      · subst h
        simp_all [find?]
      · simp only [find?, h, ↓reduceIte] at found
        exact List.mem_cons_of_mem _ (ih found)

/-- Something is found under the keys of a list. -/
theorem Entries.isSome_find?_iff {α : Type u} {es : List (String × α)} {key : String} :
    (find? key es).isSome ↔ key ∈ es.map Prod.fst := by
  induction es with
  | nil => simp [find?]
  | cons e es ih => by_cases h : key = e.1 <;> simp_all [find?]

/-- What is erased is everything under the key. -/
theorem Entries.erase_eq_filter {α : Type u} (key : String) (es : List (String × α)) :
    erase key es = es.filter fun e => e.1 ≠ key := by
  induction es with
  | nil => rfl
  | cons e es ih =>
      obtain ⟨k, a⟩ := e
      by_cases same : key = k
      · subst same
        simp [erase, ih]
      · simp [erase, same, Ne.symm same, ih]

/-- A list is searched from its front. -/
theorem Entries.find?_append {α : Type u} (key : String) (es es' : List (String × α)) :
    find? key (es ++ es') = (find? key es).or (find? key es') := by
  induction es with
  | nil => rfl
  | cons e es ih => by_cases same : key = e.1 <;> simp [find?, same, ← ih]

/-- If keys are different it does not matter from which side a list is searched. -/
theorem Entries.find?_reverse {α : Type u} {es : List (String × α)} (distinct : (es.map Prod.fst).Nodup)
    (key : String) : find? key es.reverse = find? key es := by
  induction es with
  | nil => rfl
  | cons e es ih =>
      obtain ⟨fresh, distinct⟩ := List.nodup_cons.mp distinct
      rw [List.reverse_cons, find?_append, ih distinct]
      by_cases same : key = e.1
      · subst same
        have missing : find? e.1 es = none :=
          find?_eq_none fun e' mem same => fresh (List.mem_map.mpr ⟨e', mem, same⟩)
        simp [find?, missing]
      · simp [find?, same]

/-- An entry behind all others is put at the end. -/
theorem Entries.Sorted.insert_append {α : Type u} {es es' : List (String × α)} {key : String} {a b : α}
    (sorted : Sorted (es ++ (key, a) :: es')) : Entries.insert key b es = es ++ [(key, b)] := by
  induction es with
  | nil => rfl
  | cons e es ih =>
      obtain ⟨above, rest⟩ := List.pairwise_cons.mp sorted
      have before : e.1 < key := above (key, a) (by simp)
      have after : ¬ key < e.1 := fun h => String.lt_irrefl _ (String.lt_trans h before)
      have other : key ≠ e.1 := fun h => String.lt_irrefl _ (h ▸ before)
      simp [Entries.insert, after, other, ih rest]

/-- The order of entries is the order of their keys. -/
theorem Entries.Sorted.replace {α : Type u} {es es' : List (String × α)} {key : String} {a b : α}
    (sorted : Sorted (es ++ (key, a) :: es')) : Sorted ((es ++ [(key, b)]) ++ es') := by
  have keys : ∀ es : List (String × α), Sorted es ↔ (es.map Prod.fst).Pairwise (· < ·) :=
    fun es => List.pairwise_map.symm
  rw [keys] at sorted ⊢
  simpa using sorted

namespace SortedMap

variable {α : Type u} {β : Type v}

theorem get?_eq_some_iff {m : SortedMap α} {key : String} {a : α} :
    m.get? key = some a ↔ (key, a) ∈ m.entries :=
  m.sorted.find?_eq_some_iff

theorem get?_of_isEmpty {m : SortedMap α} (empty : m.isEmpty = true) (key : String) : m.get? key = none := by
  rw [get?, List.isEmpty_iff.mp empty]
  rfl

theorem eq_empty_of_isEmpty {m : SortedMap α} (empty : m.isEmpty = true) : m = .empty :=
  ext_get? fun key => get?_of_isEmpty empty key

theorem isEmpty_of_get? {m : SortedMap α} {key : String} {a : α} (found : m.get? key = some a) :
    m.isEmpty = false := by
  by_contra empty
  rw [get?_of_isEmpty (by simpa using empty)] at found
  cases found

/-! ### One key -/

/-- The map with the given value under a key, or with no value there. -/
def assign (m : SortedMap α) (key : String) : Option α → SortedMap α
  | some a => m.insert key a
  | none => m.erase key

theorem get?_assign (m : SortedMap α) (key key' : String) (x : Option α) :
    (m.assign key x).get? key' = if key' = key then x else m.get? key' := by
  cases x with
  | none => exact m.get?_erase key key'
  | some a => exact m.get?_insert key key' a

@[simp] theorem get?_assign_self (m : SortedMap α) (key : String) (x : Option α) :
    (m.assign key x).get? key = x := by
  rw [get?_assign, if_pos rfl]

theorem get?_assign_of_ne (m : SortedMap α) {key key' : String} (other : key' ≠ key) (x : Option α) :
    (m.assign key x).get? key' = m.get? key' := by
  rw [get?_assign, if_neg other]

/-- Of two values that are assigned to a key the last one stays. -/
theorem assign_assign (m : SortedMap α) (key : String) (x y : Option α) :
    (m.assign key x).assign key y = m.assign key y := by
  refine ext_get? fun key' => ?_
  simp only [get?_assign]
  split_ifs <;> rfl

/-- It does not matter in which order different keys are assigned. -/
theorem assign_comm (m : SortedMap α) {key key' : String} (other : key ≠ key') (x y : Option α) :
    (m.assign key x).assign key' y = (m.assign key' y).assign key x := by
  refine ext_get? fun k => ?_
  simp only [get?_assign]
  split_ifs with first second
  · exact absurd (second.symm.trans first) other
  · rfl
  · rfl
  · rfl

/-- To assign what is there changes nothing. -/
theorem assign_get? (m : SortedMap α) (key : String) : m.assign key (m.get? key) = m := by
  refine ext_get? fun key' => ?_
  rw [get?_assign]
  split_ifs with same
  · rw [same]
  · rfl

/-- A map is changed by what is assigned unless that is there. -/
theorem assign_eq_self_iff (m : SortedMap α) (key : String) (x : Option α) :
    m.assign key x = m ↔ m.get? key = x := by
  constructor
  · intro same
    rw [← same, get?_assign_self]
  · rintro rfl
    exact m.assign_get? key

theorem get?_map (f : α → β) (m : SortedMap α) (key : String) : (m.map f).get? key = (m.get? key).map f := by
  have entries : ∀ es : List (String × α),
      Entries.find? key (es.map fun e => (e.1, f e.2)) = (Entries.find? key es).map f := by
    intro es
    induction es with
    | nil => rfl
    | cons e es ih => by_cases same : key = e.1 <;> simp [Entries.find?, same, ← ih]
  exact entries m.entries

/-- What undoes a function on every value undoes it on the map. -/
theorem mapM_map {ε : Type} {f : String → β → Except ε α} {g : α → β}
    (undo : ∀ key a, f key (g a) = .ok a) (m : SortedMap α) : (m.map g).mapM f = .ok m := by
  have entries : ∀ (es : List (String × α)) (out : SortedMap α),
      (es.map fun e => (e.1, g e.2)).foldlM (fun out e => (f e.1 e.2).map (out.insert e.1)) out =
        Except.ok (es.foldl (fun out e => out.insert e.1 e.2) out) := by
    intro es
    induction es with
    | nil => exact fun out => rfl
    | cons e es ih =>
        intro out
        rw [List.map_cons, List.foldlM_cons, undo, List.foldl_cons, ← ih]
        rfl
  exact (entries m.entries empty).trans (congrArg Except.ok (ofList_entries m))

/-- Listed entries are all that is in the map that lists them. -/
theorem mem_of_get?_ofList {es : List (String × α)} {key : String} {a : α}
    (found : (ofList es).get? key = some a) : (key, a) ∈ es := by
  have entries : ∀ (es : List (String × α)) (out : SortedMap α),
      (es.foldl (fun out e => out.insert e.1 e.2) out).get? key = some a →
        (key, a) ∈ es ∨ out.get? key = some a := by
    intro es
    induction es with
    | nil => exact fun out found => .inr found
    | cons e es ih =>
        intro out found
        rcases ih _ found with mem | found
        · exact .inl (List.mem_cons_of_mem _ mem)
        · by_cases same : key = e.1
          · subst same
            rw [get?_insert_self, Option.some.injEq] at found
            exact .inl (by simp [← found])
          · rw [get?_insert_of_ne _ same] at found
            exact .inr found
  exact (entries es empty found).resolve_right (by simp)

section Fallible

variable {ε : Type} {f : String → α → Except ε β}

/-- Every value of a map that a function has gone over comes from a value of the map before. -/
theorem exists_of_mapM_eq_ok {m : SortedMap α} {m' : SortedMap β} (mapped : m.mapM f = .ok m') {key : String}
    {b : β} (found : m'.get? key = some b) : ∃ a, m.get? key = some a ∧ f key a = .ok b := by
  have entries : ∀ (es : List (String × α)) (out : SortedMap β),
      es.foldlM (fun out e => (f e.1 e.2).map (out.insert e.1)) out = .ok m' →
        (∃ a, (key, a) ∈ es ∧ f key a = .ok b) ∨ out.get? key = some b := by
    intro es
    induction es with
    | nil =>
        intro out mapped
        cases mapped
        exact .inr found
    | cons e es ih =>
        intro out mapped
        rw [List.foldlM_cons] at mapped
        cases value : f e.1 e.2 with
        | error x => simp [value, Except.map, bind, Except.bind] at mapped
        | ok c =>
            rw [value] at mapped
            rcases ih _ mapped with ⟨a, mem, value'⟩ | found
            · exact .inl ⟨a, List.mem_cons_of_mem _ mem, value'⟩
            · by_cases same : key = e.1
              · subst same
                rw [get?_insert_self, Option.some.injEq] at found
                exact .inl ⟨e.2, by simp, found ▸ value⟩
              · rw [get?_insert_of_ne _ same] at found
                exact .inr found
  obtain ⟨a, mem, value⟩ := (entries m.entries empty mapped).resolve_right (by simp)
  exact ⟨a, get?_eq_some_iff.mpr mem, value⟩

/-- A function that fails on no value goes over the whole map. -/
theorem exists_mapM_eq_ok {m : SortedMap α} (values : ∀ e ∈ m.entries, ∃ b, f e.1 e.2 = .ok b) :
    ∃ m', m.mapM f = .ok m' := by
  have entries : ∀ (es : List (String × α)) (out : SortedMap β), (∀ e ∈ es, ∃ b, f e.1 e.2 = .ok b) →
      ∃ m', es.foldlM (fun out e => (f e.1 e.2).map (out.insert e.1)) out = .ok m' := by
    intro es
    induction es with
    | nil => exact fun out _ => ⟨out, rfl⟩
    | cons e es ih =>
        intro out values
        obtain ⟨⟨b, value⟩, rest⟩ := List.forall_mem_cons.mp values
        rw [List.foldlM_cons, value]
        exact ih _ rest
  exact entries m.entries empty values

end Fallible

end SortedMap

end RecordTree
