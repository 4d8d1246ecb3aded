/-!
# Maps with text keys, kept in key order

A `SortedMap α` lists its entries in strictly increasing key order, so that a map has one
representation and two maps that answer every look-up alike are equal (`SortedMap.ext_get?`).
Keys are ordered by code point, which is also the order of their UTF-8 bytes.

The operations are written on the bare list of entries first (`Entries`), where the look-up laws
`find?_insert` and `find?_erase` need no order at all; the structure adds the order as a proof.
-/

namespace RecordTree

universe u v

/-! ### Entry lists -/

namespace Entries

variable {α : Type u} {β : Type v}

/-- The entries stand in strictly increasing key order. -/
def Sorted (es : List (String × α)) : Prop :=
  es.Pairwise fun a b => a.1 < b.1

/-- The value of the first entry with the given key. -/
def find? (key : String) : List (String × α) → Option α
  | [] => none
  | (k, a) :: es => if key = k then some a else find? key es

/-- Puts an entry in its place, replacing the one that has its key. -/
def insert (key : String) (value : α) : List (String × α) → List (String × α)
  | [] => [(key, value)]
  | (k, a) :: es =>
    if key < k then (key, value) :: (k, a) :: es
    else if key = k then (key, value) :: es
    else (k, a) :: insert key value es

/-- Drops every entry with the given key. -/
def erase (key : String) : List (String × α) → List (String × α)
  | [] => []
  | (k, a) :: es => if key = k then erase key es else (k, a) :: erase key es

theorem erase_sublist (key : String) (es : List (String × α)) : (erase key es).Sublist es := by
  fun_induction erase key es with
  | case1 => exact .slnil
  | case2 _ _ ih => exact ih.cons _
  | case3 _ _ _ _ ih => exact ih.cons_cons _

theorem mem_insert {key : String} {value : α} {e : String × α} {es : List (String × α)}
    (h : e ∈ insert key value es) : e = (key, value) ∨ e ∈ es := by
  fun_induction insert key value es with
  | case1 => simpa using h
  | case2 => simpa using h
  | case3 => simp only [List.mem_cons] at h ⊢; exact h.imp_right .inr
  | case4 k a es _ _ ih =>
    rcases List.mem_cons.1 h with h | h
    · exact .inr (h ▸ List.mem_cons_self)
    · exact (ih h).imp_right (List.mem_cons_of_mem _)

theorem Sorted.insert {key : String} {value : α} {es : List (String × α)} (h : Sorted es) :
    Sorted (insert key value es) := by
  fun_induction Entries.insert key value es with
  | case1 => exact List.pairwise_singleton _ _
  | case2 k a es hlt =>
    refine List.pairwise_cons.2 ⟨fun e he => ?_, h⟩
    rcases List.mem_cons.1 he with rfl | he
    · exact hlt
    · exact String.lt_trans hlt ((List.pairwise_cons.1 h).1 e he)
  | case3 a es => exact List.pairwise_cons.2 (List.pairwise_cons.1 h)
  | case4 k a es hlt hne ih =>
    have hk : k < key := by
      have hle := String.not_lt.1 hlt
      rcases Classical.em (k < key) with h' | h'
      · exact h'
      · exact absurd (String.le_antisymm (String.not_lt.1 h') hle) hne
    refine List.pairwise_cons.2 ⟨fun e he => ?_, ih (List.pairwise_cons.1 h).2⟩
    rcases mem_insert he with rfl | he
    · exact hk
    · exact (List.pairwise_cons.1 h).1 e he

theorem Sorted.erase {key : String} {es : List (String × α)} (h : Sorted es) :
    Sorted (erase key es) :=
  List.Pairwise.sublist (erase_sublist key es) h

theorem find?_insert (key key' : String) (value : α) (es : List (String × α)) :
    find? key' (insert key value es) = if key' = key then some value else find? key' es := by
  fun_induction insert key value es with
  | case1 => simp [find?]
  | case2 => simp [find?]
  | case3 a es => by_cases h : key' = key <;> simp [find?, h]
  | case4 k a es _ hne ih =>
    by_cases h : key' = k
    · subst h; simp [find?, Ne.symm hne]
    · simp [find?, h, ih]

theorem find?_erase (key key' : String) (es : List (String × α)) :
    find? key' (erase key es) = if key' = key then none else find? key' es := by
  fun_induction erase key es with
  | case1 => simp [find?]
  | case2 a es ih => by_cases h : key' = key <;> simp_all [find?]
  | case3 k a es hne ih =>
    by_cases h : key' = k
    · subst h; simp [find?, Ne.symm hne]
    · simp [find?, h, ih]

theorem find?_eq_none {key : String} {es : List (String × α)} (h : ∀ e ∈ es, e.1 ≠ key) :
    find? key es = none := by
  induction es with
  | nil => rfl
  | cons e es ih =>
    have := h e List.mem_cons_self
    simp [find?, Ne.symm this, ih fun e he => h e (List.mem_cons_of_mem _ he)]

theorem Sorted.find?_head {k : String} {a : α} {es : List (String × α)}
    (h : Sorted ((k, a) :: es)) : find? k es = none :=
  find?_eq_none fun e he heq =>
    String.lt_irrefl k (heq ▸ (List.pairwise_cons.1 h).1 e he)

/-- Sorted lists that answer every look-up alike are equal. -/
theorem Sorted.ext {es es' : List (String × α)} (h : Sorted es) (h' : Sorted es')
    (hfind : ∀ key, find? key es = find? key es') : es = es' := by
  induction es generalizing es' with
  | nil =>
    cases es' with
    | nil => rfl
    | cons e es' => have := hfind e.1; simp [find?] at this
  | cons e es ih =>
    obtain ⟨k, a⟩ := e
    cases es' with
    | nil => have := hfind k; simp [find?] at this
    | cons e' es' =>
      obtain ⟨k', a'⟩ := e'
      have hfst : ∀ {k k' : String} {a a' : α} {es es' : List (String × α)},
          Sorted ((k, a) :: es) → Sorted ((k', a') :: es') →
          (∀ key, find? key ((k, a) :: es) = find? key ((k', a') :: es')) → ¬ k < k' := by
        intro k k' a a' es es' _ hs' hf hlt
        have hne : k ≠ k' := fun heq => String.lt_irrefl k (heq ▸ hlt)
        have hn : find? k es' = none := find?_eq_none fun e he heq =>
          String.lt_irrefl k (String.lt_trans hlt (heq ▸ (List.pairwise_cons.1 hs').1 e he))
        have := hf k
        simp [find?, hne, hn] at this
      have hk : k = k' := String.le_antisymm
        (String.not_lt.1 (hfst h' h fun key => (hfind key).symm)) (String.not_lt.1 (hfst h h' hfind))
      subst hk
      have ha : a = a' := by have := hfind k; simpa [find?] using this
      subst ha
      rw [ih (List.pairwise_cons.1 h).2 (List.pairwise_cons.1 h').2 fun key => ?_]
      by_cases hkey : key = k
      · subst hkey; rw [h.find?_head, h'.find?_head]
      · have := hfind key; simpa [find?, hkey] using this

theorem Sorted.map_snd (f : α → β) {es : List (String × α)} (h : Sorted es) :
    Sorted (es.map fun e => (e.1, f e.2)) :=
  List.Pairwise.map _ (fun _ _ hab => hab) h

end Entries

/-! ### Maps -/

/-- A finite map from texts, its entries in strictly increasing key order. -/
structure SortedMap (α : Type u) where
  /-- The entries, in key order. -/
  entries : List (String × α)
  sorted : Entries.Sorted entries
  deriving DecidableEq

namespace SortedMap

variable {α : Type u} {β : Type v}

/-- The map without entries. -/
def empty : SortedMap α := ⟨[], List.Pairwise.nil⟩

instance : EmptyCollection (SortedMap α) := ⟨empty⟩
instance : Inhabited (SortedMap α) := ⟨empty⟩

/-- The value stored under a key. -/
def get? (m : SortedMap α) (key : String) : Option α := Entries.find? key m.entries

/-- Whether a key has a value. -/
def contains (m : SortedMap α) (key : String) : Bool := (m.get? key).isSome

/-- Stores a value under a key, replacing the one that was there. -/
def insert (m : SortedMap α) (key : String) (value : α) : SortedMap α :=
  ⟨Entries.insert key value m.entries, m.sorted.insert⟩

/-- Removes a key and its value. -/
def erase (m : SortedMap α) (key : String) : SortedMap α :=
  ⟨Entries.erase key m.entries, m.sorted.erase⟩

/-- Whether the map has no entry. -/
def isEmpty (m : SortedMap α) : Bool := m.entries.isEmpty

/-- The number of entries. -/
def size (m : SortedMap α) : Nat := m.entries.length

/-- The map that holds, for each key of the list, the last value listed under it. -/
def ofList (es : List (String × α)) : SortedMap α :=
  es.foldl (fun m e => m.insert e.1 e.2) empty

/-- Applies a function to every value. -/
def map (f : α → β) (m : SortedMap α) : SortedMap β :=
  ⟨m.entries.map fun e => (e.1, f e.2), m.sorted.map_snd f⟩

/-- Applies a function that may fail to every entry, in key order; the first failure is the
answer. -/
def mapM {ε : Type} (f : String → α → Except ε β) (m : SortedMap α) :
    Except ε (SortedMap β) :=
  m.entries.foldlM (fun out e => (f e.1 e.2).map (out.insert e.1)) empty

@[simp] theorem get?_empty (key : String) : (empty : SortedMap α).get? key = none := rfl

theorem get?_insert (m : SortedMap α) (key key' : String) (value : α) :
    (m.insert key value).get? key' = if key' = key then some value else m.get? key' :=
  Entries.find?_insert key key' value m.entries

@[simp] theorem get?_insert_self (m : SortedMap α) (key : String) (value : α) :
    (m.insert key value).get? key = some value := by
  simp [get?_insert]

theorem get?_insert_of_ne (m : SortedMap α) {key key' : String} (h : key' ≠ key) (value : α) :
    (m.insert key value).get? key' = m.get? key' := by
  simp [get?_insert, h]

theorem get?_erase (m : SortedMap α) (key key' : String) :
    (m.erase key).get? key' = if key' = key then none else m.get? key' :=
  Entries.find?_erase key key' m.entries

@[simp] theorem get?_erase_self (m : SortedMap α) (key : String) :
    (m.erase key).get? key = none := by
  simp [get?_erase]

theorem get?_erase_of_ne (m : SortedMap α) {key key' : String} (h : key' ≠ key) :
    (m.erase key).get? key' = m.get? key' := by
  simp [get?_erase, h]

/-- Two maps that answer every look-up alike are equal. -/
theorem ext_get? {m m' : SortedMap α} (h : ∀ key, m.get? key = m'.get? key) : m = m' := by
  obtain ⟨es, hs⟩ := m
  obtain ⟨es', hs'⟩ := m'
  have : es = es' := hs.ext hs' h
  subst this
  rfl

/-- Listing the entries of a map again gives the map. -/
theorem ofList_entries (m : SortedMap α) : ofList m.entries = m := by
  have key : ∀ (es : List (String × α)) (m₀ : SortedMap α) (k : String),
      Entries.Sorted es →
      (es.foldl (fun m e => m.insert e.1 e.2) m₀).get? k =
        (Entries.find? k es).or (m₀.get? k) := by
    intro es
    induction es with
    | nil => intro m₀ k _; simp [Entries.find?]
    | cons e es ih =>
      intro m₀ k hs
      obtain ⟨k', a⟩ := e
      rw [List.foldl_cons, ih _ _ (List.pairwise_cons.1 hs).2, get?_insert]
      by_cases h : k = k'
      · subst h; simp [Entries.find?, hs.find?_head]
      · simp [Entries.find?, h]
  refine ext_get? fun k => ?_
  rw [ofList, key m.entries empty k m.sorted]
  simp [get?, empty, Entries.find?]

end SortedMap

end RecordTree
