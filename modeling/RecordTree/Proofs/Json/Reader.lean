import Mathlib.Tactic.Common
import RecordTree.Json.Reader
import RecordTree.Proofs.Value

/-!
# What is read from JSON

Whatever the reader accepts is nested no deeper than it allows, and the fields of every mapping stand in the
order of their keys (`Regular`).
-/

namespace RecordTree.Json

/-! ### Regular values -/

mutual

/-- Whether the fields of every mapping in a value are in order, and all its numbers are of a kind. -/
def Regular (kind : Number → Prop) : Value → Prop
  | .number n => kind n
  | .array items => RegularItems kind items
  | .object fields => Entries.Sorted fields ∧ RegularFields kind fields
  | _ => True

/-- Whether all values in a list are regular. -/
def RegularItems (kind : Number → Prop) : List Value → Prop
  | [] => True
  | v :: vs => Regular kind v ∧ RegularItems kind vs

/-- Whether all values in a list of fields are regular. -/
def RegularFields (kind : Number → Prop) : List (String × Value) → Prop
  | [] => True
  | (_, v) :: fs => Regular kind v ∧ RegularFields kind fs

end

variable {kind : Number → Prop}

theorem regularItems_iff {vs : List Value} : RegularItems kind vs ↔ ∀ v ∈ vs, Regular kind v := by
  induction vs with
  | nil => simp [RegularItems]
  | cons v vs ih => simp only [RegularItems, ih, List.forall_mem_cons]

theorem regularFields_iff {fs : List (String × Value)} :
    RegularFields kind fs ↔ ∀ f ∈ fs, Regular kind f.2 := by
  induction fs with
  | nil => simp [RegularFields]
  | cons f fs ih => simp only [RegularFields, ih, List.forall_mem_cons]

/-- A mapping is regular if its fields are. -/
theorem regular_ofFields_iff {fields : Fields} :
    Regular kind (.ofFields fields) ↔ ∀ key v, fields.get? key = some v → Regular kind v := by
  simp only [Value.ofFields, Regular, regularFields_iff, SortedMap.get?_eq_some_iff]
  exact ⟨fun regular key v mem => regular.2 _ mem, fun regular => ⟨fields.sorted, fun f mem => regular _ _ mem⟩⟩

/-- What is in a regular mapping is regular. -/
theorem Regular.of_mem {fs : List (String × Value)} (regular : Regular kind (.object fs)) {f : String × Value}
    (mem : f ∈ fs) : Regular kind f.2 := by
  rw [Regular] at regular
  exact regularFields_iff.mp regular.2 f mem

/-! ### The bounds of a reading -/

/-- Whether a value can be read where the given number of containers may be opened. -/
def Bounded (kind : Number → Prop) (room : Nat) (v : Value) : Prop := v.depth ≤ room ∧ Regular kind v

theorem bounded_array {room : Nat} {vs : List Value} (items : ∀ v ∈ vs, Bounded kind room v) :
    Bounded kind (room + 1) (.array vs) := by
  refine ⟨Nat.succ_le_succ (Value.depthItems_le_iff.mpr fun v mem => (items v mem).1), ?_⟩
  exact regularItems_iff.mpr fun v mem => (items v mem).2

theorem bounded_object {room : Nat} {fs : List (String × Value)} (sorted : Entries.Sorted fs)
    (fields : ∀ f ∈ fs, Bounded kind room f.2) : Bounded kind (room + 1) (.object fs) := by
  refine ⟨Nat.succ_le_succ (Value.depthFields_le_iff.mpr fun f mem => (fields f mem).1), sorted, ?_⟩
  exact regularFields_iff.mpr fun f mem => (fields f mem).2

/-- What the three readers give with some fuel is bounded by the room that they have. -/
structure Bounds (kind : Number → Prop) (fuel : Nat) : Prop where
  value : ∀ {room cs v rest}, Json.value fuel room cs = some (v, rest) → Bounded kind room v
  items : ∀ {room acc cs vs rest}, (∀ v ∈ acc, Bounded kind room v) →
    Json.items fuel room acc cs = some (vs, rest) → ∀ v ∈ vs, Bounded kind room v
  fields : ∀ {room acc cs fs rest}, Entries.Sorted acc → (∀ f ∈ acc, Bounded kind room f.2) →
    Json.fields fuel room acc cs = some (fs, rest) → Entries.Sorted fs ∧ ∀ f ∈ fs, Bounded kind room f.2

namespace Bounds

variable {fuel room : Nat} {cs rest : List Char}

/-- A value opens a container only if there is room for one more. -/
theorem value_succ (bounds : Bounds kind fuel) (numbers : ∀ t n, NumberText.number? t = some n → kind n)
    {v : Value} (read : Json.value (fuel + 1) room cs = some (v, rest)) : Bounded kind room v := by
  rw [Json.value] at read
  split at read
  · cases read
    exact ⟨Nat.zero_le _, trivial⟩
  · cases read
    exact ⟨Nat.zero_le _, trivial⟩
  · cases read
    exact ⟨Nat.zero_le _, trivial⟩
  · obtain ⟨⟨s, cs'⟩, -, same⟩ := Option.map_eq_some_iff.mp read
    cases same
    exact ⟨Nat.zero_le _, trivial⟩
  · cases room with
    | zero => cases read
    | succ room =>
        simp only at read
        split at read
        · cases read
          exact bounded_array (by simp)
        · obtain ⟨⟨vs, cs'⟩, inner, same⟩ := Option.map_eq_some_iff.mp read
          cases same
          exact bounded_array (bounds.items (by simp) inner)
  · cases room with
    | zero => cases read
    | succ room =>
        simp only at read
        split at read
        · cases read
          exact bounded_object .nil (by simp)
        · obtain ⟨⟨fs, cs'⟩, inner, same⟩ := Option.map_eq_some_iff.mp read
          cases same
          obtain ⟨sorted, bounded⟩ := bounds.fields .nil (by simp) inner
          exact bounded_object sorted bounded
  · obtain ⟨⟨text, cs'⟩, -, read⟩ := Option.bind_eq_some_iff.mp read
    obtain ⟨n, number, same⟩ := Option.bind_eq_some_iff.mp read
    cases same
    exact ⟨Nat.zero_le _, numbers text n number⟩

/-- Items that are read join those that were read before. -/
theorem items_succ (bounds : Bounds kind fuel) {acc vs : List Value} (before : ∀ v ∈ acc, Bounded kind room v)
    (read : Json.items (fuel + 1) room acc cs = some (vs, rest)) : ∀ v ∈ vs, Bounded kind room v := by
  rw [Json.items] at read
  split at read
  · cases read
  · rename_i v cs' first
    have extended : ∀ w ∈ v :: acc, Bounded kind room w :=
      List.forall_mem_cons.mpr ⟨bounds.value first, before⟩
    split at read
    · exact bounds.items extended read
    · cases read
      intro w mem
      exact extended w (List.mem_reverse.mp mem)
    · cases read

/-- Fields that are read are put in order among those that were read before. -/
theorem fields_succ (bounds : Bounds kind fuel) {acc fs : List (String × Value)} (sorted : Entries.Sorted acc)
    (before : ∀ f ∈ acc, Bounded kind room f.2)
    (read : Json.fields (fuel + 1) room acc cs = some (fs, rest)) :
    Entries.Sorted fs ∧ ∀ f ∈ fs, Bounded kind room f.2 := by
  rw [Json.fields] at read
  split at read
  · split at read
    · cases read
    · rename_i k cs' _
      split at read
      · split at read
        · cases read
        · rename_i v cs'' first
          have stored : ∀ f ∈ Entries.insert k v acc, Bounded kind room f.2 := by
            intro f mem
            rcases Entries.mem_insert mem with rfl | mem
            · exact bounds.value first
            · exact before f mem
          split at read
          · exact bounds.fields sorted.insert stored read
          · cases read
            exact ⟨sorted.insert, stored⟩
          · cases read
      · cases read
  · cases read

end Bounds

/-- Every reading is bounded, by induction on the fuel that the three readers share. -/
theorem bounds_of_numbers (numbers : ∀ t n, NumberText.number? t = some n → kind n) (fuel : Nat) :
    Bounds kind fuel := by
  induction fuel with
  | zero =>
      constructor
      · intro room cs v rest read
        simp [value] at read
      · intro room acc cs vs rest before read
        simp [items] at read
      · intro room acc cs fs rest sorted before read
        simp [fields] at read
  | succ fuel ih => exact ⟨ih.value_succ numbers, ih.items_succ, ih.fields_succ⟩

/-- **What is read from a text** is nested no deeper than the limit, and regular. -/
theorem bounded_of_read? (numbers : ∀ t n, NumberText.number? t = some n → kind n) {text : String} {v : Value}
    (read : read? text = some v) : Bounded kind nestingLimit v := by
  obtain ⟨⟨w, rest⟩, inner, same⟩ := Option.bind_eq_some_iff.mp read
  simp only [Option.ite_none_right_eq_some] at same
  obtain ⟨-, same⟩ := same
  cases same
  exact (bounds_of_numbers numbers _).value inner

end RecordTree.Json
