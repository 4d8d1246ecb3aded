import RecordTree.Proofs.SortedMap
import RecordTree.Value

/-!
# More on values

Whether two values are the same can be computed. Readers that take a number for another one still keep the
outline of a value, which decides how deep it is nested.
-/

namespace RecordTree.Value

/-! ### Equality -/

mutual

/-- Whether two values are the same. -/
def same : Value → Value → Bool
  | null, null => true
  | bool a, bool b => a = b
  | number a, number b => a = b
  | string a, string b => a = b
  | array a, array b => sameItems a b
  | object a, object b => sameFields a b
  | _, _ => false

/-- Whether two lists of values are the same. -/
def sameItems : List Value → List Value → Bool
  | [], [] => true
  | v :: vs, w :: ws => same v w && sameItems vs ws
  | _, _ => false

/-- Whether two lists of fields are the same. -/
def sameFields : List (String × Value) → List (String × Value) → Bool
  | [], [] => true
  | (k, v) :: fs, (l, w) :: gs => k = l && same v w && sameFields fs gs
  | _, _ => false

end

mutual

theorem same_iff (v w : Value) : same v w = true ↔ v = w := by
  cases v <;> cases w <;> simp [same, sameItems_iff, sameFields_iff]

theorem sameItems_iff (vs ws : List Value) : sameItems vs ws = true ↔ vs = ws := by
  match vs, ws with
  | [], [] => simp [sameItems]
  | [], _ :: _ => simp [sameItems]
  | _ :: _, [] => simp [sameItems]
  | v :: vs, w :: ws => simp [sameItems, same_iff v w, sameItems_iff vs ws]

theorem sameFields_iff (fs gs : List (String × Value)) : sameFields fs gs = true ↔ fs = gs := by
  match fs, gs with
  | [], [] => simp [sameFields]
  | [], _ :: _ => simp [sameFields]
  | _ :: _, [] => simp [sameFields]
  | (k, v) :: fs, (l, w) :: gs => simp [sameFields, same_iff v w, sameFields_iff fs gs, and_assoc]

end

instance : DecidableEq Value := fun v w => decidable_of_iff _ (same_iff v w)

/-! ### Depth -/

theorem depthItems_le_iff {vs : List Value} {n : Nat} : depthItems vs ≤ n ↔ ∀ v ∈ vs, depth v ≤ n := by
  induction vs with
  | nil => simp [depthItems]
  | cons v vs ih => simp only [depthItems, Nat.max_le, ih, List.forall_mem_cons]

theorem depthFields_le_iff {fs : List (String × Value)} {n : Nat} :
    depthFields fs ≤ n ↔ ∀ f ∈ fs, depth f.2 ≤ n := by
  induction fs with
  | nil => simp [depthFields]
  | cons f fs ih => simp only [depthFields, Nat.max_le, ih, List.forall_mem_cons]

/-- A mapping is as deep as its deepest field, and one more. -/
theorem depth_ofFields_le_iff {fields : Fields} {n : Nat} :
    depth (ofFields fields) ≤ n + 1 ↔ ∀ key v, fields.get? key = some v → depth v ≤ n := by
  simp [ofFields, depth, depthFields_le_iff, SortedMap.get?_eq_some_iff]

/-! ### Outlines -/

mutual

/-- A value with every number replaced by zero. -/
def outline : Value → Value
  | number _ => number (.whole 0)
  | array items => array (outlineItems items)
  | object fields => object (outlineFields fields)
  | v => v

/-- The outlines of the values in a list. -/
def outlineItems : List Value → List Value
  | [] => []
  | v :: vs => outline v :: outlineItems vs

/-- The outlines of the values in a list of fields. -/
def outlineFields : List (String × Value) → List (String × Value)
  | [] => []
  | (k, v) :: fs => (k, outline v) :: outlineFields fs

end

theorem outlineFields_eq_map (fs : List (String × Value)) :
    outlineFields fs = fs.map fun f => (f.1, outline f.2) := by
  induction fs with
  | nil => rfl
  | cons f fs ih => simp [outlineFields, ih]

mutual

/-- The outline of a value is as deep as the value. -/
theorem depth_outline (v : Value) : depth (outline v) = depth v := by
  cases v <;> simp [outline, depth, depthItems_outlineItems, depthFields_outlineFields]

theorem depthItems_outlineItems (vs : List Value) : depthItems (outlineItems vs) = depthItems vs := by
  match vs with
  | [] => rfl
  | v :: vs => simp [outlineItems, depthItems, depth_outline v, depthItems_outlineItems vs]

theorem depthFields_outlineFields (fs : List (String × Value)) :
    depthFields (outlineFields fs) = depthFields fs := by
  match fs with
  | [] => rfl
  | (k, v) :: fs => simp [outlineFields, depthFields, depth_outline v, depthFields_outlineFields fs]

end

/-- Values with one outline are equally deep. -/
theorem depth_eq_of_outline_eq {v w : Value} (same : v.outline = w.outline) : v.depth = w.depth := by
  rw [← depth_outline v, same, depth_outline]

/-- What has the outline of a mapping is a mapping. -/
theorem exists_object_of_outline_eq {w : Value} {fs : List (String × Value)}
    (same : w.outline = outline (object fs)) :
    ∃ gs, w = object gs ∧ outlineFields gs = outlineFields fs := by
  cases w <;> simp_all [outline]

end RecordTree.Value
