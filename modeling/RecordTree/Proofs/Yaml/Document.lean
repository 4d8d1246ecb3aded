import Mathlib.Tactic.Common
import RecordTree.Proofs.Value
import RecordTree.Yaml.Document

/-!
# How deep YAML documents are nested

What is read from a YAML text is nested no deeper than the reader allows (`depth_le_of_read?`), also where
aliases unfold.
-/

namespace RecordTree.Yaml

namespace Document

/-! ### Readings -/

/-- Whether all that a reading can give has a property. -/
def Yields {α : Type} (r : Read α) (P : α → Prop) : Prop :=
  ∀ followed a followed', r.run followed = some (a, followed') → P a

section Yields

variable {α β : Type} {P : α → Prop} {Q : β → Prop}

theorem Yields.pure {a : α} (h : P a) : Yields (pure a) P := by
  intro followed b followed' ran
  cases ran
  exact h

theorem Yields.failure : Yields failure P := by
  intro followed a followed' ran
  cases ran

theorem Yields.lift {x : Option α} (h : ∀ a, x = some a → P a) : Yields (StateT.lift x) P := by
  intro followed a followed' ran
  cases x with
  | none => cases ran
  | some found =>
      cases ran
      exact h a rfl

theorem Yields.bind {r : Read α} {f : α → Read β} (h : Yields r P) (h' : ∀ a, P a → Yields (f a) Q) :
    Yields (r >>= f) Q := by
  intro followed b followed' ran
  rw [StateT.run_bind] at ran
  obtain ⟨⟨a, between⟩, first, second⟩ := Option.bind_eq_some_iff.mp ran
  exact h' a (h followed a between first) between b followed' second

/-- A reading of which nothing is known. -/
theorem Yields.trivial (r : Read α) : Yields r fun _ => True := fun _ _ _ _ => True.intro

theorem Yields.mapM {f : α → Read β} (h : ∀ a, Yields (f a) Q) (as : List α) :
    Yields (as.mapM f) fun bs => ∀ b ∈ bs, Q b := by
  induction as with
  | nil => exact .pure (by simp)
  | cons a as ih =>
      rw [List.mapM_cons]
      refine .bind (h a) fun b hb => .bind ih fun bs hbs => .pure ?_
      simpa using ⟨hb, hbs⟩

theorem Yields.foldlM {f : β → α → Read β} (h : ∀ b a, Q b → Yields (f b a) Q) (as : List α) {b : β}
    (start : Q b) : Yields (as.foldlM f b) Q := by
  induction as generalizing b with
  | nil => exact .pure start
  | cons a as ih =>
      rw [List.foldlM_cons]
      exact .bind (h b a start) fun b' hb => ih hb

end Yields

/-! ### Depth -/

/-- A reading is no container. -/
theorem depth_of_value? {text : List Char} {r : Reading} {v : Value} (read : r.value? text = some v) :
    v.depth = 0 := by
  cases r <;> cases read <;> rfl

/-- Scalars are no containers. -/
theorem depth_of_scalarValue? {p : Props Nat} {style : Style} {text : List Char} {v : Value}
    (read : scalarValue? p style text = some v) : v.depth = 0 := by
  unfold scalarValue? at read
  split at read
  · cases read
  · split at read
    · split at read
      · exact depth_of_value? read
      · cases read
        rfl
    · split at read
      · cases truth : bool? text <;> rw [truth] at read <;> cases read
        rfl
      · split at read
        · obtain ⟨r, -, read⟩ := Option.bind_eq_some_iff.mp read
          exact depth_of_value? read
        · split at read
          · obtain ⟨r, -, read⟩ := Option.bind_eq_some_iff.mp read
            exact depth_of_value? read
          · split at read
            · split at read <;> cases read
              rfl
            · split at read
              · exact depth_of_value? read
              · cases read
                rfl

/-- A field that is stored makes a mapping as deep as itself, at most. -/
theorem depthFields_insert_le {fields : List (String × Value)} {n : Nat}
    (before : Value.depthFields fields ≤ n) (key : String) {v : Value} (new : v.depth ≤ n) :
    Value.depthFields (Entries.insert key v fields) ≤ n := by
  rw [Value.depthFields_le_iff] at before ⊢
  intro f mem
  rcases Entries.mem_insert mem with rfl | mem
  · exact new
  · exact before f mem

theorem yields_value (d : Document) (room : Nat) (n : Node Nat) :
    Yields (d.value room n) fun v => v.depth ≤ room := by
  induction room generalizing n with
  | zero =>
      rw [value]
      refine .bind (.trivial _) fun node _ => ?_
      cases node with
      | scalar props style text => exact .lift fun v read => by simp [depth_of_scalarValue? read]
      | _ => exact .failure
  | succ room ih =>
      rw [value]
      refine .bind (.trivial _) fun node _ => ?_
      cases node with
      | «alias» target => exact .failure
      | scalar props style text => exact .lift fun v read => by simp [depth_of_scalarValue? read]
      | sequence props items =>
          have array : Yields (do pure (Value.array (← items.mapM (value d room)))) fun v =>
              v.depth ≤ room + 1 := by
            refine .bind (.mapM ih items) fun vs bounded => .pure ?_
            simpa [Value.depth] using Value.depthItems_le_iff.mpr bounded
          simp only
          split
          · exact .bind .failure fun _ (_ : False) => by contradiction
          · exact array
      | mapping props entries =>
          have entry : ∀ fields (e : Node Nat × Node Nat), Value.depthFields fields ≤ room →
              Yields (do
                let key ← d.key e.1
                let v ← value d room e.2
                pure (Entries.insert key v fields)) fun fields => Value.depthFields fields ≤ room :=
            fun fields e before => .bind (.trivial _) fun key _ => .bind (ih e.2) fun v new =>
              .pure (depthFields_insert_le before key new)
          simp only
          split
          · exact .bind .failure fun _ (_ : False) => by contradiction
          · refine .bind (.foldlM entry entries (by simp [Value.depthFields])) fun fields bounded => .pure ?_
            simpa [Value.depth] using bounded

end Document

/-- **What is read from a text is nested no deeper than the limit.** -/
theorem depth_le_of_read? {text : String} {v : Value} (read : read? text = some v) :
    v.depth ≤ Document.nestingLimit := by
  unfold read? at read
  obtain ⟨document, -, read⟩ := Option.bind_eq_some_iff.mp read
  cases document with
  | none =>
      cases read
      exact Nat.zero_le _
  | some d =>
      obtain ⟨⟨w, followed⟩, ran, rfl⟩ := Option.map_eq_some_iff.mp read
      exact d.yields_value _ d.root 0 w followed ran

end RecordTree.Yaml
