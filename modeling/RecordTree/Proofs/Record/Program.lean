import RecordTree.Record.Program
import Mathlib.Tactic.Common

/-!
# Laws of programs

Programs over a store form a lawful monad, and to run a program that goes on with another one is to run the
one and then the other (`runOn_bind`).
-/

namespace RecordTree.Program

variable {α β γ σ : Type}

/-! ### The monad -/

@[simp] theorem pure_eq (a : α) : (pure a : Program α) = done (.ok a) := rfl

@[simp] theorem bind_eq (p : Program α) (f : α → Program β) : p >>= f = p.bind f := rfl

@[simp] theorem ofExcept_eq (x : Except RecordError α) : ofExcept x = done x := rfl

@[simp] theorem done_ok_bind (a : α) (f : α → Program β) : (done (.ok a)).bind f = f a := rfl

@[simp] theorem done_error_bind (e : RecordError) (f : α → Program β) :
    (done (.error e)).bind f = done (.error e) := rfl

@[simp] theorem call_bind (r : Request) (next : Outcome r.Answer → Program α) (f : α → Program β) :
    (call r next).bind f = call r fun o => (next o).bind f := rfl

theorem bind_done_ok (p : Program α) : (p.bind fun a => done (.ok a)) = p := by
  induction p with
  | done x => cases x <;> rfl
  | call r next ih => simp [ih]

theorem bind_assoc (p : Program α) (f : α → Program β) (g : β → Program γ) :
    (p.bind f).bind g = p.bind fun a => (f a).bind g := by
  induction p with
  | done x => cases x <;> rfl
  | call r next ih => simp [ih]

instance : LawfulMonad Program :=
  LawfulMonad.mk' Program bind_done_ok (fun _ _ => rfl) bind_assoc

/-! ### Running -/

theorem runOn_done (store : FileStore σ) (x : Except RecordError α) (s : σ) :
    (done x).runOn store s = (x, s) := rfl

theorem runOn_call (store : FileStore σ) (r : Request) (next : Outcome r.Answer → Program α) (s : σ) :
    (call r next).runOn store s = (next (.answered (store r s).1)).runOn store (store r s).2 := rfl

/-- A program that goes on with another one runs into the state that the other one starts from. -/
theorem runOn_bind (store : FileStore σ) (p : Program α) (f : α → Program β) (s : σ) :
    (p.bind f).runOn store s =
      match p.runOn store s with
      | (.ok a, s') => (f a).runOn store s'
      | (.error e, s') => (.error e, s') := by
  induction p generalizing s with
  | done x => cases x <;> rfl
  | call r next ih => exact ih _ _

end RecordTree.Program
