import Mathlib.Data.Option.Basic

/-! # Computations that return, fail or crash

A crash is what dereferencing a nil pointer does: nothing after it runs, and no caller sees an error.
-/

namespace Spotter.Library

inductive Outcome (E A : Type) where
  | value (result : A)
  | error (err : E)
  | crash
deriving DecidableEq

namespace Outcome

variable {E F A B : Type} {x : Outcome E A} {f : A → Outcome E B}

/-- Go on with the result, if there is one. -/
def bind : Outcome E A → (A → Outcome E B) → Outcome E B
  | value result, f => f result
  | error err, _ => error err
  | crash, _ => crash

instance : Monad (Outcome E) where
  pure := value
  bind := bind

def mapError (g : E → F) : Outcome E A → Outcome F A
  | value result => value result
  | error err => error (g err)
  | crash => crash

/-- Follow a pointer that may be nil. -/
def deref : Option A → Outcome E A
  | some result => value result
  | none => crash

@[simp]
theorem value_bind (a : A) (f : A → Outcome E B) : (value a >>= f) = f a := rfl

@[simp]
theorem error_bind (err : E) (f : A → Outcome E B) : (error err >>= f) = error err := rfl

@[simp]
theorem crash_bind (f : A → Outcome E B) : ((crash : Outcome E A) >>= f) = crash := rfl

@[simp]
theorem pure_eq (a : A) : (pure a : Outcome E A) = value a := rfl

theorem bind_eq_crash_iff : (x >>= f) = crash ↔ x = crash ∨ ∃ a, x = value a ∧ f a = crash := by
  cases x with
  | value result => simp
  | error err => simp
  | crash => simp

end Outcome

end Spotter.Library
