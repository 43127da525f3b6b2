import Mathlib

/-!
# Successful runs of fallible computations

A computation in `Except` that returns a value has run every one of its steps successfully.
-/

namespace SdkNrf

variable {ε α β : Type}

@[simp] theorem bind_eq_ok {x : Except ε α} {f : α → Except ε β} {b : β} :
    (x >>= f) = .ok b ↔ ∃ a, x = .ok a ∧ f a = .ok b := by
  cases x <;> simp [bind, Except.bind]

theorem bind_eq_error {x : Except ε α} {f : α → Except ε β} {e : ε} :
    (x >>= f) = .error e ↔ x = .error e ∨ ∃ a, x = .ok a ∧ f a = .error e := by
  cases x <;> simp [bind, Except.bind]

@[simp] theorem pure_eq_ok {a b : α} : (pure a : Except ε α) = .ok b ↔ a = b := by
  simp [pure, Except.pure]

@[simp] theorem throw_ne_ok {e : ε} {b : α} : (throw e : Except ε α) ≠ .ok b := by
  simp [throw, throwThe, MonadExceptOf.throw]

theorem foldlM_eq_error {f : β → α → Except ε β} {l : List α} {b : β} {e : ε}
    (h : l.foldlM f b = .error e) : ∃ b' a, f b' a = .error e := by
  induction l generalizing b with
  | nil => cases h
  | cons a l ih =>
    rw [List.foldlM_cons] at h
    rcases bind_eq_error.mp h with h | ⟨b', -, h⟩
    · exact ⟨b, a, h⟩
    · exact ih h

def returnsWith (x : Except ε α) (check : α → Bool) : Bool :=
  match x with
  | .ok a => check a
  | .error _ => false

theorem exists_of_returnsWith {x : Except ε α} (check : α → Bool) (h : returnsWith x check = true) :
    ∃ a, x = .ok a ∧ check a = true := by
  cases x with
  | error e => cases h
  | ok a => exact ⟨a, rfl, h⟩

end SdkNrf
