import Mathlib

/-!
# States reached by guarded events

A deterministic system with events, whose runs are restricted to events that meet a condition on the
state they happen in.
-/

namespace SdkNrf

variable {σ ε : Type}

/-- The states reached from `init` by events that meet `guard` where they happen. -/
inductive Reached (step : σ → ε → σ) (guard : σ → ε → Prop) (init : σ) : σ → Prop
  | start : Reached step guard init init
  | next {s : σ} (hs : Reached step guard init s) (e : ε) (hguard : guard s e) :
      Reached step guard init (step s e)

namespace Reached

variable {step : σ → ε → σ} {guard : σ → ε → Prop} {init s : σ}

/-- The rule of invariants. -/
theorem invariant {inv : σ → Prop} (hinit : inv init)
    (hstep : ∀ s e, inv s → guard s e → inv (step s e)) (hs : Reached step guard init s) :
    inv s := by
  induction hs with
  | start => exact hinit
  | next _ e hguard ih => exact hstep _ e ih hguard

def Guarded (step : σ → ε → σ) (guard : σ → ε → Prop) : σ → List ε → Prop
  | _, [] => True
  | s, e :: es => guard s e ∧ Guarded step guard (step s e) es

instance (step : σ → ε → σ) (guard : σ → ε → Prop) [∀ s e, Decidable (guard s e)] (s : σ)
    (es : List ε) : Decidable (Guarded step guard s es) := by
  induction es generalizing s with
  | nil => exact inferInstanceAs (Decidable True)
  | cons e es ih => exact inferInstanceAs (Decidable (_ ∧ _))

theorem run (hs : Reached step guard init s) {es : List ε} (hes : Guarded step guard s es) :
    Reached step guard init (es.foldl step s) := by
  induction es generalizing s with
  | nil => exact hs
  | cons e es ih => exact ih (hs.next e hes.1) hes.2

end Reached

end SdkNrf
