import Mathlib

/-!
# Systems with a contract

A system whose steps may fail, in an environment that keeps a contract: every event it sends is allowed in the
state the system is in.
-/

namespace SdkNrf

variable {σ ε : Type*}

/-- The states that are reached by allowed events, all of which succeed. -/
inductive Reaches (step : σ → ε → Option σ) (allowed : σ → ε → Prop) (init : σ) : σ → Prop
  | start : Reaches step allowed init init
  | next {s s' : σ} (hs : Reaches step allowed init s) (e : ε) (hallowed : allowed s e)
      (hstep : step s e = some s') : Reaches step allowed init s'

namespace Reaches

variable {step : σ → ε → Option σ} {allowed allowed' : σ → ε → Prop} {init s : σ} {inv : σ → Prop}

/-- The rule of invariants. -/
theorem invariant (hinit : inv init)
    (hstep : ∀ s e, inv s → allowed s e → ∃ s', step s e = some s' ∧ inv s')
    (hs : Reaches step allowed init s) : inv s := by
  induction hs with
  | start => exact hinit
  | next _ e hallowed hrun ih =>
    obtain ⟨s', hs', hinv⟩ := hstep _ e ih hallowed
    rw [hs', Option.some.injEq] at hrun
    exact hrun ▸ hinv

end Reaches

end SdkNrf
