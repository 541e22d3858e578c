/-
# Lib.Progress -- runs that come to an end

When every step of a kind makes a measure less, a run of such steps is no longer than the
measure says, whatever the order; and when one of them can be made in every state that is not
final, a run that cannot go on has come to a final state.

* `exec_length_le` bounds the length of a run;
* `exec_settles` adds where a run that cannot go on has come to.
-/
import ChargerStack.Lib.Run

namespace ChargerStack.Lib

set_option autoImplicit false

universe u v

variable {σ : Type u} {ℓ : Type v} {step : σ → ℓ → Option σ} {C : σ → ℓ → Prop}
  {Inv Done : σ → Prop} {μ : σ → Nat}

/-- A run of steps that each make `μ` less is at most `μ` long. -/
theorem exec_length_le (kept : ∀ s l t, C s l → Inv s → step s l = some t → Inv t)
    (less : ∀ s l t, C s l → Inv s → step s l = some t → μ t < μ s) {s t : σ} {ls : List ℓ}
    (along : Along step C s ls) (inv : Inv s) (ran : exec step s ls = some t) :
    ls.length + μ t ≤ μ s := by
  induction ls generalizing s with
  | nil =>
      simp only [exec_nil, Option.some.injEq] at ran
      subst ran
      simp
  | cons l ls ih =>
      obtain ⟨m, moved, ran⟩ := exec_cons.1 ran
      have shorter := less s l m along.1 inv moved
      have rest := ih (along.2 m moved) (kept s l m along.1 inv moved) ran
      simp only [List.length_cons]
      omega

/-- **What settles.**  A run of such steps is bounded, and when none of them can be made any
more the state is final. -/
theorem exec_settles (kept : ∀ s l t, C s l → Inv s → step s l = some t → Inv t)
    (less : ∀ s l t, C s l → Inv s → step s l = some t → μ t < μ s)
    (goes : ∀ s, Inv s → ¬ Done s → ∃ l t, C s l ∧ step s l = some t) {s t : σ} {ls : List ℓ}
    (along : Along step C s ls) (inv : Inv s) (ran : exec step s ls = some t) :
    ls.length ≤ μ s ∧ ((∀ l, C t l → step t l = none) → Done t) := by
  constructor
  · have bound := exec_length_le kept less along inv ran
    omega
  · intro stuck
    by_contra unfinished
    obtain ⟨l, u, meets, moved⟩ := goes t (exec_invariant_along kept along inv ran) unfinished
    rw [stuck l meets] at moved
    cases moved

end ChargerStack.Lib
