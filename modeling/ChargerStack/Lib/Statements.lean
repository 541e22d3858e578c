/-
# Lib.Statements -- programs cut off between their statements

A program that talks to a database issues statements one after another.  Each
statement is atomic and gets an answer from outside (that it succeeded, that it
failed), and the process can die before any of them.  A `Prog` takes the list of
answers still to come: when the list is empty at the next `ask`, the process is gone,
and the state it leaves is the state at that point.

* `wp m Q C s`: from `s`, whatever is answered, `m` returns in a state that meets `Q`
  or is cut off in one that meets `C`;
* one rule for each construct, `wp_mono`, and `wp_iterate` for a loop that runs
  through a list and may leave it early.
-/
import Mathlib.Data.List.Basic

namespace ChargerStack.Lib

set_option autoImplicit false

universe u v w

/-- From a state and the answers to come: what it returned (`none`: cut off), the
state it left, and the answers it did not use. -/
def Prog (ω : Type u) (σ : Type v) (α : Type w) : Type max u v w :=
  σ → List ω → Option α × σ × List ω

namespace Prog

variable {ω : Type u} {σ : Type v} {α β : Type w}

protected def pure (a : α) : Prog ω σ α := fun s answers => (some a, s, answers)

protected def bind (m : Prog ω σ α) (f : α → Prog ω σ β) : Prog ω σ β := fun s answers =>
  match m s answers with
  | (some a, t, rest) => f a t rest
  | (none, t, rest) => (none, t, rest)

instance : Monad (Prog ω σ) where
  pure := Prog.pure
  bind := Prog.bind

/-- The next answer. -/
def ask : Prog ω σ ω := fun s answers =>
  match answers with
  | [] => (none, s, [])
  | a :: rest => (some a, s, rest)

def get : Prog ω σ σ := fun s answers => (some s, s, answers)

def set (t : σ) : Prog ω σ PUnit := fun _ answers => (some ⟨⟩, t, answers)

/-- `for (x : xs) { if (!body(x)) return false; } return true;` -/
def iterate {ι : Type u} (body : ι → Prog ω σ Bool) : List ι → Prog ω σ Bool
  | [] => pure true
  | x :: xs => do
      let more ← body x
      if more then iterate body xs else pure false

/-- Returns into `Q`, or is cut off in `C`. -/
def wp (m : Prog ω σ α) (Q : α → σ → Prop) (C : σ → Prop) (s : σ) : Prop :=
  ∀ answers, match m s answers with
    | (some a, t, _) => Q a t
    | (none, t, _) => C t

variable {Q R : α → σ → Prop} {C D : σ → Prop} {s : σ}

theorem wp_pure {a : α} : wp (pure a : Prog ω σ α) Q C s ↔ Q a s :=
  ⟨fun holds => holds [], fun holds _ => holds⟩

theorem wp_bind {m : Prog ω σ α} {f : α → Prog ω σ β} {Q : β → σ → Prop}
    (first : wp m (fun a t => wp (f a) Q C t) C s) : wp (m >>= f) Q C s := by
  intro answers
  have holds := first answers
  show match Prog.bind m f s answers with
    | (some b, t, _) => Q b t
    | (none, t, _) => C t
  unfold Prog.bind
  split at holds
  · exact holds _
  · exact holds

/-- What goes on behind a program that returned. -/
theorem bind_returned {m : Prog ω σ α} {f : α → Prog ω σ β} {a : α} {t : σ} {answers rest : List ω}
    (ran : m s answers = (some a, t, rest)) : (m >>= f) s answers = f a t rest := by
  show Prog.bind m f s answers = f a t rest
  rw [Prog.bind, ran]

theorem wp_ask {Q : ω → σ → Prop} : wp ask Q C s ↔ C s ∧ ∀ a, Q a s := by
  constructor
  · intro holds
    exact ⟨holds [], fun a => holds [a]⟩
  · rintro ⟨stopped, answered⟩ answers
    cases answers with
    | nil => exact stopped
    | cons a rest => exact answered a

theorem wp_get {Q : σ → σ → Prop} : wp (get : Prog ω σ σ) Q C s ↔ Q s s :=
  ⟨fun holds => holds [], fun holds _ => holds⟩

theorem wp_set {t : σ} {Q : PUnit → σ → Prop} : wp (set t : Prog ω σ PUnit) Q C s ↔ Q ⟨⟩ t :=
  ⟨fun holds => holds [], fun holds _ => holds⟩

theorem wp_mono {m : Prog ω σ α} (holds : wp m Q C s) (returned : ∀ a t, Q a t → R a t)
    (stopped : ∀ t, C t → D t) : wp m R D s := by
  intro answers
  have done := holds answers
  split at done
  · exact returned _ _ done
  · exact stopped _ done

/-- What holds however it ends holds of the state it leaves. -/
theorem wp_state {m : Prog ω σ α} (holds : wp m (fun _ => C) C s) (answers : List ω) :
    C (m s answers).2.1 := by
  have done := holds answers
  split at done <;> rename_i ran
  · rw [ran]
    exact done
  · rw [ran]
    exact done

/-- **The loop rule.**  `Inv` is what holds with `xs` still to come. -/
theorem wp_iterate {ι : Type u} {body : ι → Prog ω σ Bool} (Inv : List ι → σ → Prop)
    {Q : Bool → σ → Prop} {xs : List ι} (enter : Inv xs s)
    (round : ∀ x rest t, Inv (x :: rest) t →
      wp (body x) (fun more u => if more then Inv rest u else Q false u) C t)
    (leave : ∀ t, Inv [] t → Q true t) : wp (iterate body xs) Q C s := by
  induction xs generalizing s with
  | nil => exact wp_pure.2 (leave s enter)
  | cons x xs ih =>
      apply wp_bind
      refine wp_mono (round x xs s enter) (fun more t holds => ?_) fun _ stopped => stopped
      cases more with
      | true => exact ih holds
      | false => exact wp_pure.2 holds

end Prog

end ChargerStack.Lib
