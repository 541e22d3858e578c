/-
# Lib.Slots -- lists in which one place changes

A list of workers, each at its place.  When one of them goes from `x` to `y`, what all of them
hold loses what `x` held and gains what `y` holds, and so does every sum over them.
-/
import Mathlib.Algebra.GroupWithZero.Nat
import Mathlib.Data.List.Count
import Mathlib.Data.List.Perm.Basic

namespace ChargerStack.Lib

set_option autoImplicit false

universe u v

variable {α : Type u} {β : Type v} {x y : α}

theorem flatMap_set_perm {f : α → List β} : ∀ {xs : List α} {i : Nat}, xs[i]? = some x →
    (f x ++ (xs.set i y).flatMap f).Perm (f y ++ xs.flatMap f)
  | [], i, at_ => by simp at at_
  | u :: xs, 0, at_ => by
      obtain rfl : u = x := by simpa using at_
      exact List.perm_append_comm_assoc ..
  | u :: xs, i + 1, at_ => by
      have later : xs[i]? = some x := by simpa using at_
      have rest := flatMap_set_perm (f := f) later
      calc f x ++ (f u ++ (xs.set i y).flatMap f)
          |>.Perm (f u ++ (f x ++ (xs.set i y).flatMap f)) := List.perm_append_comm_assoc ..
        _ |>.Perm (f u ++ (f y ++ xs.flatMap f)) := rest.append_left _
        _ |>.Perm (f y ++ (f u ++ xs.flatMap f)) := List.perm_append_comm_assoc ..

theorem sum_set_add {f : α → Nat} : ∀ {xs : List α} {i : Nat}, xs[i]? = some x →
    ((xs.set i y).map f).sum + f x = (xs.map f).sum + f y
  | [], i, at_ => by simp at at_
  | u :: xs, 0, at_ => by
      obtain rfl : u = x := by simpa using at_
      simp only [List.set_cons_zero, List.map_cons, List.sum_cons]
      omega
  | u :: xs, i + 1, at_ => by
      have later : xs[i]? = some x := by simpa using at_
      have rest := sum_set_add (f := f) later
      simp only [List.set_cons_succ, List.map_cons, List.sum_cons]
      omega

theorem countP_set_of_at {p : α → Bool} {xs : List α} {i : Nat} (at_ : xs[i]? = some x) :
    (xs.set i y).countP p = xs.countP p - (p x).toNat + (p y).toNat := by
  obtain ⟨inside, rfl⟩ := List.getElem?_eq_some_iff.1 at_
  have counted : ∀ b : Bool, b.toNat = if b then 1 else 0 := fun b => by cases b <;> rfl
  rw [List.countP_set inside, counted, counted]

/-- What holds of all of them and of the new one holds behind the change. -/
theorem forall_set {P : α → Prop} {xs : List α} {i : Nat} (all : ∀ x ∈ xs, P x) (new : P y) :
    ∀ x ∈ xs.set i y, P x := by
  intro x inside
  rcases List.mem_or_eq_of_mem_set inside with old | rfl
  · exact all x old
  · exact new

end ChargerStack.Lib
