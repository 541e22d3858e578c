/-
# Lib.RwLock -- what one caller does to its read-write locks

A caller locks for reading, locks for writing and unlocks, by hand, and a trace is the list of
these in order.  `Hold` is what the caller has of one lock.

* `Disciplined`: the caller releases only what it holds, and asks for nothing that it holds for
  writing already;
* `Clean`: besides, nothing is held at the end;
* `Clean.append`: one clean trace after another is clean, and the critical sections `reads` and
  `writes` are;
* `not_disciplined_unlock`: one release more than that is not.
-/
import Mathlib.Data.List.Basic
import Mathlib.Logic.Function.Basic

namespace ChargerStack.Lib

set_option autoImplicit false

/-- An operation on a read-write lock. -/
inductive LockAct where
  | rdlock
  | wrlock
  | unlock
  deriving DecidableEq, Repr

/-- What a caller has of a lock; a reader may have locked it again. -/
inductive Hold where
  | free
  | reading (again : Nat)
  | writing
  deriving DecidableEq, Repr

/-- What an operation leaves.  One that is refused, or waits for its own caller, leaves what was
there. -/
def Hold.after : Hold → LockAct → Hold
  | .free, .rdlock => .reading 0
  | .free, .wrlock => .writing
  | .reading again, .rdlock => .reading (again + 1)
  | .reading (again + 1), .unlock => .reading again
  | .reading 0, .unlock => .free
  | .writing, .unlock => .free
  | hold, _ => hold

/-- The operation is one that a caller with this hold may do. -/
def Hold.Allows (hold : Hold) : LockAct → Prop
  | .unlock => hold ≠ .free
  | _ => hold ≠ .writing

instance (hold : Hold) (act : LockAct) : Decidable (hold.Allows act) :=
  match act with
  | .unlock => inferInstanceAs (Decidable (hold ≠ .free))
  | .rdlock => inferInstanceAs (Decidable (hold ≠ .writing))
  | .wrlock => inferInstanceAs (Decidable (hold ≠ .writing))

universe u

variable {K : Type u} [DecidableEq K]

/-- One operation on one of many locks. -/
def lockStep (held : K → Hold) (e : K × LockAct) : K → Hold :=
  Function.update held e.1 ((held e.1).after e.2)

/-- What the caller holds after a trace. -/
def heldAfter (held : K → Hold) (trace : List (K × LockAct)) : K → Hold :=
  trace.foldl lockStep held

/-- Every operation of the trace is allowed where it stands. -/
def Disciplined (held : K → Hold) : List (K × LockAct) → Prop
  | [] => True
  | e :: trace => (held e.1).Allows e.2 ∧ Disciplined (lockStep held e) trace

/-- Nothing is held. -/
def nothing (K : Type u) : K → Hold := fun _ => .free

/-- A disciplined trace that ends with nothing held. -/
structure Clean (held : K → Hold) (trace : List (K × LockAct)) : Prop where
  disciplined : Disciplined held trace
  settled : heldAfter held trace = nothing K

/-- The critical section of a reader. -/
def reads (k : K) : List (K × LockAct) := [(k, .rdlock), (k, .unlock)]

/-- The critical section of a writer. -/
def writes (k : K) : List (K × LockAct) := [(k, .wrlock), (k, .unlock)]

variable {held : K → Hold} {first second : List (K × LockAct)}

theorem heldAfter_append :
    heldAfter held (first ++ second) = heldAfter (heldAfter held first) second :=
  List.foldl_append

theorem disciplined_append : Disciplined held (first ++ second) ↔
    Disciplined held first ∧ Disciplined (heldAfter held first) second := by
  induction first generalizing held with
  | nil => simp [Disciplined, heldAfter]
  | cons e first ih =>
      rw [List.cons_append, Disciplined, Disciplined, ih, and_assoc]
      rfl

theorem clean_nil : Clean (nothing K) [] := ⟨trivial, rfl⟩

/-- One clean trace after another. -/
theorem Clean.append (left : Clean held first) (right : Clean (nothing K) second) :
    Clean held (first ++ second) := by
  refine ⟨disciplined_append.2 ⟨left.disciplined, ?_⟩, ?_⟩
  · rw [left.settled]
    exact right.disciplined
  · rw [heldAfter_append, left.settled, right.settled]

/-- A lock that is taken and released is as it was. -/
theorem clean_section {act : LockAct} (k : K) (allowed : Hold.free.Allows act)
    (taken : (Hold.free.after act).Allows .unlock)
    (released : (Hold.free.after act).after .unlock = .free) :
    Clean (nothing K) [(k, act), (k, .unlock)] := by
  refine ⟨⟨allowed, ?_, trivial⟩, ?_⟩
  · simpa [lockStep, nothing] using taken
  · funext j
    by_cases same : j = k
    · subst same
      simpa [heldAfter, lockStep, nothing] using released
    · simp [heldAfter, lockStep, nothing, same]

theorem clean_reads (k : K) : Clean (nothing K) (reads k) :=
  clean_section k (by decide) (by decide) rfl

theorem clean_writes (k : K) : Clean (nothing K) (writes k) :=
  clean_section k (by decide) (by decide) rfl

/-- **One release too many.** -/
theorem not_disciplined_unlock (clean : Clean held first) (k : K) :
    ¬ Disciplined held (first ++ [(k, .unlock)]) := by
  intro disciplined
  have last := (disciplined_append.1 disciplined).2
  rw [clean.settled] at last
  exact last.1 rfl

/-- It leaves everything free nevertheless. -/
theorem settled_unlock (clean : Clean held first) (k : K) :
    heldAfter held (first ++ [(k, .unlock)]) = nothing K := by
  rw [heldAfter_append, clean.settled]
  exact Function.update_eq_self k (nothing K)

end ChargerStack.Lib
