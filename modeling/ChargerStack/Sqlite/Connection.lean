/-
# Sqlite.Connection -- one connection and its transactions

What a statement wrote is on the disk when it answers, unless a transaction is open: then it is
seen by the connection and comes to the disk with COMMIT, all of it at once.  A BEGIN in an open
transaction and a COMMIT or ROLLBACK without one are errors that change nothing.  Otherwise the
answer comes from outside: a statement may fail and change nothing, and on some errors SQLite
rolls the open transaction back before it answers.  Whatever is not on the disk is gone when the
process dies.

* `begin`, `commit`, `rollback`, `write`, `die`: what each does for every answer;
* `Both`: a property of the disk and of what a query finds, which every operation keeps;
* `Holds`: the disk has the effect of the statements `saved`, the connection sees that of
  `saved ++ pending`; one lemma for each operation says what becomes of the two lists.
-/
import Mathlib.Data.List.Basic

namespace ChargerStack.Sqlite

set_option autoImplicit false

universe u v

inductive Answer where
  | ok
  | failed
  /-- An error at which the open transaction was rolled back. -/
  | rolledBack
  deriving DecidableEq, Repr

/-- What is on the disk, and what the open transaction has made of it. -/
structure Connection (D : Type u) where
  disk : D
  opened : Option D
  deriving DecidableEq, Repr

namespace Connection

variable {D : Type u}

/-- What a query finds. -/
def seen (c : Connection D) : D := c.opened.getD c.disk

def begin (a : Answer) (c : Connection D) : Connection D :=
  match c.opened, a with
  | none, .ok => ⟨c.disk, some c.disk⟩
  | _, _ => c

def commit (a : Answer) (c : Connection D) : Connection D :=
  match c.opened, a with
  | some d, .ok => ⟨d, none⟩
  | some d, .failed => ⟨c.disk, some d⟩
  | some _, .rolledBack => ⟨c.disk, none⟩
  | none, _ => c

def rollback (a : Answer) (c : Connection D) : Connection D :=
  match a with
  | .failed => c
  | _ => ⟨c.disk, none⟩

def write (f : D → D) (a : Answer) (c : Connection D) : Connection D :=
  match c.opened, a with
  | some d, .ok => ⟨c.disk, some (f d)⟩
  | none, .ok => ⟨f c.disk, none⟩
  | _, .failed => c
  | _, .rolledBack => ⟨c.disk, none⟩

/-- The process dies; the next one opens the database again. -/
def die (c : Connection D) : Connection D := ⟨c.disk, none⟩

/-! ## What holds on the disk and in the transaction -/

/-- The property holds of what is on the disk, and of what a query finds. -/
def Both (P : D → Prop) (c : Connection D) : Prop := P c.disk ∧ P c.seen

section Both

variable {P : D → Prop} {c : Connection D}

theorem Both.die (both : Both P c) : Both P c.die := ⟨both.1, both.1⟩

theorem Both.begin (both : Both P c) (a : Answer) : Both P (c.begin a) := by
  obtain ⟨disk, opened⟩ := c
  cases opened with
  | some d => exact both
  | none => cases a <;> exact both

theorem Both.commit (both : Both P c) (a : Answer) : Both P (c.commit a) := by
  obtain ⟨disk, opened⟩ := c
  cases opened with
  | none => exact both
  | some d =>
      cases a with
      | ok => exact ⟨both.2, both.2⟩
      | failed => exact both
      | rolledBack => exact ⟨both.1, both.1⟩

theorem Both.rollback (both : Both P c) (a : Answer) : Both P (c.rollback a) := by
  cases a with
  | ok => exact ⟨both.1, both.1⟩
  | failed => exact both
  | rolledBack => exact ⟨both.1, both.1⟩

theorem Both.write {f : D → D} (kept : ∀ d, P d → P (f d)) (both : Both P c) (a : Answer) :
    Both P (c.write f a) := by
  obtain ⟨disk, opened⟩ := c
  cases opened with
  | none =>
      cases a with
      | ok => exact ⟨kept disk both.1, kept disk both.1⟩
      | failed => exact both
      | rolledBack => exact both
  | some d =>
      cases a with
      | ok => exact ⟨both.1, kept d both.2⟩
      | failed => exact both
      | rolledBack => exact ⟨both.1, both.1⟩

end Both

/-! ## Which statements a database has the effect of -/

variable {S : Type v} (effect : S → D → D) (start : D)

/-- The statements, in order. -/
def replay (ss : List S) : D := ss.foldl (fun d s => effect s d) start

structure Holds (saved pending : List S) (c : Connection D) : Prop where
  disk : c.disk = replay effect start saved
  seen : c.seen = replay effect start (saved ++ pending)
  /-- Without a transaction nothing is outstanding. -/
  open_ : c.opened = none → pending = []

variable {effect start} {c : Connection D} {saved pending : List S}

theorem replay_snoc (ss : List S) (s : S) :
    replay effect start (ss ++ [s]) = effect s (replay effect start ss) := by
  rw [replay, List.foldl_append]
  rfl

theorem holds_new : Holds effect start [] [] ⟨start, none⟩ := ⟨rfl, rfl, fun _ => rfl⟩

theorem Holds.die (holds : Holds effect start saved pending c) : Holds effect start saved [] c.die := by
  refine ⟨holds.disk, ?_, fun _ => rfl⟩
  rw [List.append_nil]
  exact holds.disk

theorem Holds.begin (holds : Holds effect start saved pending c) (a : Answer) :
    Holds effect start saved pending (c.begin a) := by
  obtain ⟨disk, seen, outstanding⟩ := holds
  obtain ⟨d, opened⟩ := c
  cases opened with
  | some e => exact ⟨disk, seen, outstanding⟩
  | none =>
      cases a with
      | ok => exact ⟨disk, seen, fun isNone => by cases isNone⟩
      | failed => exact ⟨disk, seen, outstanding⟩
      | rolledBack => exact ⟨disk, seen, outstanding⟩

/-- COMMIT saves all that is outstanding, leaves it so, or loses it. -/
theorem Holds.commit (holds : Holds effect start saved pending c) (a : Answer) :
    match a with
    | .ok => (c.commit a).opened = none ∧ Holds effect start (saved ++ pending) [] (c.commit a)
    | .failed => Holds effect start saved pending (c.commit a)
    | .rolledBack => (c.commit a).opened = none ∧ Holds effect start saved [] (c.commit a) := by
  obtain ⟨disk, seen, outstanding⟩ := holds
  obtain ⟨d, opened⟩ := c
  cases opened with
  | none =>
      obtain rfl := outstanding rfl
      have same : Holds effect start saved [] ⟨d, none⟩ := ⟨disk, seen, fun _ => rfl⟩
      cases a with
      | ok => exact ⟨rfl, by rwa [List.append_nil]⟩
      | failed => exact same
      | rolledBack => exact ⟨rfl, same⟩
  | some e =>
      cases a with
      | ok => exact ⟨rfl, seen, by rw [List.append_nil]; exact seen, fun _ => rfl⟩
      | failed => exact ⟨disk, seen, outstanding⟩
      | rolledBack => exact ⟨rfl, disk, by rw [List.append_nil]; exact disk, fun _ => rfl⟩

/-- A statement that succeeds is saved at once, or outstanding behind what was; one that fails
leaves what was, or loses it. -/
theorem Holds.write (holds : Holds effect start saved pending c) (s : S) (a : Answer) :
    match a with
    | .ok => (c.write (effect s) a).opened.isNone = c.opened.isNone ∧
        if c.opened.isNone then Holds effect start (saved ++ [s]) [] (c.write (effect s) a)
        else Holds effect start saved (pending ++ [s]) (c.write (effect s) a)
    | .failed => Holds effect start saved pending (c.write (effect s) a) ∧
        c.write (effect s) a = c
    | .rolledBack => Holds effect start saved [] (c.write (effect s) a) := by
  obtain ⟨disk, seen, outstanding⟩ := holds
  obtain ⟨d, opened⟩ := c
  cases opened with
  | none =>
      obtain rfl := outstanding rfl
      cases a with
      | ok =>
          have wrote : effect s d = replay effect start (saved ++ [s]) := by
            rw [replay_snoc]
            exact congrArg (effect s) disk
          exact ⟨rfl, wrote, by rw [List.append_nil]; exact wrote, fun _ => rfl⟩
      | failed => exact ⟨⟨disk, seen, outstanding⟩, rfl⟩
      | rolledBack => exact ⟨disk, seen, outstanding⟩
  | some e =>
      cases a with
      | ok =>
          refine ⟨rfl, disk, ?_, fun isNone => by cases isNone⟩
          rw [← List.append_assoc, replay_snoc]
          exact congrArg (effect s) seen
      | failed => exact ⟨⟨disk, seen, outstanding⟩, rfl⟩
      | rolledBack => exact ⟨disk, by rw [List.append_nil]; exact disk, fun _ => rfl⟩

end Connection

end ChargerStack.Sqlite
