/-
# Lib.Monitor -- threads that sleep until there is something to take

Consumers sleep on a condition variable until there is something to take; a producer adds to it
and notifies one of them.  A notification may be made under the lock of its addition or behind
it, so that other threads come in between, and a sleeper may be roused for no reason.  Who
closes the monitor announces it to all that sleep.

Only the numbers count, and every operation is a function of them.

* `Heard` says that nobody sleeps through anything: behind every sleeper there are as many
  threads on their way as there is to take, and a closing that was announced leaves no sleeper;
* one lemma for each operation says that it keeps `Heard`, a consumer that finds nothing being
  the only one who may go to sleep;
* `Heard.awake` is what it is for.
-/
import Mathlib.Tactic.Common

namespace ChargerStack.Lib

set_option autoImplicit false

structure Monitor where
  /-- What there is to take. -/
  level : Nat := 0
  /-- Nobody is to wait any more. -/
  shut : Bool := false
  asleep : Nat := 0
  /-- Threads that were roused and have not had the lock since. -/
  woken : Nat := 0
  /-- Additions whose notification is still to be made. -/
  owed : Nat := 0
  /-- The closing is still to be announced. -/
  alarm : Bool := false
  deriving DecidableEq, Repr

namespace Monitor

/-- A producer adds one, and will notify behind the lock. -/
def add (m : Monitor) : Monitor := { m with level := m.level + 1, owed := m.owed + 1 }

/-- `notify_one`; without a sleeper it is lost. -/
def notify (m : Monitor) : Monitor :=
  { m with asleep := m.asleep - 1, woken := m.woken + min m.asleep 1, owed := m.owed - 1 }

/-- A sleeper is roused for no reason. -/
def rouse (m : Monitor) : Monitor := { m with asleep := m.asleep - 1, woken := m.woken + 1 }

/-- A thread that waits goes to sleep. -/
def sleep (m : Monitor) : Monitor := { m with asleep := m.asleep + 1 }

/-- One is taken. -/
def take (m : Monitor) : Monitor := { m with level := m.level - 1 }

/-- A roused thread has the lock. -/
def resume (m : Monitor) : Monitor := { m with woken := m.woken - 1 }

/-- A sleeper gives up. -/
def quit (m : Monitor) : Monitor := { m with asleep := m.asleep - 1 }

def clear (m : Monitor) : Monitor := { m with level := 0 }

def close (m : Monitor) : Monitor := { m with shut := true, alarm := true }

/-- Nobody sleeps through anything. -/
structure Heard (m : Monitor) : Prop where
  level : m.asleep ≠ 0 → m.level ≤ m.woken + m.owed
  shut : m.shut = true → m.asleep ≠ 0 → m.alarm = true

variable {m : Monitor}

theorem heard_empty (asleep : m.asleep = 0) : Heard m :=
  ⟨fun some => absurd asleep some, fun _ some => absurd asleep some⟩

theorem Heard.add (heard : Heard m) : Heard m.add where
  level some := by
    have before := heard.level some
    simp only [Monitor.add]
    omega
  shut := heard.shut

theorem Heard.notify (heard : Heard m) : Heard m.notify where
  level some := by
    simp only [Monitor.notify] at some ⊢
    have before := heard.level (by omega)
    omega
  shut closed some := by
    simp only [Monitor.notify] at some
    exact heard.shut closed (by omega)

theorem Heard.rouse (heard : Heard m) : Heard m.rouse where
  level some := by
    simp only [Monitor.rouse] at some ⊢
    have before := heard.level (by omega)
    omega
  shut closed some := by
    simp only [Monitor.rouse] at some
    exact heard.shut closed (by omega)

/-- A fresh thread finds nothing to take in a monitor that is open, and goes to sleep. -/
theorem Heard.sleep (nothing : m.level = 0) (isOpen : m.shut = false) : Heard m.sleep where
  level _ := by simp [Monitor.sleep, nothing]
  shut closed := absurd (isOpen.symm.trans closed) Bool.false_ne_true

theorem Heard.take (heard : Heard m) : Heard m.take where
  level some := by
    have before := heard.level some
    simp only [Monitor.take]
    omega
  shut := heard.shut

/-- A roused thread takes what there is. -/
theorem Heard.resume_take (heard : Heard m) : Heard m.resume.take where
  level some := by
    have before := heard.level some
    simp only [Monitor.take, Monitor.resume]
    omega
  shut := heard.shut

/-- A roused thread that finds nothing, or a monitor whose closing all have heard of, leaves. -/
theorem Heard.resume (heard : Heard m)
    (nothing : m.level = 0 ∨ m.shut = true ∧ m.alarm = false) : Heard m.resume where
  level some := by
    rcases nothing with none | ⟨closed, announced⟩
    · simp [Monitor.resume, none]
    · exact absurd (announced.symm.trans (heard.shut closed some)) Bool.false_ne_true
  shut := heard.shut

theorem Heard.quit (heard : Heard m) : Heard m.quit where
  level some := by
    simp only [Monitor.quit] at some ⊢
    exact heard.level (by omega)
  shut closed some := by
    simp only [Monitor.quit] at some
    exact heard.shut closed (by omega)

theorem Heard.clear (heard : Heard m) : Heard m.clear where
  level _ := Nat.zero_le _
  shut := heard.shut

theorem Heard.close (heard : Heard m) : Heard m.close where
  level := heard.level
  shut _ _ := rfl

/-- **Nobody sleeps through anything.**  When there is something to take and no roused thread
and no notification is on its way, nobody sleeps; and nobody sleeps in a monitor whose closing
was announced. -/
theorem Heard.awake (heard : Heard m)
    (due : m.level ≠ 0 ∧ m.woken = 0 ∧ m.owed = 0 ∨ m.shut = true ∧ m.alarm = false) :
    m.asleep = 0 := by
  by_contra some
  rcases due with ⟨level, woken, owed⟩ | ⟨closed, announced⟩
  · have bound := heard.level some
    omega
  · exact absurd (announced.symm.trans (heard.shut closed some)) Bool.false_ne_true

end Monitor

end ChargerStack.Lib
