/-
# Ocpp.Queue -- the bounded queue of common/Queue.h

Every member function is one critical section on `m_mutex`, so a call is one function of the
contents; `pop` waits, and is split into the predicate it waits for and what it does once that
holds.  Nothing calls `setEnable` or `clear`.

* `ready_of_items`: a `pop` on an enabled queue that holds an item does not wait;
* `push_items`, `take_items`: the queue hands out what was pushed, in the order it came.
-/
import ChargerStack.Cxx.Basic

namespace ChargerStack.Ocpp

set_option autoImplicit false

universe u

/-- `common::Queue<ItemType, MAX_SIZE>`. -/
structure Queue (ItemType : Type u) (maxSize : Nat) where
  items : List ItemType := []
  enabled : Bool := true
  deriving DecidableEq, Repr

namespace Queue

variable {ItemType : Type u} {maxSize : Nat}

def empty (q : Queue ItemType maxSize) : Bool := q.items.isEmpty

/-- `push`: what it returns, and the queue behind it. -/
def push (q : Queue ItemType maxSize) (item : ItemType) : Bool × Queue ItemType maxSize :=
  if maxSize > q.items.length then (true, { q with items := q.items ++ [item] }) else (false, q)

/-- `!m_enabled || !m_queue.empty()`, which `pop` waits for. -/
def ready (q : Queue ItemType maxSize) : Bool := !q.enabled || !q.items.isEmpty

/-- `pop` behind its wait, the predicate being true: the item moved out, if there is one. -/
def take (q : Queue ItemType maxSize) : Option ItemType × Queue ItemType maxSize :=
  if q.enabled then (q.items.head?, { q with items := q.items.tail }) else (none, q)

variable {q : Queue ItemType maxSize} {item : ItemType} {rest : List ItemType}

@[simp] theorem push_enabled : (q.push item).2.enabled = q.enabled := by
  unfold push
  split <;> rfl

/-- A push that returns true appends its item, and one that returns false does nothing. -/
theorem push_items :
    (q.push item).2.items = q.items ++ if (q.push item).1 then [item] else [] := by
  unfold push
  split <;> simp

theorem empty_iff : q.empty = true ↔ q.items = [] := List.isEmpty_iff

theorem ready_of_items (holds : q.items ≠ []) : q.ready = true := by
  simp [ready, holds]

/-- The item that came first is the one taken. -/
theorem take_items (enabled : q.enabled = true) (items : q.items = item :: rest) :
    q.take = (some item, { q with items := rest }) := by
  simp [take, enabled, items]

end Queue

end ChargerStack.Ocpp
