/-
# Ocpp.TimerPoolThreads -- the timer pool between threads

Two places where the pool is not one critical section.

* `stopAllTimers` copies the list of active timers, stops the timers of the copy one by
  one, and then clears the list, each under the mutex and with anything between them.
  `stopAll_listed_iff`: the timers in the list are the ones that are started, all along a
  run, if and only if there is nothing left in the list whenever it is cleared;
  `stopAll_loses_a_timer` starts a timer in between.
* `lock` and `unlock` do nothing on the pool's own thread, which holds the mutex already
  while it serves a timeout, but has released it while the timer's callback runs.
  `exclusive_iff`: whoever is inside holds the mutex, all along a run, if and only if no
  callback starts, restarts or stops a timer; `callback_races` has two threads inside.
-/
import ChargerStack.Ocpp.TimerPool

namespace ChargerStack.Ocpp.TimerPool

open ChargerStack.Lib

set_option autoImplicit false

/-! ## Stopping all timers -/

namespace StopAll

/-- The last section of `stopAllTimers`. -/
def clear (now : Int) (p : Pool) : Pool :=
  { { p with activeTimers := [] }.computeNextWakeupTimepoint now with updateWakeupTime := true }

/-- The pool, and for every call of `stopAllTimers` that is under way the timers of its copy
that are still to be stopped. -/
structure State where
  system : System
  copy : Nat → Option (List TimerId)

inductive Move where
  /-- Any other step of the pool, of any thread. -/
  | other (l : Label)
  /-- The call `i` copies the list. -/
  | copyList (i : Nat)
  /-- It stops the next timer of its copy. -/
  | stopNext (i : Nat)
  /-- It clears the list and returns. -/
  | clearList (i : Nat) (now : Int)
  deriving DecidableEq, Repr

def step (s : State) : Move → Option State
  | .other l => (TimerPool.step s.system l).map fun t => { s with system := t }
  | .copyList i =>
      if s.copy i = none then
        some { s with copy := Function.update s.copy i (some s.system.pool.activeTimers) }
      else none
  | .stopNext i =>
      match s.copy i with
      | some (t :: rest) =>
          some ⟨{ s.system with pool := (s.system.pool.stopTimer t).1 },
            Function.update s.copy i (some rest)⟩
      | _ => none
  | .clearList i now =>
      if s.copy i = some [] ∧ s.system.clock ≤ now then
        some ⟨⟨clear now s.system.pool, now⟩, Function.update s.copy i none⟩
      else none

def init (created : Int) : State := ⟨TimerPool.init created, fun _ => none⟩

/-- The timers in the list are the ones that are started. -/
def ListsStarted (s : State) : Prop :=
  ∀ t, t ∈ s.system.pool.activeTimers ↔ (s.system.pool.timer t).started = true

/-- There is nothing left to clear. -/
def ClearsNothing (s : State) : Move → Prop
  | .clearList _ _ => s.system.pool.activeTimers = []
  | _ => True

theorem clear_spec (now : Int) (p : Pool) : (clear now p).timer = p.timer ∧
    (clear now p).activeTimers = [] ∧ (clear now p).updateWakeupTime = true := ⟨rfl, rfl, rfl⟩

theorem step_clear {s t : State} {i : Nat} {now : Int} (moved : step s (.clearList i now) = some t) :
    t.system.pool = clear now s.system.pool := by
  obtain ⟨-, same⟩ := Option.ite_none_right_eq_some.1 moved
  obtain rfl := Option.some.inj same
  rfl

theorem step_inv {s t : State} {m : Move} (empty : ClearsNothing s m) (inv : PoolInv s.system.pool)
    (moved : step s m = some t) : PoolInv t.system.pool := by
  cases m with
  | other l =>
      obtain ⟨u, stepped, rfl⟩ := Option.map_eq_some_iff.1 moved
      exact TimerPool.step_inv inv stepped
  | copyList i =>
      obtain ⟨-, same⟩ := Option.ite_none_right_eq_some.1 moved
      obtain rfl := Option.some.inj same
      exact inv
  | stopNext i =>
      simp only [step] at moved
      split at moved
      · obtain rfl := Option.some.inj moved
        exact inv.stopTimer
      · cases moved
  | clearList i now =>
      rw [step_clear moved]
      obtain ⟨timer, active, flag⟩ := clear_spec now s.system.pool
      refine ⟨fun t => ?_, fun unset => ?_⟩
      · rw [active, timer, ← inv.listed t, empty]
      · rw [flag] at unset
        cases unset

/-- Clearing a list that is not empty loses its timers. -/
theorem clears_nothing_of_listed {s t : State} {m : Move} (inv : PoolInv s.system.pool)
    (moved : step s m = some t) (listed : ListsStarted t) : ClearsNothing s m := by
  cases m with
  | other l => trivial
  | copyList i => trivial
  | stopNext i => trivial
  | clearList i now =>
      obtain ⟨timer, active, -⟩ := clear_spec now s.system.pool
      rw [← step_clear moved] at timer active
      refine List.eq_nil_iff_forall_not_mem.2 fun u inside => ?_
      have started := (inv.listed.mem_iff u).1 inside
      rw [← timer] at started
      have kept := (listed u).2 started
      rw [active] at kept
      cases kept

/-- **All timers stopped, while others go on.**  In every state the timers in the list are the
ones that are started, if and only if no clearing finds a timer in the list. -/
theorem stopAll_listed_iff (created : Int) (ms : List Move) (s : State)
    (ran : exec step (init created) ms = some s) :
    Always step ListsStarted (init created) ms ↔ Along step ClearsNothing (init created) ms := by
  have kept : ∀ (s : State) (m : Move) (t : State), ClearsNothing s m → PoolInv s.system.pool →
      step s m = some t → PoolInv t.system.pool := fun _ _ _ => step_inv
  have start : PoolInv (init created).system.pool := newPool_inv created
  refine always_iff_along (fun s inv => inv.listed.mem_iff) kept ?_ start ran
  exact fun s m t inv moved listed => clears_nothing_of_listed inv moved listed

/-- One timer is stopped, none is started in between. -/
def stopOne : List Move :=
  [.other (.start 1 1000 false false 0), .copyList 0, .stopNext 0, .clearList 0 5]

theorem stopOne_listed : Always step ListsStarted (init 0) stopOne := by
  refine (stopAll_listed_iff 0 stopOne _ rfl).2 ?_
  exact along_cons rfl trivial (along_cons rfl trivial (along_cons rfl trivial
    (along_cons rfl rfl trivial)))

/-- A timer started between the copy and the clearing is started, is not in the list, and
cannot be started again. -/
theorem stopAll_loses_a_timer : ∃ s,
    exec step (init 0) [.copyList 0, .other (.start 1 1000 false false 0), .clearList 0 5] = some s ∧
      ¬ ListsStarted s ∧ (s.system.pool.start 6 1 1000 false false).2 = false := by
  refine ⟨_, rfl, fun listed => ?_, rfl⟩
  have kept := (listed 1).2 rfl
  cases kept

end StopAll

/-! ## Who is inside -/

namespace Locking

inductive Thread where
  | pool
  | user (i : Nat)
  deriving DecidableEq, Repr

/-- Where the pool's thread is in `threadLoop`. -/
inductive LoopAt where
  /-- At the top of the loop, without the mutex. -/
  | top
  /-- In the wait, with the mutex. -/
  | entered
  /-- Asleep in the wait, which has released the mutex. -/
  | waiting
  /-- At the end of the loop's body, with the mutex. -/
  | leaving
  /-- A timeout has been served; the mutex is still held. -/
  | fired
  /-- In the callback, without the mutex. -/
  | callback
  /-- In the callback, between `lock` and `unlock` of a call on some timer. -/
  | inCallback
  deriving DecidableEq, Repr

/-- A call on a timer, without its `lock` and `unlock`. -/
inductive Call where
  | start (t : TimerId) (interval : Int) (singleShot immediately : Bool)
  | restart (t : TimerId) (interval : Int) (singleShot immediately : Bool)
  | stop (t : TimerId)
  deriving DecidableEq, Repr

def Call.body (c : Call) (now : Int) (p : Pool) : Pool :=
  match c with
  | .start t interval singleShot immediately => (p.start now t interval singleShot immediately).1
  | .restart t interval singleShot immediately =>
      (p.restart now t interval singleShot immediately).1
  | .stop t => (p.stopTimer t).1

structure State where
  pool : Pool
  /-- Who holds `m_wakeup_mutex`. -/
  mutex : Option Thread
  loop : LoopAt
  /-- The users between `lock` and `unlock`. -/
  inside : Nat → Bool

/-- `m_wakeup_mutex.lock()`, once the mutex is free. -/
def acquire (caller : Thread) (s : State) : Option State :=
  if s.mutex = none then some { s with mutex := some caller } else none

/-- `m_wakeup_mutex.unlock()`. -/
def release (s : State) : State := { s with mutex := none }

/-- `TimerPool::lock`. -/
def lock (caller : Thread) (s : State) : Option State :=
  if caller ≠ .pool then acquire caller s else some s

/-- `TimerPool::unlock`. -/
def unlock (caller : Thread) (s : State) : State :=
  if caller ≠ .pool then release s else s

inductive Move where
  /-- `lock`, the body and `unlock` of a call of the user `i`. -/
  | userLock (i : Nat)
  | userBody (i : Nat) (c : Call) (now : Int)
  | userUnlock (i : Nat)
  /-- The constructor of the `unique_lock`. -/
  | enter
  /-- The wait releases the mutex, and takes it again. -/
  | wait
  | wake
  | update (now : Int)
  | timeout (now : Int)
  /-- The destructor of the `unique_lock`. -/
  | leave
  /-- `lock.unlock()`, and the callback begins. -/
  | callBack
  /-- The callback calls a timer. -/
  | callbackLock
  | callbackBody (c : Call) (now : Int)
  | callbackUnlock
  /-- The callback has returned; `lock.lock()`. -/
  | relock
  deriving DecidableEq, Repr

def goto (place : LoopAt) (s : State) : State := { s with loop := place }

def step (s : State) : Move → Option State
  | .userLock i =>
      if s.inside i = false then
        (lock (.user i) s).map fun t => { t with inside := Function.update t.inside i true }
      else none
  | .userBody i c now =>
      if s.inside i = true then some { s with pool := c.body now s.pool } else none
  | .userUnlock i =>
      if s.inside i = true then
        some (unlock (.user i) { s with inside := Function.update s.inside i false })
      else none
  | .enter =>
      if s.loop = .top ∧ s.pool.stop = false then (acquire .pool s).map (goto .entered) else none
  | .wait =>
      if s.loop = .entered ∧ s.pool.awaited = false then some (goto .waiting (release s)) else none
  | .wake => if s.loop = .waiting then (acquire .pool s).map (goto .entered) else none
  | .update now =>
      if s.loop = .entered ∧ s.pool.awaited then
        some (goto .leaving { s with pool := s.pool.threadUpdate now })
      else none
  | .timeout now =>
      if s.loop = .entered ∧ s.pool.awaited = false ∧ s.pool.wakeUpTimePoint ≤ now then
        (s.pool.threadTimeout now).map fun r => goto .fired { s with pool := r.1 }
      else none
  | .leave => if s.loop = .leaving then some (goto .top (release s)) else none
  | .callBack => if s.loop = .fired then some (goto .callback (release s)) else none
  | .callbackLock => if s.loop = .callback then (lock .pool s).map (goto .inCallback) else none
  | .callbackBody c now =>
      if s.loop = .inCallback then some { s with pool := c.body now s.pool } else none
  | .callbackUnlock =>
      if s.loop = .inCallback then some (goto .callback (unlock .pool s)) else none
  | .relock => if s.loop = .callback then (acquire .pool s).map (goto .leaving) else none

def init (created : Int) : State := ⟨newPool created, none, .top, fun _ => false⟩

/-- The thread is inside a critical section on the pool's list. -/
def InCritical (s : State) : Thread → Prop
  | .user i => s.inside i = true
  | .pool => s.loop = .entered ∨ s.loop = .leaving ∨ s.loop = .fired ∨ s.loop = .inCallback

/-- Whoever is inside holds the mutex, and so is alone. -/
structure Exclusive (s : State) : Prop where
  holds : ∀ a, InCritical s a → s.mutex = some a
  alone : ∀ a b, InCritical s a → InCritical s b → a = b

/-- The mutex is held by whoever is inside, and no callback is. -/
structure Inv (s : State) : Prop where
  mutex : ∀ a, s.mutex = some a ↔ InCritical s a
  callback : s.loop ≠ .inCallback

/-- The callback calls no timer. -/
def NotFromCallback (_ : State) (m : Move) : Prop := m ≠ .callbackLock

theorem Inv.exclusive {s : State} (inv : Inv s) : Exclusive s where
  holds a inside := (inv.mutex a).2 inside
  alone a b insideA insideB :=
    Option.some.inj (((inv.mutex a).2 insideA).symm.trans ((inv.mutex b).2 insideB))

/-- While the mutex is free nobody is inside. -/
theorem Inv.nobody {s : State} (inv : Inv s) (free : s.mutex = none) (a : Thread) :
    ¬ InCritical s a := by
  rw [← inv.mutex, free]
  simp

/-- The pool's thread takes the mutex and goes where it needs it. -/
theorem Inv.take {s t : State} (inv : Inv s) {place : LoopAt}
    (needs : place = .entered ∨ place = .leaving)
    (taken : (acquire .pool s).map (goto place) = some t) : Inv t := by
  obtain ⟨u, acquired, rfl⟩ := Option.map_eq_some_iff.1 taken
  obtain ⟨free, same⟩ := Option.ite_none_right_eq_some.1 acquired
  obtain rfl := Option.some.inj same
  refine ⟨fun a => ?_, ?_⟩
  · cases a with
    | pool =>
        refine iff_of_true rfl ?_
        rcases needs with rfl | rfl
        · exact .inl rfl
        · exact .inr (.inl rfl)
    | user i => exact iff_of_false (by simp [goto]) (inv.nobody free (.user i))
  · rcases needs with rfl | rfl
    · exact fun same => by cases same
    · exact fun same => by cases same

/-- It gives the mutex back and goes where it does not need it. -/
theorem Inv.give {s : State} (inv : Inv s) (inside : InCritical s .pool) {place : LoopAt}
    (free : place = .top ∨ place = .waiting ∨ place = .callback) : Inv (goto place (release s)) := by
  have held := (inv.mutex .pool).2 inside
  refine ⟨fun a => iff_of_false (by simp [goto, release]) ?_, ?_⟩
  · cases a with
    | pool => rcases free with rfl | rfl | rfl <;> simp [InCritical, goto, release]
    | user i =>
        intro other
        have both : s.mutex = some (.user i) := (inv.mutex (.user i)).2 other
        rw [held] at both
        cases both
  · rcases free with rfl | rfl | rfl <;> simp [goto, release]

/-- It stays inside. -/
theorem Inv.stay {s t : State} (inv : Inv s) (inside : InCritical s .pool)
    (mutex : t.mutex = s.mutex) (users : t.inside = s.inside)
    (place : t.loop = .leaving ∨ t.loop = .fired) : Inv t := by
  refine ⟨fun a => ?_, ?_⟩
  · rw [mutex, inv.mutex a]
    cases a with
    | pool => exact iff_of_true inside (by rcases place with at_ | at_ <;> simp [InCritical, at_])
    | user i => rw [InCritical, InCritical, users]
  · rcases place with at_ | at_ <;> simp [at_]

theorem Inv.userLock {s t : State} {i : Nat} (inv : Inv s)
    (locked : (lock (.user i) s).map (fun t =>
      { t with inside := Function.update t.inside i true }) = some t) : Inv t := by
  obtain ⟨u, acquired, rfl⟩ := Option.map_eq_some_iff.1 locked
  rw [lock, if_pos (by simp)] at acquired
  obtain ⟨free, same⟩ := Option.ite_none_right_eq_some.1 acquired
  obtain rfl := Option.some.inj same
  refine ⟨fun a => ?_, inv.callback⟩
  cases a with
  | pool => exact iff_of_false (by simp) (inv.nobody free .pool)
  | user j =>
      by_cases same : j = i
      · simp [InCritical, same]
      · have outside := inv.nobody free (.user j)
        simp only [InCritical] at outside
        simp [InCritical, same, Ne.symm same, outside]

theorem Inv.userUnlock {s : State} {i : Nat} (inv : Inv s) (inside : s.inside i = true) :
    Inv (unlock (.user i) { s with inside := Function.update s.inside i false }) := by
  have held : s.mutex = some (.user i) := (inv.mutex (.user i)).2 inside
  rw [unlock, if_pos (by simp)]
  refine ⟨fun a => iff_of_false (by simp [release]) fun other => ?_, inv.callback⟩
  cases a with
  | pool =>
      have both : s.mutex = some .pool := (inv.mutex .pool).2 other
      rw [held] at both
      cases both
  | user j =>
      by_cases same : j = i
      · simp [InCritical, release, same] at other
      · have both : s.mutex = some (.user j) := by
          rw [inv.mutex]
          simpa [InCritical, release, same] using other
        rw [held] at both
        exact same (Thread.user.inj (Option.some.inj both)).symm

theorem step_inv {s t : State} {m : Move} (outside : NotFromCallback s m) (inv : Inv s)
    (moved : step s m = some t) : Inv t := by
  cases m with
  | userLock i => exact inv.userLock (Option.ite_none_right_eq_some.1 moved).2
  | userBody i c now =>
      obtain ⟨-, same⟩ := Option.ite_none_right_eq_some.1 moved
      obtain rfl := Option.some.inj same
      exact ⟨inv.mutex, inv.callback⟩
  | userUnlock i =>
      obtain ⟨inside, same⟩ := Option.ite_none_right_eq_some.1 moved
      obtain rfl := Option.some.inj same
      exact inv.userUnlock inside
  | enter => exact inv.take (.inl rfl) (Option.ite_none_right_eq_some.1 moved).2
  | wait =>
      obtain ⟨⟨entered, -⟩, same⟩ := Option.ite_none_right_eq_some.1 moved
      obtain rfl := Option.some.inj same
      exact inv.give (.inl entered) (.inr (.inl rfl))
  | wake => exact inv.take (.inl rfl) (Option.ite_none_right_eq_some.1 moved).2
  | update now =>
      obtain ⟨⟨entered, -⟩, same⟩ := Option.ite_none_right_eq_some.1 moved
      obtain rfl := Option.some.inj same
      exact inv.stay (.inl entered) rfl rfl (.inl rfl)
  | timeout now =>
      obtain ⟨⟨entered, -⟩, same⟩ := Option.ite_none_right_eq_some.1 moved
      obtain ⟨r, -, rfl⟩ := Option.map_eq_some_iff.1 same
      exact inv.stay (.inl entered) rfl rfl (.inr rfl)
  | leave =>
      obtain ⟨leaving, same⟩ := Option.ite_none_right_eq_some.1 moved
      obtain rfl := Option.some.inj same
      exact inv.give (.inr (.inl leaving)) (.inl rfl)
  | callBack =>
      obtain ⟨fired, same⟩ := Option.ite_none_right_eq_some.1 moved
      obtain rfl := Option.some.inj same
      exact inv.give (.inr (.inr (.inl fired))) (.inr (.inr rfl))
  | callbackLock => exact absurd rfl outside
  | callbackBody c now => exact absurd (Option.ite_none_right_eq_some.1 moved).1 inv.callback
  | callbackUnlock => exact absurd (Option.ite_none_right_eq_some.1 moved).1 inv.callback
  | relock => exact inv.take (.inr rfl) (Option.ite_none_right_eq_some.1 moved).2

/-- A callback that calls a timer is inside without the mutex. -/
theorem not_from_callback_of_exclusive {s t : State} {m : Move} (inv : Inv s)
    (moved : step s m = some t) (exclusive : Exclusive t) : NotFromCallback s m := by
  rintro rfl
  obtain ⟨callback, same⟩ := Option.ite_none_right_eq_some.1 moved
  obtain rfl := Option.some.inj same
  have held : s.mutex = some .pool := exclusive.holds .pool (.inr (.inr (.inr rfl)))
  have inside := (inv.mutex .pool).1 held
  simp [InCritical, callback] at inside

theorem init_inv (created : Int) : Inv (init created) where
  mutex a := by cases a <;> simp [init, InCritical]
  callback := by simp [init]

/-- **Mutual exclusion.**  In every state whoever is inside holds the mutex and is alone, if
and only if no callback starts, restarts or stops a timer. -/
theorem exclusive_iff (created : Int) (ms : List Move) (s : State)
    (ran : exec step (init created) ms = some s) :
    Always step Exclusive (init created) ms ↔ Along step NotFromCallback (init created) ms :=
  always_iff_along (fun _ inv => inv.exclusive) (fun _ _ _ => step_inv)
    (fun _ _ _ => not_from_callback_of_exclusive) (init_inv created) ran

/-- A timer is started and served, and its callback calls nothing. -/
def serveOne : List Move :=
  [.userLock 0, .userBody 0 (.start 1 1000 true true) 0, .userUnlock 0, .enter, .update 0, .leave,
    .enter, .wait, .wake, .timeout 0, .callBack, .relock, .leave]

theorem serveOne_exclusive : Always step Exclusive (init 0) serveOne :=
  (exclusive_iff 0 serveOne _ rfl).2
    (along_of_labels (by simp [serveOne, NotFromCallback]) (init 0))

/-- The callback calls a timer, and so does another thread: both are inside. -/
theorem callback_races : ∃ s, exec step (init 0)
      [.userLock 0, .userBody 0 (.start 1 1000 true true) 0, .userUnlock 0, .enter, .update 0,
        .leave, .enter, .timeout 0, .callBack, .callbackLock, .userLock 2] = some s ∧
    InCritical s .pool ∧ InCritical s (.user 2) ∧ ¬ Exclusive s := by
  refine ⟨_, rfl, .inr (.inr (.inr rfl)), rfl, fun exclusive => ?_⟩
  have same := exclusive.alone .pool (.user 2) (.inr (.inr (.inr rfl))) rfl
  cases same

end Locking

end ChargerStack.Ocpp.TimerPool
