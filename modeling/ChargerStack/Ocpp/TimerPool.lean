/-
# Ocpp.TimerPool -- timers and the pool thread

A timer that is started is appended to the pool's list of active timers.  The pool
thread sleeps until `m_wake_up_time_point`, or until `m_update_wakeup_time` is set and it
is woken up; only then is the list sorted and the next wake-up point taken from its
front, or set 2400 hours ahead when no timer is active.

* `PoolInv`: a timer is in the list once when it is started and not at all otherwise,
  and without a pending update the thread sleeps no longer than any active timer;
  `timerPool_invariant` is that for every run;
* `timeouts_right`: the timeout branch serves the earliest timer, and no timer early, as
  long as it is not taken without an active timer, and no timer that is started while
  none is active is due after the point the thread sleeps to;
* `timeouts_wrong` shows both ways in which it goes wrong otherwise.
-/
import Mathlib.Data.List.Sort
import Mathlib.Logic.Function.Basic
import ChargerStack.Cxx.Basic
import ChargerStack.Lib.Run

namespace ChargerStack.Ocpp.TimerPool

open ChargerStack.Cxx
open ChargerStack.Lib

set_option autoImplicit false

/-! ## Timers and the pool -/

/-- The address of a timer. -/
abbrev TimerId := Nat

/-- Time points are nanoseconds of the steady clock, the interval is in milliseconds. -/
structure Timer where
  singleShot : Bool
  interval : Int
  wakeUpTimePoint : Int
  started : Bool
  deriving DecidableEq, Repr

structure Pool where
  timer : TimerId → Timer
  activeTimers : List TimerId
  wakeUpTimePoint : Int
  updateWakeupTime : Bool
  stop : Bool

/-- A time point and a duration in milliseconds. -/
def after (point interval : Int) : Int := int64 (point + int64 (interval * 1000000))

/-- `std::chrono::hours(2400u)` from now. -/
def defaultWakeup (now : Int) : Int := int64 (now + 2400 * 3600 * 1000000000)

namespace Pool

def set (p : Pool) (t : TimerId) (x : Timer) : Pool := { p with timer := Function.update p.timer t x }

/-- The timers in the order of their wake-up points; timers of one point keep their order. -/
def sorted (p : Pool) : List TimerId :=
  p.activeTimers.insertionSort fun a b => (p.timer a).wakeUpTimePoint ≤ (p.timer b).wakeUpTimePoint

/-- `computeNextWakeupTimepoint`. -/
def computeNextWakeupTimepoint (now : Int) (p : Pool) : Pool :=
  match p.sorted with
  | [] => { p with wakeUpTimePoint := defaultWakeup now }
  | front :: rest =>
      { p with activeTimers := front :: rest, wakeUpTimePoint := (p.timer front).wakeUpTimePoint }

/-- `addTimer`. -/
def addTimer (t : TimerId) (p : Pool) : Pool :=
  { p with
    updateWakeupTime :=
      p.updateWakeupTime || decide ((p.timer t).wakeUpTimePoint < p.wakeUpTimePoint)
    activeTimers := p.activeTimers ++ [t] }

/-- `removeTimer`. -/
def removeTimer (t : TimerId) (p : Pool) : Pool :=
  { p with
    updateWakeupTime := p.updateWakeupTime || decide (p.activeTimers.head? = some t)
    activeTimers := p.activeTimers.filter (· ≠ t) }

/-- The parameters of a timer that is started `now`. -/
def configure (now : Int) (t : TimerId) (interval : Int) (singleShot immediately : Bool)
    (p : Pool) : Pool :=
  p.set t { p.timer t with
    interval := interval
    singleShot := singleShot
    wakeUpTimePoint := if immediately then now else after now interval }

def setStarted (t : TimerId) (started : Bool) (p : Pool) : Pool :=
  p.set t { p.timer t with started := started }

/-- `Timer::start`. -/
def start (now : Int) (t : TimerId) (interval : Int) (singleShot immediately : Bool) (p : Pool) :
    Pool × Bool :=
  if (p.timer t).started then (p, false)
  else (((p.configure now t interval singleShot immediately).addTimer t).setStarted t true, true)

/-- `Timer::restart`. -/
def restart (now : Int) (t : TimerId) (interval : Int) (singleShot immediately : Bool) (p : Pool) :
    Pool × Bool :=
  let q := if (p.timer t).started then p.removeTimer t else p
  (((q.configure now t interval singleShot immediately).addTimer t).setStarted t true, true)

/-- `Timer::stop`. -/
def stopTimer (t : TimerId) (p : Pool) : Pool × Bool :=
  if (p.timer t).started then ((p.removeTimer t).setStarted t false, true) else (p, false)

/-- What the pool thread waits for besides the time. -/
def awaited (p : Pool) : Bool := p.stop || p.updateWakeupTime

/-- `threadLoop` after its wait has ended because of `awaited`. -/
def threadUpdate (now : Int) (p : Pool) : Pool :=
  if p.updateWakeupTime then { p.computeNextWakeupTimepoint now with updateWakeupTime := false }
  else p

/-- `threadLoop` after its wait has timed out, up to the callback of the timer it returns.
`front()` of an empty list is undefined, and nothing is said about what follows. -/
def threadTimeout (now : Int) (p : Pool) : Option (Pool × TimerId) :=
  match p.activeTimers with
  | [] => none
  | t :: rest =>
      let q :=
        if (p.timer t).singleShot then
          { p with activeTimers := rest }.setStarted t false
        else
          p.set t { p.timer t with
            wakeUpTimePoint := after (p.timer t).wakeUpTimePoint (p.timer t).interval }
      some (q.computeNextWakeupTimepoint now, t)

end Pool

/-- A timer as its constructor leaves it. -/
def newTimer : Timer := ⟨false, 0, -2 ^ 63, false⟩

def newPool (now : Int) : Pool := ⟨fun _ => newTimer, [], defaultWakeup now, false, false⟩

/-! ## Runs -/

structure System where
  pool : Pool
  clock : Int

inductive Label where
  | start (t : TimerId) (interval : Int) (singleShot immediately : Bool) (now : Int)
  | restart (t : TimerId) (interval : Int) (singleShot immediately : Bool) (now : Int)
  | stop (t : TimerId)
  | update (now : Int)
  | timeout (now : Int)
  | destroy
  deriving DecidableEq, Repr

/-- The pool thread's wait ends with a timeout. -/
def TimesOut (s : System) (now : Int) : Prop :=
  s.clock ≤ now ∧ s.pool.awaited = false ∧ s.pool.wakeUpTimePoint ≤ now

instance (s : System) (now : Int) : Decidable (TimesOut s now) :=
  inferInstanceAs (Decidable (_ ∧ _ ∧ _))

def step (s : System) : Label → Option System
  | .start t interval singleShot immediately now =>
      if s.clock ≤ now then some ⟨(s.pool.start now t interval singleShot immediately).1, now⟩
      else none
  | .restart t interval singleShot immediately now =>
      if s.clock ≤ now then some ⟨(s.pool.restart now t interval singleShot immediately).1, now⟩
      else none
  | .stop t => some ⟨(s.pool.stopTimer t).1, s.clock⟩
  | .update now =>
      if s.clock ≤ now ∧ s.pool.awaited then some ⟨s.pool.threadUpdate now, now⟩ else none
  | .timeout now =>
      if TimesOut s now then (s.pool.threadTimeout now).map fun r => ⟨r.1, now⟩ else none
  | .destroy => some ⟨{ s.pool with stop := true }, s.clock⟩

def init (now : Int) : System := ⟨newPool now, now⟩

/-! ## The invariant -/

/-- A timer is in the list once when it is started and not at all otherwise. -/
def Listed (p : Pool) : Prop :=
  ∀ t, p.activeTimers.count t = if (p.timer t).started then 1 else 0

/-- The pool thread sleeps no longer than any active timer. -/
def Covered (p : Pool) : Prop :=
  ∀ t ∈ p.activeTimers, p.wakeUpTimePoint ≤ (p.timer t).wakeUpTimePoint

structure PoolInv (p : Pool) : Prop where
  listed : Listed p
  covered : p.updateWakeupTime = false → Covered p

/-- While a timer is being moved: it is not in the list, whatever it says itself. -/
structure Without (t : TimerId) (p : Pool) : Prop where
  listed : ∀ u, p.activeTimers.count u = if u ≠ t ∧ (p.timer u).started then 1 else 0
  covered : p.updateWakeupTime = false → Covered p

variable {p q : Pool} {t u : TimerId} {now interval : Int} {singleShot immediately : Bool}

theorem Listed.mem_iff (listed : Listed p) (t : TimerId) :
    t ∈ p.activeTimers ↔ (p.timer t).started = true := by
  rw [← List.count_pos_iff, listed t]
  split <;> simp_all

theorem Without.not_mem (without : Without t p) : t ∉ p.activeTimers := by
  rw [← List.count_eq_zero, without.listed t]
  simp

/-! Sorting -/

theorem sorted_perm (p : Pool) : p.sorted.Perm p.activeTimers := List.perm_insertionSort _ _

theorem sorted_pairwise (p : Pool) : p.sorted.Pairwise fun a b =>
    (p.timer a).wakeUpTimePoint ≤ (p.timer b).wakeUpTimePoint := by
  have total : Std.Total fun a b : TimerId =>
      (p.timer a).wakeUpTimePoint ≤ (p.timer b).wakeUpTimePoint := ⟨fun _ _ => le_total _ _⟩
  have trans : IsTrans TimerId fun a b =>
      (p.timer a).wakeUpTimePoint ≤ (p.timer b).wakeUpTimePoint := ⟨fun _ _ _ => le_trans⟩
  exact List.pairwise_insertionSort _ _

/-- **What `computeNextWakeupTimepoint` establishes.** -/
structure Computed (p q : Pool) : Prop where
  timer : q.timer = p.timer
  perm : q.activeTimers.Perm p.activeTimers
  flag : q.updateWakeupTime = p.updateWakeupTime
  covered : Covered q
  served : ∀ t ∈ q.activeTimers.head?, q.wakeUpTimePoint = (q.timer t).wakeUpTimePoint

theorem compute_spec (now : Int) (p : Pool) : Computed p (p.computeNextWakeupTimepoint now) := by
  have perm := sorted_perm p
  have pairwise := sorted_pairwise p
  unfold Pool.computeNextWakeupTimepoint
  cases order : p.sorted with
  | nil =>
      rw [order] at perm
      have empty : p.activeTimers = [] := perm.symm.eq_nil
      refine ⟨rfl, List.Perm.refl _, rfl, ?_, ?_⟩
      · intro t inside
        simp [empty] at inside
      · intro t inside
        simp [empty] at inside
  | cons front rest =>
      rw [order] at perm pairwise
      refine ⟨rfl, perm, rfl, ?_, ?_⟩
      · intro t inside
        rcases List.mem_cons.1 inside with rfl | inside
        · exact le_refl _
        · exact (List.pairwise_cons.1 pairwise).1 t inside
      · intro t first
        obtain rfl : front = t := by simpa using first
        rfl

theorem Computed.inv (computed : Computed p q) (listed : Listed p) : PoolInv q := by
  refine ⟨fun t => ?_, fun _ => computed.covered⟩
  rw [computed.perm.count_eq, computed.timer]
  exact listed t

/-! Taking a timer out and putting it in -/

theorem PoolInv.without (inv : PoolInv p) (idle : (p.timer t).started = false) : Without t p := by
  refine ⟨fun u => ?_, inv.covered⟩
  rw [inv.listed u]
  by_cases same : u = t
  · simp [same, idle]
  · simp [same]

theorem PoolInv.removeTimer (inv : PoolInv p) : Without t (p.removeTimer t) := by
  refine ⟨fun u => ?_, fun flag u inside => ?_⟩
  · show (p.activeTimers.filter (· ≠ t)).count u = _
    by_cases same : u = t
    · subst same
      simp [List.count_eq_zero]
    · rw [List.count_filter (by simpa using same), inv.listed u]
      simp [same, Pool.removeTimer]
  · have old : p.updateWakeupTime = false := (Bool.or_eq_false_iff.1 flag).1
    exact inv.covered old u (List.mem_of_mem_filter inside)

/-- The timer is armed, appended and marked as started. -/
def join (now : Int) (t : TimerId) (interval : Int) (singleShot immediately : Bool) (p : Pool) :
    Pool :=
  ((p.configure now t interval singleShot immediately).addTimer t).setStarted t true

/-- When a timer that is started `now` is due. -/
def dueAt (now interval : Int) (immediately : Bool) : Int :=
  if immediately then now else after now interval

theorem join_other (apart : u ≠ t) :
    (join now t interval singleShot immediately p).timer u = p.timer u := by
  simp [join, Pool.setStarted, Pool.set, Pool.addTimer, Pool.configure, apart]

theorem join_self : (join now t interval singleShot immediately p).timer t =
    ⟨singleShot, interval, dueAt now interval immediately, true⟩ := by
  simp [join, Pool.setStarted, Pool.set, Pool.addTimer, Pool.configure, dueAt]

theorem join_flag : (join now t interval singleShot immediately p).updateWakeupTime = false ↔
    p.updateWakeupTime = false ∧ p.wakeUpTimePoint ≤ dueAt now interval immediately := by
  simp [join, Pool.setStarted, Pool.set, Pool.addTimer, Pool.configure, dueAt]

theorem Without.join (without : Without t p) :
    PoolInv (join now t interval singleShot immediately p) := by
  have absent := without.not_mem
  refine ⟨fun u => ?_, fun flag u inside => ?_⟩
  · show (p.activeTimers ++ [t]).count u = _
    rw [List.count_append, without.listed u]
    by_cases same : u = t
    · subst same
      simp [join_self]
    · have other : t ≠ u := Ne.symm same
      simp [same, other, join_other same]
  · obtain ⟨old, later⟩ := join_flag.1 flag
    show p.wakeUpTimePoint ≤ _
    have inside : u ∈ p.activeTimers ++ [t] := inside
    rcases List.mem_append.1 inside with inside | inside
    · have apart : u ≠ t := fun same => absent (same ▸ inside)
      rw [join_other apart]
      exact without.covered old u inside
    · obtain rfl := List.mem_singleton.1 inside
      rw [join_self]
      exact later

theorem Without.leave (without : Without t p) : PoolInv (p.setStarted t false) := by
  have absent := without.not_mem
  refine ⟨fun u => ?_, fun flag u inside => ?_⟩
  · show p.activeTimers.count u = _
    rw [without.listed u]
    by_cases same : u = t
    · subst same
      simp [Pool.setStarted, Pool.set]
    · simp [same, Pool.setStarted, Pool.set]
  · have apart : u ≠ t := fun same => absent (same ▸ inside)
    have same : (p.setStarted t false).timer u = p.timer u := by
      simp [Pool.setStarted, Pool.set, apart]
    rw [same]
    exact without.covered flag u inside

/-! ## Every step keeps the invariant -/

theorem PoolInv.start (inv : PoolInv p) :
    PoolInv (p.start now t interval singleShot immediately).1 := by
  unfold Pool.start
  split
  · exact inv
  · rename_i idle
    exact (inv.without (by simpa using idle)).join

theorem PoolInv.restart (inv : PoolInv p) :
    PoolInv (p.restart now t interval singleShot immediately).1 := by
  show PoolInv (TimerPool.join now t interval singleShot immediately
    (if (p.timer t).started then p.removeTimer t else p))
  split
  · exact inv.removeTimer.join
  · rename_i idle
    exact (inv.without (by simpa using idle)).join

theorem PoolInv.stopTimer (inv : PoolInv p) : PoolInv (p.stopTimer t).1 := by
  unfold Pool.stopTimer
  split
  · exact inv.removeTimer.leave
  · exact inv

theorem PoolInv.threadUpdate (inv : PoolInv p) : PoolInv (p.threadUpdate now) := by
  unfold Pool.threadUpdate
  split
  · have computed := compute_spec now p
    exact ⟨(computed.inv inv.listed).listed, fun _ => computed.covered⟩
  · exact inv

/-- The list that the timeout branch leaves before it is sorted again. -/
theorem PoolInv.timeout {rest : List TimerId} (inv : PoolInv p) (front : p.activeTimers = t :: rest) :
    Listed (if (p.timer t).singleShot then { p with activeTimers := rest }.setStarted t false
      else p.set t { p.timer t with
        wakeUpTimePoint := after (p.timer t).wakeUpTimePoint (p.timer t).interval }) := by
  intro u
  have counted := inv.listed u
  rw [front] at counted
  split
  · show rest.count u = _
    by_cases same : u = t
    · subst same
      have once : rest.count u + 1 = if (p.timer u).started then 1 else 0 := by
        simpa using counted
      simp only [Pool.setStarted, Pool.set, Function.update_self]
      split at once
      · simpa using once
      · omega
    · have other : t ≠ u := Ne.symm same
      simpa [Pool.setStarted, Pool.set, same, List.count_cons_of_ne other] using counted
  · show p.activeTimers.count u = _
    rw [front, counted]
    by_cases same : u = t
    · simp [Pool.set, same]
    · simp [Pool.set, same]

theorem threadTimeout_spec {q : Pool} (ran : p.threadTimeout now = some (q, t)) :
    ∃ rest, p.activeTimers = t :: rest ∧ Computed
      (if (p.timer t).singleShot then { p with activeTimers := rest }.setStarted t false
        else p.set t { p.timer t with
          wakeUpTimePoint := after (p.timer t).wakeUpTimePoint (p.timer t).interval }) q := by
  unfold Pool.threadTimeout at ran
  cases front : p.activeTimers with
  | nil =>
      rw [front] at ran
      cases ran
  | cons first rest =>
      rw [front] at ran
      simp only [Option.some.injEq, Prod.mk.injEq] at ran
      obtain ⟨rfl, rfl⟩ := ran
      exact ⟨rest, rfl, compute_spec now _⟩

theorem PoolInv.threadTimeout {q : Pool} (inv : PoolInv p)
    (ran : p.threadTimeout now = some (q, t)) : PoolInv q := by
  obtain ⟨rest, front, computed⟩ := threadTimeout_spec ran
  exact computed.inv (inv.timeout front)

theorem newPool_inv (now : Int) : PoolInv (newPool now) where
  listed := by simp [Listed, newPool, newTimer]
  covered := by simp [Covered, newPool]

/-- **One step.** -/
theorem step_inv {s s' : System} {l : Label} (inv : PoolInv s.pool) (moved : step s l = some s') :
    PoolInv s'.pool := by
  cases l with
  | start t interval singleShot immediately now =>
      obtain ⟨-, same⟩ := Option.ite_none_right_eq_some.1 moved
      obtain rfl := Option.some.inj same
      exact inv.start
  | restart t interval singleShot immediately now =>
      obtain ⟨-, same⟩ := Option.ite_none_right_eq_some.1 moved
      obtain rfl := Option.some.inj same
      exact inv.restart
  | stop t =>
      obtain rfl := Option.some.inj moved
      exact inv.stopTimer
  | update now =>
      obtain ⟨-, same⟩ := Option.ite_none_right_eq_some.1 moved
      obtain rfl := Option.some.inj same
      exact inv.threadUpdate
  | timeout now =>
      obtain ⟨-, same⟩ := Option.ite_none_right_eq_some.1 moved
      obtain ⟨⟨q, t⟩, ran, rfl⟩ := Option.map_eq_some_iff.1 same
      exact inv.threadTimeout ran
  | destroy =>
      obtain rfl := Option.some.inj moved
      exact ⟨inv.listed, inv.covered⟩

/-- **The pool over every run.**  A timer is in the list exactly once when it is started and
not at all otherwise; without a pending update the pool thread sleeps no longer than any
active timer. -/
theorem timerPool_invariant (created : Int) (ls : List Label) (s : System)
    (ran : exec step (init created) ls = some s) :
    (∀ t, s.pool.activeTimers.count t = if (s.pool.timer t).started then 1 else 0) ∧
      (s.pool.updateWakeupTime = false → ∀ t ∈ s.pool.activeTimers,
        s.pool.wakeUpTimePoint ≤ (s.pool.timer t).wakeUpTimePoint) := by
  have kept : ∀ (s : System) (l : Label) (t : System), PoolInv s.pool → step s l = some t →
      PoolInv t.pool := fun _ _ _ => step_inv
  have inv : PoolInv s.pool := exec_invariant kept (newPool_inv created) ran
  exact ⟨inv.listed, inv.covered⟩

/-- A periodic timer is started, served once and started again. -/
def periodic : List Label :=
  [.start 1 1000 false false 0, .update 0, .timeout 1000000000, .restart 1 500 true true 1000000001]

theorem periodic_listed : ∃ s, exec step (init 0) periodic = some s ∧
    s.pool.activeTimers.count 1 = 1 ∧ s.pool.updateWakeupTime = true :=
  ⟨_, rfl, (timerPool_invariant 0 periodic _ rfl).1 1, rfl⟩

/-! ## The timeout branch -/

/-- The thread sleeps to the wake-up point of the front. -/
def Served (p : Pool) : Prop :=
  p.updateWakeupTime = false →
    ∀ t ∈ p.activeTimers.head?, p.wakeUpTimePoint = (p.timer t).wakeUpTimePoint

/-- A timer put in a pool that is not empty, or due before the thread wakes up. -/
theorem Without.join_served (without : Without t p) (served : Served p)
    (prompt : p.activeTimers = [] → p.updateWakeupTime = false →
      dueAt now interval immediately ≤ p.wakeUpTimePoint) :
    Served (TimerPool.join now t interval singleShot immediately p) := by
  intro flag u first
  obtain ⟨old, later⟩ := join_flag.1 flag
  show p.wakeUpTimePoint = _
  have first : u ∈ (p.activeTimers ++ [t]).head? := first
  cases active : p.activeTimers with
  | nil =>
      rw [active] at first
      obtain rfl : t = u := by simpa using first
      rw [join_self]
      exact le_antisymm later (prompt active old)
  | cons front rest =>
      rw [active] at first
      obtain rfl : front = u := by simpa using first
      have apart : front ≠ t := fun same => without.not_mem (by simp [active, same])
      rw [join_other apart]
      exact served old front (by simp [active])

theorem Served.removeTimer (served : Served p) : Served (p.removeTimer t) := by
  intro flag u first
  obtain ⟨old, notFront⟩ := Bool.or_eq_false_iff.1 flag
  have first : u ∈ (p.activeTimers.filter (· ≠ t)).head? := first
  cases active : p.activeTimers with
  | nil => simp [active] at first
  | cons front rest =>
      have apart : front ≠ t := by simpa [active] using notFront
      obtain rfl : front = u := by simpa [active, apart] using first
      exact served old front (by simp [active])

theorem Computed.served_of (computed : Computed p q) : Served q := fun _ => computed.served

/-- The two moments at which the pool needs its users.  The timeout branch is taken only
when a timer is active, and a timer that is started while none is active and no update is
pending is due no later than the point the thread sleeps to. -/
def Prompt (s : System) : Label → Prop
  | .start _ interval _ immediately now | .restart _ interval _ immediately now =>
      s.pool.activeTimers = [] → s.pool.updateWakeupTime = false →
        dueAt now interval immediately ≤ s.pool.wakeUpTimePoint
  | .timeout now => TimesOut s now → s.pool.activeTimers ≠ []
  | _ => True

instance (s : System) : (l : Label) → Decidable (Prompt s l)
  | .start _ _ _ _ _ => inferInstanceAs (Decidable (_ → _ → _ ≤ _))
  | .restart _ _ _ _ _ => inferInstanceAs (Decidable (_ → _ → _ ≤ _))
  | .timeout now => inferInstanceAs (Decidable (TimesOut s now → _ ≠ _))
  | .stop _ => inferInstanceAs (Decidable True)
  | .update _ => inferInstanceAs (Decidable True)
  | .destroy => inferInstanceAs (Decidable True)

/-- When the timeout branch is taken, the front is the earliest active timer and has been
reached. -/
def TimeoutRight (s : System) : Label → Prop
  | .timeout now => TimesOut s now → ∃ t rest, s.pool.activeTimers = t :: rest ∧
      (s.pool.timer t).wakeUpTimePoint ≤ now ∧
      ∀ u ∈ s.pool.activeTimers, (s.pool.timer t).wakeUpTimePoint ≤ (s.pool.timer u).wakeUpTimePoint
  | _ => True

structure PromptInv (p : Pool) : Prop extends PoolInv p where
  served : Served p

theorem prompt_step {s s' : System} {l : Label} (prompt : Prompt s l) (inv : PromptInv s.pool)
    (moved : step s l = some s') : PromptInv s'.pool := by
  have kept := step_inv inv.toPoolInv moved
  refine ⟨kept, ?_⟩
  cases l with
  | start t interval singleShot immediately now =>
      obtain ⟨-, same⟩ := Option.ite_none_right_eq_some.1 moved
      obtain rfl := Option.some.inj same
      show Served (s.pool.start now t interval singleShot immediately).1
      unfold Pool.start
      split
      · exact inv.served
      · rename_i idle
        exact (inv.without (by simpa using idle)).join_served inv.served prompt
  | restart t interval singleShot immediately now =>
      obtain ⟨-, same⟩ := Option.ite_none_right_eq_some.1 moved
      obtain rfl := Option.some.inj same
      show Served (join now t interval singleShot immediately
        (if (s.pool.timer t).started then s.pool.removeTimer t else s.pool))
      split
      · rename_i started
        refine inv.removeTimer.join_served inv.served.removeTimer fun empty flag => ?_
        -- An active timer that leaves an empty list was the front.
        obtain ⟨old, notFront⟩ := Bool.or_eq_false_iff.1 flag
        have empty : s.pool.activeTimers.filter (· ≠ t) = [] := empty
        have active : t ∈ s.pool.activeTimers := (inv.listed.mem_iff t).2 started
        cases front : s.pool.activeTimers with
        | nil => simp [front] at active
        | cons first rest =>
            have apart : first ≠ t := by simpa [front] using notFront
            simp [front, apart] at empty
      · rename_i idle
        exact (inv.without (by simpa using idle)).join_served inv.served prompt
  | stop t =>
      obtain rfl := Option.some.inj moved
      show Served (s.pool.stopTimer t).1
      unfold Pool.stopTimer
      split
      · intro flag u first
        have apart : u ≠ t := by
          rintro rfl
          exact inv.removeTimer.not_mem (List.mem_of_mem_head? first)
        have same : ((s.pool.removeTimer t).setStarted t false).timer u =
            (s.pool.removeTimer t).timer u := by
          simp [Pool.setStarted, Pool.set, apart]
        rw [same]
        exact inv.served.removeTimer flag u first
      · exact inv.served
  | update now =>
      obtain ⟨-, same⟩ := Option.ite_none_right_eq_some.1 moved
      obtain rfl := Option.some.inj same
      show Served (s.pool.threadUpdate now)
      unfold Pool.threadUpdate
      split
      · exact fun _ => (compute_spec now s.pool).served
      · exact inv.served
  | timeout now =>
      obtain ⟨-, same⟩ := Option.ite_none_right_eq_some.1 moved
      obtain ⟨⟨q, t⟩, ran, rfl⟩ := Option.map_eq_some_iff.1 same
      obtain ⟨rest, -, computed⟩ := threadTimeout_spec ran
      exact computed.served_of
  | destroy =>
      obtain rfl := Option.some.inj moved
      exact inv.served

theorem timeout_right_of_inv {s : System} {l : Label} (prompt : Prompt s l)
    (inv : PromptInv s.pool) : TimeoutRight s l := by
  cases l with
  | timeout now =>
      intro timesOut
      obtain ⟨t, rest, active⟩ := List.exists_cons_of_ne_nil (prompt timesOut)
      obtain ⟨-, awaited, reached⟩ := timesOut
      have flag : s.pool.updateWakeupTime = false := (Bool.or_eq_false_iff.1 awaited).2
      have point := inv.served flag t (by simp [active])
      refine ⟨t, rest, active, ?_, ?_⟩
      · rw [← point]
        exact reached
      · rw [← point]
        exact inv.covered flag
  | start => trivial
  | restart => trivial
  | stop => trivial
  | update => trivial
  | destroy => trivial

/-- **Timeouts are right** in every run whose steps are all prompt: the timeout branch finds
an active timer at the front, the earliest of them, and never before its time. -/
theorem timeouts_right (created : Int) (ls : List Label)
    (prompt : Along step Prompt (init created) ls) :
    Along step TimeoutRight (init created) ls := by
  have kept : ∀ (s : System) (l : Label) (t : System), Prompt s l → PromptInv s.pool →
      step s l = some t → PromptInv t.pool := fun _ _ _ => prompt_step
  have gives : ∀ (s : System) (l : Label), Prompt s l → PromptInv s.pool → TimeoutRight s l :=
    fun _ _ => timeout_right_of_inv
  have start : PromptInv (init created).pool := ⟨newPool_inv created, by simp [Served, init, newPool]⟩
  exact along_of_invariant kept gives prompt start

theorem periodic_timeouts_right : Along step TimeoutRight (init 0) periodic := by
  refine timeouts_right 0 periodic ?_
  refine along_cons rfl ?_ (along_cons rfl ?_ (along_cons rfl ?_ (along_cons rfl ?_ trivial)))
  all_goals decide

/-- **2400 hours without a timer**, and the thread reads the front of an empty list; **a timer
due after 2500 hours**, and it is called back after 2400. -/
theorem timeouts_wrong :
    ¬ Along step TimeoutRight (init 0) [.timeout 8640000000000000] ∧
    ¬ Along step TimeoutRight (init 0)
      [.start 1 9000000000 true false 0, .timeout 8640000000000000] := by
  constructor
  · rintro ⟨right, -⟩
    obtain ⟨t, rest, active, -⟩ := right (by decide)
    cases active
  · rintro ⟨-, rest⟩
    obtain ⟨right, -⟩ := rest _ rfl
    obtain ⟨t, rest, active, reached, -⟩ := right (by decide)
    obtain ⟨rfl, -⟩ := List.cons.inj active
    revert reached
    decide

end ChargerStack.Ocpp.TimerPool
