/-
# Utils.NextTimeout -- how long the timer thread sleeps

Before each round the thread sleeps in `select` until the first timer of the list is due.
`p_timer_loop_get_next_min_timeout` takes seconds and nanoseconds apart, cuts the
nanoseconds to microseconds towards zero, borrows a second where they are negative, and
never sleeps for less than a millisecond.

* `minTimeout_sleepsUntil`: the result is a valid time, and less than a microsecond away
  from what is left until the deadline, or from a millisecond if that is longer;
* `nextTimeout_spec`: after such a sleep the first timer has its turn, or it is due within
  a microsecond and the next sleep is a millisecond.
-/
import Mathlib.Algebra.Order.Group.Abs
import Mathlib.Algebra.Order.Group.Int
import ChargerStack.Utils.TimerLoop

namespace ChargerStack.Utils.TimerList

open ChargerStack.Cxx

set_option autoImplicit false

/-! ## The code -/

/-- `struct timeval`. -/
structure Timeval where
  tvSec : Int
  tvUsec : Int
  deriving DecidableEq, Repr

/-- Its length in nanoseconds. -/
def Timeval.nanos (tv : Timeval) : Int := tv.tvSec * 1000000000 + tv.tvUsec * 1000

/-- The branch of `p_timer_loop_get_next_min_timeout` for a list with a head. -/
def minTimeout (absTimeout timeNow : Timespec) : Timeval :=
  let tv : Timeval := ⟨int64 (absTimeout.tvSec - timeNow.tvSec),
    (int64 (absTimeout.tvNsec - timeNow.tvNsec)).tdiv 1000⟩
  let tv := if tv.tvUsec < 0 then ⟨int64 (tv.tvSec - 1), tv.tvUsec + 1000000⟩ else tv
  if tv.tvSec < 0 ∨ tv.tvSec = 0 ∧ tv.tvUsec < 1000 then ⟨0, 1000⟩ else tv

/-- `p_timer_loop_get_next_min_timeout`. -/
def timerLoopGetNextMinTimeout (timeNow : Timespec) (s : State) : Timeval :=
  match s.head with
  | some cur => minTimeout (s.timer cur).absTimeout timeNow
  | none => ⟨10, 0⟩

/-! ## What is promised -/

/-- The difference of the seconds is a `time_t`, also when one is borrowed. -/
structure Subtractable (deadline now : Timespec) : Prop where
  low : -2 ^ 63 < deadline.tvSec - now.tvSec
  high : deadline.tvSec - now.tvSec < 2 ^ 63

/-- A valid time, that ends less than a microsecond from the deadline, or from a millisecond
from now if that is later. -/
structure SleepsUntil (deadline now : Timespec) (tv : Timeval) : Prop where
  sec : 0 ≤ tv.tvSec
  usec : 0 ≤ tv.tvUsec ∧ tv.tvUsec < 1000000
  close : |tv.nanos - max (deadline.nanos - now.nanos) 1000000| < 1000

/-- The round that led from `s` to `t` gave the timer `cur` its turn: it is called back, if it
runs, and before any other; it is counted, and stays in the list if it is put in again. -/
structure HasTurn (woken : Timespec) (s t : State) (calls : List Call) (cur : Handle) : Prop where
  due : (s.timer cur).absTimeout.nanos ≤ woken.nanos
  called : (firedCall s.timer cur).toList <+: calls
  timer : t.timer cur = (s.timer cur).expire woken
  listed : ∃ l, t.Holds l ∧ (cur ∈ l ↔ (s.timer cur).Rearmed)

/-- The round did nothing, the timer `cur` is due within a microsecond, and however late the
clock is read next, the thread sleeps for a millisecond. -/
structure SleepsOnce (woken : Timespec) (s t : State) (calls : List Call) (cur : Handle) :
    Prop where
  soon : 0 < (s.timer cur).absTimeout.nanos - woken.nanos ∧
    (s.timer cur).absTimeout.nanos - woken.nanos < 1000
  unchanged : t = s ∧ calls = []
  millisecond : ∀ later : Timespec, later.Normalised → woken.nanos ≤ later.nanos →
    Subtractable (s.timer cur).absTimeout later → timerLoopGetNextMinTimeout later t = ⟨0, 1000⟩

/-! ## The time computed -/

variable {deadline now woken later : Timespec}

/-- Division towards zero leaves less than the divisor, with the sign of the dividend. -/
theorem tdiv_thousand (n : Int) :
    0 ≤ n ∧ n.tdiv 1000 * 1000 ≤ n ∧ n < n.tdiv 1000 * 1000 + 1000 ∨
      n < 0 ∧ n ≤ n.tdiv 1000 * 1000 ∧ n.tdiv 1000 * 1000 < n + 1000 := by
  rcases Int.le_total 0 n with nonneg | nonpos
  · rw [Int.tdiv_eq_ediv_of_nonneg nonneg]
    omega
  · have flipped : n.tdiv 1000 = -(-n / 1000) := by
      rw [← Int.tdiv_eq_ediv_of_nonneg (by omega), Int.neg_tdiv, Int.neg_neg]
    rw [flipped]
    omega

/-- The seconds and microseconds before the clamp: as many as are left, cut to a microsecond. -/
theorem minTimeout_cases (normal : deadline.Normalised) (current : now.Normalised)
    (range : Subtractable deadline now) :
    ∃ sec usec : Int, 0 ≤ usec ∧ usec < 1000000 ∧
      |sec * 1000000000 + usec * 1000 - (deadline.nanos - now.nanos)| < 1000 ∧
      minTimeout deadline now =
        if sec < 0 ∨ sec = 0 ∧ usec < 1000 then ⟨0, 1000⟩ else ⟨sec, usec⟩ := by
  obtain ⟨low, high⟩ := normal
  obtain ⟨low', high'⟩ := current
  obtain ⟨least, most⟩ := range
  have nanoseconds : int64 (deadline.tvNsec - now.tvNsec) = deadline.tvNsec - now.tvNsec :=
    int64_of_range (by omega) (by omega)
  have seconds : int64 (deadline.tvSec - now.tvSec) = deadline.tvSec - now.tvSec :=
    int64_of_range (by omega) (by omega)
  have cut := tdiv_thousand (deadline.tvNsec - now.tvNsec)
  unfold minTimeout
  rw [nanoseconds, seconds]
  dsimp only
  generalize (deadline.tvNsec - now.tvNsec).tdiv 1000 = usec at cut ⊢
  unfold Timespec.nanos
  by_cases borrows : usec < 0
  · refine ⟨deadline.tvSec - now.tvSec - 1, usec + 1000000, by omega, by omega, ?_, ?_⟩
    · rw [abs_lt]
      omega
    · rw [if_pos borrows, int64_of_range (by omega) (by omega)]
  · refine ⟨deadline.tvSec - now.tvSec, usec, by omega, by omega, ?_, ?_⟩
    · rw [abs_lt]
      omega
    · rw [if_neg borrows]

/-- **The time to sleep.** -/
theorem minTimeout_sleepsUntil (normal : deadline.Normalised) (current : now.Normalised)
    (range : Subtractable deadline now) :
    SleepsUntil deadline now (minTimeout deadline now) := by
  obtain ⟨sec, usec, low, high, close, computed⟩ := minTimeout_cases normal current range
  rw [abs_lt] at close
  rw [computed]
  split
  · next clamped =>
      refine ⟨by decide, by decide, ?_⟩
      have short : deadline.nanos - now.nanos ≤ 1000000 := by omega
      show |0 * 1000000000 + 1000 * 1000 - max (deadline.nanos - now.nanos) 1000000| < 1000
      rw [max_eq_right short]
      decide
  · next kept =>
      have long : 1000000 ≤ sec * 1000000000 + usec * 1000 := by omega
      refine ⟨?_, ⟨low, high⟩, ?_⟩
      · show 0 ≤ sec
        omega
      · rw [abs_lt]
        show -1000 < sec * 1000000000 + usec * 1000 - max (deadline.nanos - now.nanos) 1000000 ∧
          sec * 1000000000 + usec * 1000 - max (deadline.nanos - now.nanos) 1000000 < 1000
        omega

/-- With less than a microsecond left, or nothing, it is a millisecond. -/
theorem minTimeout_of_soon (normal : deadline.Normalised) (current : now.Normalised)
    (range : Subtractable deadline now) (soon : deadline.nanos - now.nanos < 1000) :
    minTimeout deadline now = ⟨0, 1000⟩ := by
  obtain ⟨sec, usec, low, high, close, computed⟩ := minTimeout_cases normal current range
  rw [abs_lt] at close
  rw [computed, if_pos]
  omega

/-! ## The sleep and the round behind it -/

variable {s : State} {cur : Handle} {l : List Handle}

theorem nextTimeout_of_holds (holds : s.Holds (cur :: l)) (timeNow : Timespec) :
    timerLoopGetNextMinTimeout timeNow s = minTimeout (s.timer cur).absTimeout timeNow := by
  have head : s.head = some cur := holds.start
  unfold timerLoopGetNextMinTimeout
  rw [head]

/-- A round at a time when the first timer is due. -/
theorem hasTurn_of_due {fuel : Nat} (holds : s.Holds (cur :: l))
    (sorted : SortedByDeadline s (cur :: l)) (sound : ∀ x ∈ cur :: l, (s.timer x).Sound woken)
    (current : woken.Current) (enough : (cur :: l).length < fuel)
    (due : Due woken (s.timer cur)) :
    ∃ t calls, timerLoopOnce fuel woken s = some (t, calls) ∧ HasTurn woken s t calls cur := by
  obtain ⟨d, w, split, inv⟩ := loopInv_of_sorted holds sorted sound current
  have first : cur ∈ d := by
    rw [← inv.due_iff current (split ▸ List.mem_cons_self)]
    exact due
  obtain ⟨t, l', ran, looped⟩ := timerLoopOnce_spec inv current (split ▸ enough)
  refine ⟨t, _, ran, due, ?_, ?_, l', looped.holds, ?_⟩
  · -- the due timers begin with the first timer of the list
    cases d with
    | nil => cases first
    | cons x d =>
        obtain ⟨rfl, -⟩ := List.cons.inj split
        cases fired : firedCall s.timer cur <;> simp [fired]
  · rw [State.timer_of_contents looped.contents]
    exact if_pos first
  · rw [looped.members]
    constructor
    · rintro (waits | ⟨-, rearmed⟩)
      · have apart := (List.nodup_append.1 inv.holds.nodup).2.2
        exact absurd rfl (apart cur first cur waits)
      · exact rearmed
    · exact fun rearmed => .inr ⟨first, rearmed⟩

/-- A round at a time when it is not. -/
theorem timerLoopOnce_of_not_due {fuel : Nat} (holds : s.Holds (cur :: l)) (some_fuel : 0 < fuel)
    (waits : woken.Earlier (s.timer cur).absTimeout) :
    timerLoopOnce fuel woken s = some (s, []) := by
  have head : s.head = some cur := holds.start
  obtain ⟨fuel, rfl⟩ := Nat.exists_eq_succ_of_ne_zero (Nat.ne_of_gt some_fuel)
  unfold timerLoopOnce
  rw [head, if_neg (by simp), timerLoopFrom]
  exact if_pos (timespecCompare_neg.2 waits)

/-- **The next sleep.**  It is as long as it should be to the microsecond; and after a sleep of
exactly that time, the first timer has its turn, or it is due within a microsecond and the
thread sleeps for another millisecond. -/
theorem nextTimeout_spec (holds : s.Holds (cur :: l)) (sorted : SortedByDeadline s (cur :: l))
    (normal : (s.timer cur).absTimeout.Normalised) (current : now.Normalised)
    (range : Subtractable (s.timer cur).absTimeout now) :
    SleepsUntil (s.timer cur).absTimeout now (timerLoopGetNextMinTimeout now s) ∧
      ∀ (woken : Timespec) (fuel : Nat), woken.Current →
        woken.nanos = now.nanos + (timerLoopGetNextMinTimeout now s).nanos →
        (∀ x ∈ cur :: l, (s.timer x).Sound woken) → (cur :: l).length < fuel →
          ∃ t calls, timerLoopOnce fuel woken s = some (t, calls) ∧
            (HasTurn woken s t calls cur ∨ SleepsOnce woken s t calls cur) := by
  rw [nextTimeout_of_holds holds]
  have sleeps := minTimeout_sleepsUntil normal current range
  refine ⟨sleeps, fun woken fuel current slept sound enough => ?_⟩
  by_cases due : Due woken (s.timer cur)
  · obtain ⟨t, calls, ran, turn⟩ := hasTurn_of_due holds sorted sound current enough due
    exact ⟨t, calls, ran, .inl turn⟩
  · have waits := (earlier_iff_not_due current (sound cur List.mem_cons_self)).2 due
    refine ⟨s, [], timerLoopOnce_of_not_due holds (by omega) waits, .inr ⟨?_, ⟨rfl, rfl⟩, ?_⟩⟩
    · have close := sleeps.close
      rw [abs_lt] at close
      unfold Due at due
      omega
    · intro later normalLater after rangeLater
      rw [nextTimeout_of_holds holds]
      refine minTimeout_of_soon normal normalLater rangeLater ?_
      have close := sleeps.close
      rw [abs_lt] at close
      omega

/-- Two seconds before the first of two timers is due. -/
theorem twoTimers_nextTimeout :
    SleepsUntil ⟨5, 0⟩ ⟨3, 0⟩ (timerLoopGetNextMinTimeout ⟨3, 0⟩ twoTimers) ∧
      ∃ t calls, timerLoopOnce 3 ⟨5, 0⟩ twoTimers = some (t, calls) ∧
        (HasTurn ⟨5, 0⟩ twoTimers t calls 1 ∨ SleepsOnce ⟨5, 0⟩ twoTimers t calls 1) := by
  have holds : twoTimers.Holds [1, 2] := ⟨rfl, ⟨rfl, rfl, rfl, rfl, trivial⟩, by decide⟩
  have sorted : SortedByDeadline twoTimers [1, 2] := by
    show List.Pairwise _ [1, 2]
    simp [twoTimers, State.timer, Timespec.nanos]
  have current : Timespec.Normalised ⟨3, 0⟩ := ⟨by decide, by decide⟩
  obtain ⟨sleeps, round⟩ := nextTimeout_spec holds sorted ⟨by decide, by decide⟩ current
    ⟨by decide, by decide⟩
  refine ⟨sleeps, round ⟨5, 0⟩ 3 ⟨⟨by decide, by decide⟩, by decide⟩ (by decide) ?_ (by decide)⟩
  intro x inside
  simp only [List.mem_cons, List.not_mem_nil, or_false] at inside
  rcases inside with rfl | rfl
  · exact ⟨⟨by decide, by decide⟩, by decide, by decide⟩
  · exact ⟨⟨by decide, by decide⟩, by decide, by decide⟩

end ChargerStack.Utils.TimerList
