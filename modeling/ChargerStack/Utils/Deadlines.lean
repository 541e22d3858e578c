/-
# Utils.Deadlines -- what a deadline stands for, and how deadlines compare

A deadline is a time of the clock and a number of milliseconds.  The code carries a second
over only when the nanoseconds exceed one, so a sum of exactly a second stays in them: the
instant is right, but it has another spelling.

* `timerAddAbstimeout_eq`: what is computed, carried over or not;
* `compare_eq_sign_iff`: two deadlines compare as their instants do, except for the two
  spellings of one;
* `deadlines_iff`: when a deadline is in its normal form, and when two of them compare right.
-/
import Mathlib.Data.Int.Order.Basic
import ChargerStack.Utils.TimerList

namespace ChargerStack.Utils.TimerList

open ChargerStack.Cxx

set_option autoImplicit false

/-- The nanoseconds before the carry. -/
def sumNsec (t : Timespec) (timeoutMs : Nat) : Int :=
  t.tvNsec + (timeoutMs % 1000 * 1000000 : Nat)

/-- They are exactly a second. -/
def WholeSecond (t : Timespec) (timeoutMs : Nat) : Prop := sumNsec t timeoutMs = 1000000000

instance (t : Timespec) (timeoutMs : Nat) : Decidable (WholeSecond t timeoutMs) :=
  inferInstanceAs (Decidable (_ = _))

/-- A time and a timeout whose seconds are a `time_t`, before and after. -/
structure Addable (t : Timespec) (timeoutMs : Nat) : Prop extends t.Normalised where
  sec : -2 ^ 63 ≤ t.tvSec
  fits : t.tvSec + (timeoutMs / 1000 : Nat) +
    (if 1000000000 < sumNsec t timeoutMs then 1 else 0) < 2 ^ 63

/-- The instant of a timeout. -/
def dueNanos (t : Timespec) (timeoutMs : Nat) : Int := t.nanos + timeoutMs * 1000000

/-- The deadline is in its normal form, and so many milliseconds later. -/
structure Advanced (t : Timespec) (timeoutMs : Nat) : Prop where
  normalised : (timerAddAbstimeout t timeoutMs).Normalised
  nanos : (timerAddAbstimeout t timeoutMs).nanos = dueNanos t timeoutMs

/-- The comparison is that of the instants. -/
def ComparesInstants (a b : Timespec) : Prop := timespecCompare a b = (a.nanos - b.nanos).sign

/-! ## One deadline -/

variable {t t' a b : Timespec} {ms ms' : Nat}

theorem sumNsec_bounds (normal : t.Normalised) (ms : Nat) :
    0 ≤ sumNsec t ms ∧ sumNsec t ms < 2000000000 := by
  have := normal.low
  have := normal.high
  unfold sumNsec
  omega

/-- **What is computed.** -/
theorem timerAddAbstimeout_eq (addable : Addable t ms) :
    timerAddAbstimeout t ms =
      if 1000000000 < sumNsec t ms then
        ⟨t.tvSec + (ms / 1000 : Nat) + 1, sumNsec t ms - 1000000000⟩
      else ⟨t.tvSec + (ms / 1000 : Nat), sumNsec t ms⟩ := by
  obtain ⟨nonneg, bound⟩ := sumNsec_bounds addable.toNormalised ms
  obtain ⟨-, sec, fits⟩ := addable
  have seconds : int64 (t.tvSec + (ms / 1000 : Nat)) = t.tvSec + (ms / 1000 : Nat) := by
    refine int64_of_range (by omega) ?_
    split at fits <;> omega
  have nanoseconds : int64 (t.tvNsec + (ms % 1000 * 1000000 : Nat)) = sumNsec t ms := by
    show int64 (sumNsec t ms) = sumNsec t ms
    exact int64_of_range (by omega) (by omega)
  unfold timerAddAbstimeout
  rw [seconds, nanoseconds]
  dsimp only
  split
  · next carried =>
      rw [if_pos carried] at fits
      rw [int64_of_range (by omega) (by omega), int64_of_range (by omega) (by omega)]
  · rfl

/-- The instant is always right. -/
theorem nanos_timerAddAbstimeout (addable : Addable t ms) :
    (timerAddAbstimeout t ms).nanos = dueNanos t ms := by
  rw [timerAddAbstimeout_eq addable, dueNanos]
  unfold Timespec.nanos sumNsec
  split <;> dsimp only <;> omega

/-- **The normal form**, unless the nanoseconds are exactly a second. -/
theorem normalised_iff (addable : Addable t ms) :
    (timerAddAbstimeout t ms).Normalised ↔ ¬ WholeSecond t ms := by
  obtain ⟨nonneg, bound⟩ := sumNsec_bounds addable.toNormalised ms
  rw [timerAddAbstimeout_eq addable]
  unfold WholeSecond
  split
  · next carried =>
      refine iff_of_true ⟨?_, ?_⟩ ?_
      · show 0 ≤ sumNsec t ms - 1000000000
        omega
      · show sumNsec t ms - 1000000000 < 1000000000
        omega
      · omega
  · constructor
    · intro normal whole
      have high : sumNsec t ms < 1000000000 := normal.high
      omega
    · intro other
      refine ⟨nonneg, ?_⟩
      show sumNsec t ms < 1000000000
      omega

theorem deadline_timerAddAbstimeout (addable : Addable t ms) :
    (timerAddAbstimeout t ms).Deadline := by
  by_cases whole : WholeSecond t ms
  · unfold WholeSecond at whole
    rw [timerAddAbstimeout_eq addable, if_neg (by omega), whole]
    refine ⟨?_, ?_⟩
    · show (0 : Int) ≤ 1000000000
      decide
    · show (1000000000 : Int) ≤ 1000000000
      decide
  · obtain ⟨low, high⟩ := (normalised_iff addable).2 whole
    exact ⟨low, high.le⟩

/-! ## Two deadlines -/

/-- **How two deadlines compare**: as their instants, unless these are one instant in two
spellings. -/
theorem compare_eq_sign_iff (bound : a.Deadline) (bound' : b.Deadline) :
    ComparesInstants a b ↔ (a.nanos = b.nanos → a.tvNsec = b.tvNsec) := by
  obtain ⟨low, high⟩ := bound
  obtain ⟨low', high'⟩ := bound'
  unfold ComparesInstants timespecCompare Timespec.nanos
  rw [eq_comm]
  split
  · rw [Int.sign_eq_one_iff_pos]
    omega
  · split
    · rw [Int.sign_eq_neg_one_iff_neg]
      omega
    · -- the seconds are the same
      split
      · rw [Int.sign_eq_zero_iff_zero]
        omega
      · split
        · rw [Int.sign_eq_one_iff_pos]
          omega
        · rw [Int.sign_eq_neg_one_iff_neg]
          omega

/-- Two spellings of one instant differ in whether a second has been carried over. -/
theorem nsec_eq_iff (addable : Addable t ms) (addable' : Addable t' ms')
    (same : dueNanos t ms = dueNanos t' ms') :
    (timerAddAbstimeout t ms).tvNsec = (timerAddAbstimeout t' ms').tvNsec ↔
      (WholeSecond t ms ↔ WholeSecond t' ms') := by
  have full : ∀ {u : Timespec} {n : Nat}, Addable u n →
      ((timerAddAbstimeout u n).tvNsec = 1000000000 ↔ WholeSecond u n) := by
    intro u n addable
    have bound := deadline_timerAddAbstimeout addable
    rw [← not_iff_not, ← normalised_iff addable]
    constructor
    · intro other
      exact ⟨bound.low, lt_of_le_of_ne bound.high other⟩
    · intro normal
      exact normal.high.ne
  rw [← full addable, ← full addable']
  have bound := deadline_timerAddAbstimeout addable
  have bound' := deadline_timerAddAbstimeout addable'
  rw [← nanos_timerAddAbstimeout addable, ← nanos_timerAddAbstimeout addable'] at same
  obtain ⟨low, high⟩ := bound
  obtain ⟨low', high'⟩ := bound'
  unfold Timespec.nanos at same
  omega

/-- **When a deadline is what it should be, and when two of them compare as instants.** -/
theorem deadlines_iff (addable : Addable t ms) (addable' : Addable t' ms') :
    (Advanced t ms ↔ ¬ WholeSecond t ms) ∧
      (ComparesInstants (timerAddAbstimeout t ms) (timerAddAbstimeout t' ms') ↔
        (dueNanos t ms = dueNanos t' ms' → (WholeSecond t ms ↔ WholeSecond t' ms'))) := by
  refine ⟨⟨fun advanced => (normalised_iff addable).1 advanced.normalised, fun other =>
    ⟨(normalised_iff addable).2 other, nanos_timerAddAbstimeout addable⟩⟩, ?_⟩
  rw [compare_eq_sign_iff (deadline_timerAddAbstimeout addable)
    (deadline_timerAddAbstimeout addable'), nanos_timerAddAbstimeout addable,
    nanos_timerAddAbstimeout addable']
  exact forall_congr' fun same => nsec_eq_iff addable addable' same

theorem addable_late : Addable ⟨5, 999000000⟩ 1 := ⟨⟨by decide, by decide⟩, by decide, by decide⟩

theorem addable_whole : Addable ⟨6, 0⟩ 1000 := ⟨⟨by decide, by decide⟩, by decide, by decide⟩

/-- A whole second later is in the normal form. -/
theorem wholeTimeout_advanced : Advanced ⟨6, 0⟩ 1000 ∧
    ComparesInstants (timerAddAbstimeout ⟨6, 0⟩ 1000) (timerAddAbstimeout ⟨6, 0⟩ 1000) :=
  ⟨(deadlines_iff addable_whole addable_whole).1.2 (by decide),
    (deadlines_iff addable_whole addable_whole).2.2 fun _ => Iff.rfl⟩

/-- A millisecond behind 999 milliseconds is not, and comes before the same instant computed
without a timeout. -/
theorem lateTimeout_whole : (¬ ∀ t ms, Addable t ms → Advanced t ms) ∧
    timerAddAbstimeout ⟨5, 999000000⟩ 1 = ⟨5, 1000000000⟩ ∧
    dueNanos ⟨5, 999000000⟩ 1 = dueNanos ⟨6, 0⟩ 0 ∧
    timespecCompare (timerAddAbstimeout ⟨5, 999000000⟩ 1) (timerAddAbstimeout ⟨6, 0⟩ 0) = -1 := by
  refine ⟨fun all => ?_, by decide, by decide, by decide⟩
  have high := (all _ _ addable_late).normalised.high
  exact absurd high (by decide)

end ChargerStack.Utils.TimerList
