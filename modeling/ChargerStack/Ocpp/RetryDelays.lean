/-
# Ocpp.RetryDelays -- how long `retryTimeoutThread` waits between two retries

After each retry of a call the interval is doubled, up to eight times.  The product is formed
in 32 bits before it becomes a duration.

* `retried` shows each retry and the delay scheduled after it, and `step_paces` is what one
  step does to the counts: a retry adds one to one call's, and no other step changes any;
* `delays_eq`: the delays of a call over a run, one for each of its retries;
* `retry_delays_iff`: they are the doubled intervals, and never decrease, exactly when the last
  of them fits into 32 bits.
-/
import ChargerStack.Ocpp.PendingPushes

namespace ChargerStack.Ocpp.Pending

open Cxx Lib

set_option autoImplicit false

variable {env : Env}

/-! ## Retries -/

/-- A retry of the call `ref`, and the time from the pass that makes it to the next. -/
structure Retry where
  ref : Nat
  delay : Int
  deriving DecidableEq, Repr

/-- The retry that a step makes. -/
def retried (s : State) : Label → Option Retry
  | .recheck =>
      match s.retry with
      | .resending now (c :: _) =>
          match s.invocations[c]? with
          | some i =>
              if i.call.finished then none else some ⟨c, (i.call.rearm now).nextRetry - now⟩
          | none => none
      | _ => none
  | _ => none

/-- The delays of a call, in order. -/
def delays (c : Nat) (h : List Retry) : List Int := (h.filter (·.ref = c)).map (·.delay)

/-- After the `k`-th retry the interval has been doubled `k` times, and at most eight. -/
def backoff (retryInterval : Int) (k : Nat) : Int := retryInterval * 2 ^ min k 8

/-- The delays of `n` retries as they should be. -/
def backoffs (retryInterval : Int) (n : Nat) : List Int :=
  (List.range n).map fun k => ms (backoff retryInterval (k + 1))

/-- The delays of `n` retries as they are. -/
def scheduled (retryInterval : Int) (n : Nat) : List Int :=
  (List.range n).map fun k => ms (uint32 (backoff retryInterval (k + 1)))

/-! ## Counting retries -/

/-- The retries of a call so far, and its interval. -/
def pace (i : Invocation) : Int × Int := (i.call.retryCount, i.call.retryIntervalMs)

def paces (s : State) : List (Int × Int) := s.invocations.map pace

theorem paces_set {s : State} {c : Nat} {i j : Invocation} (found : s.invocations[c]? = some i)
    (same : pace j = pace i) : paces (s.set c j) = paces s := by
  obtain ⟨bound, rfl⟩ := List.getElem?_eq_some_iff.1 found
  show (s.invocations.set c j).map pace = s.invocations.map pace
  rw [List.map_set, same, ← List.map_set, List.set_getElem_self]

/-- **What a step does to the counts**: nothing, or it adds a call without retries; or it makes
a retry, and counts it. -/
theorem step_paces {s t : State} {l : Label} (moved : step env s l = some t) :
    retried s l = none ∧ (paces t = paces s ∨ paces t = paces s ++ [(0, env.retryInterval)]) ∨
      ∃ c k interval, (paces s)[c]? = some (k, interval) ∧
        retried s l = some ⟨c, ms (uint32 (backoff interval (k + 1).toNat))⟩ ∧
        paces t = (paces s).set c (k + 1, interval) := by
  cases step_moves moved with
  | enter r fresh =>
      refine .inl ⟨rfl, .inr ?_⟩
      show (s.invocations ++ _).map pace = _
      rw [List.map_append]
      rfl
  | arm found => exact .inl ⟨rfl, .inl (paces_set found rfl)⟩
  | publish found => exact .inl ⟨rfl, .inl (paces_set found rfl)⟩
  | push found => exact .inl ⟨rfl, .inl (paces_set found rfl)⟩
  | answered found => exact .inl ⟨rfl, .inl (paces_set found rfl)⟩
  | refused found => exact .inl ⟨rfl, .inl (paces_set found rfl)⟩
  | complete handling found => exact .inl ⟨rfl, .inl (paces_set found rfl)⟩
  | visitExpired scanning found => exact .inl ⟨rfl, .inl (paces_set found rfl)⟩
  | @recheckFinished now c todo resending =>
      refine .inl ⟨?_, .inl rfl⟩
      simp only [step, resending] at moved
      cases found : s.invocations[c]? with
      | none => simp [retried, resending, found]
      | some i =>
          by_cases finished : i.call.finished = true
          · simp [retried, resending, found, finished]
          · simp [found, finished] at moved
  | @recheck now c todo call caller resending found unfinished =>
      refine .inr ⟨c, call.retryCount, call.retryIntervalMs, ?_, ?_, ?_⟩
      · rw [paces, List.getElem?_map, found]
        rfl
      · simp only [retried, resending, found, unfinished, Bool.false_eq_true, if_false,
          PendingCall.rearm, backoff]
        congr 2
        omega
      · show (s.invocations.set c _).map pace = _
        rw [List.map_set]
        rfl
  | _ => exact .inl ⟨rfl, .inl rfl⟩

/-! ## The delays of a run -/

theorem delays_snoc (c : Nat) (h : List Retry) (r : Retry) :
    delays c (h ++ [r]) = delays c h ++ if r.ref = c then [r.delay] else [] := by
  unfold delays
  rw [List.filter_append, List.map_append]
  by_cases own : r.ref = c <;> simp [own]

theorem scheduled_succ (retryInterval : Int) (n : Nat) :
    scheduled retryInterval (n + 1) =
      scheduled retryInterval n ++ [ms (uint32 (backoff retryInterval (n + 1)))] := by
  simp [scheduled, List.range_succ]

theorem length_scheduled (retryInterval : Int) (n : Nat) :
    (scheduled retryInterval n).length = n := by
  simp [scheduled]

/-- The calls with their retries so far, and what has been shown of them. -/
def Counted (env : Env) (h : List Retry) (s : State) : Prop :=
  ∃ counts : List Nat, paces s = counts.map (fun n : Nat => ((n : Int), env.retryInterval)) ∧
    ∀ c, delays c h = scheduled env.retryInterval (counts.getD c 0)

theorem counted_idle (env : Env) (connected : Bool) (connectors : List ConnectorContext)
    (clock : Int) : Counted env [] (idle connected connectors clock) :=
  ⟨[], rfl, fun _ => rfl⟩

/-- **One step keeps the count.** -/
theorem Counted.step {h : List Retry} {s t : State} {l : Label} (counted : Counted env h s)
    (moved : step env s l = some t) : Counted env (h ++ (retried s l).toList) t := by
  obtain ⟨counts, same, told⟩ := counted
  rcases step_paces moved with ⟨quiet, kept | entered⟩ | ⟨c, k, interval, found, shown, counted⟩
  · rw [quiet, Option.toList_none, List.append_nil]
    exact ⟨counts, kept.trans same, told⟩
  · rw [quiet, Option.toList_none, List.append_nil]
    refine ⟨counts ++ [0], ?_, fun c => ?_⟩
    · rw [entered, same, List.map_append]
      rfl
    · rw [told c]
      congr 1
      by_cases old : c < counts.length
      · simp [List.getD, List.getElem?_append_left old]
      · have beyond : counts.getD c 0 = 0 := by simp [List.getD, Nat.le_of_not_lt old]
        rw [beyond]
        rcases Nat.eq_or_lt_of_le (Nat.le_of_not_lt old) with rfl | later
        · simp [List.getD]
        · simp [List.getD, List.getElem?_append, Nat.not_lt_of_lt later, Nat.sub_ne_zero_of_lt later]
  · rw [same, List.getElem?_map] at found
    obtain ⟨n, atC, pair⟩ := Option.map_eq_some_iff.1 found
    obtain ⟨rfl, rfl⟩ := Prod.mk.inj pair
    obtain ⟨bound, -⟩ := List.getElem?_eq_some_iff.1 atC
    rw [shown, Option.toList_some]
    refine ⟨counts.set c (n + 1), ?_, fun d => ?_⟩
    · rw [counted, same, List.map_set]
      simp
    · rw [delays_snoc, told d]
      by_cases own : c = d
      · subst own
        have before : counts.getD c 0 = n := by simp [List.getD, atC]
        have after : (counts.set c (n + 1)).getD c 0 = n + 1 := by
          simp [List.getD, List.getElem?_set_self bound]
        rw [if_pos rfl, before, after, scheduled_succ]
        simp
      · rw [if_neg own, List.append_nil]
        simp [List.getD, List.getElem?_set_ne own]

/-- The retries a run shows. -/
def retries (env : Env) (connected : Bool) (connectors : List ConnectorContext) (clock : Int)
    (ls : List Label) : List Retry :=
  observe (Pending.step env) retried (idle connected connectors clock) ls

section Runs

variable {connected : Bool} {connectors : List ConnectorContext} {clock : Int} {ls : List Label}
  {t : State}

theorem counted_run
    (ran : exec (Pending.step env) (idle connected connectors clock) ls = some t) :
    Counted env (retries env connected connectors clock ls) t := by
  have counted : Counted env ([] ++ retries env connected connectors clock ls) t :=
    exec_history (C := fun _ _ => True) (fun h s l t _ counted moved => counted.step moved)
      (along_of_labels (fun _ _ _ => trivial) _) (counted_idle env connected connectors clock) ran
  rwa [List.nil_append] at counted

/-- **The delays of a call over a run.** -/
theorem delays_eq (ran : exec (Pending.step env) (idle connected connectors clock) ls = some t)
    (c : Nat) : delays c (retries env connected connectors clock ls) =
      scheduled env.retryInterval (delays c (retries env connected connectors clock ls)).length := by
  obtain ⟨counts, -, told⟩ := counted_run ran
  rw [told c, length_scheduled]

end Runs

/-! ## When the product fits -/

/-- The interval, doubled for `n` retries, is an `unsigned int`. -/
def Fits (retryInterval : Int) (n : Nat) : Prop := backoff retryInterval n < 2 ^ 32

instance (retryInterval : Int) (n : Nat) : Decidable (Fits retryInterval n) :=
  inferInstanceAs (Decidable (_ < _))

variable {retryInterval : Int} {m n : Nat}

theorem backoff_nonneg (nonneg : 0 ≤ retryInterval) (n : Nat) : 0 ≤ backoff retryInterval n :=
  Int.mul_nonneg nonneg (Int.pow_nonneg (by decide))

theorem backoff_mono (nonneg : 0 ≤ retryInterval) (le : m ≤ n) :
    backoff retryInterval m ≤ backoff retryInterval n := by
  apply Int.mul_le_mul_of_nonneg_left _ nonneg
  exact_mod_cast Nat.pow_le_pow_right (by decide) (by omega : min m 8 ≤ min n 8)

theorem backoff_succ (few : n < 8) : backoff retryInterval (n + 1) = 2 * backoff retryInterval n := by
  unfold backoff
  rw [Nat.min_eq_left (by omega), Nat.min_eq_left (by omega), pow_succ, ← Int.mul_assoc,
    Int.mul_comm]

theorem uint32_eq_iff {x : Int} (nonneg : 0 ≤ x) : (uint32 x : Int) = x ↔ x < 2 ^ 32 := by
  unfold uint32
  omega

theorem ms_le_iff {x y : Int} : ms x ≤ ms y ↔ x ≤ y := by
  unfold ms
  omega

/-- **The delays are right** when the last product fits. -/
theorem scheduled_eq_iff (nonneg : 0 ≤ retryInterval) (int : retryInterval < 2 ^ 31) :
    scheduled retryInterval n = backoffs retryInterval n ↔ Fits retryInterval n := by
  constructor
  · intro same
    cases n with
    | zero =>
        show retryInterval * 2 ^ 0 < 2 ^ 32
        omega
    | succ n =>
        have last := List.map_inj_left.1 same n (List.mem_range.2 (Nat.lt_succ_self n))
        have value : (uint32 (backoff retryInterval (n + 1)) : Int) =
            backoff retryInterval (n + 1) := by
          unfold ms at last
          omega
        exact (uint32_eq_iff (backoff_nonneg nonneg _)).1 value
  · intro fits
    refine List.map_congr_left fun k inside => ?_
    have small : backoff retryInterval (k + 1) < 2 ^ 32 :=
      Int.lt_of_le_of_lt (backoff_mono nonneg (List.mem_range.1 inside)) fits
    rw [(uint32_eq_iff (backoff_nonneg nonneg _)).2 small]

/-- The first product that does not fit leaves less than the one before it. -/
theorem uint32_double_lt {x : Int} (nonneg : 0 ≤ x) (fits : x < 2 ^ 32) (wraps : ¬ 2 * x < 2 ^ 32) :
    uint32 (2 * x) < uint32 x := by
  unfold uint32
  omega

theorem exists_shorter (nonneg : 0 ≤ retryInterval) (int : retryInterval < 2 ^ 31)
    (wraps : ¬ Fits retryInterval n) :
    ∃ k, k + 2 ≤ n ∧ uint32 (backoff retryInterval (k + 2)) <
      uint32 (backoff retryInterval (k + 1)) := by
  induction n with
  | zero =>
      have one : Fits retryInterval 0 := by
        show retryInterval * 2 ^ 0 < 2 ^ 32
        omega
      exact absurd one wraps
  | succ n ih =>
      by_cases before : Fits retryInterval n
      · -- the step from `n` to `n + 1` is a doubling, and not the first
        have few : n < 8 := by
          by_contra many
          refine wraps ?_
          unfold Fits backoff at before ⊢
          rwa [Nat.min_eq_right (by omega)] at before ⊢
        cases n with
        | zero =>
            have two : Fits retryInterval 1 := by
              show retryInterval * 2 ^ 1 < 2 ^ 32
              omega
            exact absurd two wraps
        | succ k =>
            refine ⟨k, Nat.le_refl _, ?_⟩
            unfold Fits at before wraps
            rw [backoff_succ few] at wraps ⊢
            exact uint32_double_lt (backoff_nonneg nonneg _) before wraps
      · obtain ⟨k, le, shorter⟩ := ih before
        exact ⟨k, Nat.le_succ_of_le le, shorter⟩

/-- **The delays never decrease** under the same condition. -/
theorem pairwise_scheduled_iff (nonneg : 0 ≤ retryInterval) (int : retryInterval < 2 ^ 31) :
    (scheduled retryInterval n).Pairwise (· ≤ ·) ↔ Fits retryInterval n := by
  constructor
  · intro sorted
    by_contra wraps
    obtain ⟨k, inside, shorter⟩ := exists_shorter nonneg int wraps
    unfold scheduled at sorted
    rw [List.pairwise_map] at sorted
    have before := List.pairwise_iff_getElem.1 sorted k (k + 1) (by simp; omega) (by simp; omega)
      (Nat.lt_succ_self k)
    rw [List.getElem_range, List.getElem_range, ms_le_iff, Int.ofNat_le] at before
    exact Nat.lt_irrefl _ (Nat.lt_of_lt_of_le shorter before)
  · intro fits
    rw [(scheduled_eq_iff nonneg int).2 fits]
    unfold backoffs
    rw [List.pairwise_map]
    refine List.pairwise_lt_range.imp fun {a b} less => ?_
    rw [ms_le_iff]
    exact backoff_mono nonneg (by omega)

/-- **When the delays of a call are what they should be**: exactly when the interval, doubled
for each of its retries, is an `unsigned int`; and exactly then they never decrease. -/
theorem retry_delays_iff {connected : Bool} {connectors : List ConnectorContext} {clock : Int}
    {ls : List Label} {t : State} (nonneg : 0 ≤ env.retryInterval)
    (int : env.retryInterval < 2 ^ 31)
    (ran : exec (Pending.step env) (idle connected connectors clock) ls = some t) (c : Nat) :
    let own := delays c (retries env connected connectors clock ls)
    (own = backoffs env.retryInterval own.length ↔ Fits env.retryInterval own.length) ∧
      (own.Pairwise (· ≤ ·) ↔ Fits env.retryInterval own.length) := by
  intro own
  have seen : own = scheduled env.retryInterval own.length := delays_eq ran c
  refine ⟨?_, ?_⟩
  · rw [← scheduled_eq_iff nonneg int, ← seen]
  · rw [← pairwise_scheduled_iff nonneg int, ← seen]

/-- One retry of a call with an interval of a second. -/
theorem resent_delays :
    let own := delays 0 (retries startEnv true [{}] 0 (startCall ++ timeOut ++ resendPass))
    own = [2000000000] ∧ own = backoffs 1000 own.length ∧ own.Pairwise (· ≤ ·) := by
  intro own
  have ran : exec (step startEnv) (idle true [{}] 0) (startCall ++ timeOut ++ resendPass) =
    some _ := rfl
  have seen : own = [2000000000] := by decide +kernel
  have fits : Fits startEnv.retryInterval own.length := by
    rw [seen]
    decide
  exact ⟨seen, (retry_delays_iff (by decide) (by decide) ran 0).1.2 fits,
    (retry_delays_iff (by decide) (by decide) ran 0).2.2 fits⟩

/-- An interval of 2^30 milliseconds. -/
def slowEnv : Env := { startEnv with retryInterval := 1073741824 }

/-- The call is retried once its interval has passed, and again when twice that has. -/
def retriedTwice : List Label :=
  [.enter ⟨"a", "StartTransaction", .object [], 0, true, 2147483647⟩, .arm 0, .publish 0, .push 0,
    .tick 1073741824000000] ++ resendPass ++ [.passEnd, .tick 2147483648000000] ++ resendPass

/-- Behind the second retry the third follows at once. -/
theorem second_delay_wraps :
    (∃ t, exec (step slowEnv) (idle true [{}] 0) retriedTwice = some t) ∧
      delays 0 (retries slowEnv true [{}] 0 retriedTwice) = [2147483648000000, 0] ∧
      backoffs slowEnv.retryInterval 2 = [2147483648000000, 4294967296000000] ∧
      ¬ (delays 0 (retries slowEnv true [{}] 0 retriedTwice)).Pairwise (· ≤ ·) := by
  have seen : delays 0 (retries slowEnv true [{}] 0 retriedTwice) = [2147483648000000, 0] := by
    decide +kernel
  refine ⟨⟨_, rfl⟩, seen, by decide, ?_⟩
  rw [seen]
  decide

end ChargerStack.Ocpp.Pending
