/-
# Ocpp.PromptRetries -- retries that are made in time

The delays of a call double, so the retries that can be made before the call expires are few:
the timeout of a call is an `int`, and so is the interval.

* `Prompt` is the condition on a visit: a call that is chosen for a retry has not expired at
  the time of the pass;
* `Timely` is the invariant: a call that has been retried `k` times has been waiting for the sum
  of the first `k` delays, so the next product still fits;
* `prompt_delays`: in a run of prompt passes every delay is what it should be.
-/
import ChargerStack.Ocpp.RetryDelays

namespace ChargerStack.Ocpp.Pending

open Cxx Lib

set_option autoImplicit false

variable {env : Env}

/-- A timeout is an `int`, and a call is only chosen for a retry before it expires. -/
def Prompt (s : State) : Label → Prop
  | .enter r => r.timeout < 2 ^ 31
  | .visit => ∀ now uid c todo retryList eraseList i,
      s.retry = .scanning now ((uid, c) :: todo) retryList eraseList →
      s.invocations[c]? = some i → i.call.retryDue now = true → now < i.call.expireAt
  | _ => True

/-- The time of the pass. -/
def passTime (s : State) : Option Int :=
  match s.retry with
  | .sleeping => none
  | .clocked now => some now
  | .scanning now _ _ _ => some now
  | .resending now _ => some now
  | .pushing now _ _ => some now

/-- The sum of the interval and of the delays behind the first `k` retries, up to the eighth. -/
def waited (retryInterval : Int) (k : Nat) : Int := retryInterval * (2 ^ (min k 8 + 1) - 1)

/-- No call with this deadline has begun later. -/
def begun (i : Invocation) : Int := i.call.expireAt - ms (2 ^ 31 - 1)

/-- What a call owes to the clock: before it is armed it has begun, and then its next retry is
due behind all the delays so far. -/
structure OnSchedule (env : Env) (clock : Int) (i : Invocation) : Prop where
  nonneg : 0 ≤ i.call.retryCount
  interval : i.call.retryIntervalMs = env.retryInterval
  stamped : i.caller = .stamped → i.call.retryCount = 0 ∧ begun i ≤ clock
  armed : i.caller ≠ .stamped →
    begun i + ms (waited env.retryInterval i.call.retryCount.toNat) ≤ i.call.nextRetry
  fits : Fits env.retryInterval i.call.retryCount.toNat

/-- A call that has been chosen by the pass. -/
def ChosenInTime (now : Int) (i : Invocation) : Prop :=
  i.call.nextRetry ≤ now ∧ now < i.call.expireAt

structure Timely (env : Env) (s : State) : Prop where
  calls : ∀ (c : Nat) i, s.invocations[c]? = some i → OnSchedule env s.clock i
  ready : ∀ c ∈ chosen s ++ unvisited s, ∃ i, s.invocations[c]? = some i ∧ i.caller.entered = true
  due : ∀ now, passTime s = some now → ∀ c ∈ chosen s,
    ∃ i, s.invocations[c]? = some i ∧ ChosenInTime now i

/-! ## One retry -/

variable {retryInterval : Int} {k : Nat}

/-- The next product is at most what has been waited for and one interval more. -/
theorem backoff_succ_le (nonneg : 0 ≤ retryInterval) (k : Nat) :
    backoff retryInterval (k + 1) ≤ waited retryInterval k + retryInterval := by
  unfold backoff waited
  rw [Int.mul_sub, Int.mul_one, Int.sub_add_cancel]
  apply Int.mul_le_mul_of_nonneg_left _ nonneg
  exact_mod_cast Nat.pow_le_pow_right (by decide) (by omega : min (k + 1) 8 ≤ min k 8 + 1)

/-- And what has been waited for after the retry is no more than both. -/
theorem waited_succ_le (nonneg : 0 ≤ retryInterval) (k : Nat) :
    waited retryInterval (k + 1) ≤ waited retryInterval k + backoff retryInterval (k + 1) := by
  unfold backoff waited
  by_cases few : k < 8
  · rw [Nat.min_eq_left (by omega : k + 1 ≤ 8), Nat.min_eq_left (by omega : k ≤ 8),
      ← Int.mul_add]
    apply Int.mul_le_mul_of_nonneg_left _ nonneg
    rw [pow_succ (2 : Int) (k + 1)]
    omega
  · rw [Nat.min_eq_right (by omega : 8 ≤ k + 1), Nat.min_eq_right (by omega : 8 ≤ k)]
    omega

/-- **A retry that is made before the deadline** keeps the call on its schedule. -/
theorem OnSchedule.rearm {call : PendingCall} {caller : Caller} {clock now : Int}
    (onSchedule : OnSchedule env clock ⟨call, caller⟩) (nonneg : 0 ≤ env.retryInterval)
    (int : env.retryInterval < 2 ^ 31) (armed : caller ≠ .stamped)
    (inTime : ChosenInTime now ⟨call, caller⟩) : OnSchedule env clock ⟨call.rearm now, caller⟩ := by
  obtain ⟨count, interval, -, behind, -⟩ := onSchedule
  obtain ⟨due, early⟩ := inTime
  have behind := behind armed
  unfold begun at behind
  dsimp only at count interval behind due early
  obtain ⟨k, same⟩ := Int.eq_ofNat_of_zero_le count
  rw [same, Int.toNat_natCast] at behind
  have next : (call.rearm now).retryCount = ((k + 1 : Nat) : Int) := by
    show call.retryCount + 1 = _
    rw [same]
    rfl
  -- what has been waited for is less than the longest timeout
  have short : waited env.retryInterval k < 2 ^ 31 - 1 := by
    unfold ms at behind
    omega
  have fits : Fits env.retryInterval (k + 1) := by
    have := backoff_succ_le nonneg k
    unfold Fits
    omega
  have delay : (call.rearm now).nextRetry = now + ms (backoff env.retryInterval (k + 1)) := by
    have value := (uint32_eq_iff (backoff_nonneg nonneg (k + 1))).2 fits
    rw [← value]
    show now + ms (uint32 (call.retryIntervalMs * 2 ^ min (call.retryCount + 1).toNat 8)) = _
    rw [same, interval]
    rfl
  refine ⟨?_, interval, fun stamped => absurd stamped armed, fun _ => ?_, ?_⟩
  · show 0 ≤ (call.rearm now).retryCount
    omega
  · show call.expireAt - ms (2 ^ 31 - 1) +
      ms (waited env.retryInterval (call.rearm now).retryCount.toNat) ≤ (call.rearm now).nextRetry
    have more := waited_succ_le nonneg k
    rw [next, Int.toNat_natCast, delay]
    unfold ms at behind ⊢
    omega
  · show Fits env.retryInterval (call.rearm now).retryCount.toNat
    rwa [next, Int.toNat_natCast]

/-! ## One step -/

theorem OnSchedule.later {clock clock' : Int} {i : Invocation}
    (onSchedule : OnSchedule env clock i) (le : clock ≤ clock') : OnSchedule env clock' i where
  nonneg := onSchedule.nonneg
  interval := onSchedule.interval
  stamped stamped := (onSchedule.stamped stamped).imp_right fun begun => Int.le_trans begun le
  armed := onSchedule.armed
  fits := onSchedule.fits

/-- A step of the caller, or of a reply, leaves the times of the call. -/
theorem OnSchedule.keep {clock : Int} {call call' : PendingCall} {caller caller' : Caller}
    (onSchedule : OnSchedule env clock ⟨call, caller⟩)
    (caller_iff : caller' = .stamped ↔ caller = .stamped)
    (count : call'.retryCount = call.retryCount)
    (interval : call'.retryIntervalMs = call.retryIntervalMs)
    (expireAt : call'.expireAt = call.expireAt) (nextRetry : call'.nextRetry = call.nextRetry) :
    OnSchedule env clock ⟨call', caller'⟩ where
  nonneg := by rw [count]; exact onSchedule.nonneg
  interval := by rw [interval]; exact onSchedule.interval
  stamped stamped := by
    have behind := onSchedule.stamped (caller_iff.1 stamped)
    unfold begun at behind ⊢
    rw [count, expireAt]
    exact behind
  armed armed := by
    have behind := onSchedule.armed fun stamped => armed (caller_iff.2 stamped)
    unfold begun at behind ⊢
    dsimp only at behind ⊢
    rwa [count, expireAt, nextRetry]
  fits := by rw [count]; exact onSchedule.fits

/-- `nextRetry` is set, an interval behind the time now. -/
theorem OnSchedule.arm {clock : Int} {call : PendingCall}
    (onSchedule : OnSchedule env clock ⟨call, .stamped⟩) :
    OnSchedule env clock
      ⟨{ call with nextRetry := clock + ms call.retryIntervalMs }, .armed⟩ where
  nonneg := onSchedule.nonneg
  interval := onSchedule.interval
  stamped impossible := nomatch impossible
  armed _ := by
    obtain ⟨fresh, begun_le⟩ := onSchedule.stamped rfl
    have interval := onSchedule.interval
    dsimp only at fresh interval
    show begun ⟨call, .stamped⟩ + ms (waited env.retryInterval call.retryCount.toNat) ≤
      clock + ms call.retryIntervalMs
    have first : waited env.retryInterval 0 = env.retryInterval := by simp [waited]
    rw [fresh, interval, Int.toNat_zero, first]
    omega
  fits := onSchedule.fits

theorem onSchedule_newCall {clock : Int} {r : Request} (int : env.retryInterval < 2 ^ 31)
    (timeout : r.timeout < 2 ^ 31) : OnSchedule env clock ⟨newCall env clock r, .stamped⟩ where
  nonneg := Int.le_refl 0
  interval := rfl
  stamped _ := by
    refine ⟨rfl, ?_⟩
    show clock + ms r.timeout - ms (2 ^ 31 - 1) ≤ clock
    unfold ms
    omega
  armed armed := absurd rfl armed
  fits := by
    show env.retryInterval * 2 ^ 0 < 2 ^ 32
    omega

theorem timely_idle (env : Env) (connected : Bool) (connectors : List ConnectorContext)
    (clock : Int) : Timely env (idle connected connectors clock) where
  calls := by intro c i found; simp [idle] at found
  ready := by intro c member; simp [idle, chosen, unvisited] at member
  due := by intro now pass c member; simp [idle, chosen] at member

/-- A step that leaves the calls alone, and of the lists of the pass drops at most some. -/
theorem Timely.frame {s t : State} (timely : Timely env s)
    (invocations : t.invocations = s.invocations) (clock : s.clock ≤ t.clock)
    (listed : ∀ c ∈ chosen t ++ unvisited t, c ∈ chosen s ++ unvisited s)
    (due : ∀ c ∈ chosen t, c ∈ chosen s ∧ passTime t = passTime s) : Timely env t where
  calls := by
    rw [invocations]
    exact fun c i found => (timely.calls c i found).later clock
  ready := by
    rw [invocations]
    exact fun c member => timely.ready c (listed c member)
  due := by
    rw [invocations]
    intro now pass c member
    obtain ⟨before, same⟩ := due c member
    exact timely.due now (same ▸ pass) c before

/-- A step that rewrites one call, and keeps it on its schedule and in time. -/
theorem Timely.set {s t : State} (timely : Timely env s) {c : Nat} {i j : Invocation}
    (found : s.invocations[c]? = some i) (same : t.invocations = (s.set c j).invocations)
    (clock : t.clock = s.clock) (onSchedule : OnSchedule env s.clock i → OnSchedule env s.clock j)
    (entered : i.caller.entered = true → j.caller.entered = true)
    (listed : ∀ d ∈ chosen t ++ unvisited t, d ∈ chosen s ++ unvisited s)
    (due : ∀ d ∈ chosen t, d ∈ chosen s ∧ passTime t = passTime s ∧
      (c = d → i.caller.entered = true → ∀ now, ChosenInTime now i → ChosenInTime now j)) :
    Timely env t where
  calls := by
    rw [clock]
    exact forall_set timely.calls found same onSchedule
  ready d member := exists_set (timely.ready d (listed d member)) found same fun _ => entered
  due now pass d member := by
    obtain ⟨before, samePass, keeps⟩ := due d member
    obtain ⟨k, atD, ready⟩ := timely.ready d (List.mem_append_left _ before)
    refine exists_set (timely.due now (samePass ▸ pass) d before) found same fun own => ?_
    subst own
    obtain rfl := Option.some.inj (found.symm.trans atD)
    exact keeps rfl ready now

/-- A visit that chooses a call before it expires. -/
theorem Timely.choose {s : State} (timely : Timely env s) (prompt : Prompt s .visit) {now : Int}
    {uid : String} {c : Nat} {todo : List (String × Nat)} {retryList : List Nat}
    {eraseList : List String} {call : PendingCall} {caller : Caller}
    (scanning : s.retry = .scanning now ((uid, c) :: todo) retryList eraseList)
    (found : s.invocations[c]? = some ⟨call, caller⟩) (due : call.retryDue now = true) :
    Timely env { s with retry := .scanning now todo (retryList ++ [c]) eraseList } where
  calls := timely.calls
  ready d member := by
    refine timely.ready d ?_
    simp only [chosen, unvisited, scanning, List.map_cons] at member ⊢
    rwa [List.append_assoc] at member
  due now' pass d member := by
    obtain rfl : now = now' := Option.some.inj pass
    rcases List.mem_append.1 member with old | new
    · exact timely.due now (by simp [passTime, scanning]) d (by simpa [chosen, scanning] using old)
    · obtain rfl := List.mem_singleton.1 new
      have early := prompt now uid d todo retryList eraseList _ scanning found due
      simp only [PendingCall.retryDue, Bool.and_eq_true, decide_eq_true_eq] at due
      exact ⟨_, found, due.1.2, early⟩

/-- What is left of the lists once the visited call is dropped from them. -/
theorem listed_of_visited {s t : State} {now : Int} {entry : String × Nat}
    {todo : List (String × Nat)} {retryList : List Nat} {eraseList eraseList' : List String}
    (before : s.retry = .scanning now (entry :: todo) retryList eraseList)
    (after : t.retry = .scanning now todo retryList eraseList') :
    ∀ d ∈ chosen t ++ unvisited t, d ∈ chosen s ++ unvisited s := by
  intro d member
  simp only [chosen, unvisited, before, after, List.map_cons, List.mem_append,
    List.mem_cons] at member ⊢
  exact member.imp_right .inr

/-- The turn of a chosen call. -/
theorem Timely.rearm {s : State} (timely : Timely env s) (selected : Selected s)
    (nonneg : 0 ≤ env.retryInterval) (int : env.retryInterval < 2 ^ 31) {now : Int} {c : Nat}
    {todo : List Nat} {call : PendingCall} {caller : Caller}
    (resending : s.retry = .resending now (c :: todo))
    (found : s.invocations[c]? = some ⟨call, caller⟩) :
    Timely env { s.set c ⟨call.rearm now, caller⟩ with retry := .pushing now c todo } := by
  have once := selected.once
  simp only [chosen, unvisited, resending, List.append_nil, List.nodup_cons] at once
  have first : c ∈ chosen s := by simp [chosen, resending]
  obtain ⟨i, atC, entered⟩ := timely.ready c (List.mem_append_left _ first)
  obtain rfl := Option.some.inj (found.symm.trans atC)
  obtain ⟨i, atC', inTime⟩ := timely.due now (by simp [passTime, resending]) c first
  obtain rfl := Option.some.inj (found.symm.trans atC')
  have armed : caller ≠ .stamped := by
    rintro rfl
    cases entered
  refine timely.set found rfl rfl (fun onSchedule => onSchedule.rearm nonneg int armed inTime) id
    ?_ fun d member => ⟨?_, ?_, ?_⟩
  · intro d member
    have member : d ∈ todo ++ [] := member
    simp only [chosen, unvisited, resending]
    exact List.mem_append_left _ (List.mem_cons_of_mem c (by simpa using member))
  · have member : d ∈ todo := member
    simp [chosen, resending, member]
  · simp [passTime, resending]
  · -- the calls behind it are others
    rintro rfl
    exact absurd member once.1

/-- **One step keeps the calls on their schedule**, when a call is chosen only before it
expires. -/
theorem Timely.step {s t : State} {l : Label} (timely : Timely env s) (selected : Selected s)
    (nonneg : 0 ≤ env.retryInterval) (int : env.retryInterval < 2 ^ 31) (prompt : Prompt s l)
    (moved : step env s l = some t) : Timely env t := by
  cases step_moves moved with
  | enter r fresh =>
      refine ⟨?_, ?_, ?_⟩
      · intro c i found
        rcases getElem?_snoc found with old | ⟨-, rfl⟩
        · exact timely.calls c i old
        · exact onSchedule_newCall int prompt
      · intro c member
        obtain ⟨i, found, entered⟩ := timely.ready c member
        exact ⟨i, getElem?_old found, entered⟩
      · intro now pass c member
        obtain ⟨i, found, inTime⟩ := timely.due now pass c member
        exact ⟨i, getElem?_old found, inTime⟩
  | arm found =>
      exact timely.set found rfl rfl OnSchedule.arm (fun impossible => nomatch impossible)
        (fun _ member => member) fun _ member => ⟨member, rfl, fun _ impossible => nomatch impossible⟩
  | publish found | push found | answered found | refused found =>
      exact timely.set found rfl rfl (fun onSchedule => onSchedule.keep (by simp) rfl rfl rfl rfl)
        (fun _ => rfl) (fun _ member => member) fun _ member => ⟨member, rfl, fun _ _ _ => id⟩
  | complete handling found =>
      exact timely.set found rfl rfl (fun onSchedule => onSchedule.keep Iff.rfl rfl rfl rfl rfl) id
        (fun _ member => member) fun _ member => ⟨member, rfl, fun _ _ _ => id⟩
  | visitExpired scanning found =>
      refine timely.set found rfl rfl (fun onSchedule => onSchedule.keep Iff.rfl rfl rfl rfl rfl) id
        (listed_of_visited scanning rfl) fun _ member => ⟨?_, ?_, fun _ _ _ => id⟩
      · simpa [chosen, scanning] using member
      · simp [passTime, scanning]
  | visitRetry scanning found unfinished due => exact timely.choose prompt scanning found due
  | recheck resending found => exact timely.rearm selected nonneg int resending found
  | passStart | passEnd =>
      exact timely.frame rfl (Int.le_refl _) (by simp [chosen, unvisited]) (by simp [chosen])
  | @passLock now order clocked perm =>
      refine ⟨timely.calls, ?_, ?_⟩
      · intro c member
        refine selected.entered c ?_
        have member : c ∈ order.map Prod.snd := member
        exact (perm.map Prod.snd).mem_iff.1 member
      · intro now' pass c member
        cases member
  | visitFinished scanning | visitKept scanning =>
      exact timely.frame rfl (Int.le_refl _) (listed_of_visited scanning rfl)
        (by simp [chosen, passTime, scanning])
  | passErase scanning =>
      exact timely.frame rfl (Int.le_refl _) (by simp [chosen, unvisited, scanning])
        (by simp [chosen, passTime, scanning])
  | recheckFinished resending =>
      exact timely.frame rfl (Int.le_refl _) (by simp +contextual [chosen, unvisited, resending])
        (by simp +contextual [chosen, passTime, resending])
  | repush pushing | repushNowhere pushing =>
      exact timely.frame rfl (Int.le_refl _) (by simp [chosen, unvisited, pushing])
        (by simp [chosen, passTime, pushing])
  | tick d =>
      exact timely.frame rfl (Int.le_add_of_nonneg_right (Int.natCast_nonneg d))
        (fun _ member => member) fun _ member => ⟨member, rfl⟩
  | _ =>
      exact timely.frame rfl (Int.le_refl _) (fun _ member => member) fun _ member => ⟨member, rfl⟩

/-! ## Prompt runs -/

/-- **A retry in time waits as long as it should**: in a run of prompt passes, the delays of
every call are the doubled intervals, and never decrease. -/
theorem prompt_delays {connected : Bool} {connectors : List ConnectorContext} {clock : Int}
    {ls : List Label} {t : State} (nonneg : 0 ≤ env.retryInterval)
    (int : env.retryInterval < 2 ^ 31)
    (prompt : Along (Pending.step env) Prompt (idle connected connectors clock) ls)
    (ran : exec (Pending.step env) (idle connected connectors clock) ls = some t) (c : Nat) :
    let own := delays c (retries env connected connectors clock ls)
    own = backoffs env.retryInterval own.length ∧ own.Pairwise (· ≤ ·) := by
  intro own
  have kept : ∀ s l u, Prompt s l → Selected s ∧ Timely env s → Pending.step env s l = some u →
      Selected u ∧ Timely env u :=
    fun s l u prompt inv moved => ⟨inv.1.step moved, inv.2.step inv.1 nonneg int prompt moved⟩
  have inv : Selected t ∧ Timely env t := exec_invariant_along kept prompt
    ⟨selected_idle connected connectors clock, timely_idle env connected connectors clock⟩ ran
  obtain ⟨counts, same, told⟩ := counted_run ran
  have seen : own = scheduled env.retryInterval (counts.getD c 0) := told c
  have fits : Fits env.retryInterval (counts.getD c 0) := by
    cases atC : counts[c]? with
    | none =>
        show env.retryInterval * 2 ^ min (counts[c]?.getD 0) 8 < 2 ^ 32
        rw [atC]
        show env.retryInterval * 2 ^ 0 < 2 ^ 32
        omega
    | some n =>
        have pair : (paces t)[c]? = some ((n : Int), env.retryInterval) := by
          rw [same, List.getElem?_map, atC]
          rfl
        obtain ⟨i, found, paced⟩ := Option.map_eq_some_iff.1 (List.getElem?_map .. ▸ pair)
        have count : i.call.retryCount = n := congrArg Prod.fst paced
        have fits := (inv.2.calls c i found).fits
        rw [count, Int.toNat_natCast] at fits
        simpa [List.getD, atC] using fits
  rw [seen, length_scheduled]
  exact ⟨(scheduled_eq_iff nonneg int).2 fits, (pairwise_scheduled_iff nonneg int).2 fits⟩

end ChargerStack.Ocpp.Pending
