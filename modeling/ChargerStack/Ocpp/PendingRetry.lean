/-
# Ocpp.PendingRetry -- re-sends against returned callers

A pass of `retryTimeoutThread` asks whether a call is due for a re-send before it
asks whether the call has expired, and a caller that times out leaves its entry in
`m_pending`.  So a transaction call with attempts left is re-sent after its caller
has been told that it failed.  The other way into the same fault is the window
between the pass that selects a call and the push that re-sends it.

* `OnTime` is the condition on one step: a visit selects no call whose deadline has
  passed, no deadline passes while its call is selected, and no reply completes the
  call the retry thread is about to push;
* `InTime` is the invariant these steps keep;
* `no_push_after_return`: in a run of such steps no frame is queued after its
  caller returned;
* `expired_call_is_resent`: a run of eleven steps in which one is.
-/
import ChargerStack.Ocpp.Pending

namespace ChargerStack.Ocpp.Pending

open Cxx Rapidjson Lib

set_option autoImplicit false

variable {env : Env}

/-! ## Pushes -/

/-- The call whose frame a step puts into a connector queue. -/
def pushes (s : State) : Label → Option Nat
  | .push c =>
      match s.invocations[c]? with
      | some ⟨_, .published⟩ => some c
      | _ => none
  | .repush =>
      match s.retry with
      | .pushing _ c _ => some c
      | _ => none
  | _ => none

def Returned (s : State) (c : Nat) : Prop :=
  ∃ i rsp, s.invocations[c]? = some i ∧ i.caller = .returned rsp

/-- The frames waiting at connector `k`. -/
def waiting (s : State) (k : Nat) : List String :=
  (s.connectors[k]?.map ConnectorContext.frames).getD []

theorem mem_waiting_enqueue {s : State} {connId k : Nat} {isTx : Bool} {raw text : String}
    (queued : text ∈ waiting (s.enqueue connId isTx raw) k) :
    text ∈ waiting s k ∨ text = raw := by
  simp only [waiting, State.enqueue, List.getElem?_modify] at queued ⊢
  cases here : s.connectors[k]? with
  | none => simp [here] at queued
  | some ctx =>
      by_cases same : connId = k
      · simpa [here, same, ConnectorContext.mem_frames_push] using queued
      · exact .inl (by simpa [here, same] using queued)

/-- A frame that is new in a queue is the frame of the call `pushes` names. -/
theorem mem_waiting_step {s t : State} {l : Label} {k : Nat} {text : String}
    (moved : step env s l = some t) (queued : text ∈ waiting t k) :
    text ∈ waiting s k ∨
      ∃ c i, pushes s l = some c ∧ s.invocations[c]? = some i ∧ text = i.call.raw := by
  cases step_moves moved with
  | push found =>
      rcases mem_waiting_enqueue queued with old | rfl
      · exact .inl old
      · exact .inr ⟨_, _, by simp [pushes, found], found, rfl⟩
  | repush pushing found =>
      rcases mem_waiting_enqueue (s := s) queued with old | rfl
      · exact .inl old
      · exact .inr ⟨_, _, by simp [pushes, pushing], found, rfl⟩
  | @send connId ctx rest msg found popped =>
      left
      by_cases same : connId = k
      · subst same
        obtain ⟨bound, -⟩ := List.getElem?_eq_some_iff.1 found
        simp only [waiting, List.getElem?_set_self bound, found, Option.map_some,
          Option.getD_some] at queued ⊢
        exact ConnectorContext.mem_frames_of_pop popped queued
      · simpa [waiting, List.getElem?_set_ne same] using queued
  | _ => exact .inl queued

/-! ## The condition and the invariant -/

/-- The calls the retry thread has selected and not yet pushed. -/
def hands (s : State) : List Nat :=
  match s.retry with
  | .scanning _ _ retryList _ => retryList
  | .resending _ todo => todo
  | .pushing _ c todo => c :: todo
  | _ => []

/-- The condition on one step, at the state before it. -/
def OnTime (s : State) : Label → Prop
  | .visit => ∀ now uid c todo retryList eraseList i,
      s.retry = .scanning now ((uid, c) :: todo) retryList eraseList →
      s.invocations[c]? = some i → i.call.finished = false → i.call.retryDue now = true →
      s.clock < i.call.expireAt
  | .tick d => ∀ c ∈ hands s, ∀ i, s.invocations[c]? = some i → i.call.finished = false →
      s.clock + d < i.call.expireAt
  | .complete n => ∀ h, s.handlers[n]? = some h → ∀ now todo, s.retry ≠ .pushing now h.ref todo
  | _ => True

/-- A caller that has returned had a reason to. -/
def GaveUp (clock : Int) (i : Invocation) : Prop :=
  ∀ rsp, i.caller = .returned rsp → i.call.finished = true ∨ i.call.expireAt ≤ clock

/-- A caller that gave up has reached its deadline, a selected call has not, and
the call about to be pushed is unfinished. -/
structure InTime (s : State) : Prop where
  gaveUp : ∀ (c : Nat) i, s.invocations[c]? = some i → GaveUp s.clock i
  selected : ∀ c ∈ hands s, ∃ i, s.invocations[c]? = some i ∧
    (i.call.finished = true ∨ s.clock < i.call.expireAt)
  pushing : ∀ now c todo, s.retry = .pushing now c todo →
    ∃ i, s.invocations[c]? = some i ∧ i.call.finished = false

theorem inTime_idle (connected : Bool) (connectors : List ConnectorContext) (clock : Int) :
    InTime (idle connected connectors clock) where
  gaveUp := by intro c i found; simp [idle] at found
  selected := by intro c member; simp [idle, hands] at member
  pushing := by intro now c todo impossible; simp [idle] at impossible

theorem selected_later {s t : State} (later : Later s t) (clock : t.clock = s.clock) {c : Nat}
    (before : ∃ i, s.invocations[c]? = some i ∧
      (i.call.finished = true ∨ s.clock < i.call.expireAt)) :
    ∃ i, t.invocations[c]? = some i ∧ (i.call.finished = true ∨ t.clock < i.call.expireAt) := by
  obtain ⟨i, found, early⟩ := before
  obtain ⟨j, found', follows⟩ := later c i found
  refine ⟨j, found', ?_⟩
  rcases early with finished | early
  · exact .inl (follows.settled finished).1
  · exact .inr (by rw [clock, follows.expireAt]; exact early)

theorem gaveUp_step {s t : State} {l : Label} (moved : step env s l = some t)
    (before : ∀ (c : Nat) i, s.invocations[c]? = some i → GaveUp s.clock i) :
    ∀ (c : Nat) i, t.invocations[c]? = some i → GaveUp t.clock i := by
  cases step_moves moved with
  | enter r fresh =>
      intro c i found
      rcases getElem?_snoc found with old | ⟨-, rfl⟩
      · exact before c i old
      · exact fun _ impossible => nomatch impossible
  | arm found => exact forall_set before found rfl fun _ _ impossible => nomatch impossible
  | publish found => exact forall_set before found rfl fun _ _ impossible => nomatch impossible
  | push found => exact forall_set before found rfl fun _ _ impossible => nomatch impossible
  | answered found finished => exact forall_set before found rfl fun _ _ _ => .inl finished
  | refused found ended => exact forall_set before found rfl fun _ _ _ => ended
  | complete handling found => exact forall_set before found rfl fun _ _ _ => .inl rfl
  | visitExpired scanning found => exact forall_set before found rfl fun _ _ _ => .inl rfl
  | recheck resending found => exact forall_set before found rfl fun old => old
  | tick d =>
      intro c i found rsp returned
      exact (before c i found rsp returned).imp id fun passed =>
        Int.le_trans passed (Int.le_add_of_nonneg_right (Int.natCast_nonneg d))
  | _ => exact before

/-- A call gets into the hands of the retry thread by the re-send branch of a visit. -/
theorem mem_hands_step {s t : State} {l : Label} (moved : step env s l = some t) {c : Nat}
    (member : c ∈ hands t) :
    c ∈ hands s ∨ l = .visit ∧ ∃ now uid todo retryList eraseList i,
      s.retry = .scanning now ((uid, c) :: todo) retryList eraseList ∧
      s.invocations[c]? = some i ∧ i.call.finished = false ∧ i.call.retryDue now = true := by
  cases step_moves moved with
  | visitRetry scanning found unfinished due =>
      rcases List.mem_append.1 member with old | new
      · exact .inl (by simpa [hands, scanning] using old)
      · obtain rfl := List.mem_singleton.1 new
        exact .inr ⟨rfl, _, _, _, _, _, _, scanning, found, unfinished, due⟩
  | passStart => cases member
  | passLock => cases member
  | visitFinished scanning => exact .inl (by simpa [hands, scanning] using member)
  | visitExpired scanning => exact .inl (by simpa [hands, scanning] using member)
  | visitKept scanning => exact .inl (by simpa [hands, scanning] using member)
  | passErase scanning => exact .inl (by simpa [hands, scanning] using member)
  | recheckFinished resending =>
      exact .inl (by simpa [hands, resending] using List.mem_cons_of_mem _ member)
  | recheck resending => exact .inl (by simpa [hands, resending] using member)
  | repush pushing => exact .inl (by simpa [hands, pushing] using List.mem_cons_of_mem _ member)
  | repushNowhere pushing =>
      exact .inl (by simpa [hands, pushing] using List.mem_cons_of_mem _ member)
  | passEnd => cases member
  | _ => exact .inl member

theorem selected_step {s t : State} {l : Label} (timely : OnTime s l) (inTime : InTime s)
    (moved : step env s l = some t) :
    ∀ c ∈ hands t, ∃ i, t.invocations[c]? = some i ∧
      (i.call.finished = true ∨ t.clock < i.call.expireAt) := by
  intro c member
  by_cases ticks : ∃ d, l = .tick d
  · obtain ⟨d, rfl⟩ := ticks
    cases moved
    obtain ⟨i, found, -⟩ := inTime.selected c member
    refine ⟨i, found, ?_⟩
    cases finished : i.call.finished with
    | true => exact .inl rfl
    | false => exact .inr (timely c member i found finished)
  · have clock : t.clock = s.clock := by
      cases step_moves moved with
      | tick d => exact absurd ⟨d, rfl⟩ ticks
      | _ => rfl
    refine selected_later (later_step moved) clock ?_
    rcases mem_hands_step moved member with old | ⟨rfl, new⟩
    · exact inTime.selected c old
    · obtain ⟨now, uid, todo, retryList, eraseList, i, scanning, found, unfinished, due⟩ := new
      exact ⟨i, found, .inr
        (timely now uid c todo retryList eraseList i scanning found unfinished due)⟩

theorem unfinished_set {s t : State} {c d : Nat} {i j : Invocation}
    (before : ∃ k, s.invocations[c]? = some k ∧ k.call.finished = false)
    (found : s.invocations[d]? = some i) (same : t.invocations = (s.set d j).invocations)
    (kept : d = c → j.call.finished = i.call.finished) :
    ∃ k, t.invocations[c]? = some k ∧ k.call.finished = false := by
  obtain ⟨k, atC, unfinished⟩ := before
  rw [same]
  by_cases here : d = c
  · subst here
    obtain rfl := Option.some.inj (found.symm.trans atC)
    exact ⟨j, set_self found, (kept rfl).trans unfinished⟩
  · exact ⟨k, (set_other here).trans atC, unfinished⟩

theorem pushing_step {s t : State} {l : Label} (timely : OnTime s l) (inTime : InTime s)
    (moved : step env s l = some t) :
    ∀ now c todo, t.retry = .pushing now c todo →
      ∃ i, t.invocations[c]? = some i ∧ i.call.finished = false := by
  intro now c todo pushing
  cases step_moves moved with
  | enter r fresh =>
      obtain ⟨i, found, unfinished⟩ := inTime.pushing now c todo pushing
      exact ⟨i, getElem?_old found, unfinished⟩
  | arm found => exact unfinished_set (inTime.pushing now c todo pushing) found rfl fun _ => rfl
  | publish found => exact unfinished_set (inTime.pushing now c todo pushing) found rfl fun _ => rfl
  | push found => exact unfinished_set (inTime.pushing now c todo pushing) found rfl fun _ => rfl
  | answered found => exact unfinished_set (inTime.pushing now c todo pushing) found rfl fun _ => rfl
  | refused found => exact unfinished_set (inTime.pushing now c todo pushing) found rfl fun _ => rfl
  | complete handling found =>
      -- The one step that finishes a call while the retry thread pushes.
      refine unfinished_set (inTime.pushing now c todo pushing) found rfl fun here => ?_
      exact absurd (here ▸ pushing) (timely _ handling now todo)
  | recheck resending found unfinished =>
      cases pushing
      exact ⟨_, set_self found, unfinished⟩
  | passStart | passLock | visitFinished | visitRetry | visitExpired | visitKept | passErase
  | recheckFinished | repush | repushNowhere | passEnd => cases pushing
  | _ => exact inTime.pushing now c todo pushing

/-- One timely step keeps the invariant. -/
theorem inTime_step {s t : State} {l : Label} (timely : OnTime s l) (inTime : InTime s)
    (moved : step env s l = some t) : InTime t :=
  ⟨gaveUp_step moved inTime.gaveUp, selected_step timely inTime moved,
    pushing_step timely inTime moved⟩

/-- Under the invariant a step pushes no frame of a returned call. -/
theorem not_returned_of_pushes {s : State} {l : Label} (inTime : InTime s) {c : Nat}
    (pushed : pushes s l = some c) : ¬ Returned s c := by
  rintro ⟨i, rsp, found, returned⟩
  unfold pushes at pushed
  split at pushed
  · split at pushed
    · rename_i published
      cases pushed
      obtain rfl := Option.some.inj (published.symm.trans found)
      cases returned
    · cases pushed
  · split at pushed
    · rename_i pushing
      cases pushed
      obtain ⟨j, found', unfinished⟩ := inTime.pushing _ _ _ pushing
      obtain ⟨k, found'', early⟩ := inTime.selected c (by
        rw [hands, pushing]; exact List.mem_cons_self)
      obtain rfl := Option.some.inj (found.symm.trans found')
      obtain rfl := Option.some.inj (found.symm.trans found'')
      -- Unfinished, so the caller gave up at its deadline, which is still to come.
      simp only [unfinished, Bool.false_eq_true, false_or] at early
      have passed := inTime.gaveUp c i found rsp returned
      simp only [unfinished, Bool.false_eq_true, false_or] at passed
      omega
    · cases pushed
  · cases pushed

/-! ## Runs -/

theorem returned_step {s t : State} {l : Label} {c : Nat} (moved : step env s l = some t)
    (returned : Returned s c) : Returned t c := by
  obtain ⟨i, rsp, found, isReturned⟩ := returned
  obtain ⟨j, found', follows⟩ := later_step moved c i found
  exact ⟨j, rsp, found', follows.returned rsp isReturned⟩

/-- **No frame is queued behind its caller's back.**  In a run of timely steps from
an idle client, once the `sendCall` of call `c` has returned, no later step puts
the frame of `c` into a queue. -/
theorem no_push_after_return {connected : Bool} {connectors : List ConnectorContext} {clock : Int}
    {before after : List Label} {s : State} {c : Nat}
    (timely : Along (step env) OnTime (idle connected connectors clock) (before ++ after))
    (ran : exec (step env) (idle connected connectors clock) before = some s)
    (returned : Returned s c) :
    Along (step env) (fun s l => pushes s l ≠ some c) s after := by
  obtain ⟨early, late⟩ := (along_append ran).1 timely
  have inTime : InTime s := exec_invariant_along (fun _ _ _ => inTime_step) early
    (inTime_idle connected connectors clock) ran
  have kept : ∀ s l t, OnTime s l → InTime s ∧ Returned s c → step env s l = some t →
      InTime t ∧ Returned t c :=
    fun s l t timely inv moved => ⟨inTime_step timely inv.1 moved, returned_step moved inv.2⟩
  refine along_of_invariant kept ?_ late ⟨inTime, returned⟩
  exact fun s l _ inv pushed => not_returned_of_pushes inv.1 pushed inv.2

/-! ## One transaction call -/

/-- The frame of a StartTransaction call with the id `a`. -/
def startFrame : String := "[2,\"a\",\"StartTransaction\",\x7b\x7d]"

/-- Re-sends after one second, three of them. -/
def startEnv : Env where
  parse text := if text = "[3,\"a\",\x7b\x7d]" then some (Message.callResult "a" []).toValue else none
  write _ := startFrame
  validateRequest _ _ := true
  validateResponse _ _ := true
  retryInterval := 1000
  transactionMessageAttempts := 3

def startCall : List Label :=
  [.enter ⟨"a", "StartTransaction", .object [], 0, true, 5000⟩, .arm 0, .publish 0, .push 0]

def answerCall : List Label := [.lookup "[3,\"a\",\x7b\x7d]", .complete 0, .wake 0]

/-- One pass of the retry thread that finds the call finished. -/
def cleanPass : List Label := [.passStart, .passLock [("a", 0)], .visit, .passErase, .passEnd]

/-- An answered call, and the pass that clears it away. -/
theorem no_push_after_answer :
    ∃ s, exec (step startEnv) (idle true [{}] 0) (startCall ++ answerCall) = some s ∧
      Returned s 0 ∧ Along (step startEnv) (fun s l => pushes s l ≠ some 0) s cleanPass := by
  refine ⟨_, rfl, ⟨_, _, rfl, rfl⟩, ?_⟩
  refine @no_push_after_return startEnv true [{}] 0 (startCall ++ answerCall) _ _ 0 ?_ rfl
    ⟨_, _, rfl, rfl⟩
  refine along_cons rfl trivial (along_cons rfl trivial (along_cons rfl trivial
    (along_cons rfl trivial (along_cons rfl trivial (along_cons rfl ?_ (along_cons rfl trivial
    (along_cons rfl trivial (along_cons rfl trivial (along_cons rfl ?_ (along_cons rfl trivial
    (along_cons rfl trivial trivial)))))))))))
  · intro h _ now todo pushing
    cases pushing
  · intro now uid c todo retryList eraseList i scanning found unfinished
    cases scanning
    cases found
    cases unfinished

/-- The call times out, its caller is told so, and the next pass re-sends it: its
retry was due at one second and its deadline at five, and six have passed. -/
def timeOut : List Label := [.tick 6000000000, .wake 0]

def resendPass : List Label :=
  [.passStart, .passLock [("a", 0)], .visit, .passErase, .recheck, .repush]

/-- **An expired call is re-sent.**  The caller has returned `false`, and the frame
is queued again. -/
theorem expired_call_is_resent :
    ∃ s t, exec (step startEnv) (idle true [{}] 0) (startCall ++ timeOut) = some s ∧
      Returned s 0 ∧ exec (step startEnv) s resendPass = some t ∧
      waiting s 0 = [startFrame] ∧ waiting t 0 = [startFrame, startFrame] ∧
      ¬ Along (step startEnv) (fun s l => pushes s l ≠ some 0) s resendPass := by
  refine ⟨_, _, rfl, ⟨_, _, rfl, rfl⟩, rfl, rfl, rfl, fun never => ?_⟩
  have last := (((((never.2 _ rfl).2 _ rfl).2 _ rfl).2 _ rfl).2 _ rfl).1
  exact last rfl

end ChargerStack.Ocpp.Pending
