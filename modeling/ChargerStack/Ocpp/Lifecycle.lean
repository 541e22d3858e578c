/-
# Ocpp.Lifecycle -- starting and stopping `OCPPClient`, and its three senders

`start` connects, then fills `m_connectors`, then spawns one send thread for each
index, both loops running from 0 to `m_connectorNum` inclusive; the constructor
has already added one to the connector count.  `stop` clears the flag of every
context and joins the threads, and nothing is ever taken out of the two vectors.

`start` is modelled loop iteration by loop iteration, with the websocket callbacks
and the senders free to run in between.

* `Phased` is the invariant: the flags of the contexts are those of earlier starts,
  all cleared, followed by the ones of the start in progress;
* `start_never_serves`: after no `start` that returned `true` are the accepted ids
  the ids `0..connectorNum`, each served by one thread.
-/
import ChargerStack.Lib.Run
import ChargerStack.Ocpp.Client

namespace ChargerStack.Ocpp.Lifecycle

open Cxx Rapidjson Lib

set_option autoImplicit false

/-! ## State -/

/-- An element of `m_sendThreads`: the argument of `sendThread`, and whether `stop`
has joined it. -/
structure SendThread where
  connectorId : UInt32
  joined : Bool := false

/-- Where the thread that calls `start` and `stop` stands. -/
inductive Phase where
  | idle
  /-- In `doConnect`. -/
  | connecting
  /-- About to test `m_running`. -/
  | connected
  /-- In the loop over `m_connectors`, with its counter. -/
  | filling (i : UInt32)
  /-- In the loop over `m_sendThreads`. -/
  | spawning (i : UInt32)

/-- A `sendCall` that has passed its guards and has not pushed its frame yet. -/
structure PassedCall where
  connId : UInt32
  isTx : Bool
  raw : String

structure State where
  connectorNum : UInt32
  isConnected : Bool
  running : Bool
  connectors : List ConnectorContext
  sendThreads : List SendThread
  calls : List PassedCall
  phase : Phase

/-- `OCPPClient::OCPPClient`. -/
def construct (connectorNum : UInt32) : State :=
  ⟨connectorNum + 1, false, false, [], [], [], .idle⟩

/-! ## The senders -/

variable (linked : Linked)

namespace State

/-- `auto &c = *m_connectors[connId]; c.….push(text)`. -/
def pushTo (s : State) (connId : UInt32) (isTx : Bool) (text : String) : Except Failure State :=
  match s.connectors[connId.toNat]? with
  | none => .error .outOfBounds
  | some ctx =>
      .ok { s with connectors := s.connectors.set connId.toNat (ctx.push isTx text) }

/-- `sendCall` up to the critical section on `m_pending`: `none` is its `false`. -/
def sendCallEnter (s : State) (uniqueId action : String) (reqPayload : Value) (connId : UInt32)
    (isTx : Bool) : Option PassedCall :=
  if ¬ s.isConnected then none
  else if ¬ linked.validateRequest action reqPayload then none
  else if s.connectors.length ≤ connId.toNat then none
  else some ⟨connId, isTx, callText linked uniqueId action reqPayload⟩

def sendCallError (s : State) (uniqueId errorCode errorDescription : String)
    (errorDetails : Value) (connId : UInt32) : Except Failure (Bool × State) :=
  if ¬ s.isConnected then .ok (false, s)
  else do
    let s ← s.pushTo connId false
      (callErrorText linked uniqueId errorCode errorDescription errorDetails)
    return (true, s)

def sendCallResult (s : State) (uniqueId action : String) (payload : Value) (connId : UInt32) :
    Except Failure (Bool × State) :=
  if ¬ s.isConnected then .ok (false, s)
  else if ¬ linked.validateResponse action payload then .ok (false, s)
  else do
    let s ← s.pushTo connId false (callResultText linked uniqueId payload)
    return (true, s)

end State

/-! ## Moves -/

inductive Label where
  /-- `start` is called; the result of `initConnectInfo`. -/
  | start (init : Bool)
  /-- The result of `doConnect`. -/
  | connect (ok : Bool)
  /-- The test of `m_running`. -/
  | claim
  | fill
  | fillEnd
  | spawn
  | returnTrue
  | stop
  /-- `wsClientConnected`, or one of the three callbacks of a lost connection. -/
  | connection (up : Bool)
  | callEnter (uniqueId action : String) (reqPayload : Value) (connId : UInt32) (isTx : Bool)
  | callPush (n : Nat)
  | callError (uniqueId errorCode errorDescription : String) (errorDetails : Value)
      (connId : UInt32)
  | callResult (uniqueId action : String) (payload : Value) (connId : UInt32)

/-- One step.  A sender that reads past the end of `m_connectors` has no next
state. -/
def step (s : State) : Label → Option State
  | .start init =>
      match s.phase with
      | .idle => if init then some { s with phase := .connecting } else some s
      | _ => none
  | .connect ok =>
      match s.phase with
      -- An open connection is taken as it is.
      | .connecting =>
          if ok then some { s with phase := .connected }
          else if s.isConnected then none
          else some { s with phase := .idle }
      | _ => none
  | .claim =>
      match s.phase with
      | .connected =>
          if s.running then some { s with phase := .idle }
          else some { s with running := true, phase := .filling 0 }
      | _ => none
  | .fill =>
      match s.phase with
      | .filling i =>
          if i ≤ s.connectorNum then
            some { s with connectors := s.connectors ++ [{}], phase := .filling (i + 1) }
          else none
      | _ => none
  | .fillEnd =>
      match s.phase with
      | .filling i => if i ≤ s.connectorNum then none else some { s with phase := .spawning 0 }
      | _ => none
  | .spawn =>
      match s.phase with
      | .spawning i =>
          if i ≤ s.connectorNum then
            some { s with sendThreads := s.sendThreads ++ [⟨i, false⟩], phase := .spawning (i + 1) }
          else none
      | _ => none
  | .returnTrue =>
      match s.phase with
      | .spawning i => if i ≤ s.connectorNum then none else some { s with phase := .idle }
      | _ => none
  | .stop =>
      match s.phase with
      | .idle => some { s with
          running := false
          connectors := s.connectors.map ({ · with running := false })
          sendThreads := s.sendThreads.map ({ · with joined := true }) }
      | _ => none
  | .connection up => some { s with isConnected := up }
  | .callEnter uniqueId action reqPayload connId isTx =>
      match s.sendCallEnter linked uniqueId action reqPayload connId isTx with
      | none => some s
      | some call => some { s with calls := s.calls ++ [call] }
  | .callPush n =>
      match s.calls[n]? with
      | none => none
      | some call =>
          (({ s with calls := s.calls.eraseIdx n } : State).pushTo call.connId call.isTx
            call.raw).toOption
  | .callError uniqueId errorCode errorDescription errorDetails connId =>
      (s.sendCallError linked uniqueId errorCode errorDescription errorDetails
        connId).toOption.map Prod.snd
  | .callResult uniqueId action payload connId =>
      (s.sendCallResult linked uniqueId action payload connId).toOption.map Prod.snd

/-! ## What a step can do -/

/-- Every move of the thread that starts and stops, and of the senders only that
they leave that thread, its flags and the vector sizes alone. -/
inductive Moves (s : State) : Label → State → Prop where
  | start {init : Bool} (idle : s.phase = .idle) :
      Moves s (.start init) { s with phase := .connecting }
  | connect {ok : Bool} (connecting : s.phase = .connecting) :
      Moves s (.connect ok) { s with phase := .connected }
  | connectFailed {ok : Bool} (connecting : s.phase = .connecting) :
      Moves s (.connect ok) { s with phase := .idle }
  | already (connected : s.phase = .connected) (running : s.running = true) :
      Moves s .claim { s with phase := .idle }
  | claim (connected : s.phase = .connected) (stopped : s.running = false) :
      Moves s .claim { s with running := true, phase := .filling 0 }
  | fill {i : UInt32} (filling : s.phase = .filling i) (more : i ≤ s.connectorNum) :
      Moves s .fill { s with connectors := s.connectors ++ [{}], phase := .filling (i + 1) }
  | fillEnd {i : UInt32} (filling : s.phase = .filling i) (done : ¬ i ≤ s.connectorNum) :
      Moves s .fillEnd { s with phase := .spawning 0 }
  | spawn {i : UInt32} (spawning : s.phase = .spawning i) (more : i ≤ s.connectorNum) :
      Moves s .spawn
        { s with sendThreads := s.sendThreads ++ [⟨i, false⟩], phase := .spawning (i + 1) }
  | returnTrue {i : UInt32} (spawning : s.phase = .spawning i) (done : ¬ i ≤ s.connectorNum) :
      Moves s .returnTrue { s with phase := .idle }
  | stop (idle : s.phase = .idle) : Moves s .stop { s with
      running := false
      connectors := s.connectors.map ({ · with running := false })
      sendThreads := s.sendThreads.map ({ · with joined := true }) }
  | connection (up : Bool) : Moves s (.connection up) { s with isConnected := up }
  | callEnter {uniqueId action : String} {reqPayload : Value} {connId : UInt32} {isTx : Bool}
      (inRange : connId.toNat < s.connectors.length) :
      Moves s (.callEnter uniqueId action reqPayload connId isTx) { s with
        calls := s.calls ++ [⟨connId, isTx, callText linked uniqueId action reqPayload⟩] }
  | pushed {l : Label} {calls : List PassedCall} {k : Nat} {ctx : ConnectorContext} {isTx : Bool}
      {text : String} (found : s.connectors[k]? = some ctx) (fewer : calls ⊆ s.calls) :
      Moves s l { s with calls := calls, connectors := s.connectors.set k (ctx.push isTx text) }
  | unchanged (l : Label) : Moves s l s

variable {linked}

theorem pushTo_ok {s t : State} {connId : UInt32} {isTx : Bool} {text : String}
    (pushed : s.pushTo connId isTx text = .ok t) :
    ∃ ctx, s.connectors[connId.toNat]? = some ctx ∧
      t = { s with connectors := s.connectors.set connId.toNat (ctx.push isTx text) } := by
  unfold State.pushTo at pushed
  split at pushed <;> cases pushed
  exact ⟨_, ‹_›, rfl⟩

theorem sendCallEnter_some {s : State} {uniqueId action : String} {reqPayload : Value}
    {connId : UInt32} {isTx : Bool} {call : PassedCall}
    (passed : s.sendCallEnter linked uniqueId action reqPayload connId isTx = some call) :
    connId.toNat < s.connectors.length ∧
      call = ⟨connId, isTx, callText linked uniqueId action reqPayload⟩ := by
  unfold State.sendCallEnter at passed
  split at passed
  · cases passed
  · split at passed
    · cases passed
    · split at passed <;> cases passed
      exact ⟨by omega, rfl⟩

/-- A reply sender that returns was refused, or pushed one frame. -/
theorem sendCallError_ok {s : State} {uniqueId errorCode errorDescription : String}
    {errorDetails : Value} {connId : UInt32} {sent : Bool × State}
    (ran : s.sendCallError linked uniqueId errorCode errorDescription errorDetails connId = .ok sent) :
    sent.2 = s ∨ ∃ ctx text, s.connectors[connId.toNat]? = some ctx ∧
      sent.2 = { s with connectors := s.connectors.set connId.toNat (ctx.push false text) } := by
  unfold State.sendCallError at ran
  split at ran
  · cases ran
    exact .inl rfl
  · obtain ⟨t, pushed, same⟩ := bind_ok ran
    cases same
    obtain ⟨ctx, found, rfl⟩ := pushTo_ok pushed
    exact .inr ⟨ctx, _, found, rfl⟩

theorem sendCallResult_ok {s : State} {uniqueId action : String} {payload : Value}
    {connId : UInt32} {sent : Bool × State}
    (ran : s.sendCallResult linked uniqueId action payload connId = .ok sent) :
    sent.2 = s ∨ linked.validateResponse action payload = true ∧
      ∃ ctx text, s.connectors[connId.toNat]? = some ctx ∧
        sent.2 = { s with connectors := s.connectors.set connId.toNat (ctx.push false text) } := by
  unfold State.sendCallResult at ran
  split at ran
  · cases ran
    exact .inl rfl
  · split at ran
    · cases ran
      exact .inl rfl
    · rename_i valid
      obtain ⟨t, pushed, same⟩ := bind_ok ran
      cases same
      obtain ⟨ctx, found, rfl⟩ := pushTo_ok pushed
      exact .inr ⟨not_not.1 valid, ctx, _, found, rfl⟩

theorem step_moves {s t : State} {l : Label} (moved : step linked s l = some t) :
    Moves linked s l t := by
  cases l <;> simp only [step] at moved
  case start init =>
      split at moved
      · split at moved <;> cases moved
        · exact .start ‹_›
        · exact .unchanged _
      · cases moved
  case connect ok =>
      split at moved
      · split at moved
        · cases moved
          exact .connect ‹_›
        · split at moved <;> cases moved
          exact .connectFailed ‹_›
      · cases moved
  case claim =>
      split at moved
      · split at moved <;> cases moved
        · exact .already ‹_› ‹_›
        · exact .claim ‹_› (Bool.eq_false_iff.2 ‹_›)
      · cases moved
  case fill =>
      split at moved
      · split at moved <;> cases moved
        exact .fill ‹_› ‹_›
      · cases moved
  case fillEnd =>
      split at moved
      · split at moved <;> cases moved
        exact .fillEnd ‹_› ‹_›
      · cases moved
  case spawn =>
      split at moved
      · split at moved <;> cases moved
        exact .spawn ‹_› ‹_›
      · cases moved
  case returnTrue =>
      split at moved
      · split at moved <;> cases moved
        exact .returnTrue ‹_› ‹_›
      · cases moved
  case stop =>
      split at moved <;> cases moved
      exact .stop ‹_›
  case connection up => cases moved; exact .connection up
  case callEnter uniqueId action reqPayload connId isTx =>
      split at moved <;> cases moved
      · exact .unchanged _
      · obtain ⟨inRange, rfl⟩ := sendCallEnter_some ‹_›
        exact .callEnter inRange
  case callPush n =>
      split at moved
      · cases moved
      · obtain ⟨ctx, found, rfl⟩ := pushTo_ok (toOption_eq_some moved)
        exact .pushed found (List.eraseIdx_subset)
  case callError uniqueId errorCode errorDescription errorDetails connId =>
      obtain ⟨sent, ran, rfl⟩ := Option.map_eq_some_iff.1 moved
      obtain same | ⟨ctx, text, found, pushed⟩ := sendCallError_ok (toOption_eq_some ran)
      · rw [same]
        exact .unchanged _
      · rw [pushed]
        exact .pushed found (List.Subset.refl _)
  case callResult uniqueId action payload connId =>
      obtain ⟨sent, ran, rfl⟩ := Option.map_eq_some_iff.1 moved
      obtain same | ⟨-, ctx, text, found, pushed⟩ := sendCallResult_ok (toOption_eq_some ran)
      · rw [same]
        exact .unchanged _
      · rw [pushed]
        exact .pushed found (List.Subset.refl _)

/-! ## The flags through starts and stops -/

/-- The `running` flags, oldest context first. -/
def flags (s : State) : List Bool := s.connectors.map (·.running)

@[simp] theorem push_running (ctx : ConnectorContext) (isTx : Bool) (text : String) :
    (ctx.push isTx text).running = ctx.running := by
  cases isTx <;> rfl

theorem flags_pushed {s : State} {k : Nat} {ctx : ConnectorContext} {isTx : Bool} {text : String}
    (found : s.connectors[k]? = some ctx) :
    (s.connectors.set k (ctx.push isTx text)).map (·.running) = flags s := by
  apply List.ext_getElem?
  intro j
  by_cases here : k = j
  · subst here
    obtain ⟨bound, same⟩ := List.getElem?_eq_some_iff.1 found
    simp [flags, bound, same]
  · simp [flags, List.getElem?_set_ne here]

/-- `old` contexts of earlier starts, stopped, and then `new` ones. -/
def Shape (s : State) (old new : Nat) : Prop :=
  flags s = List.replicate old false ++ List.replicate new true

theorem Shape.length {s : State} {old new : Nat} (shape : Shape s old new) :
    s.connectors.length = old + new := by
  have := congrArg List.length shape
  simpa [flags] using this

/-- What the phase says of the contexts.  In the first loop the counter is the
number of contexts this `start` has added, unless the loop never ends because the
bound is the largest `unsigned`. -/
structure Phased (connectorNum : UInt32) (s : State) : Prop where
  num : s.connectorNum = connectorNum + 1
  stopped : s.running = false → ∃ old, Shape s old 0
  filling : ∀ i, s.phase = .filling i → s.running = true ∧
    ∃ old new, Shape s old new ∧ new % 2 ^ 32 = i.toNat ∧
      (new ≤ s.connectorNum.toNat + 1 ∨ s.connectorNum.toNat + 1 = 2 ^ 32)
  spawning : ∀ i, s.phase = .spawning i → ∃ old, Shape s old (s.connectorNum.toNat + 1)

theorem phased_construct (connectorNum : UInt32) : Phased connectorNum (construct connectorNum) where
  num := rfl
  stopped _ := ⟨0, rfl⟩
  filling := by intro i impossible; cases impossible
  spawning := by intro i impossible; cases impossible

/-- A step of another thread. -/
theorem Phased.frame {connectorNum : UInt32} {s t : State} (phased : Phased connectorNum s)
    (num : t.connectorNum = s.connectorNum) (running : t.running = s.running)
    (flags : flags t = flags s) (phase : t.phase = s.phase) : Phased connectorNum t := by
  obtain ⟨bound, stopped, filling, spawning⟩ := phased
  exact ⟨by rw [num, bound], by rw [running]; simpa only [Shape, flags] using stopped,
    by rw [phase, num, running]; simpa only [Shape, flags] using filling,
    by rw [phase, num]; simpa only [Shape, flags] using spawning⟩

/-- One iteration of the first loop. -/
theorem Phased.fill {connectorNum i : UInt32} {s : State} (phased : Phased connectorNum s)
    (phase : s.phase = .filling i) (more : i ≤ s.connectorNum) : Phased connectorNum
      { s with connectors := s.connectors ++ [{}], phase := .filling (i + 1) } := by
  obtain ⟨running, old, new, shape, counter, bound⟩ := phased.filling i phase
  have low : i.toNat ≤ s.connectorNum.toNat := UInt32.le_iff_toNat_le.1 more
  have small := s.connectorNum.toNat_lt
  refine ⟨phased.num, ?_, ?_, (fun _ other => nomatch other)⟩
  · intro notRunning
    rw [show s.running = false from notRunning] at running
    cases running
  · intro j next
    cases next
    refine ⟨running, old, new + 1, ?_, ?_, ?_⟩
    · simp only [Shape, flags, List.map_append] at shape ⊢
      rw [shape, List.replicate_succ', List.append_assoc]
      rfl
    · rw [UInt32.toNat_add, ← counter]
      simp
    · show new + 1 ≤ s.connectorNum.toNat + 1 ∨ s.connectorNum.toNat + 1 = 2 ^ 32
      rcases bound with bound | wraps
      · by_cases below : s.connectorNum.toNat + 1 < 2 ^ 32
        · rw [Nat.mod_eq_of_lt (by omega)] at counter
          omega
        · omega
      · exact .inr wraps

/-- The end of the first loop: this `start` has added `m_connectorNum + 1` contexts. -/
theorem Phased.fillEnd {connectorNum i : UInt32} {s : State} (phased : Phased connectorNum s)
    (phase : s.phase = .filling i) (done : ¬ i ≤ s.connectorNum) :
    Phased connectorNum { s with phase := .spawning 0 } := by
  obtain ⟨running, old, new, shape, counter, bound⟩ := phased.filling i phase
  have high : s.connectorNum.toNat < i.toNat := by
    have := mt UInt32.le_iff_toNat_le.2 done
    omega
  have small := i.toNat_lt
  have all : new = s.connectorNum.toNat + 1 := by
    rcases bound with bound | wraps
    · rw [Nat.mod_eq_of_lt (by omega)] at counter
      omega
    · omega
  refine ⟨phased.num, phased.stopped, (fun _ other => nomatch other), ?_⟩
  intro j next
  exact ⟨old, all ▸ shape⟩

theorem phased_step {connectorNum : UInt32} {s t : State} {l : Label}
    (phased : Phased connectorNum s) (moved : step linked s l = some t) :
    Phased connectorNum t := by
  cases step_moves moved with
  | start | connect | connectFailed | already | returnTrue =>
      exact ⟨phased.num, phased.stopped, (fun _ other => nomatch other),
        fun _ other => nomatch other⟩
  | claim connected notRunning =>
      obtain ⟨old, shape⟩ := phased.stopped notRunning
      refine ⟨phased.num, (fun running => nomatch running), ?_, fun _ other => nomatch other⟩
      intro i phase
      cases phase
      exact ⟨rfl, old, 0, shape, rfl, .inl (Nat.zero_le _)⟩
  | fill phase more => exact phased.fill phase more
  | fillEnd phase done => exact phased.fillEnd phase done
  | spawn phase more =>
      refine ⟨phased.num, phased.stopped, (fun _ other => nomatch other), ?_⟩
      intro j next
      exact phased.spawning _ phase
  | stop idle =>
      refine ⟨phased.num, ?_, ?_, ?_⟩
      · intro notRunning
        refine ⟨s.connectors.length, ?_⟩
        simp [Shape, flags, Function.comp_def, List.map_const']
      · intro i phase
        rw [show s.phase = .filling i from phase] at idle
        cases idle
      · intro i phase
        rw [show s.phase = .spawning i from phase] at idle
        cases idle
  | connection up => exact phased.frame rfl rfl rfl rfl
  | callEnter inRange => exact phased.frame rfl rfl rfl rfl
  | pushed found fewer => exact phased.frame rfl rfl (flags_pushed found) rfl
  | unchanged => exact phased

/-! ## What `start` owes when it returns `true` -/

/-- The guard of `sendCall` lets the id through. -/
def Accepts (s : State) (connId : UInt32) : Prop := ¬ s.connectors.length ≤ connId.toNat

instance (s : State) (connId : UInt32) : Decidable (Accepts s connId) :=
  inferInstanceAs (Decidable (¬ _))

/-- The send threads of one index. -/
def servers (s : State) (connId : UInt32) : Nat :=
  s.sendThreads.countP fun t => decide (t.connectorId = connId) && !t.joined

/-- The ids `0..connectorNum`, those of `Connectors`, are the accepted ones, and each
has a running context and one send thread. -/
def Serves (s : State) (connectorNum : UInt32) : Prop :=
  (∀ connId, Accepts s connId ↔ connId ≤ connectorNum) ∧
    ∀ connId ≤ connectorNum, ∃ ctx, s.connectors[connId.toNat]? = some ctx ∧
      ctx.running = true ∧ servers s connId = 1

theorem returnTrue_spawning {s t : State} (moved : step linked s .returnTrue = some t) :
    ∃ i, s.phase = .spawning i ∧ t = { s with phase := .idle } := by
  simp only [step] at moved
  split at moved
  · split at moved <;> cases moved
    exact ⟨_, ‹_›, rfl⟩
  · cases moved

/-- **No `start` delivers.**  There is one context too many, id `connectorNum + 1`;
and where the increment of the constructor wraps, there is one in all, or the ones
of an earlier `start`, stopped, come first. -/
theorem start_never_serves {connectorNum : UInt32} {ls : List Label} {t : State}
    (ran : exec (step linked) (construct connectorNum) (ls ++ [.returnTrue]) = some t) :
    ¬ Serves t connectorNum := by
  obtain ⟨s, begun, last⟩ := exec_snoc.1 ran
  have phased := exec_invariant (fun _ _ _ => phased_step) (phased_construct connectorNum) begun
  obtain ⟨i, spawning, rfl⟩ := returnTrue_spawning last
  obtain ⟨old, shape⟩ := phased.spawning i spawning
  have length := shape.length
  rintro ⟨accepts, served⟩
  simp only [Accepts, length, Nat.not_le, phased.num] at accepts
  have total := UInt32.toNat_add connectorNum 1
  have small := connectorNum.toNat_lt
  by_cases wraps : connectorNum.toNat + 1 < 2 ^ 32
  · -- The id the constructor added.
    have num : (connectorNum + 1).toNat = connectorNum.toNat + 1 := by
      rw [total]
      exact Nat.mod_eq_of_lt wraps
    have extra := UInt32.le_iff_toNat_le.1 ((accepts (connectorNum + 1)).1 (by omega))
    omega
  · -- All ids would have to be accepted, and only old contexts can make that many.
    have num : (connectorNum + 1).toNat = 0 := by
      rw [total, show connectorNum.toNat + UInt32.toNat 1 = 2 ^ 32 by
        have : UInt32.toNat 1 = 1 := rfl
        omega, Nat.mod_self]
    have many := (accepts connectorNum).2 (UInt32.le_refl _)
    obtain ⟨ctx, found, running, -⟩ := served 0 (UInt32.zero_le)
    have first : (flags s)[0]? = some true := by
      simp only [flags, List.getElem?_map]
      rw [show s.connectors[0]? = some ctx from found, Option.map_some, running]
    rw [shape, List.getElem?_append_left (by simp; omega),
      List.getElem?_replicate_of_lt (by omega)] at first
    cases first

/-- A library of which the start path uses nothing. -/
def unusedLinked : Linked := ⟨fun _ => none, fun _ => "", fun _ _ => true, fun _ _ => true⟩

/-- `start` of a charger with one connector, up to its `return true`. -/
def startOne : List Label :=
  [.start true, .connect true, .connection true, .claim, .fill, .fill, .fill, .fillEnd,
    .spawn, .spawn, .spawn]

theorem start_never_serves_one :
    ∃ t, exec (step unusedLinked) (construct 1) (startOne ++ [.returnTrue]) = some t ∧
      ¬ Serves t 1 :=
  ⟨_, rfl, @start_never_serves unusedLinked 1 startOne _ rfl⟩

/-- With one connector the ids 0 and 1 are managed, and 2 is accepted as well. -/
theorem start_accepts_unmanaged_id :
    ∃ t, exec (step unusedLinked) (construct 1) (startOne ++ [.returnTrue]) = some t ∧
      Accepts t 2 ∧ ¬ Serves t 1 := by
  refine ⟨_, rfl, by decide, fun serves => ?_⟩
  exact absurd ((serves.1 2).1 (by decide)) (by decide)

end ChargerStack.Ocpp.Lifecycle
