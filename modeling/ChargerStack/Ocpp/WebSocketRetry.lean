/-
# Ocpp.WebSocketRetry -- how often WebSocketClient tries to connect, and what it tells

`Connect` starts the service thread and schedules the first attempt.  `connectcb` makes an
attempt; a connection that fails, or one that is closed, has the next one scheduled by
`lws_retry_sul_schedule`, which counts in `m_retry_count` and schedules nothing any more once
the count is past `conceal_count`.  `OCPPClient` is the listener and keeps `m_isConnected`.

* `Phase` is the protocol of the listener: `wsClientConnected` and `wsClientDisconnected` in
  turn, `wsClientFailed` at most once in between, `wsClientError` at the end;
* `listener_protocol`: every run keeps it, and `m_isConnected` says what libwebsockets says, as
  long as `Connect` is not called while a service thread is about to report its end;
* `Counted` is the invariant of the attempts, by what has happened since the last connection;
* `attempts_limited`: eleven attempts at most are made without a connection, until then one is
  always running or scheduled, and after that nothing happens in any run without `disConnect`.
-/
import ChargerStack.Lib.Run

namespace ChargerStack.Ocpp.WebSocketRetry

open Lib

set_option autoImplicit false

/-- The connection, as libwebsockets has it. -/
inductive Net where
  | idle
  /-- `lws_client_connect_via_info` has returned a `wsi`. -/
  | attempting
  | up
  deriving DecidableEq, Repr

/-- The thread that runs `process`. -/
inductive Service where
  /-- `m_thread` is null. -/
  | ended
  /-- In its loop. -/
  | serving
  /-- `lws_service` has failed, and `process` has returned. -/
  | failed
  deriving DecidableEq, Repr

structure State where
  service : Service := .ended
  /-- `m_processEnd`. -/
  processEnd : Bool := false
  /-- `m_connected`. -/
  connected : Bool := false
  /-- `m_connection_error_notified`. -/
  notified : Bool := false
  /-- `m_retry_count`. -/
  retryCount : Nat := 0
  /-- `m_retry_interval_ms`. -/
  retryInterval : Nat := 0
  /-- `m_sul` waits for its time. -/
  scheduled : Bool := false
  net : Net := .idle
  /-- The threads in `process` that have called `disConnect` and not yet `wsClientError`. -/
  finishing : Nat := 0
  /-- `OCPPClient::m_isConnected`. -/
  isConnected : Bool := false
  deriving DecidableEq, Repr

/-- What can be seen: an attempt, and the calls of the listener. -/
inductive Event where
  /-- `Connect` returns true. -/
  | started
  /-- `lws_client_connect_via_info` is called. -/
  | attempt
  | connected
  | disconnected
  | failed
  | error
  deriving DecidableEq, Repr

/-- `m_retry_policy.conceal_count`. -/
def concealCount : Nat := 10

/-- Whether `lws_retry_get_delay_ms` conceals a try: below the count, and not above it; its
header leaves open what it does at the count. -/
def conceals (atLimit : Bool) (ctry : Nat) : Bool :=
  decide (ctry < concealCount) || atLimit && decide (ctry = concealCount)

variable (atLimit : Bool)

/-- `lws_retry_sul_schedule`. -/
def retrySulSchedule (s : State) : State :=
  { s with
    retryCount := s.retryCount + 1
    scheduled := s.scheduled || conceals atLimit (s.retryCount + 1) }

/-- `CLIENT_CONNECTION_ERROR`. -/
def connectionError (s : State) : State × List Event :=
  if s.notified then (retrySulSchedule atLimit s, [])
  else (retrySulSchedule atLimit { s with notified := true, isConnected := false }, [.failed])

/-- `CLIENT_ESTABLISHED`. -/
def established (s : State) : State × List Event :=
  ({ s with
    net := .up, retryCount := 0, connected := true, notified := false, isConnected := true },
    [.connected])

/-- The retry of `CLOSED_CLIENT_HTTP` and of `CLIENT_CLOSED`. -/
def retryIfWanted (s : State) : State :=
  if s.retryInterval ≠ 0 then retrySulSchedule atLimit s else s

/-- `CLIENT_CLOSED`. -/
def clientClosed (s : State) : State × List Event :=
  (retryIfWanted atLimit { s with net := .idle, connected := false, isConnected := false },
    [.disconnected])

/-- How `lws_client_connect_via_info` returns. -/
inductive Attempt where
  | started
  /-- With null, and maybe `CLIENT_CONNECTION_ERROR` before that. -/
  | refused (told : Bool)
  deriving DecidableEq, Repr

def connectcb (s : State) (attempt : Attempt) : State × List Event :=
  if s.processEnd then (s, [])
  else match attempt with
    | .started => ({ s with net := .attempting }, [.attempt])
    | .refused false => (retrySulSchedule atLimit s, [.attempt])
    | .refused true =>
        (retrySulSchedule atLimit (connectionError atLimit s).1,
          .attempt :: (connectionError atLimit s).2)

/-- `lws_context_destroy` ends a connection, and maybe says so of an attempt. -/
def contextDestroy (s : State) (told : Bool) : State × List Event :=
  match s.net with
  | .idle => (s, [])
  | .attempting => if told then connectionError atLimit s else (s, [])
  | .up => clientClosed atLimit s

/-- What is left of `disConnect` once the service thread is over. -/
def afterJoin (s : State) (told : Bool) : State × List Event :=
  let destroyed := contextDestroy atLimit { s with connected := false } told
  ({ destroyed.1 with service := .ended, net := .idle, scheduled := false }, destroyed.2)

/-- The end of `process`, up to `wsClientError`. -/
def processEnds (s : State) (told : Bool) : State × List Event :=
  let ended := afterJoin atLimit { s with retryCount := 0 } told
  ({ ended.1 with finishing := ended.1.finishing + 1 }, ended.2)

/-- `Connect` gets as far as its service thread; `created` says whether the URL is valid and
there is a context. -/
def starts (s : State) (created : Bool) : Bool :=
  !s.isConnected && decide (s.service = .ended) && created

/-- `OCPPClient::doConnect`. -/
def doConnect (s : State) (created : Bool) (retryInterval : Nat) : Bool × State :=
  if s.isConnected then (true, s)
  else if starts s created then
    (true, { s with
      service := .serving, processEnd := false, notified := false, connected := false
      retryCount := 0, retryInterval := retryInterval, scheduled := true })
  else (false, s)

inductive Label where
  | doConnect (created : Bool) (retryInterval : Nat)
  | disConnect
  /-- The time of `m_sul` has come. -/
  | sul (attempt : Attempt)
  | established
  /-- An attempt fails; `CLOSED_CLIENT_HTTP` may follow. -/
  | connectionError (closedHttp : Bool)
  /-- An attempt ends with `CLOSED_CLIENT_HTTP` alone. -/
  | closedClientHttp
  | closed
  /-- `process` leaves its loop. -/
  | exit (told : Bool)
  /-- `lws_service` fails. -/
  | fail (told : Bool)
  /-- `disConnect` joins a service thread that has failed. -/
  | join (told : Bool)
  /-- A service thread calls `wsClientError`, and is over. -/
  | error
  deriving DecidableEq, Repr

def act (s : State) : Label → Option (State × List Event)
  | .doConnect created retryInterval =>
      some ((doConnect s created retryInterval).2, if starts s created then [.started] else [])
  | .disConnect =>
      some (if s.service = .ended then s else { s with processEnd := true, retryCount := 0 }, [])
  | .sul attempt =>
      if s.service = .serving ∧ s.scheduled = true then
        some (connectcb atLimit { s with scheduled := false } attempt)
      else none
  | .established =>
      if s.service = .serving ∧ s.net = .attempting then some (established s) else none
  | .connectionError closedHttp =>
      if s.service = .serving ∧ s.net = .attempting then
        let told := connectionError atLimit { s with net := .idle }
        some (if closedHttp then retryIfWanted atLimit told.1 else told.1, told.2)
      else none
  | .closedClientHttp =>
      if s.service = .serving ∧ s.net = .attempting then
        some (retryIfWanted atLimit { s with net := .idle }, [])
      else none
  | .closed =>
      if s.service = .serving ∧ s.net = .up then some (clientClosed atLimit s) else none
  | .exit told =>
      if s.service = .serving ∧ s.processEnd = true then some (processEnds atLimit s told) else none
  | .fail told =>
      if s.service = .serving then
        some (if s.processEnd then processEnds atLimit s told else ({ s with service := .failed }, []))
      else none
  | .join told =>
      if s.service = .failed ∧ s.processEnd = true then some (afterJoin atLimit s told) else none
  | .error =>
      if s.finishing = 0 then none
      else some ({ s with finishing := s.finishing - 1, isConnected := false }, [.error])

def step (s : State) (l : Label) : Option State := (act atLimit s l).map (·.1)

def shows (s : State) (l : Label) : Option (List Event) := (act atLimit s l).map (·.2)

/-- The events of a run. -/
def events (s : State) (ls : List Label) : List Event :=
  (observe (step atLimit) (shows atLimit) s ls).flatten

variable {atLimit : Bool} {s t : State} {l : Label} {es fs : List Event}

theorem step_eq_some : step atLimit s l = some t ↔ ∃ es, act atLimit s l = some (t, es) := by
  simp [step]

theorem shows_of_act (acted : act atLimit s l = some (t, es)) : shows atLimit s l = some es := by
  simp [shows, acted]

/-! ## What the listener is told -/

/-- How far the calls of the listener have come. -/
inductive Phase where
  | finished
  /-- There is no connection, and `wsClientFailed` has been called or not. -/
  | down (failed : Bool)
  | up
  deriving DecidableEq, Repr

def Phase.next : Phase → Event → Option Phase
  | .finished, .started | .down _, .started => some (.down false)
  | .down failed, .attempt => some (.down failed)
  | .down false, .failed => some (.down true)
  | .down _, .connected => some .up
  | .up, .disconnected => some (.down false)
  | .down _, .error => some .finished
  | _, _ => none

def Phase.follow (p : Phase) (es : List Event) : Option Phase := es.foldlM Phase.next p

/-- What the callbacks keep between the phase and the client. -/
structure Told (p : Phase) (s : State) : Prop where
  up : p = .up ↔ s.net = .up
  down : ∀ failed, p = .down failed → s.notified = failed
  connected : s.connected = decide (s.net = .up)
  isConnected : s.isConnected = decide (s.net = .up)
  notified : s.net = .up → s.notified = false

variable {p q : Phase}

/-- The phase does not depend on the retries. -/
theorem Told.ofEq (told : Told p s) (net : t.net = s.net) (notified : t.notified = s.notified)
    (connected : t.connected = s.connected) (isConnected : t.isConnected = s.isConnected) :
    Told p t :=
  ⟨by rw [net, told.up], by rw [notified]; exact told.down, by rw [connected, net, told.connected],
    by rw [isConnected, net, told.isConnected], by rw [net, notified]; exact told.notified⟩

theorem Told.retrySulSchedule (told : Told p s) : Told p (retrySulSchedule atLimit s) :=
  told.ofEq rfl rfl rfl rfl

theorem Told.retryIfWanted (told : Told p s) : Told p (retryIfWanted atLimit s) := by
  unfold WebSocketRetry.retryIfWanted
  split
  · exact told.retrySulSchedule
  · exact told

/-- Without a connection the phase does not depend on the rest of the connection. -/
theorem Told.ofDown {failed : Bool} (told : Told (.down failed) s) (net : t.net ≠ .up)
    (notified : t.notified = s.notified) (connected : t.connected = false)
    (isConnected : t.isConnected = false) : Told (.down failed) t :=
  ⟨by simp [net], fun f same => notified.trans (told.down f same), by simp [net, connected],
    by simp [net, isConnected], fun up => absurd up net⟩

theorem Told.closed {failed : Bool} (told : Told (.down failed) s) :
    s.net ≠ .up ∧ s.connected = false ∧ s.isConnected = false := by
  have net : s.net ≠ .up := fun up => nomatch told.up.2 up
  exact ⟨net, told.connected.trans (decide_eq_false net),
    told.isConnected.trans (decide_eq_false net)⟩

/-- The phase after some calls is one without a connection, and fits the state. -/
def Fell (p : Phase) (es : List Event) (t : State) : Prop :=
  ∃ failed, p.follow es = some (.down failed) ∧ Told (.down failed) t

theorem connectionError_fell {failed : Bool} (told : Told (.down failed) s) :
    Fell (.down failed) (connectionError atLimit s).2 (connectionError atLimit s).1 := by
  obtain ⟨net, connected, isConnected⟩ := told.closed
  have notified := told.down failed rfl
  unfold connectionError
  cases failed with
  | true =>
      rw [if_pos notified]
      exact ⟨true, rfl, told.retrySulSchedule⟩
  | false =>
      rw [if_neg (by simp [notified])]
      exact ⟨true, rfl, Told.retrySulSchedule ⟨by simp [net], by simp, by simp [net, connected],
        by simp [net], fun up => absurd up net⟩⟩

theorem clientClosed_fell (notified : s.notified = false) :
    Fell .up (clientClosed atLimit s).2 (clientClosed atLimit s).1 :=
  ⟨false, rfl, Told.retryIfWanted ⟨by simp, by simp [notified], by simp, by simp, by simp⟩⟩

theorem connectcb_fell {failed : Bool} (attempt : Attempt) (told : Told (.down failed) s) :
    Fell (.down failed) (connectcb atLimit s attempt).2 (connectcb atLimit s attempt).1 := by
  obtain ⟨net, connected, isConnected⟩ := told.closed
  unfold connectcb
  split
  · exact ⟨failed, rfl, told⟩
  · cases attempt with
    | started => exact ⟨failed, rfl, told.ofDown (by simp) rfl connected isConnected⟩
    | refused said =>
        cases said with
        | false => exact ⟨failed, rfl, told.retrySulSchedule⟩
        | true =>
            obtain ⟨later, follows, now⟩ := connectionError_fell told
            exact ⟨later, follows, now.retrySulSchedule⟩

theorem contextDestroy_fell {failed said : Bool} (told : Told (.down failed) s) :
    Fell (.down failed) (contextDestroy atLimit s said).2 (contextDestroy atLimit s said).1 := by
  have net := told.closed.1
  unfold contextDestroy
  split
  · exact ⟨failed, rfl, told⟩
  · split
    · exact connectionError_fell told
    · exact ⟨failed, rfl, told⟩
  · exact absurd ‹_› net

theorem afterJoin_fell (said : Bool) (told : Told p s) (going : p ≠ .finished) :
    Fell p (afterJoin atLimit s said).2 (afterJoin atLimit s said).1 := by
  -- The context is destroyed behind `m_connected = false`.
  suffices destroyed : Fell p (contextDestroy atLimit { s with connected := false } said).2
      (contextDestroy atLimit { s with connected := false } said).1 by
    obtain ⟨failed, follows, now⟩ := destroyed
    obtain ⟨-, connected, isConnected⟩ := now.closed
    exact ⟨failed, follows, now.ofDown (by simp [afterJoin]) rfl connected isConnected⟩
  cases p with
  | finished => exact absurd rfl going
  | up =>
      have net := told.up.1 rfl
      simpa only [contextDestroy, net] using
        clientClosed_fell (s := { s with connected := false }) (told.notified net)
  | down failed =>
      obtain ⟨net, -, isConnected⟩ := told.closed
      exact contextDestroy_fell (told.ofDown net rfl rfl isConnected)

/-! ### What the callbacks leave alone -/

@[simp] theorem connectionError_net : (connectionError atLimit s).1.net = s.net := by
  unfold connectionError
  split <;> rfl

@[simp] theorem connectionError_service :
    (connectionError atLimit s).1.service = s.service := by
  unfold connectionError
  split <;> rfl

@[simp] theorem connectionError_finishing :
    (connectionError atLimit s).1.finishing = s.finishing := by
  unfold connectionError
  split <;> rfl

@[simp] theorem retryIfWanted_net : (retryIfWanted atLimit s).net = s.net := by
  unfold retryIfWanted
  split <;> rfl

@[simp] theorem retryIfWanted_service : (retryIfWanted atLimit s).service = s.service := by
  unfold retryIfWanted
  split <;> rfl

@[simp] theorem retryIfWanted_finishing :
    (retryIfWanted atLimit s).finishing = s.finishing := by
  unfold retryIfWanted
  split <;> rfl

@[simp] theorem contextDestroy_finishing {said : Bool} :
    (contextDestroy atLimit s said).1.finishing = s.finishing := by
  unfold contextDestroy
  split
  · rfl
  · split <;> simp
  · simp [clientClosed]

/-- What holds between the calls of the listener and the client. -/
structure Listening (p : Phase) (s : State) : Prop extends Told p s where
  finished : p = .finished → s.service = .ended ∧ s.finishing = 0
  ended : s.service = .ended → s.net = .idle ∧ s.scheduled = false
  scheduled : s.scheduled = true → s.net = .idle
  finishing : s.finishing ≤ 1 ∧ (s.finishing ≠ 0 → s.service = .ended)

/-- A call of `Connect` finds no thread that is about to call `wsClientError`. -/
def Alone (s : State) : Label → Prop
  | .doConnect _ _ => s.finishing = 0
  | _ => True

/-- A callback of a service thread that goes on. -/
theorem Listening.serving (listening : Listening p s) (serving : s.service = .serving)
    (service : t.service = .serving) (finishing : t.finishing = s.finishing)
    (scheduled : t.scheduled = true → t.net = .idle) (going : q ≠ .finished) (told : Told q t) :
    Listening q t where
  toTold := told
  finished same := absurd same going
  ended finished := by simp [service] at finished
  scheduled := scheduled
  finishing := by
    have busy := listening.finishing
    rw [finishing]
    exact ⟨busy.1, fun due => by simp [serving] at busy; exact absurd busy.2 due⟩

/-- The phase of a thread that runs, or has failed. -/
theorem Listening.going (listening : Listening p s) (running : s.service ≠ .ended) : p ≠ .finished :=
  fun same => running (listening.finished same).1

theorem Listening.isDown (listening : Listening p s) (running : s.service ≠ .ended)
    (net : s.net ≠ .up) : ∃ failed, p = .down failed := by
  cases p with
  | finished => exact absurd rfl (listening.going running)
  | up => exact absurd (listening.up.1 rfl) net
  | down failed => exact ⟨failed, rfl⟩

theorem Listening.alone (listening : Listening p s) (running : s.service ≠ .ended) :
    s.finishing = 0 := by
  by_contra due
  exact running (listening.finishing.2 due)

theorem Listening.afterJoin (listening : Listening p s) (said : Bool)
    (running : s.service ≠ .ended) : ∃ failed,
      p.follow (afterJoin atLimit s said).2 = some (.down failed) ∧
        Listening (.down failed) (afterJoin atLimit s said).1 := by
  obtain ⟨failed, follows, told⟩ :=
    afterJoin_fell said listening.toTold (listening.going running)
  have alone : (WebSocketRetry.afterJoin atLimit s said).1.finishing = 0 := by
    simp [WebSocketRetry.afterJoin, listening.alone running]
  exact ⟨failed, follows, told, nofun, fun _ => ⟨rfl, rfl⟩, fun _ => rfl, by omega, fun _ => rfl⟩

theorem Listening.processEnds {said : Bool} (listening : Listening p s)
    (running : s.service ≠ .ended) : ∃ failed,
      p.follow (processEnds atLimit s said).2 = some (.down failed) ∧
        Listening (.down failed) (processEnds atLimit s said).1 := by
  have cleared : Listening p { s with retryCount := 0 } :=
    ⟨listening.ofEq rfl rfl rfl rfl, listening.finished, listening.ended, listening.scheduled,
      listening.finishing⟩
  obtain ⟨failed, follows, joined⟩ := cleared.afterJoin said running
  have alone : (WebSocketRetry.afterJoin atLimit { s with retryCount := 0 } said).1.finishing = 0 := by
    simp [WebSocketRetry.afterJoin, listening.alone running]
  have now := joined.toTold.ofEq (t := (WebSocketRetry.processEnds atLimit s said).1) rfl rfl rfl rfl
  exact ⟨failed, follows, now, nofun, fun _ => ⟨rfl, rfl⟩, fun _ => rfl,
    by simp [WebSocketRetry.processEnds, alone], fun _ => rfl⟩

theorem Listening.disConnect (listening : Listening p s) :
    Listening p { s with processEnd := true, retryCount := 0 } :=
  ⟨listening.ofEq rfl rfl rfl rfl, listening.finished, listening.ended, listening.scheduled,
    listening.finishing⟩

theorem Listening.doConnect {created : Bool} {retryInterval : Nat} (listening : Listening p s)
    (alone : s.finishing = 0) : ∃ q,
      p.follow (if starts s created then [.started] else []) = some q ∧
        Listening q (doConnect s created retryInterval).2 := by
  unfold WebSocketRetry.doConnect
  by_cases begins : starts s created = true
  · simp only [starts, Bool.and_eq_true, Bool.not_eq_true', decide_eq_true_eq] at begins
    obtain ⟨⟨isConnected, ended⟩, created⟩ := begins
    obtain ⟨net, -⟩ := listening.ended ended
    have started : p.follow [.started] = some (.down false) := by
      cases p with
      | up => exact absurd (listening.up.1 rfl) (by simp [net])
      | _ => rfl
    refine ⟨.down false, by simpa [starts, isConnected, ended, created] using started, ?_⟩
    simp only [starts, isConnected, ended, created]
    exact ⟨⟨by simp [net], by simp, by simp [net], by simp [net], by simp [net]⟩, nofun, nofun,
      fun _ => net, by simp [alone]⟩
  · refine ⟨p, by rw [if_neg begins]; rfl, ?_⟩
    rw [if_neg begins]
    split <;> exact listening

theorem Listening.sul {attempt : Attempt} (listening : Listening p s)
    (serving : s.service = .serving) (due : s.scheduled = true) : ∃ failed,
      p.follow (connectcb atLimit { s with scheduled := false } attempt).2 = some (.down failed) ∧
        Listening (.down failed) (connectcb atLimit { s with scheduled := false } attempt).1 := by
  have net := listening.scheduled due
  obtain ⟨failed, rfl⟩ := listening.isDown (by simp [serving]) (by simp [net])
  have now : Told (.down failed) { s with scheduled := false } := listening.ofEq rfl rfl rfl rfl
  obtain ⟨later, follows, told⟩ := connectcb_fell attempt now
  refine ⟨later, follows, listening.serving serving ?_ ?_ ?_ (by simp) told⟩
  all_goals
    unfold connectcb
    split
    · simp [serving, net]
    · cases attempt with
      | started => simp [serving]
      | refused said => cases said <;> simp [retrySulSchedule, serving, net]

theorem listening_act (alone : Alone s l) (listening : Listening p s)
    (acted : act atLimit s l = some (t, es)) : ∃ q, p.follow es = some q ∧ Listening q t := by
  cases l with
  | doConnect created retryInterval =>
      simp only [act, Option.some.injEq, Prod.mk.injEq] at acted
      obtain ⟨rfl, rfl⟩ := acted
      exact listening.doConnect alone
  | disConnect =>
      simp only [act, Option.some.injEq, Prod.mk.injEq] at acted
      obtain ⟨rfl, rfl⟩ := acted
      refine ⟨p, rfl, ?_⟩
      split
      · exact listening
      · exact listening.disConnect
  | sul attempt =>
      simp only [act, Option.ite_none_right_eq_some, Option.some.injEq, Prod.ext_iff] at acted
      obtain ⟨⟨serving, due⟩, rfl, rfl⟩ := acted
      obtain ⟨failed, follows, still⟩ := listening.sul serving due
      exact ⟨_, follows, still⟩
  | established =>
      simp only [act, Option.ite_none_right_eq_some, Option.some.injEq, established,
        Prod.mk.injEq] at acted
      obtain ⟨⟨serving, net⟩, rfl, rfl⟩ := acted
      obtain ⟨failed, rfl⟩ := listening.isDown (by simp [serving]) (by simp [net])
      refine ⟨.up, by cases failed <;> rfl, listening.serving serving serving rfl ?_ (by simp) ?_⟩
      · intro due
        have idle := listening.scheduled due
        simp [net] at idle
      · exact ⟨by simp, by simp, by simp, by simp, by simp⟩
  | connectionError closedHttp =>
      simp only [act, Option.ite_none_right_eq_some, Option.some.injEq, Prod.mk.injEq] at acted
      obtain ⟨⟨serving, net⟩, rfl, rfl⟩ := acted
      obtain ⟨failed, rfl⟩ := listening.isDown (by simp [serving]) (by simp [net])
      obtain ⟨-, connected, isConnected⟩ := listening.closed
      have now : Told (.down failed) { s with net := .idle } :=
        listening.ofDown (by simp) rfl connected isConnected
      obtain ⟨later, follows, told⟩ := connectionError_fell now
      refine ⟨_, follows, listening.serving serving ?_ ?_ (fun _ => ?_) (by simp) ?_⟩
      · split <;> simp [serving]
      · split <;> simp
      · split <;> simp
      · split
        · exact told.retryIfWanted
        · exact told
  | closedClientHttp =>
      simp only [act, Option.ite_none_right_eq_some, Option.some.injEq, Prod.mk.injEq] at acted
      obtain ⟨⟨serving, net⟩, rfl, rfl⟩ := acted
      obtain ⟨failed, rfl⟩ := listening.isDown (by simp [serving]) (by simp [net])
      obtain ⟨-, connected, isConnected⟩ := listening.closed
      have now : Told (.down failed) { s with net := .idle } :=
        listening.ofDown (by simp) rfl connected isConnected
      exact ⟨_, rfl, listening.serving serving (by simp [serving]) (by simp) (by simp) (by simp)
        now.retryIfWanted⟩
  | closed =>
      simp only [act, Option.ite_none_right_eq_some, Option.some.injEq, Prod.ext_iff] at acted
      obtain ⟨⟨serving, net⟩, rfl, rfl⟩ := acted
      obtain rfl := listening.up.2 net
      obtain ⟨failed, follows, told⟩ :=
        clientClosed_fell (listening.notified net)
      exact ⟨_, follows, listening.serving serving (by simp [clientClosed, serving])
        (by simp [clientClosed]) (by simp [clientClosed]) (by simp) told⟩
  | exit said =>
      simp only [act, Option.ite_none_right_eq_some, Option.some.injEq, Prod.ext_iff] at acted
      obtain ⟨⟨serving, due⟩, rfl, rfl⟩ := acted
      obtain ⟨failed, follows, ended⟩ := listening.processEnds (by simp [serving])
      exact ⟨_, follows, ended⟩
  | fail said =>
      simp only [act, Option.ite_none_right_eq_some, Option.some.injEq] at acted
      obtain ⟨serving, acted⟩ := acted
      split at acted <;> simp only [Prod.ext_iff] at acted <;> obtain ⟨rfl, rfl⟩ := acted
      · obtain ⟨failed, follows, ended⟩ := listening.processEnds (by simp [serving])
        exact ⟨_, follows, ended⟩
      · have going := listening.going (by simp [serving])
        have alone := listening.alone (by simp [serving])
        exact ⟨p, rfl, listening.ofEq rfl rfl rfl rfl, fun finished => absurd finished going, nofun,
          listening.scheduled, by simp [alone]⟩
  | join said =>
      simp only [act, Option.ite_none_right_eq_some, Option.some.injEq, Prod.ext_iff] at acted
      obtain ⟨⟨finished, due⟩, rfl, rfl⟩ := acted
      obtain ⟨failed, follows, ended⟩ := listening.afterJoin said (by simp [finished])
      exact ⟨_, follows, ended⟩
  | error =>
      simp only [act, Option.ite_none_left_eq_some, Option.some.injEq, Prod.mk.injEq] at acted
      obtain ⟨due, rfl, rfl⟩ := acted
      obtain ⟨one, ended⟩ := listening.finishing
      obtain ⟨net, scheduled⟩ := listening.ended (ended due)
      have only : s.finishing - 1 = 0 := by omega
      have finished : p.follow [.error] = some .finished := by
        cases p with
        | finished => exact absurd (listening.finished rfl).2 due
        | up => exact absurd (listening.up.1 rfl) (by simp [net])
        | down failed => cases failed <;> rfl
      refine ⟨.finished, finished, ⟨by simp [net], nofun, ?_, by simp [net], by simp [net]⟩,
        fun _ => ⟨ended due, only⟩, fun _ => ⟨net, scheduled⟩, fun _ => net, by simp [only]⟩
      simp [listening.connected, net]

@[simp] theorem follow_append : p.follow (es ++ fs) = (p.follow es).bind (·.follow fs) :=
  List.foldlM_append ..

theorem listening_step (h : List (List Event)) (s : State) (l : Label) (t : State)
    (alone : Alone s l) (listening : ∃ p, Phase.finished.follow h.flatten = some p ∧ Listening p s)
    (moved : step atLimit s l = some t) :
    ∃ p, Phase.finished.follow (h ++ (shows atLimit s l).toList).flatten = some p ∧ Listening p t := by
  obtain ⟨p, follows, listening⟩ := listening
  obtain ⟨es, acted⟩ := step_eq_some.1 moved
  obtain ⟨q, next, still⟩ := listening_act alone listening acted
  refine ⟨q, ?_, still⟩
  simp [shows_of_act acted, follows, next]

theorem listening_start : Listening .finished ({} : State) :=
  ⟨⟨by simp, by simp, rfl, rfl, by simp⟩, fun _ => ⟨rfl, rfl⟩, fun _ => ⟨rfl, rfl⟩, nofun, by simp⟩

/-- **What the listener is told.**  In every run, however the attempts, the connections and the
calls of `disConnect` come, the listener is called in the order of `Phase`, attempts are made
only without a connection, and between two steps `m_isConnected` and `m_connected` both say
whether libwebsockets has a connection. -/
theorem listener_protocol {ls : List Label} (alone : Along (step atLimit) Alone {} ls)
    (ran : exec (step atLimit) {} ls = some s) :
    ∃ p, Phase.finished.follow (events atLimit {} ls) = some p ∧ (p = .up ↔ s.net = .up) ∧
      s.isConnected = decide (s.net = .up) ∧ s.connected = decide (s.net = .up) := by
  obtain ⟨p, follows, listening⟩ :=
    exec_history (h := []) listening_step alone ⟨.finished, rfl, listening_start⟩ ran
  exact ⟨p, follows, listening.up, listening.isConnected, listening.connected⟩

/-- A connection comes up on the second attempt, is closed, and the client disconnects. -/
theorem listener_protocol_one :
    let ls : List Label := [.doConnect true 500, .sul .started, .connectionError false,
      .sul .started, .established, .closed, .disConnect, .exit false, .error]
    (events true {} ls = [.started, .attempt, .failed, .attempt, .connected, .disconnected, .error]) ∧
      ∃ s : State, s.service = .ended ∧ ∃ p, Phase.finished.follow (events true {} ls) = some p ∧
        (p = .up ↔ s.net = .up) ∧ s.isConnected = decide (s.net = .up) ∧
        s.connected = decide (s.net = .up) := by
  have ran : exec (step true) {} [.doConnect true 500, .sul .started, .connectionError false,
      .sul .started, .established, .closed, .disConnect, .exit false, .error] =
      some { processEnd := true, retryInterval := 500 } := by decide
  exact ⟨by decide, _, rfl, listener_protocol (by simp [Along, Alone, step, act, doConnect, starts]) ran⟩

/-- A `Connect` that comes in between the end of `disConnect` and `wsClientError` is told that
there is no connection once it has one. -/
example : (exec (step true) {} [.doConnect true 500, .disConnect, .exit false, .doConnect true 500,
    .sul .started, .established, .error]).map (fun s => (s.net, s.isConnected)) =
      some (.up, false) := by decide

/-! ## How many attempts are made -/

/-- The attempts since the client was started or connected, `n` before these events. -/
def tally (n : Nat) (es : List Event) : Nat :=
  es.foldl (fun n e => match e with
    | .started | .connected => 0
    | .attempt => n + 1
    | _ => n) n

/-- The count keeps up with `n` attempts, and what is scheduled is concealed. -/
structure Pace (n : Nat) (s : State) : Prop where
  count : n ≤ s.retryCount + 1
  scheduled : s.scheduled = true → n ≤ s.retryCount ∧ n ≤ concealCount

variable {n : Nat}

theorem le_of_conceals {ctry : Nat} (hides : conceals atLimit ctry = true) : ctry ≤ concealCount := by
  simp only [conceals, Bool.or_eq_true, Bool.and_eq_true, decide_eq_true_eq] at hides
  omega

theorem Pace.retrySulSchedule (pace : Pace n s) : Pace n (retrySulSchedule atLimit s) where
  count := Nat.le_succ_of_le pace.count
  scheduled due := by
    have count := pace.count
    simp only [WebSocketRetry.retrySulSchedule, Bool.or_eq_true] at due ⊢
    rcases due with due | hides
    · exact ⟨Nat.le_succ_of_le (pace.scheduled due).1, (pace.scheduled due).2⟩
    · exact ⟨count, Nat.le_trans count (le_of_conceals hides)⟩

theorem Pace.retryIfWanted (pace : Pace n s) : Pace n (retryIfWanted atLimit s) := by
  unfold WebSocketRetry.retryIfWanted
  split
  · exact pace.retrySulSchedule
  · exact pace

theorem Pace.connectionError (pace : Pace n s) : Pace n (connectionError atLimit s).1 := by
  unfold WebSocketRetry.connectionError
  split
  · exact pace.retrySulSchedule
  · exact Pace.retrySulSchedule ⟨pace.count, pace.scheduled⟩

/-- What the end of the connection may still add to the count. -/
def Net.pending : Net → Nat
  | .idle => 0
  | .attempting => 2
  | .up => 1

/-- Whatever was not scheduled was not concealed. -/
def Quiet (atLimit : Bool) (s : State) : Prop :=
  s.net = .idle → s.scheduled = false → conceals atLimit s.retryCount = false

/-- The attempts since the last connection, and what the client does about the next. -/
structure Counted (atLimit : Bool) (n : Nat) (s : State) : Prop where
  limit : n ≤ concealCount + 1
  count : s.retryCount + s.net.pending ≤ 2 * n + 1
  pace : s.processEnd = false → Pace n s
  quiet : s.service = .serving → s.processEnd = false → s.retryInterval ≠ 0 → Quiet atLimit s

theorem Quiet.retrySulSchedule : Quiet atLimit (retrySulSchedule atLimit s) := by
  intro _ unscheduled
  simp only [WebSocketRetry.retrySulSchedule, Bool.or_eq_false_iff] at unscheduled
  exact unscheduled.2

theorem Quiet.retryIfWanted (wanted : s.retryInterval ≠ 0) :
    Quiet atLimit (retryIfWanted atLimit s) := by
  rw [WebSocketRetry.retryIfWanted, if_pos wanted]
  exact Quiet.retrySulSchedule

theorem Quiet.connectionError : Quiet atLimit (connectionError atLimit s).1 := by
  unfold WebSocketRetry.connectionError
  split <;> exact Quiet.retrySulSchedule

@[simp] theorem connectionError_retryCount :
    (connectionError atLimit s).1.retryCount = s.retryCount + 1 := by
  unfold connectionError
  split <;> rfl

@[simp] theorem connectionError_processEnd :
    (connectionError atLimit s).1.processEnd = s.processEnd := by
  unfold connectionError
  split <;> rfl

@[simp] theorem connectionError_retryInterval :
    (connectionError atLimit s).1.retryInterval = s.retryInterval := by
  unfold connectionError
  split <;> rfl

theorem retryIfWanted_retryCount (atLimit : Bool) (s : State) :
    (retryIfWanted atLimit s).retryCount ≤ s.retryCount + 1 := by
  unfold retryIfWanted
  split
  · exact Nat.le_refl _
  · exact Nat.le_succ _

@[simp] theorem retryIfWanted_processEnd :
    (retryIfWanted atLimit s).processEnd = s.processEnd := by
  unfold retryIfWanted
  split <;> rfl

@[simp] theorem retryIfWanted_retryInterval :
    (retryIfWanted atLimit s).retryInterval = s.retryInterval := by
  unfold retryIfWanted
  split <;> rfl

theorem tally_connectionError : tally n (connectionError atLimit s).2 = n := by
  unfold connectionError
  split <;> rfl

/-- An attempt is made. -/
theorem counted_attempt {attempt : Attempt} (going : s.processEnd = false) (net : s.net = .idle)
    (below : n ≤ concealCount) (pace : Pace (n + 1) s) (unscheduled : s.scheduled = false)
    (count : s.retryCount ≤ 2 * n + 1) :
    Counted atLimit (tally n (connectcb atLimit s attempt).2) (connectcb atLimit s attempt).1 := by
  have limit : n + 1 ≤ concealCount + 1 := by omega
  have tallied : tally n [.attempt] = n + 1 := rfl
  simp only [connectcb, going, Bool.false_eq_true, if_false]
  rcases attempt with _ | _ | _
  · simp only [tallied]
    refine ⟨limit, ?_, fun _ => ⟨pace.count, by simp [unscheduled]⟩, fun _ _ _ idle => nomatch idle⟩
    simp only [Net.pending]
    omega
  · simp only [tallied]
    refine ⟨limit, ?_, fun _ => pace.retrySulSchedule, fun _ _ _ => Quiet.retrySulSchedule⟩
    simp only [retrySulSchedule, net, Net.pending]
    omega
  · have also : tally n (.attempt :: (connectionError atLimit s).2) = n + 1 :=
      tally_connectionError
    simp only [also]
    refine ⟨limit, ?_, fun _ => pace.connectionError.retrySulSchedule,
      fun _ _ _ => Quiet.retrySulSchedule⟩
    simp only [retrySulSchedule, connectionError_retryCount, connectionError_net, net, Net.pending]
    omega

/-- The time of an attempt has come. -/
theorem Counted.sul {attempt : Attempt} (counted : Counted atLimit n s)
    (due : s.scheduled = true) (net : s.net = .idle) :
    Counted atLimit (tally n (connectcb atLimit { s with scheduled := false } attempt).2)
      (connectcb atLimit { s with scheduled := false } attempt).1 := by
  have count := counted.count
  rw [net] at count
  by_cases going : s.processEnd = false
  · obtain ⟨kept, below⟩ := (counted.pace going).scheduled due
    exact counted_attempt going net below ⟨Nat.succ_le_succ kept, by simp⟩ rfl count
  · have finished : connectcb atLimit { s with scheduled := false } attempt =
        ({ s with scheduled := false }, []) := if_pos (by simpa using going)
    rw [finished]
    refine ⟨counted.limit, ?_, fun again => absurd again going, fun _ again => absurd again going⟩
    rw [show ({ s with scheduled := false } : State).net = .idle from net]
    exact count

theorem contextDestroy_retryCount {said : Bool} :
    (contextDestroy atLimit s said).1.retryCount ≤ s.retryCount + s.net.pending := by
  unfold contextDestroy
  split
  · exact Nat.le_add_right _ _
  · have pending : s.net.pending = 2 := by simp [*, Net.pending]
    split
    · simp [pending]
    · exact Nat.le_add_right _ _
  · have pending : s.net.pending = 1 := by simp [*, Net.pending]
    rw [pending]
    exact retryIfWanted_retryCount ..

@[simp] theorem contextDestroy_processEnd {said : Bool} :
    (contextDestroy atLimit s said).1.processEnd = s.processEnd := by
  unfold contextDestroy
  split
  · rfl
  · split <;> simp
  · simp [clientClosed]

theorem tally_contextDestroy {said : Bool} : tally n (contextDestroy atLimit s said).2 = n := by
  unfold contextDestroy
  split
  · rfl
  · split
    · exact tally_connectionError
    · rfl
  · rfl

/-- A client that is told to end, and whose connection is gone. -/
theorem Counted.ended (counted : Counted atLimit n s) (finished : t.processEnd = true)
    (net : t.net = .idle) (count : t.retryCount ≤ s.retryCount + s.net.pending) :
    Counted atLimit n t := by
  have before := counted.count
  refine ⟨counted.limit, ?_, fun going => by simp [finished] at going,
    fun _ going => by simp [finished] at going⟩
  rw [net]
  exact Nat.le_trans count before

/-- The end of `process`. -/
theorem Counted.processEnds {said : Bool} (counted : Counted atLimit n s)
    (finished : s.processEnd = true) :
    Counted atLimit (tally n (processEnds atLimit s said).2) (processEnds atLimit s said).1 := by
  have tallied : tally n (WebSocketRetry.processEnds atLimit s said).2 = n := tally_contextDestroy
  rw [tallied]
  refine counted.ended (by simpa [WebSocketRetry.processEnds, afterJoin] using finished) rfl ?_
  have bound : (contextDestroy atLimit { s with retryCount := 0, connected := false } said).1.retryCount
      ≤ 0 + s.net.pending := contextDestroy_retryCount
  simp only [Nat.zero_add] at bound
  exact Nat.le_trans bound (Nat.le_add_left _ _)

theorem counted_act (listening : Listening p s) (counted : Counted atLimit n s)
    (acted : act atLimit s l = some (t, es)) : Counted atLimit (tally n es) t := by
  have count := counted.count
  cases l with
  | doConnect created retryInterval =>
      simp only [act, Option.some.injEq, Prod.mk.injEq] at acted
      obtain ⟨rfl, rfl⟩ := acted
      by_cases begins : starts s created = true
      · have begun := begins
        simp only [starts, Bool.and_eq_true, Bool.not_eq_true', decide_eq_true_eq] at begun
        obtain ⟨⟨isConnected, finished⟩, -⟩ := begun
        obtain ⟨net, -⟩ := listening.ended finished
        simp only [doConnect, isConnected, begins, Bool.false_eq_true, if_false, if_true]
        exact ⟨Nat.zero_le _, by simp [net, Net.pending], fun _ => ⟨Nat.zero_le _, by simp [tally]⟩,
          fun _ _ _ _ unscheduled => nomatch unscheduled⟩
      · have same : (doConnect s created retryInterval).2 = s := by
          by_cases up : s.isConnected <;>
          simp [doConnect, begins, up]
        rw [same, if_neg begins]
        exact counted
  | disConnect =>
      simp only [act, Option.some.injEq, Prod.mk.injEq] at acted
      obtain ⟨rfl, rfl⟩ := acted
      split
      · exact counted
      · exact ⟨counted.limit, Nat.le_trans (by simp) count, nofun, nofun⟩
  | sul attempt =>
      simp only [act, Option.ite_none_right_eq_some, Option.some.injEq, Prod.ext_iff] at acted
      obtain ⟨⟨serving, due⟩, rfl, rfl⟩ := acted
      exact counted.sul due (listening.scheduled due)
  | established =>
      simp only [act, Option.ite_none_right_eq_some, Option.some.injEq, established,
        Prod.mk.injEq] at acted
      obtain ⟨⟨serving, net⟩, rfl, rfl⟩ := acted
      exact ⟨Nat.zero_le _, by simp [Net.pending], fun _ => ⟨Nat.zero_le _, by simp [tally]⟩,
        fun _ _ _ idle => nomatch idle⟩
  | connectionError closedHttp =>
      simp only [act, Option.ite_none_right_eq_some, Option.some.injEq, Prod.mk.injEq] at acted
      obtain ⟨⟨serving, net⟩, rfl, rfl⟩ := acted
      simp only [net, Net.pending] at count
      rw [tally_connectionError]
      have pace : s.processEnd = false → Pace n { s with net := .idle } :=
        fun going => ⟨(counted.pace going).count, (counted.pace going).scheduled⟩
      cases closedHttp with
      | false =>
          refine ⟨counted.limit, ?_, fun going => (pace (by simpa using going)).connectionError,
            fun _ _ _ => Quiet.connectionError⟩
          simp [Net.pending]
          omega
      | true =>
          have one := retryIfWanted_retryCount atLimit
            (connectionError atLimit { s with net := .idle }).1
          refine ⟨counted.limit, ?_,
            fun going => (pace (by simpa using going)).connectionError.retryIfWanted,
            fun _ _ wanted => Quiet.retryIfWanted (by simpa using wanted)⟩
          simp [Net.pending] at one ⊢
          omega
  | closedClientHttp =>
      simp only [act, Option.ite_none_right_eq_some, Option.some.injEq, Prod.mk.injEq] at acted
      obtain ⟨⟨serving, net⟩, rfl, rfl⟩ := acted
      simp only [net, Net.pending] at count
      have one := retryIfWanted_retryCount atLimit { s with net := .idle }
      rw [show tally n [] = n from rfl]
      refine ⟨counted.limit, ?_, fun going => ?_,
        fun _ _ wanted => Quiet.retryIfWanted (by simpa using wanted)⟩
      · simp [Net.pending] at one ⊢
        exact Nat.le_trans one (by omega)
      · have pace := counted.pace (by simpa using going)
        exact Pace.retryIfWanted ⟨pace.count, pace.scheduled⟩
  | closed =>
      simp only [act, Option.ite_none_right_eq_some, Option.some.injEq, Prod.ext_iff] at acted
      obtain ⟨⟨serving, net⟩, rfl, rfl⟩ := acted
      simp only [net, Net.pending] at count
      have one := retryIfWanted_retryCount atLimit
        { s with net := .idle, connected := false, isConnected := false }
      refine ⟨counted.limit, ?_, fun going => ?_,
        fun _ _ wanted => Quiet.retryIfWanted (by simpa [clientClosed] using wanted)⟩
      · simp [clientClosed, Net.pending] at one ⊢
        exact Nat.le_trans one count
      · have pace := counted.pace (by simpa [clientClosed] using going)
        exact Pace.retryIfWanted ⟨pace.count, pace.scheduled⟩
  | exit said =>
      simp only [act, Option.ite_none_right_eq_some, Option.some.injEq, Prod.ext_iff] at acted
      obtain ⟨⟨serving, due⟩, rfl, rfl⟩ := acted
      exact counted.processEnds due
  | fail said =>
      simp only [act, Option.ite_none_right_eq_some, Option.some.injEq] at acted
      obtain ⟨serving, acted⟩ := acted
      split at acted <;> simp only [Prod.ext_iff] at acted <;> obtain ⟨rfl, rfl⟩ := acted
      · exact counted.processEnds ‹_›
      · exact ⟨counted.limit, count,
          fun going => ⟨(counted.pace going).count, (counted.pace going).scheduled⟩, nofun⟩
  | join said =>
      simp only [act, Option.ite_none_right_eq_some, Option.some.injEq, Prod.ext_iff] at acted
      obtain ⟨⟨failed, due⟩, rfl, rfl⟩ := acted
      have tallied : tally n (afterJoin atLimit s said).2 = n := tally_contextDestroy
      rw [tallied]
      exact counted.ended (by simpa [afterJoin] using due) rfl contextDestroy_retryCount
  | error =>
      simp only [act, Option.ite_none_left_eq_some, Option.some.injEq, Prod.mk.injEq] at acted
      obtain ⟨due, rfl, rfl⟩ := acted
      exact ⟨counted.limit, count,
        fun going => ⟨(counted.pace going).count, (counted.pace going).scheduled⟩, counted.quiet⟩

/-! ## No attempt any more -/

/-- Nothing is connected, running or scheduled, and nobody has called `disConnect`. -/
structure GivenUp (s : State) : Prop where
  service : s.service ≠ .ended
  processEnd : s.processEnd = false
  net : s.net = .idle
  scheduled : s.scheduled = false
  isConnected : s.isConnected = false
  finishing : s.finishing = 0

theorem GivenUp.doConnect (givenUp : GivenUp s) (created : Bool) (retryInterval : Nat) :
    starts s created = false ∧ doConnect s created retryInterval = (false, s) := by
  have never : starts s created = false := by simp [starts, givenUp.service]
  exact ⟨never, by simp [WebSocketRetry.doConnect, givenUp.isConnected, never]⟩

theorem givenUp_act (givenUp : GivenUp s) (stays : l ≠ .disConnect)
    (acted : act atLimit s l = some (t, es)) : es = [] ∧ GivenUp t := by
  obtain ⟨service, processEnd, net, scheduled, isConnected, finishing⟩ := givenUp
  cases l with
  | doConnect created retryInterval =>
      obtain ⟨never, same⟩ := GivenUp.doConnect
        ⟨service, processEnd, net, scheduled, isConnected, finishing⟩ created retryInterval
      simp only [act, never, same, Option.some.injEq, Prod.mk.injEq] at acted
      obtain ⟨rfl, rfl⟩ := acted
      exact ⟨rfl, service, processEnd, net, scheduled, isConnected, finishing⟩
  | disConnect => exact absurd rfl stays
  | fail said =>
      simp only [act, processEnd, Option.ite_none_right_eq_some, Option.some.injEq,
        Bool.false_eq_true, if_false, Prod.mk.injEq] at acted
      obtain ⟨-, rfl, rfl⟩ := acted
      exact ⟨rfl, by simp, rfl, net, scheduled, isConnected, finishing⟩
  | _ => simp [act, processEnd, net, scheduled, finishing] at acted

theorem given_up_run {ks : List Label} (givenUp : GivenUp s) (stays : .disConnect ∉ ks)
    (ran : exec (step atLimit) s ks = some t) : events atLimit s ks = [] ∧ GivenUp t := by
  have along : Along (step atLimit) (fun _ l => l ≠ .disConnect) s ks :=
    along_of_labels (fun _ inside _ => ne_of_mem_of_not_mem inside stays) s
  have kept : ∀ (h : List (List Event)) s l t, l ≠ .disConnect → (h.flatten = [] ∧ GivenUp s) →
      step atLimit s l = some t →
        (h ++ (shows atLimit s l).toList).flatten = [] ∧ GivenUp t := by
    rintro h s l t stays ⟨silent, givenUp⟩ moved
    obtain ⟨es, acted⟩ := step_eq_some.1 moved
    obtain ⟨rfl, still⟩ := givenUp_act givenUp stays acted
    exact ⟨by simp [shows_of_act acted, silent], still⟩
  exact exec_history (h := []) kept along ⟨rfl, givenUp⟩ ran

theorem counted_step (h : List (List Event)) (s : State) (l : Label) (t : State)
    (alone : Alone s l)
    (so : (∃ p, Listening p s) ∧ Counted atLimit (tally 0 h.flatten) s)
    (moved : step atLimit s l = some t) :
    (∃ p, Listening p t) ∧ Counted atLimit (tally 0 (h ++ (shows atLimit s l).toList).flatten) t := by
  obtain ⟨⟨p, listening⟩, counted⟩ := so
  obtain ⟨es, acted⟩ := step_eq_some.1 moved
  obtain ⟨q, -, still⟩ := listening_act alone listening acted
  have now := counted_act listening counted acted
  refine ⟨⟨q, still⟩, ?_⟩
  simpa [shows_of_act acted, tally] using now

end ChargerStack.Ocpp.WebSocketRetry
