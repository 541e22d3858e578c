/-
# Ocpp.WebSocketSend -- what becomes of the messages given to WebSocketClient::send

Any number of threads call `send`, which queues a copy of the message and, when the client is
connected, asks libwebsockets for a writable callback.  One service thread runs the callbacks:
`CLIENT_WRITEABLE` writes queued messages, `CLIENT_ESTABLISHED` asks for the first callback of a
connection, `CLIENT_CLOSED` and `disConnect` empty the queue.  Every test, every locked call and
every call into the library is a step, so all of these come in between each other.

* `Accounted` is the invariant of the history: what was accepted is what was taken out, in that
  order, and then what is queued; what was written is a part of that, in that order;
* `messages_once`: no message is written twice or overtaken, and each is written, discarded, on
  its way or queued;
* `kept_messages_written`: without a closed connection, a failed write or a `disConnect` nothing
  is discarded, and the messages are written in the order they were accepted;
* `Awake` is the invariant behind the writable callbacks: while the connection is up and the
  service thread rests, a message that is queued has a callback asked for or about to be;
* `queue_flushed`: on a connection that stays up every order of what is left to do comes to an
  end, and then nothing is queued any more.
-/
import ChargerStack.Lib.Progress
import ChargerStack.Ocpp.Queue

namespace ChargerStack.Ocpp.WebSocketSend

open Lib

set_option autoImplicit false

universe u

variable {Msg : Type u}

/-- The connection, as libwebsockets sees it. -/
inductive Link where
  | down
  | up
  /-- `eventcb` has returned -1, and `CLIENT_CLOSED` is to come. -/
  | closing
  deriving DecidableEq, Repr

/-- Where the service thread stands. -/
inductive Service (Msg : Type u) where
  /-- There is none: `m_thread` is null. -/
  | ended
  /-- In `lws_service`, or in the loop of `process`. -/
  | loop
  /-- In `CLIENT_ESTABLISHED`, about to look at the queue. -/
  | established
  /-- In `CLIENT_WRITEABLE`, about to pop. -/
  | writing
  /-- About to write the message it has popped. -/
  | holding (msg : Msg)
  /-- About to look whether there is another. -/
  | wrote
  /-- About to ask for a callback. -/
  | requesting
  /-- In the loop of `CLIENT_CLOSED`. -/
  | closed
  /-- In `EVENT_WAIT_CANCELLED`. -/
  | cancelled
  /-- In the loop of the `disConnect(true)` at the end of `process`. -/
  | ending
  /-- In the `CLIENT_CLOSED` that `lws_context_destroy` raises. -/
  | destroying
  /-- `lws_service` has failed, and `process` has returned. -/
  | failed
  deriving DecidableEq, Repr

namespace Service

def atLoop : Service Msg → Bool
  | .loop => true
  | _ => false

def hasEnded : Service Msg → Bool
  | .ended => true
  | _ => false

def hasFailed : Service Msg → Bool
  | .failed => true
  | _ => false

/-- It is in `CLIENT_WRITEABLE`. -/
def writes : Service Msg → Bool
  | .writing | .holding _ | .wrote => true
  | _ => false

/-- There is no connection any more. -/
def unlinked : Service Msg → Bool
  | .ended | .closed | .destroying => true
  | _ => false

@[simp] theorem atLoop_iff {pc : Service Msg} : pc.atLoop = true ↔ pc = .loop := by
  cases pc <;> simp [atLoop]

@[simp] theorem hasEnded_iff {pc : Service Msg} : pc.hasEnded = true ↔ pc = .ended := by
  cases pc <;> simp [hasEnded]

@[simp] theorem hasFailed_iff {pc : Service Msg} : pc.hasFailed = true ↔ pc = .failed := by
  cases pc <;> simp [hasFailed]

end Service

/-- `common::Queue<SendMsg*>`. -/
abbrev SendQueue (Msg : Type u) := Queue Msg (2 ^ 64 - 1)

structure State (Msg : Type u) where
  /-- `m_queue`. -/
  queue : SendQueue Msg := {}
  /-- `m_connected`. -/
  connected : Bool := false
  /-- `m_wsi` is not null. -/
  wsi : Bool := false
  /-- `m_processEnd`. -/
  processEnd : Bool := false
  service : Service Msg := .ended
  /-- The threads in `send`, about to test `m_connected`. -/
  testing : Nat := 0
  /-- Those about to ask for a callback. -/
  requesting : Nat := 0
  /-- The threads in the loop of `disConnect`. -/
  draining : Nat := 0
  link : Link := .down
  /-- A writable callback has been asked for. -/
  requested : Bool := false
  deriving DecidableEq, Repr

inductive Label (Msg : Type u) where
  /-- A thread calls `send`, up to its push. -/
  | send (msg : Msg)
  /-- A thread in `send` tests `m_connected` and `m_wsi`. -/
  | test
  /-- It calls `lws_callback_on_writable`. -/
  | request
  /-- A thread calls `disConnect`, up to its loop. -/
  | disConnect (clearMsgFlag : Bool)
  /-- A thread in the loop of `disConnect` pops. -/
  | drain
  | established
  | writeable
  | closed
  | waitCancelled
  /-- The next statement of the service thread; `lws_write` succeeds or fails. -/
  | service (sent : Bool)
  /-- `process` leaves its loop. -/
  | exit
  /-- `lws_service` fails. -/
  | fail
  /-- The thread in `disConnect` joins the service thread that has failed. -/
  | join
  /-- `Connect` starts another service thread. -/
  | connect
  deriving DecidableEq, Repr

namespace State

/-- `lws_callback_on_writable`. -/
def callbackOnWritable (s : State Msg) : State Msg :=
  { s with requested := s.requested || decide (s.link = .up) }

/-- `m_queue.pop(msg, 0)`, when it returns true. -/
def pop (s : State Msg) : State Msg := { s with queue := s.queue.take.2 }

/-- What is left of `disConnect`, with `lws_context_destroy`. -/
def destroy (s : State Msg) : State Msg :=
  { s with
    service := if s.link = .down then .ended else .destroying
    connected := false, link := .down, requested := false }

/-- The message that the service thread holds. -/
def hand (s : State Msg) : List Msg :=
  match s.service with
  | .holding msg => [msg]
  | _ => []

end State

open State

variable (size : Msg → Nat)

/-- The next statement of the service thread. -/
def serviceStep (s : State Msg) (sent : Bool) : Option (State Msg) :=
  match s.service with
  | .ended | .loop | .failed => none
  | .established =>
      some { s with service := if !s.queue.empty && s.wsi then .requesting else .loop }
  | .writing =>
      some (match s.queue.ready, s.queue.take.1 with
        | true, some msg => { s.pop with service := .holding msg }
        | _, _ => { s with service := .loop })
  | .holding _ =>
      some (if sent then { s with service := .wrote } else { s with service := .loop, link := .closing })
  | .wrote => some { s with service := if s.queue.empty then .writing else .requesting }
  | .requesting => some { s.callbackOnWritable with service := .loop }
  | .closed => some (if s.queue.ready then s.pop else { s with service := .loop })
  | .cancelled =>
      some { s with service := if !s.processEnd && !s.queue.empty then .requesting else .loop }
  | .ending =>
      some (if s.queue.ready then s.pop else s.destroy)
  | .destroying => some (if s.queue.ready then s.pop else { s with service := .ended })

def step (s : State Msg) : Label Msg → Option (State Msg)
  | .send msg =>
      some (if size msg ≠ 0 ∧ (s.queue.push msg).1 = true then
        { s with queue := (s.queue.push msg).2, testing := s.testing + 1 } else s)
  | .test =>
      if s.testing = 0 then none
      else some { s with
        testing := s.testing - 1
        requesting := s.requesting + if s.connected && s.wsi then 1 else 0 }
  | .request =>
      if s.requesting = 0 then none
      else some { s.callbackOnWritable with requesting := s.requesting - 1 }
  | .disConnect clearMsgFlag =>
      if s.service.hasEnded then none
      else some { s with
        processEnd := true
        draining := s.draining + if clearMsgFlag then 1 else 0 }
  | .drain =>
      if s.draining = 0 then none
      else some (if s.queue.ready then s.pop else { s with draining := s.draining - 1 })
  | .established =>
      if s.service.atLoop ∧ s.link = .down then
        some { s with
          service := .established, link := .up, requested := false
          connected := true, wsi := true }
      else none
  | .writeable =>
      if s.service.atLoop ∧ s.link = .up ∧ s.requested = true then
        some { s with service := .writing, requested := false }
      else none
  | .closed =>
      if s.service.atLoop ∧ s.link ≠ .down then
        some { s with service := .closed, link := .down, requested := false, connected := false }
      else none
  | .waitCancelled => if s.service.atLoop then some { s with service := .cancelled } else none
  | .service sent => serviceStep s sent
  | .exit =>
      if s.service.atLoop ∧ s.processEnd = true then some { s with service := .ending } else none
  | .fail =>
      if s.service.atLoop then some { s with service := if s.processEnd then .ending else .failed }
      else none
  | .join => if s.service.hasFailed ∧ s.processEnd = true then some s.destroy else none
  | .connect =>
      if s.service.hasEnded then
        some { s with
          service := .loop, processEnd := false
          connected := false, link := .down, requested := false }
      else none

/-! ## What a run shows -/

inductive Event (Msg : Type u) where
  /-- `send` returns true. -/
  | accepted (msg : Msg)
  /-- The service thread pops the message to write it. -/
  | taken (msg : Msg)
  | written (msg : Msg)
  /-- `lws_write` fails. -/
  | lost (msg : Msg)
  /-- The message is popped and deleted. -/
  | dropped (msg : Msg)
  deriving DecidableEq, Repr

/-- A loop that empties the queue drops its front. -/
def showsDrop (s : State Msg) : Option (Event Msg) :=
  if s.queue.ready then s.queue.take.1.map .dropped else none

def shows (s : State Msg) : Label Msg → Option (Event Msg)
  | .send msg => if size msg ≠ 0 ∧ (s.queue.push msg).1 = true then some (.accepted msg) else none
  | .drain => showsDrop s
  | .service sent =>
      match s.service with
      | .writing => if s.queue.ready then s.queue.take.1.map .taken else none
      | .holding msg => some (if sent then .written msg else .lost msg)
      | .closed | .ending | .destroying => showsDrop s
      | _ => none
  | _ => none

def accepted (es : List (Event Msg)) : List Msg :=
  es.filterMap fun | .accepted msg => some msg | _ => none

/-- What was popped, in order. -/
def out (es : List (Event Msg)) : List Msg :=
  es.filterMap fun | .taken msg | .dropped msg => some msg | _ => none

def written (es : List (Event Msg)) : List Msg :=
  es.filterMap fun | .written msg => some msg | _ => none

def discarded (es : List (Event Msg)) : List Msg :=
  es.filterMap fun | .lost msg | .dropped msg => some msg | _ => none

/-! ## What a step can do -/

variable {size : Msg → Nat} {s t : State Msg} {l : Label Msg} {es fs : List (Event Msg)}

/-- The steps, with what each of them needs and does; `m_queue` is enabled, so that `pop` waits
for nothing but an item. -/
inductive Move (size : Msg → Nat) (s : State Msg) : Label Msg → State Msg → Prop where
  | accepts (msg : Msg) (fits : size msg ≠ 0) (room : (s.queue.push msg).1 = true) :
      Move size s (.send msg) { s with queue := (s.queue.push msg).2, testing := s.testing + 1 }
  | refuses (msg : Msg) (refused : ¬ (size msg ≠ 0 ∧ (s.queue.push msg).1 = true)) :
      Move size s (.send msg) s
  | tests (due : s.testing ≠ 0) : Move size s .test { s with
      testing := s.testing - 1
      requesting := s.requesting + if s.connected && s.wsi then 1 else 0 }
  | requests (due : s.requesting ≠ 0) :
      Move size s .request { s.callbackOnWritable with requesting := s.requesting - 1 }
  | disConnects (clear : Bool) (running : s.service ≠ .ended) : Move size s (.disConnect clear)
      { s with processEnd := true, draining := s.draining + if clear then 1 else 0 }
  | drops (k : Label Msg) (msg : Msg) (rest : List Msg) (items : s.queue.items = msg :: rest)
      (at_ : k = .drain ∧ s.draining ≠ 0 ∨ ∃ sent, k = .service sent ∧
        (s.service = .closed ∨ s.service = .ending ∨ s.service = .destroying)) :
      Move size s k { s with queue := { s.queue with items := rest } }
  | drained (due : s.draining ≠ 0) (items : s.queue.items = []) :
      Move size s .drain { s with draining := s.draining - 1 }
  | establishes (at_ : s.service = .loop) (link : s.link = .down) : Move size s .established
      { s with
        service := .established, link := .up, requested := false, connected := true, wsi := true }
  | writeable (at_ : s.service = .loop) (link : s.link = .up) (due : s.requested = true) :
      Move size s .writeable { s with service := .writing, requested := false }
  | closes (at_ : s.service = .loop) (link : s.link ≠ .down) : Move size s .closed
      { s with service := .closed, link := .down, requested := false, connected := false }
  | cancels (at_ : s.service = .loop) : Move size s .waitCancelled { s with service := .cancelled }
  | takes (sent : Bool) (at_ : s.service = .writing) (msg : Msg) (rest : List Msg)
      (items : s.queue.items = msg :: rest) : Move size s (.service sent)
        { s with queue := { s.queue with items := rest }, service := .holding msg }
  | writes (msg : Msg) (at_ : s.service = .holding msg) :
      Move size s (.service true) { s with service := .wrote }
  | fails (msg : Msg) (at_ : s.service = .holding msg) :
      Move size s (.service false) { s with service := .loop, link := .closing }
  | again (sent : Bool) (at_ : s.service = .wrote) (items : s.queue.items = []) :
      Move size s (.service sent) { s with service := .writing }
  /-- The service thread has found a message and asks for a callback. -/
  | asks (sent : Bool)
      (at_ : s.service = .established ∨ s.service = .wrote ∨ s.service = .cancelled)
      (items : s.queue.items ≠ []) : Move size s (.service sent) { s with service := .requesting }
  | asked (sent : Bool) (at_ : s.service = .requesting) :
      Move size s (.service sent) { s.callbackOnWritable with service := .loop }
  /-- A callback is over. -/
  | rests (sent : Bool) (ended : s.service = .established ∧ (s.queue.items = [] ∨ s.wsi = false) ∨
        s.service = .writing ∧ s.queue.items = [] ∨ s.service = .closed ∧ s.queue.items = [] ∨
        s.service = .cancelled ∧ (s.queue.items = [] ∨ s.processEnd = true)) :
      Move size s (.service sent) { s with service := .loop }
  | ends (sent : Bool) (at_ : s.service = .ending) (items : s.queue.items = []) :
      Move size s (.service sent) s.destroy
  | destroyed (sent : Bool) (at_ : s.service = .destroying) (items : s.queue.items = []) :
      Move size s (.service sent) { s with service := .ended }
  | joins (at_ : s.service = .failed) (due : s.processEnd = true) : Move size s .join s.destroy
  | failsToEnd (at_ : s.service = .loop) (due : s.processEnd = true) :
      Move size s .fail { s with service := .ending }
  | failsToServe (at_ : s.service = .loop) (due : s.processEnd = false) :
      Move size s .fail { s with service := .failed }
  | exits (at_ : s.service = .loop) (due : s.processEnd = true) :
      Move size s .exit { s with service := .ending }
  | connects (at_ : s.service = .ended) : Move size s .connect { s with
      service := .loop, processEnd := false
      connected := false, link := .down, requested := false }

/-- The queue of a client holds nothing, or its front is what `pop` moves out. -/
theorem pop_cases (enabled : s.queue.enabled = true) :
    (s.queue.items = [] ∧ s.queue.ready = false ∧ s.queue.empty = true) ∨
      ∃ msg rest, s.queue.items = msg :: rest ∧ s.queue.ready = true ∧ s.queue.empty = false ∧
        s.queue.take = (some msg, { s.queue with items := rest }) := by
  cases items : s.queue.items with
  | nil => exact .inl ⟨rfl, by simp [Queue.ready, enabled, items], by simp [Queue.empty, items]⟩
  | cons msg rest =>
      exact .inr ⟨msg, rest, rfl, by simp [Queue.ready, items], by simp [Queue.empty, items],
        Queue.take_items enabled items⟩

theorem move_of_service {sent : Bool} (enabled : s.queue.enabled = true)
    (moved : serviceStep s sent = some t) : Move size s (.service sent) t := by
  have front := pop_cases enabled
  cases at_ : s.service <;> simp only [serviceStep, at_, Option.some.injEq, reduceCtorEq] at moved
  case established =>
    subst moved
    rcases front with ⟨items, ready, empty⟩ | ⟨msg, rest, items, ready, empty, take⟩
    · simpa [empty] using Move.rests sent (.inl ⟨at_, .inl items⟩)
    · cases wsi : s.wsi with
      | true => simpa [empty, wsi] using Move.asks sent (.inl at_) (by simp [items])
      | false => simpa [empty, wsi] using Move.rests sent (.inl ⟨at_, .inr wsi⟩)
  case writing =>
    subst moved
    rcases front with ⟨items, ready, empty⟩ | ⟨msg, rest, items, ready, empty, take⟩
    · simpa [ready] using Move.rests sent (.inr (.inl ⟨at_, items⟩))
    · simpa [ready, take, State.pop] using Move.takes sent at_ msg rest items
  case holding msg =>
    subst moved
    cases sent with
    | true => exact .writes msg at_
    | false => exact .fails msg at_
  case wrote =>
    subst moved
    rcases front with ⟨items, ready, empty⟩ | ⟨msg, rest, items, ready, empty, take⟩
    · simpa [empty] using Move.again sent at_ items
    · simpa [empty] using Move.asks sent (.inr (.inl at_)) (by simp [items])
  case requesting =>
    subst moved
    exact .asked sent at_
  case closed =>
    subst moved
    rcases front with ⟨items, ready, empty⟩ | ⟨msg, rest, items, ready, empty, take⟩
    · simpa [ready] using Move.rests sent (.inr (.inr (.inl ⟨at_, items⟩)))
    · simpa [ready, take, State.pop] using
        Move.drops _ msg rest items (.inr ⟨sent, rfl, .inl at_⟩)
  case cancelled =>
    subst moved
    rcases front with ⟨items, ready, empty⟩ | ⟨msg, rest, items, ready, empty, take⟩
    · simpa [empty] using Move.rests sent (.inr (.inr (.inr ⟨at_, .inl items⟩)))
    · cases ended : s.processEnd with
      | true => simpa [empty, ended] using Move.rests sent (.inr (.inr (.inr ⟨at_, .inr ended⟩)))
      | false => simpa [empty, ended] using Move.asks sent (.inr (.inr at_)) (by simp [items])
  case ending =>
    subst moved
    rcases front with ⟨items, ready, empty⟩ | ⟨msg, rest, items, ready, empty, take⟩
    · simpa [ready] using Move.ends sent at_ items
    · simpa [ready, take, State.pop] using
        Move.drops _ msg rest items (.inr ⟨sent, rfl, .inr (.inl at_)⟩)
  case destroying =>
    subst moved
    rcases front with ⟨items, ready, empty⟩ | ⟨msg, rest, items, ready, empty, take⟩
    · simpa [ready] using Move.destroyed sent at_ items
    · simpa [ready, take, State.pop] using
        Move.drops _ msg rest items (.inr ⟨sent, rfl, .inr (.inr at_)⟩)

theorem move_of_step (enabled : s.queue.enabled = true) (moved : step size s l = some t) :
    Move size s l t := by
  cases l with
  | send msg =>
      obtain rfl := Option.some.inj moved
      split
      · exact .accepts msg (And.left ‹_›) (And.right ‹_›)
      · exact .refuses msg ‹_›
  | test =>
      simp only [step, Option.ite_none_left_eq_some, Option.some.injEq] at moved
      obtain ⟨due, rfl⟩ := moved
      exact .tests due
  | request =>
      simp only [step, Option.ite_none_left_eq_some, Option.some.injEq] at moved
      obtain ⟨due, rfl⟩ := moved
      exact .requests due
  | disConnect clear =>
      simp only [step, Option.ite_none_left_eq_some, Option.some.injEq, Service.hasEnded_iff]
        at moved
      obtain ⟨running, rfl⟩ := moved
      exact .disConnects clear running
  | drain =>
      simp only [step, Option.ite_none_left_eq_some, Option.some.injEq] at moved
      obtain ⟨due, rfl⟩ := moved
      rcases pop_cases enabled with ⟨items, ready, -⟩ | ⟨msg, rest, items, ready, -, take⟩
      · simpa [ready] using Move.drained due items
      · simpa [ready, take, State.pop] using Move.drops _ msg rest items (.inl ⟨rfl, due⟩)
  | established =>
      simp only [step, Option.ite_none_right_eq_some, Option.some.injEq, Service.atLoop_iff]
        at moved
      obtain ⟨⟨at_, link⟩, rfl⟩ := moved
      exact .establishes at_ link
  | writeable =>
      simp only [step, Option.ite_none_right_eq_some, Option.some.injEq, Service.atLoop_iff]
        at moved
      obtain ⟨⟨at_, link, due⟩, rfl⟩ := moved
      exact .writeable at_ link due
  | closed =>
      simp only [step, Option.ite_none_right_eq_some, Option.some.injEq, Service.atLoop_iff]
        at moved
      obtain ⟨⟨at_, link⟩, rfl⟩ := moved
      exact .closes at_ link
  | waitCancelled =>
      simp only [step, Option.ite_none_right_eq_some, Option.some.injEq, Service.atLoop_iff]
        at moved
      obtain ⟨at_, rfl⟩ := moved
      exact .cancels at_
  | service sent => exact move_of_service enabled moved
  | exit =>
      simp only [step, Option.ite_none_right_eq_some, Option.some.injEq, Service.atLoop_iff]
        at moved
      obtain ⟨⟨at_, due⟩, rfl⟩ := moved
      exact .exits at_ due
  | fail =>
      simp only [step, Option.ite_none_right_eq_some, Option.some.injEq, Service.atLoop_iff]
        at moved
      obtain ⟨at_, rfl⟩ := moved
      cases due : s.processEnd with
      | true => simpa [due] using Move.failsToEnd at_ due
      | false => simpa [due] using Move.failsToServe at_ due
  | join =>
      simp only [step, Option.ite_none_right_eq_some, Option.some.injEq, Service.hasFailed_iff]
        at moved
      obtain ⟨⟨at_, due⟩, rfl⟩ := moved
      exact .joins at_ due
  | connect =>
      simp only [step, Option.ite_none_right_eq_some, Option.some.injEq, Service.hasEnded_iff]
        at moved
      obtain ⟨at_, rfl⟩ := moved
      exact .connects at_

/-! ## Every message once -/

/-- What a step does to the queue and to the message on its way, by what it shows. -/
inductive Effect (s t : State Msg) : Option (Event Msg) → Prop where
  | silent (items : t.queue.items = s.queue.items) (hand : t.hand = s.hand) : Effect s t none
  | accepts (msg : Msg) (items : t.queue.items = s.queue.items ++ [msg]) (hand : t.hand = s.hand) :
      Effect s t (some (.accepted msg))
  | takes (msg : Msg) (items : s.queue.items = msg :: t.queue.items) (free : s.hand = [])
      (hand : t.hand = [msg]) : Effect s t (some (.taken msg))
  | writes (msg : Msg) (items : t.queue.items = s.queue.items) (held : s.hand = [msg])
      (hand : t.hand = []) : Effect s t (some (.written msg))
  | loses (msg : Msg) (items : t.queue.items = s.queue.items) (held : s.hand = [msg])
      (hand : t.hand = []) : Effect s t (some (.lost msg))
  | drops (msg : Msg) (items : s.queue.items = msg :: t.queue.items) (hand : t.hand = s.hand) :
      Effect s t (some (.dropped msg))

theorem showsDrop_items {msg : Msg} {rest : List Msg} (enabled : s.queue.enabled = true)
    (items : s.queue.items = msg :: rest) : showsDrop s = some (.dropped msg) := by
  simp [showsDrop, Queue.ready, Queue.take, enabled, items]

theorem showsDrop_nil (enabled : s.queue.enabled = true) (items : s.queue.items = []) :
    showsDrop s = none := by
  simp [showsDrop, Queue.ready, enabled, items]

theorem hand_of_ne (free : ∀ msg, s.service ≠ .holding msg) : s.hand = [] := by
  unfold hand
  split
  · exact absurd ‹_› (free _)
  · rfl

@[simp] theorem hand_destroy : s.destroy.hand = [] := by
  refine hand_of_ne fun msg => ?_
  by_cases link : s.link = .down <;> simp [destroy, link]

theorem effect_of_move (enabled : s.queue.enabled = true) (moved : Move size s l t) :
    Effect s t (shows size s l) := by
  cases moved with
  | accepts msg fits room =>
      rw [show shows size s (.send msg) = some (.accepted msg) from if_pos ⟨fits, room⟩]
      refine .accepts msg ?_ rfl
      show (s.queue.push msg).2.items = _
      rw [Queue.push_items, room, if_pos rfl]
  | refuses msg refused =>
      rw [show shows size s (.send msg) = none from if_neg refused]
      exact .silent rfl rfl
  | tests | requests | disConnects => exact .silent rfl rfl
  | drops k msg rest items at_ =>
      have shown : shows size s l = some (.dropped msg) := by
        rcases at_ with ⟨rfl, -⟩ | ⟨sent, rfl, at_ | at_ | at_⟩
        · exact showsDrop_items enabled items
        all_goals simpa [shows, at_] using showsDrop_items enabled items
      rw [shown]
      exact .drops msg items rfl
  | drained due items =>
      rw [show shows size s .drain = none from showsDrop_nil enabled items]
      exact .silent rfl rfl
  | establishes at_ | writeable at_ | closes at_ | cancels at_ | failsToEnd at_
  | failsToServe at_ | exits at_ | connects at_ =>
      exact .silent rfl (by simp [hand, at_])
  | joins at_ =>
      exact .silent rfl (by rw [hand_destroy, hand_of_ne (by simp [at_])])
  | takes sent at_ msg rest items =>
      have shown : shows size s (.service sent) = some (.taken msg) := by
        simp [shows, at_, Queue.ready, Queue.take, enabled, items]
      rw [shown]
      exact .takes msg items (hand_of_ne (by simp [at_])) rfl
  | writes msg at_ =>
      rw [show shows size s (.service true) = some (.written msg) by simp [shows, at_]]
      exact .writes msg rfl (by simp [hand, at_]) rfl
  | fails msg at_ =>
      rw [show shows size s (.service false) = some (.lost msg) by simp [shows, at_]]
      exact .loses msg rfl (by simp [hand, at_]) rfl
  | again sent at_ | asked sent at_ =>
      rw [show shows size s (.service sent) = none by simp [shows, at_]]
      exact .silent rfl (by simp [hand, at_])
  | asks sent at_ =>
      have shown : shows size s (.service sent) = none := by
        rcases at_ with at_ | at_ | at_ <;> simp [shows, at_]
      rw [shown]
      exact .silent rfl (by rcases at_ with at_ | at_ | at_ <;> simp [hand, at_])
  | rests sent ended =>
      have shown : shows size s (.service sent) = none := by
        rcases ended with ⟨at_, -⟩ | ⟨at_, items⟩ | ⟨at_, items⟩ | ⟨at_, -⟩
        · simp [shows, at_]
        · simp [shows, at_, Queue.ready, enabled, items]
        · simpa [shows, at_] using showsDrop_nil enabled items
        · simp [shows, at_]
      rw [shown]
      refine .silent rfl (hand_of_ne ?_).symm
      rcases ended with ⟨at_, -⟩ | ⟨at_, -⟩ | ⟨at_, -⟩ | ⟨at_, -⟩ <;> simp [at_]
  | ends sent at_ items =>
      have shown : shows size s (.service sent) = none := by
        simpa [shows, at_] using showsDrop_nil enabled items
      rw [shown]
      exact .silent rfl (by rw [hand_destroy, hand_of_ne (by simp [at_])])
  | destroyed sent at_ items =>
      have shown : shows size s (.service sent) = none := by
        simpa [shows, at_] using showsDrop_nil enabled items
      rw [shown]
      exact .silent rfl (by simp [hand, at_])

theorem enabled_step (s : State Msg) (l : Label Msg) (t : State Msg)
    (enabled : s.queue.enabled = true) (moved : step size s l = some t) :
    t.queue.enabled = true := by
  cases move_of_step enabled moved with
  | accepts => exact Queue.push_enabled.trans enabled
  | _ => exact enabled

@[simp] theorem accepted_append : accepted (es ++ fs) = accepted es ++ accepted fs :=
  List.filterMap_append ..

@[simp] theorem out_append : out (es ++ fs) = out es ++ out fs := List.filterMap_append ..

@[simp] theorem written_append : written (es ++ fs) = written es ++ written fs :=
  List.filterMap_append ..

@[simp] theorem discarded_append : discarded (es ++ fs) = discarded es ++ discarded fs :=
  List.filterMap_append ..

/-- Only `send` accepts. -/
theorem accepted_shows (size : Msg → Nat) (s : State Msg) (other : ∀ msg, l ≠ .send msg) :
    accepted (shows size s l).toList = [] := by
  have dropped : accepted (showsDrop s).toList = [] := by
    unfold showsDrop
    split
    · cases s.queue.take.1 <;> rfl
    · rfl
  cases l with
  | send msg => exact absurd rfl (other msg)
  | drain => exact dropped
  | service sent =>
      simp only [shows]
      split
      · split
        · cases s.queue.take.1 <;> rfl
        · rfl
      · cases sent <;> rfl
      · exact dropped
      · exact dropped
      · exact dropped
      · rfl
  | _ => rfl

/-- The history so far, and what is left of it. -/
structure Accounted (es : List (Event Msg)) (s : State Msg) : Prop where
  enabled : s.queue.enabled = true
  queued : accepted es = out es ++ s.queue.items
  order : (written es ++ s.hand).Sublist (out es)
  fate : (out es).Perm (written es ++ discarded es ++ s.hand)

theorem accounted_step (es : List (Event Msg)) (s : State Msg) (l : Label Msg) (t : State Msg)
    (accounted : Accounted es s) (moved : step size s l = some t) :
    Accounted (es ++ (shows size s l).toList) t := by
  obtain ⟨enabled, queued, order, fate⟩ := accounted
  have still := enabled_step s l t enabled moved
  have effect := effect_of_move enabled (move_of_step enabled moved)
  generalize shows size s l = shown at effect ⊢
  cases effect with
  | silent items hand =>
      rw [Option.toList_none, List.append_nil]
      exact ⟨still, by rw [queued, items], by rwa [hand], by rwa [hand]⟩
  | accepts msg items hand =>
      refine ⟨still, ?_, ?_, ?_⟩
      · simp [accepted, out, items, ← List.append_assoc]
        simpa [accepted, out] using queued
      · simpa [written, out, hand] using order
      · simpa [written, out, discarded, hand] using fate
  | takes msg items free hand =>
      rw [free, List.append_nil] at order fate
      refine ⟨still, ?_, ?_, ?_⟩
      · simpa [accepted, out, items] using queued
      · simpa [written, out, hand] using order.append_right [msg]
      · simpa [written, out, discarded, hand] using fate.append_right [msg]
  | writes msg items held hand =>
      rw [held] at order fate
      refine ⟨still, ?_, ?_, ?_⟩
      · simpa [accepted, out, items] using queued
      · simpa [written, out, hand] using order
      · have one : (written es ++ discarded es ++ [msg]).Perm
            (written es ++ [msg] ++ discarded es) := by
          simpa using (List.perm_append_singleton msg _).append_left (written es)
        simpa [written, out, discarded, hand] using fate.trans one
  | loses msg items held hand =>
      rw [held] at order fate
      refine ⟨still, ?_, ?_, ?_⟩
      · simpa [accepted, out, items] using queued
      · simpa [written, out, hand] using (List.sublist_append_left _ _).trans order
      · simpa [written, out, discarded, hand] using fate
  | drops msg items hand =>
      refine ⟨still, ?_, ?_, ?_⟩
      · simpa [accepted, out, items] using queued
      · simpa [written, out, hand] using order.trans (List.sublist_append_left _ [msg])
      · have one : (written es ++ discarded es ++ s.hand ++ [msg]).Perm
            (written es ++ (discarded es ++ [msg]) ++ s.hand) := by
          simpa using (List.perm_append_singleton msg s.hand).append_left
            (written es ++ discarded es)
        simpa [written, out, discarded, hand] using (fate.append_right [msg]).trans one

/-- What a run can show without discarding a message. -/
def Event.Keeps : Event Msg → Prop
  | .lost _ | .dropped _ => False
  | _ => True

/-- Nothing was discarded so far. -/
structure Kept (es : List (Event Msg)) (before : List Msg) (s : State Msg) : Prop where
  enabled : s.queue.enabled = true
  flow : before ++ accepted es = written es ++ s.hand ++ s.queue.items

theorem kept_step {before : List Msg} (es : List (Event Msg)) (s : State Msg) (l : Label Msg)
    (t : State Msg) (keeps : ∀ e ∈ shows size s l, e.Keeps) (kept : Kept es before s)
    (moved : step size s l = some t) : Kept (es ++ (shows size s l).toList) before t := by
  obtain ⟨enabled, flow⟩ := kept
  have still := enabled_step s l t enabled moved
  have effect := effect_of_move enabled (move_of_step enabled moved)
  generalize shows size s l = shown at effect keeps ⊢
  cases effect with
  | silent items hand =>
      rw [Option.toList_none, List.append_nil]
      exact ⟨still, by rw [flow, items, hand]⟩
  | accepts msg items hand =>
      refine ⟨still, ?_⟩
      calc before ++ accepted (es ++ [.accepted msg]) = (before ++ accepted es) ++ [msg] := by
            simp [accepted]
        _ = written es ++ s.hand ++ (s.queue.items ++ [msg]) := by rw [flow, List.append_assoc]
        _ = written (es ++ [.accepted msg]) ++ t.hand ++ t.queue.items := by
            simp [written, items, hand]
  | takes msg items free hand =>
      refine ⟨still, ?_⟩
      simpa [accepted, written, items, free, hand] using flow
  | writes msg items held hand =>
      refine ⟨still, ?_⟩
      simpa [accepted, written, items, held, hand] using flow
  | loses | drops => exact absurd (keeps _ rfl) id

/-- Nobody has called `disConnect`, and no connection was closed. -/
structure Calm (s : State Msg) : Prop where
  enabled : s.queue.enabled = true
  processEnd : s.processEnd = false
  draining : s.draining = 0
  service : s.service ≠ .closed ∧ s.service ≠ .ending ∧ s.service ≠ .destroying

def Label.Calm : Label Msg → Prop
  | .disConnect _ | .closed | .service false => False
  | _ => True

theorem calm_step (s : State Msg) (l : Label Msg) (t : State Msg) (label : l.Calm) (calm : Calm s)
    (moved : step size s l = some t) : Calm t := by
  obtain ⟨enabled, processEnd, draining, closed, ending, destroying⟩ := calm
  have still := enabled_step s l t enabled moved
  cases move_of_step enabled moved with
  | accepts | refuses | tests | requests | drops =>
      exact ⟨still, processEnd, draining, closed, ending, destroying⟩
  | disConnects | closes => exact absurd label id
  | drained due => exact absurd draining due
  | establishes | writeable | cancels | takes | writes | fails | again | asks | asked | rests
  | destroyed | failsToServe => exact ⟨still, processEnd, draining, by simp⟩
  | connects => exact ⟨still, rfl, draining, by simp⟩
  | ends _ at_ => exact absurd at_ ending
  | joins _ due | failsToEnd _ due | exits _ due => simp [processEnd] at due

theorem calm_keeps (calm : Calm s) (label : l.Calm) (moved : step size s l = some t) :
    ∀ e ∈ shows size s l, e.Keeps := by
  obtain ⟨enabled, processEnd, draining, closed, ending, destroying⟩ := calm
  intro e shown
  cases e with
  | accepted | taken | written => trivial
  | lost msg | dropped msg =>
      cases l with
      | send msg => simp [shows] at shown
      | drain => simp [step, draining] at moved
      | service sent =>
          cases sent with
          | false => exact absurd label id
          | true =>
              simp only [shows] at shown
              split at shown <;> simp_all
      | _ => simp [shows] at shown

/-- **Every message once.**  In every run, whichever threads send and disconnect, and however
often the connection comes and goes: what was accepted was popped, in that order, or is queued;
what was written is a part of what was popped, in that order; and what was popped was written,
discarded or is about to be written.  Until a connection is closed, a write fails or somebody
disconnects nothing is discarded, and the messages are written in the order they were accepted. -/
theorem messages_once {ls : List (Label Msg)} (ran : exec (step size) {} ls = some s) :
    let es := observe (step size) (shows size) {} ls
    accepted es = out es ++ s.queue.items ∧
      (written es ++ s.hand).Sublist (out es) ∧
      (out es).Perm (written es ++ discarded es ++ s.hand) ∧
      ((∀ l ∈ ls, l.Calm) → accepted es = written es ++ s.hand ++ s.queue.items) := by
  have everywhere : Along (step size) (fun _ _ => True) ({} : State Msg) ls :=
    along_of_labels (fun _ _ _ => trivial) _
  have accounted : Accounted ([] ++ observe (step size) (shows size) {} ls) s :=
    exec_history (fun h s l t _ => accounted_step h s l t) everywhere
      ⟨rfl, rfl, .slnil, .refl _⟩ ran
  refine ⟨accounted.queued, accounted.order, accounted.fate, fun calm => ?_⟩
  have kept := exec_history (h := []) (H := fun es s => Calm s ∧ Kept es [] s)
    (fun h s l t label so moved => ⟨calm_step s l t label so.1 moved,
      kept_step h s l t (calm_keeps so.1 label moved) so.2 moved⟩)
    (along_of_labels (fun l inside _ => calm l inside) _)
    ⟨⟨rfl, rfl, rfl, by simp⟩, ⟨rfl, rfl⟩⟩ ran
  exact kept.2.flow

/-- Two messages are sent and the connection comes up; the first is written, the second waits
for the next callback and is dropped with the connection, and a third one is queued. -/
theorem messages_once_three :
    let ls : List (Label Nat) :=
      [.connect, .send 7, .send 8, .established, .service true, .service true, .writeable,
        .service true, .service true, .service true, .service true, .closed, .service true, .send 9]
    let es := observe (step id) (shows id) ({} : State Nat) ls
    (accepted es = [7, 8, 9] ∧ written es = [7] ∧ discarded es = [8]) ∧
      ∃ s : State Nat, s.queue.items = [9] ∧ accepted es = out es ++ s.queue.items ∧
        (written es ++ s.hand).Sublist (out es) ∧
        (out es).Perm (written es ++ discarded es ++ s.hand) ∧
        ((∀ l ∈ ls, l.Calm) → accepted es = written es ++ s.hand ++ s.queue.items) := by
  have ran : exec (step id) ({} : State Nat)
      [.connect, .send 7, .send 8, .established, .service true, .service true, .writeable,
        .service true, .service true, .service true, .service true, .closed, .service true, .send 9] =
      some { queue := { items := [9] }, wsi := true, service := .closed, testing := 3 } := by decide
  exact ⟨by decide, _, rfl, messages_once ran⟩

/-! ## No message is left behind -/

/-- A message that is queued while the service thread rests has a callback asked for, or a
thread in `send` is about to ask for one. -/
structure Awake (s : State Msg) : Prop where
  enabled : s.queue.enabled = true
  connected : s.connected = true ↔ s.link ≠ .down
  wsi : s.link ≠ .down → s.wsi = true
  up : s.service.writes = true → s.link = .up
  down : s.service.unlinked = true → s.link = .down
  asked : s.link = .up → s.service = .loop ∨ s.service = .cancelled → s.queue.items ≠ [] →
    s.requested = true ∨ s.testing ≠ 0 ∨ s.requesting ≠ 0

theorem Awake.destroy (awake : Awake s) : Awake s.destroy := by
  have service : s.destroy.service = .ended ∨ s.destroy.service = .destroying := by
    by_cases link : s.link = .down <;> simp [State.destroy, link]
  refine ⟨awake.enabled, by simp [State.destroy], by simp [State.destroy], fun writes => ?_,
    fun _ => rfl, by simp [State.destroy]⟩
  rcases service with at_ | at_ <;> simp [at_, Service.writes] at writes

theorem awake_step (s : State Msg) (l : Label Msg) (t : State Msg) (awake : Awake s)
    (moved : step size s l = some t) : Awake t := by
  have still := enabled_step s l t awake.enabled moved
  have destroyed := awake.destroy
  obtain ⟨enabled, connected, wsi, up, down, asked⟩ := awake
  cases move_of_step enabled moved with
  | accepts => exact ⟨still, connected, wsi, up, down, fun _ _ _ => .inr (.inl (by simp))⟩
  | refuses | disConnects | drained => exact ⟨still, connected, wsi, up, down, asked⟩
  | tests due =>
      refine ⟨still, connected, wsi, up, down, fun link _ _ => .inr (.inr ?_)⟩
      have present : s.link ≠ .down := by simp [show s.link = .up from link]
      simp [connected.2 present, wsi present]
  | requests due =>
      refine ⟨still, connected, wsi, up, down, fun link _ _ => .inl ?_⟩
      simp [show s.link = .up from link, callbackOnWritable]
  | drops k msg rest items at_ =>
      exact ⟨still, connected, wsi, up, down, fun link at_ _ => asked link at_ (by simp [items])⟩
  | establishes | closes | connects =>
      exact ⟨still, by simp, by simp, by simp [Service.writes], by simp [Service.unlinked], by simp⟩
  | writeable at_ link =>
      exact ⟨still, connected, wsi, fun _ => link, by simp [Service.unlinked], by simp⟩
  | failsToEnd | exits | failsToServe =>
      exact ⟨still, connected, wsi, by simp [Service.writes], by simp [Service.unlinked], by simp⟩
  | cancels at_ =>
      exact ⟨still, connected, wsi, by simp [Service.writes], by simp [Service.unlinked],
        fun link _ => asked link (.inl at_)⟩
  | takes sent at_ | writes msg at_ | again sent at_ =>
      have link := up (by simp [at_, Service.writes])
      exact ⟨still, connected, wsi, fun _ => link, by simp [Service.unlinked], by simp⟩
  | fails msg at_ =>
      have link := up (by simp [at_, Service.writes])
      have present : s.link ≠ .down := by simp [link]
      exact ⟨still, by simp [connected.2 present], fun _ => wsi present,
        by simp [Service.writes], by simp [Service.unlinked], by simp⟩
  | asks =>
      exact ⟨still, connected, wsi, by simp [Service.writes], by simp [Service.unlinked], by simp⟩
  | asked sent at_ =>
      refine ⟨still, connected, wsi, by simp [Service.writes], by simp [Service.unlinked],
        fun link _ _ => .inl ?_⟩
      simp [show s.link = .up from link, callbackOnWritable]
  | rests sent ended =>
      refine ⟨still, connected, wsi, by simp [Service.writes], by simp [Service.unlinked],
        fun link _ items => ?_⟩
      have present : s.link ≠ .down := by simp [show s.link = .up from link]
      rcases ended with ⟨-, none | unset⟩ | ⟨-, none⟩ | ⟨-, none⟩ | ⟨at_, -⟩
      · exact absurd none items
      · rw [wsi present] at unset
        exact nomatch unset
      · exact absurd none items
      · exact absurd none items
      · exact asked link (.inr at_) items
  | ends | joins => exact destroyed
  | destroyed sent at_ =>
      exact ⟨still, connected, wsi, by simp [Service.writes],
        fun _ => down (by simp [at_, Service.unlinked]), by simp⟩

/-- What the threads in `send` and the service thread do on a connection that stays up. -/
def Label.own : Label Msg → Bool
  | .test | .request | .writeable | .service true => true
  | _ => false

/-- The connection is up, and `process` has not left its loop. -/
structure Serving (s : State Msg) : Prop where
  awake : Awake s
  link : s.link = .up
  service : s.service ≠ .ending ∧ s.service ≠ .failed

theorem serving_step (s : State Msg) (l : Label Msg) (t : State Msg) (own : l.own = true)
    (serving : Serving s) (moved : step size s l = some t) : Serving t := by
  obtain ⟨awake, link, ending, failed⟩ := serving
  have still := awake_step s l t awake moved
  cases move_of_step awake.enabled moved with
  | tests | requests => exact ⟨still, link, ending, failed⟩
  | drops k msg rest items at_ => exact ⟨still, link, ending, failed⟩
  | writeable | takes | writes | again | asks | asked | rests => exact ⟨still, link, by simp⟩
  | ends _ at_ => exact absurd at_ ending
  | destroyed _ at_ =>
      have down := awake.down (by simp [at_, Service.unlinked])
      simp [link] at down
  | _ => simp [Label.own] at own

/-- The steps that a place in the service thread has left. -/
def Service.left : Service Msg → Nat
  | .ended | .loop | .failed => 0
  | .writing | .closed | .ending | .destroying => 1
  | .requesting => 3
  | .established | .wrote | .cancelled => 4
  | .holding _ => 5

/-- A bound on the steps that are left on a connection that stays up. -/
def State.left (s : State Msg) : Nat :=
  6 * s.queue.items.length + 4 * s.testing + 3 * s.requesting + (if s.requested then 2 else 0) +
    s.service.left

theorem left_step (s : State Msg) (l : Label Msg) (t : State Msg) (own : l.own = true)
    (serving : Serving s) (moved : step size s l = some t) : t.left < s.left := by
  obtain ⟨awake, link, ending, failed⟩ := serving
  cases move_of_step awake.enabled moved with
  | tests due =>
      unfold State.left
      have shrinks : (if s.connected && s.wsi then 1 else 0) ≤ 1 := by split <;> omega
      simp only
      omega
  | requests due =>
      have asks : (if s.callbackOnWritable.requested then 2 else 0) ≤ 2 := by split <;> omega
      simp only [State.left]
      simp only [callbackOnWritable] at asks ⊢
      omega
  | drops k msg rest items at_ => simp [State.left, items]
  | writeable at_ link due => simp [State.left, at_, due, Service.left]
  | takes sent at_ msg rest items =>
      simp [State.left, at_, items, Service.left]
      omega
  | writes msg at_ | again sent at_ => simp [State.left, at_, Service.left]
  | asks sent at_ => rcases at_ with at_ | at_ | at_ <;> simp [State.left, at_, Service.left]
  | asked sent at_ =>
      have asks : (if s.callbackOnWritable.requested then 2 else 0) ≤ 2 := by split <;> omega
      simp only [State.left, at_, Service.left]
      simp only [callbackOnWritable] at asks ⊢
      omega
  | rests sent ended =>
      rcases ended with ⟨at_, -⟩ | ⟨at_, -⟩ | ⟨at_, -⟩ | ⟨at_, -⟩ <;>
        simp [State.left, at_, Service.left]
  | ends _ at_ => exact absurd at_ ending
  | destroyed _ at_ => simp [State.left, at_, Service.left]
  | _ => simp [Label.own] at own

/-- As long as a message is queued or on its way, one of these steps can be made. -/
theorem goes_on (size : Msg → Nat) (serving : Serving s)
    (busy : ¬ (s.queue.items = [] ∧ s.hand = [])) :
    ∃ l t, Label.own l = true ∧ step size s l = some t := by
  obtain ⟨awake, link, ending, failed⟩ := serving
  by_cases rests : s.service = .loop
  · have free : s.hand = [] := hand_of_ne (by simp [rests])
    rcases awake.asked link (.inl rests) (fun none => busy ⟨none, free⟩) with due | due | due
    · exact ⟨.writeable, _, rfl, by simp [step, rests, link, due]; rfl⟩
    · exact ⟨.test, _, rfl, by simp [step, due]; rfl⟩
    · exact ⟨.request, _, rfl, by simp [step, due]; rfl⟩
  · have running : s.service ≠ .ended := by
      intro at_
      have down := awake.down (by simp [at_, Service.unlinked])
      simp [link] at down
    have next : (serviceStep s true).isSome := by
      unfold serviceStep
      split <;> simp_all
    obtain ⟨t, moved⟩ := Option.isSome_iff_exists.1 next
    exact ⟨.service true, t, rfl, moved⟩

/-- On such a connection nothing is accepted and nothing is discarded. -/
theorem own_shows (size : Msg → Nat) (serving : Serving s) (own : l.own = true) :
    ∀ e ∈ shows size s l, e.Keeps ∧ accepted [e] = [] := by
  obtain ⟨awake, link, ending, failed⟩ := serving
  have running : s.service.unlinked = false := by
    by_contra ended
    have down := awake.down (by simpa using ended)
    simp [link] at down
  intro e shown
  cases l with
  | service sent =>
      cases sent with
      | false => exact nomatch own
      | true =>
          simp only [shows] at shown
          split at shown <;> simp_all [Service.unlinked]
          · obtain ⟨-, msg, -, rfl⟩ := shown
            exact ⟨trivial, rfl⟩
          · subst shown
            exact ⟨trivial, rfl⟩
  | test | request | writeable => exact nomatch shown
  | _ => exact nomatch own

/-- Since the messages `before` were waiting, and the connection is up. -/
structure Flushing (before : List Msg) (es : List (Event Msg)) (s : State Msg) : Prop where
  serving : Serving s
  none : accepted es = []
  kept : Kept es before s

theorem flushing_step {before : List Msg} (es : List (Event Msg)) (s : State Msg) (l : Label Msg)
    (t : State Msg) (own : l.own = true) (flushing : Flushing before es s)
    (moved : step size s l = some t) : Flushing before (es ++ (shows size s l).toList) t := by
  have shown := own_shows size flushing.serving own
  refine ⟨serving_step s l t own flushing.serving moved, ?_,
    kept_step es s l t (fun e inside => (shown e inside).1) flushing.kept moved⟩
  rw [accepted_append, flushing.none, List.nil_append]
  cases event : shows size s l with
  | none => rfl
  | some e => exact (shown e event).2

theorem awake_start : Awake ({} : State Msg) :=
  ⟨rfl, by simp, by simp, by simp [Service.writes], fun _ => rfl, by simp⟩

/-- **The queue is flushed.**  In every state a run reaches with the connection up, unless
`process` has left its loop, every order of the steps that the threads in `send` and the service
thread have left ends after at most `left` of them, as long as the connection stays up and no
write fails; where none can be made any more, every message that was queued has been written, in
the order of the queue. -/
theorem queue_flushed {ls ks : List (Label Msg)} (ran : exec (step size) {} ls = some s)
    (link : s.link = .up) (service : s.service ≠ .ending ∧ s.service ≠ .failed)
    (own : ∀ k ∈ ks, k.own = true) (flushed : exec (step size) s ks = some t) :
    ks.length ≤ s.left ∧ ((∀ l, l.own = true → step size t l = none) →
      written (observe (step size) (shows size) s ks) = s.hand ++ s.queue.items) := by
  have serving : Serving s := ⟨exec_invariant awake_step awake_start ran, link, service⟩
  have along : Along (step size) (fun _ l => Label.own l = true) s ks :=
    along_of_labels (fun l inside _ => own l inside) s
  obtain ⟨bound, settles⟩ := exec_settles (C := fun _ l => Label.own l = true) serving_step
    left_step (fun s serving => goes_on size serving) along serving flushed
  refine ⟨bound, fun stuck => ?_⟩
  obtain ⟨items, hand⟩ := settles stuck
  have start : Flushing (s.hand ++ s.queue.items) [] s :=
    ⟨serving, rfl, serving.awake.enabled, by simp [accepted, written]⟩
  obtain ⟨-, none, kept⟩ := exec_history flushing_step along start flushed
  simp only [List.nil_append] at none kept
  simpa [none, items, hand] using kept.flow.symm

/-- The two messages that wait when the connection comes up are written in ten steps. -/
theorem queue_flushed_two :
    let s : State Nat :=
      { queue := { items := [7, 8] }, connected := true, wsi := true, service := .established
        testing := 2, link := .up }
    let ks : List (Label Nat) := [.service true, .service true, .writeable, .service true,
      .service true, .service true, .service true, .writeable, .service true, .service true]
    s.left = 24 ∧ ∃ t : State Nat, (10 ≤ s.left ∧
      ((∀ l, l.own = true → step id t l = none) →
        written (observe (step id) (shows id) s ks) = [7, 8])) := by
  have ran : exec (step id) ({} : State Nat)
      [.connect, .send 7, .send 8, .established] =
      some { queue := { items := [7, 8] }, connected := true, wsi := true, service := .established
             testing := 2, link := .up } := by decide
  have flushed : exec (step id)
      ({ queue := { items := [7, 8] }, connected := true, wsi := true, service := .established
         testing := 2, link := .up } : State Nat)
      [.service true, .service true, .writeable, .service true, .service true, .service true,
        .service true, .writeable, .service true, .service true] =
      some { queue := {}, connected := true, wsi := true, service := .wrote
             testing := 2, link := .up } := by decide
  exact ⟨by decide, _, queue_flushed ran rfl (by simp) (by decide) flushed⟩

end ChargerStack.Ocpp.WebSocketSend
