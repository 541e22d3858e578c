/-
# Ocpp.SendThread -- the thread that serves the two queues of a connector

`sendThread` tests a queue for emptiness in one critical section and takes its front in
another.  The model gives every critical section a step of its own, with pushes of other
threads and `stop` in between.  What the threads do is shown as a list of events.

* `Served` is the invariant: what was pushed into a queue is what was handed to `doSend` from
  it, then what the thread holds, then what waits, and where the thread stands says what it
  has last seen;
* `context_push`, `context_pop`: the steps are those of `ConnectorContext`, except that a frame
  of the lower class may be taken while a transaction frame has come in;
* `frames_served`: in every run in which no empty frame is pushed the frames of a class are
  handed over in the order they were pushed, one of the lower class is taken only behind a
  test that found `txQueue` empty, and the thread never waits in `pop`.
-/
import ChargerStack.Lib.Run
import ChargerStack.Ocpp.Client
import ChargerStack.Ocpp.Queue

namespace ChargerStack.Ocpp.SendThread

open Lib

set_option autoImplicit false

/-- `common::Queue<std::string>`, with `MAX_SIZE` left at the largest `size_t`. -/
abbrev FrameQueue := Queue String (2 ^ 64 - 1)

/-- Where the thread stands; `isTx` is the branch it has taken its frame in. -/
inductive Pc where
  /-- About to test `ctx.running`. -/
  | head
  | testTx
  | testNonTx
  | pop (isTx : Bool)
  /-- Behind the branches, with `msg`. -/
  | took (isTx : Bool) (msg : String)
  /-- In `doSend`. -/
  | sending (isTx : Bool) (msg : String)
  /-- In one of the two `ctx.cv.wait_for`. -/
  | idle
  | ended
  deriving DecidableEq, Repr

/-- `ConnectorContext`, and the thread that serves it. -/
structure State where
  txQueue : FrameQueue := {}
  nonTxQueue : FrameQueue := {}
  running : Bool := true
  pc : Pc := .head
  deriving DecidableEq, Repr

namespace State

def queue (s : State) (isTx : Bool) : FrameQueue := if isTx then s.txQueue else s.nonTxQueue

def setQueue (s : State) (isTx : Bool) (q : FrameQueue) : State :=
  if isTx then { s with txQueue := q } else { s with nonTxQueue := q }

/-- What the thread has taken from a queue and not handed over yet. -/
def inHand (s : State) (isTx : Bool) : List String :=
  match s.pc with
  | .took branch msg => if branch = isTx then [msg] else []
  | _ => []

/-- The context without what its queues and the thread keep for themselves. -/
def context (s : State) : ConnectorContext := ⟨s.txQueue.items, s.nonTxQueue.items, s.running⟩

end State

inductive Label where
  /-- Another thread pushes into one of the queues. -/
  | push (isTx : Bool) (frame : String)
  /-- `ctx.running = false`. -/
  | stop
  /-- The thread's next critical section, test or call. -/
  | thread
  /-- The time limit of the `pop` the thread waits in. -/
  | timeout
  deriving DecidableEq, Repr

def step (s : State) : Label → Option State
  | .push isTx frame => some (s.setQueue isTx ((s.queue isTx).push frame).2)
  | .stop => some { s with running := false }
  | .thread =>
      match s.pc with
      | .head => some { s with pc := if s.running then .testTx else .ended }
      | .testTx => some { s with pc := if s.txQueue.empty then .testNonTx else .pop true }
      | .testNonTx => some { s with pc := if s.nonTxQueue.empty then .idle else .pop false }
      | .pop isTx =>
          if (s.queue isTx).ready then
            let r := (s.queue isTx).take
            some { s.setQueue isTx r.2 with pc := .took isTx (r.1.getD "") }
          else none
      | .took isTx msg => some { s with pc := if msg = "" then .idle else .sending isTx msg }
      | .sending _ _ => some { s with pc := .head }
      | .idle => some { s with pc := .head }
      | .ended => none
  | .timeout =>
      match s.pc with
      -- `pop` returns false and leaves `msg` as it was made.
      | .pop isTx => if (s.queue isTx).ready then none else some { s with pc := .took isTx "" }
      | _ => none

/-! ## What a run shows -/

inductive Event where
  | pushed (isTx : Bool) (frame : String)
  /-- The loop is entered once more. -/
  | iteration
  | sawEmpty (isTx : Bool)
  | taken (isTx : Bool) (frame : String)
  /-- `doSend` is called. -/
  | handed (isTx : Bool) (frame : String)
  deriving DecidableEq, Repr

/-- What a step shows. -/
def shows (s : State) : Label → Option Event
  | .push isTx frame => if ((s.queue isTx).push frame).1 then some (.pushed isTx frame) else none
  | .thread =>
      match s.pc with
      | .head => if s.running then some .iteration else none
      | .testTx => if s.txQueue.empty then some (.sawEmpty true) else none
      | .testNonTx => if s.nonTxQueue.empty then some (.sawEmpty false) else none
      | .pop isTx => (s.queue isTx).take.1.map (.taken isTx)
      | .took isTx msg => if msg = "" then none else some (.handed isTx msg)
      | _ => none
  | _ => none

/-- The frames pushed into a queue, in order. -/
def pushed (isTx : Bool) (es : List Event) : List String :=
  es.filterMap fun
    | .pushed branch frame => if branch = isTx then some frame else none
    | _ => none

/-- The frames of a queue that were handed to `doSend`, in order. -/
def handed (isTx : Bool) (es : List Event) : List String :=
  es.filterMap fun
    | .handed branch frame => if branch = isTx then some frame else none
    | _ => none

/-- What the thread itself did. -/
def own (es : List Event) : List Event :=
  es.filter fun
    | .pushed _ _ => false
    | _ => true

/-- Whenever a frame of `nonTxQueue` is taken, the thread has found `txQueue` empty in the
iteration it is in. -/
def TxFirst : List Event → Prop :=
  Each fun before e => ∀ frame, e = .taken false frame →
    ∃ earlier, own before = earlier ++ [.iteration, .sawEmpty true]

/-- No frame pushed is empty. -/
def NonEmptyPushes (ls : List Label) : Prop := ∀ isTx frame, .push isTx frame ∈ ls → frame ≠ ""

/-! ## The invariant -/

/-- What the thread did last, by where it stands. -/
def Place (es : List Event) : Pc → Prop
  | .testTx => ∃ earlier, es = earlier ++ [.iteration]
  | .testNonTx | .pop false => ∃ earlier, es = earlier ++ [.iteration, .sawEmpty true]
  | _ => True

structure Served (es : List Event) (s : State) : Prop where
  account : ∀ isTx, pushed isTx es = handed isTx es ++ s.inHand isTx ++ (s.queue isTx).items
  enabled : ∀ isTx, (s.queue isTx).enabled = true
  nonempty : ∀ isTx, ∀ frame ∈ (s.queue isTx).items, frame ≠ ""
  held : ∀ isTx msg, s.pc = .took isTx msg → msg ≠ ""
  stocked : ∀ isTx, s.pc = .pop isTx → (s.queue isTx).items ≠ []
  place : Place (own es) s.pc
  txFirst : TxFirst es

variable {s t : State} {es : List Event} {isTx other : Bool} {frame : String} {q : FrameQueue}

@[simp] theorem queue_setQueue :
    (s.setQueue isTx q).queue other = if other = isTx then q else s.queue other := by
  cases isTx <;> cases other <;> rfl

@[simp] theorem setQueue_pc : (s.setQueue isTx q).pc = s.pc := by
  cases isTx <;> rfl

@[simp] theorem inHand_setQueue : (s.setQueue isTx q).inHand other = s.inHand other := by
  cases isTx <;> rfl

@[simp] theorem queue_pc {pc : Pc} : ({ s with pc := pc } : State).queue isTx = s.queue isTx := rfl

@[simp] theorem pushed_append {fs : List Event} :
    pushed isTx (es ++ fs) = pushed isTx es ++ pushed isTx fs :=
  List.filterMap_append ..

@[simp] theorem handed_append {fs : List Event} :
    handed isTx (es ++ fs) = handed isTx es ++ handed isTx fs :=
  List.filterMap_append ..

@[simp] theorem own_append {fs : List Event} : own (es ++ fs) = own es ++ own fs :=
  List.filter_append ..

@[simp] theorem pushed_singleton {e : Event} : pushed isTx [e] =
    match e with
    | .pushed branch frame => if branch = isTx then [frame] else []
    | _ => [] := by
  cases e <;> simp [pushed]
  split <;> simp_all

@[simp] theorem handed_singleton {e : Event} : handed isTx [e] =
    match e with
    | .handed branch frame => if branch = isTx then [frame] else []
    | _ => [] := by
  cases e <;> simp [handed]
  split <;> simp_all

@[simp] theorem own_singleton {e : Event} : own [e] =
    match e with
    | .pushed _ _ => []
    | e => [e] := by
  cases e <;> rfl

theorem served_start : Served [] {} where
  account := by intro isTx; cases isTx <;> rfl
  enabled := by intro isTx; cases isTx <;> rfl
  nonempty := by intro isTx; cases isTx <;> simp [State.queue]
  held := by intro isTx msg impossible; cases impossible
  stocked := by intro isTx impossible; cases impossible
  place := trivial
  txFirst := each_nil _

/-- What the invariant says of the queues and the history; a change of where the thread stands
keeps it as long as the thread holds the same. -/
theorem Served.move {pc : Pc} {fs : List Event} (served : Served es s)
    (hands : ∀ isTx, pushed isTx fs = []) (same : ∀ isTx, handed isTx fs ++
      ({ s with pc := pc } : State).inHand isTx = s.inHand isTx)
    (held : ∀ isTx msg, pc = .took isTx msg → msg ≠ "")
    (stocked : ∀ isTx, pc = .pop isTx → (s.queue isTx).items ≠ [])
    (place : Place (own (es ++ fs)) pc) (txFirst : TxFirst (es ++ fs)) :
    Served (es ++ fs) { s with pc := pc } where
  account := by
    intro isTx
    have before := served.account isTx
    rw [← same isTx] at before
    simpa [hands isTx] using before
  enabled := served.enabled
  nonempty := served.nonempty
  held := held
  stocked := stocked
  place := place
  txFirst := txFirst

/-- The thread goes on with nothing in its hands, and at most has looked. -/
theorem Served.walk {pc : Pc} {seen : Option Event} (served : Served es s)
    (looked : ∀ e ∈ seen, e = .iteration ∨ ∃ isTx, e = .sawEmpty isTx)
    (before : ∀ isTx msg, s.pc ≠ .took isTx msg) (after : ∀ isTx msg, pc ≠ .took isTx msg)
    (stocked : ∀ isTx, pc = .pop isTx → (s.queue isTx).items ≠ [])
    (place : Place (own es ++ seen.toList) pc) : Served (es ++ seen.toList) { s with pc := pc } := by
  have emptyHanded : ∀ isTx, s.inHand isTx = [] := by
    intro isTx
    unfold State.inHand
    split
    · exact absurd ‹_› (before _ _)
    · rfl
  have stays : ∀ isTx, ({ s with pc := pc } : State).inHand isTx = [] := by
    intro isTx
    unfold State.inHand
    split
    · exact absurd ‹_› (after _ _)
    · rfl
  have silent : (∀ isTx, pushed isTx seen.toList = []) ∧ (∀ isTx, handed isTx seen.toList = []) ∧
      own seen.toList = seen.toList ∧ TxFirst (es ++ seen.toList) := by
    cases seen with
    | none => exact ⟨fun _ => rfl, fun _ => rfl, rfl, by simpa using served.txFirst⟩
    | some e =>
        rcases looked e rfl with rfl | ⟨isTx, rfl⟩ <;>
          exact ⟨fun _ => rfl, fun _ => rfl, rfl,
            each_snoc.2 ⟨served.txFirst, fun _ impossible => nomatch impossible⟩⟩
  obtain ⟨noPush, noHand, same, txFirst⟩ := silent
  refine served.move noPush ?_ ?_ stocked ?_ txFirst
  · intro isTx
    rw [noHand, stays, emptyHanded]
    rfl
  · exact fun isTx msg took => absurd took (after isTx msg)
  · rw [own_append, same]
    exact place

/-- A push reaches the end of its queue, and is recorded when it does. -/
theorem Served.push (served : Served es s) (filled : frame ≠ "") :
    Served (es ++ (shows s (.push isTx frame)).toList)
      (s.setQueue isTx ((s.queue isTx).push frame).2) := by
  have items : ((s.queue isTx).push frame).2.items =
      (s.queue isTx).items ++ if ((s.queue isTx).push frame).1 then [frame] else [] :=
    Queue.push_items
  have enabled : ((s.queue isTx).push frame).2.enabled = (s.queue isTx).enabled :=
    Queue.push_enabled
  have shown : (shows s (.push isTx frame)).toList =
      if ((s.queue isTx).push frame).1 then [.pushed isTx frame] else [] := by
    show (if ((s.queue isTx).push frame).1 then some (Event.pushed isTx frame) else none).toList = _
    split <;> rfl
  rw [shown]
  generalize (s.queue isTx).push frame = r at items enabled ⊢
  obtain ⟨accepted, q⟩ := r
  have silent : own (if accepted then [Event.pushed isTx frame] else []) = [] := by
    cases accepted <;> rfl
  constructor
  · intro other
    have account := served.account other
    by_cases same : isTx = other
    · subst same
      cases accepted <;> simp_all
    · cases accepted <;> simp_all [Ne.symm same]
  · intro other
    rw [queue_setQueue]
    split
    · exact enabled.trans (served.enabled isTx)
    · exact served.enabled other
  · intro other text member
    rw [queue_setQueue] at member
    split at member
    · rw [items] at member
      rcases List.mem_append.1 member with old | new
      · exact served.nonempty isTx text old
      · cases accepted <;> simp_all
    · exact served.nonempty other text member
  · exact fun other msg => served.held other msg ∘ (setQueue_pc.symm.trans ·)
  · intro other popping
    have stocked := served.stocked other (setQueue_pc.symm.trans popping)
    rw [queue_setQueue]
    split
    · rename_i same
      subst same
      have items : q.items = _ := items
      simp [items, stocked]
    · exact stocked
  · rw [own_append, silent, List.append_nil, setQueue_pc]
    exact served.place
  · cases accepted with
    | false => simpa using served.txFirst
    | true => exact each_snoc.2 ⟨served.txFirst, fun _ impossible => nomatch impossible⟩

/-- A queue the thread stands at `pop` before is not empty, and its front is what `pop` moves
out. -/
theorem Served.pop (served : Served es s) (popping : s.pc = .pop isTx) :
    ∃ msg rest, (s.queue isTx).ready = true ∧ (s.queue isTx).items = msg :: rest ∧
      (s.queue isTx).take = (some msg, { s.queue isTx with items := rest }) := by
  have stocked := served.stocked isTx popping
  obtain ⟨msg, rest, items⟩ := List.exists_cons_of_ne_nil stocked
  exact ⟨msg, rest, Queue.ready_of_items stocked, items,
    Queue.take_items (served.enabled isTx) items⟩

/-- The front of the queue goes over to the thread. -/
theorem Served.taken {msg : String} {rest : List String} (served : Served es s)
    (popping : s.pc = .pop isTx) (items : (s.queue isTx).items = msg :: rest) :
    Served (es ++ [.taken isTx msg])
      { s.setQueue isTx { s.queue isTx with items := rest } with pc := .took isTx msg } where
  account := by
    intro other
    have account := served.account other
    by_cases same : isTx = other
    · subst same
      simp [account, items, State.inHand, popping]
    · simp [account, State.inHand, popping, same, Ne.symm same]
  enabled := by
    intro other
    rw [queue_pc, queue_setQueue]
    split
    · exact served.enabled isTx
    · exact served.enabled other
  nonempty := by
    intro other text member
    rw [queue_pc, queue_setQueue] at member
    split at member
    · exact served.nonempty isTx text (items ▸ List.mem_cons_of_mem msg member)
    · exact served.nonempty other text member
  held := by
    intro other text same
    cases same
    exact served.nonempty isTx msg (items ▸ List.mem_cons_self)
  stocked := by intro other impossible; cases impossible
  place := trivial
  txFirst := by
    refine each_snoc.2 ⟨served.txFirst, fun text same => ?_⟩
    cases same
    have place := served.place
    rw [popping] at place
    exact place

/-- What one step of the thread keeps, by where it stands. -/
theorem Served.thread (served : Served es s) (moved : step s .thread = some t) :
    Served (es ++ (shows s .thread).toList) t := by
  have place := served.place
  cases pc : s.pc with
  | head =>
      simp only [step, pc, Option.some.injEq] at moved
      subst moved
      refine served.walk ?_ (by simp [pc]) ?_ ?_ ?_
      · intro e shown
        simp only [shows, pc, Option.mem_def, Option.ite_none_right_eq_some,
          Option.some.injEq] at shown
        exact .inl shown.2.symm
      · intro isTx msg
        split <;> exact Pc.noConfusion
      · intro isTx
        split <;> exact Pc.noConfusion
      · simp only [shows, pc]
        split
        · exact ⟨own es, rfl⟩
        · trivial
  | testTx =>
      rw [pc] at place
      simp only [step, pc, Option.some.injEq] at moved
      subst moved
      refine served.walk ?_ (by simp [pc]) ?_ ?_ ?_
      · intro e shown
        simp only [shows, pc, Option.mem_def, Option.ite_none_right_eq_some,
          Option.some.injEq] at shown
        exact .inr ⟨true, shown.2.symm⟩
      · intro isTx msg
        split <;> exact Pc.noConfusion
      · intro isTx popping
        split at popping <;> cases popping
        exact fun empty => absurd (Queue.empty_iff.2 empty) ‹_›
      · simp only [shows, pc]
        split
        · obtain ⟨earlier, ends⟩ := place
          exact ⟨earlier, by rw [ends, List.append_assoc]; rfl⟩
        · trivial
  | testNonTx =>
      rw [pc] at place
      simp only [step, pc, Option.some.injEq] at moved
      subst moved
      refine served.walk ?_ (by simp [pc]) ?_ ?_ ?_
      · intro e shown
        simp only [shows, pc, Option.mem_def, Option.ite_none_right_eq_some,
          Option.some.injEq] at shown
        exact .inr ⟨false, shown.2.symm⟩
      · intro isTx msg
        split <;> exact Pc.noConfusion
      · intro isTx popping
        split at popping <;> cases popping
        exact fun empty => absurd (Queue.empty_iff.2 empty) ‹_›
      · simp only [shows, pc]
        split
        · trivial
        · obtain ⟨earlier, ends⟩ := place
          exact ⟨earlier, by rw [ends]; exact List.append_nil _⟩
  | pop isTx =>
      obtain ⟨msg, rest, ready, items, take⟩ := served.pop pc
      have shown : shows s .thread = some (.taken isTx msg) := by simp [shows, pc, take]
      simp only [step, pc, ready, take, if_true, Option.getD_some, Option.some.injEq] at moved
      subst moved
      rw [shown]
      exact served.taken pc items
  | took isTx msg =>
      have filled := served.held isTx msg pc
      have shown : shows s .thread = some (.handed isTx msg) := by simp [shows, pc, filled]
      simp only [step, pc, if_neg filled, Option.some.injEq] at moved
      subst moved
      rw [shown]
      refine served.move (by simp) ?_ ?_ ?_ trivial ?_
      · intro other
        simp [State.inHand, pc]
      · intro other text impossible
        cases impossible
      · intro other impossible
        cases impossible
      · exact each_snoc.2 ⟨served.txFirst, fun _ impossible => nomatch impossible⟩
  | sending isTx msg | idle =>
      simp only [step, pc, Option.some.injEq] at moved
      have shown : shows s .thread = none := by simp [shows, pc]
      subst moved
      rw [shown]
      exact served.walk (by simp) (by simp [pc]) (by simp) (by simp) trivial
  | ended => simp [step, pc] at moved

/-- One step, whichever thread makes it. -/
theorem served_step {l : Label} (served : Served es s)
    (filled : ∀ isTx frame, l = .push isTx frame → frame ≠ "") (moved : step s l = some t) :
    Served (es ++ (shows s l).toList) t := by
  cases l with
  | push isTx frame =>
      obtain rfl := Option.some.inj moved
      exact served.push (filled isTx frame rfl)
  | stop =>
      obtain rfl := Option.some.inj moved
      show Served (es ++ []) _
      rw [List.append_nil]
      exact ⟨served.account, served.enabled, served.nonempty, served.held, served.stocked,
        served.place, served.txFirst⟩
  | timeout =>
      unfold step at moved
      cases pc : s.pc <;> simp only [pc, reduceCtorEq] at moved
      obtain ⟨msg, rest, ready, -⟩ := served.pop pc
      simp [ready] at moved
  | thread => exact served.thread moved

/-- The thread's next step can be taken: it does not wait in `pop`. -/
theorem Served.runs (served : Served es s) (alive : s.pc ≠ .ended) :
    ∃ t, step s .thread = some t := by
  cases pc : s.pc with
  | ended => exact absurd pc alive
  | pop isTx =>
      obtain ⟨msg, rest, ready, -⟩ := served.pop pc
      simp [step, pc, ready]
  | _ => simp [step, pc]

/-! ## The context as the senders see it -/

/-- An accepted push is the push of `ConnectorContext`. -/
theorem context_push (accepted : ((s.queue isTx).push frame).1 = true) :
    (s.setQueue isTx ((s.queue isTx).push frame).2).context = s.context.push isTx frame := by
  have items : ((s.queue isTx).push frame).2.items =
      (s.queue isTx).items ++ if ((s.queue isTx).push frame).1 then [frame] else [] :=
    Queue.push_items
  rw [if_pos accepted] at items
  cases isTx with
  | false => exact congrArg (ConnectorContext.mk s.txQueue.items · s.running) items
  | true => exact congrArg (ConnectorContext.mk · s.nonTxQueue.items s.running) items

/-- The test and the `pop` together are the choice of `ConnectorContext.pop`, unless a
transaction frame has come in between them. -/
theorem context_pop (served : Served es s) (popping : s.pc = .pop isTx)
    (still : isTx = false → s.txQueue.items = []) (moved : step s .thread = some t) :
    ∃ msg, t.pc = .took isTx msg ∧ s.context.pop = some (msg, t.context) := by
  obtain ⟨msg, rest, ready, items, take⟩ := served.pop popping
  simp only [step, popping, ready, take, if_true, Option.getD_some, Option.some.injEq] at moved
  subst moved
  refine ⟨msg, rfl, ?_⟩
  cases isTx with
  | true =>
      have items : s.txQueue.items = msg :: rest := items
      simp [ConnectorContext.pop, State.context, State.setQueue, State.queue, items]
  | false =>
      have items : s.nonTxQueue.items = msg :: rest := items
      simp [ConnectorContext.pop, State.context, State.setQueue, State.queue, items, still rfl]

/-! ## Runs -/

theorem served_run {ls : List Label} (filled : NonEmptyPushes ls)
    (ran : exec step {} ls = some s) : Served (observe step shows {} ls) s :=
  exec_history (C := fun _ l => ∀ isTx frame, l = .push isTx frame → frame ≠ "")
    (fun _ _ _ _ filled served moved => served_step served filled moved)
    (along_of_labels (fun _ inside _ isTx frame same => filled isTx frame (by rwa [← same])) {})
    served_start ran

/-- **Order, no loss, priority and no wait.**  In every run in which no empty frame is pushed,
what was pushed into a queue is what was handed to `doSend` from it, then the frame the thread
holds, then what waits, each in the order of the pushes; a frame of `nonTxQueue` is taken only
in an iteration that has found `txQueue` empty; and where the thread is about to `pop`, `pop`
does not wait. -/
theorem frames_served {ls : List Label} (filled : NonEmptyPushes ls)
    (ran : exec step {} ls = some s) :
    (∀ isTx, pushed isTx (observe step shows {} ls) =
      handed isTx (observe step shows {} ls) ++ s.inHand isTx ++ (s.queue isTx).items) ∧
    TxFirst (observe step shows {} ls) ∧
    (∀ isTx, s.pc = .pop isTx → (s.queue isTx).ready = true) ∧
    (s.pc ≠ .ended → ∃ t, step s .thread = some t) := by
  have served := served_run filled ran
  refine ⟨served.account, served.txFirst, fun isTx popping => ?_, served.runs⟩
  obtain ⟨msg, rest, ready, -⟩ := served.pop popping
  exact ready

/-- A transaction frame comes in between the test of its queue and the `pop` of the other. -/
def overtaken : List Label :=
  [.push false "b", .thread, .thread, .push true "a", .thread, .thread, .thread, .thread, .thread,
    .thread, .thread, .thread]

theorem overtaken_served :
    ∃ s, exec step {} overtaken = some s ∧ handed false (observe step shows {} overtaken) = ["b"] ∧
      handed true (observe step shows {} overtaken) = ["a"] ∧
      TxFirst (observe step shows {} overtaken) := by
  refine ⟨_, rfl, by decide, by decide, (frames_served ?_ rfl).2.1⟩
  intro isTx frame pushed
  simp [overtaken] at pushed
  rcases pushed with ⟨-, rfl⟩ | ⟨-, rfl⟩ <;> decide

end ChargerStack.Ocpp.SendThread
