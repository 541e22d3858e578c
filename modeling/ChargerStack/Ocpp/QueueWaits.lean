/-
# Ocpp.QueueWaits -- the threads that wait in common/Queue.h

Any number of threads push into one queue and pop from it.  `pop` tests its predicate under
`m_mutex`, sleeps on `m_cond_var` while it is false, and takes an item in the critical section
in which it has found it true; `push` and `setEnable` notify inside theirs.

* `monitor` reads a queue and its sleepers as a `Lib.Monitor`; every step is one of its
  operations or two, so nobody sleeps through an item (`never_overslept`);
* `Told` is the invariant of the history: what was pushed is what was popped or cleared, in that
  order, and then what is in the queue;
* `items_popped_once`: in every run the items leave in the order they came, each once, a push is
  refused only by a full queue, a pop fails only on a queue that is empty or disabled, and never
  is the front of an empty queue taken.
-/
import ChargerStack.Lib.Monitor
import ChargerStack.Lib.Run
import ChargerStack.Ocpp.Queue

namespace ChargerStack.Ocpp

open Lib

set_option autoImplicit false

universe u v

variable {ItemType : Type u} {maxSize : Nat}

namespace Queue

def clear (q : Queue ItemType maxSize) : Queue ItemType maxSize := { q with items := [] }

def setEnable (q : Queue ItemType maxSize) (enabled : Bool) : Queue ItemType maxSize :=
  { q with enabled := enabled }

end Queue

namespace QueueWaits

variable {Thread : Type v}

structure State (ItemType : Type u) (maxSize : Nat) (Thread : Type v) where
  queue : Queue ItemType maxSize := {}
  /-- The threads in `m_cond_var.wait_for`. -/
  asleep : List Thread := []
  /-- Those that were notified and have not had the lock since. -/
  woken : List Thread := []
  /-- Those whose time is up and that have not had the lock since. -/
  expired : List Thread := []
  deriving DecidableEq, Repr

inductive Label (ItemType : Type u) (Thread : Type v) where
  /-- A call of `push`, and the thread its `notify_one` reaches. -/
  | push (item : ItemType) (sleeper : Option Thread)
  /-- A call of `pop`, up to its first wait. -/
  | pop (t : Thread)
  /-- The thread has the lock again and tests the predicate. -/
  | resume (t : Thread)
  /-- `ms_timeout` is over. -/
  | expire (t : Thread)
  /-- The thread is roused for no reason. -/
  | rouse (t : Thread)
  | clear
  | setEnable (enabled : Bool)
  deriving DecidableEq, Repr

namespace State

/-- The predicate holds for a thread that has the lock. -/
def take (s : State ItemType maxSize Thread) : State ItemType maxSize Thread :=
  { s with queue := s.queue.take.2 }

def sleep (s : State ItemType maxSize Thread) (t : Thread) : State ItemType maxSize Thread :=
  { s with asleep := t :: s.asleep }

/-- `notify_all`. -/
def notifyAll (s : State ItemType maxSize Thread) : State ItemType maxSize Thread :=
  { s with asleep := [], woken := s.woken ++ s.asleep }

variable [DecidableEq Thread]

/-- A thread that was notified has the lock again. -/
def unwoken (s : State ItemType maxSize Thread) (t : Thread) : State ItemType maxSize Thread :=
  { s with woken := s.woken.erase t }

/-- A thread whose time was up has the lock again. -/
def unexpired (s : State ItemType maxSize Thread) (t : Thread) : State ItemType maxSize Thread :=
  { s with expired := s.expired.erase t }

end State

variable [DecidableEq Thread]

def step (s : State ItemType maxSize Thread) :
    Label ItemType Thread → Option (State ItemType maxSize Thread)
  | .push item sleeper =>
      if (s.queue.push item).1 then
        match sleeper with
        | none => if s.asleep = [] then some { s with queue := (s.queue.push item).2 } else none
        | some t =>
            if t ∈ s.asleep then
              some { s with
                queue := (s.queue.push item).2
                asleep := s.asleep.erase t
                woken := t :: s.woken }
            else none
      else if sleeper = none then some s
      else none
  | .pop t =>
      if t ∈ s.asleep ∨ t ∈ s.woken ∨ t ∈ s.expired then none
      else if s.queue.ready then some s.take
      else some (s.sleep t)
  | .resume t =>
      if t ∈ s.woken then
        -- A wait whose predicate is false is entered again.
        some (if s.queue.ready then (s.unwoken t).take else (s.unwoken t).sleep t)
      else if t ∈ s.expired then
        some (if s.queue.ready then (s.unexpired t).take else s.unexpired t)
      else none
  | .expire t =>
      if t ∈ s.asleep then
        some { s with asleep := s.asleep.erase t, expired := t :: s.expired }
      else none
  | .rouse t =>
      if t ∈ s.asleep then some { s with asleep := s.asleep.erase t, woken := t :: s.woken }
      else none
  | .clear => some { s with queue := s.queue.clear }
  | .setEnable enabled => some { s.notifyAll with queue := s.queue.setEnable enabled }

/-- The queue and its sleepers as a monitor. -/
def State.monitor (s : State ItemType maxSize Thread) : Monitor where
  level := s.queue.items.length
  shut := !s.queue.enabled
  asleep := s.asleep.length
  woken := s.woken.length

variable {s t : State ItemType maxSize Thread} {l : Label ItemType Thread}

/-! ## Nobody sleeps through an item -/

omit [DecidableEq Thread] in
theorem Heard.take (heard : Monitor.Heard s.monitor) : Monitor.Heard s.take.monitor := by
  cases enabled : s.queue.enabled with
  | true => simpa [State.take, State.monitor, Queue.take, Monitor.take, enabled] using heard.take
  | false => simpa [State.take, State.monitor, Queue.take, enabled] using heard

omit [DecidableEq Thread] in
/-- A thread sleeps only where there is nothing to take. -/
theorem Heard.sleep {x : Thread} (waits : ¬ s.queue.ready = true) :
    Monitor.Heard (s.sleep x).monitor := by
  obtain ⟨isOpen, nothing⟩ : s.queue.enabled = true ∧ s.queue.items = [] := by
    simpa [Queue.ready] using waits
  have level : s.monitor.level = 0 := by simp [State.monitor, nothing]
  have goes : s.monitor.shut = false := by simp [State.monitor, isOpen]
  exact Monitor.Heard.sleep level goes

/-- A notified thread moves out an item, or finds the queue disabled. -/
theorem Heard.unwoken {x : Thread} (heard : Monitor.Heard s.monitor) (roused : x ∈ s.woken) :
    Monitor.Heard (s.unwoken x).take.monitor := by
  have woken : (s.woken.erase x).length = s.woken.length - 1 := List.length_erase_of_mem roused
  cases enabled : s.queue.enabled with
  | true =>
      simpa [State.take, State.unwoken, State.monitor, Queue.take, Monitor.take, Monitor.resume,
        enabled, woken] using heard.resume_take
  | false =>
      have closed : s.monitor.shut = true := by simp [State.monitor, enabled]
      simpa [State.take, State.unwoken, State.monitor, Queue.take, Monitor.resume, enabled, woken]
        using heard.resume (.inr ⟨closed, rfl⟩)

theorem heard_step (s : State ItemType maxSize Thread) (l : Label ItemType Thread)
    (t : State ItemType maxSize Thread) (heard : Monitor.Heard s.monitor)
    (moved : step s l = some t) : Monitor.Heard t.monitor := by
  cases l with
  | push item sleeper =>
      simp only [step] at moved
      split at moved
      · rename_i accepted
        have items : (s.queue.push item).2.items = s.queue.items ++ [item] := by
          rw [Queue.push_items, if_pos accepted]
        cases sleeper with
        | none =>
            simp only [Option.ite_none_right_eq_some, Option.some.injEq] at moved
            obtain ⟨nobody, rfl⟩ := moved
            exact Monitor.heard_empty (by simp [State.monitor, nobody])
        | some x =>
            simp only [Option.ite_none_right_eq_some, Option.some.injEq] at moved
            obtain ⟨sleeps, rfl⟩ := moved
            have least : min s.asleep.length 1 = 1 :=
              Nat.min_eq_right (List.length_pos_of_mem sleeps)
            simpa [State.monitor, Monitor.add, Monitor.notify, items, least,
              List.length_erase_of_mem sleeps] using heard.add.notify
      · simp only [Option.ite_none_right_eq_some, Option.some.injEq] at moved
        exact moved.2 ▸ heard
  | pop x =>
      simp only [step, Option.ite_none_left_eq_some] at moved
      obtain ⟨-, moved⟩ := moved
      split at moved
      · obtain rfl := Option.some.inj moved
        exact Heard.take heard
      · obtain rfl := Option.some.inj moved
        exact Heard.sleep ‹_›
  | resume x =>
      simp only [step] at moved
      split at moved
      · rename_i roused
        obtain rfl := Option.some.inj moved
        split
        · exact Heard.unwoken heard roused
        · exact Heard.sleep (s := s.unwoken x) ‹_›
      · simp only [Option.ite_none_right_eq_some, Option.some.injEq] at moved
        obtain ⟨-, rfl⟩ := moved
        split
        · exact Heard.take (s := s.unexpired x) heard
        · exact heard
  | expire x =>
      simp only [step, Option.ite_none_right_eq_some, Option.some.injEq] at moved
      obtain ⟨sleeps, rfl⟩ := moved
      simpa [State.monitor, Monitor.quit, List.length_erase_of_mem sleeps] using heard.quit
  | rouse x =>
      simp only [step, Option.ite_none_right_eq_some, Option.some.injEq] at moved
      obtain ⟨sleeps, rfl⟩ := moved
      simpa [State.monitor, Monitor.rouse, List.length_erase_of_mem sleeps] using heard.rouse
  | clear =>
      obtain rfl := Option.some.inj moved
      exact heard.clear
  | setEnable enabled =>
      obtain rfl := Option.some.inj moved
      exact Monitor.heard_empty rfl

/-! ## Every item once -/

inductive Event (ItemType : Type u) (Thread : Type v) where
  | pushed (item : ItemType)
  /-- `push` returns false. -/
  | refused (item : ItemType)
  | popped (t : Thread) (item : ItemType)
  /-- `pop` returns false. -/
  | failed (t : Thread)
  /-- `pop` moves from the front of an empty queue. -/
  | undefined (t : Thread)
  | cleared (items : List ItemType)
  | setTo (enabled : Bool)
  deriving DecidableEq, Repr

/-- What a thread that has the lock shows when its predicate holds. -/
def showsTake (q : Queue ItemType maxSize) (t : Thread) : Event ItemType Thread :=
  if q.enabled then
    match q.take.1 with
    | some item => .popped t item
    | none => .undefined t
  else .failed t

def shows (s : State ItemType maxSize Thread) :
    Label ItemType Thread → Option (Event ItemType Thread)
  | .push item _ => some (if (s.queue.push item).1 then .pushed item else .refused item)
  | .pop t => if s.queue.ready then some (showsTake s.queue t) else none
  | .resume t =>
      if s.queue.ready then some (showsTake s.queue t)
      else if t ∈ s.woken then none
      else some (.failed t)
  | .expire _ | .rouse _ => none
  | .clear => some (.cleared s.queue.items)
  | .setEnable enabled => some (.setTo enabled)

/-- The items that came in, in order. -/
def pushed (es : List (Event ItemType Thread)) : List ItemType :=
  es.filterMap fun | .pushed item => some item | _ => none

/-- The items that went out or were cleared, in order. -/
def gone (es : List (Event ItemType Thread)) : List ItemType :=
  es.flatMap fun | .popped _ item => [item] | .cleared items => items | _ => []

/-- What `setEnable` was last called with. -/
def enabledAfter (es : List (Event ItemType Thread)) : Bool :=
  (es.filterMap fun | .setTo enabled => some enabled | _ => none).getLast?.getD true

/-- What the steps of a run on a new queue show. -/
def history (maxSize : Nat) (ls : List (Label ItemType Thread)) : List (Event ItemType Thread) :=
  observe step shows ({} : State ItemType maxSize Thread) ls

variable {es fs : List (Event ItemType Thread)} {e : Event ItemType Thread}

omit [DecidableEq Thread] in
@[simp] theorem pushed_append : pushed (es ++ fs) = pushed es ++ pushed fs :=
  List.filterMap_append ..

omit [DecidableEq Thread] in
@[simp] theorem gone_append : gone (es ++ fs) = gone es ++ gone fs :=
  List.flatMap_append ..

omit [DecidableEq Thread] in
@[simp] theorem pushed_singleton :
    pushed [e] = match e with | .pushed item => [item] | _ => [] := by
  cases e <;> rfl

omit [DecidableEq Thread] in
@[simp] theorem gone_singleton :
    gone [e] = match e with | .popped _ item => [item] | .cleared items => items | _ => [] := by
  cases e <;> simp [gone]

omit [DecidableEq Thread] in
@[simp] theorem enabledAfter_snoc :
    enabledAfter (es ++ [e]) = match e with | .setTo enabled => enabled | _ => enabledAfter es := by
  cases e <;> simp [enabledAfter]

/-- What an event owes to those before it: a push is refused by a full queue, a pop fails on a
queue that is empty or disabled, and none moves from an empty one. -/
def Owes (maxSize : Nat) (before : List (Event ItemType Thread)) :
    Event ItemType Thread → Prop
  | .refused _ => (pushed before).length = (gone before).length + maxSize
  | .failed _ => enabledAfter before = false ∨ pushed before = gone before
  | .undefined _ => False
  | _ => True

structure Told (es : List (Event ItemType Thread)) (s : State ItemType maxSize Thread) :
    Prop where
  account : pushed es = gone es ++ s.queue.items
  bound : s.queue.items.length ≤ maxSize
  enabled : enabledAfter es = s.queue.enabled
  owes : Each (Owes maxSize) es

omit [DecidableEq Thread] in
theorem told_start : Told [] ({} : State ItemType maxSize Thread) where
  account := rfl
  bound := Nat.zero_le _
  enabled := rfl
  owes := each_nil _

omit [DecidableEq Thread] in
/-- The queue stays, and at most a pop fails. -/
theorem Told.same (told : Told es s) (same : t.queue = s.queue) : Told es t :=
  ⟨same ▸ told.account, same ▸ told.bound, same ▸ told.enabled, told.owes⟩

omit [DecidableEq Thread] in
/-- A thread whose predicate holds moves out the front, or fails on a disabled queue. -/
theorem Told.take {x : Thread} (told : Told es s) (ready : s.queue.ready = true)
    (moved : t.queue = s.queue.take.2) : Told (es ++ [showsTake s.queue x]) t := by
  have account := told.account
  have enabled := told.enabled
  cases isOpen : s.queue.enabled with
  | false =>
      have shown : showsTake s.queue x = .failed x := by simp [showsTake, isOpen]
      have same : t.queue = s.queue := by simp [moved, Queue.take, isOpen]
      rw [shown]
      refine Told.same ?_ same
      refine ⟨by simpa using account, told.bound, by simpa using enabled, each_snoc.2 ⟨told.owes, ?_⟩⟩
      exact .inl (enabled.trans isOpen)
  | true =>
      obtain ⟨item, rest, items⟩ : ∃ item rest, s.queue.items = item :: rest :=
        List.exists_cons_of_ne_nil (by simpa [Queue.ready, isOpen] using ready)
      have taken := Queue.take_items isOpen items
      have shown : showsTake s.queue x = .popped x item := by simp [showsTake, isOpen, taken]
      rw [taken] at moved
      rw [shown]
      refine ⟨by simp [account, items, moved], ?_, ?_, each_snoc.2 ⟨told.owes, trivial⟩⟩
      · have bound := told.bound
        rw [items, List.length_cons] at bound
        simp only [moved]
        omega
      · simp [enabled, moved]

theorem told_step (es : List (Event ItemType Thread)) (s : State ItemType maxSize Thread)
    (l : Label ItemType Thread) (t : State ItemType maxSize Thread) (told : Told es s)
    (moved : step s l = some t) : Told (es ++ (shows s l).toList) t := by
  have account := told.account
  have enabled := told.enabled
  cases l with
  | push item sleeper =>
      have items := @Queue.push_items _ _ s.queue item
      cases accepted : (s.queue.push item).1 with
      | true =>
          have room : s.queue.items.length < maxSize := by
            by_contra full
            simp [Queue.push, full] at accepted
          have queue : t.queue = (s.queue.push item).2 := by
            simp only [step, accepted, if_true] at moved
            cases sleeper <;>
              simp only [Option.ite_none_right_eq_some, Option.some.injEq] at moved <;>
              exact moved.2 ▸ rfl
          simp only [shows, accepted, if_true, Option.toList_some]
          rw [accepted, if_pos rfl] at items
          refine ⟨by simp [account, queue, items], ?_, by simp [enabled, queue],
            each_snoc.2 ⟨told.owes, trivial⟩⟩
          rw [queue, items, List.length_append]
          exact room
      | false =>
          have full : maxSize ≤ s.queue.items.length := by
            by_contra room
            simp [Queue.push, Nat.lt_of_not_le room] at accepted
          have same : s = t := by
            simp only [step, accepted, Bool.false_eq_true, if_false, Option.ite_none_right_eq_some,
              Option.some.injEq] at moved
            exact moved.2
          subst same
          simp only [shows, accepted, Bool.false_eq_true, if_false, Option.toList_some]
          refine ⟨by simpa using account, told.bound, by simpa using enabled,
            each_snoc.2 ⟨told.owes, ?_⟩⟩
          have bound := told.bound
          show (pushed es).length = (gone es).length + maxSize
          rw [account, List.length_append]
          omega
  | pop x =>
      simp only [step, Option.ite_none_left_eq_some] at moved
      obtain ⟨-, moved⟩ := moved
      cases ready : s.queue.ready with
      | true =>
          simp only [ready, if_true, Option.some.injEq] at moved
          simp only [shows, ready, if_true, Option.toList_some]
          exact told.take ready (moved ▸ rfl)
      | false =>
          simp only [ready, Bool.false_eq_true, if_false, Option.some.injEq] at moved
          simp only [shows, ready, Bool.false_eq_true, if_false, Option.toList_none,
            List.append_nil]
          exact told.same (moved ▸ rfl)
  | resume x =>
      simp only [step] at moved
      cases ready : s.queue.ready with
      | true =>
          simp only [shows, ready, if_true, Option.toList_some]
          refine told.take ready ?_
          split at moved
          · obtain rfl := Option.some.inj moved
            simp [State.take, State.unwoken]
          · simp only [Option.ite_none_right_eq_some, Option.some.injEq] at moved
            obtain ⟨-, rfl⟩ := moved
            simp [State.take, State.unexpired]
      | false =>
          split at moved
          · rename_i roused
            obtain rfl := Option.some.inj moved
            simp only [shows, ready, roused, Bool.false_eq_true, if_false, if_true,
              Option.toList_none, List.append_nil]
            exact told.same rfl
          · rename_i unroused
            simp only [Option.ite_none_right_eq_some, Option.some.injEq] at moved
            obtain ⟨-, rfl⟩ := moved
            simp only [shows, ready, unroused, Bool.false_eq_true, if_false, Option.toList_some]
            have nothing : s.queue.items = [] := (by simpa [Queue.ready] using ready :
              s.queue.enabled = true ∧ s.queue.items = []).2
            refine Told.same (s := s) ?_ rfl
            refine ⟨by simpa using account, told.bound, by simpa using enabled,
              each_snoc.2 ⟨told.owes, .inr ?_⟩⟩
            rw [account, nothing, List.append_nil]
  | expire x =>
      simp only [step, Option.ite_none_right_eq_some, Option.some.injEq] at moved
      obtain ⟨-, rfl⟩ := moved
      simp only [shows, Option.toList_none, List.append_nil]
      exact told.same rfl
  | rouse x =>
      simp only [step, Option.ite_none_right_eq_some, Option.some.injEq] at moved
      obtain ⟨-, rfl⟩ := moved
      simp only [shows, Option.toList_none, List.append_nil]
      exact told.same rfl
  | clear =>
      obtain rfl := Option.some.inj moved
      exact ⟨by simp [account, shows, Queue.clear], Nat.zero_le _, by simp [shows, enabled, Queue.clear],
        each_snoc.2 ⟨told.owes, trivial⟩⟩
  | setEnable b =>
      obtain rfl := Option.some.inj moved
      exact ⟨by simpa [shows, Queue.setEnable, State.notifyAll] using account, told.bound,
        by simp [shows, Queue.setEnable], each_snoc.2 ⟨told.owes, trivial⟩⟩

/-- **Every item once.**  In every run of any number of threads the items leave the queue in the
order in which they were pushed, each of them once, and are then the first ones pushed; the
queue never holds more than `MAX_SIZE`; a push is refused only while it holds as many, a pop
fails only while it is empty or disabled, and no pop moves from an empty queue. -/
theorem items_popped_once {ls : List (Label ItemType Thread)}
    {s : State ItemType maxSize Thread} (ran : exec step {} ls = some s) :
    pushed (history maxSize ls) = gone (history maxSize ls) ++ s.queue.items ∧
      s.queue.items.length ≤ maxSize ∧ Each (Owes maxSize) (history maxSize ls) := by
  have along : Along step (fun _ _ => True) ({} : State ItemType maxSize Thread) ls :=
    along_of_labels (fun _ _ _ => trivial) _
  have told := exec_history (H := Told) (fun h s l t _ => told_step h s l t) along told_start ran
  rw [List.nil_append] at told
  exact ⟨told.account, told.bound, told.owes⟩

/-- Two threads wait, two items come in, a third is refused and one more is cleared. -/
theorem items_popped_once_two :
    let ls : List (Label Nat Nat) := [.pop 1, .pop 2, .push 7 (some 1), .push 8 (some 2), .push 9 none,
      .resume 2, .pop 3, .push 5 none, .clear, .resume 1]
    pushed (history 2 ls) = gone (history 2 ls) ++ [] ∧ pushed (history 2 ls) = [7, 8, 5] ∧
      Each (Owes 2) (history 2 ls) := by
  have ran : exec step ({} : State Nat 2 Nat) [.pop 1, .pop 2, .push 7 (some 1), .push 8 (some 2),
      .push 9 none, .resume 2, .pop 3, .push 5 none, .clear, .resume 1] =
        some { asleep := [1] } := by decide
  exact ⟨(items_popped_once ran).1, by decide, (items_popped_once ran).2.2⟩

/-- **Nobody oversleeps.**  In every state of every run a thread sleeps in `pop` only while the
queue is enabled, and there are then as many threads notified and on their way as there are
items in the queue. -/
theorem never_overslept {ls : List (Label ItemType Thread)} {s : State ItemType maxSize Thread}
    (ran : exec step {} ls = some s) (sleeper : s.asleep ≠ []) :
    s.queue.enabled = true ∧ s.queue.items.length ≤ s.woken.length := by
  have heard : Monitor.Heard s.monitor :=
    exec_invariant heard_step (Monitor.heard_empty rfl) ran
  have some : s.monitor.asleep ≠ 0 := fun none => sleeper (List.length_eq_zero_iff.1 none)
  constructor
  · by_contra disabled
    have closed : s.monitor.shut = true := by
      simp only [State.monitor]
      simpa using disabled
    exact nomatch heard.shut closed some
  · exact heard.level some

/-- Two threads sleep; an item comes in and one of them is notified. -/
theorem never_overslept_one : ∃ s : State Nat 4 Nat, s.asleep ≠ [] ∧ s.queue.items = [7] ∧
    s.queue.enabled = true ∧ s.queue.items.length ≤ s.woken.length := by
  have ran : exec step ({} : State Nat 4 Nat) [.pop 1, .pop 2, .push 7 (some 2)] =
      some { queue := { items := [7] }, asleep := [1], woken := [2] } := by decide
  exact ⟨_, by decide, rfl, never_overslept ran (by decide)⟩

end QueueWaits

end ChargerStack.Ocpp
