/-
# Ocpp.ThreadPool -- the workers of tool/threadpool/ThreadPool.h

A worker tests its predicate and takes a task in one critical section on `queue_mutex`, and
runs the task outside it.  `enqueue` and the destructor notify behind their critical sections,
so other threads come in between.

* `monitor` reads a pool as a `Lib.Monitor`; every step is one of its operations, so nobody
  sleeps through a task (`heard`);
* `Accounted` is the invariant of the history: the tasks taken are the first ones accepted, and
  each of them has finished or is with a worker;
* `tasks_run_once`: in every run each accepted task is taken once, in the order of acceptance,
  and when all workers have returned every one has finished;
* `left` counts what the pool still has to do, and every step of its own makes it less;
  `pool_drains`: without new tasks the pool comes to rest after so many steps, with no task
  left, and with every worker returned once the destructor runs.
-/
import ChargerStack.Lib.Monitor
import ChargerStack.Lib.Progress
import ChargerStack.Lib.Slots

namespace ChargerStack.Ocpp.ThreadPool

open Lib

set_option autoImplicit false

universe u

variable {Task : Type u}

/-- Where a worker stands. -/
inductive Worker (Task : Type u) where
  /-- About to lock `queue_mutex`. -/
  | entering
  /-- In `condition.wait`. -/
  | asleep
  /-- Roused, and about to lock `queue_mutex` again. -/
  | woken
  /-- In `task()`. -/
  | running (task : Task)
  | returned
  deriving DecidableEq, Repr

namespace Worker

def isAsleep : Worker Task → Bool
  | .asleep => true
  | _ => false

def isWoken : Worker Task → Bool
  | .woken => true
  | _ => false

/-- What `notify_all` makes of a worker. -/
def roused : Worker Task → Worker Task
  | .asleep => .woken
  | w => w

/-- The task a worker is in. -/
def tasks : Worker Task → List Task
  | .running task => [task]
  | _ => []

end Worker

structure State (Task : Type u) where
  tasks : List Task := []
  stop : Bool := false
  workers : List (Worker Task)
  /-- The calls of `enqueue` between their critical section and `notify_one`. -/
  notifying : Nat := 0
  /-- The destructor is between its critical section and `notify_all`. -/
  closing : Bool := false
  deriving DecidableEq, Repr

/-- `ThreadPool(threads)`. -/
def start (threads : Nat) : State Task := { workers := List.replicate threads .entering }

inductive Label (Task : Type u) where
  /-- A thread calls `enqueue`, up to the end of its critical section. -/
  | enqueue (task : Task)
  /-- Its `notify_one`, and the worker it rouses. -/
  | notify (sleeper : Option Nat)
  /-- The worker's next critical section, or the end of its task. -/
  | worker (i : Nat)
  /-- The worker is roused for no reason. -/
  | rouse (i : Nat)
  /-- The destructor sets `stop`. -/
  | stop
  | notifyAll
  deriving DecidableEq, Repr

/-- Whether the step is one the pool makes for itself. -/
def Label.own : Label Task → Bool
  | .notify _ | .worker _ | .notifyAll => true
  | _ => false

namespace State

def setWorker (s : State Task) (i : Nat) (w : Worker Task) : State Task :=
  { s with workers := s.workers.set i w }

/-- The critical section of a worker: the predicate of `condition.wait`, and what follows. -/
def pass (s : State Task) (i : Nat) : State Task :=
  match s.tasks with
  | [] => s.setWorker i (if s.stop then .returned else .asleep)
  | task :: rest => { s.setWorker i (.running task) with tasks := rest }

end State

open State

def step (s : State Task) : Label Task → Option (State Task)
  | .enqueue task =>
      -- A stopped pool throws.
      if s.stop then some s
      else some { s with tasks := s.tasks ++ [task], notifying := s.notifying + 1 }
  | .notify sleeper =>
      if s.notifying = 0 then none
      else
        match sleeper with
        | none =>
            if s.workers.any Worker.isAsleep then none
            else some { s with notifying := s.notifying - 1 }
        | some i =>
            match s.workers[i]? with
            | some .asleep => some { s.setWorker i .woken with notifying := s.notifying - 1 }
            | _ => none
  | .worker i =>
      match s.workers[i]? with
      | some .entering | some .woken => some (s.pass i)
      | some (.running _) => some (s.setWorker i .entering)
      | _ => none
  | .rouse i =>
      match s.workers[i]? with
      | some .asleep => some (s.setWorker i .woken)
      | _ => none
  | .stop => if s.stop then none else some { s with stop := true, closing := true }
  | .notifyAll =>
      if s.closing then some { s with workers := s.workers.map Worker.roused, closing := false } else none

/-! ## What a run shows -/

inductive Event (Task : Type u) where
  | accepted (task : Task)
  /-- `enqueue` throws. -/
  | refused (task : Task)
  | taken (task : Task)
  | finished (task : Task)
  deriving DecidableEq, Repr

def shows (s : State Task) : Label Task → Option (Event Task)
  | .enqueue task => some (if s.stop then .refused task else .accepted task)
  | .worker i =>
      match s.workers[i]? with
      | some .entering | some .woken => s.tasks.head?.map .taken
      | some (.running task) => some (.finished task)
      | _ => none
  | _ => none

def accepted (es : List (Event Task)) : List Task :=
  es.filterMap fun | .accepted task => some task | _ => none

def taken (es : List (Event Task)) : List Task :=
  es.filterMap fun | .taken task => some task | _ => none

def finished (es : List (Event Task)) : List Task :=
  es.filterMap fun | .finished task => some task | _ => none

/-- The tasks the workers are in. -/
def State.running (s : State Task) : List Task := s.workers.flatMap Worker.tasks

/-- The pool as a monitor. -/
def State.monitor (s : State Task) : Monitor where
  level := s.tasks.length
  shut := s.stop
  asleep := s.workers.countP Worker.isAsleep
  woken := s.workers.countP Worker.isWoken
  owed := s.notifying
  alarm := s.closing

/-! ## What a step can do -/

variable {s t : State Task} {l : Label Task} {es : List (Event Task)}

/-- The steps, with what each of them needs and does. -/
inductive Move (s : State Task) : Label Task → State Task → Prop where
  | refuses (task : Task) (stopped : s.stop = true) : Move s (.enqueue task) s
  | accepts (task : Task) (going : s.stop = false) : Move s (.enqueue task)
      { s with tasks := s.tasks ++ [task], notifying := s.notifying + 1 }
  | notifiesNone (due : s.notifying ≠ 0) (awake : s.workers.countP Worker.isAsleep = 0) :
      Move s (.notify none) { s with notifying := s.notifying - 1 }
  | notifies (i : Nat) (due : s.notifying ≠ 0) (at_ : s.workers[i]? = some .asleep) :
      Move s (.notify (some i)) { s.setWorker i .woken with notifying := s.notifying - 1 }
  | takes (i : Nat) (w : Worker Task) (at_ : s.workers[i]? = some w)
      (free : w = .entering ∨ w = .woken) (task : Task) (rest : List Task)
      (tasks : s.tasks = task :: rest) :
      Move s (.worker i) { s.setWorker i (.running task) with tasks := rest }
  | sleeps (i : Nat) (w : Worker Task) (at_ : s.workers[i]? = some w)
      (free : w = .entering ∨ w = .woken) (tasks : s.tasks = []) (going : s.stop = false) :
      Move s (.worker i) (s.setWorker i .asleep)
  | returns (i : Nat) (w : Worker Task) (at_ : s.workers[i]? = some w)
      (free : w = .entering ∨ w = .woken) (tasks : s.tasks = []) (stopped : s.stop = true) :
      Move s (.worker i) (s.setWorker i .returned)
  | finishes (i : Nat) (task : Task) (at_ : s.workers[i]? = some (.running task)) :
      Move s (.worker i) (s.setWorker i .entering)
  | rouses (i : Nat) (at_ : s.workers[i]? = some .asleep) :
      Move s (.rouse i) (s.setWorker i .woken)
  | stops (going : s.stop = false) : Move s .stop { s with stop := true, closing := true }
  | announces (due : s.closing = true) :
      Move s .notifyAll { s with workers := s.workers.map Worker.roused, closing := false }

theorem move_pass {i : Nat} {w : Worker Task} (at_ : s.workers[i]? = some w)
    (free : w = .entering ∨ w = .woken) : Move s (.worker i) (s.pass i) := by
  unfold State.pass
  split
  · rename_i tasks
    cases stop : s.stop with
    | true => exact .returns i w at_ free tasks stop
    | false => exact .sleeps i w at_ free tasks stop
  · rename_i task rest tasks
    exact .takes i w at_ free task rest tasks

theorem move_of_step (moved : step s l = some t) : Move s l t := by
  cases l with
  | enqueue task =>
      simp only [step] at moved
      split at moved
      · obtain rfl := Option.some.inj moved
        exact .refuses task ‹_›
      · obtain rfl := Option.some.inj moved
        exact .accepts task (Bool.eq_false_iff.2 ‹_›)
  | notify sleeper =>
      simp only [step] at moved
      split at moved
      · exact nomatch moved
      · rename_i due
        cases sleeper with
        | none =>
            simp only [Option.ite_none_left_eq_some, Option.some.injEq] at moved
            obtain ⟨awake, rfl⟩ := moved
            refine .notifiesNone due (List.countP_eq_zero.2 fun w inside sleeps => awake ?_)
            exact List.any_eq_true.2 ⟨w, inside, sleeps⟩
        | some i =>
            simp only at moved
            split at moved
            · rename_i at_
              obtain rfl := Option.some.inj moved
              exact .notifies i due at_
            · exact nomatch moved
  | worker i =>
      simp only [step] at moved
      split at moved
      · obtain rfl := Option.some.inj moved
        exact move_pass ‹_› (.inl rfl)
      · obtain rfl := Option.some.inj moved
        exact move_pass ‹_› (.inr rfl)
      · rename_i task at_
        obtain rfl := Option.some.inj moved
        exact .finishes i task at_
      · exact nomatch moved
  | rouse i =>
      simp only [step] at moved
      split at moved
      · obtain rfl := Option.some.inj moved
        exact .rouses i ‹_›
      · exact nomatch moved
  | stop =>
      simp only [step, Option.ite_none_left_eq_some, Option.some.injEq] at moved
      obtain ⟨going, rfl⟩ := moved
      exact .stops (Bool.eq_false_iff.2 going)
  | notifyAll =>
      simp only [step, Option.ite_none_right_eq_some, Option.some.injEq] at moved
      obtain ⟨due, rfl⟩ := moved
      exact .announces due

/-! ## Nobody sleeps through a task -/

theorem monitor_setWorker {i : Nat} {w v : Worker Task} (at_ : s.workers[i]? = some w) :
    (s.setWorker i v).monitor = { s.monitor with
      asleep := s.monitor.asleep - w.isAsleep.toNat + v.isAsleep.toNat
      woken := s.monitor.woken - w.isWoken.toNat + v.isWoken.toNat } := by
  simp only [State.monitor, State.setWorker, countP_set_of_at at_]

/-- `notify_all` rouses all that sleep. -/
theorem countP_roused (ws : List (Worker Task)) :
    (ws.map Worker.roused).countP Worker.isAsleep = 0 ∧
      (ws.map Worker.roused).countP Worker.isWoken =
        ws.countP Worker.isWoken + ws.countP Worker.isAsleep := by
  induction ws with
  | nil => exact ⟨rfl, rfl⟩
  | cons w ws ih =>
      obtain ⟨asleep, woken⟩ := ih
      rw [List.map_cons, List.countP_cons, List.countP_cons, List.countP_cons, List.countP_cons,
        asleep, woken]
      cases w <;> simp [Worker.roused, Worker.isAsleep, Worker.isWoken] <;> omega

theorem countP_pos_of_at {i : Nat} {w : Worker Task} {p : Worker Task → Bool}
    (at_ : s.workers[i]? = some w) (holds : p w = true) : 0 < s.workers.countP p :=
  List.countP_pos_iff.2 ⟨w, List.mem_of_getElem? at_, holds⟩

/-- Every step is an operation of the monitor. -/
theorem heard_move (moved : Move s l t) (heard : Monitor.Heard s.monitor) :
    Monitor.Heard t.monitor := by
  cases moved with
  | refuses => exact heard
  | accepts task going =>
      have same : ({ s with tasks := s.tasks ++ [task], notifying := s.notifying + 1 } :
          State Task).monitor = s.monitor.add := by
        simp [State.monitor, Monitor.add]
      exact same ▸ heard.add
  | notifiesNone due awake =>
      have same : ({ s with notifying := s.notifying - 1 } : State Task).monitor =
          s.monitor.notify := by
        simp [State.monitor, Monitor.notify, awake]
      exact same ▸ heard.notify
  | notifies i due at_ =>
      have some := countP_pos_of_at at_ (p := Worker.isAsleep) rfl
      have same : ({ s.setWorker i .woken with notifying := s.notifying - 1 } :
          State Task).monitor = { (s.setWorker i .woken).monitor with owed := s.notifying - 1 } := rfl
      rw [same, monitor_setWorker at_]
      have least : min (s.workers.countP Worker.isAsleep) 1 = 1 := Nat.min_eq_right some
      simpa [Monitor.notify, Worker.isAsleep, Worker.isWoken, least, State.monitor] using
        heard.notify
  | takes i w at_ free task rest tasks =>
      have same : ({ s.setWorker i (.running task) with tasks := rest } : State Task).monitor =
          { (s.setWorker i (.running task)).monitor with level := s.monitor.level - 1 } := by
        simp [State.monitor, State.setWorker, tasks]
      rw [same, monitor_setWorker at_]
      rcases free with rfl | rfl
      · simpa [Monitor.take, Worker.isAsleep, Worker.isWoken] using heard.take
      · simpa [Monitor.take, Monitor.resume, Worker.isAsleep, Worker.isWoken] using
          heard.resume_take
  | sleeps i w at_ free tasks going =>
      have nothing : s.monitor.level = 0 := by simp [State.monitor, tasks]
      rw [monitor_setWorker at_]
      rcases free with rfl | rfl
      · exact Monitor.Heard.sleep nothing going
      · exact Monitor.Heard.sleep (m := s.monitor.resume) nothing going
  | returns i w at_ free tasks stopped =>
      have nothing : s.monitor.level = 0 := by simp [State.monitor, tasks]
      rw [monitor_setWorker at_]
      rcases free with rfl | rfl
      · exact heard
      · exact heard.resume (.inl nothing)
  | finishes i task at_ =>
      rw [monitor_setWorker at_]
      exact heard
  | rouses i at_ =>
      rw [monitor_setWorker at_]
      exact heard.rouse
  | stops going => exact heard.close
  | announces due => exact Monitor.heard_empty (countP_roused s.workers).1

theorem heard_step (s : State Task) (l : Label Task) (t : State Task)
    (heard : Monitor.Heard s.monitor) (moved : step s l = some t) : Monitor.Heard t.monitor :=
  heard_move (move_of_step moved) heard

/-! ## Every task once -/

@[simp] theorem accepted_append {fs : List (Event Task)} :
    accepted (es ++ fs) = accepted es ++ accepted fs :=
  List.filterMap_append ..

@[simp] theorem taken_append {fs : List (Event Task)} : taken (es ++ fs) = taken es ++ taken fs :=
  List.filterMap_append ..

@[simp] theorem finished_append {fs : List (Event Task)} :
    finished (es ++ fs) = finished es ++ finished fs :=
  List.filterMap_append ..

@[simp] theorem accepted_singleton {e : Event Task} :
    accepted [e] = match e with | .accepted task => [task] | _ => [] := by
  cases e <;> rfl

@[simp] theorem taken_singleton {e : Event Task} :
    taken [e] = match e with | .taken task => [task] | _ => [] := by
  cases e <;> rfl

@[simp] theorem finished_singleton {e : Event Task} :
    finished [e] = match e with | .finished task => [task] | _ => [] := by
  cases e <;> rfl

/-- One worker has changed. -/
theorem running_setWorker {i : Nat} {w v : Worker Task} (at_ : s.workers[i]? = some w) :
    (w.tasks ++ (s.setWorker i v).running).Perm (v.tasks ++ s.running) :=
  flatMap_set_perm at_

theorem running_roused (ws : List (Worker Task)) :
    (ws.map Worker.roused).flatMap Worker.tasks = ws.flatMap Worker.tasks := by
  induction ws with
  | nil => rfl
  | cons w ws ih =>
      rw [List.map_cons, List.flatMap_cons, List.flatMap_cons, ih]
      cases w <;> rfl

/-- The tasks taken are the first ones accepted, and each has finished or is with a worker; a
worker returns from a pool that is stopped and empty. -/
structure Accounted (es : List (Event Task)) (s : State Task) : Prop where
  queued : accepted es = taken es ++ s.tasks
  started : (taken es).Perm (finished es ++ s.running)
  ended : .returned ∈ s.workers → s.stop = true ∧ s.tasks = []

theorem accounted_start (threads : Nat) : Accounted [] (start threads : State Task) where
  queued := rfl
  started := by
    suffices idle : (start threads : State Task).running = [] by simp [idle, taken, finished]
    refine List.flatMap_eq_nil_iff.2 fun w inside => ?_
    obtain rfl := List.eq_of_mem_replicate inside
    rfl
  ended inside := by
    have impossible := List.eq_of_mem_replicate inside
    exact nomatch impossible

/-- The workers change, and what they run stays. -/
theorem Accounted.same (accounted : Accounted es s) (queue : t.tasks = s.tasks)
    (running : t.running.Perm s.running)
    (ended : .returned ∈ t.workers → t.stop = true ∧ t.tasks = []) : Accounted es t where
  queued := queue ▸ accounted.queued
  started := accounted.started.trans (running.symm.append_left _)
  ended := ended

theorem returned_setWorker {i : Nat} {v : Worker Task} (other : v ≠ .returned)
    (inside : .returned ∈ (s.setWorker i v).workers) : .returned ∈ s.workers :=
  (List.mem_or_eq_of_mem_set inside).resolve_right fun same => other same.symm

theorem accounted_step (es : List (Event Task)) (s : State Task) (l : Label Task) (t : State Task)
    (accounted : Accounted es s) (moved : step s l = some t) :
    Accounted (es ++ (shows s l).toList) t := by
  cases move_of_step moved with
  | refuses task stopped =>
      have shown : shows s (.enqueue task) = some (.refused task) := by simp [shows, stopped]
      rw [shown]
      exact ⟨by simpa using accounted.queued, by simpa using accounted.started, accounted.ended⟩
  | accepts task going =>
      have shown : shows s (.enqueue task) = some (.accepted task) := by simp [shows, going]
      rw [shown]
      refine ⟨by simp [accounted.queued], ?_, fun inside => ?_⟩
      · rw [taken_append, finished_append]
        simpa [State.running] using accounted.started
      · exact absurd (accounted.ended inside).1 (Bool.eq_false_iff.1 going)
  | notifiesNone due awake =>
      rw [show shows s (.notify none) = none from rfl, Option.toList_none, List.append_nil]
      exact accounted.same rfl (.refl _) accounted.ended
  | notifies i due at_ =>
      have same : (s.setWorker i .woken).running.Perm s.running := running_setWorker at_
      rw [show shows s (.notify (some i)) = none from rfl, Option.toList_none, List.append_nil]
      exact accounted.same rfl same
        fun inside => accounted.ended (returned_setWorker (by simp) inside)
  | takes i w at_ free task rest tasks =>
      have shown : shows s (.worker i) = some (.taken task) := by
        rcases free with rfl | rfl <;> simp [shows, at_, tasks]
      have one : (s.setWorker i (.running task)).running.Perm (task :: s.running) := by
        rcases free with rfl | rfl <;> exact running_setWorker at_
      rw [shown, Option.toList_some]
      refine ⟨by simp [accounted.queued, tasks], ?_, fun inside => ?_⟩
      · calc (taken (es ++ [.taken task])).Perm (task :: taken es) := by simp
          _ |>.Perm (task :: (finished es ++ s.running)) := accounted.started.cons task
          _ |>.Perm (finished es ++ task :: s.running) := List.perm_middle.symm
          _ |>.Perm (finished es ++ (s.setWorker i (.running task)).running) :=
              one.symm.append_left _
          _ |>.Perm (finished (es ++ [.taken task]) ++ (s.setWorker i (.running task)).running) := by
              simp
      · have none := (accounted.ended (returned_setWorker (by simp) inside)).2
        simp [tasks] at none
  | sleeps i w at_ free tasks going =>
      have shown : shows s (.worker i) = none := by
        rcases free with rfl | rfl <;> simp [shows, at_, tasks]
      have same : (s.setWorker i .asleep).running.Perm s.running := by
        rcases free with rfl | rfl <;> exact running_setWorker at_
      rw [shown, Option.toList_none, List.append_nil]
      exact accounted.same rfl same
        fun inside => accounted.ended (returned_setWorker (by simp) inside)
  | returns i w at_ free tasks stopped =>
      have shown : shows s (.worker i) = none := by
        rcases free with rfl | rfl <;> simp [shows, at_, tasks]
      have same : (s.setWorker i .returned).running.Perm s.running := by
        rcases free with rfl | rfl <;> exact running_setWorker at_
      rw [shown, Option.toList_none, List.append_nil]
      exact accounted.same rfl same fun _ => ⟨stopped, tasks⟩
  | finishes i task at_ =>
      have shown : shows s (.worker i) = some (.finished task) := by simp [shows, at_]
      have one : (task :: (s.setWorker i .entering).running).Perm s.running :=
        running_setWorker at_
      rw [shown, Option.toList_some]
      have queued : accepted es = taken es ++ s.tasks := accounted.queued
      refine ⟨?_, ?_, fun inside => ?_⟩
      · rw [accepted_append, taken_append, accepted_singleton, taken_singleton, List.append_nil,
          List.append_nil]
        exact queued
      · calc (taken (es ++ [.finished task])).Perm (finished es ++ s.running) := by
              simpa using accounted.started
          _ |>.Perm (finished es ++ task :: (s.setWorker i .entering).running) :=
              one.symm.append_left _
          _ |>.Perm (finished (es ++ [.finished task]) ++ (s.setWorker i .entering).running) := by
              simp
      · exact accounted.ended (returned_setWorker (by simp) inside)
  | rouses i at_ =>
      have same : (s.setWorker i .woken).running.Perm s.running := running_setWorker at_
      rw [show shows s (.rouse i) = none from rfl, Option.toList_none, List.append_nil]
      exact accounted.same rfl same
        fun inside => accounted.ended (returned_setWorker (by simp) inside)
  | stops going =>
      rw [show shows s .stop = none from rfl, Option.toList_none, List.append_nil]
      refine accounted.same rfl (.refl _) fun inside => ?_
      exact absurd (accounted.ended inside).1 (Bool.eq_false_iff.1 going)
  | announces due =>
      rw [show shows s .notifyAll = none from rfl, Option.toList_none, List.append_nil]
      refine accounted.same rfl (.of_eq (running_roused s.workers)) fun inside => ?_
      obtain ⟨w, inside, is⟩ := List.mem_map.1 inside
      cases w <;> simp [Worker.roused] at is
      exact accounted.ended inside

theorem accounted_run {threads : Nat} {ls : List (Label Task)}
    (ran : exec step (start threads) ls = some s) :
    Accounted (observe step shows (start threads) ls) s := by
  have along : Along step (fun _ _ => True) (start threads : State Task) ls :=
    along_of_labels (fun _ _ _ => trivial) _
  simpa using exec_history (H := Accounted) (fun h s l t _ => accounted_step h s l t) along
    (accounted_start threads) ran

theorem workers_step (s : State Task) (l : Label Task) (t : State Task)
    (moved : step s l = some t) : t.workers.length = s.workers.length := by
  cases move_of_step moved <;> simp [State.setWorker]

/-- The pool keeps its workers. -/
theorem workers_run {threads : Nat} {ls : List (Label Task)}
    (ran : exec step (start threads) ls = some s) : s.workers.length = threads := by
  have same := exec_related (R := fun s t : State Task => t.workers.length = s.workers.length)
    (fun _ => rfl) (fun _ _ _ first second => second.trans first) workers_step ran
  simpa [start] using same

/-- **Every task once.**  In every run the tasks are taken in the order in which they were
accepted, each of them once, and each that was taken has finished or is with a worker; when all
workers have returned every task that was accepted has finished. -/
theorem tasks_run_once {threads : Nat} {ls : List (Label Task)} {s : State Task}
    (ran : exec step (start threads) ls = some s) :
    accepted (observe step shows (start threads) ls) =
        taken (observe step shows (start threads) ls) ++ s.tasks ∧
      (taken (observe step shows (start threads) ls)).Perm
        (finished (observe step shows (start threads) ls) ++ s.running) ∧
      (threads ≠ 0 → (∀ w ∈ s.workers, w = .returned) →
        (accepted (observe step shows (start threads) ls)).Perm
          (finished (observe step shows (start threads) ls))) := by
  have accounted := accounted_run ran
  refine ⟨accounted.queued, accounted.started, fun some ended => ?_⟩
  have count := workers_run ran
  obtain ⟨w, inside⟩ := List.exists_mem_of_length_pos (l := s.workers) (by omega)
  have returned : .returned ∈ s.workers := ended w inside ▸ inside
  have idle : s.running = [] := List.flatMap_eq_nil_iff.2 fun w inside => by
    rw [ended w inside]
    rfl
  have queued := accounted.queued
  have started := accounted.started
  rw [(accounted.ended returned).2, List.append_nil] at queued
  rw [idle, List.append_nil] at started
  rw [queued]
  exact started

/-- Two workers, three tasks, the last of them refused: both tasks have finished. -/
theorem tasks_run_once_two :
    let ls : List (Label Nat) := [.worker 0, .enqueue 7, .enqueue 8, .notify (some 0), .worker 0,
      .stop, .enqueue 9, .worker 1, .worker 1, .notify none, .notifyAll, .worker 0, .worker 1,
      .worker 0]
    (accepted (observe step shows (start 2) ls)).Perm (finished (observe step shows (start 2) ls)) ∧
      accepted (observe step shows (start 2) ls) = [7, 8] ∧
      finished (observe step shows (start 2) ls) = [8, 7] := by
  have ran : exec step (start 2) [.worker 0, .enqueue 7, .enqueue 8, .notify (some 0), .worker 0,
      .stop, .enqueue 9, .worker 1, .worker 1, .notify none, .notifyAll, .worker 0, .worker 1,
      .worker 0] = some ({ tasks := [], stop := true, workers := [.returned, .returned] } :
        State Nat) := by decide
  exact ⟨(tasks_run_once ran).2.2 (by decide) (by decide), by decide, by decide⟩

/-! ## The pool comes to rest -/

/-- What a worker has still to do before it sleeps or returns, without another task. -/
def Worker.left : Worker Task → Nat
  | .entering | .woken => 1
  | .running _ => 2
  | .asleep | .returned => 0

/-- What the pool has still to do. -/
def State.left (s : State Task) : Nat :=
  2 * s.tasks.length + (s.workers.map Worker.left).sum + 2 * s.notifying +
    if s.closing then s.workers.length + 1 else 0

theorem sum_setWorker {i : Nat} {w v : Worker Task} (at_ : s.workers[i]? = some w) :
    ((s.setWorker i v).workers.map Worker.left).sum + w.left =
      (s.workers.map Worker.left).sum + v.left :=
  sum_set_add at_

theorem sum_roused (ws : List (Worker Task)) :
    ((ws.map Worker.roused).map Worker.left).sum ≤ (ws.map Worker.left).sum + ws.length := by
  induction ws with
  | nil => simp
  | cons w ws ih =>
      simp only [List.map_cons, List.sum_cons, List.length_cons]
      cases w <;> simp only [Worker.roused, Worker.left] <;> omega

/-- Every step of the pool's own leaves it less to do. -/
theorem left_step (s : State Task) (l : Label Task) (t : State Task) (own : l.own = true)
    (moved : step s l = some t) : t.left < s.left := by
  cases move_of_step moved with
  | refuses | accepts | rouses | stops => exact nomatch own
  | notifiesNone due awake =>
      simp only [State.left]
      omega
  | notifies i due at_ =>
      have sum := sum_setWorker at_ (v := .woken)
      simp only [State.left, State.setWorker, List.length_set, Worker.left] at sum ⊢
      omega
  | takes i w at_ free task rest tasks =>
      have sum := sum_setWorker at_ (v := .running task)
      rcases free with rfl | rfl <;>
        (simp only [State.left, State.setWorker, List.length_set, Worker.left, tasks,
          List.length_cons] at sum ⊢
         omega)
  | sleeps i w at_ free tasks going =>
      have sum := sum_setWorker at_ (v := .asleep)
      rcases free with rfl | rfl <;>
        (simp only [State.left, State.setWorker, List.length_set, Worker.left] at sum ⊢
         omega)
  | returns i w at_ free tasks stopped =>
      have sum := sum_setWorker at_ (v := .returned)
      rcases free with rfl | rfl <;>
        (simp only [State.left, State.setWorker, List.length_set, Worker.left] at sum ⊢
         omega)
  | finishes i task at_ =>
      have sum := sum_setWorker at_ (v := .entering)
      simp only [State.left, State.setWorker, List.length_set, Worker.left] at sum ⊢
      omega
  | announces due =>
      have sum := sum_roused s.workers
      simp only [State.left, due, List.length_map, if_true, Bool.false_eq_true, if_false]
      omega

/-- Nothing is left to do: no task waits or runs, and in a pool that is stopped every worker has
returned. -/
def State.Rested (s : State Task) : Prop :=
  s.tasks = [] ∧ s.running = [] ∧ (s.stop = true → ∀ w ∈ s.workers, w = .returned)

theorem at_of_mem {w : Worker Task} (inside : w ∈ s.workers) :
    ∃ i : Nat, s.workers[i]? = some w :=
  List.mem_iff_getElem?.1 inside

/-- A worker that neither sleeps nor has returned can go on. -/
theorem worker_goes {w : Worker Task} (inside : w ∈ s.workers) (busy : w.left ≠ 0) :
    ∃ i t, step s (.worker i) = some t := by
  obtain ⟨i, at_⟩ := at_of_mem inside
  cases w with
  | entering => exact ⟨i, s.pass i, by simp [step, at_]⟩
  | woken => exact ⟨i, s.pass i, by simp [step, at_]⟩
  | running task => exact ⟨i, s.setWorker i .entering, by simp [step, at_]⟩
  | asleep | returned => exact absurd rfl busy

/-- A pool with something to do can go on by itself. -/
theorem goes_on (heard : Monitor.Heard s.monitor) (staffed : s.workers ≠ [])
    (ended : .returned ∈ s.workers → s.stop = true ∧ s.tasks = []) (busy : ¬ s.Rested) :
    ∃ l t, Label.own l = true ∧ step s l = some t := by
  by_cases working : ∃ w ∈ s.workers, w.left ≠ 0
  · obtain ⟨w, inside, awake⟩ := working
    obtain ⟨i, t, moved⟩ := worker_goes inside awake
    exact ⟨.worker i, t, rfl, moved⟩
  -- From here on every worker sleeps or has returned.
  have still : ∀ w ∈ s.workers, w = .asleep ∨ w = .returned := by
    intro w inside
    have idle : ¬ w.left ≠ 0 := fun awake => working ⟨w, inside, awake⟩
    cases w <;> simp_all [Worker.left]
  have idle : s.running = [] := List.flatMap_eq_nil_iff.2 fun w inside => by
    rcases still w inside with rfl | rfl <;> rfl
  have nobody : s.workers.countP Worker.isWoken = 0 := List.countP_eq_zero.2 fun w inside => by
    rcases still w inside with rfl | rfl <;> simp [Worker.isWoken]
  by_cases tasks : s.tasks = []
  · -- An announcement is due.
    have unfinished : ¬ (s.stop = true → ∀ w ∈ s.workers, w = .returned) :=
      fun all => busy ⟨tasks, idle, all⟩
    simp only [Classical.not_imp, not_forall] at unfinished
    obtain ⟨stopped, w, inside, unreturned⟩ := unfinished
    obtain rfl := (still w inside).resolve_right unreturned
    have sleepers : 0 < s.workers.countP Worker.isAsleep :=
      List.countP_pos_iff.2 ⟨_, inside, rfl⟩
    have closing : s.closing = true := heard.shut stopped (Nat.ne_of_gt sleepers)
    exact ⟨.notifyAll, _, rfl, by simp [step, closing]; rfl⟩
  · -- A notification is due.
    obtain ⟨w, inside⟩ := List.exists_mem_of_ne_nil _ staffed
    have asleep : ∀ w ∈ s.workers, w = .asleep := fun w inside =>
      (still w inside).resolve_right fun returned => tasks (ended (returned ▸ inside)).2
    obtain rfl := asleep w inside
    have sleepers : 0 < s.workers.countP Worker.isAsleep :=
      List.countP_pos_iff.2 ⟨_, inside, rfl⟩
    have bound : s.tasks.length ≤ s.workers.countP Worker.isWoken + s.notifying :=
      heard.level (Nat.ne_of_gt sleepers)
    have waiting : 0 < s.tasks.length := List.length_pos_iff.2 tasks
    obtain ⟨i, at_⟩ := at_of_mem inside
    have due : s.notifying ≠ 0 := by omega
    exact ⟨.notify (some i), _, rfl, by simp [step, due, at_]; rfl⟩

/-- What `goes_on` needs, as an invariant. -/
structure Sound (s : State Task) : Prop where
  heard : Monitor.Heard s.monitor
  staffed : s.workers ≠ []
  ended : .returned ∈ s.workers → s.stop = true ∧ s.tasks = []

theorem sound_run {threads : Nat} (staffed : threads ≠ 0) {ls : List (Label Task)}
    (ran : exec step (start threads) ls = some s) : Sound s where
  heard := by
    refine exec_invariant heard_step ?_ ran
    refine Monitor.heard_empty (List.countP_eq_zero.2 fun w inside => ?_)
    obtain rfl := List.eq_of_mem_replicate inside
    simp [Worker.isAsleep]
  staffed := by
    have count := workers_run ran
    intro none
    rw [none] at count
    exact staffed count.symm
  ended := (accounted_run ran).ended

/-- **The pool drains.**  In every state a run reaches, without another `enqueue`, every order
of the pool's own steps ends after at most `left` of them; where none can be made any more no
task waits or runs, and once the destructor has run every worker has returned. -/
theorem pool_drains {threads : Nat} (staffed : threads ≠ 0) {ls ks : List (Label Task)}
    {s t : State Task} (ran : exec step (start threads) ls = some s)
    (own : ∀ k ∈ ks, k.own = true) (drained : exec step s ks = some t) :
    ks.length ≤ s.left ∧ ((∀ l, l.own = true → step t l = none) → t.Rested) := by
  have kept : ∀ (s : State Task) l t, l.own = true →
      (∃ ls, exec step (start threads) ls = some s) → step s l = some t →
      ∃ ls, exec step (start threads) ls = some t :=
    fun s l t _ ⟨ls, ran⟩ moved => ⟨ls ++ [l], exec_snoc.2 ⟨s, ran, moved⟩⟩
  have goes : ∀ s : State Task, (∃ ls, exec step (start threads) ls = some s) → ¬ s.Rested →
      ∃ l t, Label.own l = true ∧ step s l = some t := by
    rintro s ⟨ls, ran⟩ busy
    obtain ⟨heard, present, ended⟩ := sound_run staffed ran
    exact goes_on heard present ended busy
  exact exec_settles (C := fun _ l => Label.own l = true) kept
    (fun s l t own _ => left_step s l t own) goes
    (along_of_labels (fun l inside _ => own l inside) s) ⟨ls, ran⟩ drained

/-- A worker sleeps, a task comes in, and the pool is stopped: five steps of its own, and it is
at rest. -/
theorem pool_drains_one : ∃ s : State Nat, s.left = 6 ∧ ∃ t : State Nat,
    (5 ≤ s.left ∧ ((∀ l, l.own = true → step t l = none) → t.Rested)) ∧
      t.workers = [.returned] := by
  have ran : exec step (start 1) [.worker 0, .enqueue 7, .stop] =
      some (⟨[7], true, [.asleep], 1, true⟩ : State Nat) := by decide
  have drained : exec step (⟨[7], true, [.asleep], 1, true⟩ : State Nat)
      [.notify (some 0), .worker 0, .notifyAll, .worker 0, .worker 0] =
        some ⟨[], true, [.returned], 0, false⟩ := by decide
  exact ⟨_, by decide, _, pool_drains (by decide) ran (by decide) drained, rfl⟩

end ChargerStack.Ocpp.ThreadPool
