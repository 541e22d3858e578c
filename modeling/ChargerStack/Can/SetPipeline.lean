/-
# Can.SetPipeline -- the way of a command from set_mode_out_cur to the bus

`set_mode_out_cur` makes a frame and pushes a task with it to the queue of module 5.  One thread
(`module_queue_task_thread`) makes such a call of its own, then looks once into the queue of
every module, and submits the frames it finds to the queue of a thread pool, from which the
workers (`task_work`) take them and send them.  Any threads call `set_mode_out_cur`, and the
scan and the push of a call are sections of their own.

* `frames_once`: in every run each frame whose task was queued is on the bus once, was refused
  once by a pool that was full, or is at one known place on its way; each was asked for in a
  call; and no worker returns;
* `pool_settles`: the workers, left to themselves, come to rest after a bounded number of steps,
  and then the queue of the pool is empty and every frame that was in it or with a worker has
  been sent: no worker sleeps through a frame.
-/
import ChargerStack.Can.Frames
import ChargerStack.Lib.Monitor
import ChargerStack.Lib.Progress
import ChargerStack.Lib.Slots
import ChargerStack.Utils.HeapCompare

namespace ChargerStack.Can.SetPipeline

open ChargerStack.Cxx
open ChargerStack.Lib
open ChargerStack.Lib.Heap
open ChargerStack.Can.Frames
open ChargerStack.Can.ModuleQueue
open ChargerStack.Utils.PriorityQueue

set_option autoImplicit false

/-! ## The calls -/

/-- `GET_MODE_OUTPUT_VOL`, the id of all the tasks. -/
def getModeOutputVol : Int := 0x0001

/-- `SET_MODE_OUTPUT_CUR`. -/
def setModeOutputCur : UInt16 := 0x001B

/-- The module whose queue takes the tasks. -/
def setModule : Int := 5

/-- The address of `dcdc_send_encapsulation`, which is not null. -/
def dcdcSendEncapsulation : Nat := 1

/-- `DCDC_SET_QUEUE_SIZE`. -/
def dcdcSetQueueSize : Int := 20

/-- A call of `set_mode_out_cur`: the parameters, and the current times `DCDC_CUR_GAIN`. -/
structure Request where
  canIdParam : DcModelParam
  value : UInt32
  deriving DecidableEq, Repr

variable (host : ByteOrder)

def Request.frame (r : Request) : CanFrame :=
  setFrameFill setModeOutputCur (int32_2CanNeedFormat host r.value) r.canIdParam

/-- The task `generic_set_mode_function` pushes.  It does not set the callback. -/
def genericSetModeFunction (callback : Nat) (r : Request) : Task :=
  ⟨.normal, ⟨r.frame host, callback⟩, getModeOutputVol, setModule⟩

/-- The call `module_queue_task_thread` makes: 100 ampere for module 5, point to point. -/
def feederRequest : Request := ⟨⟨1, 5, 0⟩, 102400⟩

/-! ## The threads -/

/-- Where `module_queue_task_thread` stands. -/
inductive Feeder where
  | calling
  /-- Before `module_try_pop_task` of a module. -/
  | polling (i : Nat)
  | submitting (task : Task) (i : Nat)
  deriving DecidableEq, Repr

/-- The end of the loop body. -/
def Feeder.next (i : Nat) : Feeder := if i + 1 < moduleCount then .polling (i + 1) else .calling

inductive Worker where
  /-- About to lock the queue. -/
  | entering
  | asleep
  | woken
  | sending (msg : CanMsg)
  | returned
  deriving DecidableEq, Repr

def Worker.isAsleep : Worker → Bool
  | .asleep => true
  | _ => false

def Worker.isWoken : Worker → Bool
  | .woken => true
  | _ => false

def Worker.frames : Worker → List CanFrame
  | .sending msg => [msg.frame]
  | _ => []

/-- Thread 0 is `module_queue_task_thread`; `calling` has the tasks of the threads that are
between the scan of `module_push_task` and its push. -/
structure Sys where
  mgr : Mgr
  calling : Nat → Option Task
  feeder : Feeder
  pool : Pq CanMsg
  workers : List Worker

inductive Label where
  | scan (thread : Nat) (callback : Nat) (request : Request)
  | push (thread : Nat) (env : PushEnv)
  | poll (now : Nat)
  /-- `submit_task`, and the worker its signal rouses. -/
  | submit (stamp : Nat) (sleeper : Option Nat)
  | worker (i : Nat)
  /-- A worker is roused for no reason. -/
  | rouse (i : Nat)
  deriving DecidableEq, Repr

def Sys.setWorker (s : Sys) (i : Nat) (w : Worker) : Sys := { s with workers := s.workers.set i w }

/-- Thread 0 goes on to its loop. -/
def Sys.called (thread : Nat) (s : Sys) : Sys :=
  if thread = 0 then { s with feeder := .polling 0 } else s

/-- The queue of the module. -/
def Sys.queue (s : Sys) : Pq Task := s.mgr (queueIndex setModule)

/-- The end of a push. -/
def Sys.pushed (thread : Nat) (pq : Pq Task) (s : Sys) : Sys :=
  Sys.called thread { s with
    mgr := Function.update s.mgr (queueIndex setModule) pq
    calling := Function.update s.calling thread none }

/-- Whether the thread may call: thread 0 does so at the head of its loop only. -/
def Sys.calls (s : Sys) (thread : Nat) (request : Request) : Bool :=
  decide (thread = 0 → s.feeder = .calling ∧ request = feederRequest)

/-- `pthread_cond_signal`, which rouses a sleeper if there is one. -/
def Sys.signal (sleeper : Option Nat) (s : Sys) : Option Sys :=
  match sleeper with
  | none => if s.workers.any Worker.isAsleep then none else some s
  | some i =>
      match s.workers[i]? with
      | some .asleep => some (s.setWorker i .woken)
      | _ => none

/-- The item `submit_task` makes. -/
def poolItem (stamp : Nat) (task : Task) : Pv CanMsg :=
  ⟨priorityToInt task.priority, some ⟨task.data.frame, dcdcSendEncapsulation⟩, stamp⟩

/-- A worker at the lock of the queue. -/
def Sys.pass (s : Sys) (i : Nat) : Option Sys :=
  if pqEmpty s.pool then some (s.setWorker i .asleep)
  else (takeTop maxHeapCompare s.pool).bind fun r =>
    r.2.value.map fun msg => { s.setWorker i (.sending msg) with pool := r.1 }

def step (s : Sys) : Label → Option Sys
  | .scan thread callback request =>
      if s.calling thread = none ∧ s.calls thread request then
        let task := genericSetModeFunction host callback request
        -- The task is no mode switch, so the queue is not cleared.
        if scan task s.queue then some (s.called thread)
        else some { s with calling := Function.update s.calling thread (some task) }
      else none
  | .push thread env =>
      (s.calling thread).bind fun task =>
        (pushCopy env task s.queue).map fun r => s.pushed thread r.1
  | .poll now =>
      match s.feeder with
      | .polling i =>
          (moduleTryPopTask now (i + 1) s.mgr).map fun r =>
            match r.2 with
            | none => { s with mgr := r.1, feeder := .next i }
            | some task => { s with mgr := r.1, feeder := .submitting task i }
      | _ => none
  | .submit stamp sleeper =>
      match s.feeder with
      | .submitting task i =>
          (priorityQueuePush maxHeapCompare (poolItem stamp task) s.pool).bind fun r =>
            if r.2 then Sys.signal sleeper { s with pool := r.1, feeder := .next i }
            else some { s with feeder := .next i }
      | _ => none
  | .worker i =>
      match s.workers[i]? with
      | some .entering | some .woken => s.pass i
      | some (.sending msg) => some (s.setWorker i (if msg.callback = 0 then .returned else .entering))
      | _ => none
  | .rouse i =>
      match s.workers[i]? with
      | some .asleep => some (s.setWorker i .woken)
      | _ => none

/-- `test_dcdc_queue` behind its two initialisations. -/
def start (memory : Nat → Nat → Pv Task) (poolMemory : Nat → Pv CanMsg) (threads : Nat) : Sys where
  mgr := moduleQueueMgrInit memory
  calling := fun _ => none
  feeder := .calling
  pool := pqInit dcdcSetQueueSize poolMemory
  workers := List.replicate threads .entering

/-! ## What a run shows -/

inductive Event where
  | asked (frame : CanFrame)
  /-- A task with the frame is in the queue of the module. -/
  | accepted (frame : CanFrame)
  /-- The pool was full. -/
  | refused (frame : CanFrame)
  | sent (frame : CanFrame)
  deriving DecidableEq, Repr

def shows (s : Sys) : Label → Option Event
  | .scan _ _ request => some (.asked (request.frame host))
  | .push thread env =>
      (s.calling thread).bind fun task =>
        (pushCopy env task s.queue).bind fun r =>
          if r.2 then some (.accepted task.data.frame) else none
  | .submit _ _ =>
      match s.feeder with
      | .submitting task _ => if pqFull s.pool then some (.refused task.data.frame) else none
      | _ => none
  | .worker i =>
      match s.workers[i]? with
      | some (.sending msg) => if msg.callback = 0 then none else some (.sent msg.frame)
      | _ => none
  | _ => none

def asked (es : List Event) : List CanFrame :=
  es.filterMap fun | .asked frame => some frame | _ => none

def accepted (es : List Event) : List CanFrame :=
  es.filterMap fun | .accepted frame => some frame | _ => none

def refused (es : List Event) : List CanFrame :=
  es.filterMap fun | .refused frame => some frame | _ => none

def sent (es : List Event) : List CanFrame :=
  es.filterMap fun | .sent frame => some frame | _ => none

/-- The frames of a module's queue. -/
def queueFrames (pq : Pq Task) : List CanFrame := pq.queued.filterMap fun v => v.value.map (·.data.frame)

def poolFrames (pq : Pq CanMsg) : List CanFrame := pq.queued.filterMap fun v => v.value.map (·.frame)

def Feeder.frames : Feeder → List CanFrame
  | .submitting task _ => [task.data.frame]
  | _ => []

/-- The frames on their way. -/
def Sys.frames (s : Sys) : List CanFrame :=
  queueFrames s.queue ++ s.feeder.frames ++ (poolFrames s.pool ++ s.workers.flatMap Worker.frames)

/-! ## What a step can do -/

variable {host} {s t : Sys} {l : Label} {es : List Event}

/-- The steps, with what each of them needs and does. -/
inductive Move (host : ByteOrder) (s : Sys) : Label → Sys → Prop where
  | repeats (thread callback : Nat) (request : Request) (head : thread = 0 → s.feeder = .calling)
      (free : s.calling thread = none) :
      Move host s (.scan thread callback request) (s.called thread)
  | scans (thread callback : Nat) (request : Request) (head : thread = 0 → s.feeder = .calling) :
      Move host s (.scan thread callback request)
        { s with
          calling := Function.update s.calling thread
            (some (genericSetModeFunction host callback request)) }
  | pushes (thread : Nat) (env : PushEnv) (task : Task) (pq : Pq Task) (ok : Bool)
      (at_ : s.calling thread = some task) (ran : pushCopy env task s.queue = some (pq, ok)) :
      Move host s (.push thread env) (s.pushed thread pq)
  | finds (now i : Nat) (task : Task) (mgr : Mgr) (at_ : s.feeder = .polling i)
      (ran : moduleTryPopTask now (i + 1) s.mgr = some (mgr, some task)) :
      Move host s (.poll now) { s with mgr := mgr, feeder := .submitting task i }
  | misses (now i : Nat) (mgr : Mgr) (at_ : s.feeder = .polling i)
      (ran : moduleTryPopTask now (i + 1) s.mgr = some (mgr, none)) :
      Move host s (.poll now) { s with mgr := mgr, feeder := .next i }
  | submits (stamp i : Nat) (sleeper : Option Nat) (task : Task) (pool : Pq CanMsg)
      (at_ : s.feeder = .submitting task i)
      (ran : priorityQueuePush maxHeapCompare (poolItem stamp task) s.pool = some (pool, true)) (t : Sys)
      (signalled : Sys.signal sleeper { s with pool := pool, feeder := .next i } = some t) :
      Move host s (.submit stamp sleeper) t
  | refuses (stamp i : Nat) (sleeper : Option Nat) (task : Task) (pool : Pq CanMsg)
      (at_ : s.feeder = .submitting task i)
      (ran : priorityQueuePush maxHeapCompare (poolItem stamp task) s.pool = some (pool, false)) :
      Move host s (.submit stamp sleeper) { s with feeder := .next i }
  | takes (i : Nat) (w : Worker) (at_ : s.workers[i]? = some w) (free : w = .entering ∨ w = .woken)
      (pool : Pq CanMsg) (v : Pv CanMsg) (msg : CanMsg) (some_ : s.pool.size ≠ 0)
      (ran : takeTop maxHeapCompare s.pool = some (pool, v)) (value : v.value = some msg) :
      Move host s (.worker i) { s.setWorker i (.sending msg) with pool := pool }
  | sleeps (i : Nat) (w : Worker) (at_ : s.workers[i]? = some w) (free : w = .entering ∨ w = .woken)
      (empty : s.pool.size = 0) : Move host s (.worker i) (s.setWorker i .asleep)
  | sends (i : Nat) (msg : CanMsg) (at_ : s.workers[i]? = some (.sending msg))
      (called : msg.callback ≠ 0) : Move host s (.worker i) (s.setWorker i .entering)
  | returns (i : Nat) (msg : CanMsg) (at_ : s.workers[i]? = some (.sending msg))
      (called : msg.callback = 0) : Move host s (.worker i) (s.setWorker i .returned)
  | rouses (i : Nat) (at_ : s.workers[i]? = some .asleep) : Move host s (.rouse i) (s.setWorker i .woken)

theorem move_pass {i : Nat} {w : Worker} (at_ : s.workers[i]? = some w)
    (free : w = .entering ∨ w = .woken) (moved : s.pass i = some t) : Move host s (.worker i) t := by
  unfold Sys.pass at moved
  split at moved
  · rename_i empty
    obtain rfl := Option.some.inj moved
    exact .sleeps i w at_ free (pqEmpty_iff.1 empty)
  · rename_i nonempty
    obtain ⟨⟨pool, v⟩, ran, rest⟩ := Option.bind_eq_some_iff.1 moved
    obtain ⟨msg, value, rfl⟩ := Option.map_eq_some_iff.1 rest
    exact .takes i w at_ free pool v msg (fun empty => nonempty (pqEmpty_iff.2 empty)) ran value

theorem move_of_step (moved : step host s l = some t) : Move host s l t := by
  cases l with
  | scan thread callback request =>
      simp only [step] at moved
      split at moved
      · rename_i guard
        have head : thread = 0 → s.feeder = .calling := fun zero => (of_decide_eq_true guard.2 zero).1
        split at moved
        · obtain rfl := Option.some.inj moved
          exact .repeats thread callback request head guard.1
        · obtain rfl := Option.some.inj moved
          exact .scans thread callback request head
      · cases moved
  | push thread env =>
      obtain ⟨task, at_, rest⟩ := Option.bind_eq_some_iff.1 moved
      obtain ⟨⟨pq, ok⟩, ran, rfl⟩ := Option.map_eq_some_iff.1 rest
      exact .pushes thread env task pq ok at_ ran
  | poll now =>
      simp only [step] at moved
      split at moved
      · rename_i i at_
        obtain ⟨⟨mgr, answer⟩, ran, rfl⟩ := Option.map_eq_some_iff.1 moved
        cases answer with
        | none => exact .misses now i mgr at_ ran
        | some task => exact .finds now i task mgr at_ ran
      · cases moved
  | submit stamp sleeper =>
      simp only [step] at moved
      split at moved
      · rename_i task i at_
        obtain ⟨⟨pool, ok⟩, ran, rest⟩ := Option.bind_eq_some_iff.1 moved
        cases ok with
        | true => exact .submits stamp i sleeper task pool at_ ran t rest
        | false =>
            obtain rfl := Option.some.inj rest
            exact .refuses stamp i sleeper task pool at_ ran
      · cases moved
  | worker i =>
      simp only [step] at moved
      split at moved
      · exact move_pass ‹_› (.inl rfl) moved
      · exact move_pass ‹_› (.inr rfl) moved
      · rename_i msg at_
        obtain rfl := Option.some.inj moved
        split
        · exact .returns i msg at_ ‹_›
        · exact .sends i msg at_ ‹_›
      · cases moved
  | rouse i =>
      simp only [step] at moved
      split at moved
      · obtain rfl := Option.some.inj moved
        exact .rouses i ‹_›
      · cases moved

/-- A signal changes the worker it rouses, and nothing else. -/
theorem signal_cases {sleeper : Option Nat} (signalled : s.signal sleeper = some t) :
    (t = s ∧ s.workers.countP Worker.isAsleep = 0) ∨
      ∃ i, s.workers[i]? = some .asleep ∧ t = s.setWorker i .woken := by
  cases sleeper with
  | none =>
      simp only [Sys.signal, Option.ite_none_left_eq_some, Option.some.injEq] at signalled
      obtain ⟨awake, rfl⟩ := signalled
      refine .inl ⟨rfl, List.countP_eq_zero.2 fun w inside sleeps => awake ?_⟩
      exact List.any_eq_true.2 ⟨w, inside, sleeps⟩
  | some i =>
      simp only [Sys.signal] at signalled
      split at signalled
      · rename_i at_
        exact .inr ⟨i, at_, (Option.some.inj signalled).symm⟩
      · cases signalled

/-! ## The queues on the way -/

variable {pq pq' : Pq Task} {pool pool' : Pq CanMsg} {task : Task}

theorem queueFrames_perm {stamp : Nat} (perm : pq'.queued.Perm (pq.queued ++ [itemOf stamp task])) :
    (queueFrames pq').Perm (queueFrames pq ++ [task.data.frame]) := by
  have mapped := perm.filterMap fun v : Pv Task => v.value.map (·.data.frame)
  rwa [List.filterMap_append] at mapped

/-- What a pop from a module's queue that finds a task does. -/
theorem Stocked.take (stocked : Stocked pq) {now : Nat} {v : Pv Task} (some_ : pq.size ≠ 0)
    (ran : takeTop (agingCompare now) pq = some (pq', v)) :
    Stocked pq' ∧ (v :: pq'.queued).Perm pq.queued ∧ pq'.size + 1 = pq.size := by
  have few := stocked.few
  obtain ⟨elements, -, taken, perm⟩ := takeTop_spec (agingCompare now) some_ (by omega)
  obtain ⟨rfl, rfl⟩ := Prod.mk.inj (Option.some.inj (taken.symm.trans ran))
  refine ⟨⟨stocked.capacity, ?_, fun v inside => ?_⟩, perm, ?_⟩
  · show pq.size - 1 ≤ 20
    omega
  · exact stocked.tasks v (perm.subset (List.mem_cons_of_mem _ inside))
  · show pq.size - 1 + 1 = pq.size
    omega

theorem tryPop_some {now : Nat} {moduleId : Int} {mgr mgr' : Mgr}
    (ran : moduleTryPopTask now moduleId mgr = some (mgr', some task)) :
    ∃ pq v, (mgr (queueIndex moduleId)).size ≠ 0 ∧
      takeTop (agingCompare now) (mgr (queueIndex moduleId)) = some (pq, v) ∧ v.value = some task ∧
      mgr' = Function.update mgr (queueIndex moduleId) pq := by
  unfold moduleTryPopTask at ran
  split at ran
  · cases ran
  · obtain ⟨⟨pq, answer⟩, popped, same⟩ := Option.map_eq_some_iff.1 ran
    obtain ⟨rfl, found⟩ := Prod.mk.inj same
    unfold priorityQueueTryPop at popped
    split at popped
    · cases popped
      cases found
    · rename_i nonempty
      obtain ⟨⟨next, v⟩, taken, same⟩ := Option.map_eq_some_iff.1 popped
      obtain ⟨rfl, rfl⟩ := Prod.mk.inj same
      exact ⟨next, v, fun empty => nonempty (pqEmpty_iff.2 empty), taken, found, rfl⟩

/-- A pop that finds nothing changes nothing: no element of a queue is null. -/
theorem tryPop_none {now : Nat} {moduleId : Int} {mgr mgr' : Mgr} (stocked : ∀ j, Stocked (mgr j))
    (ran : moduleTryPopTask now moduleId mgr = some (mgr', none)) : mgr' = mgr := by
  unfold moduleTryPopTask at ran
  split at ran
  · cases ran
    rfl
  · obtain ⟨⟨pq, answer⟩, popped, same⟩ := Option.map_eq_some_iff.1 ran
    obtain ⟨rfl, found⟩ := Prod.mk.inj same
    unfold priorityQueueTryPop at popped
    split at popped
    · cases popped
      exact Function.update_eq_self _ mgr
    · rename_i nonempty
      obtain ⟨⟨next, v⟩, taken, same⟩ := Option.map_eq_some_iff.1 popped
      obtain ⟨rfl, rfl⟩ := Prod.mk.inj same
      obtain ⟨-, perm, -⟩ := Stocked.take (stocked _)
        (fun empty => nonempty (pqEmpty_iff.2 empty)) taken
      obtain ⟨stamp, task, rfl⟩ := (stocked _).tasks v (perm.subset List.mem_cons_self)
      cases found

/-- The queue of the pool: its length, and what its elements stand for. -/
structure PoolStocked (pool : Pq CanMsg) : Prop where
  capacity : pool.capacity = dcdcSetQueueSize
  few : pool.size ≤ 20
  msgs : ∀ v ∈ pool.queued, ∃ msg, v.value = some msg ∧ msg.callback ≠ 0

theorem PoolStocked.push (stocked : PoolStocked pool) {stamp : Nat} {ok : Bool}
    (ran : priorityQueuePush maxHeapCompare (poolItem stamp task) pool = some (pool', ok)) :
    (ok = false ∧ pqFull pool = true) ∨
      (ok = true ∧ pqFull pool = false ∧ PoolStocked pool' ∧ pool'.size = pool.size + 1 ∧
        pool'.queued.Perm (pool.queued ++ [poolItem stamp task])) := by
  have capacity : pool.capacity = 20 := stocked.capacity
  by_cases full : pool.capacity ≤ pool.size
  · rw [push_full full] at ran
    exact .inl ⟨(Prod.mk.inj (Option.some.inj ran)).2.symm, pqFull_iff.2 full⟩
  · obtain ⟨elements, -, pushed, perm⟩ :=
      push_room maxHeapCompare (poolItem stamp task) (Int.not_le.1 full)
    obtain ⟨rfl, rfl⟩ := Prod.mk.inj (Option.some.inj (pushed.symm.trans ran))
    refine .inr ⟨rfl, ?_, ⟨capacity, ?_, fun v inside => ?_⟩, rfl, perm⟩
    · rw [← Bool.not_eq_true, pqFull_iff]
      exact full
    · show pool.size + 1 ≤ 20
      omega
    · rcases List.mem_append.1 (perm.subset inside) with old | new
      · exact stocked.msgs v old
      · obtain rfl := List.mem_singleton.1 new
        exact ⟨_, rfl, (by decide : dcdcSendEncapsulation ≠ 0)⟩

theorem PoolStocked.take (stocked : PoolStocked pool) {v : Pv CanMsg} (some_ : pool.size ≠ 0)
    (ran : takeTop maxHeapCompare pool = some (pool', v)) :
    PoolStocked pool' ∧ (v :: pool'.queued).Perm pool.queued ∧ pool'.size + 1 = pool.size := by
  have few := stocked.few
  obtain ⟨elements, -, taken, perm⟩ := takeTop_spec maxHeapCompare some_ (by omega)
  obtain ⟨rfl, rfl⟩ := Prod.mk.inj (Option.some.inj (taken.symm.trans ran))
  refine ⟨⟨stocked.capacity, ?_, fun v inside => ?_⟩, perm, ?_⟩
  · show pool.size - 1 ≤ 20
    omega
  · exact stocked.msgs v (perm.subset (List.mem_cons_of_mem _ inside))
  · show pool.size - 1 + 1 = pool.size
    omega

/-! ## Every frame once -/

/-- Only the queue of the module has tasks, the queues are as their operations leave them, and
every message of a worker has a callback. -/
structure Stock (s : Sys) : Prop where
  modules : ∀ j, Stocked (s.mgr j)
  others : ∀ j, j ≠ queueIndex setModule → (s.mgr j).size = 0
  pool : PoolStocked s.pool
  workers : ∀ w ∈ s.workers, w ≠ .returned ∧ ∀ msg, w = .sending msg → msg.callback ≠ 0

theorem Stock.setWorker (stock : Stock s) {i : Nat} {w : Worker} (going : w ≠ .returned)
    (callback : ∀ msg, w = .sending msg → msg.callback ≠ 0) : Stock (s.setWorker i w) :=
  ⟨stock.modules, stock.others, stock.pool, forall_set stock.workers ⟨going, callback⟩⟩

theorem Stock.called (stock : Stock s) (thread : Nat) : Stock (s.called thread) := by
  unfold Sys.called
  split
  · exact ⟨stock.modules, stock.others, stock.pool, stock.workers⟩
  · exact stock

/-- The queue of the module has changed. -/
theorem Stock.updated (stock : Stock s) (stocked : Stocked pq) :
    (∀ j, Stocked (Function.update s.mgr (queueIndex setModule) pq j)) ∧
      ∀ j, j ≠ queueIndex setModule → (Function.update s.mgr (queueIndex setModule) pq j).size = 0 := by
  constructor
  · intro j
    by_cases same : j = queueIndex setModule
    · rw [same, Function.update_self]
      exact stocked
    · rw [Function.update_of_ne same]
      exact stock.modules j
  · intro j other
    rw [Function.update_of_ne other]
    exact stock.others j other

theorem stock_move (moved : Move host s l t) (stock : Stock s) : Stock t := by
  cases moved with
  | repeats thread callback request head free => exact stock.called thread
  | scans thread callback request head => exact ⟨stock.modules, stock.others, stock.pool, stock.workers⟩
  | pushes thread env task pq ok at_ ran =>
      have stocked : Stocked pq := by
        rcases pushCopy_cases (stock.modules _) ran with ⟨-, rfl⟩ | ⟨-, stocked, -⟩
        · exact stock.modules _
        · exact stocked
      apply Stock.called
      obtain ⟨modules, others⟩ := stock.updated stocked
      exact ⟨modules, others, stock.pool, stock.workers⟩
  | finds now i task mgr at_ ran =>
      obtain ⟨pq, v, some_, taken, -, rfl⟩ := tryPop_some ran
      have here : queueIndex (i + 1) = queueIndex setModule := by
        by_contra other
        exact some_ (stock.others _ other)
      rw [here] at some_ taken ⊢
      obtain ⟨modules, others⟩ := stock.updated (Stocked.take (stock.modules _) some_ taken).1
      exact ⟨modules, others, stock.pool, stock.workers⟩
  | misses now i mgr at_ ran =>
      obtain rfl := tryPop_none stock.modules ran
      exact ⟨stock.modules, stock.others, stock.pool, stock.workers⟩
  | submits stamp i sleeper task pool at_ ran t signalled =>
      rcases stock.pool.push ran with ⟨no, -⟩ | ⟨-, -, stocked, -, -⟩
      · cases no
      · have next : Stock { s with pool := pool, feeder := .next i } :=
          ⟨stock.modules, stock.others, stocked, stock.workers⟩
        rcases signal_cases signalled with ⟨rfl, -⟩ | ⟨j, -, rfl⟩
        · exact next
        · apply next.setWorker
          · nofun
          · nofun
  | refuses stamp i sleeper task pool at_ ran =>
      exact ⟨stock.modules, stock.others, stock.pool, stock.workers⟩
  | takes i w at_ free pool v msg some_ ran value =>
      obtain ⟨stocked, perm, -⟩ := stock.pool.take some_ ran
      obtain ⟨msg', value', called⟩ := stock.pool.msgs v (perm.subset List.mem_cons_self)
      obtain rfl : msg = msg' := Option.some.inj (value.symm.trans value')
      have next : Stock (s.setWorker i (.sending msg)) := by
        apply stock.setWorker
        · nofun
        · rintro _ ⟨⟩
          exact called
      exact ⟨stock.modules, stock.others, stocked, next.workers⟩
  | sleeps i w at_ free empty =>
      apply stock.setWorker
      · nofun
      · nofun
  | sends i msg at_ called =>
      apply stock.setWorker
      · nofun
      · nofun
  | returns i msg at_ called =>
      exact absurd called ((stock.workers _ (List.mem_of_getElem? at_)).2 msg rfl)
  | rouses i at_ =>
      apply stock.setWorker
      · nofun
      · nofun

@[simp] theorem asked_append {fs : List Event} : asked (es ++ fs) = asked es ++ asked fs :=
  List.filterMap_append ..

@[simp] theorem accepted_append {fs : List Event} : accepted (es ++ fs) = accepted es ++ accepted fs :=
  List.filterMap_append ..

@[simp] theorem refused_append {fs : List Event} : refused (es ++ fs) = refused es ++ refused fs :=
  List.filterMap_append ..

@[simp] theorem sent_append {fs : List Event} : sent (es ++ fs) = sent es ++ sent fs :=
  List.filterMap_append ..

/-- Each frame is counted once: it was sent or refused, or is on its way; and no frame is on its
way that no call asked for. -/
structure Flow (es : List Event) (s : Sys) : Prop where
  stock : Stock s
  once : ∀ f, (accepted es).count f = (sent es).count f + (refused es).count f + s.frames.count f
  accepted : ∀ f ∈ accepted es, f ∈ asked es
  calling : ∀ thread task, s.calling thread = some task → task.data.frame ∈ asked es
  head : ∀ task, s.calling 0 = some task → s.feeder = .calling

theorem count_frames (s : Sys) (f : CanFrame) : s.frames.count f = (queueFrames s.queue).count f +
    s.feeder.frames.count f + ((poolFrames s.pool).count f + (s.workers.flatMap Worker.frames).count f) := by
  simp only [Sys.frames, List.count_append]

/-- A call at its end leaves the frames where they are. -/
theorem frames_called {thread : Nat} (head : thread = 0 → s.feeder = .calling) :
    (s.called thread).frames = s.frames := by
  unfold Sys.called
  split
  · rename_i zero
    simp only [Sys.frames, Sys.queue, head zero]
    rfl
  · rfl

theorem calling_called (thread : Nat) (s : Sys) : (s.called thread).calling = s.calling := by
  unfold Sys.called
  split <;> rfl

/-- What a worker holds, in numbers. -/
theorem count_setWorker {i : Nat} {w v : Worker} (at_ : s.workers[i]? = some w) (f : CanFrame) :
    ((s.setWorker i v).workers.flatMap Worker.frames).count f + w.frames.count f =
      (s.workers.flatMap Worker.frames).count f + v.frames.count f := by
  have perm : (w.frames ++ (s.setWorker i v).workers.flatMap Worker.frames).Perm
      (v.frames ++ s.workers.flatMap Worker.frames) := flatMap_set_perm at_
  have count := perm.count_eq f
  rw [List.count_append, List.count_append] at count
  omega

theorem count_queuePush {stamp : Nat} (perm : pq'.queued.Perm (pq.queued ++ [itemOf stamp task]))
    (f : CanFrame) :
    (queueFrames pq').count f = (queueFrames pq).count f + [task.data.frame].count f := by
  have count := (queueFrames_perm perm).count_eq f
  rwa [List.count_append] at count

theorem count_queueTake {v : Pv Task} (perm : (v :: pq'.queued).Perm pq.queued)
    (value : v.value = some task) (f : CanFrame) :
    (queueFrames pq').count f + [task.data.frame].count f = (queueFrames pq).count f := by
  have mapped := perm.filterMap fun v : Pv Task => v.value.map (·.data.frame)
  rw [List.filterMap_cons, value] at mapped
  have count := mapped.count_eq f
  simp only [Option.map_some, List.count_cons] at count
  simp only [queueFrames, List.count_singleton]
  omega

theorem count_poolPush {stamp : Nat} (perm : pool'.queued.Perm (pool.queued ++ [poolItem stamp task]))
    (f : CanFrame) :
    (poolFrames pool').count f = (poolFrames pool).count f + [task.data.frame].count f := by
  have mapped := perm.filterMap fun v : Pv CanMsg => v.value.map (·.frame)
  rw [List.filterMap_append] at mapped
  have count := mapped.count_eq f
  rwa [List.count_append] at count

theorem count_poolTake {v : Pv CanMsg} {msg : CanMsg} (perm : (v :: pool'.queued).Perm pool.queued)
    (value : v.value = some msg) (f : CanFrame) :
    (poolFrames pool').count f + [msg.frame].count f = (poolFrames pool).count f := by
  have mapped := perm.filterMap fun v : Pv CanMsg => v.value.map (·.frame)
  rw [List.filterMap_cons, value] at mapped
  have count := mapped.count_eq f
  simp only [Option.map_some, List.count_cons] at count
  simp only [poolFrames, List.count_singleton]
  omega

@[simp] theorem frames_polling (i : Nat) : (Feeder.polling i).frames = [] := rfl

@[simp] theorem frames_submitting (i : Nat) : (Feeder.submitting task i).frames = [task.data.frame] := rfl

@[simp] theorem frames_next (i : Nat) : (Feeder.next i).frames = [] := by
  unfold Feeder.next
  split <;> rfl

@[simp] theorem asked_singleton {e : Event} :
    asked [e] = match e with | .asked frame => [frame] | _ => [] := by
  cases e <;> rfl

@[simp] theorem accepted_singleton {e : Event} :
    accepted [e] = match e with | .accepted frame => [frame] | _ => [] := by
  cases e <;> rfl

@[simp] theorem refused_singleton {e : Event} :
    refused [e] = match e with | .refused frame => [frame] | _ => [] := by
  cases e <;> rfl

@[simp] theorem sent_singleton {e : Event} :
    sent [e] = match e with | .sent frame => [frame] | _ => [] := by
  cases e <;> rfl

/-- A step that shows nothing and moves the frames on. -/
theorem Flow.silent (flow : Flow es s) (stock : Stock t) (frames : ∀ f, t.frames.count f = s.frames.count f)
    (calling : t.calling = s.calling) (head : ∀ task, t.calling 0 = some task → t.feeder = .calling) :
    Flow (es ++ (none : Option Event).toList) t := by
  rw [Option.toList_none, List.append_nil]
  refine ⟨stock, fun f => ?_, flow.accepted, calling ▸ flow.calling, head⟩
  rw [frames]
  exact flow.once f

/-- A worker changes that holds no frame, before or behind. -/
theorem Flow.idle (flow : Flow es s) {i : Nat} {w v : Worker} (stock : Stock (s.setWorker i v))
    (at_ : s.workers[i]? = some w) (before : w.frames = []) (behind : v.frames = []) :
    Flow (es ++ (none : Option Event).toList) (s.setWorker i v) := by
  refine flow.silent stock (fun f => ?_) rfl flow.head
  have count := count_setWorker (v := v) at_ f
  rw [before, behind] at count
  have queue : (s.setWorker i v).queue = s.queue := rfl
  have pool : (s.setWorker i v).pool = s.pool := rfl
  have feeder : (s.setWorker i v).feeder = s.feeder := rfl
  rw [count_frames, count_frames, queue, pool, feeder]
  simp only [List.count_nil] at count
  omega

theorem flow_scan (flow : Flow es s) (stock : Stock t) {frame : CanFrame}
    (frames : t.frames = s.frames)
    (calling : ∀ thread task, t.calling thread = some task →
      s.calling thread = some task ∨ task.data.frame = frame)
    (head : ∀ task, t.calling 0 = some task → t.feeder = .calling) :
    Flow (es ++ (some (Event.asked frame)).toList) t := by
  rw [Option.toList_some]
  refine ⟨stock, fun f => ?_, fun f inside => ?_, fun thread task at_ => ?_, head⟩
  · simpa [frames] using flow.once f
  · rw [accepted_append, accepted_singleton, List.append_nil] at inside
    rw [asked_append]
    exact List.mem_append_left _ (flow.accepted f inside)
  · rw [asked_append, asked_singleton]
    rcases calling thread task at_ with old | rfl
    · exact List.mem_append_left _ (flow.calling thread task old)
    · exact List.mem_append_right _ List.mem_cons_self

theorem calling_update {calling : Nat → Option Task} {thread u : Nat} {new : Option Task}
    (at_ : Function.update calling thread new u = some task) :
    (u = thread ∧ new = some task) ∨ (u ≠ thread ∧ calling u = some task) := by
  by_cases same : u = thread
  · rw [same, Function.update_self] at at_
    exact .inl ⟨same, at_⟩
  · rw [Function.update_of_ne same] at at_
    exact .inr ⟨same, at_⟩

/-- Who is at the head of the loop has not called. -/
theorem head_called {thread : Nat} (gone : thread = 0 → s.calling 0 = none)
    (head : ∀ task, s.calling 0 = some task → s.feeder = .calling) :
    ∀ task, (s.called thread).calling 0 = some task → (s.called thread).feeder = .calling := by
  intro task at_
  rw [calling_called] at at_
  unfold Sys.called
  split
  · rename_i zero
    rw [gone zero] at at_
    cases at_
  · exact head task at_

theorem frames_pushed {thread : Nat} (head : thread = 0 → s.feeder = .calling) (f : CanFrame) :
    (s.pushed thread pq).frames.count f = (queueFrames pq).count f + s.feeder.frames.count f +
      ((poolFrames s.pool).count f + (s.workers.flatMap Worker.frames).count f) := by
  have same : (s.pushed thread pq).frames = ({ s with
      mgr := Function.update s.mgr (queueIndex setModule) pq
      calling := Function.update s.calling thread none } : Sys).frames := frames_called head
  rw [same, count_frames]
  simp only [Sys.queue, Function.update_self]

theorem calling_pushed {thread u : Nat} (left : (s.pushed thread pq).calling u = some task) :
    s.calling u = some task := by
  rw [Sys.pushed, calling_called] at left
  rcases calling_update left with ⟨-, no⟩ | ⟨-, old⟩
  · cases no
  · exact old

theorem flow_push (flow : Flow es s) {thread : Nat} {env : PushEnv} {ok : Bool}
    (stock : Stock (s.pushed thread pq)) (at_ : s.calling thread = some task)
    (ran : pushCopy env task s.queue = some (pq, ok)) :
    Flow (es ++ (if ok then some (Event.accepted task.data.frame) else none).toList)
      (s.pushed thread pq) := by
  have head : thread = 0 → s.feeder = .calling := by
    rintro rfl
    exact flow.head task at_
  have atHead : ∀ task, (s.pushed thread pq).calling 0 = some task →
      (s.pushed thread pq).feeder = .calling := by
    apply head_called
    · rintro rfl
      show Function.update s.calling 0 none 0 = none
      exact Function.update_self ..
    · intro task' left
      rcases calling_update left with ⟨-, no⟩ | ⟨-, old⟩
      · cases no
      · exact flow.head task' old
  rcases pushCopy_cases (flow.stock.modules _) ran with ⟨rfl, same⟩ | ⟨rfl, -, perm⟩
  · rw [if_neg Bool.false_ne_true, Option.toList_none, List.append_nil]
    refine ⟨stock, fun f => ?_, flow.accepted,
      fun u task' left => flow.calling u task' (calling_pushed left), atHead⟩
    rw [frames_pushed head, flow.once, count_frames, same]
    rfl
  · rw [if_pos rfl, Option.toList_some]
    refine ⟨stock, fun f => ?_, fun f inside => ?_, fun u task' left => ?_, atHead⟩
    · have count := count_queuePush perm f
      have once := flow.once f
      rw [count_frames] at once
      rw [frames_pushed head]
      simp only [accepted_append, accepted_singleton, sent_append, sent_singleton, refused_append,
        refused_singleton, List.append_nil, List.count_append, Sys.queue] at count once ⊢
      omega
    · rw [asked_append, asked_singleton, List.append_nil]
      rw [accepted_append, accepted_singleton] at inside
      rcases List.mem_append.1 inside with old | new
      · exact flow.accepted f old
      · obtain rfl := List.mem_singleton.1 new
        exact flow.calling thread task at_
    · rw [asked_append, asked_singleton, List.append_nil]
      exact flow.calling u task' (calling_pushed left)

theorem flow_step (flow : Flow es s) (moved : step host s l = some t) :
    Flow (es ++ (shows host s l).toList) t := by
  have move := move_of_step moved
  have stock := stock_move move flow.stock
  cases move with
  | repeats thread callback request head free =>
      refine flow_scan flow stock (frames_called head) (fun u task at_ => ?_) ?_
      · rw [calling_called] at at_
        exact .inl at_
      · apply head_called
        · rintro rfl
          exact free
        · exact flow.head
  | scans thread callback request head =>
      refine flow_scan flow stock rfl (fun u task at_ => ?_) fun task at_ => ?_
      · rcases calling_update at_ with ⟨-, new⟩ | ⟨-, old⟩
        · obtain rfl := Option.some.inj new
          exact .inr rfl
        · exact .inl old
      · rcases calling_update at_ with ⟨zero, -⟩ | ⟨-, old⟩
        · exact head zero.symm
        · exact flow.head task old
  | pushes thread env task pq ok at_ ran =>
      have shown : shows host s (.push thread env) =
          if ok then some (.accepted task.data.frame) else none := by
        simp [shows, at_, ran]
      rw [shown]
      exact flow_push flow stock at_ ran
  | finds now i task mgr at_ ran =>
      obtain ⟨pq, v, some_, taken, value, rfl⟩ := tryPop_some ran
      have here : queueIndex (i + 1) = queueIndex setModule := by
        by_contra other
        exact some_ (flow.stock.others _ other)
      rw [here] at some_ taken stock ⊢
      obtain ⟨-, perm, -⟩ := Stocked.take (flow.stock.modules _) some_ taken
      refine flow.silent stock (fun f => ?_) rfl fun task' left => ?_
      · have count := count_queueTake perm value f
        rw [count_frames, count_frames, at_]
        simp only [Sys.queue, Function.update_self, frames_polling, frames_submitting,
          List.count_nil] at count ⊢
        omega
      · have polling := flow.head task' left
        rw [at_] at polling
        cases polling
  | misses now i mgr at_ ran =>
      obtain rfl := tryPop_none flow.stock.modules ran
      refine flow.silent stock (fun f => ?_) rfl fun task' left => ?_
      · rw [count_frames, count_frames, at_]
        simp only [Sys.queue, frames_next, frames_polling]
      · have polling := flow.head task' left
        rw [at_] at polling
        cases polling
  | submits stamp i sleeper task pool at_ ran t signalled =>
      rcases flow.stock.pool.push ran with ⟨no, -⟩ | ⟨-, room, -, -, perm⟩
      · cases no
      have shown : shows host s (.submit stamp sleeper) = none := by simp [shows, at_, room]
      have busy : ∀ task', s.calling 0 ≠ some task' := by
        intro task' left
        have calling := flow.head task' left
        rw [at_] at calling
        cases calling
      have frames : ∀ f, ({ s with pool := pool, feeder := .next i } : Sys).frames.count f =
          s.frames.count f := by
        intro f
        have count := count_poolPush perm f
        rw [count_frames, count_frames, at_]
        simp only [Sys.queue, frames_next, frames_submitting, List.count_nil] at count ⊢
        omega
      rw [shown]
      rcases signal_cases signalled with ⟨rfl, -⟩ | ⟨j, asleep, rfl⟩
      · exact flow.silent stock frames rfl fun task' left => absurd left (busy task')
      · refine flow.silent stock (fun f => ?_) rfl fun task' left => absurd left (busy task')
        rw [← frames f, count_frames, count_frames]
        have count := count_setWorker (v := .woken) asleep f
        simp only [Worker.frames, List.count_nil] at count
        simp only [Sys.queue, Sys.setWorker] at count ⊢
        omega
  | refuses stamp i sleeper task pool at_ ran =>
      rcases flow.stock.pool.push ran with ⟨-, full⟩ | ⟨yes, -⟩
      · have shown : shows host s (.submit stamp sleeper) = some (.refused task.data.frame) := by
          simp [shows, at_, full]
        rw [shown, Option.toList_some]
        refine ⟨stock, fun f => ?_, ?_, ?_, fun task' left => ?_⟩
        · have once := flow.once f
          rw [count_frames, at_] at once
          rw [count_frames]
          simp only [accepted_append, accepted_singleton, sent_append, sent_singleton, refused_append,
            refused_singleton, List.append_nil, List.count_append, Sys.queue, frames_next,
            frames_submitting, List.count_nil] at once ⊢
          omega
        · simpa using flow.accepted
        · simpa using flow.calling
        · have calling := flow.head task' left
          rw [at_] at calling
          cases calling
      · cases yes
  | takes i w at_ free pool v msg some_ ran value =>
      obtain ⟨-, perm, -⟩ := flow.stock.pool.take some_ ran
      have shown : shows host s (.worker i) = none := by
        rcases free with rfl | rfl <;> simp [shows, at_]
      have held : w.frames = [] := by
        rcases free with rfl | rfl <;> rfl
      rw [shown]
      refine flow.silent stock (fun f => ?_) rfl flow.head
      have count := count_poolTake perm value f
      have worker := count_setWorker (v := .sending msg) at_ f
      rw [count_frames, count_frames]
      rw [held] at worker
      simp only [Worker.frames, List.count_nil, Sys.queue, Sys.setWorker] at count worker ⊢
      omega
  | sleeps i w at_ free empty =>
      have shown : shows host s (.worker i) = none := by
        rcases free with rfl | rfl <;> simp [shows, at_]
      rw [shown]
      rcases free with rfl | rfl <;> exact flow.idle stock at_ rfl rfl
  | sends i msg at_ called =>
      have shown : shows host s (.worker i) = some (.sent msg.frame) := by simp [shows, at_, called]
      rw [shown, Option.toList_some]
      refine ⟨stock, fun f => ?_, ?_, ?_, flow.head⟩
      · have once := flow.once f
        have worker := count_setWorker (v := .entering) at_ f
        rw [count_frames] at once ⊢
        simp only [accepted_append, accepted_singleton, sent_append, sent_singleton, refused_append,
          refused_singleton, List.append_nil, List.count_append, Sys.queue, Sys.setWorker,
          Worker.frames, List.count_nil] at once worker ⊢
        omega
      · simpa using flow.accepted
      · simpa [Sys.setWorker] using flow.calling
  | returns i msg at_ called =>
      exact absurd called ((flow.stock.workers _ (List.mem_of_getElem? at_)).2 msg rfl)
  | rouses i at_ =>
      rw [show shows host s (.rouse i) = none from rfl]
      exact flow.idle stock at_ rfl rfl

theorem flow_start (memory : Nat → Nat → Pv Task) (poolMemory : Nat → Pv CanMsg) (threads : Nat) :
    Flow [] (start memory poolMemory threads) where
  stock :=
    { modules := fun j => (init_distinct memory j).toStocked
      others := fun _ _ => rfl
      pool := ⟨rfl, Nat.zero_le 20, fun v inside => absurd inside List.not_mem_nil⟩
      workers := fun w inside => by
        obtain rfl := List.eq_of_mem_replicate inside
        exact ⟨nofun, nofun⟩ }
  once f := by
    have idle : (start memory poolMemory threads).workers.flatMap Worker.frames = [] :=
      List.flatMap_eq_nil_iff.2 fun w inside => by
        obtain rfl := List.eq_of_mem_replicate inside
        rfl
    rw [count_frames, idle]
    rfl
  accepted f inside := absurd inside List.not_mem_nil
  calling thread task at_ := by cases at_
  head task at_ := by cases at_

theorem flow_run {memory : Nat → Nat → Pv Task} {poolMemory : Nat → Pv CanMsg} {threads : Nat}
    {ls : List Label} (ran : exec (step host) (start memory poolMemory threads) ls = some s) :
    Flow (observe (step host) (shows host) (start memory poolMemory threads) ls) s := by
  have along : Along (step host) (fun _ _ => True) (start memory poolMemory threads) ls :=
    along_of_labels (fun _ _ _ => trivial) _
  simpa using exec_history (H := Flow) (fun h s l t _ flow moved => flow_step flow moved) along
    (flow_start memory poolMemory threads) ran

/-- **Every frame once.**  In every run each frame that was queued has been sent once, was
refused once by a full pool, or is on its way at one place; each of them was asked for by a
call; and no worker has returned. -/
theorem frames_once {memory : Nat → Nat → Pv Task} {poolMemory : Nat → Pv CanMsg} {threads : Nat}
    {ls : List Label} {s : Sys}
    (ran : exec (step host) (start memory poolMemory threads) ls = some s) :
    let es := observe (step host) (shows host) (start memory poolMemory threads) ls
    (accepted es).Perm (sent es ++ refused es ++ s.frames) ∧ (∀ f ∈ accepted es, f ∈ asked es) ∧
      ∀ w ∈ s.workers, w ≠ .returned := by
  intro es
  have flow : Flow es s := flow_run ran
  refine ⟨?_, flow.accepted, fun w inside => (flow.stock.workers w inside).1⟩
  rw [List.perm_iff_count]
  intro f
  rw [List.count_append, List.count_append]
  exact flow.once f

def noMessage : Nat → Pv CanMsg := fun _ => ⟨0, none, 0⟩

/-- A call of another thread, found in the queue of module 5 by the first round of the loop, whose
own call it makes superfluous. -/
def firstRound : List Label :=
  [.scan 1 0 ⟨⟨1, 5, 0⟩, 1024⟩, .push 1 quiet, .scan 0 0 feederRequest, .poll 0, .poll 0, .poll 0,
    .poll 0, .poll 0, .submit 0 none]

theorem firstRound_once : ∃ s,
    exec (step .little) (start anyMemory noMessage 1) firstRound = some s ∧
      let es := observe (step .little) (shows .little) (start anyMemory noMessage 1) firstRound
      (accepted es).Perm (sent es ++ refused es ++ s.frames) ∧ (∀ f ∈ accepted es, f ∈ asked es) ∧
        ∀ w ∈ s.workers, w ≠ .returned :=
  ⟨_, rfl, frames_once rfl⟩

/-! ## The pool comes to rest -/

/-- The pool's queue as a monitor; a push signals under its lock. -/
def Sys.monitor (s : Sys) : Monitor where
  level := s.pool.size
  asleep := s.workers.countP Worker.isAsleep
  woken := s.workers.countP Worker.isWoken

theorem monitor_setWorker {i : Nat} {w v : Worker} (at_ : s.workers[i]? = some w) :
    (s.setWorker i v).monitor = { s.monitor with
      asleep := s.monitor.asleep - w.isAsleep.toNat + v.isAsleep.toNat
      woken := s.monitor.woken - w.isWoken.toNat + v.isWoken.toNat } := by
  simp only [Sys.monitor, Sys.setWorker, countP_set_of_at at_]

/-- Every step is an operation of the monitor, or none. -/
theorem heard_move (moved : Move host s l t) (stock : Stock s) (heard : Monitor.Heard s.monitor) :
    Monitor.Heard t.monitor := by
  cases moved with
  | repeats thread callback request head free =>
      have same : (s.called thread).monitor = s.monitor := by
        unfold Sys.called
        split <;> rfl
      exact same ▸ heard
  | scans thread callback request head => exact heard
  | pushes thread env task pq ok at_ ran =>
      have same : (s.pushed thread pq).monitor = s.monitor := by
        unfold Sys.pushed Sys.called
        split <;> rfl
      exact same ▸ heard
  | finds now i task mgr at_ ran => exact heard
  | misses now i mgr at_ ran => exact heard
  | submits stamp i sleeper task pool at_ ran t signalled =>
      rcases stock.pool.push ran with ⟨no, -⟩ | ⟨-, -, -, size, -⟩
      · cases no
      rcases signal_cases signalled with ⟨rfl, awake⟩ | ⟨j, asleep, rfl⟩
      · exact Monitor.heard_empty awake
      · have some_ : 0 < s.workers.countP Worker.isAsleep :=
          List.countP_pos_iff.2 ⟨_, List.mem_of_getElem? asleep, rfl⟩
        have least : min (s.workers.countP Worker.isAsleep) 1 = 1 := Nat.min_eq_right some_
        rw [monitor_setWorker (s := { s with pool := pool, feeder := .next i }) asleep]
        simpa [Sys.monitor, Monitor.add, Monitor.notify, Worker.isAsleep, Worker.isWoken, size, least]
          using heard.add.notify
  | refuses stamp i sleeper task pool at_ ran => exact heard
  | takes i w at_ free pool v msg some_ ran value =>
      obtain ⟨-, -, size⟩ := stock.pool.take some_ ran
      have same : ({ s.setWorker i (.sending msg) with pool := pool } : Sys).monitor =
          { (s.setWorker i (.sending msg)).monitor with level := s.monitor.level - 1 } := by
        simp only [Sys.monitor, Sys.setWorker, Monitor.mk.injEq, and_true]
        omega
      rw [same, monitor_setWorker at_]
      rcases free with rfl | rfl
      · simpa [Monitor.take, Worker.isAsleep, Worker.isWoken] using heard.take
      · simpa [Monitor.take, Monitor.resume, Worker.isAsleep, Worker.isWoken] using heard.resume_take
  | sleeps i w at_ free empty =>
      rw [monitor_setWorker at_]
      rcases free with rfl | rfl
      · exact Monitor.Heard.sleep empty rfl
      · exact Monitor.Heard.sleep (m := s.monitor.resume) empty rfl
  | sends i msg at_ called =>
      rw [monitor_setWorker at_]
      exact heard
  | returns i msg at_ called =>
      exact absurd called ((stock.workers _ (List.mem_of_getElem? at_)).2 msg rfl)
  | rouses i at_ =>
      rw [monitor_setWorker at_]
      exact heard.rouse

def Worker.left : Worker → Nat
  | .entering | .woken => 1
  | .sending _ => 2
  | .asleep | .returned => 0

/-- What the workers have still to do. -/
def Sys.left (s : Sys) : Nat := 2 * s.pool.size + (s.workers.map Worker.left).sum

/-- No frame is in the queue of the pool or with a worker. -/
def Sys.Rested (s : Sys) : Prop := s.pool.size = 0 ∧ ∀ w ∈ s.workers, w = .asleep

/-- What `pool_settles` needs, as an invariant. -/
structure Sound (s : Sys) : Prop where
  stock : Stock s
  heard : Monitor.Heard s.monitor
  staffed : s.workers ≠ []

theorem sum_setWorker {i : Nat} {w v : Worker} (at_ : s.workers[i]? = some w) :
    ((s.setWorker i v).workers.map Worker.left).sum + w.left =
      (s.workers.map Worker.left).sum + v.left :=
  sum_set_add at_

/-- Every step of a worker leaves less to do. -/
theorem left_step {i : Nat} (sound : Sound s) (moved : step host s (.worker i) = some t) :
    t.left < s.left := by
  cases move_of_step moved with
  | takes i w at_ free pool v msg some_ ran value =>
      obtain ⟨-, -, size⟩ := sound.stock.pool.take some_ ran
      have sum := sum_setWorker at_ (v := .sending msg)
      have one : w.left = 1 := by
        rcases free with rfl | rfl <;> rfl
      rw [one] at sum
      simp only [Sys.left, Sys.setWorker, Worker.left] at sum ⊢
      omega
  | sleeps i w at_ free empty =>
      have sum := sum_setWorker at_ (v := .asleep)
      have one : w.left = 1 := by
        rcases free with rfl | rfl <;> rfl
      rw [one] at sum
      simp only [Sys.left, Sys.setWorker, Worker.left] at sum ⊢
      omega
  | sends i msg at_ called =>
      have sum := sum_setWorker at_ (v := .entering)
      simp only [Sys.left, Sys.setWorker, Worker.left] at sum ⊢
      omega
  | returns i msg at_ called =>
      exact absurd called ((sound.stock.workers _ (List.mem_of_getElem? at_)).2 msg rfl)

theorem staffed_move (moved : Move host s l t) (staffed : s.workers ≠ []) : t.workers ≠ [] := by
  have kept : ∀ (s : Sys) (i : Nat) (w : Worker), s.workers ≠ [] → (s.setWorker i w).workers ≠ [] :=
    fun s i w some_ none => some_ ((List.set_eq_nil_iff i w).1 none)
  cases moved with
  | repeats thread callback request head free =>
      unfold Sys.called
      split <;> exact staffed
  | scans thread callback request head => exact staffed
  | pushes thread env task pq ok at_ ran =>
      unfold Sys.pushed Sys.called
      split <;> exact staffed
  | finds now i task mgr at_ ran => exact staffed
  | misses now i mgr at_ ran => exact staffed
  | submits stamp i sleeper task pool at_ ran t signalled =>
      rcases signal_cases signalled with ⟨rfl, -⟩ | ⟨j, -, rfl⟩
      · exact staffed
      · exact kept _ j .woken staffed
  | refuses stamp i sleeper task pool at_ ran => exact staffed
  | takes i w at_ free pool v msg some_ ran value => exact kept s i _ staffed
  | sleeps i w at_ free empty => exact kept s i _ staffed
  | sends i msg at_ called => exact kept s i _ staffed
  | returns i msg at_ called => exact kept s i _ staffed
  | rouses i at_ => exact kept s i _ staffed

theorem sound_step (sound : Sound s) (moved : step host s l = some t) : Sound t where
  stock := stock_move (move_of_step moved) sound.stock
  heard := heard_move (move_of_step moved) sound.stock sound.heard
  staffed := staffed_move (move_of_step moved) sound.staffed

theorem sound_start (memory : Nat → Nat → Pv Task) (poolMemory : Nat → Pv CanMsg) {threads : Nat}
    (staffed : threads ≠ 0) : Sound (start memory poolMemory threads) where
  stock := (flow_start memory poolMemory threads).stock
  heard := by
    refine Monitor.heard_empty (List.countP_eq_zero.2 fun w inside => ?_)
    obtain rfl := List.eq_of_mem_replicate inside
    simp [Worker.isAsleep]
  staffed := fun none => staffed (by simpa [start] using none)

/-- Workers with something to do can go on. -/
theorem goes_on (sound : Sound s) (busy : ¬ s.Rested) : ∃ i t, step host s (.worker i) = some t := by
  by_cases working : ∃ w ∈ s.workers, w ≠ .asleep
  · obtain ⟨w, inside, awake⟩ := working
    obtain ⟨i, at_⟩ := List.mem_iff_getElem?.1 inside
    have passes : ∃ t, s.pass i = some t := by
      unfold Sys.pass
      split
      · exact ⟨_, rfl⟩
      · rename_i nonempty
        have some_ : s.pool.size ≠ 0 := fun empty => nonempty (pqEmpty_iff.2 empty)
        have few := sound.stock.pool.few
        obtain ⟨elements, -, taken, perm⟩ := takeTop_spec maxHeapCompare some_ (by omega)
        obtain ⟨msg, value, -⟩ := sound.stock.pool.msgs _ (perm.subset List.mem_cons_self)
        exact ⟨_, by rw [taken, Option.bind_some, value]; rfl⟩
    cases w with
    | entering =>
        obtain ⟨t, passed⟩ := passes
        exact ⟨i, t, by simpa [step, at_] using passed⟩
    | woken =>
        obtain ⟨t, passed⟩ := passes
        exact ⟨i, t, by simpa [step, at_] using passed⟩
    | sending msg => exact ⟨i, s.setWorker i (if msg.callback = 0 then .returned else .entering),
        by simp [step, at_]⟩
    | asleep => exact absurd rfl awake
    | returned => exact absurd rfl (sound.stock.workers _ inside).1
  · -- All of them sleep, so nothing is in the queue.
    have still : ∀ w ∈ s.workers, w = .asleep := fun w inside => by
      by_contra awake
      exact working ⟨w, inside, awake⟩
    have some_ : s.pool.size ≠ 0 := fun empty => busy ⟨empty, still⟩
    have nobody : s.workers.countP Worker.isWoken = 0 := List.countP_eq_zero.2 fun w inside => by
      rw [still w inside]
      exact Bool.false_ne_true
    have sleepers := sound.heard.awake (.inl ⟨some_, nobody, rfl⟩)
    obtain ⟨w, inside⟩ := List.exists_mem_of_ne_nil _ sound.staffed
    have asleep := List.countP_eq_zero.1 sleepers w inside
    rw [still w inside] at asleep
    exact absurd rfl asleep

/-- The frames the workers will have sent. -/
def Sys.due (s : Sys) : List CanFrame := poolFrames s.pool ++ s.workers.flatMap Worker.frames

/-- A worker sends what is due, and leaves the rest due. -/
theorem due_step {i : Nat} (stock : Stock s) (moved : step host s (.worker i) = some t) (f : CanFrame) :
    (sent (shows host s (.worker i)).toList).count f + t.due.count f = s.due.count f := by
  have due : ∀ s : Sys, s.due.count f =
      (poolFrames s.pool).count f + (s.workers.flatMap Worker.frames).count f :=
    fun s => List.count_append ..
  rw [due, due]
  cases move_of_step moved with
  | takes i w at_ free pool v msg some_ ran value =>
      obtain ⟨-, perm, -⟩ := stock.pool.take some_ ran
      have shown : shows host s (.worker i) = none := by
        rcases free with rfl | rfl <;> simp [shows, at_]
      have held : w.frames = [] := by
        rcases free with rfl | rfl <;> rfl
      have count := count_poolTake perm value f
      have worker := count_setWorker (v := .sending msg) at_ f
      rw [held] at worker
      rw [shown]
      simp only [Worker.frames, List.count_nil, Sys.setWorker, Option.toList_none, sent,
        List.filterMap_nil] at count worker ⊢
      omega
  | sleeps i w at_ free empty =>
      have shown : shows host s (.worker i) = none := by
        rcases free with rfl | rfl <;> simp [shows, at_]
      have held : w.frames = [] := by
        rcases free with rfl | rfl <;> rfl
      have worker := count_setWorker (v := .asleep) at_ f
      rw [held] at worker
      rw [shown]
      simp only [Worker.frames, List.count_nil, Sys.setWorker, Option.toList_none, sent,
        List.filterMap_nil] at worker ⊢
      omega
  | sends i msg at_ called =>
      have shown : shows host s (.worker i) = some (.sent msg.frame) := by simp [shows, at_, called]
      have worker := count_setWorker (v := .entering) at_ f
      rw [shown, Option.toList_some, sent_singleton]
      simp only [Worker.frames, List.count_nil, Sys.setWorker] at worker ⊢
      omega
  | returns i msg at_ called =>
      exact absurd called ((stock.workers _ (List.mem_of_getElem? at_)).2 msg rfl)

/-- **The pool comes to rest.**  In every state a run reaches, every order of the workers' steps
ends after at most `left` of them; and where none can be made any more the queue of the pool is
empty, every worker waits for the next frame, and just the frames that were due have been
sent. -/
theorem pool_settles {memory : Nat → Nat → Pv Task} {poolMemory : Nat → Pv CanMsg} {threads : Nat}
    (staffed : threads ≠ 0) {ls : List Label} {is : List Nat} {s t : Sys}
    (ran : exec (step host) (start memory poolMemory threads) ls = some s)
    (settled : exec (step host) s (is.map Label.worker) = some t) :
    is.length ≤ s.left ∧ ((∀ i, step host t (.worker i) = none) → t.Rested ∧
      (sent (observe (step host) (shows host) s (is.map Label.worker))).Perm s.due) := by
  have sound : Sound s :=
    exec_invariant (fun s l t sound moved => sound_step sound moved)
      (sound_start memory poolMemory staffed) ran
  let Own (_ : Sys) (l : Label) : Prop := ∃ i, l = .worker i
  have own : Along (step host) Own s (is.map Label.worker) := by
    refine along_of_labels (fun l inside _ => ?_) s
    obtain ⟨i, -, rfl⟩ := List.mem_map.1 inside
    exact ⟨i, rfl⟩
  have kept : ∀ s l t, Own s l → Sound s → step host s l = some t → Sound t :=
    fun s l t _ sound moved => sound_step sound moved
  have less : ∀ s l t, Own s l → Sound s → step host s l = some t → t.left < s.left := by
    rintro s _ t ⟨i, rfl⟩ sound moved
    exact left_step sound moved
  have goes : ∀ s, Sound s → ¬ s.Rested → ∃ l t, Own s l ∧ step host s l = some t := by
    intro s sound busy
    obtain ⟨i, t, moved⟩ : ∃ i t, step host s (.worker i) = some t := goes_on sound busy
    exact ⟨.worker i, t, ⟨i, rfl⟩, moved⟩
  obtain ⟨bound, rests⟩ := exec_settles (C := Own) kept less goes own sound settled
  rw [List.length_map] at bound
  refine ⟨bound, fun stuck => ?_⟩
  have rested : t.Rested := rests (by
    rintro _ ⟨i, rfl⟩
    exact stuck i)
  refine ⟨rested, ?_⟩
  have history : Sound t ∧ ∀ f,
      (sent (observe (step host) (shows host) s (is.map Label.worker))).count f + t.due.count f =
        s.due.count f := by
    refine exec_history (C := Own) (h := []) (H := fun es u => Sound u ∧ ∀ f,
      (sent es).count f + u.due.count f = s.due.count f) ?_ own ⟨sound, fun f => ?_⟩ settled
    · rintro es u _ v ⟨i, rfl⟩ ⟨sound, counts⟩ moved
      refine ⟨sound_step sound moved, fun f => ?_⟩
      have now := due_step sound.stock moved f
      rw [sent_append, List.count_append]
      have before := counts f
      omega
    · exact Nat.zero_add _
  have nothing : t.due = [] := by
    have queue : t.pool.queued = [] := by
      rw [Pq.queued, rested.1]
      rfl
    rw [Sys.due, poolFrames, queue, List.filterMap_nil, List.nil_append]
    refine List.flatMap_eq_nil_iff.2 fun w inside => ?_
    rw [rested.2 w inside]
    rfl
  rw [List.perm_iff_count]
  intro f
  have counts := history.2 f
  rw [nothing, List.count_nil] at counts
  exact counts

theorem firstRound_settles : ∃ s t,
    exec (step .little) (start anyMemory noMessage 1) firstRound = some s ∧
      exec (step .little) s ([0, 0, 0].map .worker) = some t ∧
      [0, 0, 0].length ≤ s.left ∧ ((∀ i, step .little t (.worker i) = none) → t.Rested ∧
        (sent (observe (step .little) (shows .little) s ([0, 0, 0].map .worker))).Perm s.due) := by
  obtain ⟨s, t, ran, settled⟩ : ∃ s t,
      exec (step .little) (start anyMemory noMessage 1) firstRound = some s ∧
        exec (step .little) s ([0, 0, 0].map .worker) = some t := ⟨_, _, rfl, rfl⟩
  exact ⟨s, t, ran, settled, pool_settles Nat.one_ne_zero ran settled⟩

end ChargerStack.Can.SetPipeline
