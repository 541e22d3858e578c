/-
# Can.ModuleQueue -- the task queues of can/module_queue_manager.c

Every module has a queue of tasks under `aging_compare`.  A push first looks for a queued task
with the same task and module id and is content when there is one; a mode switch clears the
queue before it is pushed.  The scan, the clear and the push each take the lock of the queue
for themselves.

* `push_holds_task_iff`: after a push that returned `true` the queue holds the task as it was
  pushed, unless an older task with the same ids but another message or priority was queued;
* `sections_apart_iff`: with many threads, ids stay distinct and a mode switch comes alone
  exactly in the runs in which no task that stands in the way is queued between the scan or
  the clear of a push and its last section.
-/
import Mathlib.Data.List.Perm.Basic
import Mathlib.Logic.Function.Basic
import ChargerStack.Utils.Aging

namespace ChargerStack.Can.ModuleQueue

open ChargerStack.Lib
open ChargerStack.Lib.Heap
open ChargerStack.Utils.PriorityQueue

set_option autoImplicit false

/-! ## Tasks -/

/-- `task_priority_e`. -/
inductive TaskPriority where
  | none
  | normal
  | urgent
  | immediate
  deriving DecidableEq, Repr

/-- `priority_to_int`. -/
def priorityToInt : TaskPriority → Int
  | .none => 0
  | .normal => 1
  | .urgent => 2
  | .immediate => 3

/-- `struct can_frame` of the kernel. -/
structure CanFrame where
  canId : UInt32
  canDlc : UInt8
  pad : UInt8
  res0 : UInt8
  res1 : UInt8
  data : List UInt8
  deriving DecidableEq, Repr

/-- `can_msg_t`; the callback is the address of a function. -/
structure CanMsg where
  frame : CanFrame
  callback : Nat
  deriving DecidableEq, Repr

/-- `dcdc_task_t`.  The queue owns a copy of the message. -/
structure Task where
  priority : TaskPriority
  data : CanMsg
  taskId : Int
  moduleId : Int
  deriving DecidableEq, Repr

/-- `SET_MODE_SWITCH`. -/
def setModeSwitch : Int := 0x30

/-- `MODULE_COUNT`. -/
def moduleCount : Nat := 12

/-- `DCDC_QUEUE_LEN`. -/
def dcdcQueueLen : Int := 20

/-- `module_queue_mgr_t`: the queue of each module, from 0 on. -/
abbrev Mgr := Nat → Pq Task

/-- `module_queue_mgr_init`. -/
def moduleQueueMgrInit (memory : Nat → Nat → Pv Task) : Mgr :=
  fun i => pqInit dcdcQueueLen (memory i)

/-! ## The locked sections of a push -/

/-- The task and module id of a queued element. -/
def ids (v : Pv Task) : Option (Int × Int) := v.value.map fun task => (task.taskId, task.moduleId)

/-- The test of the scan. -/
def sameIds (task : Task) (v : Pv Task) : Bool :=
  match v.value with
  | some existing => decide (existing.taskId = task.taskId) && decide (existing.moduleId = task.moduleId)
  | none => false

/-- The scan for a duplicate. -/
def scan (task : Task) (pq : Pq Task) : Bool := pq.queued.any (sameIds task)

/-- The element made for a task. -/
def itemOf (stamp : Nat) (task : Task) : Pv Task := ⟨priorityToInt task.priority, some task, stamp⟩

/-- What a push finds: its two allocations, the clock when it stamps the item, and the clock of
the comparisons. -/
structure PushEnv where
  taskCp : Bool
  msgCopy : Bool
  stamp : Nat
  now : Nat
  deriving DecidableEq, Repr

/-- The end of `module_push_task`, from the allocations on.  A `task_cp` that is null is written
to. -/
def pushCopy (env : PushEnv) (task : Task) (pq : Pq Task) : Option (Pq Task × Bool) :=
  if env.taskCp = false then none
  else if env.msgCopy = false then some (pq, false)
  else priorityQueuePush (agingCompare env.now) (itemOf env.stamp task) pq

/-- `module_push_task` behind its tests, on the queue of the module. -/
def pushToQueue (env : PushEnv) (task : Task) (pq : Pq Task) : Option (Pq Task × Bool) :=
  if scan task pq then some (pq, true)
  else if task.taskId = setModeSwitch then pushCopy env task (priorityQueueClear true pq)
  else pushCopy env task pq

def validModule (moduleId : Int) : Bool := decide (0 < moduleId) && decide (moduleId ≤ moduleCount)

/-- The place of the queue of a module. -/
def queueIndex (moduleId : Int) : Nat := (moduleId - 1).toNat

/-- `module_push_task`. -/
def modulePushTask (env : PushEnv) (moduleId : Int) (task : Task) (mgr : Mgr) :
    Option (Mgr × Bool) :=
  if validModule moduleId = false then some (mgr, false)
  else
    (pushToQueue env task (mgr (queueIndex moduleId))).map fun r =>
      (Function.update mgr (queueIndex moduleId) r.1, r.2)

/-- `module_pop_task`, which waits on an empty queue. -/
def modulePopTask (now : Nat) (moduleId : Int) (mgr : Mgr) : Option (Mgr × Option Task) :=
  if validModule moduleId = false then some (mgr, none)
  else
    (priorityQueuePop (agingCompare now) (mgr (queueIndex moduleId))).map fun r =>
      (Function.update mgr (queueIndex moduleId) r.1, r.2.value)

/-- `module_try_pop_task`. -/
def moduleTryPopTask (now : Nat) (moduleId : Int) (mgr : Mgr) : Option (Mgr × Option Task) :=
  if validModule moduleId = false then some (mgr, none)
  else
    (priorityQueueTryPop (agingCompare now) (mgr (queueIndex moduleId))).map fun r =>
      (Function.update mgr (queueIndex moduleId) r.1, r.2.bind Pv.value)

/-! ## One queue -/

/-- What every queue keeps: it is not above its length, and its elements stand for tasks. -/
structure Stocked (pq : Pq Task) : Prop where
  capacity : pq.capacity = dcdcQueueLen
  few : pq.size ≤ 20
  tasks : ∀ v ∈ pq.queued, ∃ stamp task, v = itemOf stamp task

/-- Besides, no two tasks have the same ids. -/
structure Distinct (pq : Pq Task) : Prop extends Stocked pq where
  apart : (pq.queued.map ids).Nodup

variable {pq pq' : Pq Task} {task : Task} {env : PushEnv}

@[simp] theorem ids_itemOf (stamp : Nat) (task : Task) :
    ids (itemOf stamp task) = some (task.taskId, task.moduleId) := rfl

theorem sameIds_iff {v : Pv Task} :
    sameIds task v = true ↔ ids v = some (task.taskId, task.moduleId) := by
  unfold sameIds ids
  cases v.value with
  | none => simp
  | some existing => simp

theorem scan_iff : scan task pq = true ↔ some (task.taskId, task.moduleId) ∈ pq.queued.map ids := by
  simp only [scan, List.any_eq_true, sameIds_iff, List.mem_map]

theorem Stocked.clear (inv : Stocked pq) : Stocked (priorityQueueClear true pq) :=
  ⟨inv.capacity, Nat.zero_le 20, fun _ member => absurd member List.not_mem_nil⟩

@[simp] theorem queued_clear (pq : Pq Task) : (priorityQueueClear true pq).queued = [] := rfl

/-- The three ends of a push behind the scan: no message copy, a full queue, a new element. -/
theorem pushCopy_cases {ok : Bool} (inv : Stocked pq) (ran : pushCopy env task pq = some (pq', ok)) :
    (ok = false ∧ pq' = pq) ∨
      (ok = true ∧ Stocked pq' ∧ pq'.queued.Perm (pq.queued ++ [itemOf env.stamp task])) := by
  unfold pushCopy at ran
  split at ran
  · cases ran
  · split at ran
    · obtain ⟨rfl, rfl⟩ := Prod.mk.inj (Option.some.inj ran)
      exact .inl ⟨rfl, rfl⟩
    · have capacity : pq.capacity = 20 := inv.capacity
      have few := inv.few
      by_cases full : pq.capacity ≤ pq.size
      · rw [push_full full] at ran
        obtain ⟨rfl, rfl⟩ := Prod.mk.inj (Option.some.inj ran)
        exact .inl ⟨rfl, rfl⟩
      · obtain ⟨elements, -, pushed, perm⟩ :=
          push_room (agingCompare env.now) (itemOf env.stamp task) (Int.not_le.1 full)
        obtain ⟨rfl, rfl⟩ := Prod.mk.inj (Option.some.inj (pushed.symm.trans ran))
        refine .inr ⟨rfl, ⟨capacity, ?_, ?_⟩, perm⟩
        · show pq.size + 1 ≤ 20
          omega
        · intro v member
          rcases List.mem_append.1 (perm.subset member) with member | member
          · exact inv.tasks v member
          · exact ⟨env.stamp, task, List.mem_singleton.1 member⟩

theorem Distinct.clear (inv : Stocked pq) : Distinct (priorityQueueClear true pq) :=
  ⟨inv.clear, List.nodup_nil⟩

/-- A task whose ids are not queued keeps the ids apart. -/
theorem Distinct.added (inv : Distinct pq) (stocked : Stocked pq') {stamp : Nat}
    (fresh : scan task pq = false) (perm : pq'.queued.Perm (pq.queued ++ [itemOf stamp task])) :
    Distinct pq' := by
  have absent : some (task.taskId, task.moduleId) ∉ pq.queued.map ids := fun member => by
    rw [scan_iff.2 member] at fresh
    cases fresh
  refine ⟨stocked, ?_⟩
  rw [(perm.map ids).nodup_iff, List.map_append, List.map_singleton, ids_itemOf,
    List.nodup_append_comm]
  exact List.nodup_cons.2 ⟨absent, inv.apart⟩

/-- The three ways of a push to a queue. -/
theorem pushToQueue_cases {ok : Bool} (inv : Distinct pq)
    (ran : pushToQueue env task pq = some (pq', ok)) :
    (scan task pq = true ∧ ok = true ∧ pq' = pq) ∨
      (scan task pq = false ∧ Distinct pq' ∧ (ok = true →
        ∃ rest, scan task rest = false ∧
          pq'.queued.Perm (Pq.queued rest ++ [itemOf env.stamp task]))) := by
  unfold pushToQueue at ran
  split at ran
  · rename_i duplicate
    obtain ⟨rfl, rfl⟩ := Prod.mk.inj (Option.some.inj ran)
    exact .inl ⟨duplicate, rfl, rfl⟩
  · rename_i fresh
    have fresh : scan task pq = false := Bool.not_eq_true _ ▸ fresh
    refine .inr ⟨fresh, ?_⟩
    split at ran
    · have cleared := Distinct.clear inv.toStocked
      rcases pushCopy_cases cleared.toStocked ran with ⟨rfl, rfl⟩ | ⟨rfl, stocked, perm⟩
      · exact ⟨cleared, fun failed => Bool.noConfusion failed⟩
      · exact ⟨cleared.added stocked rfl perm, fun _ => ⟨_, rfl, perm⟩⟩
    · rcases pushCopy_cases inv.toStocked ran with ⟨rfl, rfl⟩ | ⟨rfl, stocked, perm⟩
      · exact ⟨inv, fun failed => Bool.noConfusion failed⟩
      · exact ⟨inv.added stocked fresh perm, fun _ => ⟨pq, fresh, perm⟩⟩

/-- What a pop leaves. -/
theorem Distinct.take (inv : Distinct pq) {now : Nat} {v : Pv Task}
    (taken : takeTop (agingCompare now) pq = some (pq', v)) (some : pq.size ≠ 0) : Distinct pq' := by
  have few := inv.few
  obtain ⟨elements, -, ran, perm⟩ := takeTop_spec (agingCompare now) some (by omega)
  obtain ⟨rfl, rfl⟩ := Prod.mk.inj (Option.some.inj (ran.symm.trans taken))
  refine ⟨⟨inv.capacity, ?_, ?_⟩, ?_⟩
  · show pq.size - 1 ≤ 20
    omega
  · intro v member
    exact inv.tasks v (perm.subset (List.mem_cons_of_mem _ member))
  · have whole := (perm.map ids).nodup_iff.2 inv.apart
    exact (List.nodup_cons.1 whole).2

theorem Distinct.tryPop (inv : Distinct pq) {now : Nat} {answer : Option (Pv Task)}
    (ran : priorityQueueTryPop (agingCompare now) pq = some (pq', answer)) : Distinct pq' := by
  unfold priorityQueueTryPop at ran
  split at ran
  · obtain ⟨rfl, -⟩ := Prod.mk.inj (Option.some.inj ran)
    exact inv
  · rename_i nonempty
    obtain ⟨⟨next, v⟩, taken, same⟩ := Option.map_eq_some_iff.1 ran
    obtain ⟨rfl, -⟩ := Prod.mk.inj same
    exact inv.take taken fun empty => nonempty (pqEmpty_iff.2 empty)

/-! ## Runs of calls -/

inductive Call where
  | push (env : PushEnv) (moduleId : Int) (task : Task)
  | pop (now : Nat) (moduleId : Int)
  | tryPop (now : Nat) (moduleId : Int)
  deriving DecidableEq, Repr

def mgrStep (mgr : Mgr) : Call → Option Mgr
  | .push env moduleId task => (modulePushTask env moduleId task mgr).map Prod.fst
  | .pop now moduleId => (modulePopTask now moduleId mgr).map Prod.fst
  | .tryPop now moduleId => (moduleTryPopTask now moduleId mgr).map Prod.fst

/-- The queue holds one task with these ids, and it is the one that was pushed. -/
def HoldsAsPushed (task : Task) (pq : Pq Task) : Prop :=
  ∃ v, pq.queued.filter (sameIds task) = [v] ∧ v.value = some task ∧
    v.priority = priorityToInt task.priority

variable {mgr mgr' : Mgr} {moduleId : Int}

/-- Every queue of the manager has its ids apart. -/
def AllDistinct (mgr : Mgr) : Prop := ∀ i, Distinct (mgr i)

theorem update_distinct (inv : AllDistinct mgr) (i : Nat) (next : Distinct pq) :
    AllDistinct (Function.update mgr i pq) := by
  intro j
  by_cases same : j = i
  · subst same
    rwa [Function.update_self]
  · rw [Function.update_of_ne same]
    exact inv j

theorem modulePushTask_cases {ok : Bool} (ran : modulePushTask env moduleId task mgr = some (mgr', ok)) :
    (ok = false ∧ mgr' = mgr) ∨
      ∃ pq', pushToQueue env task (mgr (queueIndex moduleId)) = some (pq', ok) ∧
        mgr' = Function.update mgr (queueIndex moduleId) pq' := by
  unfold modulePushTask at ran
  split at ran
  · obtain ⟨rfl, rfl⟩ := Prod.mk.inj (Option.some.inj ran)
    exact .inl ⟨rfl, rfl⟩
  · obtain ⟨⟨pq', b⟩, pushed, same⟩ := Option.map_eq_some_iff.1 ran
    obtain ⟨rfl, rfl⟩ := Prod.mk.inj same
    exact .inr ⟨pq', pushed, rfl⟩

/-- **Every call keeps the ids of every queue apart.** -/
theorem mgrStep_distinct {call : Call} (inv : AllDistinct mgr)
    (moved : mgrStep mgr call = some mgr') : AllDistinct mgr' := by
  cases call with
  | push env moduleId task =>
      obtain ⟨⟨next, ok⟩, ran, rfl⟩ := Option.map_eq_some_iff.1 moved
      rcases modulePushTask_cases ran with ⟨-, rfl⟩ | ⟨pq', pushed, rfl⟩
      · exact inv
      · refine update_distinct inv _ ?_
        rcases pushToQueue_cases (inv _) pushed with ⟨-, -, rfl⟩ | ⟨-, next, -⟩
        · exact inv _
        · exact next
  | pop now moduleId =>
      obtain ⟨⟨next, answer⟩, ran, rfl⟩ := Option.map_eq_some_iff.1 moved
      unfold modulePopTask at ran
      split at ran
      · obtain ⟨rfl, -⟩ := Prod.mk.inj (Option.some.inj ran)
        exact inv
      · obtain ⟨⟨pq', v⟩, popped, same⟩ := Option.map_eq_some_iff.1 ran
        obtain ⟨rfl, -⟩ := Prod.mk.inj same
        obtain ⟨nonempty, taken⟩ := Option.ite_none_left_eq_some.1 popped
        exact update_distinct inv _
          ((inv _).take taken fun empty => nonempty (pqEmpty_iff.2 empty))
  | tryPop now moduleId =>
      obtain ⟨⟨next, answer⟩, ran, rfl⟩ := Option.map_eq_some_iff.1 moved
      unfold moduleTryPopTask at ran
      split at ran
      · obtain ⟨rfl, -⟩ := Prod.mk.inj (Option.some.inj ran)
        exact inv
      · obtain ⟨⟨pq', v⟩, popped, same⟩ := Option.map_eq_some_iff.1 ran
        obtain ⟨rfl, -⟩ := Prod.mk.inj same
        exact update_distinct inv _ ((inv _).tryPop popped)

theorem init_distinct (memory : Nat → Nat → Pv Task) : AllDistinct (moduleQueueMgrInit memory) :=
  fun _ => ⟨⟨rfl, Nat.zero_le 20, fun _ member => absurd member List.not_mem_nil⟩, List.nodup_nil⟩

/-- An element with these ids is the only one. -/
theorem Distinct.filter_sameIds (inv : Distinct pq) {v : Pv Task} (member : v ∈ pq.queued)
    (same : sameIds task v = true) : pq.queued.filter (sameIds task) = [v] := by
  have apart := inv.apart
  obtain ⟨x, y, split⟩ := List.append_of_mem member
  rw [split, List.map_append, List.map_cons, List.nodup_append, List.nodup_cons] at apart
  obtain ⟨-, ⟨behind, -⟩, before⟩ := apart
  rw [split, List.filter_append, List.filter_cons_of_pos same]
  have left : x.filter (sameIds task) = [] := by
    rw [List.filter_eq_nil_iff]
    intro w inside other
    exact before _ (List.mem_map_of_mem inside) (ids v) List.mem_cons_self
      ((sameIds_iff.1 other).trans (sameIds_iff.1 same).symm)
  have right : y.filter (sameIds task) = [] := by
    rw [List.filter_eq_nil_iff]
    intro w inside other
    refine behind (List.mem_map.2 ⟨w, inside, ?_⟩)
    exact (sameIds_iff.1 other).trans (sameIds_iff.1 same).symm
  rw [left, right, List.nil_append]

/-- **When an accepted command is the one that is queued.**  A push that returns `true` leaves
exactly the pushed task under its ids, unless a task with these ids and another message or
priority was queued: then that one stays. -/
theorem push_holds_task_iff (memory : Nat → Nat → Pv Task) (calls : List Call) (mgr mgr' : Mgr)
    (ran : exec mgrStep (moduleQueueMgrInit memory) calls = some mgr) (env : PushEnv)
    (moduleId : Int) (task : Task)
    (returned : modulePushTask env moduleId task mgr = some (mgr', true)) :
    HoldsAsPushed task (mgr' (queueIndex moduleId)) ↔
      ∀ v ∈ (mgr (queueIndex moduleId)).queued, sameIds task v = true → v.value = some task := by
  have inv : AllDistinct mgr :=
    exec_invariant (fun _ _ _ inv moved => mgrStep_distinct inv moved) (init_distinct memory) ran
  rcases modulePushTask_cases returned with ⟨failed, -⟩ | ⟨pq', pushed, rfl⟩
  · cases failed
  rw [Function.update_self]
  have here := inv (queueIndex moduleId)
  rcases pushToQueue_cases here pushed with ⟨duplicate, -, rfl⟩ | ⟨fresh, -, added⟩
  · obtain ⟨v, member, same⟩ := List.any_eq_true.1 duplicate
    have only := here.filter_sameIds member same
    constructor
    · rintro ⟨w, filtered, value, -⟩ u inside alike
      have inFilter : u ∈ (mgr (queueIndex moduleId)).queued.filter (sameIds task) :=
        List.mem_filter.2 ⟨inside, alike⟩
      rw [filtered, List.mem_singleton] at inFilter
      rw [inFilter, value]
    · intro alike
      have value := alike v member same
      obtain ⟨stamp, queuedTask, rfl⟩ := here.tasks v member
      obtain rfl : queuedTask = task := Option.some.inj value
      exact ⟨_, only, rfl, rfl⟩
  · obtain ⟨rest, absent, perm⟩ := added rfl
    have none : ∀ (pq : Pq Task), scan task pq = false → pq.queued.filter (sameIds task) = [] := by
      intro pq absent
      rw [List.filter_eq_nil_iff]
      intro v member same
      have duplicate : scan task pq = true := List.any_eq_true.2 ⟨v, member, same⟩
      rw [duplicate] at absent
      cases absent
    have filtered := perm.filter (sameIds task)
    have self : sameIds task (itemOf env.stamp task) = true := sameIds_iff.2 rfl
    rw [List.filter_append, none rest absent, List.nil_append, List.filter_cons_of_pos self,
      List.filter_nil, List.perm_singleton] at filtered
    constructor
    · intro _ v member same
      have duplicate : scan task (mgr (queueIndex moduleId)) = true :=
        List.any_eq_true.2 ⟨v, member, same⟩
      rw [duplicate] at fresh
      cases fresh
    · intro _
      exact ⟨_, filtered, rfl, rfl⟩

/-! A set-command with two payloads. -/

def message (byte : UInt8) : CanMsg := ⟨⟨0x123, 1, 0, 0, 0, [byte]⟩, 0⟩

def setCurrent (byte : UInt8) : Task := ⟨.normal, message byte, 0x1b, 3⟩

def quiet : PushEnv := ⟨true, true, 0, 0⟩

def anyMemory : Nat → Nat → Pv Task := fun _ _ => ⟨0, none, 0⟩

theorem first_push_holds :
    ∃ mgr', modulePushTask quiet 3 (setCurrent 1) (moduleQueueMgrInit anyMemory) = some (mgr', true) ∧
      HoldsAsPushed (setCurrent 1) (mgr' 2) := by
  refine ⟨_, rfl, ?_⟩
  exact (push_holds_task_iff anyMemory [] _ _ rfl quiet 3 (setCurrent 1) rfl).2
    fun _ member => absurd member List.not_mem_nil

/-- The second push of the command returns `true`, and the first payload stays. -/
theorem second_push_keeps_first :
    ∃ mgr mgr', exec mgrStep (moduleQueueMgrInit anyMemory) [.push quiet 3 (setCurrent 1)] = some mgr ∧
      modulePushTask quiet 3 (setCurrent 2) mgr = some (mgr', true) ∧
      (mgr' 2).queued.map Pv.value = [some (setCurrent 1)] ∧
      ¬ HoldsAsPushed (setCurrent 2) (mgr' 2) := by
  refine ⟨_, _, rfl, rfl, by decide, ?_⟩
  rintro ⟨v, filtered, value, -⟩
  have only : v = itemOf 0 (setCurrent 1) := (List.cons.inj filtered).1.symm
  rw [only] at value
  revert value
  decide

/-! ## Many threads -/

/-- Where a thread stands between the locked sections of `module_push_task`. -/
inductive Phase where
  | idle
  /-- The scan found no duplicate. -/
  | scanned (task : Task)
  /-- And the queue has been cleared for a mode switch. -/
  | cleared (task : Task)
  deriving DecidableEq, Repr

/-- One module's queue and the threads at it.  `last` is the task that the last section pushed. -/
structure Shared where
  pq : Pq Task
  phase : Nat → Phase
  last : Option Task

inductive Section where
  | scan (task : Task)
  | clear
  | push (env : PushEnv)
  | tryPop (now : Nat)
  deriving DecidableEq, Repr

/-- The task a thread is about to push. -/
def readyTask : Phase → Option Task
  | .idle => none
  | .scanned task => if task.taskId = setModeSwitch then none else some task
  | .cleared task => some task

/-- A thread runs its next locked section. -/
def sectionStep (s : Shared) (lab : Nat × Section) : Option Shared :=
  match lab.2 with
  | .scan task =>
      if s.phase lab.1 ≠ .idle then none
      else if scan task s.pq then some { s with last := none }
      else some { s with phase := Function.update s.phase lab.1 (.scanned task), last := none }
  | .clear =>
      match s.phase lab.1 with
      | .scanned task =>
          if task.taskId = setModeSwitch then
            some ⟨priorityQueueClear true s.pq, Function.update s.phase lab.1 (.cleared task), none⟩
          else none
      | _ => none
  | .push env =>
      (readyTask (s.phase lab.1)).bind fun task =>
        (pushCopy env task s.pq).map fun r =>
          ⟨r.1, Function.update s.phase lab.1 .idle, if r.2 then some task else none⟩
  | .tryPop now =>
      if s.phase lab.1 ≠ .idle then none
      else
        (priorityQueueTryPop (agingCompare now) s.pq).map fun r => { s with pq := r.1, last := none }

/-- No two queued tasks have the same ids, and a mode switch that has just been pushed is
alone. -/
structure Apart (s : Shared) : Prop where
  ids : (s.pq.queued.map ids).Nodup
  alone : ∀ task, s.last = some task → task.taskId = setModeSwitch →
    s.pq.queued.map Pv.value = [some task]

/-- When the section pushes a task, no task with the same ids is queued, and for a mode switch
none at all. -/
def NothingCameBetween (s : Shared) (lab : Nat × Section) : Prop :=
  ∀ env task, lab.2 = .push env → readyTask (s.phase lab.1) = some task → env.msgCopy = true →
    (s.pq.size : Int) < s.pq.capacity →
    scan task s.pq = false ∧ (task.taskId = setModeSwitch → s.pq.queued = [])

variable {s t : Shared} {lab : Nat × Section}

/-- What a section does: nothing to the queue, a clear, a pop, or a push. -/
theorem sectionStep_cases (moved : sectionStep s lab = some t) :
    (t.last = none ∧ (∀ env, lab.2 ≠ .push env) ∧
        (t.pq = s.pq ∨ t.pq = priorityQueueClear true s.pq ∨
          ∃ now answer, priorityQueueTryPop (agingCompare now) s.pq = some (t.pq, answer))) ∨
      (∃ env task ok, lab.2 = .push env ∧ readyTask (s.phase lab.1) = some task ∧
        pushCopy env task s.pq = some (t.pq, ok) ∧ t.last = if ok then some task else none) := by
  obtain ⟨thread, part⟩ := lab
  cases part with
  | scan task =>
      refine .inl ?_
      obtain ⟨-, moved⟩ := Option.ite_none_left_eq_some.1 moved
      split at moved
      · obtain rfl := Option.some.inj moved
        exact ⟨rfl, fun _ other => Section.noConfusion other, .inl rfl⟩
      · obtain rfl := Option.some.inj moved
        exact ⟨rfl, fun _ other => Section.noConfusion other, .inl rfl⟩
  | clear =>
      refine .inl ?_
      simp only [sectionStep] at moved
      split at moved
      · obtain ⟨-, moved⟩ := Option.ite_none_right_eq_some.1 moved
        obtain rfl := Option.some.inj moved
        exact ⟨rfl, fun _ other => Section.noConfusion other, .inr (.inl rfl)⟩
      · cases moved
  | push env =>
      obtain ⟨task, ready, moved⟩ := Option.bind_eq_some_iff.1 moved
      obtain ⟨⟨pq, ok⟩, pushed, rfl⟩ := Option.map_eq_some_iff.1 moved
      exact .inr ⟨env, task, ok, rfl, ready, pushed, rfl⟩
  | tryPop now =>
      refine .inl ?_
      obtain ⟨-, moved⟩ := Option.ite_none_left_eq_some.1 moved
      obtain ⟨⟨pq, answer⟩, popped, rfl⟩ := Option.map_eq_some_iff.1 moved
      exact ⟨rfl, fun _ other => Section.noConfusion other, .inr (.inr ⟨now, answer, popped⟩)⟩

/-- What the threads keep: a stocked queue with its tasks apart. -/
structure Kept (s : Shared) : Prop where
  stocked : Stocked s.pq
  apart : Apart s

theorem Kept.distinct (inv : Kept s) : Distinct s.pq := ⟨inv.stocked, inv.apart.ids⟩

theorem kept_of_distinct (distinct : Distinct t.pq) (last : t.last = none) : Kept t := by
  refine ⟨distinct.toStocked, distinct.apart, ?_⟩
  intro task pushed
  rw [last] at pushed
  cases pushed

/-- A push section that has room and finds its memory pushes. -/
theorem pushCopy_room {ok : Bool} (inv : Stocked pq) (ran : pushCopy env task pq = some (pq', ok))
    (copied : env.msgCopy = true) (room : (pq.size : Int) < pq.capacity) :
    ok = true ∧ pq'.queued.Perm (pq.queued ++ [itemOf env.stamp task]) := by
  rcases pushCopy_cases inv ran with ⟨rfl, -⟩ | ⟨rfl, -, perm⟩
  · unfold pushCopy at ran
    split at ran
    · cases ran
    · rw [copied, if_neg Bool.noConfusion] at ran
      obtain ⟨elements, -, pushed, -⟩ :=
        push_room (agingCompare env.now) (itemOf env.stamp task) room
      cases (Prod.mk.inj (Option.some.inj (pushed.symm.trans ran))).2
  · exact ⟨rfl, perm⟩

/-- A push section that succeeds had room and found its memory. -/
theorem pushCopy_pushed (ran : pushCopy env task pq = some (pq', true)) :
    env.msgCopy = true ∧ (pq.size : Int) < pq.capacity := by
  unfold pushCopy at ran
  split at ran
  · cases ran
  · split at ran
    · cases ran
    · rename_i copied
      refine ⟨Bool.not_eq_false _ ▸ copied, Int.not_le.1 ?_⟩
      intro full
      rw [push_full full] at ran
      cases ran

theorem Kept.step (inv : Kept s) (clean : NothingCameBetween s lab)
    (moved : sectionStep s lab = some t) : Kept t := by
  rcases sectionStep_cases moved with ⟨last, -, same | cleared | ⟨now, answer, popped⟩⟩ |
    ⟨env, task, ok, push, ready, pushed, last⟩
  · refine kept_of_distinct ?_ last
    rw [same]
    exact inv.distinct
  · refine kept_of_distinct ?_ last
    rw [cleared]
    exact Distinct.clear inv.stocked
  · exact kept_of_distinct (inv.distinct.tryPop popped) last
  · rcases pushCopy_cases inv.stocked pushed with ⟨rfl, same⟩ | ⟨rfl, stocked, perm⟩
    · refine kept_of_distinct ?_ last
      rw [same]
      exact inv.distinct
    · obtain ⟨copied, room⟩ := pushCopy_pushed pushed
      obtain ⟨fresh, empty⟩ := clean env task push ready copied room
      refine ⟨stocked, (inv.distinct.added stocked fresh perm).apart, ?_⟩
      intro other same switch
      obtain rfl : task = other := by simpa [last] using same
      rw [empty switch, List.nil_append, List.perm_singleton] at perm
      rw [perm]
      rfl

/-- Where the tasks are apart after a push section, nothing stood in its way. -/
theorem Kept.nothingCameBetween (inv : Kept s) (moved : sectionStep s lab = some t)
    (apart : Apart t) : NothingCameBetween s lab := by
  intro env task push ready copied room
  rcases sectionStep_cases moved with ⟨-, other, -⟩ | ⟨env', task', ok, push', ready', pushed, last⟩
  · exact absurd push (other env)
  · obtain rfl : env = env' := Section.push.inj (push.symm.trans push')
    obtain rfl : task = task' := Option.some.inj (ready.symm.trans ready')
    obtain ⟨rfl, perm⟩ := pushCopy_room inv.stocked pushed copied room
    constructor
    · have nodup := (perm.map ids).nodup_iff.1 apart.ids
      rw [List.map_append, List.map_singleton, ids_itemOf, List.nodup_append_comm,
        List.singleton_append, List.nodup_cons] at nodup
      rw [← Bool.not_eq_true, scan_iff]
      exact nodup.1
    · intro switch
      have alone := congrArg List.length (apart.alone task last switch)
      have lengths := perm.length_eq
      rw [List.length_map, List.length_singleton] at alone
      rw [List.length_append, List.length_singleton] at lengths
      exact List.length_eq_zero_iff.1 (by omega)

/-- **When the sections of different pushes do not disturb each other.**  Ids are distinct and a
mode switch is alone in every state of a run exactly when, at each push section, nothing that
the scan and the clear were to exclude has been queued meanwhile. -/
theorem sections_apart_iff (memory : Nat → Pv Task) (labs : List (Nat × Section)) (s : Shared)
    (ran : exec sectionStep ⟨pqInit dcdcQueueLen memory, fun _ => .idle, none⟩ labs = some s) :
    Always sectionStep Apart ⟨pqInit dcdcQueueLen memory, fun _ => .idle, none⟩ labs ↔
      Along sectionStep NothingCameBetween ⟨pqInit dcdcQueueLen memory, fun _ => .idle, none⟩
        labs := by
  have start : Kept ⟨pqInit dcdcQueueLen memory, fun _ => .idle, none⟩ :=
    kept_of_distinct (init_distinct (fun _ => memory) 0) rfl
  exact always_iff_along (fun _ inv => inv.apart) (fun _ _ _ clean inv moved => inv.step clean moved)
    (fun _ _ _ inv moved apart => inv.nothingCameBetween moved apart) start ran

def newShared : Shared := ⟨pqInit dcdcQueueLen (anyMemory 0), fun _ => .idle, none⟩

/-- Two threads push one after the other. -/
def inTurn : List (Nat × Section) :=
  [(1, .scan (setCurrent 1)), (1, .push quiet), (2, .scan (setCurrent 2)), (2, .tryPop 0)]

theorem inTurn_apart :
    ∃ s, exec sectionStep newShared inTurn = some s ∧ Always sectionStep Apart newShared inTurn := by
  refine ⟨_, rfl, (sections_apart_iff (anyMemory 0) inTurn _ rfl).2 ?_⟩
  refine along_cons rfl ?_ (along_cons rfl ?_ (along_cons rfl ?_ (along_cons rfl ?_ trivial)))
  · exact fun _ _ push => Section.noConfusion push
  · intro env task push ready _ _
    obtain rfl := Option.some.inj ready
    exact ⟨rfl, fun _ => rfl⟩
  · exact fun _ _ push => Section.noConfusion push
  · exact fun _ _ push => Section.noConfusion push

/-- Two threads scan before either pushes. -/
def bothScan : List (Nat × Section) :=
  [(1, .scan (setCurrent 1)), (2, .scan (setCurrent 2)), (1, .push quiet), (2, .push quiet)]

/-- Both tasks are queued under the same ids. -/
theorem bothScan_queued_twice :
    ∃ s, exec sectionStep newShared bothScan = some s ∧
      s.pq.queued.map ids = [some (0x1b, 3), some (0x1b, 3)] ∧ ¬ Apart s := by
  refine ⟨_, rfl, by decide, ?_⟩
  intro apart
  have nodup := apart.ids
  revert nodup
  decide

end ChargerStack.Can.ModuleQueue
