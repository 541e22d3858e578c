/-
# Lib.Executor -- a worker thread that runs what other threads post and wait for

Threads post tasks into one queue and wait for their results; one worker takes the tasks out
and runs them to their end.  A task is a tree: it changes what only the worker touches, it calls
to the outside and goes on with the answer, it returns, or it posts a task itself and waits for
that one's result.

* `Tame` describes a task: it has so many steps, and it comes to a post exactly behind an answer
  that is `bad` to its call;
* `InOrder` is the invariant of the runs without such answers: the tasks finished are the first
  ones posted, then comes the one the worker is at, then the queue;
* `Left` counts what is left until a task is finished, and every step of the worker makes it
  less (`left_step`, `finished_within`);
* `serves_iff`: a run serves every thread in every state exactly when no answer in it is bad;
* `blocked_forever`: once the worker is at a post, no task ever finishes again.
-/
import Mathlib.Data.List.Range
import Mathlib.Logic.Function.Basic
import ChargerStack.Lib.Run

namespace ChargerStack.Lib.Executor

set_option autoImplicit false

universe u v w x y

/-- A task over the memory `σ`, with calls `C` answered by `A`, that returns an `R`. -/
inductive Job (σ : Type u) (C : Type v) (A : Type w) (R : Type x) where
  | ret (r : R)
  /-- Changes the memory, and goes on by what was there. -/
  | move (write : σ → σ) (next : σ → Job σ C A R)
  /-- Calls to the outside; the answer changes the memory, and decides with it how to go on. -/
  | call (c : C) (write : σ → A → σ) (next : σ → A → Job σ C A R)
  /-- Posts a task and waits for its result. -/
  | post (inner : Job σ C A R) (next : R → Job σ C A R)

variable {σ : Type u} {C : Type v} {A : Type w} {R : Type x} {O : Type y}

namespace Job

def isPost : Job σ C A R → Bool
  | .post _ _ => true
  | _ => false

/-- At most so many steps are left, whatever the answers. -/
def Within : Nat → Job σ C A R → Prop
  | _, .ret _ => True
  | n + 1, .move _ next => ∀ s, Within n (next s)
  | n + 1, .call _ _ next => ∀ s a, Within n (next s a)
  | n + 1, .post _ next => ∀ r, Within n (next r)
  | 0, _ => False

/-- The task comes to a post exactly behind a call that is answered badly. -/
def PostsAfter (bad : C → A → Prop) : Job σ C A R → Prop
  | .ret _ => True
  | .move _ next => ∀ s, (next s).isPost = false ∧ PostsAfter bad (next s)
  | .call c _ next => ∀ s a, ((next s a).isPost = true ↔ bad c a) ∧ PostsAfter bad (next s a)
  | .post _ next => ∀ r, (next r).isPost = false ∧ PostsAfter bad (next r)

end Job

open Job

inductive Worker (σ : Type u) (C : Type v) (A : Type w) (R : Type x) where
  | idle
  | running (k : Nat) (task : Job σ C A R)
  /-- In a task that has posted the task `j` and waits for it. -/
  | waiting (k j : Nat) (next : R → Job σ C A R)

/-- A task is named by its number in the order of the posts. -/
structure System (σ : Type u) (C : Type v) (A : Type w) (R : Type x) where
  memory : σ
  queue : List (Nat × Job σ C A R)
  worker : Worker σ C A R
  posted : Nat
  /-- The futures. -/
  results : Nat → Option R
  /-- The task a thread waits for. -/
  callers : Nat → Option Nat

/-- Nothing posted, the worker waiting for work. -/
def start (memory : σ) : System σ C A R :=
  ⟨memory, [], .idle, 0, fun _ => none, fun _ => none⟩

inductive Label (A : Type w) (O : Type y) where
  /-- A thread posts the task of an operation and waits. -/
  | call (thread : Nat) (op : O)
  /-- It has the result. -/
  | return_ (thread : Nat)
  /-- The worker takes the front of the queue. -/
  | take
  | move
  | answer (a : A)
  /-- The worker posts from inside a task. -/
  | reenter
  | resume
  | finish

/-- A step of the worker. -/
def Label.ofWorker : Label A O → Bool
  | .call _ _ | .return_ _ => false
  | _ => true

variable (body : O → Job σ C A R)

def step (s : System σ C A R) : Label A O → Option (System σ C A R)
  | .call thread op =>
      match s.callers thread with
      | some _ => none
      | none => some { s with
          queue := s.queue ++ [(s.posted, body op)]
          posted := s.posted + 1
          callers := Function.update s.callers thread (some s.posted) }
  | .return_ thread =>
      match s.callers thread with
      | some k =>
          if (s.results k).isSome then
            some { s with callers := Function.update s.callers thread none }
          else none
      | none => none
  | .take =>
      match s.worker, s.queue with
      | .idle, (k, task) :: rest => some { s with worker := .running k task, queue := rest }
      | _, _ => none
  | .move =>
      match s.worker with
      | .running k (.move write next) =>
          some { s with memory := write s.memory, worker := .running k (next s.memory) }
      | _ => none
  | .answer a =>
      match s.worker with
      | .running k (.call _ write next) =>
          some { s with memory := write s.memory a, worker := .running k (next s.memory a) }
      | _ => none
  | .reenter =>
      match s.worker with
      | .running k (.post inner next) => some { s with
          queue := s.queue ++ [(s.posted, inner)]
          posted := s.posted + 1
          worker := .waiting k s.posted next }
      | _ => none
  | .resume =>
      match s.worker with
      | .waiting k j next => (s.results j).map fun r => { s with worker := .running k (next r) }
      | _ => none
  | .finish =>
      match s.worker with
      | .running k (.ret r) =>
          some { s with worker := .idle, results := Function.update s.results k (some r) }
      | _ => none

/-! ## What a step can do -/

inductive Moves (s : System σ C A R) : Label A O → System σ C A R → Prop where
  | call {thread : Nat} {op : O} (free : s.callers thread = none) :
      Moves s (.call thread op) { s with
        queue := s.queue ++ [(s.posted, body op)]
        posted := s.posted + 1
        callers := Function.update s.callers thread (some s.posted) }
  | return_ {thread k : Nat} (waits : s.callers thread = some k)
      (finished : (s.results k).isSome = true) :
      Moves s (.return_ thread) { s with callers := Function.update s.callers thread none }
  | take {k : Nat} {task : Job σ C A R} {rest : List (Nat × Job σ C A R)}
      (idle : s.worker = .idle) (front : s.queue = (k, task) :: rest) :
      Moves s .take { s with worker := .running k task, queue := rest }
  | move {k : Nat} {write : σ → σ} {next : σ → Job σ C A R}
      (running : s.worker = .running k (.move write next)) :
      Moves s .move { s with memory := write s.memory, worker := .running k (next s.memory) }
  | answer {a : A} {k : Nat} {c : C} {write : σ → A → σ} {next : σ → A → Job σ C A R}
      (running : s.worker = .running k (.call c write next)) :
      Moves s (.answer a)
        { s with memory := write s.memory a, worker := .running k (next s.memory a) }
  | reenter {k : Nat} {inner : Job σ C A R} {next : R → Job σ C A R}
      (running : s.worker = .running k (.post inner next)) :
      Moves s .reenter { s with
        queue := s.queue ++ [(s.posted, inner)]
        posted := s.posted + 1
        worker := .waiting k s.posted next }
  | resume {k j : Nat} {next : R → Job σ C A R} {r : R} (waits : s.worker = .waiting k j next)
      (finished : s.results j = some r) :
      Moves s .resume { s with worker := .running k (next r) }
  | finish {k : Nat} {r : R} (running : s.worker = .running k (.ret r)) :
      Moves s .finish { s with worker := .idle, results := Function.update s.results k (some r) }

variable {body}

theorem step_moves {s t : System σ C A R} {l : Label A O} (moved : step body s l = some t) :
    Moves body s l t := by
  cases l <;> simp only [step] at moved
  case call thread op =>
      split at moved <;> cases moved
      exact .call ‹_›
  case return_ thread =>
      split at moved
      · split at moved <;> cases moved
        exact .return_ ‹_› ‹_›
      · cases moved
  case take =>
      split at moved <;> cases moved
      exact .take ‹_› ‹_›
  case move =>
      split at moved <;> cases moved
      exact .move ‹_›
  case answer a =>
      split at moved <;> cases moved
      exact .answer ‹_›
  case reenter =>
      split at moved <;> cases moved
      exact .reenter ‹_›
  case resume =>
      split at moved
      · obtain ⟨r, finished, rfl⟩ := Option.map_eq_some_iff.1 moved
        exact .resume ‹_› finished
      · cases moved
  case finish =>
      split at moved <;> cases moved
      exact .finish ‹_›

/-! ## Order -/

/-- The worker is not about to wait for a task only it can run. -/
def Calm (s : System σ C A R) : Prop :=
  match s.worker with
  | .idle => True
  | .running _ task => task.isPost = false
  | .waiting _ _ _ => False

/-- A task of at most `D` steps that posts exactly behind bad answers. -/
structure Tame (bad : C → A → Prop) (D : Nat) (task : Job σ C A R) : Prop where
  within : Within D task
  posts : PostsAfter bad task
  calm : task.isPost = false

/-- The task the worker is at, by number. -/
def busy (s : System σ C A R) : Nat :=
  match s.worker with
  | .idle => 0
  | _ => 1

/-- The first `m` tasks have finished, the next one is being run, and the others wait in their
order. -/
structure InOrder (bad : C → A → Prop) (D m : Nat) (s : System σ C A R) : Prop where
  results : ∀ k, (s.results k).isSome = true ↔ k < m
  working : match s.worker with
    | .idle => True
    | .running k task => k = m ∧ Tame bad D task
    | .waiting _ _ _ => False
  queue : s.queue.map Prod.fst = List.range' (m + busy s) s.queue.length
  posted : s.posted = m + busy s + s.queue.length
  tame : ∀ entry ∈ s.queue, Tame bad D entry.2

/-- The condition on one step: no call is answered badly. -/
def Fine (bad : C → A → Prop) (s : System σ C A R) : Label A O → Prop
  | .answer a => ∀ k c write next, s.worker = .running k (.call c write next) → ¬ bad c a
  | _ => True

variable {bad : C → A → Prop} {D m : Nat} {s t : System σ C A R} {l : Label A O}

theorem inOrder_start (memory : σ) : InOrder bad D 0 (start memory : System σ C A R) where
  results := by intro k; simp [start]
  working := trivial
  queue := rfl
  posted := rfl
  tame := by intro entry member; cases member

theorem InOrder.calm (order : InOrder bad D m s) : Calm s := by
  have working := order.working
  unfold Calm
  split
  · trivial
  · rename_i k task running
    rw [running] at working
    exact working.2.calm
  · rename_i waits
    rw [waits] at working
    exact working

theorem Job.Within.mono {n : Nat} {task : Job σ C A R} (within : Within n task) {k : Nat}
    (more : n ≤ k) : Within k task := by
  induction n generalizing k task with
  | zero => cases task <;> cases k <;> trivial
  | succ n ih =>
      cases k with
      | zero => omega
      | succ k =>
          cases task with
          | ret r => trivial
          | move write next => exact fun s => ih (within s) (by omega)
          | call c write next => exact fun s a => ih (within s a) (by omega)
          | post inner next => exact fun r => ih (within r) (by omega)

theorem Tame.afterMove {write : σ → σ} {next : σ → Job σ C A R}
    (tame : Tame bad D (.move write next)) (memory : σ) : Tame bad D (next memory) := by
  obtain ⟨within, posts, -⟩ := tame
  obtain ⟨calm, later⟩ := posts memory
  cases D with
  | zero => exact within.elim
  | succ D => exact ⟨(within memory).mono (Nat.le_succ D), later, calm⟩

theorem Tame.afterCall {c : C} {write : σ → A → σ} {next : σ → A → Job σ C A R}
    (tame : Tame bad D (.call c write next)) (memory : σ) {a : A} (good : ¬ bad c a) :
    Tame bad D (next memory a) := by
  obtain ⟨within, posts, -⟩ := tame
  obtain ⟨exact_, later⟩ := posts memory a
  cases D with
  | zero => exact within.elim
  | succ D =>
      exact ⟨(within memory a).mono (Nat.le_succ D), later, Bool.eq_false_iff.2 (mt exact_.1 good)⟩

/-- A task posted at the end of the queue. -/
theorem InOrder.enqueue (order : InOrder bad D m s) {task : Job σ C A R} (tame : Tame bad D task)
    (queue : t.queue = s.queue ++ [(s.posted, task)]) (posted : t.posted = s.posted + 1)
    (worker : t.worker = s.worker) (results : t.results = s.results) : InOrder bad D m t where
  results := by rw [results]; exact order.results
  working := by rw [worker]; exact order.working
  queue := by
    have same : busy t = busy s := by unfold busy; rw [worker]
    rw [queue, List.map_append, order.queue, same, order.posted, List.length_append,
      List.length_singleton, List.range'_append_1.symm]
    rfl
  posted := by
    have same : busy t = busy s := by unfold busy; rw [worker]
    rw [posted, queue, same, order.posted, List.length_append, List.length_singleton]
    omega
  tame := by
    intro entry member
    rw [queue] at member
    rcases List.mem_append.1 member with old | new
    · exact order.tame entry old
    · obtain rfl := List.mem_singleton.1 new
      exact tame

/-- A step of the running task. -/
theorem InOrder.work (order : InOrder bad D m s) {k : Nat} {task next : Job σ C A R}
    (running : s.worker = .running k task) (tame : Tame bad D next)
    (worker : t.worker = .running k next) (queue : t.queue = s.queue)
    (posted : t.posted = s.posted) (results : t.results = s.results) : InOrder bad D m t where
  results := by rw [results]; exact order.results
  working := by
    have working := order.working
    rw [running] at working
    rw [worker]
    exact ⟨working.1, tame⟩
  queue := by
    have same : busy t = busy s := by simp [busy, running, worker]
    rw [queue, same]
    exact order.queue
  posted := by
    have same : busy t = busy s := by simp [busy, running, worker]
    rw [posted, queue, same]
    exact order.posted
  tame := by rw [queue]; exact order.tame

theorem InOrder.take (order : InOrder bad D m s) {k : Nat} {task : Job σ C A R}
    {rest : List (Nat × Job σ C A R)} (idle : s.worker = .idle) (front : s.queue = (k, task) :: rest) :
    InOrder bad D m { s with worker := .running k task, queue := rest } := by
  have queue := order.queue
  have posted := order.posted
  have free : busy s = 0 := by simp [busy, idle]
  simp only [front, free, List.map_cons, List.length_cons, List.range'_succ, Nat.add_zero,
    List.cons.injEq] at queue posted
  refine ⟨order.results, ⟨queue.1, ?_⟩, queue.2, ?_, ?_⟩
  · exact order.tame (k, task) (by rw [front]; exact List.mem_cons_self)
  · show s.posted = m + 1 + rest.length
    omega
  · intro entry member
    exact order.tame entry (by rw [front]; exact List.mem_cons_of_mem _ member)

theorem InOrder.finish (order : InOrder bad D m s) {k : Nat} {r : R}
    (running : s.worker = .running k (.ret r)) :
    InOrder bad D (m + 1)
      { s with worker := .idle, results := Function.update s.results k (some r) } := by
  have working := order.working
  rw [running] at working
  obtain ⟨rfl, -⟩ := working
  have occupied : busy s = 1 := by simp [busy, running]
  refine ⟨?_, trivial, ?_, ?_, order.tame⟩
  · intro j
    by_cases here : j = k
    · subst here
      simp
    · have before := order.results j
      simp only [Function.update_of_ne here, before]
      omega
  · have queue := order.queue
    rw [occupied] at queue
    exact queue
  · have posted := order.posted
    rw [occupied] at posted
    exact posted

/-! ## Progress -/

/-- At most `n` steps of the worker are left until the task `k` is finished. -/
def Left (D m : Nat) (s : System σ C A R) (k n : Nat) : Prop :=
  k < m ∨ match s.worker with
    | .idle => (k + 1 - m) * (D + 2) ≤ n
    | .running _ task => ∃ d, Within d task ∧ d + 1 + (k - m) * (D + 2) ≤ n
    | .waiting _ _ _ => False

/-- A posted task has a bounded number of steps left. -/
theorem InOrder.left (order : InOrder bad D m s) {k : Nat} : Left D m s k ((D + 2) * (k + 1)) := by
  have working := order.working
  by_cases finished : k < m
  · exact .inl finished
  · right
    have fewer : k + 1 - m ≤ k + 1 := Nat.sub_le _ _
    split
    · rw [Nat.mul_comm]
      exact Nat.mul_le_mul_left _ fewer
    · rename_i j task running
      rw [running] at working
      refine ⟨D, working.2.within, ?_⟩
      have product : (k - m) * (D + 2) + (D + 2) = (k - m + 1) * (D + 2) := (Nat.succ_mul _ _).symm
      have bound : (k - m + 1) * (D + 2) ≤ (k + 1) * (D + 2) := Nat.mul_le_mul_right _ (by omega)
      rw [Nat.mul_comm (D + 2)]
      omega
    · rename_i waits
      rw [waits] at working
      exact working

theorem Left.mono {k n n' : Nat} (left : Left D m s k n) (more : n ≤ n') : Left D m s k n' := by
  refine left.imp_right fun left => ?_
  split at left
  · exact Nat.le_trans left more
  · obtain ⟨d, within, fewer⟩ := left
    exact ⟨d, within, Nat.le_trans fewer more⟩
  · exact left

/-- Nothing is left of a finished task only. -/
theorem Left.finished {k : Nat} (left : Left D m s k 0) : k < m := by
  rcases left with finished | left
  · exact finished
  · split at left
    · have none_ : k + 1 - m = 0 := by
        rcases Nat.mul_eq_zero.1 (Nat.le_zero.1 left) with none_ | impossible
        · exact none_
        · omega
      omega
    · obtain ⟨d, -, fewer⟩ := left
      omega
    · exact left.elim

/-- **Every step of the worker leaves one less**, and the steps of the threads leave as much. -/
theorem left_step (tame : ∀ op, Tame bad D (body op)) (fine : Fine bad s l)
    (order : InOrder bad D m s) (moved : step body s l = some t) :
    ∃ m', InOrder bad D m' t ∧ ∀ k n, Left D m s k (if l.ofWorker then n + 1 else n) →
      Left D m' t k n := by
  have working := order.working
  cases step_moves moved with
  | @call thread op free => exact ⟨m, order.enqueue (tame op) rfl rfl rfl rfl, fun _ _ left => left⟩
  | return_ =>
      exact ⟨m, ⟨order.results, order.working, order.queue, order.posted, order.tame⟩,
        fun _ _ left => left⟩
  | take idle front =>
      have taken := order.take idle front
      refine ⟨m, taken, fun k n left => ?_⟩
      rcases Nat.lt_or_ge k m with finished | pending
      · exact .inl finished
      · rcases left with finished | left
        · exact .inl finished
        · rw [idle] at left
          have left : (k + 1 - m) * (D + 2) ≤ n + 1 := left
          have here : k + 1 - m = k - m + 1 := by omega
          rw [here, Nat.succ_mul] at left
          exact .inr ⟨D, taken.working.2.within, by omega⟩
  | move running =>
      rw [running] at working
      refine ⟨m, order.work running (working.2.afterMove s.memory) rfl rfl rfl rfl, fun k n left => ?_⟩
      refine left.imp_right fun left => ?_
      rw [running] at left
      obtain ⟨d, within, fewer⟩ := left
      have fewer : d + 1 + (k - m) * (D + 2) ≤ n + 1 := fewer
      cases d with
      | zero => exact within.elim
      | succ d => exact ⟨d, within s.memory, by omega⟩
  | answer running =>
      rw [running] at working
      refine ⟨m, order.work running (working.2.afterCall s.memory (fine _ _ _ _ running)) rfl rfl rfl
        rfl, fun k n left => ?_⟩
      refine left.imp_right fun left => ?_
      rw [running] at left
      obtain ⟨d, within, fewer⟩ := left
      have fewer : d + 1 + (k - m) * (D + 2) ≤ n + 1 := fewer
      cases d with
      | zero => exact within.elim
      | succ d => exact ⟨d, within s.memory _, by omega⟩
  | reenter running =>
      rw [running] at working
      exact absurd working.2.calm (by simp [isPost])
  | resume waits =>
      rw [waits] at working
      exact working.elim
  | finish running =>
      refine ⟨m + 1, order.finish running, fun k n left => ?_⟩
      rcases Nat.lt_or_ge k (m + 1) with finished | later
      · exact .inl finished
      · right
        rcases left with finished | left
        · omega
        · rw [running] at left
          obtain ⟨d, -, fewer⟩ := left
          have fewer : d + 1 + (k - m) * (D + 2) ≤ n + 1 := fewer
          show (k + 1 - (m + 1)) * (D + 2) ≤ n
          rw [Nat.add_sub_add_right]
          omega

/-- The steps of the worker in a run. -/
def workerSteps (ls : List (Label A O)) : Nat := ls.countP Label.ofWorker

/-- **After so many steps of the worker the task is finished**, whatever the threads do in
between. -/
theorem finished_within (tame : ∀ op, Tame bad D (body op)) {ls : List (Label A O)}
    (fine : Along (step body) (Fine bad) s ls) (order : InOrder bad D m s)
    (ran : exec (step body) s ls = some t) {k n : Nat} (left : Left D m s k n)
    (enough : n ≤ workerSteps ls) : (t.results k).isSome = true := by
  induction ls generalizing s m n with
  | nil =>
      obtain rfl : s = t := by simpa using ran
      obtain rfl : n = 0 := Nat.le_zero.1 enough
      exact (order.results k).2 left.finished
  | cons l ls ih =>
      obtain ⟨u, moved, ran⟩ := exec_cons.1 ran
      obtain ⟨m', order', less⟩ := left_step tame fine.1 order moved
      have count : workerSteps (l :: ls) = workerSteps ls + if l.ofWorker then 1 else 0 :=
        List.countP_cons
      rw [count] at enough
      cases worker : l.ofWorker with
      | false =>
          rw [worker] at less enough
          exact ih (fine.2 u moved) order' ran (less k n left) (by simpa using enough)
      | true =>
          rw [worker] at less enough
          have fewer := less k (n - 1) (left.mono (by simp; omega))
          exact ih (fine.2 u moved) order' ran fewer (by simp at enough; omega)

/-! ## Serving -/

/-- What every thread can rely on in a state. -/
structure Serves (bad : C → A → Prop) (body : O → Job σ C A R) (D : Nat) (s : System σ C A R) : Prop where
  /-- No task posts and waits. -/
  calm : Calm s
  /-- Tasks finish in the order of the posts. -/
  inOrder : ∀ j k, j ≤ k → (s.results k).isSome = true → (s.results j).isSome = true
  /-- The worker can go on while a task is unfinished. -/
  goesOn : ∀ k < s.posted, s.results k = none →
    ∃ l : Label A O, l.ofWorker = true ∧ (step body s l).isSome = true
  /-- Every task finishes within a number of the worker's steps that its place gives. -/
  finishes : ∀ k < s.posted, ∀ (ls : List (Label A O)) t, exec (step body) s ls = some t →
    Along (step body) (Fine bad) s ls → (D + 2) * (k + 1) ≤ workerSteps ls →
      (t.results k).isSome = true
  /-- The thread that waits for a finished task returns. -/
  returns : ∀ thread k, s.callers thread = some k → (s.results k).isSome = true →
    (step body s (.return_ thread)).isSome = true

theorem InOrder.serves [Inhabited A] (tame : ∀ op, Tame bad D (body op))
    (order : InOrder bad D m s) : Serves bad body D s where
  calm := order.calm
  inOrder := by
    intro j k le finished
    rw [order.results] at finished ⊢
    omega
  goesOn := by
    intro k posted unfinished
    have pending : ¬ k < m := by
      rw [← order.results k, unfinished]
      simp
    have working := order.working
    cases worker : s.worker with
    | idle =>
        have count := order.posted
        rw [show busy s = 0 by simp [busy, worker]] at count
        cases front : s.queue with
        | nil =>
            rw [front] at count
            simp at count
            omega
        | cons entry rest => exact ⟨.take, rfl, by simp [step, worker, front]⟩
    | running j task =>
        rw [worker] at working
        cases task with
        | ret r => exact ⟨.finish, rfl, by simp [step, worker]⟩
        | move write next => exact ⟨.move, rfl, by simp [step, worker]⟩
        | call c write next => exact ⟨.answer default, rfl, by simp [step, worker]⟩
        | post inner next => exact absurd working.2.calm (by simp [isPost])
    | waiting j i next =>
        rw [worker] at working
        exact working.elim
  finishes := fun _ _ _ _ ran fine enough => finished_within tame fine order ran order.left enough
  returns := by
    intro thread k waits finished
    simp [step, waits, finished]

/-- **Exactly when every thread is served.**  The tasks being tame, a run serves the threads in
every state if and only if no call in it is answered badly. -/
theorem serves_iff [Inhabited A] (tame : ∀ op, Tame bad D (body op)) {memory : σ}
    {ls : List (Label A O)} (ran : exec (step body) (start memory) ls = some t) :
    Always (step body) (Serves bad body D) (start memory) ls ↔
      Along (step body) (Fine bad) (start memory) ls := by
  have holds : ∀ s, (∃ m, InOrder bad D m s) → Serves bad body D s := by
    rintro s ⟨m, order⟩
    exact order.serves tame
  have kept : ∀ s l t, Fine bad s l → (∃ m, InOrder bad D m s) → step body s l = some t →
      ∃ m, InOrder bad D m t := by
    rintro s l t fine ⟨m, order⟩ moved
    obtain ⟨m', order', -⟩ := left_step tame fine order moved
    exact ⟨m', order'⟩
  have needs : ∀ s l t, (∃ m, InOrder bad D m s) → step body s l = some t →
      Serves bad body D t → Fine bad s l := by
    rintro s l t ⟨m, order⟩ moved serves
    cases l with
    | answer a =>
        intro k c write next running isBad
        have working := order.working
        rw [running] at working
        have posts := ((working.2.posts s.memory a).1.2 isBad)
        cases step_moves moved with
        | answer running' =>
            obtain ⟨-, same⟩ := Worker.running.inj (running.symm.trans running')
            cases same
            have calm := serves.calm
            simp only [Calm] at calm
            rw [posts] at calm
            cases calm
    | _ => trivial
  exact always_iff_along holds kept needs ⟨0, inOrder_start memory⟩ ran

/-! ## A post from inside a task -/

/-- The worker waits for a task that only it can run. -/
def Blocked (s : System σ C A R) : Prop :=
  ∃ k j next, s.worker = .waiting k j next ∧ s.results j = none

theorem blocked_step (blocked : Blocked s) (moved : step body s l = some t) :
    Blocked t ∧ t.results = s.results := by
  obtain ⟨k, j, next, waits, unfinished⟩ := blocked
  cases step_moves moved with
  | call | return_ => exact ⟨⟨k, j, next, waits, unfinished⟩, rfl⟩
  | resume waits' finished =>
      obtain ⟨-, rfl, -⟩ := Worker.waiting.inj (waits.symm.trans waits')
      rw [unfinished] at finished
      cases finished
  | take busy => rw [waits] at busy; cases busy
  | move busy => rw [waits] at busy; cases busy
  | answer busy => rw [waits] at busy; cases busy
  | reenter busy => rw [waits] at busy; cases busy
  | finish busy => rw [waits] at busy; cases busy

/-- **No task finishes any more** once the worker waits for a task behind it. -/
theorem blocked_forever {ls : List (Label A O)} (blocked : Blocked s)
    (ran : exec (step body) s ls = some t) : t.results = s.results := by
  have kept : ∀ u l v, (Blocked u ∧ u.results = s.results) → step body u l = some v →
      Blocked v ∧ v.results = s.results :=
    fun u l v inv moved => ⟨(blocked_step inv.1 moved).1, (blocked_step inv.1 moved).2.trans inv.2⟩
  exact (exec_invariant kept ⟨blocked, rfl⟩ ran).2

end ChargerStack.Lib.Executor
