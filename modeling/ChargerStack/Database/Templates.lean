/-
# Database.Templates -- the templates of database/dao/template.c on one prepared_stmt_t

Every template takes its statement with `prepared_stmt_get`, which locks the mutex and leaves it
locked unless it fails, works with it, and hands it back to `prepared_stmt_put`, which unlocks.
Many threads call templates; SQLite answers anything, any allocation may fail, and the
callbacks do not call the dao.

* `dbStep` runs a thread up to its next operation on the mutex or on its statement;
* `Safe` ties the lock, the statement that is checked out and the cache together, and
  `Safe.step` says that every step keeps it;
* `templates_safe`: over every interleaving, the mutex is released as often as it is taken, one
  statement at most is checked out and was compiled from the text of the call, no statement
  is touched or finalized after it was finalized, and nobody is stuck.
-/
import ChargerStack.Database.PreparedStmt

namespace ChargerStack.Database.Templates

open ChargerStack.Lib
open ChargerStack.Utils.LruCache
open ChargerStack.Database.PreparedStmt

set_option autoImplicit false

/-! ## The calls -/

/-- A call of a template: a `Bool` is a pointer that is null or not, a null text is `none`.
`base` stands behind create, delete, update and drop, `batchBase` behind batch create, and
`baseWithOption` behind the delete and the update with options, which are given by the
`sql_part` of each. -/
inductive Call where
  | createPkBackfill (ps : Bool) (sql : Option Key) (pk : Bool)
  | base (ps : Bool) (sql : Option Key)
  | select (ps : Bool) (sql : Option Key) (userp : Bool)
  | get (ps : Bool) (sql : Option Key) (unmarshalCb up : Bool)
  | batchBase (ps : Bool) (sql : Option Key) (batchSize : Int)
  | getWithOption (ps : Bool) (sql : Option Key) (options : Option (List Key)) (unmarshalCb : Bool)
  | baseWithOption (ps : Bool) (sql : Option Key) (options : Option (List Key))
  deriving DecidableEq, Repr

/-- The text that `dao_template_base_with_option` puts together; `format` is what
`utstring_printf` makes of a text it gets as its format. -/
def assemble (format : Key → Key) (sql : Key) (parts : List Key) : Key :=
  format sql ++ (parts.map format).flatten

/-- The text a call passes to `prepared_stmt_get`, unless it finds that it is misused. -/
def Call.text (format : Key → Key) : Call → Option Key
  | .createPkBackfill ps sql pk => if ps && pk then sql else none
  | .base ps sql => if ps then sql else none
  | .select ps sql userp => if ps && userp then sql else none
  | .get ps sql unmarshalCb up => if ps && unmarshalCb && up then sql else none
  | .batchBase ps sql _ => if ps then sql else none
  | .getWithOption ps sql options unmarshalCb =>
      if ps && unmarshalCb then sql.bind fun sql => options.map (assemble format sql) else none
  | .baseWithOption ps sql options =>
      if ps then sql.bind fun sql => options.map (assemble format sql) else none

/-- How a template steps its statement: once, as long as there are rows, or with a reset behind
every step of a batch. -/
inductive Loop where
  | once
  | rows
  | batch (size : Int)
  deriving DecidableEq, Repr

def Call.loop : Call → Loop
  | .createPkBackfill .. => .once
  | .base .. => .once
  | .select .. => .rows
  | .get .. => .rows
  | .batchBase _ _ batchSize => .batch batchSize
  | .getWithOption .. => .rows
  | .baseWithOption .. => .rows

/-! ## The threads -/

/-- Where a template stands with its statement. -/
inductive Body where
  /-- Before a step; the callbacks bind parameters and read columns here. -/
  | binding (i : Nat)
  /-- Behind a step of a batch. -/
  | resetting (i : Nat)
  /-- Before `prepared_stmt_put`. -/
  | finished
  deriving DecidableEq, Repr

def Loop.start : Loop → Body
  | .batch size => if 0 < size then .binding 0 else .finished
  | _ => .binding 0

/-- Behind `sqlite3_step`, which returned `SQLITE_ROW` or anything else. -/
def Loop.afterStep (row : Bool) (i : Nat) : Loop → Body
  | .once => .finished
  | .rows => if row then .binding i else .finished
  | .batch _ => .resetting i

def Loop.afterReset (i : Nat) : Loop → Body
  | .batch size => if ((i + 1 : Nat) : Int) < size then .binding (i + 1) else .finished
  | _ => .finished

/-- A call with the text it passes. -/
structure Job where
  call : Call
  sql : Key
  deriving DecidableEq, Repr

inductive Phase where
  | idle
  /-- At the lock of the mutex. -/
  | waiting (job : Job)
  /-- In `prepared_stmt_get`, behind the lock. -/
  | looking (job : Job)
  /-- With its statement. -/
  | running (job : Job) (stmt : Handle) (body : Body)
  deriving DecidableEq, Repr

/-- A `prepared_stmt_t` and the threads that use it; how often each has locked and unlocked the
mutex. -/
structure Sys where
  store : Store
  owner : Option Nat
  phase : Nat → Phase
  taken : Nat → Nat
  released : Nat → Nat

inductive Act where
  | call (call : Call)
  | lock
  | get (env : GetEnv)
  /-- A callback binds a parameter or reads a column. -/
  | access
  | step (row : Bool)
  | reset
  | put (busy : Bool) (env : Env)
  deriving DecidableEq, Repr

def Sys.goto (t : Nat) (phase : Phase) (s : Sys) : Sys :=
  { s with phase := Function.update s.phase t phase }

/-- `pthread_mutex_lock`, once the mutex is free. -/
def Sys.lock (t : Nat) (s : Sys) : Sys :=
  { s with owner := some t, taken := Function.update s.taken t (s.taken t + 1) }

/-- `pthread_mutex_unlock`. -/
def Sys.unlock (t : Nat) (s : Sys) : Sys :=
  { s with owner := none, released := Function.update s.released t (s.released t + 1) }

/-- An operation on the statement. -/
def Sys.touch (h : Handle) (s : Sys) : Sys := { s with store := PreparedStmt.touch h s.store }

/-- A thread runs up to its next operation on the mutex or on its statement. -/
def dbStep (format : Key → Key) (s : Sys) (lab : Nat × Act) : Option Sys :=
  match lab.2, s.phase lab.1 with
  | .call call, .idle =>
      match call.text format with
      | none => some s
      | some sql => some (s.goto lab.1 (.waiting ⟨call, sql⟩))
  | .lock, .waiting job =>
      if s.owner = none then some ((s.lock lab.1).goto lab.1 (.looking job)) else none
  | .get env, .looking job =>
      (preparedStmtGet env job.sql s.store).map fun r =>
        match r.2 with
        | none => (Sys.unlock lab.1 { s with store := r.1 }).goto lab.1 .idle
        | some h => (Sys.touch h { s with store := r.1 }).goto lab.1 (.running job h job.call.loop.start)
  | .access, .running _ h (.binding _) => some (s.touch h)
  | .step row, .running job h (.binding i) =>
      some ((s.touch h).goto lab.1 (.running job h (job.call.loop.afterStep row i)))
  | .reset, .running job h (.resetting i) =>
      some ((s.touch h).goto lab.1 (.running job h (job.call.loop.afterReset i)))
  | .put busy env, .running _ h .finished =>
      (preparedStmtPut busy env h s.store).map fun store =>
        (Sys.unlock lab.1 { s with store := store }).goto lab.1 .idle
  | _, _ => none

/-! ## What the threads keep -/

/-- The thread has the mutex. -/
def Phase.holds : Phase → Bool
  | .idle => false
  | .waiting _ => false
  | .looking _ => true
  | .running .. => true

def Phase.job : Phase → Option Job
  | .idle => none
  | .waiting job => some job
  | .looking job => some job
  | .running job _ _ => some job

/-- The statement that a thread has checked out. -/
def Phase.stmt : Phase → Option Handle
  | .running _ h _ => some h
  | _ => none

/-- The owner of the mutex is the thread behind its lock, which alone has a statement, and that
is a live one compiled from the text of its call. -/
structure Safe (format : Key → Key) (s : Sys) : Prop where
  store : ∃ l, Consistent s.store l
  owner : ∀ t, s.owner = some t ↔ (s.phase t).holds = true
  balance : ∀ t, s.taken t = s.released t + if s.owner = some t then 1 else 0
  job : ∀ t job, (s.phase t).job = some job → job.call.text format = some job.sql
  out : ∀ t job h body, s.phase t = .running job h body → s.store.stmts h = .live job.sql

variable {format : Key → Key} {s s' : Sys} {lab : Nat × Act} {t : Nat}

@[simp] theorem goto_phase (t : Nat) (phase : Phase) (s : Sys) : (s.goto t phase).phase t = phase :=
  Function.update_self ..

theorem goto_phase_other {u : Nat} (other : u ≠ t) (phase : Phase) (s : Sys) :
    (s.goto t phase).phase u = s.phase u := Function.update_of_ne other ..

@[simp] theorem goto_store (t : Nat) (phase : Phase) (s : Sys) : (s.goto t phase).store = s.store := rfl

@[simp] theorem goto_owner (t : Nat) (phase : Phase) (s : Sys) : (s.goto t phase).owner = s.owner := rfl

@[simp] theorem unlock_phase (t : Nat) (s : Sys) : (s.unlock t).phase = s.phase := rfl

@[simp] theorem unlock_store (t : Nat) (s : Sys) : (s.unlock t).store = s.store := rfl

/-- Two threads do not both hold the mutex. -/
theorem Safe.only (safe : Safe format s) {u : Nat} (here : (s.phase t).holds = true)
    (there : (s.phase u).holds = true) : u = t :=
  Option.some.inj (((safe.owner u).2 there).symm.trans ((safe.owner t).2 here))

/-- What holds of the thread that moves and of all the others. -/
theorem goto_forall {P : Nat → Phase → Prop} {phase : Phase} (here : P t phase)
    (there : ∀ u, u ≠ t → P u (s.phase u)) (u : Nat) : P u ((s.goto t phase).phase u) := by
  by_cases same : u = t
  · subst same
    rw [goto_phase]
    exact here
  · rw [goto_phase_other same]
    exact there u same

/-- The other threads are not behind the lock of a thread that is. -/
theorem Safe.outside (safe : Safe format s) (here : (s.phase t).holds = true) {u : Nat} (other : u ≠ t) :
    (s.phase u).holds ≠ true := fun there => other (safe.only here there)

theorem Safe.not_running {u : Nat} {job : Job} {h : Handle} {body : Body}
    (outside : (s.phase u).holds ≠ true) : s.phase u ≠ .running job h body := by
  intro running
  rw [running] at outside
  exact outside rfl

/-- A thread with the mutex goes on with its statement, and perhaps another store. -/
theorem Safe.goOn (safe : Safe format s) {store : Store} {job : Job} {h : Handle} {body : Body}
    (here : (s.phase t).holds = true) (text : job.call.text format = some job.sql)
    (consistent : ∃ l, Consistent store l) (live : store.stmts h = .live job.sql) :
    Safe format (Sys.goto t (.running job h body) { s with store := store }) := by
  have owned := (safe.owner t).2 here
  refine ⟨consistent, ?_, safe.balance, ?_, ?_⟩
  · refine goto_forall (P := fun u p => s.owner = some u ↔ p.holds = true) ?_ ?_
    · exact ⟨fun _ => rfl, fun _ => owned⟩
    · exact fun u _ => safe.owner u
  · refine goto_forall (P := fun _ p => ∀ job, p.job = some job → job.call.text format = some job.sql)
      ?_ ?_
    · intro job' found
      obtain rfl : job = job' := Option.some.inj found
      exact text
    · exact fun u _ => safe.job u
  · refine goto_forall (P := fun _ p => ∀ job h body, p = .running job h body →
      store.stmts h = .live job.sql) ?_ ?_
    · intro job' h' body' running
      obtain ⟨rfl, rfl, -⟩ := Phase.running.inj running
      exact live
    · exact fun u other job' h' body' running =>
        absurd running (Safe.not_running (safe.outside here other))

/-- A thread with the mutex unlocks it and returns. -/
theorem Safe.leave (safe : Safe format s) {store : Store} (here : (s.phase t).holds = true)
    (consistent : ∃ l, Consistent store l) :
    Safe format ((Sys.unlock t { s with store := store }).goto t .idle) := by
  have owned : s.owner = some t := (safe.owner t).2 here
  refine ⟨consistent, ?_, ?_, ?_, ?_⟩
  · refine goto_forall (P := fun u p => none = some u ↔ p.holds = true) ?_ ?_
    · simp [Phase.holds]
    · intro u other
      simpa using safe.outside here other
  · intro u
    have balance := safe.balance u
    show s.taken u = Function.update s.released t (s.released t + 1) u + 0
    by_cases same : u = t
    · subst same
      rw [owned, if_pos rfl] at balance
      rw [Function.update_self, balance]
    · rw [owned, if_neg (fun eq => same (Option.some.inj eq).symm)] at balance
      rw [Function.update_of_ne same, balance]
  · refine goto_forall (P := fun _ p => ∀ job, p.job = some job → job.call.text format = some job.sql)
      ?_ ?_
    · intro job found
      cases found
    · exact fun u _ => safe.job u
  · refine goto_forall (P := fun _ p => ∀ job h body, p = .running job h body →
      store.stmts h = .live job.sql) ?_ ?_
    · intro job h body running
      cases running
    · exact fun u other job h body running =>
        absurd running (Safe.not_running (safe.outside here other))

/-- A thread without the mutex goes to wait for it. -/
theorem Safe.wait (safe : Safe format s) {job : Job} (idle : s.phase t = .idle)
    (text : job.call.text format = some job.sql) : Safe format (s.goto t (.waiting job)) := by
  refine ⟨safe.store, ?_, safe.balance, ?_, ?_⟩
  · refine goto_forall (P := fun u p => s.owner = some u ↔ p.holds = true) ?_ ?_
    · rw [safe.owner t, idle]
      rfl
    · exact fun u _ => safe.owner u
  · refine goto_forall (P := fun _ p => ∀ job, p.job = some job → job.call.text format = some job.sql)
      ?_ ?_
    · intro job' found
      obtain rfl : job = job' := Option.some.inj found
      exact text
    · exact fun u _ => safe.job u
  · refine goto_forall (P := fun _ p => ∀ job h body, p = .running job h body →
      s.store.stmts h = .live job.sql) ?_ ?_
    · intro job' h body running
      cases running
    · exact fun u _ => safe.out u

/-- A thread takes the free mutex. -/
theorem Safe.enter (safe : Safe format s) {job : Job} (waiting : s.phase t = .waiting job)
    (free : s.owner = none) : Safe format ((s.lock t).goto t (.looking job)) := by
  refine ⟨safe.store, ?_, ?_, ?_, ?_⟩
  · refine goto_forall (P := fun u p => some t = some u ↔ p.holds = true) ?_ ?_
    · exact ⟨fun _ => rfl, fun _ => rfl⟩
    · intro u other
      have nobody := safe.owner u
      rw [free] at nobody
      show some t = some u ↔ (s.phase u).holds = true
      rw [← nobody, Option.some.injEq]
      simp [Ne.symm other]
  · intro u
    have balance := safe.balance u
    rw [free] at balance
    show Function.update s.taken t (s.taken t + 1) u = s.released u + if some t = some u then 1 else 0
    by_cases same : u = t
    · subst same
      rw [Function.update_self, if_pos rfl, balance]
      rfl
    · rw [Function.update_of_ne same, if_neg (fun eq => same (Option.some.inj eq).symm), balance]
      rfl
  · refine goto_forall (P := fun _ p => ∀ job, p.job = some job → job.call.text format = some job.sql)
      ?_ ?_
    · exact fun job' found => safe.job t job' (waiting ▸ found)
    · exact fun u _ => safe.job u
  · refine goto_forall (P := fun _ p => ∀ job h body, p = .running job h body →
      s.store.stmts h = .live job.sql) ?_ ?_
    · intro job' h body running
      cases running
    · exact fun u _ => safe.out u

/-- **Every step is safe.** -/
theorem Safe.step (safe : Safe format s) (moved : dbStep format s lab = some s') : Safe format s' := by
  obtain ⟨l, consistent⟩ := safe.store
  unfold dbStep at moved
  split at moved
  · rename_i call _ idle
    cases text : call.text format with
    | none =>
        rw [text] at moved
        obtain rfl := Option.some.inj moved
        exact safe
    | some sql =>
        rw [text] at moved
        obtain rfl := Option.some.inj moved
        exact safe.wait idle text
  · rename_i job _ waiting
    obtain ⟨free, moved⟩ := Option.ite_none_right_eq_some.1 moved
    obtain rfl := Option.some.inj moved
    exact safe.enter waiting free
  · rename_i env job _ looking
    obtain ⟨⟨store, answer⟩, got, rfl⟩ := Option.map_eq_some_iff.1 moved
    obtain ⟨next, live⟩ := consistent.get got
    have here : (s.phase lab.1).holds = true := by rw [looking]; rfl
    cases answer with
    | none => exact safe.leave here next
    | some h =>
        have compiled := live h rfl
        dsimp only
        rw [Sys.touch]
        dsimp only
        rw [touch_live compiled]
        exact safe.goOn here (safe.job lab.1 job (by rw [looking]; rfl)) next compiled
  · rename_i job h i _ running
    obtain rfl := Option.some.inj moved
    rw [Sys.touch, touch_live (safe.out _ _ _ _ running)]
    exact safe
  · rename_i row job h i _ running
    obtain rfl := Option.some.inj moved
    have live := safe.out _ _ _ _ running
    rw [Sys.touch, touch_live live]
    exact safe.goOn (by rw [running]; rfl) (safe.job lab.1 job (by rw [running]; rfl)) safe.store live
  · rename_i job h i _ running
    obtain rfl := Option.some.inj moved
    have live := safe.out _ _ _ _ running
    rw [Sys.touch, touch_live live]
    exact safe.goOn (by rw [running]; rfl) (safe.job lab.1 job (by rw [running]; rfl)) safe.store live
  · rename_i busy env job h _ running
    obtain ⟨store, put, rfl⟩ := Option.map_eq_some_iff.1 moved
    exact safe.leave (by rw [running]; rfl) (consistent.put (safe.out _ _ _ _ running) put)
  · cases moved

/-! ## Runs -/

/-- A new `prepared_stmt_t`, and nobody at it. -/
def newSys (cache : Cache) : Sys :=
  ⟨⟨cache, fun _ => .unused, false⟩, none, fun _ => .idle, fun _ => 0, fun _ => 0⟩

theorem safe_newSys (format : Key → Key) {new : Cache}
    (created : newLruCache maxKeyNum maxMem = some new) : Safe format (newSys new) := by
  refine ⟨⟨[], newLruCache_counted limits created, ?_, rfl⟩, ?_, fun _ => rfl, ?_, ?_⟩
  · intro e member
    cases member
  · intro t
    simp [newSys, Phase.holds]
  · intro t job found
    cases found
  · intro t job h body running
    cases running

/-- A lookup can find memory for the text of `print_cache`, and SQLite can refuse the text. -/
theorem preparedStmtGet_returns (key : Key) (s : Store) :
    ∃ r, preparedStmtGet ⟨finds 0, none, finds 0, []⟩ key s = some r := by
  have nothing : newPstmt none key = none := by
    unfold newPstmt
    split <;> rfl
  unfold preparedStmtGet lruCacheGet
  dsimp only
  cases s.cache.find key with
  | none =>
      rw [nothing]
      exact ⟨_, rfl⟩
  | some elt => exact ⟨_, rfl⟩

/-- **Nobody is stuck**: a thread in a call that has the mutex, or finds it free, can move. -/
theorem Safe.enabled (safe : Safe format s) (busy : s.phase t ≠ .idle)
    (free : s.owner = none ∨ s.owner = some t) : ∃ act s', dbStep format s (t, act) = some s' := by
  cases phase : s.phase t with
  | idle => exact absurd phase busy
  | waiting job =>
      have none : s.owner = none := free.resolve_right fun owned => by
        have holds := (safe.owner t).1 owned
        rw [phase] at holds
        cases holds
      refine ⟨.lock, (s.lock t).goto t (.looking job), ?_⟩
      simp only [dbStep, phase]
      rw [if_pos none]
  | looking job =>
      obtain ⟨r, got⟩ := preparedStmtGet_returns job.sql s.store
      refine ⟨.get ⟨finds 0, none, finds 0, []⟩, ?_⟩
      simp only [dbStep, phase, got, Option.map_some]
      exact ⟨_, rfl⟩
  | running job h body =>
      cases body with
      | binding i =>
          refine ⟨.access, s.touch h, ?_⟩
          simp only [dbStep, phase]
      | resetting i =>
          refine ⟨.reset, ?_⟩
          simp only [dbStep, phase]
          exact ⟨_, rfl⟩
      | finished =>
          refine ⟨.put false (finds 0), ?_⟩
          simp only [dbStep, phase]
          exact ⟨_, rfl⟩

/-- **The templates on one `prepared_stmt_t`.**  A thread that is not in a call has released the
mutex as often as it took it; one statement at most is checked out, and it is live and was
compiled from the text that its call passed; no statement has been touched or finalized
after it was finalized; and a thread that has the mutex, or finds it free, can go on. -/
theorem templates_safe (format : Key → Key) (new : Cache)
    (created : newLruCache maxKeyNum maxMem = some new) (labs : List (Nat × Act)) (s : Sys)
    (ran : exec (dbStep format) (newSys new) labs = some s) :
    (∀ t, s.phase t = .idle → s.released t = s.taken t) ∧
      (∀ t u h k, (s.phase t).stmt = some h → (s.phase u).stmt = some k → t = u) ∧
      (∀ t job h body, s.phase t = .running job h body →
        s.store.stmts h = .live job.sql ∧ job.call.text format = some job.sql) ∧
      s.store.misuse = false ∧
      ∀ t, s.phase t ≠ .idle → s.owner = none ∨ s.owner = some t →
        ∃ act s', dbStep format s (t, act) = some s' := by
  have safe : Safe format s :=
    exec_invariant (fun _ _ _ safe moved => safe.step moved) (safe_newSys format created) ran
  have holding : ∀ t h, (s.phase t).stmt = some h → (s.phase t).holds = true := by
    intro t h out
    cases phase : s.phase t with
    | running job stmt body => rfl
    | idle => rw [phase] at out; cases out
    | waiting job => rw [phase] at out; cases out
    | looking job => rw [phase] at out; cases out
  refine ⟨?_, ?_, ?_, ?_, ?_⟩
  · intro t idle
    have balance := safe.balance t
    have outside : s.owner ≠ some t := by
      rw [Ne, safe.owner t, idle]
      exact Bool.false_ne_true
    rw [if_neg outside] at balance
    exact balance.symm
  · intro t u h k out out'
    exact safe.only (holding u k out') (holding t h out)
  · intro t job h body running
    exact ⟨safe.out t job h body running, safe.job t job (by rw [running]; rfl)⟩
  · obtain ⟨l, consistent⟩ := safe.store
    exact consistent.sound
  · exact fun t busy free => safe.enabled busy free

/-- A thread steps its statement, another waits for the mutex and compiles a second one, and the
first statement is busy when it is handed back. -/
def twoThreads : List (Nat × Act) :=
  [(1, .call (.base true (some [97]))), (2, .call (.get true (some [98]) true true)), (1, .lock),
    (1, .get ⟨finds 1, some 7, finds 1, []⟩), (1, .access), (1, .step false), (1, .put true (finds 1)),
    (2, .lock), (2, .get ⟨finds 1, some 8, finds 2, []⟩), (2, .step true)]

theorem twoThreads_safe :
    ∃ new s, newLruCache maxKeyNum maxMem = some new ∧ exec (dbStep id) (newSys new) twoThreads = some s ∧
      s.store.stmts 7 = .finalized ∧ s.store.stmts 8 = .live [98] ∧ s.store.misuse = false ∧
      s.released 1 = s.taken 1 := by
  have reached : (exec (dbStep id) (newSys ((newLruCache maxKeyNum maxMem).get (by decide)))
      twoThreads).map (fun s => (s.store.stmts 7, s.store.stmts 8, s.phase 1)) =
      some (.finalized, .live [98], .idle) := by decide +kernel
  obtain ⟨s, ran, seen⟩ := Option.map_eq_some_iff.1 reached
  obtain ⟨balance, -, -, sound, -⟩ := templates_safe id _ (Option.some_get _).symm twoThreads s ran
  have first : s.store.stmts 7 = .finalized := congrArg Prod.fst seen
  have second : s.store.stmts 8 = .live [98] := congrArg (fun r => r.2.1) seen
  have idle : s.phase 1 = .idle := congrArg (fun r => r.2.2) seen
  exact ⟨_, s, (Option.some_get _).symm, ran, first, second, sound, balance 1 idle⟩

end ChargerStack.Database.Templates
