/-
# Ocpp.DbExecutor -- the database operations and the thread that runs them

`Database` and `Database::Query` wrap the body of every operation in a task that they post to
`DBExecutor` and wait for.  The bodies are given with their SQLite calls, which answer what
they like.  One of them reaches a `postAndWait`: `open` asks `lastError` for the text of a
failed `sqlite3_open_v2`.

* `tame_task`: the other bodies never post, and `open` posts exactly behind that failure;
* `database_serves_iff`: in a run of any operations of any threads nothing blocks exactly when
  no `sqlite3_open_v2` fails;
* `failed_open_blocks`: one that fails stops the worker, and no operation ever finishes again.
-/
import ChargerStack.Cxx.Basic
import ChargerStack.Lib.Executor

namespace ChargerStack.Ocpp.DbExecutor

open ChargerStack.Lib
open ChargerStack.Lib.Executor
open ChargerStack.Cxx

set_option autoImplicit false

def sqliteOk : Int := 0
def sqliteRow : Int := 100
def sqliteDone : Int := 101
/-- `SQLITE_NULL`, a column type. -/
def sqliteNull : Int := 5

/-! ## SQLite -/

/-- An `sqlite3 *` or an `sqlite3_stmt *`. -/
abbrev Pointer := Option Nat

/-- What one of the `sqlite3_bind` functions is handed. -/
inductive Argument where
  | null
  | blob (bytes : Option (List UInt8))
  | int (n : Int)
  | int64 (n : Int)
  | double (bits : UInt64)
  | text (s : String)
  deriving DecidableEq

/-- The `sqlite3_column` functions. -/
inductive Column where
  | type | blob | bytes | int | double | int64 | text
  deriving DecidableEq, Repr

inductive Call where
  | openV2 (path : String)
  | exec (db : Pointer) (sql : String)
  | closeV2 (db : Nat)
  | prepareV2 (db : Nat) (sql : String)
  | errmsg (db : Nat)
  | finalize (stmt : Nat)
  | reset (stmt : Pointer)
  | clearBindings (stmt : Pointer)
  | bind (stmt : Pointer) (number : Int) (value : Argument)
  | step (stmt : Pointer)
  | column (f : Column) (stmt : Pointer) (column : Int)
  deriving DecidableEq

/-- An answer: the result code or the number returned, what is written through an out parameter,
and the bytes a returned pointer leads to, none when it is null. -/
structure Answer where
  code : Int := 0
  pointer : Pointer := none
  bytes : Option (List UInt8) := none
  text : Option String := none
  double : UInt64 := 0
  deriving Inhabited, DecidableEq

/-! ## Memory -/

/-- `Database::Query`, with the number of its database. -/
structure Query where
  database : Nat
  stmt : Pointer
  hasRows : Bool := false
  deriving DecidableEq

/-- The `m_db` of every database, and the queries made so far. -/
structure Memory where
  db : Nat → Pointer := fun _ => none
  queries : List Query := []

namespace Memory

def setDb (m : Memory) (d : Nat) (p : Pointer) : Memory := { m with db := Function.update m.db d p }

def modifyQuery (m : Memory) (q : Nat) (f : Query → Query) : Memory :=
  { m with queries := m.queries.modify q f }

def setRows (m : Memory) (q : Nat) (rows : Bool) : Memory :=
  m.modifyQuery q fun query => { query with hasRows := rows }

def stmt (m : Memory) (q : Nat) : Pointer := m.queries[q]?.bind Query.stmt

end Memory

/-- What an operation returns; a query by its number, none for `nullptr`. -/
inductive Result where
  | unit
  | bool (b : Bool)
  | text (s : String)
  | query (q : Option Nat)
  | blob (bytes : List UInt8)
  | double (bits : UInt64)
  | int (n : Int)
  deriving DecidableEq

abbrev Task := Job Memory Call Answer Result

/-! ## The operations of a database -/

/-- A call that leaves the members as they are. -/
def ask (c : Call) (next : Answer → Task) : Task := .call c (fun m _ => m) fun _ a => next a

/-- A body that starts by reading the members. -/
def read (next : Memory → Task) : Task := .move id next

/-- `Database::lastError`. -/
def lastError (d : Nat) : Task :=
  read fun m =>
    match m.db d with
    | none => .ret (.text "")
    | some db => ask (.errmsg db) fun a => .ret (.text (a.text.getD ""))

/-- `Database::open`. -/
def open_ (d : Nat) (path : String) : Task :=
  read fun m =>
    match m.db d with
    | some _ => .ret (.bool true)
    | none =>
        .call (.openV2 path) (fun m a => m.setDb d a.pointer) fun _ a =>
          if a.code ≠ sqliteOk then .post (lastError d) fun _ => .ret (.bool false)
          else
            ask (.exec a.pointer "PRAGMA journal_mode=DELETE;") fun _ =>
              ask (.exec a.pointer "PRAGMA synchronous=FULL;") fun _ => .ret (.bool true)

/-- `Database::close`. -/
def close (d : Nat) : Task :=
  read fun m =>
    match m.db d with
    | none => .ret (.bool false)
    | some db => .call (.closeV2 db) (fun m _ => m.setDb d none) fun _ _ => .ret (.bool true)

/-- `Database::query`. -/
def query (d : Nat) (sql : String) : Task :=
  read fun m =>
    match m.db d with
    | none => .ret (.query none)
    | some db =>
        ask (.prepareV2 db sql) fun a =>
          if a.code ≠ sqliteOk then ask (.errmsg db) fun _ => .ret (.query none)
          else
            .move (fun m => { m with queries := m.queries ++ [{ database := d, stmt := a.pointer }] })
              fun m => .ret (.query (some m.queries.length))

/-! ## The operations of a query -/

/-- `~Query`, of which only the finalization is posted. -/
def destroy (q : Nat) : Task :=
  .move (fun m => m.modifyQuery q fun query => { query with stmt := none }) fun m =>
    match m.stmt q with
    | none => .ret .unit
    | some stmt => ask (.finalize stmt) fun _ => .ret .unit

def reset (q : Nat) : Task :=
  read fun m =>
    ask (.reset (m.stmt q)) fun _ =>
      .call (.clearBindings (m.stmt q)) (fun m _ => m.setRows q false) fun _ _ => .ret .unit

/-- The value of an overload of `bind`. -/
inductive Bound where
  | null
  | blob (value : List UInt8)
  | bool (value : Bool)
  | double (bits : UInt64)
  | int32 (value : Int)
  | uint32 (value : Nat)
  | int64 (value : Int)
  | uint64 (value : Nat)
  | string (value : String)
  | cString (value : String)
  deriving DecidableEq

/-- The function and the value each overload calls; a `uint64_t` goes through `int64_t`. -/
def Bound.argument : Bound → Argument
  | .null => .null
  | .blob value => .blob (if value.isEmpty then none else some value)
  | .bool value => .int (if value then 1 else 0)
  | .double bits => .double bits
  | .int32 value => .int value
  | .uint32 value => .int64 value
  | .int64 value => .int64 value
  | .uint64 value => .int64 (Int.bmod value (2 ^ 64))
  | .string value | .cString value => .text (cStr value)

def bind (q : Nat) (number : Int) (value : Bound) : Task :=
  read fun m =>
    ask (.bind (m.stmt q) number value.argument) fun a => .ret (.bool (a.code = sqliteOk))

def exec (q : Nat) : Task :=
  .move (fun m => m.setRows q false) fun m =>
    .call (.step (m.stmt q)) (fun m a => if a.code = sqliteRow then m.setRows q true else m)
      fun _ a => .ret (.bool (a.code = sqliteRow || a.code = sqliteDone))

def next (q : Nat) : Task :=
  read fun m =>
    .call (.step (m.stmt q)) (fun m a => if a.code = sqliteRow then m.setRows q true else m)
      fun _ a => .ret (.bool (a.code = sqliteRow))

/-- `Query::lastError`: that of its database. -/
def queryLastError (q : Nat) : Task := read fun m => lastError ((m.queries[q]?.map Query.database).getD 0)

/-- A getter: one of the column functions, and what it makes of the answer. -/
def column (f : Column) (result : Answer → Result) (q : Nat) (column : Int) : Task :=
  read fun m => ask (.column f (m.stmt q) column) fun a => .ret (result a)

def isNull : Nat → Int → Task := column .type fun a => .bool (a.code = sqliteNull)

def getBlob (q : Nat) (column : Int) : Task :=
  read fun m =>
    ask (.column .blob (m.stmt q) column) fun a =>
      match a.bytes with
      | none => .ret (.blob [])
      | some bytes =>
          ask (.column .bytes (m.stmt q) column) fun size =>
            .ret (.blob (bytes.take size.code.toNat))

def getBool : Nat → Int → Task := column .int fun a => .bool (a.code ≠ 0)

def getFloat : Nat → Int → Task := column .double fun a => .double a.double

def getInt32 : Nat → Int → Task := column .int fun a => .int a.code

def getUInt32 : Nat → Int → Task := column .int64 fun a => .int (uint32 a.code)

def getInt64 : Nat → Int → Task := column .int64 fun a => .int a.code

def getUInt64 : Nat → Int → Task := column .int64 fun a => .int (a.code % 2 ^ 64)

def getString : Nat → Int → Task := column .text fun a => .text (a.text.getD "")

/-! ## Operations -/

/-- The operations that post; `sanitizeIdentifier` and `hasRows` do not. -/
inductive Op where
  | open_ (d : Nat) (path : String)
  | close (d : Nat)
  | query (d : Nat) (sql : String)
  | lastError (d : Nat)
  | destroy (q : Nat)
  | reset (q : Nat)
  | bind (q : Nat) (number : Int) (value : Bound)
  | exec (q : Nat)
  | next (q : Nat)
  | queryLastError (q : Nat)
  | isNull (q : Nat) (column : Int)
  | getBlob (q : Nat) (column : Int)
  | getBool (q : Nat) (column : Int)
  | getFloat (q : Nat) (column : Int)
  | getInt32 (q : Nat) (column : Int)
  | getUInt32 (q : Nat) (column : Int)
  | getInt64 (q : Nat) (column : Int)
  | getUInt64 (q : Nat) (column : Int)
  | getString (q : Nat) (column : Int)
  deriving DecidableEq

def Op.task : Op → Task
  | .open_ d path => DbExecutor.open_ d path
  | .close d => DbExecutor.close d
  | .query d sql => DbExecutor.query d sql
  | .lastError d => DbExecutor.lastError d
  | .destroy q => DbExecutor.destroy q
  | .reset q => DbExecutor.reset q
  | .bind q number value => DbExecutor.bind q number value
  | .exec q => DbExecutor.exec q
  | .next q => DbExecutor.next q
  | .queryLastError q => DbExecutor.queryLastError q
  | .isNull q column => DbExecutor.isNull q column
  | .getBlob q column => DbExecutor.getBlob q column
  | .getBool q column => DbExecutor.getBool q column
  | .getFloat q column => DbExecutor.getFloat q column
  | .getInt32 q column => DbExecutor.getInt32 q column
  | .getUInt32 q column => DbExecutor.getUInt32 q column
  | .getInt64 q column => DbExecutor.getInt64 q column
  | .getUInt64 q column => DbExecutor.getUInt64 q column
  | .getString q column => DbExecutor.getString q column

/-- The answer that makes a task post: a failed `sqlite3_open_v2`. -/
def OpenFails (c : Call) (a : Answer) : Prop :=
  match c with
  | .openV2 _ => a.code ≠ sqliteOk
  | _ => False

/-- The most steps a body takes. -/
def depth : Nat := 4

/-! ## What the bodies do -/

section Tame

variable {D : Nat} {d q : Nat}

theorem tame_ret (r : Result) : Tame OpenFails D (.ret r : Task) := by
  refine ⟨?_, trivial, rfl⟩
  cases D <;> trivial

/-- A body that goes on in any case. -/
theorem tame_move {write : Memory → Memory} {next : Memory → Task}
    (tame : ∀ m, Tame OpenFails D (next m)) : Tame OpenFails (D + 1) (.move write next) :=
  ⟨fun m => (tame m).within, fun m => ⟨(tame m).calm, (tame m).posts⟩, rfl⟩

theorem tame_read {next : Memory → Task} (tame : ∀ m, Tame OpenFails D (next m)) :
    Tame OpenFails (D + 1) (read next) := tame_move tame

/-- A call other than the one of `open`. -/
theorem tame_call {c : Call} {write : Memory → Answer → Memory} {next : Memory → Answer → Task}
    (other : ∀ a, ¬ OpenFails c a) (tame : ∀ m a, Tame OpenFails D (next m a)) :
    Tame OpenFails (D + 1) (.call c write next) :=
  ⟨fun m a => (tame m a).within,
    fun m a => ⟨⟨fun posts => absurd ((tame m a).calm.symm.trans posts) (by decide),
      fun fails => absurd fails (other a)⟩, (tame m a).posts⟩, rfl⟩

theorem tame_ask {c : Call} {next : Answer → Task} (other : ∀ a, ¬ OpenFails c a)
    (tame : ∀ a, Tame OpenFails D (next a)) : Tame OpenFails (D + 1) (ask c next) :=
  tame_call other fun _ a => tame a

theorem tame_more {task : Task} (tame : Tame OpenFails D task) : Tame OpenFails (D + 1) task :=
  ⟨tame.within.mono (Nat.le_succ D), tame.posts, tame.calm⟩

theorem tame_lastError : Tame OpenFails 2 (lastError d) := by
  refine tame_read fun m => ?_
  split
  · exact tame_ret _
  · exact tame_ask (fun _ => id) fun _ => tame_ret _

/-- The one body that posts. -/
theorem tame_open {path : String} : Tame OpenFails 4 (open_ d path) := by
  refine tame_read fun m => ?_
  split
  · exact tame_ret _
  · have opened : ∀ db : Pointer, Tame OpenFails 2
        (ask (.exec db "PRAGMA journal_mode=DELETE;") fun _ =>
          ask (.exec db "PRAGMA synchronous=FULL;") fun _ => (.ret (.bool true) : Task)) :=
      fun db => tame_ask (fun _ => id) fun _ => tame_ask (fun _ => id) fun _ => tame_ret _
    refine ⟨fun m a => ?_, fun m a => ?_, rfl⟩
    · dsimp only
      split
      · exact fun _ => trivial
      · exact (opened a.pointer).within
    · dsimp only
      split
      · rename_i fails
        exact ⟨⟨fun _ => fails, fun _ => rfl⟩, fun _ => ⟨rfl, trivial⟩⟩
      · rename_i succeeds
        exact ⟨⟨(fun posts => nomatch posts), fun fails => absurd fails succeeds⟩,
          (opened a.pointer).posts⟩

theorem tame_query {sql : String} : Tame OpenFails 4 (query d sql) := by
  refine tame_read fun m => ?_
  split
  · exact tame_ret _
  · refine tame_ask (fun _ => id) fun a => ?_
    split
    · exact tame_ask (fun _ => id) fun _ => tame_ret _
    · exact tame_move fun _ => tame_ret _

theorem tame_column {f : Column} {result : Answer → Result} {number : Int} :
    Tame OpenFails 4 (column f result q number) :=
  tame_read fun _ => tame_ask (fun _ => id) fun _ => tame_ret _

theorem tame_getBlob {number : Int} : Tame OpenFails 4 (getBlob q number) := by
  refine tame_read fun m => tame_ask (fun _ => id) fun a => ?_
  split
  · exact tame_ret _
  · exact tame_ask (fun _ => id) fun _ => tame_ret _

end Tame

/-- **No body posts but that of `open`**, and that one exactly behind a failed
`sqlite3_open_v2`. -/
theorem tame_task (op : Op) : Tame OpenFails depth op.task := by
  cases op with
  | open_ d path => exact tame_open
  | close d =>
      refine tame_read fun m => ?_
      split
      · exact tame_ret _
      · exact tame_call (fun _ => id) fun _ _ => tame_ret _
  | query d sql => exact tame_query
  | lastError d => exact tame_more (tame_more tame_lastError)
  | destroy q =>
      refine tame_move fun m => ?_
      split
      · exact tame_ret _
      · exact tame_ask (fun _ => id) fun _ => tame_ret _
  | reset q =>
      exact tame_read fun _ => tame_ask (fun _ => id) fun _ =>
        tame_call (fun _ => id) fun _ _ => tame_ret _
  | bind q number value => exact tame_read fun _ => tame_ask (fun _ => id) fun _ => tame_ret _
  | exec q => exact tame_move fun _ => tame_call (fun _ => id) fun _ _ => tame_ret _
  | next q => exact tame_read fun _ => tame_call (fun _ => id) fun _ _ => tame_ret _
  | queryLastError q => exact tame_read fun _ => tame_more tame_lastError
  | getBlob q number => exact tame_getBlob
  | isNull | getBool | getFloat | getInt32 | getUInt32 | getInt64 | getUInt64 | getString =>
      exact tame_column

/-! ## Runs -/

abbrev Sys := System Memory Call Answer Result

abbrev Label := Executor.Label Answer Op

/-- The condition on one step: an `sqlite3_open_v2` that the worker has called succeeds. -/
def OpenSucceeds (s : Sys) : Label → Prop
  | .answer a => ∀ k path write next, s.worker = .running k (.call (.openV2 path) write next) →
      a.code = sqliteOk
  | _ => True

theorem fine_iff {s : Sys} {l : Label} : Fine OpenFails s l ↔ OpenSucceeds s l := by
  cases l with
  | answer a =>
      constructor
      · intro fine k path write next running
        by_contra fails
        exact fine k _ write next running fails
      · rintro succeeds k c write next running
        cases c with
        | openV2 path => exact fun fails => fails (succeeds k path write next running)
        | _ => exact id
  | _ => exact Iff.rfl

/-- **Exactly when no operation blocks.**  In every run of operations of any threads, with any
answers: in every state no task waits for a task of its own, the tasks finish in the order they
were posted, each within a bounded number of the worker's steps, and its thread returns, if and
only if no `sqlite3_open_v2` fails. -/
theorem database_serves_iff {memory : Memory} {ls : List Label} {s : Sys}
    (ran : Lib.exec (step Op.task) (start memory) ls = some s) :
    Always (step Op.task) (Serves OpenFails Op.task depth) (start memory) ls ↔
      Along (step Op.task) OpenSucceeds (start memory) ls := by
  rw [serves_iff tame_task ran]
  have same : (Fine OpenFails : Sys → Label → Prop) = OpenSucceeds := by
    funext s l
    exact propext fine_iff
  rw [same]

/-- A database is opened by one thread while another prepares a query on it. -/
def opened : List Label :=
  [.call 0 (.open_ 0 "/data/ocpp.db"), .take, .move, .call 1 (.query 0 "SELECT 1;"),
    .answer { pointer := some 7 }, .answer {}, .answer {}, .finish, .return_ 0, .take, .move,
    .answer { pointer := some 8 }, .move, .finish, .return_ 1]

theorem opened_serves :
    ∃ s : Sys, Lib.exec (step Op.task) (start {}) opened = some s ∧
      s.results 1 = some (.query (some 0)) ∧
      Always (step Op.task) (Serves OpenFails Op.task depth) (start {}) opened := by
  refine ⟨_, rfl, rfl, (database_serves_iff rfl).2 ?_⟩
  have noOpen : ∀ {s : Sys} {a : Answer} {k : Nat} {c : Call} {write : Memory → Answer → Memory}
      {next : Memory → Answer → Task}, s.worker = .running k (.call c write next) →
      (∀ path, c ≠ .openV2 path) → OpenSucceeds s (.answer a) := by
    intro s a k c write next running other k' path write' next' running'
    obtain ⟨-, same⟩ := Worker.running.inj (running.symm.trans running')
    exact absurd (Job.call.inj same).1 (other path)
  refine along_cons rfl trivial (along_cons rfl trivial (along_cons rfl trivial
    (along_cons rfl trivial (along_cons rfl (fun _ _ _ _ _ => rfl) (along_cons rfl ?_
    (along_cons rfl ?_ (along_cons rfl trivial (along_cons rfl trivial (along_cons rfl trivial
    (along_cons rfl trivial (along_cons rfl ?_ (along_cons rfl trivial (along_cons rfl trivial
    (along_cons rfl trivial trivial))))))))))))))
  · exact noOpen rfl (by simp)
  · exact noOpen rfl (by simp)
  · exact noOpen rfl (by simp)

/-- A database whose file cannot be opened (14 is `SQLITE_CANTOPEN`), and another thread. -/
def failedOpen : List Label :=
  [.call 0 (.open_ 0 "/nowhere/ocpp.db"), .take, .move, .answer { code := 14, pointer := some 7 },
    .reenter, .call 1 (.lastError 0)]

/-- **A failed open blocks every operation**: the run breaks the claim, and however it goes on,
neither call returns. -/
theorem failed_open_blocks :
    ∃ s : Sys, Lib.exec (step Op.task) (start {}) failedOpen = some s ∧
      ¬ Always (step Op.task) (Serves OpenFails Op.task depth) (start {}) failedOpen ∧
      ∀ ks t, Lib.exec (step Op.task) s ks = some t → t.results 0 = none ∧ t.results 2 = none := by
  refine ⟨_, rfl, ?_, ?_⟩
  · intro serves
    have calm := ((((serves.2 _ rfl).2 _ rfl).2 _ rfl).2 _ rfl).start.calm
    exact Bool.noConfusion (show true = false from calm)
  · intro ks t ran
    have blocked : t.results = fun _ => none := blocked_forever ⟨0, 1, _, rfl, rfl⟩ ran
    exact ⟨congrFun blocked 0, congrFun blocked 2⟩

end ChargerStack.Ocpp.DbExecutor
