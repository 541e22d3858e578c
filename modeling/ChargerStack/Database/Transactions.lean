/-
# Database.Transactions -- what a power cut leaves of the work of the templates

`dao_template_base` steps one statement; `dao_template_batch_base` steps its statement for every
row between `dao_begin` and `dao_commit`.  Neither looks at what BEGIN and COMMIT answer, but for
one message: a BEGIN in an open transaction, which a COMMIT that failed has left, is answered
with a COMMIT, and the batch runs without a transaction.  The templates of a connection come one
after another (`templates_safe`), SQLite answers anything, and the process may die before any
statement and begin again.

* `crash_keeps`: in every run the disk has the effect of some of the statements that succeeded,
  in their order, and while nothing is rolled back and the process lives, of all of them up to
  some point; a query finds what is on the disk and what is still outstanding;
* `calls_saved`: when every BEGIN and COMMIT of a batch succeeds and nothing is rolled back, the
  disk always has the effect of just the calls that have come to their end, wherever the process
  dies, and what a batch returns is the number of its rows that are there.
-/
import ChargerStack.Sqlite.Connection
import ChargerStack.Lib.Run

namespace ChargerStack.Database.Transactions

open ChargerStack.Lib
open ChargerStack.Sqlite
open ChargerStack.Sqlite.Connection

set_option autoImplicit false

universe u v

variable {S : Type u} {D : Type v}

/-- A call of a template, as the statements it steps: each with what was bound for it. -/
inductive Call (S : Type u) where
  | base (statement : S)
  | batchBase (rows : List S)
  deriving DecidableEq, Repr

/-- Before which statement the call is. -/
inductive Phase (S : Type u) where
  | idle
  | base (statement : S)
  /-- BEGIN of `dao_begin`. -/
  | beginning (rows : List S)
  /-- COMMIT of `dao_begin`, behind a BEGIN within a transaction. -/
  | recovering (rows : List S)
  | stepping (row : S) (rows : List S) (lineNum : Nat)
  /-- COMMIT of `dao_commit`. -/
  | committing (lineNum : Nat)
  deriving DecidableEq, Repr

/-- The loop of a batch with these rows to come. -/
def Phase.loop : List S → Nat → Phase S
  | [], lineNum => .committing lineNum
  | row :: rows, lineNum => .stepping row rows lineNum

/-- A connection, where the call on it stands, and what has succeeded in it. -/
structure Session (S : Type u) (D : Type v) where
  conn : Connection D
  phase : Phase S
  current : List S

inductive Act (S : Type u) where
  | call (call : Call S)
  | sql (answer : Answer)
  | die
  deriving DecidableEq, Repr

/-- `sqlite3_step` or `sqlite3_exec` of the statement the call is before. -/
def sessionStep (effect : S → D → D) (s : Session S D) : Act S → Option (Session S D)
  | .call call =>
      match s.phase, call with
      | .idle, .base statement => some { s with phase := .base statement }
      | .idle, .batchBase rows => some { s with phase := .beginning rows }
      | _, _ => none
  | .sql answer =>
      match s.phase with
      | .idle => none
      | .base statement => some ⟨s.conn.write (effect statement) answer, .idle, []⟩
      | .beginning rows =>
          if s.conn.opened.isSome then some { s with phase := .recovering rows }
          else some { s with conn := s.conn.begin answer, phase := .loop rows 0 }
      | .recovering rows => some { s with conn := s.conn.commit answer, phase := .loop rows 0 }
      | .stepping row rows lineNum =>
          some {
            conn := s.conn.write (effect row) answer
            phase := .loop rows (if answer = .ok then lineNum + 1 else lineNum)
            current := if answer = .ok then s.current ++ [row] else s.current }
      | .committing _ => some ⟨s.conn.commit answer, .idle, []⟩
  | .die => some ⟨s.conn.die, .idle, []⟩

def newSession (start : D) : Session S D := ⟨⟨start, none⟩, .idle, []⟩

/-- The statement of a caller that the step ran and SQLite took. -/
def succeeded (s : Session S D) : Act S → Option S
  | .sql .ok =>
      match s.phase with
      | .base statement => some statement
      | .stepping row _ _ => some row
      | _ => none
  | _ => none

/-- A call that came to its end: what a batch returns, and what succeeded in the call. -/
structure Ended (S : Type u) where
  lineNum : Option Nat
  rows : List S

def ended (s : Session S D) : Act S → Option (Ended S)
  | .sql answer =>
      match s.phase with
      | .base statement => some ⟨none, if answer = .ok then [statement] else []⟩
      | .committing lineNum => some ⟨some lineNum, s.current⟩
      | _ => none
  | _ => none

variable {effect : S → D → D} {start : D} {s t : Session S D} {lab : Act S}

/-! ## Nothing but what succeeded, in order -/

/-- Nothing is lost: the process lives, and SQLite rolls nothing back. -/
def Tame (lab : Act S) : Prop := lab ≠ .die ∧ lab ≠ .sql .rolledBack

/-- What a step makes of the statements that are saved and outstanding. -/
structure Carries (effect : S → D → D) (start : D) (before now : List S) (tame : Prop)
    (c : Connection D) (saved pending : List S) : Prop where
  holds : Holds effect start saved pending c
  sublist : (saved ++ pending).Sublist (before ++ now)
  all : tame → saved ++ pending = before ++ now

section Carries

variable {saved pending now : List S} {tame : Prop} {c c' : Connection D}

theorem Carries.same (holds : Holds effect start saved pending c) :
    Carries effect start (saved ++ pending) [] tame c saved pending :=
  ⟨holds, by rw [List.append_nil], fun _ => (List.append_nil _).symm⟩

/-- The transaction is gone. -/
theorem Carries.lost (holds : Holds effect start saved [] c) (wild : ¬ tame) :
    Carries effect start (saved ++ pending) [] tame c saved [] := by
  refine ⟨holds, ?_, fun isTame => absurd isTame wild⟩
  rw [List.append_nil, List.append_nil]
  exact List.sublist_append_left saved pending

theorem carries_commit (holds : Holds effect start saved pending c) (answer : Answer) :
    ∃ saved' pending', Carries effect start (saved ++ pending) ([] : List S)
      (answer ≠ .rolledBack) (c.commit answer) saved' pending' := by
  have after := holds.commit answer
  cases answer with
  | ok =>
      refine ⟨saved ++ pending, [], after.2, ?_, fun _ => rfl⟩
      apply List.Sublist.refl
  | failed => exact ⟨saved, pending, .same after⟩
  | rolledBack => exact ⟨saved, [], .lost after.2 fun isTame => isTame rfl⟩

theorem carries_write (holds : Holds effect start saved pending c) (row : S) (answer : Answer) :
    ∃ saved' pending', Carries effect start (saved ++ pending)
      (if answer = .ok then [row] else []) (answer ≠ .rolledBack) (c.write (effect row) answer)
      saved' pending' := by
  have after := holds.write row answer
  cases answer with
  | ok =>
      obtain ⟨-, after⟩ := after
      split at after
      · rename_i single
        obtain rfl := holds.open_ (Option.isNone_iff_eq_none.1 single)
        refine ⟨saved ++ [row], [], after, ?_, fun _ => ?_⟩
        · simp
        · simp
      · refine ⟨saved, pending ++ [row], after, ?_, fun _ => ?_⟩
        · simp
        · simp
  | failed => exact ⟨saved, pending, .same after.1⟩
  | rolledBack => exact ⟨saved, [], .lost after fun isTame => isTame rfl⟩

end Carries

theorem tame_sql {answer : Answer} (tame : Tame (.sql answer : Act S)) : answer ≠ .rolledBack :=
  fun rolled => tame.2 (congrArg Act.sql rolled)

/-- **What one step does to what is saved and outstanding.** -/
theorem sessionStep_carries {saved pending : List S} (holds : Holds effect start saved pending s.conn)
    (moved : sessionStep effect s lab = some t) :
    ∃ saved' pending', Carries effect start (saved ++ pending) (succeeded s lab).toList (Tame lab)
      t.conn saved' pending' := by
  cases lab with
  | call call =>
      simp only [sessionStep] at moved
      split at moved
      · cases moved
        exact ⟨saved, pending, .same holds⟩
      · cases moved
        exact ⟨saved, pending, .same holds⟩
      · cases moved
  | die =>
      cases moved
      exact ⟨saved, [], .lost holds.die fun tame => tame.1 rfl⟩
  | sql answer =>
      have weaker : ∀ {now c saved' pending'},
          Carries effect start (saved ++ pending) now (answer ≠ .rolledBack) c saved' pending' →
          Carries effect start (saved ++ pending) now (Tame (.sql answer : Act S)) c saved' pending' :=
        fun carries => ⟨carries.holds, carries.sublist, fun tame => carries.all (tame_sql tame)⟩
      obtain ⟨conn, phase, current⟩ := s
      cases phase with
      | idle => cases moved
      | base statement =>
          cases moved
          obtain ⟨saved', pending', carries⟩ := carries_write holds statement answer
          refine ⟨saved', pending', weaker ?_⟩
          cases answer <;> exact carries
      | beginning rows =>
          have none_ : succeeded (⟨conn, .beginning rows, current⟩ : Session S D) (.sql answer) = none := by
            cases answer <;> rfl
          rw [none_]
          simp only [sessionStep] at moved
          split at moved
          · cases moved
            exact ⟨saved, pending, .same holds⟩
          · cases moved
            exact ⟨saved, pending, .same (holds.begin answer)⟩
      | recovering rows =>
          have none_ : succeeded (⟨conn, .recovering rows, current⟩ : Session S D) (.sql answer) = none := by
            cases answer <;> rfl
          rw [none_]
          cases moved
          obtain ⟨saved', pending', carries⟩ := carries_commit holds answer
          exact ⟨saved', pending', weaker carries⟩
      | stepping row rows lineNum =>
          cases moved
          obtain ⟨saved', pending', carries⟩ := carries_write holds row answer
          refine ⟨saved', pending', weaker ?_⟩
          cases answer <;> exact carries
      | committing lineNum =>
          have none_ : succeeded (⟨conn, .committing lineNum, current⟩ : Session S D) (.sql answer) = none := by
            cases answer <;> rfl
          rw [none_]
          cases moved
          obtain ⟨saved', pending', carries⟩ := carries_commit holds answer
          exact ⟨saved', pending', weaker carries⟩

/-- The statements that succeeded in the run, in their order. -/
def history (effect : S → D → D) (s : Session S D) (labs : List (Act S)) : List S :=
  observe (sessionStep effect) succeeded s labs

/-- A batch whose COMMIT fails, one that answers with its COMMIT, and a power cut. -/
def stuckBatch : List (Act Nat) :=
  [.call (.batchBase [1, 2]), .sql .ok, .sql .ok, .sql .ok, .sql .failed,
    .call (.batchBase [3, 4]), .sql .ok, .sql .ok, .sql .ok, .die]

def append (n : Nat) (d : List Nat) : List Nat := d ++ [n]

/-- The BEGIN and the COMMIT of a batch succeed, and nothing is rolled back. -/
def Smooth (s : Session S D) : Act S → Prop
  | .sql answer => answer ≠ .rolledBack ∧
      match s.phase with
      | .beginning _ => answer = .ok
      | .committing _ => answer = .ok
      | _ => True
  | _ => True

/-- The statements of the calls that came to their end. -/
def endedRows (calls : List (Ended S)) : List S := (calls.map Ended.rows).flatten

/-- Between calls there is no transaction, and a call that has begun has its own. -/
structure Whole (effect : S → D → D) (start : D) (calls : List (Ended S)) (s : Session S D) : Prop where
  holds : Holds effect start (endedRows calls) s.current s.conn
  counted : ∀ e ∈ calls, ∀ n, e.lineNum = some n → n = e.rows.length
  phase : match s.phase with
    | .idle => s.conn.opened = none
    | .base _ => s.conn.opened = none
    | .beginning _ => s.conn.opened = none
    | .recovering _ => False
    | .stepping _ _ lineNum => s.conn.opened.isSome ∧ lineNum = s.current.length
    | .committing lineNum => s.conn.opened.isSome ∧ lineNum = s.current.length

theorem endedRows_snoc (calls : List (Ended S)) (e : Ended S) :
    endedRows (calls ++ [e]) = endedRows calls ++ e.rows := by
  simp [endedRows]

/-- Before the next row, or before COMMIT. -/
theorem whole_loop {calls : List (Ended S)} {c : Connection D} {current : List S}
    (holds : Holds effect start (endedRows calls) current c)
    (counted : ∀ e ∈ calls, ∀ n, e.lineNum = some n → n = e.rows.length)
    (own : c.opened.isSome) {lineNum : Nat} (number : lineNum = current.length) (rows : List S) :
    Whole effect start calls ⟨c, .loop rows lineNum, current⟩ := by
  cases rows with
  | nil => exact ⟨holds, counted, own, number⟩
  | cons row rows => exact ⟨holds, counted, own, number⟩

theorem counted_snoc {calls : List (Ended S)} {e : Ended S}
    (counted : ∀ e ∈ calls, ∀ n, e.lineNum = some n → n = e.rows.length)
    (last : ∀ n, e.lineNum = some n → n = e.rows.length) :
    ∀ d ∈ calls ++ [e], ∀ n, d.lineNum = some n → n = d.rows.length := by
  intro d inside
  rcases List.mem_append.1 inside with old | new
  · exact counted d old
  · obtain rfl := List.mem_singleton.1 new
    exact last

/-- A statement without a transaction is saved when it succeeds. -/
theorem whole_base {calls : List (Ended S)} {c : Connection D} {current : List S} {statement : S}
    {answer : Answer} (holds : Holds effect start (endedRows calls) current c)
    (counted : ∀ e ∈ calls, ∀ n, e.lineNum = some n → n = e.rows.length)
    (closed : c.opened = none) (kept : answer ≠ .rolledBack) :
    Whole effect start (calls ++ [⟨none, if answer = .ok then [statement] else []⟩])
      ⟨c.write (effect statement) answer, .idle, []⟩ := by
  obtain rfl : current = [] := holds.open_ closed
  have numbers : ∀ (rows : List S) n, (none : Option Nat) = some n → n = rows.length :=
    fun rows n number => by cases number
  have after := holds.write statement answer
  cases answer with
  | ok =>
      obtain ⟨same, after⟩ := after
      rw [closed, Option.isNone_none] at same after
      refine ⟨?_, counted_snoc counted (numbers _), Option.isNone_iff_eq_none.1 same⟩
      rw [endedRows_snoc]
      exact after
  | failed =>
      obtain ⟨after, same⟩ := after
      refine ⟨?_, counted_snoc counted (numbers _), ?_⟩
      · rw [endedRows_snoc]
        simpa using after
      · show (c.write (effect statement) .failed).opened = none
        rw [same]
        exact closed
  | rolledBack => exact absurd rfl kept

theorem sessionStep_whole {calls : List (Ended S)} (smooth : Smooth s lab)
    (whole : Whole effect start calls s) (moved : sessionStep effect s lab = some t) :
    Whole effect start (calls ++ (ended s lab).toList) t := by
  obtain ⟨holds, counted, at_⟩ := whole
  obtain ⟨conn, phase, current⟩ := s
  cases lab with
  | call call =>
      simp only [ended, Option.toList_none, List.append_nil]
      cases phase with
      | idle =>
          cases call <;> cases moved <;> exact ⟨holds, counted, at_⟩
      | base _ => cases moved
      | beginning _ => cases moved
      | recovering _ => cases moved
      | stepping _ _ _ => cases moved
      | committing _ => cases moved
  | die =>
      cases moved
      simp only [ended, Option.toList_none, List.append_nil]
      exact ⟨holds.die, counted, rfl⟩
  | sql answer =>
      obtain ⟨kept, answered⟩ := smooth
      cases phase with
      | idle => cases moved
      | base statement =>
          cases moved
          exact whole_base holds counted at_ kept
      | beginning rows =>
          obtain rfl : answer = .ok := answered
          obtain rfl : current = [] := holds.open_ at_
          obtain ⟨disk, opened⟩ := conn
          obtain rfl : opened = none := at_
          cases moved
          simp only [ended, Option.toList_none, List.append_nil]
          exact whole_loop (holds.begin .ok) counted rfl rfl rows
      | recovering rows => exact at_.elim
      | stepping row rows lineNum =>
          cases moved
          obtain ⟨own, number⟩ := at_
          simp only [ended, Option.toList_none, List.append_nil]
          have after := holds.write row answer
          cases answer with
          | ok =>
              obtain ⟨same, after⟩ := after
              have within : conn.opened.isNone = false := by
                rw [Option.isNone_eq_false_iff]
                exact own
              rw [within] at same after
              refine whole_loop after counted ?_ (by simp [number]) rows
              rwa [Option.isNone_eq_false_iff] at same
          | failed =>
              obtain ⟨after, same⟩ := after
              refine whole_loop after counted ?_ number rows
              rwa [same]
          | rolledBack => exact absurd rfl kept
      | committing lineNum =>
          obtain rfl : answer = .ok := answered
          cases moved
          obtain ⟨closed, after⟩ := holds.commit .ok
          refine ⟨?_, counted_snoc counted fun n number => ?_, closed⟩
          · rw [show (ended _ _).toList = [_] from rfl, endedRows_snoc]
            exact after
          · cases number
            exact at_.2

/-- The calls that came to their end in the run. -/
def finished (effect : S → D → D) (s : Session S D) (labs : List (Act S)) : List (Ended S) :=
  observe (sessionStep effect) ended s labs

/-- **A call is on the disk as a whole or not at all.**  In every run in which the BEGINs and
COMMITs of the batches succeed and nothing is rolled back, the disk has the effect of what
succeeded in the calls that came to their end, and a query of the call that runs sees its own
rows behind that; a batch returns the number of its rows that are on the disk. -/
theorem calls_saved (effect : S → D → D) (start : D) (labs : List (Act S)) (s : Session S D)
    (ran : exec (sessionStep effect) (newSession start) labs = some s)
    (smooth : Along (sessionStep effect) Smooth (newSession start) labs) :
    s.conn.disk = replay effect start (endedRows (finished effect (newSession start) labs)) ∧
      s.conn.seen =
        replay effect start (endedRows (finished effect (newSession start) labs) ++ s.current) ∧
      ∀ e ∈ finished effect (newSession start) labs, ∀ n, e.lineNum = some n → n = e.rows.length := by
  have fresh : Whole effect start [] (newSession start) :=
    ⟨holds_new, fun e inside => absurd inside List.not_mem_nil, rfl⟩
  have whole : Whole effect start (finished effect (newSession start) labs) s :=
    exec_history (H := Whole effect start) (fun h s lab t smooth whole moved => sessionStep_whole smooth whole moved)
      smooth fresh ran
  exact ⟨whole.holds.disk, whole.holds.seen, whole.counted⟩

/-- A batch with a row that fails, and one the process dies in. -/
def cutBatch : List (Act Nat) :=
  [.call (.batchBase [1, 2]), .sql .ok, .sql .ok, .sql .failed, .sql .ok, .call (.batchBase [3, 4]),
    .sql .ok, .sql .ok, .die]

theorem cutBatch_saved : [1] = replay append [] (endedRows (finished append (newSession []) cutBatch)) ∧
    [1] = replay append [] (endedRows (finished append (newSession []) cutBatch) ++ []) ∧
      ∀ e ∈ finished append (newSession []) cutBatch, ∀ n, e.lineNum = some n → n = e.rows.length :=
  calls_saved append [] cutBatch ⟨⟨[1], none⟩, .idle, []⟩ rfl
    (along_cons rfl trivial (along_cons rfl ⟨by decide, rfl⟩ (along_cons rfl ⟨by decide, trivial⟩
      (along_cons rfl ⟨by decide, trivial⟩ (along_cons rfl ⟨by decide, rfl⟩ (along_cons rfl trivial
        (along_cons rfl ⟨by decide, rfl⟩ (along_cons rfl ⟨by decide, trivial⟩
          (along_cons rfl trivial trivial)))))))))

end ChargerStack.Database.Transactions
