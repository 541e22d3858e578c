/-
# Database.TemplateResults -- what the templates of database/dao/template.c return

A template takes a statement, steps it and returns a number.  What SQLite does with a statement
is its `Execution`, and the connection remembers the row count of the INSERT, UPDATE or DELETE
that it completed last: `sqlite3_changes` is a question to the connection, not to the
statement.

* `sqlite3Changes_snoc` is the counter, one statement later;
* `daoTemplateSelect` and `daoTemplateGet` count rows and cannot tell an error from the end of
  the rows; `daoTemplateBase` can.
-/
import Mathlib.Data.List.Basic
import ChargerStack.Cxx.Basic

namespace ChargerStack.Database.TemplateResults

open ChargerStack.Cxx

set_option autoImplicit false

universe u

/-- A compiled statement, stepped to its end: the rows that `sqlite3_step` hands out, whether
`SQLITE_DONE` or an error comes behind them, and for an INSERT, UPDATE or DELETE how many rows
it changes if it is completed. -/
structure Execution (R : Type u) where
  rows : List R
  done : Bool
  writes : Bool
  changed : Nat
  deriving DecidableEq, Repr

variable {R : Type u}

/-- An INSERT, UPDATE or DELETE that was completed. -/
def Execution.counts (ex : Execution R) : Bool := ex.writes && ex.done

/-- The rows it changed. -/
def Execution.changes (ex : Execution R) : Nat := if ex.counts then ex.changed else 0

/-- `sqlite3_changes` behind the statements that the connection has seen, in order. -/
def sqlite3Changes (history : List (Execution R)) : Int :=
  match (history.filter Execution.counts).getLast? with
  | none => 0
  | some ex => int32 ex.changed

theorem sqlite3Changes_snoc (history : List (Execution R)) (ex : Execution R) :
    sqlite3Changes (history ++ [ex]) =
      if ex.counts then int32 ex.changed else sqlite3Changes history := by
  unfold sqlite3Changes
  rw [List.filter_append]
  cases counts : ex.counts with
  | true => simp [List.filter_cons_of_pos counts]
  | false => simp [counts]

theorem sqlite3Changes_range (history : List (Execution R)) : sqlite3Changes history < 2 ^ 31 := by
  unfold sqlite3Changes
  split
  · omega
  · exact (int32_range _).2

/-! ## The templates

`none` is a statement that `prepared_stmt_get` does not return. -/

/-- `dao_template_base`, which steps once. -/
def daoTemplateBase (history : List (Execution R)) : Option (Execution R) → Int
  | none => -1
  | some ex =>
      let change := sqlite3Changes (history ++ [ex])
      if ex.rows.isEmpty && ex.done then change else -1

/-- `dao_template_select`: `line`. -/
def daoTemplateSelect : Option (Execution R) → Int
  | none => -1
  | some ex => int32 ex.rows.length

/-- `dao_template_get`: `line_num`, the number of rows that `unmarshal_cb` was given. -/
def daoTemplateGet : Option (Execution R) → Int
  | none => -1
  | some ex => int32 ex.rows.length

end ChargerStack.Database.TemplateResults
