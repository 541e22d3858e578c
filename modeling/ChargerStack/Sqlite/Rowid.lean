/-
# Sqlite.Rowid -- tables with rowids

An INSERT numbers its row one above the largest rowid in use, an UPDATE keeps the
number, and a DELETE frees it.  So the rows stand in the order they were inserted in,
and the row with the smallest rowid is the first.

A table is the list of its rows; `insert` adds at the end, and `inOrder_insert` says
that this is the order of the rowids.
-/
import Mathlib.Data.List.Basic

namespace ChargerStack.Sqlite

set_option autoImplicit false

universe u

structure Numbered (ρ : Type u) where
  rowid : Nat
  row : ρ

abbrev Table (ρ : Type u) := List (Numbered ρ)

namespace Table

variable {ρ : Type u}

/-- One above the largest rowid in use. -/
def nextRowid (table : Table ρ) : Nat := (table.map Numbered.rowid).foldl max 0 + 1

def insert (table : Table ρ) (row : ρ) : Table ρ := table ++ [⟨nextRowid table, row⟩]

/-- `SELECT MIN(rowid)`; `none` is `NULL`. -/
def minRowid (table : Table ρ) : Option Nat := (table.map Numbered.rowid).min?

/-- `DELETE ... WHERE rowid = (SELECT MIN(rowid) ...)`. -/
def deleteOldest (table : Table ρ) : Table ρ :=
  table.filter fun r => some r.rowid ≠ minRowid table

def update (table : Table ρ) (p : ρ → Bool) (set : ρ → ρ) : Table ρ :=
  table.map fun r => if p r.row then ⟨r.rowid, set r.row⟩ else r

def delete (table : Table ρ) (p : ρ → Bool) : Table ρ := table.filter fun r => !p r.row

def rows (table : Table ρ) : List ρ := table.map Numbered.row

def InOrder (table : Table ρ) : Prop := table.Pairwise fun a b => a.rowid < b.rowid

variable {table : Table ρ}

theorem le_foldl_max (xs : List Nat) (start : Nat) :
    start ≤ xs.foldl max start ∧ ∀ x ∈ xs, x ≤ xs.foldl max start := by
  induction xs generalizing start with
  | nil => simp
  | cons y ys ih =>
      obtain ⟨above, others⟩ := ih (max start y)
      rw [List.foldl_cons]
      refine ⟨by omega, fun x inside => ?_⟩
      rcases List.mem_cons.1 inside with rfl | inside
      · omega
      · exact others x inside

theorem lt_nextRowid {r : Numbered ρ} (inside : r ∈ table) : r.rowid < nextRowid table :=
  Nat.lt_succ_of_le ((le_foldl_max _ 0).2 r.rowid (List.mem_map_of_mem inside))

theorem inOrder_insert (order : InOrder table) (row : ρ) : InOrder (insert table row) := by
  unfold InOrder insert
  rw [List.pairwise_append]
  refine ⟨order, List.pairwise_singleton _ _, fun a inside b last => ?_⟩
  rw [List.mem_singleton.1 last]
  exact lt_nextRowid inside

theorem inOrder_update (order : InOrder table) (p : ρ → Bool) (set : ρ → ρ) :
    InOrder (update table p set) := by
  have same : ∀ r : Numbered ρ, (if p r.row then ⟨r.rowid, set r.row⟩ else r).rowid = r.rowid := by
    intro r
    split <;> rfl
  refine List.pairwise_map.2 (order.imp fun {a b} less => ?_)
  rw [same a, same b]
  exact less

theorem inOrder_delete (order : InOrder table) (p : ρ → Bool) : InOrder (delete table p) :=
  order.sublist List.filter_sublist

theorem minRowid_cons (r : Numbered ρ) (order : InOrder (r :: table)) :
    minRowid (r :: table) = some r.rowid := by
  unfold minRowid
  rw [List.min?_eq_some_iff]
  refine ⟨List.mem_map_of_mem List.mem_cons_self, fun b inside => ?_⟩
  obtain ⟨other, member, rfl⟩ := List.mem_map.1 inside
  rcases List.mem_cons.1 member with rfl | later
  · exact Nat.le_refl _
  · exact Nat.le_of_lt ((List.pairwise_cons.1 order).1 other later)

/-- **The smallest rowid is the first row's.** -/
theorem deleteOldest_eq_tail (order : InOrder table) : deleteOldest table = table.tail := by
  cases table with
  | nil => rfl
  | cons r table =>
      have later := (List.pairwise_cons.1 order).1
      unfold deleteOldest
      rw [minRowid_cons r order, List.filter_cons_of_neg (by simp), List.tail_cons,
        List.filter_eq_self]
      intro other inside
      have less := later other inside
      simp only [ne_eq, Option.some.injEq, decide_eq_true_eq]
      omega

@[simp] theorem rows_insert (row : ρ) : rows (insert table row) = rows table ++ [row] := by
  simp [rows, insert]

@[simp] theorem length_rows : (rows table).length = table.length := List.length_map _

theorem rows_update (p : ρ → Bool) (set : ρ → ρ) :
    rows (update table p set) = (rows table).map fun row => if p row then set row else row := by
  unfold rows update
  rw [List.map_map, List.map_map]
  apply List.map_congr_left
  intro r _
  show (if p r.row then (⟨r.rowid, set r.row⟩ : Numbered ρ) else r).row = _
  split <;> simp_all

theorem rows_delete (p : ρ → Bool) :
    rows (delete table p) = (rows table).filter fun row => !p row := by
  unfold rows delete
  rw [List.filter_map]
  rfl

end Table

end ChargerStack.Sqlite
