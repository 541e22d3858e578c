/-
# Database.CreateDatabase -- the tables of a database, over its restarts

`create_database` runs when the process starts: each table that `sqlite_master` does not have is
created between `dao_begin` and `dao_commit`, and rolled back when the CREATE fails.  SQLite
answers anything, the process may die before any statement, and then all of it runs again.

* `restarts_complete`: after any number of such lifetimes the database has the tables it had, in
  their place, and some of the tables of the list, none twice and none of another database; and
  the next start in which nothing fails returns with all of them on the disk.
-/
import Mathlib.Data.List.Nodup
import ChargerStack.Lib.Statements
import ChargerStack.Sqlite.Connection

namespace ChargerStack.Database.CreateDatabase

open ChargerStack.Lib
open ChargerStack.Lib.Prog
open ChargerStack.Sqlite

set_option autoImplicit false

/-- `table_t`. -/
structure TableDef where
  tableName : String
  dsn : Nat
  createTableStmt : String
  deriving DecidableEq, Repr

/-- The rows of `sqlite_master` for tables. -/
abbrev Schema := List TableDef

/-- The `CREATE TABLE IF NOT EXISTS` of a table. -/
def create (table : TableDef) (schema : Schema) : Schema :=
  if table.tableName ∈ schema.map TableDef.tableName then schema else schema ++ [table]

abbrev Dao (α : Type) := Prog Answer (Connection Schema) α

/-- `sqlite3_exec`. -/
def exec (statement : Answer → Connection Schema → Connection Schema) : Dao Answer := do
  let answer ← Prog.ask
  let c ← Prog.get
  Prog.set (statement answer c)
  pure answer

def daoCommit : Dao Unit := do
  let _ ← exec Connection.commit
  pure ()

def daoRollback : Dao Unit := do
  let _ ← exec Connection.rollback
  pure ()

/-- `dao_begin`, which answers a BEGIN within a transaction with a COMMIT. -/
def daoBegin : Dao Unit := do
  let c ← Prog.get
  let _ ← exec Connection.begin
  if c.opened.isSome then daoCommit else pure ()

/-- `sqlite_master_dao_count_by_name`: `line_num` and `count`. -/
def countByName (name : String) : Dao (Int × Nat) := do
  let answer ← exec (Connection.write id)
  let c ← Prog.get
  if answer = .ok then pure (1, c.seen.countP fun table => table.tableName = name)
  else pure (0, 0)

def createTable (table : TableDef) : Dao Bool := do
  let (lineNum, count) ← countByName table.tableName
  if lineNum ≠ 1 then pure false
  else if 0 < count then pure true
  else do
    daoBegin
    let answer ← exec (Connection.write (create table))
    if answer ≠ .ok then do
      daoRollback
      pure false
    else do
      daoCommit
      pure true

/-- The body of the loop, which goes on when a table could not be created. -/
def createOne (dsn : Nat) (table : TableDef) : Dao Bool :=
  if table.dsn = dsn then do
    let _ ← createTable table
    pure true
  else pure true

def createDatabase (dsn : Nat) (tables : List TableDef) : Dao Bool :=
  Prog.iterate (createOne dsn) tables

/-- The lifetimes of the process, each with the answers it gets until it dies or returns. -/
def lifetimes (dsn : Nat) (tables : List TableDef) (c : Connection Schema)
    (starts : List (List Answer)) : Connection Schema :=
  starts.foldl (fun c answers => ((createDatabase dsn tables c answers).2.1).die) c

/-! ## What every statement keeps -/

/-- The tables there were, and then some of the list, each name once. -/
structure Grown (initial : Schema) (dsn : Nat) (tables : List TableDef) (schema : Schema) : Prop where
  kept : initial <+: schema
  names : (schema.map TableDef.tableName).Nodup
  new : ∀ table ∈ schema, table ∈ initial ∨ table ∈ tables ∧ table.dsn = dsn

section Keeps

variable {initial : Schema} {dsn : Nat} {tables : List TableDef} {schema : Schema}
  {table : TableDef} {c : Connection Schema}

theorem Grown.create (grown : Grown initial dsn tables schema) (listed : table ∈ tables)
    (here : table.dsn = dsn) : Grown initial dsn tables (create table schema) := by
  unfold CreateDatabase.create
  split
  · exact grown
  · rename_i absent
    refine ⟨grown.kept.trans (List.prefix_append schema [table]), ?_, ?_⟩
    · rw [List.map_append, List.map_singleton, List.nodup_append_comm]
      exact List.nodup_cons.2 ⟨absent, grown.names⟩
    · intro other inside
      rcases List.mem_append.1 inside with old | added
      · exact grown.new other old
      · obtain rfl := List.mem_singleton.1 added
        exact .inr ⟨listed, here⟩

/-- A statement that keeps a property of the connection. -/
theorem wp_exec {P : Connection Schema → Prop}
    {statement : Answer → Connection Schema → Connection Schema}
    (keeps : ∀ a c, P c → P (statement a c)) (holds : P c) :
    wp (exec statement) (fun _ => P) P c := by
  apply wp_bind
  rw [wp_ask]
  refine ⟨holds, fun a => ?_⟩
  apply wp_bind
  rw [wp_get]
  apply wp_bind
  rw [wp_set, wp_pure]
  exact keeps a c holds

variable {P : Schema → Prop}

theorem wp_daoCommit (both : c.Both P) : wp daoCommit (fun _ => Connection.Both P) (Connection.Both P) c := by
  apply wp_bind
  refine wp_mono (wp_exec (fun a _ both => both.commit a) both) (fun _ t both => ?_) fun _ both => both
  exact wp_pure.2 both

theorem wp_daoRollback (both : c.Both P) :
    wp daoRollback (fun _ => Connection.Both P) (Connection.Both P) c := by
  apply wp_bind
  refine wp_mono (wp_exec (fun a _ both => both.rollback a) both) (fun _ t both => ?_) fun _ both => both
  exact wp_pure.2 both

theorem wp_daoBegin (both : c.Both P) : wp daoBegin (fun _ => Connection.Both P) (Connection.Both P) c := by
  apply wp_bind
  rw [wp_get]
  apply wp_bind
  refine wp_mono (wp_exec (fun a _ both => both.begin a) both) (fun _ t both => ?_) fun _ both => both
  split
  · exact wp_daoCommit both
  · exact wp_pure.2 both

theorem wp_createTable (both : c.Both P) (keeps : ∀ schema, P schema → P (create table schema)) :
    wp (createTable table) (fun _ => Connection.Both P) (Connection.Both P) c := by
  have counted : wp (countByName table.tableName) (fun _ => Connection.Both P) (Connection.Both P) c := by
    apply wp_bind
    refine wp_mono (wp_exec (fun a _ both => both.write (fun _ holds => holds) a) both)
      (fun answer t both => ?_) fun _ both => both
    apply wp_bind
    rw [wp_get]
    split
    · exact wp_pure.2 both
    · exact wp_pure.2 both
  apply wp_bind
  refine wp_mono counted ?_ fun _ both => both
  rintro ⟨lineNum, count⟩ t both
  simp only
  split
  · exact wp_pure.2 both
  · split
    · exact wp_pure.2 both
    · apply wp_bind
      refine wp_mono (wp_daoBegin both) (fun _ t both => ?_) fun _ both => both
      apply wp_bind
      refine wp_mono (wp_exec (fun a _ both => both.write keeps a) both) (fun answer t both => ?_)
        fun _ both => both
      split
      · apply wp_bind
        exact wp_mono (wp_daoRollback both) (fun _ t both => wp_pure.2 both) fun _ both => both
      · apply wp_bind
        exact wp_mono (wp_daoCommit both) (fun _ t both => wp_pure.2 both) fun _ both => both

/-- **However it ends, the database has only grown.** -/
theorem wp_createDatabase (both : c.Both (Grown initial dsn tables)) :
    wp (createDatabase dsn tables) (fun _ => Connection.Both (Grown initial dsn tables))
      (Connection.Both (Grown initial dsn tables)) c := by
  refine wp_iterate (fun rest t => (∀ table ∈ rest, table ∈ tables) ∧
    t.Both (Grown initial dsn tables)) ⟨fun _ inside => inside, both⟩ ?_ fun t holds => holds.2
  rintro table rest t ⟨listed, both⟩
  have later : ∀ table ∈ rest, table ∈ tables := fun _ inside => listed _ (List.mem_cons_of_mem _ inside)
  unfold createOne
  split
  · rename_i here
    apply wp_bind
    refine wp_mono (wp_createTable both fun _ grown => grown.create (listed _ List.mem_cons_self) here)
      (fun _ u both => ?_) fun _ both => both
    exact wp_pure.2 ⟨later, both⟩
  · exact wp_pure.2 ⟨later, both⟩

theorem lifetimes_grown (starts : List (List Answer)) (both : c.Both (Grown initial dsn tables)) :
    (lifetimes dsn tables c starts).Both (Grown initial dsn tables) := by
  induction starts generalizing c with
  | nil => exact both
  | cons answers starts ih => exact ih (wp_state (wp_createDatabase both) answers).die

end Keeps

/-! ## A start in which nothing fails -/

section Complete

variable {table : TableDef} {c : Connection Schema}

/-- The database has a table of the name. -/
def Has (name : String) (schema : Schema) : Prop := name ∈ schema.map TableDef.tableName

theorem has_iff (name : String) (schema : Schema) :
    0 < schema.countP (fun table => table.tableName = name) ↔ Has name schema := by
  simp [Has, List.countP_pos_iff]

theorem has_create (schema : Schema) : Has table.tableName (create table schema) := by
  unfold create
  split
  · assumption
  · simp [Has]

theorem has_mono {name : String} {schema : Schema} (has : Has name schema) :
    Has name (create table schema) := by
  unfold create
  split
  · exact has
  · rw [Has, List.map_append]
    exact List.mem_append_left _ has

theorem createTable_ok (table : TableDef) (closed : c.opened = none) (n : Nat) :
    ∃ t m, createTable table c (List.replicate (n + 4) .ok) = (some true, t, List.replicate m .ok) ∧
      n ≤ m ∧ t.opened = none ∧ t.disk = create table c.disk := by
  obtain ⟨disk, opened⟩ := c
  obtain rfl : opened = none := closed
  have counted : countByName table.tableName ⟨disk, none⟩ (List.replicate (n + 4) .ok) =
      (some (1, disk.countP fun other => other.tableName = table.tableName), ⟨disk, none⟩,
        List.replicate (n + 3) .ok) := rfl
  by_cases there : Has table.tableName disk
  · refine ⟨⟨disk, none⟩, n + 3, (bind_returned counted).trans ?_, by omega, rfl, (if_pos there).symm⟩
    simp only [ne_eq, not_true_eq_false, if_false, (has_iff _ _).2 there, if_true]
    rfl
  · have absent : ¬ 0 < disk.countP (fun other => other.tableName = table.tableName) :=
      fun found => there ((has_iff _ _).1 found)
    refine ⟨⟨create table disk, none⟩, n, (bind_returned counted).trans ?_, Nat.le_refl n, rfl, rfl⟩
    simp only [ne_eq, not_true_eq_false, if_false, absent]
    rfl

theorem createDatabase_ok (dsn : Nat) (tables : List TableDef) (closed : c.opened = none) {n : Nat}
    (many : 4 * tables.length ≤ n) :
    ∃ t m, createDatabase dsn tables c (List.replicate n .ok) = (some true, t, List.replicate m .ok) ∧
      t.opened = none ∧ (∀ name, Has name c.disk → Has name t.disk) ∧
      ∀ table ∈ tables, table.dsn = dsn → Has table.tableName t.disk := by
  induction tables generalizing c n with
  | nil => exact ⟨c, n, rfl, closed, fun _ has => has, fun _ inside => absurd inside List.not_mem_nil⟩
  | cons table tables ih =>
      rw [List.length_cons] at many
      obtain ⟨n, rfl⟩ : ∃ k, n = k + 4 := ⟨n - 4, by omega⟩
      obtain ⟨u, m, made, le, open_, has, here⟩ : ∃ u m,
          createOne dsn table c (List.replicate (n + 4) .ok) = (some true, u, List.replicate m .ok) ∧
          n ≤ m ∧ u.opened = none ∧ (∀ name, Has name c.disk → Has name u.disk) ∧
          (table.dsn = dsn → Has table.tableName u.disk) := by
        by_cases mine : table.dsn = dsn
        · obtain ⟨u, m, made, le, open_, disk⟩ := createTable_ok table closed n
          refine ⟨u, m, ?_, le, open_, fun name has => ?_, fun _ => ?_⟩
          · rw [createOne, if_pos mine]
            exact bind_returned made
          · rw [disk]
            exact has_mono has
          · rw [disk]
            exact has_create c.disk
        · refine ⟨c, n + 4, ?_, by omega, closed, fun _ has => has, fun same => absurd same mine⟩
          rw [createOne, if_neg mine]
          rfl
      obtain ⟨t, k, made', open', has', all⟩ := ih open_ (n := m) (by omega)
      refine ⟨t, k, ?_, open', fun name old => has' name (has name old), ?_⟩
      · exact (bind_returned made).trans made'
      · intro other inside mine
        rcases List.mem_cons.1 inside with rfl | later
        · exact has' _ (here mine)
        · exact all other later mine

end Complete

/-- **Restarts are harmless, and one good start is enough.** -/
theorem restarts_complete (initial : Schema) (dsn : Nat) (tables : List TableDef)
    (starts : List (List Answer)) (names : (initial.map TableDef.tableName).Nodup) :
    Grown initial dsn tables (lifetimes dsn tables ⟨initial, none⟩ starts).disk ∧
      ∀ n, 4 * tables.length ≤ n →
        ∃ t m, createDatabase dsn tables (lifetimes dsn tables ⟨initial, none⟩ starts)
            (List.replicate n .ok) = (some true, t, List.replicate m .ok) ∧
          t.opened = none ∧ Grown initial dsn tables t.disk ∧
          ∀ table ∈ tables, table.dsn = dsn → Has table.tableName t.disk := by
  have fresh : Grown initial dsn tables initial :=
    ⟨List.prefix_refl initial, names, fun _ inside => .inl inside⟩
  have grown := lifetimes_grown (c := ⟨initial, none⟩) starts ⟨fresh, fresh⟩
  have closed : (lifetimes dsn tables ⟨initial, none⟩ starts).opened = none := by
    rcases List.eq_nil_or_concat starts with rfl | ⟨first, last, rfl⟩
    · rfl
    · rw [lifetimes, List.concat_eq_append, List.foldl_append]
      rfl
  refine ⟨grown.1, fun n many => ?_⟩
  obtain ⟨t, m, made, open_, -, all⟩ := createDatabase_ok dsn tables closed many
  refine ⟨t, m, made, open_, ?_, all⟩
  have ended := wp_createDatabase grown (List.replicate n .ok)
  rw [made] at ended
  exact ended.1

/-- `tables` of database/model/table.c; `DSN_MAIN` is 0. -/
def tables : List TableDef :=
  [⟨"pcu_relay_cnt", 0, "CREATE TABLE IF NOT EXISTS pcu_relay_cnt (id INTEGER PRIMARY KEY " ++
    "AUTOINCREMENT,relay_id INTEGER,close_cnt INTEGER);"⟩]

/-- Starts cut off before the CREATE and before its COMMIT, and one whose COMMIT fails. -/
def badStarts : List (List Answer) := [[.ok, .ok], [.ok, .ok, .ok], [.ok, .ok, .ok, .failed]]

theorem badStarts_complete :
    Grown [] 0 tables (lifetimes 0 tables ⟨[], none⟩ badStarts).disk ∧
      ∀ n, 4 ≤ n →
        ∃ t m, createDatabase 0 tables (lifetimes 0 tables ⟨[], none⟩ badStarts)
            (List.replicate n .ok) = (some true, t, List.replicate m .ok) ∧
          t.opened = none ∧ Grown [] 0 tables t.disk ∧
          ∀ table ∈ tables, table.dsn = 0 → Has table.tableName t.disk :=
  restarts_complete [] 0 tables badStarts List.nodup_nil

end ChargerStack.Database.CreateDatabase
