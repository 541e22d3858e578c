/-
# Database.RelayCnt -- the relay counters of database/dao/pcu_relay_cnt/pcu_relay_cnt.c

The table `pcu_relay_cnt` has no constraint on `relay_id`: that a relay has one row rests on
`pcu_relay_cnt_dao_create`, which first looks for a row and then inserts one.  A step is one
statement of one thread, under the lock of the `prepared_stmt_t`, with whatever codes SQLite
answers; a statement that fails changes nothing.

* `InsertsNew` is the condition on a step that keeps the rows apart: an INSERT that succeeds
  finds no row of its relay;
* `Careful` is one that callers can keep to: no search fails, and no relay is created by two
  threads at once;
* `unique_iff`: the table holds no two rows of a relay in any state of a run exactly when every
  step meets the first, and it does so when every step meets the second.
-/
import Mathlib.Data.List.Nodup
import ChargerStack.Database.TemplateResults
import ChargerStack.Lib.Run

namespace ChargerStack.Database.RelayCnt

open ChargerStack.Lib
open ChargerStack.Cxx
open ChargerStack.Database.TemplateResults

set_option autoImplicit false

/-- `pcu_relay_cnt_t`, without the `id` that the table numbers its rows with. -/
structure PcuRelayCnt where
  relayId : Int
  closeCnt : Int
  deriving DecidableEq, Repr

abbrev Table := List PcuRelayCnt

/-! ## Statements -/

/-- What SQLite answers: whether the text compiles, and whether the statement is completed or
fails, a SELECT behind so many rows. -/
structure Codes where
  compiles : Bool
  done : Bool
  rows : Nat
  deriving DecidableEq, Repr

/-- The statement is run and completed. -/
def Codes.succeeds (codes : Codes) : Bool := codes.compiles && codes.done

/-- `select relay_id from pcu_relay_cnt where relay_id = ?`. -/
def selectByRelayId (codes : Codes) (relayId : Int) (table : Table) : Option (Execution PcuRelayCnt) :=
  let found := table.filter (·.relayId = relayId)
  if codes.compiles then
    some ⟨if codes.done then found else found.take codes.rows, codes.done, false, 0⟩
  else none

/-- A write that changes so many rows. -/
def writeExecution (codes : Codes) (changed : Nat) : Option (Execution PcuRelayCnt) :=
  if codes.compiles then some ⟨[], codes.done, true, changed⟩ else none

/-- `insert into pcu_relay_cnt(relay_id,close_cnt) values(?,?)`. -/
def insertRow (p : PcuRelayCnt) (table : Table) : Table := table ++ [p]

/-- `update pcu_relay_cnt set close_cnt=? where relay_id=?`. -/
def updateByRelayId (relayId closeCnt : Int) (table : Table) : Table :=
  table.map fun row => if row.relayId = relayId then { row with closeCnt := closeCnt } else row

/-- `delete from pcu_relay_cnt where relay_id=?`. -/
def deleteByRelayId (relayId : Int) (table : Table) : Table := table.filter (·.relayId ≠ relayId)

/-! ## Threads -/

inductive Phase where
  | outside
  /-- In `pcu_relay_cnt_dao_create`, behind a search that found nothing. -/
  | creating (p : PcuRelayCnt)
  deriving DecidableEq, Repr

/-- The table, what the connection has run, where the threads stand, and what their last calls
returned. -/
structure Sys where
  table : Table
  history : List (Execution PcuRelayCnt)
  phase : Nat → Phase
  ret : Nat → Int

inductive Act where
  /-- `pcu_relay_cnt_dao_create` up to its first statement. -/
  | create (p : PcuRelayCnt) (codes : Codes)
  /-- Its second statement. -/
  | insert (codes : Codes)
  | updateByRelayId (relayId : Int) (p : PcuRelayCnt) (codes : Codes)
  | deleteByRelayId (relayId : Int) (codes : Codes)
  deriving DecidableEq, Repr

/-- A call of thread `t` returns. -/
def Sys.finish (t : Nat) (ret : Int) (s : Sys) : Sys :=
  { s with phase := Function.update s.phase t .outside, ret := Function.update s.ret t ret }

/-- A statement that writes: what the template returns, and the table and the connection
behind it. -/
def Sys.write (codes : Codes) (change : Table → Table) (changed : Nat) (s : Sys) : Sys × Int :=
  let ex := writeExecution codes changed
  ({ s with
      table := if codes.succeeds then change s.table else s.table
      history := s.history ++ ex.toList }, daoTemplateBase s.history ex)

def relayStep (s : Sys) (lab : Nat × Act) : Option Sys :=
  match lab.2, s.phase lab.1 with
  | .create p codes, .outside =>
      let ex := selectByRelayId codes p.relayId s.table
      let ret := daoTemplateSelect ex
      let s := { s with history := s.history ++ ex.toList }
      if ret < 0 then some (s.finish lab.1 ret)
      else if ret = 0 then some { s with phase := Function.update s.phase lab.1 (.creating p) }
      else some (s.finish lab.1 0)
  | .insert codes, .creating p =>
      let r := s.write codes (insertRow p) 1
      some (r.1.finish lab.1 r.2)
  | .updateByRelayId relayId p codes, .outside =>
      let r := s.write codes (updateByRelayId relayId p.closeCnt)
        (s.table.filter (·.relayId = relayId)).length
      some (r.1.finish lab.1 r.2)
  | .deleteByRelayId relayId codes, .outside =>
      let r := s.write codes (deleteByRelayId relayId) (s.table.filter (·.relayId = relayId)).length
      some (r.1.finish lab.1 r.2)
  | _, _ => none

/-- An empty table, and nobody at it. -/
def empty : Sys := ⟨[], [], fun _ => .outside, fun _ => 0⟩

/-! ## One row a relay -/

/-- No two rows have the same `relay_id`. -/
def Unique (s : Sys) : Prop := (s.table.map PcuRelayCnt.relayId).Nodup

/-- An INSERT that succeeds finds no row of its relay. -/
def InsertsNew (s : Sys) (lab : Nat × Act) : Prop :=
  ∀ codes p, lab.2 = .insert codes → s.phase lab.1 = .creating p → codes.succeeds = true →
    p.relayId ∉ s.table.map PcuRelayCnt.relayId

/-- A search does not fail once it runs, and nobody else is creating a row of the same relay. -/
def Careful (s : Sys) (lab : Nat × Act) : Prop :=
  ∀ p codes, lab.2 = .create p codes → s.phase lab.1 = .outside → codes.compiles = true →
    codes.done = true ∧ ∀ u q, s.phase u = .creating q → q.relayId ≠ p.relayId

variable {s s' : Sys} {lab : Nat × Act}

/-- What a step does to the rows and to the threads. -/
inductive Moves (s : Sys) : Nat × Act → Sys → Prop where
  | search {t : Nat} {p : PcuRelayCnt} {codes : Codes} {s' : Sys} (outside : s.phase t = .outside)
      (nothing : daoTemplateSelect (selectByRelayId codes p.relayId s.table) = 0)
      (table : s'.table = s.table) (phase : s'.phase = Function.update s.phase t (.creating p)) :
      Moves s (t, .create p codes) s'
  | quiet {t : Nat} {act : Act} {s' : Sys} (table : s'.table = s.table)
      (phase : s'.phase = Function.update s.phase t .outside) : Moves s (t, act) s'
  | insert {t : Nat} {p : PcuRelayCnt} {codes : Codes} {s' : Sys} (creating : s.phase t = .creating p)
      (succeeds : codes.succeeds = true) (table : s'.table = insertRow p s.table)
      (phase : s'.phase = Function.update s.phase t .outside) : Moves s (t, .insert codes) s'
  | update {t : Nat} {act : Act} {relayId closeCnt : Int} {s' : Sys}
      (table : s'.table = RelayCnt.updateByRelayId relayId closeCnt s.table)
      (phase : s'.phase = Function.update s.phase t .outside) : Moves s (t, act) s'
  | delete {t : Nat} {act : Act} {relayId : Int} {s' : Sys}
      (table : s'.table = RelayCnt.deleteByRelayId relayId s.table)
      (phase : s'.phase = Function.update s.phase t .outside) : Moves s (t, act) s'

theorem relayStep_moves (moved : relayStep s lab = some s') : Moves s lab s' := by
  obtain ⟨t, act⟩ := lab
  unfold relayStep at moved
  dsimp only at moved
  split at moved
  · split at moved
    · obtain rfl := Option.some.inj moved
      exact .quiet rfl rfl
    · split at moved
      · rename_i outside _ nothing
        obtain rfl := Option.some.inj moved
        exact .search outside nothing rfl rfl
      · obtain rfl := Option.some.inj moved
        exact .quiet rfl rfl
  · rename_i codes p creating
    obtain rfl := Option.some.inj moved
    by_cases succeeds : codes.succeeds = true
    · exact .insert creating succeeds (if_pos succeeds) rfl
    · exact .quiet (if_neg succeeds) rfl
  · rename_i relayId p codes _
    obtain rfl := Option.some.inj moved
    by_cases succeeds : codes.succeeds = true
    · exact .update (if_pos succeeds) rfl
    · exact .quiet (if_neg succeeds) rfl
  · rename_i relayId codes _
    obtain rfl := Option.some.inj moved
    by_cases succeeds : codes.succeeds = true
    · exact .delete (if_pos succeeds) rfl
    · exact .quiet (if_neg succeeds) rfl
  · cases moved

theorem updateByRelayId_ids (relayId closeCnt : Int) (table : Table) :
    (updateByRelayId relayId closeCnt table).map PcuRelayCnt.relayId = table.map PcuRelayCnt.relayId := by
  rw [updateByRelayId, List.map_map]
  refine List.map_congr_left fun row _ => ?_
  dsimp only [Function.comp_apply]
  split <;> rfl

theorem deleteByRelayId_ids (relayId : Int) (table : Table) :
    ((deleteByRelayId relayId table).map PcuRelayCnt.relayId).Sublist (table.map PcuRelayCnt.relayId) :=
  List.filter_sublist.map _

theorem nodup_insertRow_iff {p : PcuRelayCnt} {table : Table} :
    ((insertRow p table).map PcuRelayCnt.relayId).Nodup ↔
      (table.map PcuRelayCnt.relayId).Nodup ∧ p.relayId ∉ table.map PcuRelayCnt.relayId := by
  rw [insertRow, List.map_append, List.map_singleton, List.perm_append_comm.nodup_iff,
    List.singleton_append, List.nodup_cons, and_comm]

/-- A step that inserts a new row, if any, keeps the rows apart. -/
theorem unique_step (new : InsertsNew s lab) (unique : Unique s) (moved : relayStep s lab = some s') :
    Unique s' := by
  unfold Unique at unique ⊢
  cases relayStep_moves moved with
  | search outside nothing table phase => exact table ▸ unique
  | quiet table phase => exact table ▸ unique
  | insert creating succeeds table phase =>
      rw [table, nodup_insertRow_iff]
      exact ⟨unique, new _ _ rfl creating succeeds⟩
  | update table phase => rwa [table, updateByRelayId_ids]
  | delete table phase => exact table ▸ unique.sublist (deleteByRelayId_ids _ _)

/-- One that does not, does not. -/
theorem insertsNew_of_unique (moved : relayStep s lab = some s') (unique : Unique s') :
    InsertsNew s lab := by
  intro codes p act creating succeeds
  have table : s'.table = insertRow p s.table := by
    obtain ⟨t, _⟩ := lab
    subst act
    simp only [relayStep, creating] at moved
    obtain rfl := Option.some.inj moved
    exact if_pos succeeds
  rw [Unique, table, nodup_insertRow_iff] at unique
  exact unique.2

/-! ## Careful callers -/

/-- The rows are apart, and whoever is creating one found none of its relay and is alone. -/
structure Apart (s : Sys) : Prop where
  unique : Unique s
  missing : ∀ t p, s.phase t = .creating p → p.relayId ∉ s.table.map PcuRelayCnt.relayId
  alone : ∀ t u p q, s.phase t = .creating p → s.phase u = .creating q → p.relayId = q.relayId → t = u

/-- A search that is completed and finds nothing. -/
theorem not_mem_of_search {codes : Codes} {relayId : Int} {table : Table}
    (unique : (table.map PcuRelayCnt.relayId).Nodup) (done : codes.compiles = true → codes.done = true)
    (nothing : daoTemplateSelect (selectByRelayId codes relayId table) = 0) :
    relayId ∉ table.map PcuRelayCnt.relayId := by
  have count : (table.filter (·.relayId = relayId)).length =
      (table.map PcuRelayCnt.relayId).count relayId := by
    rw [List.count_eq_countP, List.countP_map, List.countP_eq_length_filter]
    rfl
  have one := List.nodup_iff_count_le_one.1 unique relayId
  unfold selectByRelayId at nothing
  dsimp only at nothing
  split at nothing
  · rename_i compiles
    rw [if_pos (done compiles), daoTemplateSelect, count, int32_of_range (by omega) (by omega)] at nothing
    exact List.count_eq_zero.1 (Int.ofNat_inj.1 nothing)
  · exact absurd nothing (by decide)

/-- A thread leaves, and the relays in the table are no others than before and perhaps its own. -/
theorem Apart.leave {t : Nat} (apart : Apart s) (unique : Unique s')
    (phase : s'.phase = Function.update s.phase t .outside)
    (ids : ∀ id ∈ s'.table.map PcuRelayCnt.relayId,
      id ∈ s.table.map PcuRelayCnt.relayId ∨ ∃ p, s.phase t = .creating p ∧ p.relayId = id) :
    Apart s' := by
  have others : ∀ u p, s'.phase u = .creating p → u ≠ t ∧ s.phase u = .creating p := by
    intro u p creating
    rw [phase, Function.update_apply] at creating
    split at creating
    · cases creating
    · exact ⟨‹_›, creating⟩
  refine ⟨unique, ?_, ?_⟩
  · intro u p creating inside
    obtain ⟨other, before⟩ := others u p creating
    rcases ids _ inside with old | ⟨q, own, same⟩
    · exact apart.missing u p before old
    · exact other (apart.alone u t p q before own same.symm)
  · intro u v p q atU atV same
    exact apart.alone u v p q (others u p atU).2 (others v q atV).2 same

theorem apart_step (careful : Careful s lab) (apart : Apart s) (moved : relayStep s lab = some s') :
    InsertsNew s lab ∧ Apart s' := by
  have new : InsertsNew s lab := fun codes p _ creating _ => apart.missing _ p creating
  have unique := unique_step new apart.unique moved
  refine ⟨new, ?_⟩
  cases relayStep_moves moved with
  | @search t p codes _ outside nothing table phase =>
      have met := fun compiles => careful p codes rfl outside compiles
      have compiles : codes.compiles = true := by
        by_contra refused
        rw [selectByRelayId, if_neg refused] at nothing
        exact absurd nothing (by decide)
      have missing := not_mem_of_search apart.unique (fun compiles => (met compiles).1) nothing
      have alone := (met compiles).2
      have places : ∀ u q, s'.phase u = .creating q → u = t ∧ q = p ∨ u ≠ t ∧ s.phase u = .creating q := by
        intro u q creating
        rw [phase, Function.update_apply] at creating
        split at creating
        · exact .inl ⟨‹_›, (Phase.creating.inj creating).symm⟩
        · exact .inr ⟨‹_›, creating⟩
      refine ⟨unique, ?_, ?_⟩
      · intro u q creating
        rw [table]
        rcases places u q creating with ⟨-, rfl⟩ | ⟨-, before⟩
        · exact missing
        · exact apart.missing u q before
      · intro u v q r atU atV same
        rcases places u q atU with ⟨rfl, rfl⟩ | ⟨-, beforeU⟩
        · rcases places v r atV with ⟨rfl, -⟩ | ⟨-, beforeV⟩
          · rfl
          · exact absurd same.symm (alone v r beforeV)
        · rcases places v r atV with ⟨rfl, rfl⟩ | ⟨-, beforeV⟩
          · exact absurd same (alone u q beforeU)
          · exact apart.alone u v q r beforeU beforeV same
  | quiet table phase =>
      exact apart.leave unique phase fun id inside => .inl (table ▸ inside)
  | @insert t p codes _ creating succeeds table phase =>
      refine apart.leave unique phase fun id inside => ?_
      rw [table, insertRow, List.map_append, List.mem_append] at inside
      rcases inside with old | last
      · exact .inl old
      · exact .inr ⟨p, creating, (List.mem_singleton.1 last).symm⟩
  | update table phase =>
      refine apart.leave unique phase fun id inside => .inl ?_
      rwa [table, updateByRelayId_ids] at inside
  | delete table phase =>
      refine apart.leave unique phase fun id inside => .inl ?_
      exact (deleteByRelayId_ids _ _).subset (table ▸ inside)

/-! ## Runs -/

theorem unique_empty : Unique empty := List.nodup_nil

theorem apart_empty : Apart empty := by
  refine ⟨unique_empty, ?_, ?_⟩
  · intro t p creating
    cases creating
  · intro t u p q creating
    cases creating

/-- **One row a relay, over any interleaving and any codes.**  From the empty table, no state of a
run has two rows of a relay if and only if every INSERT that succeeds finds none of its relay;
and that is so when no search fails and no relay is created by two threads at once. -/
theorem unique_iff (labs : List (Nat × Act)) (s : Sys) (ran : exec relayStep empty labs = some s) :
    (Always relayStep Unique empty labs ↔ Along relayStep InsertsNew empty labs) ∧
      (Along relayStep Careful empty labs → Always relayStep Unique empty labs) := by
  constructor
  · exact always_iff_along (fun _ unique => unique) (fun _ _ _ new unique moved => unique_step new unique moved)
      (fun _ _ _ _ moved unique => insertsNew_of_unique moved unique) unique_empty ran
  · have holds : ∀ s, Apart s → Unique s := fun _ apart => apart.unique
    exact fun careful => always_of_along holds
      (fun _ _ _ careful apart moved => (apart_step careful apart moved).2) careful apart_empty

/-- Everything SQLite is asked for succeeds. -/
def fine : Codes := ⟨true, true, 0⟩

/-- A row is created, not created again, counted and deleted. -/
def oneRelay : List (Nat × Act) :=
  [(1, .create ⟨427, 0⟩ fine), (1, .insert fine), (2, .create ⟨427, 5⟩ fine),
    (2, .updateByRelayId 427 ⟨427, 6⟩ fine), (1, .deleteByRelayId 427 fine)]

theorem oneRelay_unique : ∃ s, exec relayStep empty oneRelay = some s ∧ s.table = [] ∧
    (Always relayStep Unique empty oneRelay ↔ Along relayStep InsertsNew empty oneRelay) :=
  ⟨_, rfl, rfl, (unique_iff oneRelay _ rfl).1⟩

/-- **Two rows of one relay.**  The second search fails, which looks like finding nothing. -/
theorem created_twice : ¬ ∀ (labs : List (Nat × Act)) (s : Sys),
    exec relayStep empty labs = some s → Always relayStep Unique empty labs := by
  intro always
  have run := always [(1, .create ⟨427, 0⟩ fine), (1, .insert fine),
    (1, .create ⟨427, 0⟩ ⟨true, false, 0⟩), (1, .insert fine)] _ rfl
  have last : ([427, 427] : List Int).Nodup := (((run.2 _ rfl).2 _ rfl).2 _ rfl).2 _ rfl
  exact absurd last (by decide)

end ChargerStack.Database.RelayCnt
