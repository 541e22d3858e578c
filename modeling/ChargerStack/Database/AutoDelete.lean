/-
# Database.AutoDelete -- the timer of database/dao/auto_delete.c over whole runs

Every ten minutes `on_timer` runs the retention policies one after another.  A policy by line
counts the rows with one statement and deletes the oldest with another, one by timestamp deletes
with one; rows are inserted by other threads all the time, also between the two statements, and
each statement may fail, which ends the policy but not the round.

* `timer_keeps_newest`: in every run a table with a policy by line has the last of the rows that
  were ever inserted into it, in their order; the last `max_num * percent / 100` of them are never
  deleted; and there are at most `max_num` rows and those that have come since the count of the
  last policy on it whose statements succeeded.
-/
import Mathlib.Logic.Function.Basic
import ChargerStack.Database.Retention
import ChargerStack.Lib.Run

namespace ChargerStack.Database.AutoDelete

open ChargerStack.Cxx
open ChargerStack.Lib
open ChargerStack.Database.Retention

set_option autoImplicit false

universe u

variable {R : Type u}

/-! ## The policies -/

/-- `policy_func` of a `retention_policy_t`, with what it points at. -/
inductive PolicyFunc (R : Type u) where
  | always
  | byLine (maxNum percent : Int)
  | byTimestamp (whereField : R → Int) (expireS : Int)

structure RetentionPolicy (R : Type u) where
  tableName : Nat
  policyFunc : PolicyFunc R

/-- A table with an AUTOINCREMENT id; all the rows that were ever inserted, and how many of them
since the count of the last policy by line on it whose statements succeeded. -/
structure Store (R : Type u) where
  rows : Table R
  next : Int
  inserted : Table R
  fresh : Nat

def Store.insert (rest : R) (store : Store R) : Store R where
  rows := store.rows ++ [⟨store.next, rest⟩]
  next := store.next + 1
  inserted := store.inserted ++ [⟨store.next, rest⟩]
  fresh := store.fresh + 1

/-- Before which statement `on_timer` is, and the policies behind the one it runs. -/
inductive Phase (R : Type u) where
  | idle
  | counting (tableName : Nat) (maxNum percent : Int) (rps : List (RetentionPolicy R))
  /-- With `try_delete_num`; so many rows have come since the count. -/
  | deleting (tableName : Nat) (tryDeleteNum : Int) (arrived : Nat) (rps : List (RetentionPolicy R))
  | expiring (tableName : Nat) (whereField : R → Int) (expireS : Int) (rps : List (RetentionPolicy R))

/-- The loop of `on_timer` up to the next statement. -/
def Phase.loop : List (RetentionPolicy R) → Phase R
  | [] => .idle
  | ⟨_, .always⟩ :: rps => .loop rps
  | ⟨tableName, .byLine maxNum percent⟩ :: rps => .counting tableName maxNum percent rps
  | ⟨tableName, .byTimestamp whereField expireS⟩ :: rps => .expiring tableName whereField expireS rps

/-- A row has come into the table. -/
def Phase.arrive (tableName : Nat) : Phase R → Phase R
  | .deleting name tryDeleteNum arrived rps =>
      .deleting name tryDeleteNum (if name = tableName then arrived + 1 else arrived) rps
  | phase => phase

structure Sys (R : Type u) where
  tables : Nat → Store R
  phase : Phase R

inductive Act (R : Type u) where
  | insert (tableName : Nat) (rest : R)
  /-- The timer fires. -/
  | onTimer
  /-- The next statement of the policy, whether it succeeds, and `time(0)`. -/
  | sql (ok : Bool) (now : Int)

def Sys.change (s : Sys R) (tableName : Nat) (f : Store R → Store R) (phase : Phase R) : Sys R :=
  ⟨Function.update s.tables tableName (f (s.tables tableName)), phase⟩

def timerStep (rps : List (RetentionPolicy R)) (s : Sys R) : Act R → Option (Sys R)
  | .insert tableName rest => some (s.change tableName (Store.insert rest) (s.phase.arrive tableName))
  | .onTimer =>
      match s.phase with
      | .idle => some { s with phase := .loop rps }
      | _ => none
  | .sql ok now =>
      match s.phase with
      | .idle => none
      | .counting tableName maxNum percent rest =>
          let curLineNum := int32 (s.tables tableName).rows.length
          if ok = false then some { s with phase := .loop rest }
          else if curLineNum ≤ maxNum then
            some (s.change tableName (fun store => { store with fresh := 0 }) (.loop rest))
          else
            let tryDeleteNum := int32 (curLineNum - Int.tdiv (int32 (maxNum * percent)) 100)
            some { s with phase := .deleting tableName tryDeleteNum 0 rest }
      | .deleting tableName tryDeleteNum arrived rest =>
          if ok = false then some { s with phase := .loop rest }
          else
            some (s.change tableName
              (fun store => { store with rows := deleteBelow tryDeleteNum store.rows, fresh := arrived })
              (.loop rest))
      | .expiring tableName whereField expireS rest =>
          if ok = false then some { s with phase := .loop rest }
          else
            some (s.change tableName
              (fun store => { store with
                rows := store.rows.filter fun row => ¬ whereField row.rest < now - expireS })
              (.loop rest))

/-- New tables. -/
def newSys : Sys R := ⟨fun _ => ⟨[], 1, [], 0⟩, .idle⟩

/-- The number of rows fits the `int32_t` that it is read into. -/
def Countable (tableName : Nat) (s : Sys R) (_ : Act R) : Prop :=
  (s.tables tableName).rows.length < 2 ^ 31

instance (tableName : Nat) (s : Sys R) (act : Act R) : Decidable (Countable tableName s act) :=
  inferInstanceAs (Decidable ((s.tables tableName).rows.length < 2 ^ 31))

/-! ## One table -/

/-- The policies on a table are by line, with these numbers, or keep all. -/
def OnlyByLine (tableName : Nat) (maxNum percent : Int) (rps : List (RetentionPolicy R)) : Prop :=
  ∀ rp ∈ rps, rp.tableName = tableName →
    rp.policyFunc = .always ∨ rp.policyFunc = .byLine maxNum percent

/-- The rows that stay, in number. -/
def share (maxNum percent : Int) : Nat := (maxNum * percent / 100).toNat

/-- The numbers of a policy with which it computes what it is to. -/
structure Sane (maxNum percent : Int) : Prop where
  nonneg : 0 ≤ maxNum
  small : maxNum < 2 ^ 31
  accepted : AcceptedPercent percent
  some_ : 100 ≤ maxNum * percent
  fits : maxNum * percent < 2 ^ 31

/-- What the table keeps, with so many rows on top of `max_num`. -/
structure Kept (maxNum percent : Int) (store : Store R) : Prop where
  ascending : Ascending store.inserted
  ids : ∀ row ∈ store.inserted, row.id < store.next
  suffix : store.rows <:+ store.inserted
  newest : min (share maxNum percent) store.inserted.length ≤ store.rows.length
  bounded : (store.rows.length : Int) ≤ maxNum + store.fresh

/-- What the timer has on its mind about the table. -/
def Minds (tableName : Nat) (maxNum percent : Int) (store : Store R) : Phase R → Prop
  | .idle => True
  | .counting name max per rps => OnlyByLine tableName maxNum percent rps ∧
      (name = tableName → max = maxNum ∧ per = percent)
  | .deleting name tryDeleteNum arrived rps => OnlyByLine tableName maxNum percent rps ∧
      (name = tableName → ((tryDeleteNum + share maxNum percent + arrived : Int) = store.rows.length) ∧
        0 < tryDeleteNum)
  | .expiring name _ _ rps => OnlyByLine tableName maxNum percent rps ∧ name ≠ tableName

section Keeps

variable {tableName : Nat} {maxNum percent : Int} {store : Store R} {rps : List (RetentionPolicy R)}

theorem minds_loop : ∀ {rps : List (RetentionPolicy R)}, OnlyByLine tableName maxNum percent rps →
    Minds tableName maxNum percent store (.loop rps)
  | [], _ => trivial
  | ⟨name, .always⟩ :: rps, only => by
      unfold Phase.loop
      exact minds_loop fun rp inside => only rp (List.mem_cons_of_mem _ inside)
  | ⟨name, .byLine max per⟩ :: rps, only => by
      refine ⟨fun rp inside => only rp (List.mem_cons_of_mem _ inside), fun same => ?_⟩
      rcases only _ List.mem_cons_self same with no | yes
      · cases no
      · cases yes
        exact ⟨rfl, rfl⟩
  | ⟨name, .byTimestamp whereField expireS⟩ :: rps, only => by
      refine ⟨fun rp inside => only rp (List.mem_cons_of_mem _ inside), fun same => ?_⟩
      rcases only _ List.mem_cons_self same with no | no
      · cases no
      · cases no

/-- A row more in the table is one that has come since the count. -/
theorem minds_arrive {after : Store R} {name : Nat} {phase : Phase R}
    (same : name = tableName → after.rows.length = store.rows.length + 1)
    (other : name ≠ tableName → after.rows.length = store.rows.length)
    (minds : Minds tableName maxNum percent store phase) :
    Minds tableName maxNum percent after (phase.arrive name) := by
  cases phase with
  | idle => trivial
  | counting name' max per rps => exact minds
  | expiring name' whereField expireS rps => exact minds
  | deleting name' tryDeleteNum arrived rps =>
      obtain ⟨only, plan⟩ := minds
      refine ⟨only, fun of => ?_⟩
      obtain ⟨planned, positive⟩ := plan of
      subst of
      by_cases arrives : name = name'
      · have more := same arrives
        rw [if_pos arrives.symm]
        omega
      · have equal := other arrives
        rw [if_neg (Ne.symm arrives)]
        omega

theorem Kept.insert (kept : Kept maxNum percent store) (rest : R) :
    Kept maxNum percent (store.insert rest) := by
  obtain ⟨ascending, ids, ⟨old, split⟩, newest, bounded⟩ := kept
  refine ⟨?_, fun row inside => ?_, ⟨old, ?_⟩, ?_, ?_⟩
  · refine List.pairwise_append.2 ⟨ascending, List.pairwise_singleton .., fun row inside new added => ?_⟩
    obtain rfl := List.mem_singleton.1 added
    exact ids row inside
  · simp only [Store.insert] at inside ⊢
    rcases List.mem_append.1 inside with older | added
    · have less := ids row older
      omega
    · obtain rfl := List.mem_singleton.1 added
      exact Int.lt_succ _
  · show old ++ (store.rows ++ [_]) = store.inserted ++ [_]
    rw [← split, List.append_assoc]
  · simp only [Store.insert, List.length_append, List.length_singleton]
    omega
  · simp only [Store.insert, List.length_append, List.length_singleton]
    omega

theorem Kept.rows_ascending (kept : Kept maxNum percent store) : Ascending store.rows :=
  kept.ascending.sublist kept.suffix.sublist

/-- The count finds a short table. -/
theorem Kept.short (kept : Kept maxNum percent store) (short : (store.rows.length : Int) ≤ maxNum) :
    Kept maxNum percent { store with fresh := 0 } :=
  ⟨kept.ascending, kept.ids, kept.suffix, kept.newest, by simpa using short⟩

/-- The oldest rows go, and `share` of those that were counted stay with those that have come. -/
theorem Kept.delete (sane : Sane maxNum percent) (kept : Kept maxNum percent store)
    {tryDeleteNum : Int} {arrived : Nat}
    (planned : (tryDeleteNum + share maxNum percent + arrived : Int) = store.rows.length)
    (positive : 0 < tryDeleteNum) :
    Kept maxNum percent
      { store with rows := deleteBelow tryDeleteNum store.rows, fresh := arrived } := by
  obtain ⟨-, most⟩ := share_range sane.nonneg sane.accepted
  have some_ := sane.some_
  have stays : (share maxNum percent : Int) = maxNum * percent / 100 :=
    Int.toNat_of_nonneg (by omega)
  have place : tryDeleteNum.toNat < store.rows.length := by omega
  have left : deleteBelow tryDeleteNum store.rows = store.rows.drop tryDeleteNum.toNat := by
    rw [deleteBelow_eq kept.rows_ascending, if_pos place]
  rw [left]
  refine ⟨kept.ascending, kept.ids, ?_, ?_, ?_⟩
  · exact (List.drop_suffix _ _).trans kept.suffix
  · simp only [List.length_drop]
    omega
  · simp only [List.length_drop]
    omega

/-- The plan is made, with the rows there are. -/
theorem plan_eq (sane : Sane maxNum percent)
    (fits : store.rows.length < 2 ^ 31) (long : ¬ int32 store.rows.length ≤ maxNum) :
    int32 (int32 store.rows.length - keptNum maxNum percent) + share maxNum percent + (0 : Nat) =
        (store.rows.length : Int) ∧
      0 < int32 (int32 store.rows.length - keptNum maxNum percent) := by
  obtain ⟨positive, most⟩ := share_range sane.nonneg sane.accepted
  have stays : (share maxNum percent : Int) = maxNum * percent / 100 :=
    Int.toNat_of_nonneg (by omega)
  have count : int32 (store.rows.length : Int) = store.rows.length :=
    int32_of_range (by omega) (by omega)
  rw [count] at long ⊢
  rw [keptNum_eq positive sane.fits]
  have attempt : int32 ((store.rows.length : Int) - maxNum * percent / 100) =
      store.rows.length - maxNum * percent / 100 :=
    int32_of_range (by omega) (by omega)
  rw [attempt]
  omega

end Keeps

/-! ## Runs -/

/-- Of one table: what it keeps, and what the timer has on its mind. -/
def Holds (tableName : Nat) (maxNum percent : Int) (s : Sys R) : Prop :=
  Kept maxNum percent (s.tables tableName) ∧ Minds tableName maxNum percent (s.tables tableName) s.phase

section Runs

variable {tableName : Nat} {maxNum percent : Int} {rps : List (RetentionPolicy R)} {s t : Sys R}

theorem change_same (s : Sys R) (tableName : Nat) (f : Store R → Store R) (phase : Phase R) :
    (s.change tableName f phase).tables tableName = f (s.tables tableName) :=
  Function.update_self ..

theorem change_other (s : Sys R) {name : Nat} (f : Store R → Store R) (phase : Phase R)
    (other : name ≠ tableName) : (s.change name f phase).tables tableName = s.tables tableName :=
  Function.update_of_ne (Ne.symm other) ..

/-- A policy on another table, or one that keeps all, ends. -/
theorem Holds.leave {rest : List (RetentionPolicy R)} {name : Nat} {f : Store R → Store R}
    (holds : Holds tableName maxNum percent s) (only : OnlyByLine tableName maxNum percent rest)
    (kept : name = tableName → Kept maxNum percent (f (s.tables tableName))) :
    Holds tableName maxNum percent (s.change name f (.loop rest)) := by
  by_cases same : name = tableName
  · subst same
    refine ⟨?_, minds_loop only⟩
    rw [change_same]
    exact kept rfl
  · refine ⟨?_, minds_loop only⟩
    rw [change_other s f _ same]
    exact holds.1

theorem Holds.insert (holds : Holds tableName maxNum percent s) (name : Nat) (rest : R) :
    Holds tableName maxNum percent (s.change name (Store.insert rest) (s.phase.arrive name)) := by
  obtain ⟨kept, minds⟩ := holds
  unfold Holds
  by_cases same : name = tableName
  · subst same
    rw [change_same]
    refine ⟨kept.insert rest, minds_arrive (fun _ => ?_) (fun other => absurd rfl other) minds⟩
    exact List.length_append
  · rw [change_other s _ _ same]
    exact ⟨kept, minds_arrive (fun same' => absurd same' same) (fun _ => rfl) minds⟩

/-- One step, while the rows can be counted. -/
theorem holds_step (sane : Sane maxNum percent) (only : OnlyByLine tableName maxNum percent rps)
    {act : Act R} (fits : Countable tableName s act)
    (holds : Holds tableName maxNum percent s) (moved : timerStep rps s act = some t) :
    Holds tableName maxNum percent t := by
  cases act with
  | insert name rest =>
      obtain rfl := Option.some.inj moved
      exact holds.insert name rest
  | onTimer =>
      simp only [timerStep] at moved
      split at moved
      · obtain rfl := Option.some.inj moved
        exact ⟨holds.1, minds_loop only⟩
      · cases moved
  | sql ok now =>
      have minds := holds.2
      simp only [timerStep] at moved
      split at moved
      · cases moved
      · rename_i name max per rest before
        rw [before] at minds
        obtain ⟨later, numbers⟩ := minds
        split at moved
        · obtain rfl := Option.some.inj moved
          exact ⟨holds.1, minds_loop later⟩
        · split at moved
          · rename_i short
            obtain rfl := Option.some.inj moved
            refine holds.leave later fun same => ?_
            subst same
            obtain ⟨rfl, rfl⟩ := numbers rfl
            have rows : (s.tables name).rows.length < 2 ^ 31 := fits
            rw [int32_of_range (by omega) (by omega)] at short
            exact holds.1.short short
          · rename_i long
            obtain rfl := Option.some.inj moved
            refine ⟨holds.1, later, fun same => ?_⟩
            subst same
            obtain ⟨rfl, rfl⟩ := numbers rfl
            exact plan_eq sane fits long
      · rename_i name tryDeleteNum arrived rest before
        rw [before] at minds
        obtain ⟨later, planned⟩ := minds
        split at moved
        · obtain rfl := Option.some.inj moved
          exact ⟨holds.1, minds_loop later⟩
        · obtain rfl := Option.some.inj moved
          refine holds.leave later fun same => ?_
          exact holds.1.delete sane (planned same).1 (planned same).2
      · rename_i name whereField expireS rest before
        rw [before] at minds
        obtain ⟨later, other⟩ := minds
        split at moved
        · obtain rfl := Option.some.inj moved
          exact ⟨holds.1, minds_loop later⟩
        · obtain rfl := Option.some.inj moved
          exact holds.leave later fun same => absurd same other

theorem holds_new (sane : Sane maxNum percent) :
    Holds tableName maxNum percent (newSys : Sys R) := by
  have nonneg := sane.nonneg
  refine ⟨⟨List.Pairwise.nil, nofun, List.suffix_rfl, Nat.min_le_right .., ?_⟩, trivial⟩
  change ((0 : Nat) : Int) ≤ maxNum + (0 : Nat)
  omega

theorem holds_run (sane : Sane maxNum percent) (only : OnlyByLine tableName maxNum percent rps)
    {acts : List (Act R)} (fits : Along (timerStep rps) (Countable tableName) newSys acts)
    (ran : exec (timerStep rps) newSys acts = some s) : Holds tableName maxNum percent s := by
  apply exec_invariant_along (C := Countable tableName) ?_ fits (holds_new sane) ran
  intro s act t fits holds moved
  exact holds_step sane only fits holds moved

end Runs

/-- Four rows, of which one is to stay when there are more than three; one row comes between the
count and the deletion, and one behind it. -/
def busyActs : List (Act Unit) :=
  [.insert 0 (), .insert 0 (), .insert 0 (), .insert 0 (), .onTimer, .sql true 0, .insert 0 (),
    .sql true 0, .insert 0 ()]

end ChargerStack.Database.AutoDelete
