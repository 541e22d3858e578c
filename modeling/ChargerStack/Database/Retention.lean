/-
# Database.Retention -- the retention by line number of database/dao/retention_policy.c

When a table has more rows than `max_num`, `by_line` deletes the oldest until `percent` of
`max_num` are left.  It hands the number to delete to SQLite as the offset of the first row
that stays, computed in `int32_t`.

* `deleteBelow` is the DELETE with its subquery: past the last row the subquery is NULL and
  nothing is deleted;
* `by_line_retains_iff`: the policy does what it is for exactly when there is nothing to
  delete, or at least one row is to stay and the product of `max_num` and `percent` and the
  number of rows fit an `int32_t`.
-/
import Mathlib.Data.List.Basic
import ChargerStack.Cxx.Basic

namespace ChargerStack.Database.Retention

open ChargerStack.Cxx

set_option autoImplicit false

universe u

variable {R : Type u}

/-- A row with its `id`. -/
structure Row (R : Type u) where
  id : Int
  rest : R
  deriving DecidableEq, Repr

/-- The rows in the order SQLite scans them. -/
abbrev Table (R : Type u) := List (Row R)

/-- The ids are distinct, and the scan is in their order. -/
def Ascending (table : Table R) : Prop := table.Pairwise fun a b => a.id < b.id

instance (table : Table R) : Decidable (Ascending table) :=
  inferInstanceAs (Decidable (table.Pairwise _))

/-- `select id from T limit 1 offset ?`; a negative offset is 0. -/
def idAtOffset (offset : Int) (table : Table R) : Option Int := table[offset.toNat]?.map Row.id

/-- `delete from T where id < (select id from T limit 1 offset ?)`.  Nothing is less than
NULL. -/
def deleteBelow (offset : Int) (table : Table R) : Table R :=
  match idAtOffset offset table with
  | none => table
  | some id => table.filter fun row => ¬ row.id < id

/-- `by_line`, with every statement succeeding: the table that is left and the answer. -/
def byLine (maxNum percent : Int) (table : Table R) : Table R × Bool :=
  let curLineNum := int32 table.length
  if curLineNum ≤ maxNum then (table, true)
  else
    let tryDeleteNum := int32 (curLineNum - Int.tdiv (int32 (maxNum * percent)) 100)
    let rest := deleteBelow tryDeleteNum table
    let realDeleteNum := int32 ((table.length : Int) - rest.length)
    if realDeleteNum = -1 then (rest, false)
    else if realDeleteNum ≠ tryDeleteNum then (rest, false)
    else (rest, true)

/-- `new_retention_policy_by_line` accepts these. -/
def AcceptedPercent (percent : Int) : Prop := ¬ (percent < 0 ∨ percent > 100)

/-- What the policy is for: a table that is not too long stays, of another the last rows stay,
`percent` of `max_num` of them. -/
def Retains (maxNum percent : Int) (table : Table R) : Prop :=
  byLine maxNum percent table =
    if (table.length : Int) ≤ maxNum then (table, true)
    else (table.drop (table.length - (maxNum * percent / 100).toNat), true)

variable {table : Table R} {maxNum percent : Int}

/-- The rows before a place have the smaller ids. -/
theorem deleteBelow_split {x y : Table R} {row : Row R} (ascending : Ascending (x ++ row :: y)) :
    deleteBelow x.length (x ++ row :: y) = row :: y := by
  have found : idAtOffset x.length (x ++ row :: y) = some row.id := by
    rw [idAtOffset, Int.toNat_natCast, List.getElem?_append_right (Nat.le_refl _), Nat.sub_self]
    rfl
  rw [Ascending, List.pairwise_append, List.pairwise_cons] at ascending
  obtain ⟨-, ⟨behind, -⟩, before⟩ := ascending
  have left : x.filter (fun other => ¬ other.id < row.id) = [] := by
    rw [List.filter_eq_nil_iff]
    intro other member
    simpa using before other member row List.mem_cons_self
  have right : y.filter (fun other => ¬ other.id < row.id) = y := by
    rw [List.filter_eq_self]
    intro other member
    simpa using Int.le_of_lt (behind other member)
  rw [deleteBelow, found]
  dsimp only
  rw [List.filter_append, left, List.nil_append, List.filter_cons_of_pos (by simp), right]

/-- **The DELETE** takes the rows before the offset, and none if there are not so many. -/
theorem deleteBelow_eq (ascending : Ascending table) (offset : Int) :
    deleteBelow offset table =
      if offset.toNat < table.length then table.drop offset.toNat else table := by
  have same : idAtOffset (offset.toNat : Int) table = idAtOffset offset table := rfl
  split
  · rename_i inside
    have split : table = table.take offset.toNat ++
        table[offset.toNat] :: table.drop (offset.toNat + 1) := by
      rw [← List.drop_eq_getElem_cons inside, List.take_append_drop]
    have length : (table.take offset.toNat).length = offset.toNat :=
      List.length_take_of_le (Nat.le_of_lt inside)
    have deleted := deleteBelow_split (split ▸ ascending)
    rw [← split, length, ← List.drop_eq_getElem_cons inside] at deleted
    rwa [deleteBelow, same] at deleted
  · rename_i past
    have none : idAtOffset offset table = none := by
      rw [idAtOffset, List.getElem?_eq_none (Nat.not_lt.1 past)]
      rfl
    rw [deleteBelow, none]

/-- The number of rows to stay, as `by_line` computes it. -/
def keptNum (maxNum percent : Int) : Int := Int.tdiv (int32 (maxNum * percent)) 100

/-- A division of C rounds towards 0. -/
theorem tdiv_hundred (n : Int) :
    (0 ≤ n ∧ n.tdiv 100 = n / 100) ∨ (n < 0 ∧ n.tdiv 100 = -(-n / 100)) := by
  by_cases nonneg : 0 ≤ n
  · exact .inl ⟨nonneg, Int.tdiv_eq_ediv_of_nonneg nonneg⟩
  · refine .inr ⟨Int.not_le.1 nonneg, ?_⟩
    rw [← Int.tdiv_eq_ediv_of_nonneg (show 0 ≤ -n by omega), Int.neg_tdiv, Int.neg_neg]

theorem keptNum_range (maxNum percent : Int) :
    -21474836 ≤ keptNum maxNum percent ∧ keptNum maxNum percent ≤ 21474836 := by
  have range := int32_range (maxNum * percent)
  have rounded := tdiv_hundred (int32 (maxNum * percent))
  unfold keptNum
  omega

theorem keptNum_eq (nonneg : 0 ≤ maxNum * percent) (small : maxNum * percent < 2 ^ 31) :
    keptNum maxNum percent = maxNum * percent / 100 := by
  rw [keptNum, int32_of_range (by omega) small]
  exact Int.tdiv_eq_ediv_of_nonneg nonneg

/-- An overflow makes the number wrong. -/
theorem keptNum_ne (maxNum percent : Int) (large : 2 ^ 31 ≤ maxNum * percent) :
    keptNum maxNum percent ≠ maxNum * percent / 100 := by
  have range := keptNum_range maxNum percent
  have rounded := tdiv_hundred (int32 (maxNum * percent))
  rw [← keptNum] at rounded
  generalize maxNum * percent = product at *
  -- just above the limit the product is negative, and further above it is too large
  by_cases close : product < 2 ^ 31 + 2 ^ 31
  · have wrapped : int32 product = product - 2 ^ 32 := by
      simp only [int32, Int.bmod]
      split <;> omega
    omega
  · omega

theorem int32_wrap (n : Int) : ∃ turns : Int, int32 n = n - 2 ^ 32 * turns := by
  refine ⟨(n - int32 n) / 2 ^ 32, ?_⟩
  simp only [int32, Int.bmod]
  split <;> omega

/-- The condition under which the policy retains what it is to retain. -/
def Retainable (maxNum percent : Int) (table : Table R) : Prop :=
  (table.length : Int) ≤ maxNum ∨
    ((table.length : Int) < 2 ^ 31 ∧ 100 ≤ maxNum * percent ∧ maxNum * percent < 2 ^ 31)

/-- The percentage of a number is not above it. -/
theorem share_range (nonneg : 0 ≤ maxNum) (accepted : AcceptedPercent percent) :
    0 ≤ maxNum * percent ∧ maxNum * percent / 100 ≤ maxNum := by
  unfold AcceptedPercent at accepted
  have low : 0 ≤ maxNum * percent := Int.mul_nonneg nonneg (by omega)
  have high : maxNum * percent ≤ maxNum * 100 := Int.mul_le_mul_of_nonneg_left (by omega) nonneg
  exact ⟨low, by omega⟩

theorem retains_of_retainable (ascending : Ascending table) (nonneg : 0 ≤ maxNum)
    (small : maxNum < 2 ^ 31) (accepted : AcceptedPercent percent)
    (retainable : Retainable maxNum percent table) : Retains maxNum percent table := by
  obtain ⟨-, most⟩ := share_range nonneg accepted
  unfold Retains byLine
  dsimp only
  rcases retainable with short | ⟨rows, some, fits⟩
  · rw [int32_of_range (by omega) (by omega), if_pos short, if_pos short]
  · have current : int32 (table.length : Int) = table.length := int32_of_range (by omega) rows
    rw [current]
    by_cases short : (table.length : Int) ≤ maxNum
    · rw [if_pos short, if_pos short]
    · have one : 1 ≤ maxNum * percent / 100 := by omega
      rw [if_neg short, if_neg short, ← keptNum, keptNum_eq (by omega) fits]
      generalize maxNum * percent / 100 = kept at *
      have attempt : int32 ((table.length : Int) - kept) = table.length - kept :=
        int32_of_range (by omega) (by omega)
      have place : ((table.length : Int) - kept).toNat = table.length - kept.toNat := by omega
      have real : int32 ((table.length : Int) - (table.drop (table.length - kept.toNat)).length) =
          table.length - kept := by
        have difference : (table.length : Int) -
            (table.length - (table.length - kept.toNat) : Nat) = table.length - kept := by omega
        rw [List.length_drop, difference, attempt]
      have deleted : deleteBelow ((table.length : Int) - kept) table =
          table.drop (table.length - kept.toNat) := by
        rw [deleteBelow_eq ascending, place, if_pos (by omega)]
      rw [attempt, deleted, real, if_neg (by omega), if_neg (fun other => other rfl)]

/-- The table that is left. -/
theorem byLine_fst (maxNum percent : Int) (table : Table R) :
    (byLine maxNum percent table).1 =
      if int32 table.length ≤ maxNum then table
      else deleteBelow (int32 (int32 table.length - keptNum maxNum percent)) table := by
  unfold byLine
  dsimp only
  split
  · rfl
  · split
    · rfl
    · split <;> rfl

/-- What a policy that retains the right rows must have computed. -/
theorem retainable_of_retains (ascending : Ascending table) (nonneg : 0 ≤ maxNum)
    (small : maxNum < 2 ^ 31) (accepted : AcceptedPercent percent)
    (retains : Retains maxNum percent table) : Retainable maxNum percent table := by
  obtain ⟨positive, most⟩ := share_range nonneg accepted
  by_cases short : (table.length : Int) ≤ maxNum
  · exact .inl short
  refine .inr ?_
  have range := keptNum_range maxNum percent
  obtain ⟨turns, current⟩ := int32_wrap table.length
  have currentRange := int32_range table.length
  obtain ⟨turns', attempt⟩ := int32_wrap (int32 table.length - keptNum maxNum percent)
  have attemptRange := int32_range (int32 table.length - keptNum maxNum percent)
  have wrong := keptNum_ne maxNum percent
  have left : ((byLine maxNum percent table).1.length : Int) = maxNum * percent / 100 := by
    rw [retains, if_neg short, List.length_drop]
    omega
  rw [byLine_fst, deleteBelow_eq ascending] at left
  generalize int32 (int32 table.length - keptNum maxNum percent) = offset at *
  split at left
  · -- the count has wrapped, and the table is taken for short
    omega
  · split at left
    · -- the offset is the right one, and so is the number of rows to stay
      rw [List.length_drop] at left
      have right : keptNum maxNum percent = maxNum * percent / 100 := by omega
      have fits : maxNum * percent < 2 ^ 31 := Int.not_le.1 fun large => wrong large right
      exact ⟨by omega, by omega, fits⟩
    · omega

/-- **When the policy retains what it is to retain.**  Exactly when the table is not too long, or
at least one row is to stay and neither the number of rows nor `max_num * percent` is out of
the range of an `int32_t`. -/
theorem by_line_retains_iff (R : Type) (table : Table R) (ascending : Ascending table)
    (maxNum percent : Int) (nonneg : 0 ≤ maxNum) (small : maxNum < 2 ^ 31)
    (accepted : AcceptedPercent percent) :
    Retains maxNum percent table ↔
      ((table.length : Int) ≤ maxNum ∨
        ((table.length : Int) < 2 ^ 31 ∧ 100 ≤ maxNum * percent ∧ maxNum * percent < 2 ^ 31)) :=
  ⟨retainable_of_retains ascending nonneg small accepted,
    retains_of_retainable ascending nonneg small accepted⟩

/-- Rows with the ids 1, 2, 3 and so on. -/
def numbered (n : Nat) : Table Unit := (List.range n).map fun i => ⟨i + 1, ()⟩

/-- Eleven rows, of which half of ten are to stay. -/
theorem numbered_retains_half :
    byLine 10 50 (numbered 11) = ((numbered 11).drop 6, true) := by
  have retains := (by_line_retains_iff Unit (numbered 11) (by decide) 10 50 (by decide) (by decide)
    (by unfold AcceptedPercent; decide)).2 (.inr (by decide))
  exact retains

/-- Eleven rows, of which none is to stay: all do, and the answer is `false`. -/
theorem numbered_retains_all :
    Ascending (numbered 11) ∧ byLine 10 0 (numbered 11) = (numbered 11, false) ∧
      ¬ Retains 10 0 (numbered 11) := by
  refine ⟨by decide, by decide, ?_⟩
  unfold Retains
  decide

end ChargerStack.Database.Retention
