/-
# Utils.Comparisons -- what the operations of the queue compare

The comparators of the source are differences in a fixed width, and the order they are to induce
is that of the whole difference.  A queue cannot tell the two apart as long as they agree on the
pairs that it compares.

* `perform_congr_comparisons`: comparators that agree on the comparisons of an operation make
  the operation the same;
* `comparisons_subset`: an operation compares what is queued and the item it pushes.
-/
import ChargerStack.Utils.PriorityQueue

namespace ChargerStack.Utils.PriorityQueue

open ChargerStack.Cxx
open ChargerStack.Lib
open ChargerStack.Lib.Heap

set_option autoImplicit false

variable {V : Type}

/-! ## The pairs -/

/-- The pairs that the loop of `priority_queue_push` compares. -/
def siftUpPairs (compare : Compare V) : Nat → (Nat → Pv V) → Nat → List (Pv V × Pv V)
  | 0, _, _ => []
  | fuel + 1, elements, index =>
      if 0 < index then
        (elements (parent index), elements index) ::
          if 0 ≤ compare (elements (parent index)) (elements index) then []
          else siftUpPairs compare fuel (exchange elements (parent index) index) (parent index)
      else []

/-- The pair of a child that is used and the greatest so far. -/
def childPair (size : Nat) (elements : Nat → Pv V) (child largest : Nat) : List (Pv V × Pv V) :=
  if child < size then [(elements child, elements largest)] else []

/-- The pairs that the loop of the two pops compares. -/
def siftDownPairs (compare : Compare V) (size : Nat) :
    Nat → (Nat → Pv V) → Nat → List (Pv V × Pv V)
  | 0, _, _ => []
  | fuel + 1, elements, father =>
      childPair size elements (2 * father + 1) father ++
        childPair size elements (2 * father + 2)
          (largerOf compare size elements (2 * father + 1) father) ++
        if largestIndex compare size elements father = father then []
        else siftDownPairs compare size fuel
          (exchange elements father (largestIndex compare size elements father))
          (largestIndex compare size elements father)

/-- The pairs that an operation compares, the left operand first. -/
def comparisons (compare : Compare V) (pq : Pq V) : Op V → List (Pv V × Pv V)
  | .push item =>
      if pqFull pq then []
      else siftUpPairs compare (pq.size + 1) (store pq.elements pq.size item) pq.size
  | .tryPop | .pop =>
      if pqEmpty pq then []
      else siftDownPairs compare (pq.size - 1) (pq.size - 1 + 1)
        (store pq.elements 0 (pq.elements (pq.size - 1))) 0
  | .clear _ => []

/-- What an operation compares. -/
def compared (pq : Pq V) : Op V → List (Pv V)
  | .push item => pq.queued ++ [item]
  | _ => pq.queued

variable {compare compare' : Compare V} {elements : Nat → Pv V} {index father size fuel : Nat}
  {pq pq' : Pq V} {op : Op V} {answer : Answer V} {c : Pv V × Pv V}

/-- The two comparators agree on these pairs. -/
def AgreeOn (compare compare' : Compare V) (pairs : List (Pv V × Pv V)) : Prop :=
  ∀ c ∈ pairs, compare c.1 c.2 = compare' c.1 c.2

theorem AgreeOn.left {pairs pairs' : List (Pv V × Pv V)}
    (agree : AgreeOn compare compare' (pairs ++ pairs')) : AgreeOn compare compare' pairs :=
  fun c member => agree c (List.mem_append_left pairs' member)

theorem AgreeOn.right {pairs pairs' : List (Pv V × Pv V)}
    (agree : AgreeOn compare compare' (pairs ++ pairs')) : AgreeOn compare compare' pairs' :=
  fun c member => agree c (List.mem_append_right pairs member)

/-! ## The same answers -/

theorem siftUp_congr (agree : AgreeOn compare compare' (siftUpPairs compare fuel elements index)) :
    siftUp compare fuel elements index = siftUp compare' fuel elements index := by
  induction fuel generalizing elements index with
  | zero => rfl
  | succ fuel ih =>
      unfold siftUpPairs at agree
      unfold siftUp
      by_cases inner : 0 < index
      · rw [if_pos inner] at agree
        have same : compare (elements (parent index)) (elements index) =
            compare' (elements (parent index)) (elements index) := agree _ List.mem_cons_self
        rw [if_pos inner, if_pos inner]
        show (if 0 ≤ compare (elements (parent index)) (elements index) then _ else _) =
          if 0 ≤ compare' (elements (parent index)) (elements index) then _ else _
        rw [← same]
        by_cases fits : 0 ≤ compare (elements (parent index)) (elements index)
        · rw [if_pos fits, if_pos fits]
        · rw [if_neg fits] at agree
          rw [if_neg fits, if_neg fits]
          exact ih fun c member => agree c (List.mem_cons_of_mem _ member)
      · rw [if_neg inner, if_neg inner]

theorem largerOf_congr {child largest : Nat}
    (agree : AgreeOn compare compare' (childPair size elements child largest)) :
    largerOf compare size elements child largest = largerOf compare' size elements child largest := by
  unfold largerOf
  unfold childPair at agree
  by_cases used : child < size
  · rw [if_pos used] at agree
    rw [agree _ (List.mem_singleton.2 rfl)]
  · rw [if_neg (fun both => used both.1), if_neg (fun both => used both.1)]

theorem siftDown_congr (small : size < 2 ^ 30)
    (agree : AgreeOn compare compare' (siftDownPairs compare size fuel elements father))
    (inside : father < size ∨ father = 0) :
    siftDown compare size fuel elements father = siftDown compare' size fuel elements father := by
  induction fuel generalizing elements father with
  | zero => rfl
  | succ fuel ih =>
      unfold siftDownPairs at agree
      have first := largerOf_congr agree.left.left
      have largest : largestIndex compare size elements father =
          largestIndex compare' size elements father := by
        rw [largestIndex, largestIndex, ← first]
        exact largerOf_congr agree.left.right
      rw [siftDown_succ (by omega), siftDown_succ (by omega), ← largest]
      rcases largestIndex_cases compare size elements father with stop | ⟨child, less⟩
      · rw [if_pos stop, if_pos stop]
      · have rest := agree.right
        rw [if_neg (by omega)] at rest
        rw [if_neg (by omega), if_neg (by omega)]
        exact ih rest (.inl less)

/-- **Comparators that agree on its comparisons make an operation the same.** -/
theorem perform_congr_comparisons (small : op.Pops → pq.size ≤ 2 ^ 30)
    (agree : AgreeOn compare compare' (comparisons compare pq op)) :
    perform compare pq op = perform compare' pq op := by
  have taken : op.Pops → pqEmpty pq = false →
      AgreeOn compare compare' (siftDownPairs compare (pq.size - 1) (pq.size - 1 + 1)
        (store pq.elements 0 (pq.elements (pq.size - 1))) 0) →
      takeTop compare pq = takeTop compare' pq := by
    intro pops nonempty agree
    have few := small pops
    have some : pq.size ≠ 0 := fun empty => by
      rw [pqEmpty_iff.2 empty] at nonempty
      cases nonempty
    have less : pq.size - 1 < 2 ^ 30 := by omega
    rw [takeTop, takeTop, siftDown_congr less agree (.inr rfl)]
  unfold comparisons at agree
  cases op with
  | push item =>
      dsimp only at agree
      rw [perform, perform, priorityQueuePush, priorityQueuePush]
      cases full : pqFull pq with
      | true => rw [if_pos rfl, if_pos rfl]
      | false =>
          rw [full] at agree
          rw [siftUp_congr agree]
  | tryPop =>
      dsimp only at agree
      rw [perform, perform, priorityQueueTryPop, priorityQueueTryPop]
      cases empty : pqEmpty pq with
      | true => rw [if_pos rfl, if_pos rfl]
      | false =>
          rw [empty] at agree
          rw [taken (.inl rfl) empty agree]
  | pop =>
      dsimp only at agree
      rw [perform, perform, priorityQueuePop, priorityQueuePop]
      cases empty : pqEmpty pq with
      | true => rw [if_pos rfl, if_pos rfl]
      | false =>
          rw [empty] at agree
          rw [taken (.inr rfl) empty agree]
  | clear freeCallback => rfl

/-! ## Where the pairs come from -/

/-- Both operands are among these. -/
def Within (items : List (Pv V)) (c : Pv V × Pv V) : Prop := c.1 ∈ items ∧ c.2 ∈ items

theorem within_live {i j : Nat} (left : i < size) (right : j < size) :
    Within (live elements size) (elements i, elements j) :=
  ⟨mem_live.2 ⟨i, left, rfl⟩, mem_live.2 ⟨j, right, rfl⟩⟩

theorem Within.subset {items items' : List (Pv V)} (within : Within items c)
    (subset : items ⊆ items') : Within items' c :=
  ⟨subset within.1, subset within.2⟩

theorem siftUpPairs_within (inside : index < size)
    (member : c ∈ siftUpPairs compare fuel elements index) : Within (live elements size) c := by
  induction fuel generalizing elements index with
  | zero => cases member
  | succ fuel ih =>
      unfold siftUpPairs at member
      by_cases inner : 0 < index
      · have less : parent index < index := parent_lt inner
        rw [if_pos inner] at member
        rcases List.mem_cons.1 member with rfl | later
        · exact within_live (by omega) inside
        · split at later
          · cases later
          · exact (ih (by omega) later).subset (live_exchange (by omega) inside).subset
      · rw [if_neg inner] at member
        cases member

theorem childPair_within {child largest : Nat} (inside : child < size → largest < size)
    (member : c ∈ childPair size elements child largest) : Within (live elements size) c := by
  unfold childPair at member
  split at member
  · next used =>
      rw [List.mem_singleton.1 member]
      exact within_live used (inside used)
  · cases member

theorem siftDownPairs_within (inside : father < size ∨ father = 0)
    (member : c ∈ siftDownPairs compare size fuel elements father) :
    Within (live elements size) c := by
  induction fuel generalizing elements father with
  | zero => cases member
  | succ fuel ih =>
      unfold siftDownPairs at member
      have left := largerOf_cases compare size elements (2 * father + 1) father
      rcases List.mem_append.1 member with children | later
      · rcases List.mem_append.1 children with member | member
        · exact childPair_within (by omega) member
        · exact childPair_within (by omega) member
      · rcases largestIndex_cases compare size elements father with stop | ⟨child, less⟩
        · rw [if_pos stop] at later
          cases later
        · rw [if_neg (by omega)] at later
          exact (ih (.inl less) later).subset (live_exchange (by omega) less).subset

/-- **An operation compares what is queued**, and the item it pushes. -/
theorem comparisons_within (member : c ∈ comparisons compare pq op) :
    Within (compared pq op) c := by
  have popped : pqEmpty pq = false →
      c ∈ siftDownPairs compare (pq.size - 1) (pq.size - 1 + 1)
        (store pq.elements 0 (pq.elements (pq.size - 1))) 0 → Within pq.queued c := by
    intro nonempty member
    have some : pq.size ≠ 0 := fun empty => by
      rw [pqEmpty_iff.2 empty] at nonempty
      cases nonempty
    have dropped := live_drop_root (f := pq.elements) (n := pq.size - 1)
    rw [show pq.size - 1 + 1 = pq.size by omega] at dropped
    refine (siftDownPairs_within (.inr rfl) member).subset fun v left => ?_
    exact dropped.subset (List.mem_cons_of_mem _ left)
  unfold comparisons at member
  cases op with
  | push item =>
      dsimp only at member
      split at member
      · cases member
      · have within := siftUpPairs_within (Nat.lt_succ_self pq.size) member
        rwa [live_store_end] at within
  | tryPop | pop =>
      dsimp only at member
      cases empty : pqEmpty pq with
      | true =>
          rw [empty] at member
          cases member
      | false =>
          rw [empty] at member
          exact popped empty member
  | clear freeCallback => cases member

/-- The two comparators agree on these elements. -/
def Agree (compare compare' : Compare V) (items : List (Pv V)) : Prop :=
  ∀ a ∈ items, ∀ b ∈ items, compare a b = compare' a b

/-- Comparators that agree on what is compared make an operation the same. -/
theorem perform_congr (small : op.Pops → pq.size ≤ 2 ^ 30)
    (agree : Agree compare compare' (compared pq op)) :
    perform compare pq op = perform compare' pq op := by
  refine perform_congr_comparisons small fun c member => ?_
  have within := comparisons_within member
  exact agree c.1 within.1 c.2 within.2

/-- What is queued after an operation was queued before, or is pushed by it. -/
theorem queued_subset (small : op.Pops → pq.size ≤ 2 ^ 30)
    (returned : perform compare pq op = some (pq', answer)) : pq'.queued ⊆ compared pq op := by
  obtain ⟨-, done⟩ := perform_cases small returned
  rcases done with ⟨item, rfl, -, rfl, -⟩ | ⟨item, rfl, -, -, perm, -⟩ | ⟨rfl, -, rfl, -⟩ |
    ⟨rfl | rfl, -, -, perm, -⟩ | ⟨freeCallback, rfl, empty, -⟩
  · exact List.subset_append_left _ _
  · exact perm.subset
  · exact fun _ member => member
  · exact fun _ member => perm.subset (List.mem_cons_of_mem _ member)
  · exact fun _ member => perm.subset (List.mem_cons_of_mem _ member)
  · rw [queued_of_empty empty]
    exact List.nil_subset _

end ChargerStack.Utils.PriorityQueue
