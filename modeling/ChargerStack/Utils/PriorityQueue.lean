/-
# Utils.PriorityQueue -- the bounded heap of utils/priority_queue/priority_queue.c

The queue is an array of `capacity` elements of which the first `size` are used, kept as an
implicit binary heap by a comparator that the creator of the queue chooses.  An index is an
`int32_t`, and the children of a place are computed in that width.

* `push_full`, `push_room` and `takeTop_spec` say what the operations do with any comparator
  at all: they return, and the elements are those there were with the one added or taken;
* `queue_in_heap_order`: with one total preorder, over any run, the elements are in heap
  order, a push fails exactly on a full queue, a pop returns what `pq_top` showed and
  nothing queued compares greater, and what is queued is what was pushed without what was
  popped since the last clear.
-/
import ChargerStack.Cxx.Basic
import ChargerStack.Lib.Heap
import ChargerStack.Lib.Run

namespace ChargerStack.Utils.PriorityQueue

open ChargerStack.Cxx
open ChargerStack.Lib
open ChargerStack.Lib.Heap

set_option autoImplicit false

/-! ## The queue -/

/-- `pv_t`.  The value is what `_value` points at, `none` for `NULL`. -/
structure Pv (V : Type) where
  priority : Int
  value : Option V
  timestamp : Nat
  deriving DecidableEq, Repr

/-- `pq_t`, without its mutex and its comparator. -/
structure Pq (V : Type) where
  elements : Nat → Pv V
  capacity : Int
  size : Nat

variable {V : Type}

/-- The comparator of a queue, as the clock has it during an operation. -/
abbrev Compare (V : Type) := Pv V → Pv V → Int

/-- What is queued, in the order of the array. -/
def Pq.queued (pq : Pq V) : List (Pv V) := live pq.elements pq.size

/-- `pq_init`: the memory of the elements holds anything. -/
def pqInit (capacity : Int) (memory : Nat → Pv V) : Pq V := ⟨memory, capacity, 0⟩

/-- `pq_full`. -/
def pqFull (pq : Pq V) : Bool := decide (pq.capacity ≤ pq.size)

/-- `pq_empty`. -/
def pqEmpty (pq : Pq V) : Bool := decide (pq.size = 0)

/-- `pq_top`. -/
def pqTop (pq : Pq V) : Pv V := if pq.size = 0 then ⟨0, none, 0⟩ else pq.elements 0

/-- The loop of `priority_queue_push`, from the new element up. -/
def siftUp (compare : Compare V) : Nat → (Nat → Pv V) → Nat → Option (Nat → Pv V)
  | 0, _, _ => none
  | fuel + 1, elements, index =>
      if 0 < index then
        let parentIndex := (index - 1) / 2
        if 0 ≤ compare (elements parentIndex) (elements index) then some elements
        else siftUp compare fuel (exchange elements parentIndex index) parentIndex
      else some elements

/-- The test of one child: the greater of it and the greatest so far.  There is no result for
a read in front of the array. -/
def largestOf (compare : Compare V) (size : Nat) (elements : Nat → Pv V) (child : Int)
    (largest : Nat) : Option Nat :=
  if child < size then
    if child < 0 then none
    else if 0 < compare (elements child.toNat) (elements largest) then some child.toNat
    else some largest
  else some largest

/-- The loop of the two pops, from the root down. -/
def siftDown (compare : Compare V) (size : Nat) :
    Nat → (Nat → Pv V) → Nat → Option (Nat → Pv V)
  | 0, _, _ => none
  | fuel + 1, elements, father =>
      let leftChild := int32 (2 * father + 1)
      let rightChild := int32 (2 * father + 2)
      (largestOf compare size elements leftChild father).bind fun largest =>
        (largestOf compare size elements rightChild largest).bind fun largestIndex =>
          if largestIndex = father then some elements
          else siftDown compare size fuel (exchange elements father largestIndex) largestIndex

/-- `priority_queue_push`. -/
def priorityQueuePush (compare : Compare V) (item : Pv V) (pq : Pq V) : Option (Pq V × Bool) :=
  if pqFull pq then some (pq, false)
  else
    (siftUp compare (pq.size + 1) (store pq.elements pq.size item) pq.size).map fun elements =>
      ({ pq with elements := elements, size := pq.size + 1 }, true)

/-- The part of the two pops behind the test for an empty queue. -/
def takeTop (compare : Compare V) (pq : Pq V) : Option (Pq V × Pv V) :=
  let size := pq.size - 1
  (siftDown compare size (size + 1) (store pq.elements 0 (pq.elements size)) 0).map fun elements =>
    ({ pq with elements := elements, size := size }, pq.elements 0)

/-- `priority_queue_try_pop`. -/
def priorityQueueTryPop (compare : Compare V) (pq : Pq V) : Option (Pq V × Option (Pv V)) :=
  if pqEmpty pq then some (pq, none)
  else (takeTop compare pq).map fun r => (r.1, some r.2)

/-- `priority_queue_pop`.  On an empty queue it waits. -/
def priorityQueuePop (compare : Compare V) (pq : Pq V) : Option (Pq V × Pv V) :=
  if pqEmpty pq then none else takeTop compare pq

/-- `priority_queue_clear`, with or without a `free_callback`. -/
def priorityQueueClear (freeCallback : Bool) (pq : Pq V) : Pq V :=
  { pq with
    elements := fun i =>
      if freeCallback && decide (i < pq.size) then { pq.elements i with value := none }
      else pq.elements i
    size := 0 }

/-! ## Any comparator -/

variable {compare : Compare V} {elements : Nat → Pv V} {index father size fuel : Nat}

theorem siftUp_perm (compare : Compare V) (elements : Nat → Pv V) (enough : index < fuel) (inside : index < size) :
    ∃ after, siftUp compare fuel elements index = some after ∧
      (live after size).Perm (live elements size) := by
  induction fuel generalizing elements index with
  | zero => omega
  | succ fuel ih =>
      unfold siftUp
      by_cases inner : 0 < index
      · rw [if_pos inner]
        dsimp only
        by_cases fits : 0 ≤ compare (elements ((index - 1) / 2)) (elements index)
        · rw [if_pos fits]
          exact ⟨elements, rfl, List.Perm.refl _⟩
        · rw [if_neg fits]
          have less : (index - 1) / 2 < index := parent_lt inner
          obtain ⟨after, ran, perm⟩ := ih (exchange elements ((index - 1) / 2) index)
            (show (index - 1) / 2 < fuel by omega) (by omega)
          exact ⟨after, ran, perm.trans (live_exchange (by omega) inside)⟩
      · rw [if_neg inner]
        exact ⟨elements, rfl, List.Perm.refl _⟩

/-- The greater of a child, if it is used, and the greatest so far. -/
def largerOf (compare : Compare V) (size : Nat) (elements : Nat → Pv V) (child largest : Nat) :
    Nat :=
  if child < size ∧ 0 < compare (elements child) (elements largest) then child else largest

theorem largestOf_child {child largest : Nat} (small : child < 2 ^ 31) :
    largestOf compare size elements (int32 (child : Int)) largest =
      some (largerOf compare size elements child largest) := by
  rw [int32_of_range (by omega) (by omega), largestOf, largerOf]
  by_cases inside : child < size
  · rw [if_pos (by omega), if_neg (by omega), Int.toNat_natCast]
    by_cases greater : 0 < compare (elements child) (elements largest)
    · rw [if_pos greater, if_pos ⟨inside, greater⟩]
    · rw [if_neg greater, if_neg (fun both => greater both.2)]
  · rw [if_neg (by omega), if_neg (fun both => inside both.1)]

/-- The place the loop goes to from `father`. -/
def largestIndex (compare : Compare V) (size : Nat) (elements : Nat → Pv V) (father : Nat) : Nat :=
  largerOf compare size elements (2 * father + 2)
    (largerOf compare size elements (2 * father + 1) father)

/-- One turn of the loop, while the children have their indices. -/
theorem siftDown_succ (small : 2 * father + 2 < 2 ^ 31) :
    siftDown compare size (fuel + 1) elements father =
      if largestIndex compare size elements father = father then some elements
      else siftDown compare size fuel
        (exchange elements father (largestIndex compare size elements father))
        (largestIndex compare size elements father) := by
  have left : ((2 * father + 1 : Nat) : Int) = 2 * (father : Int) + 1 := by omega
  have right : ((2 * father + 2 : Nat) : Int) = 2 * (father : Int) + 2 := by omega
  rw [siftDown, ← left, ← right, largestOf_child (by omega), Option.bind_some,
    largestOf_child small, Option.bind_some]
  rfl

theorem largerOf_cases (compare : Compare V) (size : Nat) (elements : Nat → Pv V)
    (child largest : Nat) :
    (largerOf compare size elements child largest = child ∧ child < size ∧
        0 < compare (elements child) (elements largest)) ∨
      (largerOf compare size elements child largest = largest ∧
        (child < size → ¬ 0 < compare (elements child) (elements largest))) := by
  unfold largerOf
  split
  · rename_i greater
    exact .inl ⟨rfl, greater⟩
  · rename_i fits
    exact .inr ⟨rfl, fun inside greater => fits ⟨inside, greater⟩⟩

theorem largestIndex_cases (compare : Compare V) (size : Nat) (elements : Nat → Pv V)
    (father : Nat) :
    largestIndex compare size elements father = father ∨
      (largestIndex compare size elements father = 2 * father + 1 ∨
        largestIndex compare size elements father = 2 * father + 2) ∧
      largestIndex compare size elements father < size := by
  unfold largestIndex
  have left := largerOf_cases compare size elements (2 * father + 1) father
  have right := largerOf_cases compare size elements (2 * father + 2)
    (largerOf compare size elements (2 * father + 1) father)
  omega

theorem siftDown_perm (compare : Compare V) (elements : Nat → Pv V) (small : size < 2 ^ 30) (enough : size < fuel + father)
    (inside : father < size ∨ father = 0) (turns : 0 < fuel) :
    ∃ after, siftDown compare size fuel elements father = some after ∧
      (live after size).Perm (live elements size) := by
  induction fuel generalizing elements father with
  | zero => omega
  | succ fuel ih =>
      rw [siftDown_succ (by omega)]
      rcases largestIndex_cases compare size elements father with stop | ⟨child, less⟩
      · rw [if_pos stop]
        exact ⟨elements, rfl, List.Perm.refl _⟩
      · rw [if_neg (by omega)]
        obtain ⟨after, ran, perm⟩ := ih
          (exchange elements father (largestIndex compare size elements father))
          (by omega) (.inl less) (by omega)
        exact ⟨after, ran, perm.trans (live_exchange (by omega) less)⟩

variable {pq pq' : Pq V} {item : Pv V}

@[simp] theorem pqFull_iff : pqFull pq = true ↔ pq.capacity ≤ pq.size := decide_eq_true_iff

@[simp] theorem pqEmpty_iff : pqEmpty pq = true ↔ pq.size = 0 := decide_eq_true_iff

theorem push_full (full : pq.capacity ≤ pq.size) :
    priorityQueuePush compare item pq = some (pq, false) :=
  if_pos (pqFull_iff.2 full)

/-- **A push with room** returns `true`, and the item is queued beside the others. -/
theorem push_room (compare : Compare V) (item : Pv V) (room : (pq.size : Int) < pq.capacity) :
    ∃ elements, siftUp compare (pq.size + 1) (store pq.elements pq.size item) pq.size =
        some elements ∧
      priorityQueuePush compare item pq =
        some ({ pq with elements := elements, size := pq.size + 1 }, true) ∧
      (live elements (pq.size + 1)).Perm (pq.queued ++ [item]) := by
  obtain ⟨after, ran, perm⟩ := siftUp_perm compare
    (store pq.elements pq.size item) (Nat.lt_succ_self pq.size)
    (Nat.lt_succ_self pq.size)
  refine ⟨after, ran, ?_, ?_⟩
  · rw [priorityQueuePush, if_neg (by rw [pqFull_iff]; omega), ran]
    rfl
  · rw [live_store_end] at perm
    exact perm

/-- **A pop** takes the first element and leaves the others. -/
theorem takeTop_spec (compare : Compare V) (some : pq.size ≠ 0) (small : pq.size ≤ 2 ^ 30) :
    ∃ elements, siftDown compare (pq.size - 1) (pq.size - 1 + 1)
          (store pq.elements 0 (pq.elements (pq.size - 1))) 0 = .some elements ∧
      takeTop compare pq =
        .some ({ pq with elements := elements, size := pq.size - 1 }, pq.elements 0) ∧
      (pq.elements 0 :: live elements (pq.size - 1)).Perm pq.queued := by
  have few : pq.size - 1 < 2 ^ 30 := by omega
  obtain ⟨after, ran, perm⟩ := siftDown_perm compare
    (store pq.elements 0 (pq.elements (pq.size - 1))) few
    (Nat.lt_succ_self (pq.size - 1)) (.inr rfl) (Nat.succ_pos (pq.size - 1))
  refine ⟨after, ran, ?_, ?_⟩
  · rw [takeTop, ran]
    rfl
  · have dropped := live_drop_root (f := pq.elements) (n := pq.size - 1)
    rw [show pq.size - 1 + 1 = pq.size by omega] at dropped
    exact (perm.cons _).trans dropped

theorem pqTop_of_ne (some : pq.size ≠ 0) : pqTop pq = pq.elements 0 := if_neg some

/-! ## A total preorder -/

/-- The sign of the comparator is that of a total preorder. -/
structure TotalPreorder (compare : Compare V) : Prop where
  flip : ∀ a b, 0 < compare a b ↔ compare b a < 0
  trans : ∀ a b c, 0 ≤ compare a b → 0 ≤ compare b c → 0 ≤ compare a c

/-- `a` does not compare greater than `b`. -/
def NotGreater (compare : Compare V) (a b : Pv V) : Prop := ¬ 0 < compare a b

theorem TotalPreorder.notGreater_iff (order : TotalPreorder compare) {a b : Pv V} :
    NotGreater compare a b ↔ 0 ≤ compare b a := by
  rw [NotGreater, order.flip, Int.not_lt]

theorem TotalPreorder.notGreater_of_pos (order : TotalPreorder compare) {a b : Pv V}
    (greater : 0 < compare a b) : NotGreater compare b a :=
  order.notGreater_iff.2 (Int.le_of_lt greater)

theorem TotalPreorder.refl (order : TotalPreorder compare) : Std.Refl (NotGreater compare) := by
  constructor
  intro a greater
  have less := (order.flip a a).1 greater
  omega

theorem TotalPreorder.isTrans (order : TotalPreorder compare) :
    IsTrans (Pv V) (NotGreater compare) := by
  constructor
  intro a b c ab bc
  rw [order.notGreater_iff] at ab bc ⊢
  exact order.trans c b a bc ab

theorem siftUp_ordered (order : TotalPreorder compare) {after : Nat → Pv V}
    (inside : index < size) (above : OrderedAbove (NotGreater compare) elements size index)
    (ran : siftUp compare fuel elements index = some after) :
    Ordered (NotGreater compare) after size := by
  have := order.isTrans
  induction fuel generalizing elements index with
  | zero => cases ran
  | succ fuel ih =>
      unfold siftUp at ran
      dsimp only at ran
      split at ran
      · rename_i inner
        have less : parent index < index := parent_lt inner
        split at ran
        · rename_i fits
          obtain rfl := Option.some.inj ran
          exact above.stop fun _ => order.notGreater_iff.2 fits
        · rename_i greater
          have under : NotGreater compare (elements (parent index)) (elements index) :=
            fun more => greater (Int.le_of_lt more)
          exact ih (by omega) (above.exchange inner inside under) ran
      · rename_i root
        obtain rfl := Option.some.inj ran
        exact above.stop fun inner => absurd inner root

/-- The place the loop goes to holds the greatest of the three. -/
theorem largestIndex_greatest (order : TotalPreorder compare) (elements : Nat → Pv V)
    (father size : Nat) :
    NotGreater compare (elements father) (elements (largestIndex compare size elements father)) ∧
      ∀ i, 0 < i → i < size → parent i = father →
        NotGreater compare (elements i)
          (elements (largestIndex compare size elements father)) := by
  have trans := order.isTrans
  have refl := order.refl
  have larger : ∀ child largest,
      NotGreater compare (elements largest)
          (elements (largerOf compare size elements child largest)) ∧
        (child < size → NotGreater compare (elements child)
          (elements (largerOf compare size elements child largest))) := by
    intro child largest
    rcases largerOf_cases compare size elements child largest with
      ⟨same, -, greater⟩ | ⟨same, fits⟩
    · rw [same]
      exact ⟨order.notGreater_of_pos greater, fun _ => refl.refl _⟩
    · rw [same]
      exact ⟨refl.refl _, fits⟩
  have left := larger (2 * father + 1) father
  have right := larger (2 * father + 2) (largerOf compare size elements (2 * father + 1) father)
  refine ⟨trans.trans _ _ _ left.1 right.1, ?_⟩
  intro i inner inside child
  rcases (parent_eq_iff inner).1 child with rfl | rfl
  · exact trans.trans _ _ _ (left.2 inside) right.1
  · exact right.2 inside

theorem siftDown_ordered (order : TotalPreorder compare) {after : Nat → Pv V}
    (small : size < 2 ^ 30) (inside : father < size ∨ father = 0)
    (below : OrderedBelow (NotGreater compare) elements size father)
    (ran : siftDown compare size fuel elements father = some after) :
    Ordered (NotGreater compare) after size := by
  induction fuel generalizing elements father with
  | zero => cases ran
  | succ fuel ih =>
      rw [siftDown_succ (by omega)] at ran
      obtain ⟨greater, greatest⟩ :=
        largestIndex_greatest order elements father size
      rcases largestIndex_cases compare size elements father with stop | ⟨child, less⟩
      · rw [if_pos stop] at ran
        obtain rfl := Option.some.inj ran
        rw [stop] at greatest
        exact below.stop greatest
      · rw [if_neg (by omega)] at ran
        have inner : 0 < largestIndex compare size elements father := by omega
        exact ih (.inl less)
          (below.exchange inner less ((parent_eq_iff inner).2 child) greater greatest) ran

/-! ## Runs -/

inductive Op (V : Type) where
  | push (item : Pv V)
  | tryPop
  | pop
  | clear (freeCallback : Bool)
  deriving DecidableEq, Repr

/-- One of the two pops. -/
def Op.Pops (op : Op V) : Prop := op = .tryPop ∨ op = .pop

/-- What an operation returns. -/
inductive Answer (V : Type) where
  | pushed (ok : Bool)
  | popped (item : Option (Pv V))
  | cleared
  deriving DecidableEq, Repr

def perform (compare : Compare V) (pq : Pq V) : Op V → Option (Pq V × Answer V)
  | .push item => (priorityQueuePush compare item pq).map fun r => (r.1, .pushed r.2)
  | .tryPop => (priorityQueueTryPop compare pq).map fun r => (r.1, .popped r.2)
  | .pop => (priorityQueuePop compare pq).map fun r => (r.1, .popped (some r.2))
  | .clear freeCallback => some (priorityQueueClear freeCallback pq, .cleared)

def step (compare : Compare V) (pq : Pq V) (op : Op V) : Option (Pq V) :=
  (perform compare pq op).map Prod.fst

/-- An operation with its answer. -/
def answered (compare : Compare V) (pq : Pq V) (op : Op V) : Option (Op V × Answer V) :=
  (perform compare pq op).map fun r => (op, r.2)

variable {op : Op V} {answer : Answer V}

/-- What an operation that returns does to what is queued. -/
def Performs (pq pq' : Pq V) (op : Op V) (answer : Answer V) : Prop :=
  (∃ item, op = .push item ∧ pq.capacity ≤ pq.size ∧ pq' = pq ∧ answer = .pushed false) ∨
    (∃ item, op = .push item ∧ (pq.size : Int) < pq.capacity ∧ pq'.size = pq.size + 1 ∧
      pq'.queued.Perm (pq.queued ++ [item]) ∧ answer = .pushed true) ∨
    (op = .tryPop ∧ pq.size = 0 ∧ pq' = pq ∧ answer = .popped none) ∨
    ((op = .tryPop ∨ op = .pop) ∧ pq.size ≠ 0 ∧ pq'.size = pq.size - 1 ∧
      (pq.elements 0 :: pq'.queued).Perm pq.queued ∧ answer = .popped (some (pq.elements 0))) ∨
    (∃ freeCallback, op = .clear freeCallback ∧ pq'.size = 0 ∧ answer = .cleared)

/-- **Every call returns**, but a `priority_queue_pop` on an empty queue. -/
theorem performs (compare : Compare V) (small : op.Pops → pq.size ≤ 2 ^ 30)
    (ready : op = .pop → pq.size ≠ 0) :
    ∃ pq' answer, perform compare pq op = some (pq', answer) ∧ pq'.capacity = pq.capacity ∧
      Performs pq pq' op answer := by
  cases op with
  | push item =>
      by_cases full : pq.capacity ≤ pq.size
      · refine ⟨pq, .pushed false, ?_, rfl, .inl ⟨item, rfl, full, rfl, rfl⟩⟩
        rw [perform, push_full full]
        rfl
      · have room : (pq.size : Int) < pq.capacity := Int.not_le.1 full
        obtain ⟨elements, -, ran, perm⟩ := push_room compare item room
        refine ⟨{ pq with elements := elements, size := pq.size + 1 }, .pushed true, ?_, rfl,
          .inr (.inl ⟨item, rfl, room, rfl, perm, rfl⟩)⟩
        rw [perform, ran]
        rfl
  | tryPop =>
      by_cases empty : pq.size = 0
      · refine ⟨pq, .popped none, ?_, rfl, .inr (.inr (.inl ⟨rfl, empty, rfl, rfl⟩))⟩
        rw [perform, priorityQueueTryPop, if_pos (pqEmpty_iff.2 empty)]
        rfl
      · obtain ⟨elements, -, ran, perm⟩ := takeTop_spec compare empty (small (.inl rfl))
        refine ⟨{ pq with elements := elements, size := pq.size - 1 },
          .popped (some (pq.elements 0)), ?_, rfl,
          .inr (.inr (.inr (.inl ⟨.inl rfl, empty, rfl, perm, rfl⟩)))⟩
        rw [perform, priorityQueueTryPop, if_neg (mt pqEmpty_iff.1 empty), ran]
        rfl
  | pop =>
      have nonempty := ready rfl
      obtain ⟨elements, -, ran, perm⟩ := takeTop_spec compare nonempty (small (.inr rfl))
      refine ⟨{ pq with elements := elements, size := pq.size - 1 },
        .popped (some (pq.elements 0)), ?_, rfl,
        .inr (.inr (.inr (.inl ⟨.inr rfl, nonempty, rfl, perm, rfl⟩)))⟩
      rw [perform, priorityQueuePop, if_neg (mt pqEmpty_iff.1 nonempty), ran]
      rfl
  | clear freeCallback =>
      exact ⟨_, .cleared, rfl, rfl, .inr (.inr (.inr (.inr ⟨freeCallback, rfl, rfl, rfl⟩)))⟩

theorem perform_ready (returned : perform compare pq op = some (pq', answer)) :
    op = .pop → pq.size ≠ 0 := by
  rintro rfl empty
  rw [perform, priorityQueuePop, if_pos (pqEmpty_iff.2 empty)] at returned
  cases returned

theorem perform_cases (small : op.Pops → pq.size ≤ 2 ^ 30)
    (returned : perform compare pq op = some (pq', answer)) :
    pq'.capacity = pq.capacity ∧ Performs pq pq' op answer := by
  obtain ⟨pq₁, answer₁, returned₁, capacity, done⟩ :=
    performs compare small (perform_ready returned)
  obtain ⟨rfl, rfl⟩ := Prod.mk.inj (Option.some.inj (returned.symm.trans returned₁))
  exact ⟨capacity, done⟩

/-- Either pop of a queue that is not empty takes the first element. -/
theorem perform_pops (compare : Compare V) (small : op.Pops → pq.size ≤ 2 ^ 30) (pops : op.Pops)
    (nonempty : pq.size ≠ 0) :
    ∃ pq', perform compare pq op = some (pq', .popped (some (pq.elements 0))) ∧
      (pq.elements 0 :: pq'.queued).Perm pq.queued := by
  obtain ⟨pq', answer, returned, -, done⟩ := performs compare small fun _ => nonempty
  rcases done with ⟨item, rfl, -⟩ | ⟨item, rfl, -⟩ | ⟨-, empty, -⟩ | ⟨-, -, -, perm, rfl⟩ |
    ⟨freeCallback, rfl, -⟩
  · rcases pops with impossible | impossible <;> cases impossible
  · rcases pops with impossible | impossible <;> cases impossible
  · exact absurd empty nonempty
  · exact ⟨pq', returned, perm⟩
  · rcases pops with impossible | impossible <;> cases impossible

/-- **Every operation keeps the heap order** of its comparator. -/
theorem perform_ordered (order : TotalPreorder compare) (small : op.Pops → pq.size ≤ 2 ^ 30)
    (ordered : Ordered (NotGreater compare) pq.elements pq.size)
    (returned : perform compare pq op = some (pq', answer)) :
    Ordered (NotGreater compare) pq'.elements pq'.size := by
  have popped : op.Pops → pq.size ≠ 0 → ∀ r, takeTop compare pq = some r →
      Ordered (NotGreater compare) r.1.elements r.1.size := by
    intro pops nonempty r taken
    have few := small pops
    obtain ⟨elements, sifted, ran, -⟩ := takeTop_spec compare nonempty few
    obtain rfl := Option.some.inj (ran.symm.trans taken)
    have whole : Ordered (NotGreater compare) pq.elements (pq.size - 1 + 1) := by
      rwa [show pq.size - 1 + 1 = pq.size by omega]
    have less : pq.size - 1 < 2 ^ 30 := by omega
    exact siftDown_ordered order less (.inr rfl) (whole.store_root _) sifted
  cases op with
  | push item =>
      obtain ⟨r, called, same⟩ := Option.map_eq_some_iff.1 returned
      obtain ⟨rfl, -⟩ := Prod.mk.inj same
      by_cases full : pq.capacity ≤ pq.size
      · rw [push_full full] at called
        obtain rfl := Option.some.inj called
        exact ordered
      · obtain ⟨elements, sifted, ran, -⟩ := push_room compare item (Int.not_le.1 full)
        obtain rfl := Option.some.inj (ran.symm.trans called)
        exact siftUp_ordered order (Nat.lt_succ_self pq.size) (ordered.store_end item) sifted
  | tryPop =>
      obtain ⟨r, called, same⟩ := Option.map_eq_some_iff.1 returned
      obtain ⟨rfl, -⟩ := Prod.mk.inj same
      unfold priorityQueueTryPop at called
      split at called
      · obtain rfl := Option.some.inj called
        exact ordered
      · rename_i nonempty
        obtain ⟨r, taken, rfl⟩ := Option.map_eq_some_iff.1 called
        exact popped (.inl rfl) (fun empty => nonempty (pqEmpty_iff.2 empty)) r taken
  | pop =>
      obtain ⟨r, called, same⟩ := Option.map_eq_some_iff.1 returned
      obtain ⟨rfl, -⟩ := Prod.mk.inj same
      obtain ⟨nonempty, taken⟩ := Option.ite_none_left_eq_some.1 called
      exact popped (.inr rfl) (fun empty => nonempty (pqEmpty_iff.2 empty)) r taken
  | clear freeCallback =>
      obtain ⟨rfl, -⟩ := Prod.mk.inj (Option.some.inj returned)
      intro i _ inside
      exact absurd inside (Nat.not_lt_zero i)

/-- The items pushed and the items popped since the last clear. -/
def tallyNext : List (Pv V) × List (Pv V) → Op V × Answer V → List (Pv V) × List (Pv V)
  | (pushed, popped), (.push item, .pushed true) => (pushed ++ [item], popped)
  | (pushed, popped), (_, .popped (some item)) => (pushed, popped ++ [item])
  | _, (_, .cleared) => ([], [])
  | tally, _ => tally

def tally (history : List (Op V × Answer V)) : List (Pv V) × List (Pv V) :=
  history.foldl tallyNext ([], [])

/-- What holds of a queue of this capacity, and of what has happened to it. -/
structure Kept (compare : Compare V) (capacity : Int) (history : List (Op V × Answer V))
    (pq : Pq V) : Prop where
  bound : pq.capacity = capacity
  few : (pq.size : Int) ≤ capacity
  ordered : Ordered (NotGreater compare) pq.elements pq.size
  contents : (pq.queued ++ (tally history).2).Perm (tally history).1

theorem queued_of_empty (empty : pq.size = 0) : pq.queued = [] := by
  rw [Pq.queued, empty, live_zero]

theorem popped_contents {item : Pv V} {queued rest pushed popped : List (Pv V)}
    (perm : (item :: rest).Perm queued) (contents : (queued ++ popped).Perm pushed) :
    (rest ++ (popped ++ [item])).Perm pushed := by
  have moved : (rest ++ (popped ++ [item])).Perm (item :: rest ++ popped) := by
    rw [← List.append_assoc]
    exact List.perm_append_singleton item (rest ++ popped)
  exact moved.trans ((perm.append_right popped).trans contents)

/-- What an operation does to what is queued, it does to the tally. -/
theorem Performs.contents {history : List (Op V × Answer V)} (done : Performs pq pq' op answer)
    (contents : (pq.queued ++ (tally history).2).Perm (tally history).1) :
    (pq'.queued ++ (tally (history ++ [(op, answer)])).2).Perm
      (tally (history ++ [(op, answer)])).1 := by
  have last : tally (history ++ [(op, answer)]) = tallyNext (tally history) (op, answer) := by
    rw [tally, List.foldl_append]
    rfl
  rw [last]
  generalize tally history = totals at contents
  obtain ⟨pushed, popped⟩ := totals
  rcases done with ⟨item, rfl, -, rfl, rfl⟩ | ⟨item, rfl, -, -, perm, rfl⟩ | ⟨rfl, -, rfl, rfl⟩ |
    ⟨rfl | rfl, -, -, perm, rfl⟩ | ⟨freeCallback, rfl, empty, rfl⟩
  · exact contents
  · show (pq'.queued ++ popped).Perm (pushed ++ [item])
    have moved : (pq.queued ++ [item] ++ popped).Perm (pq.queued ++ popped ++ [item]) := by
      rw [List.append_assoc, List.append_assoc]
      exact List.perm_append_comm.append_left pq.queued
    exact (perm.append_right popped).trans (moved.trans (contents.append_right [item]))
  · exact contents
  · exact popped_contents perm contents
  · exact popped_contents perm contents
  · rw [queued_of_empty empty]
    exact List.Perm.refl _

theorem Kept.perform {capacity : Int} {history : List (Op V × Answer V)}
    (kept : Kept compare capacity history pq) (order : TotalPreorder compare)
    (most : capacity ≤ 2 ^ 30) (returned : perform compare pq op = some (pq', answer)) :
    Kept compare capacity (history ++ [(op, answer)]) pq' := by
  have few := kept.few
  have small : op.Pops → pq.size ≤ 2 ^ 30 := fun _ => by omega
  obtain ⟨bound, done⟩ := perform_cases small returned
  refine ⟨bound.trans kept.bound, ?_, perform_ordered order small kept.ordered returned,
    done.contents kept.contents⟩
  have cap := kept.bound
  rcases done with ⟨item, -, -, rfl, -⟩ | ⟨item, -, room, size, -⟩ | ⟨-, -, rfl, -⟩ |
    ⟨-, nonempty, size, -⟩ | ⟨-, -, size, -⟩
  · exact few
  · omega
  · exact few
  · omega
  · omega

/-- **The queue over a whole run.**  The elements are in heap order and never more than the
capacity; every call returns, a `priority_queue_pop` on an empty queue apart; a push fails
exactly on a full queue and changes nothing; a pop returns what `pq_top` showed, and no
queued element compares greater; and the queue holds what was pushed without what was
popped since the last clear. -/
theorem queue_in_heap_order (V : Type) (compare : Compare V) (order : TotalPreorder compare)
    (capacity : Int) (nonneg : 0 ≤ capacity) (most : capacity ≤ 2 ^ 30) (memory : Nat → Pv V)
    (ops : List (Op V)) (pq : Pq V)
    (ran : exec (step compare) (pqInit capacity memory) ops = some pq) :
    (pq.size : Int) ≤ capacity ∧
      (∀ i, 0 < i → i < pq.size →
        ¬ 0 < compare (pq.elements i) (pq.elements ((i - 1) / 2))) ∧
      (∀ op, (op = .pop → pq.size ≠ 0) → ∃ r, perform compare pq op = some r) ∧
      (∀ item pq' ok, perform compare pq (.push item) = some (pq', .pushed ok) →
        (ok = false ↔ (pq.size : Int) = capacity) ∧ (ok = false → pq' = pq)) ∧
      (∀ op pq' item, perform compare pq op = some (pq', .popped (some item)) →
        item = pqTop pq ∧ item ∈ pq.queued ∧ ∀ other ∈ pq.queued, ¬ 0 < compare other item) ∧
      (∀ op pq', perform compare pq op = some (pq', .popped none) → pq.size = 0 ∧ pq' = pq) ∧
      (pq.queued ++
          (tally (observe (step compare) (answered compare) (pqInit capacity memory) ops)).2).Perm
        (tally (observe (step compare) (answered compare) (pqInit capacity memory) ops)).1 := by
  have start : Kept compare capacity [] (pqInit capacity memory) := by
    refine ⟨rfl, nonneg, ?_, List.Perm.refl _⟩
    intro i _ inside
    exact absurd inside (Nat.not_lt_zero i)
  have kept : Kept compare capacity
      (observe (step compare) (answered compare) (pqInit capacity memory) ops) pq := by
    refine exec_history (C := fun _ _ => True) (h := []) ?_
      (along_of_labels (fun _ _ _ => trivial) _) start ran
    intro history pq op pq' _ kept moved
    obtain ⟨⟨next, answer⟩, returned, rfl⟩ := Option.map_eq_some_iff.1 moved
    rw [answered, returned]
    exact kept.perform order most returned
  have cap := kept.bound
  have few := kept.few
  have small : pq.size ≤ 2 ^ 30 := by omega
  refine ⟨few, kept.ordered, ?_, ?_, ?_, ?_, kept.contents⟩
  · intro op ready
    obtain ⟨pq', answer, returned, -⟩ := performs compare (fun _ => small) ready
    exact ⟨_, returned⟩
  · intro item pq' ok returned
    obtain ⟨-, done⟩ := perform_cases (fun _ => small) returned
    simp only [Performs, Op.push.injEq, exists_eq_left', Answer.pushed.injEq, reduceCtorEq, or_self,
      exists_false, or_false, and_false] at done
    rcases done with ⟨full, rfl, rfl⟩ | ⟨room, -, -, rfl⟩
    · exact ⟨⟨fun _ => by omega, fun _ => rfl⟩, fun _ => rfl⟩
    · exact ⟨⟨fun failed => Bool.noConfusion failed, fun full => by omega⟩,
        fun failed => Bool.noConfusion failed⟩
  · intro op pq' item returned
    obtain ⟨-, done⟩ := perform_cases (fun _ => small) returned
    simp only [Performs, Answer.popped.injEq, reduceCtorEq, and_false, exists_false, false_or,
      or_false, Option.some.injEq] at done
    obtain ⟨-, nonempty, -, perm, rfl⟩ := done
    have refl := order.refl
    have trans := order.isTrans
    refine ⟨(pqTop_of_ne nonempty).symm, perm.subset List.mem_cons_self, ?_⟩
    intro other queued
    obtain ⟨i, inside, rfl⟩ := mem_live.1 queued
    exact kept.ordered.le_root inside
  · intro op pq' returned
    obtain ⟨-, done⟩ := perform_cases (fun _ => small) returned
    simp only [Performs, Answer.popped.injEq, reduceCtorEq, and_false, exists_false, false_or,
      or_false, and_true] at done
    exact done.2

/-- The higher priority compares greater. -/
def byPriority : Compare Unit := fun a b => (a.priority - b.priority).sign

theorem byPriority_order : TotalPreorder byPriority := by
  constructor
  · intro a b
    rw [byPriority, byPriority, Int.sign_pos_iff, Int.sign_neg_iff]
    omega
  · intro a b c
    rw [byPriority, byPriority, byPriority, Int.sign_nonneg_iff, Int.sign_nonneg_iff,
      Int.sign_nonneg_iff]
    omega

/-- Three pushes into a queue of two, and a pop. -/
def threePushes : List (Op Unit) :=
  [.push ⟨1, none, 0⟩, .push ⟨3, none, 0⟩, .push ⟨2, none, 0⟩, .pop]

theorem threePushes_in_heap_order :
    ∃ pq, exec (step byPriority) (pqInit 2 fun _ => ⟨0, none, 0⟩) threePushes = some pq ∧
      pq.queued = [⟨1, none, 0⟩] ∧ (pq.size : Int) ≤ 2 ∧
      ∃ r, perform byPriority pq .pop = some r := by
  obtain ⟨few, -, returns, -⟩ := queue_in_heap_order Unit byPriority byPriority_order 2 (by decide)
    (by decide) (fun _ => ⟨0, none, 0⟩) threePushes _ rfl
  exact ⟨_, rfl, by decide, few, returns .pop fun _ => by decide⟩

end ChargerStack.Utils.PriorityQueue
