/-
# Utils.HeapCompare -- the queue under max_heap_compare and min_heap_compare

Both comparators return a difference of two priorities as an `int32_t`, and the priorities are
any `int32_t` themselves.  A difference that does not fit is wrapped and has the other sign, so
the order is no order any more: far apart, the lower priority is the greater.

* `sign_int32_iff`: the wrapped difference has its sign exactly when nothing is wrapped;
* `pops_greatest`: in a run in which no difference that is computed wraps, every pop returns a
  greatest element;
* `heap_compares`: both comparators, the runs, and the sets of priorities with which nothing
  can go wrong: those in which any two are less than `2 ^ 31` apart.
-/
import Mathlib.Data.Set.Defs
import ChargerStack.Utils.Comparisons

namespace ChargerStack.Utils.PriorityQueue

open ChargerStack.Cxx
open ChargerStack.Lib
open ChargerStack.Lib.Heap

set_option autoImplicit false

variable {V : Type}

/-! ## The comparators -/

/-- `max_heap_compare`. -/
def maxHeapCompare : Compare V := fun a b => int32 (a.priority - b.priority)

/-- `min_heap_compare`. -/
def minHeapCompare : Compare V := fun a b => int32 (b.priority - a.priority)

/-- Both of them: the difference of what the elements count by. -/
def keyCompare (key : Int → Int) : Compare V := fun a b => int32 (key a.priority - key b.priority)

/-- The whole difference. -/
def keyDiff (key : Int → Int) : Compare V := fun a b => key a.priority - key b.priority

/-- An `int32_t`. -/
def IsInt32 (n : Int) : Prop := -2 ^ 31 ≤ n ∧ n < 2 ^ 31

variable {key : Int → Int} {pq pq' : Pq V} {op : Op V} {a b : Pv V}

theorem maxHeapCompare_eq : (maxHeapCompare : Compare V) = keyCompare id := rfl

theorem minHeapCompare_eq : (minHeapCompare : Compare V) = keyCompare (-·) := by
  funext a b
  have same : b.priority - a.priority = -a.priority - -b.priority := by omega
  rw [minHeapCompare, keyCompare, same]

theorem keyCompare_eq (fits : IsInt32 (key a.priority - key b.priority)) :
    keyCompare key a b = keyDiff key a b := int32_of_range fits.1 fits.2

theorem keyDiff_order (key : Int → Int) : TotalPreorder (keyDiff key : Compare V) := by
  constructor
  · intro a b
    unfold keyDiff
    omega
  · intro a b c
    unfold keyDiff
    omega

theorem notGreater_keyDiff : NotGreater (keyDiff key) a b ↔ key a.priority ≤ key b.priority := by
  unfold NotGreater keyDiff
  omega

/-- A difference of two `int32_t` keeps its sign exactly when it fits. -/
theorem sign_int32_iff {d : Int} (low : -2 ^ 32 < d) (high : d < 2 ^ 32) :
    (int32 d).sign = d.sign ↔ IsInt32 d := by
  constructor
  · intro same
    by_contra wraps
    have wrapped : int32 d = if 0 < d then d - 2 ^ 32 else d + 2 ^ 32 := by
      simp only [int32, Int.bmod]
      unfold IsInt32 at wraps
      split <;> split <;> omega
    unfold IsInt32 at wraps
    split at wrapped
    · next positive =>
        have negative : int32 d < 0 := by omega
        rw [Int.sign_eq_neg_one_of_neg negative, Int.sign_eq_one_of_pos positive] at same
        cases same
    · have positive : 0 < int32 d := by omega
      have negative : d < 0 := by omega
      rw [Int.sign_eq_one_of_pos positive, Int.sign_eq_neg_one_of_neg negative] at same
      cases same
  · intro fits
    rw [int32_of_range fits.1 fits.2]

/-! ## What is promised -/

/-- A pop of a queue that is not empty returns what was queued, and nothing queued counts more. -/
def PopsGreatest (compare : Compare V) (key : Int → Int) (pq : Pq V) (op : Op V) : Prop :=
  op.Pops → pq.size ≠ 0 →
    ∃ pq' item, perform compare pq op = some (pq', .popped (some item)) ∧
      (item :: pq'.queued).Perm pq.queued ∧
      ∀ other ∈ pq.queued, key other.priority ≤ key item.priority

/-- A pop finds at most `2 ^ 30` elements, so that the children of each have their indices. -/
def Indexed (pq : Pq V) (op : Op V) : Prop := op.Pops → pq.size ≤ 2 ^ 30

/-- No difference that the operation computes wraps, in the priorities or in the indices. -/
structure NothingWraps (key : Int → Int) (pq : Pq V) (op : Op V) : Prop where
  indexed : Indexed pq op
  fits : ∀ c ∈ comparisons (keyCompare key) pq op,
    IsInt32 (key c.1.priority - key c.2.priority)

/-- Any two of these are less than `2 ^ 31` apart. -/
def Near (priorities : Set Int) : Prop :=
  ∀ p ∈ priorities, ∀ q ∈ priorities, p - q < 2 ^ 31

/-- The operation pushes no priority but these, and finds at most `2 ^ 30` elements. -/
structure Uses (priorities : Set Int) (pq : Pq V) (op : Op V) : Prop where
  indexed : Indexed pq op
  pushed : ∀ item, op = .push item → item.priority ∈ priorities

/-! ## Runs in which nothing wraps -/

/-- The heap is in the order of the whole differences. -/
def InOrder (key : Int → Int) (pq : Pq V) : Prop :=
  Ordered (NotGreater (keyDiff key)) pq.elements pq.size

theorem inOrder_pqInit (capacity : Int) (memory : Nat → Pv V) :
    InOrder key (pqInit capacity memory) :=
  fun i _ inside => absurd inside (Nat.not_lt_zero i)

/-- While nothing wraps, an operation is one with the whole differences. -/
theorem NothingWraps.perform_eq (sound : NothingWraps key pq op) :
    perform (keyCompare key) pq op = perform (keyDiff key) pq op :=
  perform_congr_comparisons sound.indexed fun c member => keyCompare_eq (sound.fits c member)

theorem InOrder.step (order : InOrder key pq) (sound : NothingWraps key pq op)
    (moved : step (keyCompare key) pq op = some pq') : InOrder key pq' := by
  obtain ⟨⟨next, answer⟩, returned, rfl⟩ := Option.map_eq_some_iff.1 moved
  rw [sound.perform_eq] at returned
  exact perform_ordered (keyDiff_order key) sound.indexed order returned

theorem InOrder.popsGreatest (order : InOrder key pq) (sound : NothingWraps key pq op) :
    PopsGreatest (keyCompare key) key pq op := by
  intro pops nonempty
  obtain ⟨pq', returned, perm⟩ := perform_pops (keyCompare key) sound.indexed pops nonempty
  refine ⟨pq', pq.elements 0, returned, perm, fun other queued => ?_⟩
  obtain ⟨i, inside, rfl⟩ := mem_live.1 queued
  have refl := (keyDiff_order (V := V) key).refl
  have trans := (keyDiff_order (V := V) key).isTrans
  exact notGreater_keyDiff.1 (order.le_root inside)

/-- **In a run in which nothing wraps, every pop is right.** -/
theorem pops_greatest (key : Int → Int) (capacity : Int) (memory : Nat → Pv V) (ops : List (Op V))
    (sound : Along (step (keyCompare key)) (NothingWraps key) (pqInit capacity memory) ops) :
    Along (step (keyCompare key)) (PopsGreatest (keyCompare key) key) (pqInit capacity memory)
      ops :=
  along_of_invariant
    (fun pq _ _ sound (order : InOrder key pq) moved => order.step sound moved)
    (fun _ _ sound order => order.popsGreatest sound) sound (inOrder_pqInit capacity memory)

/-! ## Sets of priorities -/

variable {priorities : Set Int}

theorem Near.fits (near : Near priorities) {p q : Int} (left : p ∈ priorities)
    (right : q ∈ priorities) : IsInt32 (p - q) := by
  have forth := near p left q right
  have back := near q right p left
  unfold IsInt32
  omega

/-- Nothing is queued but what was pushed. -/
theorem queued_uses (uses : Uses priorities pq op)
    (queued : ∀ v ∈ pq.queued, v.priority ∈ priorities) :
    ∀ v ∈ compared pq op, v.priority ∈ priorities := by
  intro v member
  cases op with
  | push item =>
      rcases List.mem_append.1 member with member | member
      · exact queued v member
      · rw [List.mem_singleton.1 member]
        exact uses.pushed item rfl
  | tryPop | pop | clear freeCallback => exact queued v member

/-- Where any two of the priorities fit, nothing wraps. -/
theorem Near.nothingWraps (near : Near priorities)
    (apart : ∀ p q, key p - key q = p - q ∨ key p - key q = q - p) (uses : Uses priorities pq op)
    (queued : ∀ v ∈ pq.queued, v.priority ∈ priorities) : NothingWraps key pq op := by
  refine ⟨uses.indexed, fun c member => ?_⟩
  obtain ⟨left, right⟩ := comparisons_within member
  have left := queued_uses uses queued c.1 left
  have right := queued_uses uses queued c.2 right
  rcases apart c.1.priority c.2.priority with same | same
  · rw [same]
    exact near.fits left right
  · rw [same]
    exact near.fits right left

/-- The heap is in order, and holds no priority but these. -/
structure InOrderOf (key : Int → Int) (priorities : Set Int) (pq : Pq V) : Prop where
  order : InOrder key pq
  queued : ∀ v ∈ pq.queued, v.priority ∈ priorities

theorem InOrderOf.step (inv : InOrderOf key priorities pq) (near : Near priorities)
    (apart : ∀ p q, key p - key q = p - q ∨ key p - key q = q - p) (uses : Uses priorities pq op)
    (moved : step (keyCompare key) pq op = some pq') : InOrderOf key priorities pq' := by
  refine ⟨inv.order.step (near.nothingWraps apart uses inv.queued) moved, fun v member => ?_⟩
  obtain ⟨⟨next, answer⟩, returned, rfl⟩ := Option.map_eq_some_iff.1 moved
  exact queued_uses uses inv.queued v (queued_subset uses.indexed returned member)

theorem Near.popsGreatest (near : Near priorities)
    (apart : ∀ p q, key p - key q = p - q ∨ key p - key q = q - p) (capacity : Int)
    (memory : Nat → Pv V) (ops : List (Op V))
    (uses : Along (step (keyCompare key)) (Uses priorities) (pqInit capacity memory) ops) :
    Along (step (keyCompare key)) (PopsGreatest (keyCompare key) key) (pqInit capacity memory)
      ops := by
  have start : InOrderOf key priorities (pqInit capacity memory) :=
    ⟨inOrder_pqInit capacity memory, fun v member => absurd member List.not_mem_nil⟩
  exact along_of_invariant
    (fun pq _ _ uses (inv : InOrderOf key priorities pq) moved => inv.step near apart uses moved)
    (fun _ _ uses inv => inv.order.popsGreatest (near.nothingWraps apart uses inv.queued)) uses
    start

/-- A pop that returns an element while one that counts more is queued. -/
theorem not_popsGreatest {compare : Compare V} {item other : Pv V} (pops : op.Pops)
    (returned : perform compare pq op = some (pq', .popped (some item))) (nonempty : pq.size ≠ 0)
    (queued : other ∈ pq.queued) (more : key item.priority < key other.priority) :
    ¬ PopsGreatest compare key pq op := by
  intro right
  obtain ⟨pq'', top, again, -, greatest⟩ := right pops nonempty
  obtain ⟨-, same⟩ := Prod.mk.inj (Option.some.inj (returned.symm.trans again))
  obtain rfl : item = top := Option.some.inj (Answer.popped.inj same)
  have below := greatest other queued
  omega

/-- The second of two items is put over the first. -/
theorem step_second {compare : Compare V} (memory : Nat → Pv V) (less : compare a b < 0) :
    step compare ⟨store memory 0 a, 2, 1⟩ (.push b) =
      some ⟨exchange (store (store memory 0 a) 1 b) 0 1, 2, 2⟩ := by
  have sifted : siftUp compare 2 (store (store memory 0 a) 1 b) 1 =
      some (exchange (store (store memory 0 a) 1 b) 0 1) := by
    rw [siftUp, if_pos Nat.one_pos]
    dsimp only
    rw [if_neg]
    · rfl
    · show ¬ 0 ≤ compare a b
      omega
  have room : pqFull (⟨store memory 0 a, 2, 1⟩ : Pq V) = false := rfl
  rw [step, perform, priorityQueuePush, room, if_neg Bool.false_ne_true]
  dsimp only
  rw [sifted]
  rfl

theorem step_first (compare : Compare V) (memory : Nat → Pv V) :
    step compare (pqInit 2 memory) (.push a) = some ⟨store memory 0 a, 2, 1⟩ := rfl

/-- A difference that does not fit has the other sign. -/
theorem keyCompare_neg (far : 2 ^ 31 ≤ key a.priority - key b.priority)
    (bound : key a.priority - key b.priority < 2 ^ 32) : keyCompare key a b < 0 := by
  simp only [keyCompare, int32, Int.bmod]
  split <;> omega

/-- Two items whose difference wraps: the one that counts less is popped. -/
theorem not_popsGreatest_of_wraps (memory : Nat → Pv V)
    (far : 2 ^ 31 ≤ key a.priority - key b.priority)
    (bound : key a.priority - key b.priority < 2 ^ 32) :
    ¬ Along (step (keyCompare key)) (PopsGreatest (keyCompare key) key) (pqInit 2 memory)
      [.push a, .push b, .tryPop] := by
  intro right
  have second := step_second memory (keyCompare_neg far bound)
  have indexed : Indexed (⟨exchange (store (store memory 0 a) 1 b) 0 1, 2, 2⟩ : Pq V) .tryPop :=
    fun _ => show 2 ≤ 2 ^ 30 by decide
  obtain ⟨pq', taken, -⟩ :=
    perform_pops (keyCompare key) indexed (.inl rfl) (Nat.succ_ne_zero 1)
  refine not_popsGreatest (.inl rfl) taken (Nat.succ_ne_zero 1) (mem_live.2 ⟨1, Nat.one_lt_two, rfl⟩)
    ?_ ((right.2 _ (step_first _ memory)).2 _ second).1
  show key b.priority < key a.priority
  omega

/-- These three calls use the priorities of their items. -/
theorem uses_twoPushes {compare : Compare V} (memory : Nat → Pv V) (less : compare a b < 0)
    (left : a.priority ∈ priorities) (right : b.priority ∈ priorities) :
    Along (step compare) (Uses priorities) (pqInit 2 memory) [.push a, .push b, .tryPop] := by
  have pushes : ∀ (pq : Pq V) {item : Pv V}, item.priority ∈ priorities →
      Uses priorities pq (.push item) := by
    intro pq item member
    refine ⟨fun pops => ?_, fun other same => ?_⟩
    · rcases pops with impossible | impossible <;> cases impossible
    · cases same
      exact member
  refine along_cons (step_first compare memory) (pushes _ left)
    (along_cons (step_second memory less) (pushes _ right) ⟨⟨fun _ => ?_, fun item same => ?_⟩,
      fun _ _ => trivial⟩)
  · show 2 ≤ 2 ^ 30
    decide
  · cases same

/-- **With which priorities nothing goes wrong**: those in which any two are near each other. -/
theorem popsGreatest_iff_near (V : Type)
    (apart : ∀ p q, key p - key q = p - q ∨ key p - key q = q - p)
    (int32s : ∀ p ∈ priorities, IsInt32 p) :
    (∀ (capacity : Int) (memory : Nat → Pv V) (ops : List (Op V)),
      Along (step (keyCompare key)) (Uses priorities) (pqInit capacity memory) ops →
      Along (step (keyCompare key)) (PopsGreatest (keyCompare key) key) (pqInit capacity memory)
        ops) ↔ Near priorities := by
  refine ⟨fun right => ?_, fun near => near.popsGreatest apart⟩
  -- of two priorities that are far apart, the one that counts more is pushed first
  have near : ∀ p ∈ priorities, ∀ q ∈ priorities, key p - key q < 2 ^ 31 := by
    intro p left q member
    by_contra far
    have low := int32s q member
    have high := int32s p left
    unfold IsInt32 at low high
    have bound : key p - key q < 2 ^ 32 := by
      rcases apart p q with same | same <;> omega
    have wide : 2 ^ 31 ≤ key p - key q := Int.not_lt.1 far
    let a : Pv V := ⟨p, none, 0⟩
    let b : Pv V := ⟨q, none, 0⟩
    exact not_popsGreatest_of_wraps (fun _ => a) (show 2 ^ 31 ≤ key a.priority - key b.priority from wide)
      bound (right 2 _ _ (uses_twoPushes _ (keyCompare_neg wide bound) left member))
  intro p left q member
  rcases apart p q with same | same
  · rw [← same]
    exact near p left q member
  · have back := near q member p left
    omega

/-! ## Both comparators -/

/-- What a comparator that is a difference of `int32_t` does, by the key of the order it is for:
which two elements it compares as their keys are, in which runs every pop is right, and with
which priorities in all of them. -/
structure HeapCompares (V : Type) (compare : Compare V) (key : Int → Int) : Prop where
  pairs : ∀ a b : Pv V, IsInt32 a.priority → IsInt32 b.priority →
    ((compare a b).sign = (key a.priority - key b.priority).sign ↔
      IsInt32 (key a.priority - key b.priority))
  runs : ∀ (capacity : Int) (memory : Nat → Pv V) (ops : List (Op V)),
    Along (step compare) (NothingWraps key) (pqInit capacity memory) ops →
    Along (step compare) (PopsGreatest compare key) (pqInit capacity memory) ops
  sets : ∀ priorities : Set Int, (∀ p ∈ priorities, IsInt32 p) →
    ((∀ (capacity : Int) (memory : Nat → Pv V) (ops : List (Op V)),
      Along (step compare) (Uses priorities) (pqInit capacity memory) ops →
      Along (step compare) (PopsGreatest compare key) (pqInit capacity memory) ops) ↔
    Near priorities)

theorem keyCompare_heapCompares (V : Type)
    (apart : ∀ p q, key p - key q = p - q ∨ key p - key q = q - p) :
    HeapCompares V (keyCompare key) key := by
  refine ⟨fun a b left right => ?_, pops_greatest key, fun priorities int32s =>
    popsGreatest_iff_near V apart int32s⟩
  unfold IsInt32 at left right
  rcases apart a.priority b.priority with same | same
  · exact sign_int32_iff (by omega) (by omega)
  · exact sign_int32_iff (by omega) (by omega)

/-- **The queue under both comparators.** -/
theorem heap_compares (V : Type) :
    HeapCompares V maxHeapCompare id ∧ HeapCompares V minHeapCompare (-·) := by
  constructor
  · rw [maxHeapCompare_eq]
    exact keyCompare_heapCompares V fun p q => .inl rfl
  · rw [minHeapCompare_eq]
    exact keyCompare_heapCompares V fun p q => .inr (by omega)

/-- The greatest priority of all and -1: each comparator pops the other one first. -/
theorem far_apart_wraps :
    (∃ pq pq', exec (step maxHeapCompare) (pqInit 20 fun _ => (⟨0, none, 0⟩ : Pv Unit))
        [.push ⟨2147483647, none, 0⟩, .push ⟨-1, none, 0⟩] = some pq ∧
      perform maxHeapCompare pq .tryPop = some (pq', .popped (some ⟨-1, none, 0⟩)) ∧
      ¬ PopsGreatest maxHeapCompare id pq .tryPop) ∧
    ∃ pq pq', exec (step minHeapCompare) (pqInit 20 fun _ => (⟨0, none, 0⟩ : Pv Unit))
        [.push ⟨-1, none, 0⟩, .push ⟨2147483647, none, 0⟩] = some pq ∧
      perform minHeapCompare pq .tryPop = some (pq', .popped (some ⟨2147483647, none, 0⟩)) ∧
      ¬ PopsGreatest minHeapCompare (-·) pq .tryPop := by
  refine ⟨⟨_, _, rfl, rfl, ?_⟩, ⟨_, _, rfl, rfl, ?_⟩⟩
  · exact not_popsGreatest (.inl rfl) rfl (Nat.succ_ne_zero 1)
      (mem_live.2 ⟨1, Nat.one_lt_two, rfl⟩) (show (-1 : Int) < 2147483647 by decide)
  · exact not_popsGreatest (.inl rfl) rfl (Nat.succ_ne_zero 1)
      (mem_live.2 ⟨1, Nat.one_lt_two, rfl⟩) (show (-2147483647 : Int) < - -1 by decide)

end ChargerStack.Utils.PriorityQueue
