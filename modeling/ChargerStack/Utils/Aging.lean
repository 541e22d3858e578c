/-
# Utils.Aging -- the queue under aging_compare

`aging_compare` weighs an element by its priority and a level more for every second it has
waited, and the queues of can/module_queue_manager.c are created with it.  It returns
`eff_b - eff_a`, so the heap keeps the element of the lowest weight at its root, and what it
compares changes with the clock, because the ages of two elements step at different moments.

* `pop_highest_of_alike`: what is popped has the highest effective priority in every run in
  which all queued elements weigh the same at each pop, and in a run whose clock readings
  are whole seconds apart in no other;
* `agingCompare_eq`: while no `int` overflows, the comparator is the difference of the
  effective priorities.
-/
import ChargerStack.Utils.Comparisons

namespace ChargerStack.Utils.PriorityQueue

open ChargerStack.Cxx
open ChargerStack.Lib
open ChargerStack.Lib.Heap

set_option autoImplicit false

variable {V : Type}

/-! ## The comparator -/

/-- `eff_a` of `aging_compare`: the age is a `uint64_t` difference put into an `int`. -/
def effOf (now : Nat) (a : Pv V) : Int :=
  let age := int32 (sizeTSub now a.timestamp / 1000 : Nat)
  int32 (a.priority + age)

/-- `aging_compare`. -/
def agingCompare (now : Nat) : Compare V := fun a b => int32 (effOf now b - effOf now a)

/-- The priority and a level for every second since the element was stamped. -/
def effective (now : Nat) (a : Pv V) : Int := a.priority + ((now - a.timestamp) / 1000 : Nat)

/-- The difference that `aging_compare` is to return. -/
def effectiveDiff (now : Nat) : Compare V := fun a b => effective now b - effective now a

/-- No `int` of `aging_compare` overflows on these elements. -/
structure Fits (now : Nat) (items : List (Pv V)) : Prop where
  age : ∀ a ∈ items, (now - a.timestamp) / 1000 < 2 ^ 31
  eff : ∀ a ∈ items, -2 ^ 31 ≤ effective now a ∧ effective now a < 2 ^ 31
  diff : ∀ a ∈ items, ∀ b ∈ items, -2 ^ 31 ≤ effective now b - effective now a ∧
    effective now b - effective now a < 2 ^ 31

variable {now : Nat} {items : List (Pv V)} {a b : Pv V}

theorem effOf_eq (fits : Fits now items) (clock : now < 2 ^ 64) (member : a ∈ items)
    (stamped : a.timestamp ≤ now) : effOf now a = effective now a := by
  have age := fits.age a member
  obtain ⟨low, high⟩ := fits.eff a member
  have small : int32 (((now - a.timestamp) / 1000 : Nat) : Int) = ((now - a.timestamp) / 1000 : Nat) :=
    int32_of_range (by omega) (by omega)
  unfold effOf
  dsimp only
  rw [sizeTSub_of_le stamped clock, small]
  exact int32_of_range low high

theorem agingCompare_eq (fits : Fits now items) (clock : now < 2 ^ 64)
    (stamped : ∀ a ∈ items, a.timestamp ≤ now) (left : a ∈ items) (right : b ∈ items) :
    agingCompare now a b = effectiveDiff now a b := by
  obtain ⟨low, high⟩ := fits.diff a left b right
  rw [agingCompare, effOf_eq fits clock left (stamped a left),
    effOf_eq fits clock right (stamped b right)]
  exact int32_of_range low high

theorem effectiveDiff_order (now : Nat) : TotalPreorder (effectiveDiff now : Compare V) := by
  constructor
  · intro a b
    unfold effectiveDiff
    omega
  · intro a b c
    unfold effectiveDiff
    omega

theorem notGreater_effectiveDiff :
    NotGreater (effectiveDiff now) a b ↔ effective now b ≤ effective now a := by
  unfold NotGreater effectiveDiff
  omega

/-- Between readings that are whole seconds apart, the difference does not change. -/
theorem effectiveDiff_same_phase {later : Nat} (le : now ≤ later) (phase : later % 1000 = now % 1000)
    (left : a.timestamp ≤ now) (leftPhase : a.timestamp % 1000 = now % 1000)
    (right : b.timestamp ≤ now) (rightPhase : b.timestamp % 1000 = now % 1000) :
    effectiveDiff later a b = effectiveDiff now a b := by
  unfold effectiveDiff effective
  omega

/-! ## Runs -/

variable {compare : Compare V} {pq pq' : Pq V} {answer : Answer V}

inductive AgingOp (V : Type) where
  | push (priority : Int) (value : Option V)
  | tryPop
  deriving DecidableEq, Repr

/-- The call at this time: an item is stamped with the clock. -/
def AgingOp.at (now : Nat) : AgingOp V → Op V
  | .push priority value => .push ⟨priority, value, now⟩
  | .tryPop => .tryPop

/-- A queue and the last reading of the clock. -/
structure Aged (V : Type) where
  clock : Nat
  pq : Pq V

/-- One call, while the clock shows `now`. -/
def agingStep (s : Aged V) (lab : Nat × AgingOp V) : Option (Aged V) :=
  if s.clock ≤ lab.1 ∧ lab.1 < 2 ^ 64 then
    (perform (agingCompare lab.1) s.pq (lab.2.at lab.1)).map fun r => ⟨lab.1, r.1⟩
  else none

/-- Nothing the call compares overflows an `int`. -/
def NoOverflow (s : Aged V) (lab : Nat × AgingOp V) : Prop :=
  Fits lab.1 (compared s.pq (lab.2.at lab.1))

/-- What a pop returns is queued, and nothing queued has a higher effective priority. -/
def PopsHighest (s : Aged V) (lab : Nat × AgingOp V) : Prop :=
  ∀ pq' item, perform (agingCompare lab.1) s.pq (lab.2.at lab.1) = some (pq', .popped (some item)) →
    item ∈ s.pq.queued ∧ ∀ other ∈ s.pq.queued, effective lab.1 other ≤ effective lab.1 item

/-- At a pop, everything queued has the same effective priority. -/
def Alike (s : Aged V) (lab : Nat × AgingOp V) : Prop :=
  lab.2 = .tryPop → ∀ a ∈ s.pq.queued, ∀ b ∈ s.pq.queued, effective lab.1 a = effective lab.1 b

/-- The queue is not above its capacity, and its items were stamped before now. -/
structure Stamped (capacity : Int) (s : Aged V) : Prop where
  bound : s.pq.capacity = capacity
  few : (s.pq.size : Int) ≤ capacity
  stamped : ∀ a ∈ s.pq.queued, a.timestamp ≤ s.clock

variable {s t : Aged V} {lab : Nat × AgingOp V} {capacity : Int}

theorem agingStep_performed (moved : agingStep s lab = some t) :
    s.clock ≤ lab.1 ∧ lab.1 < 2 ^ 64 ∧ t.clock = lab.1 ∧
      ∃ answer, perform (agingCompare lab.1) s.pq (lab.2.at lab.1) = some (t.pq, answer) := by
  obtain ⟨⟨le, clock⟩, moved⟩ := Option.ite_none_right_eq_some.1 moved
  obtain ⟨⟨pq, answer⟩, returned, rfl⟩ := Option.map_eq_some_iff.1 moved
  exact ⟨le, clock, rfl, answer, returned⟩

/-- What a call compares is stamped with the clock at the latest. -/
theorem Stamped.compared (inv : Stamped capacity s) (le : s.clock ≤ lab.1) :
    ∀ a ∈ compared s.pq (lab.2.at lab.1), a.timestamp ≤ lab.1 := by
  intro a member
  have queued : a ∈ s.pq.queued → a.timestamp ≤ lab.1 :=
    fun member => Nat.le_trans (inv.stamped a member) le
  cases op : lab.2 with
  | push priority value =>
      rw [op] at member
      rcases List.mem_append.1 member with member | member
      · exact queued member
      · rw [List.mem_singleton.1 member]
  | tryPop =>
      rw [op] at member
      exact queued member

theorem Stamped.step (inv : Stamped capacity s) (most : capacity ≤ 2 ^ 30)
    (moved : agingStep s lab = some t) : Stamped capacity t := by
  obtain ⟨le, -, clock, answer, returned⟩ := agingStep_performed moved
  have bound := inv.bound
  have few := inv.few
  have small : (lab.2.at lab.1).Pops → s.pq.size ≤ 2 ^ 30 := fun _ => by omega
  obtain ⟨same, done⟩ := perform_cases small returned
  refine ⟨same.trans bound, ?_, ?_⟩
  · rcases done with ⟨item, -, -, same, -⟩ | ⟨item, -, room, size, -⟩ | ⟨-, -, same, -⟩ |
      ⟨-, nonempty, size, -⟩ | ⟨-, -, size, -⟩
    · rw [same]
      exact few
    · omega
    · rw [same]
      exact few
    · omega
    · omega
  · intro a member
    rw [clock]
    exact inv.compared le a (queued_subset small returned member)

/-- A pop returns the root. -/
theorem Stamped.popped (inv : Stamped capacity s) (most : capacity ≤ 2 ^ 30) {item : Pv V}
    (returned : perform compare s.pq (lab.2.at lab.1) = some (pq', .popped (some item))) :
    lab.2 = .tryPop ∧ s.pq.size ≠ 0 ∧ item = s.pq.elements 0 ∧ item ∈ s.pq.queued := by
  have few := inv.few
  obtain ⟨-, done⟩ := perform_cases (fun _ => by omega) returned
  simp only [Performs, Answer.popped.injEq, reduceCtorEq, and_false, exists_false, false_or,
    or_false, Option.some.injEq] at done
  obtain ⟨pops, nonempty, -, perm, rfl⟩ := done
  refine ⟨?_, nonempty, rfl, perm.subset List.mem_cons_self⟩
  cases op : lab.2 with
  | push priority value =>
      rw [op] at pops
      rcases pops with pops | pops
      · cases pops
      · cases pops
  | tryPop => rfl

/-- Where all weigh the same, any of them is the highest. -/
theorem Stamped.popsHighest (inv : Stamped capacity s) (most : capacity ≤ 2 ^ 30)
    (alike : Alike s lab) : PopsHighest s lab := by
  intro pq' item returned
  obtain ⟨pops, -, -, member⟩ := inv.popped most returned
  exact ⟨member, fun other queued => Int.le_of_eq (alike pops other queued item member)⟩

/-! ## Readings that are whole seconds apart -/

/-- Besides, all stamps stand at the same phase of a second, and at every later reading of this
phase the heap is in order. -/
structure InPhase (capacity : Int) (phase : Nat) (s : Aged V) : Prop
    extends Stamped capacity s where
  stamps : ∀ a ∈ s.pq.queued, a.timestamp % 1000 = phase
  ordered : ∀ now, s.clock ≤ now → now % 1000 = phase →
    Ordered (NotGreater (effectiveDiff now)) s.pq.elements s.pq.size

variable {phase : Nat}

/-- While nothing overflows, a call is one with the difference of the effective priorities. -/
theorem Stamped.perform_eq (inv : Stamped capacity s) (most : capacity ≤ 2 ^ 30)
    (le : s.clock ≤ lab.1) (clock : lab.1 < 2 ^ 64) (fits : NoOverflow s lab) :
    perform (agingCompare lab.1) s.pq (lab.2.at lab.1) =
      perform (effectiveDiff lab.1) s.pq (lab.2.at lab.1) := by
  have few := inv.few
  refine perform_congr (fun _ => by omega) ?_
  intro a left b right
  exact agingCompare_eq fits clock (inv.compared le) left right

theorem InPhase.step (inv : InPhase capacity phase s) (most : capacity ≤ 2 ^ 30)
    (fits : NoOverflow s lab) (inPhase : lab.1 % 1000 = phase) (moved : agingStep s lab = some t) :
    InPhase capacity phase t := by
  obtain ⟨le, before, clock, answer, returned⟩ := agingStep_performed moved
  have next := inv.toStamped.step most moved
  have few := inv.few
  have small : (lab.2.at lab.1).Pops → s.pq.size ≤ 2 ^ 30 := fun _ => by omega
  have stamps : ∀ a ∈ t.pq.queued, a.timestamp % 1000 = phase := by
    intro a member
    have member := queued_subset small returned member
    cases op : lab.2 with
    | push priority value =>
        rw [op] at member
        rcases List.mem_append.1 member with member | member
        · exact inv.stamps a member
        · rw [List.mem_singleton.1 member]
          exact inPhase
    | tryPop =>
        rw [op] at member
        exact inv.stamps a member
  refine ⟨next, stamps, ?_⟩
  intro later after laterPhase i inner inside
  rw [inv.toStamped.perform_eq most le before fits] at returned
  have now := perform_ordered (effectiveDiff_order lab.1) small (inv.ordered lab.1 le inPhase)
    returned i inner inside
  have less := parent_lt inner
  have child : t.pq.elements i ∈ t.pq.queued := mem_live.2 ⟨i, inside, rfl⟩
  have above : t.pq.elements (parent i) ∈ t.pq.queued := mem_live.2 ⟨parent i, by omega, rfl⟩
  have childStamp := next.stamped _ child
  have aboveStamp := next.stamped _ above
  have childPhase := stamps _ child
  have abovePhase := stamps _ above
  have same : effectiveDiff later (t.pq.elements i) (t.pq.elements (parent i)) =
      effectiveDiff lab.1 (t.pq.elements i) (t.pq.elements (parent i)) :=
    effectiveDiff_same_phase (by omega) (by omega) (by omega) (by omega) (by omega) (by omega)
  rw [NotGreater, same]
  exact now

/-- In an ordered heap the root weighs least, so it is the highest only where all weigh the
same. -/
theorem InPhase.alike (inv : InPhase capacity phase s) (most : capacity ≤ 2 ^ 30)
    (inPhase : lab.1 % 1000 = phase) (moved : agingStep s lab = some t)
    (highest : PopsHighest s lab) : Alike s lab := by
  intro pops
  obtain ⟨le, -, -, -, -⟩ := agingStep_performed moved
  have few := inv.few
  by_cases empty : s.pq.size = 0
  · rw [queued_of_empty empty]
    intro a member
    cases member
  · have refl := (effectiveDiff_order (V := V) lab.1).refl
    have trans := (effectiveDiff_order (V := V) lab.1).isTrans
    have least : ∀ a ∈ s.pq.queued, effective lab.1 (s.pq.elements 0) ≤ effective lab.1 a := by
      intro a member
      obtain ⟨i, inside, rfl⟩ := mem_live.1 member
      exact notGreater_effectiveDiff.1 ((inv.ordered lab.1 le inPhase).le_root inside)
    have taken : (lab.2.at lab.1).Pops := by
      rw [pops]
      exact .inl rfl
    obtain ⟨pq', returned, -⟩ :=
      perform_pops (agingCompare lab.1) (fun _ => by omega) taken empty
    have most := (highest _ _ returned).2
    have weight : ∀ a ∈ s.pq.queued, effective lab.1 a = effective lab.1 (s.pq.elements 0) :=
      fun a member => Int.le_antisymm (most a member) (least a member)
    intro a left b right
    rw [weight a left, weight b right]

/-- **When the highest effective priority is popped.**  In every run in which all queued
elements weigh the same at each pop every pop is right, and in a run whose clock readings
are whole seconds apart, so that the order of the elements does not drift, no other run is:
the comparator has the sign of a heap with the lowest at its root. -/
theorem pop_highest_of_alike (V : Type) (capacity : Int) (nonneg : 0 ≤ capacity)
    (most : capacity ≤ 2 ^ 30) (memory : Nat → Pv V) (labs : List (Nat × AgingOp V)) (s : Aged V)
    (ran : exec agingStep ⟨0, pqInit capacity memory⟩ labs = some s)
    (fits : Along agingStep NoOverflow ⟨0, pqInit capacity memory⟩ labs) :
    (Along agingStep Alike ⟨0, pqInit capacity memory⟩ labs →
        Along agingStep PopsHighest ⟨0, pqInit capacity memory⟩ labs) ∧
      ∀ phase, (∀ lab ∈ labs, lab.1 % 1000 = phase) →
        Along agingStep PopsHighest ⟨0, pqInit capacity memory⟩ labs →
        Along agingStep Alike ⟨0, pqInit capacity memory⟩ labs := by
  have start : Stamped capacity ⟨0, pqInit capacity memory⟩ :=
    ⟨rfl, nonneg, fun a member => by cases member⟩
  constructor
  · intro alike
    have kept : ∀ (s : Aged V) (lab : Nat × AgingOp V) (t : Aged V), Alike s lab →
        Stamped capacity s → agingStep s lab = some t → Stamped capacity t :=
      fun s lab t _ inv moved => inv.step most moved
    exact along_of_invariant kept (fun s lab alike inv => inv.popsHighest most alike) alike start
  · intro phase inPhase highest
    have ordered : InPhase capacity phase ⟨0, pqInit capacity memory⟩ := by
      refine ⟨start, fun a member => absurd member List.not_mem_nil, ?_⟩
      intro now _ _ i _ inside
      exact absurd inside (Nat.not_lt_zero i)
    have phases : Along agingStep (fun _ lab => lab.1 % 1000 = phase)
        ⟨0, pqInit capacity memory⟩ labs :=
      along_of_labels (fun lab inside _ => inPhase lab inside) _
    refine along_of_invariant ?_ ?_
      (along_and (along_and fits phases) (along_and highest (along_enabled ran))) ordered
    · rintro s lab t ⟨⟨fits, inPhase⟩, -⟩ inv moved
      exact inv.step most fits inPhase moved
    · rintro s lab ⟨⟨-, inPhase⟩, highest, t, moved⟩ inv
      exact inv.alike most inPhase moved highest

/-- Two equal priorities, pushed at one moment and popped two seconds later. -/
def twoAlike : List (Nat × AgingOp Unit) :=
  [(5, .push 2 none), (5, .push 2 (some ())), (2005, .tryPop)]

def freshAged : Aged Unit := ⟨0, pqInit 20 fun _ => ⟨0, none, 0⟩⟩

theorem twoAlike_fits : Along agingStep NoOverflow freshAged twoAlike := by
  refine along_cons rfl ⟨?_, ?_, ?_⟩ (along_cons rfl ⟨?_, ?_, ?_⟩ (along_cons rfl ⟨?_, ?_, ?_⟩ trivial))
  all_goals decide

theorem twoAlike_pops_highest :
    ∃ s, exec agingStep freshAged twoAlike = some s ∧ s.pq.queued = [⟨2, some (), 5⟩] ∧
      Along agingStep PopsHighest freshAged twoAlike := by
  refine ⟨_, rfl, by decide, ?_⟩
  refine (pop_highest_of_alike Unit 20 (by decide) (by decide) (fun _ => ⟨0, none, 0⟩) twoAlike _ rfl
    twoAlike_fits).1 ?_
  refine along_cons rfl (fun pops => by cases pops) (along_cons rfl (fun pops => by cases pops)
    (along_cons rfl (fun _ => ?_) trivial))
  decide

/-- A task that can wait and one that cannot, pushed at one moment. -/
def urgentBehind : List (Nat × AgingOp Unit) := [(5, .push 0 none), (5, .push 3 none)]

/-- The pop takes the one that can wait. -/
theorem urgentBehind_pops_lowest :
    ∃ s pq', exec agingStep freshAged urgentBehind = some s ∧
      Along agingStep NoOverflow freshAged (urgentBehind ++ [(5, .tryPop)]) ∧
      perform (agingCompare 5) s.pq .tryPop = some (pq', .popped (some ⟨0, none, 5⟩)) ∧
      ¬ PopsHighest s (5, .tryPop) := by
  refine ⟨_, _, rfl, ?_, rfl, ?_⟩
  · refine along_cons rfl ⟨?_, ?_, ?_⟩
      (along_cons rfl ⟨?_, ?_, ?_⟩ (along_cons rfl ⟨?_, ?_, ?_⟩ trivial))
    all_goals decide
  · intro highest
    have least := (highest _ ⟨0, none, 5⟩ rfl).2 ⟨3, none, 5⟩ (by decide)
    revert least
    decide

end ChargerStack.Utils.PriorityQueue
