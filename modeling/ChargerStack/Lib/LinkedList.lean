/-
# Lib.LinkedList -- doubly linked lists laid out in memory

Nodes have addresses, and `prev` and `next` read the two pointers of the node at an
address.  `Segment before l after` says that the nodes `l` stand in that order, that
every two neighbours point at each other and that the ends point at `before` and
`after`; `Linked head l` that `head` is the start of a list that ends in null on both
sides and visits no node twice.

* `Linked.insert`: what the pointers must be for a new node to stand between `l` and `r`, and
  `Linked.remove` for the node between them to be out;
* `Linked.keep_left` and `Linked.keep_right`: what is left of a list after one of its
  nodes has been cut away from one side;
* `pairwise_orderedInsert`: a sorted list stays sorted, for every order that the
  comparison made while inserting is stronger than.
-/
import Mathlib.Data.List.Sort

namespace ChargerStack.Lib

set_option autoImplicit false
set_option linter.unusedSectionVars false

universe u

variable {H : Type u} [DecidableEq H]

section Pointers

variable (prev next : H → Option H)

/-- The nodes stand in this order between `before` and `after`. -/
def Segment : Option H → List H → Option H → Prop
  | _, [], _ => True
  | before, h :: l, after =>
      prev h = before ∧ next h = l.head?.or after ∧ Segment (some h) l after

/-- The whole list that starts at `head`. -/
structure Linked (head : Option H) (l : List H) : Prop where
  start : head = l.head?
  nodes : Segment prev next none l none
  nodup : l.Nodup

end Pointers

variable {prev next prev' next' : H → Option H} {head before after : Option H} {l r : List H} {h : H}

theorem segment_append : ∀ {before : Option H} {l : List H},
    Segment prev next before (l ++ r) after ↔
      Segment prev next before l (r.head?.or after) ∧
        Segment prev next (l.getLast?.or before) r after
  | before, [] => by simp [Segment]
  | before, h :: l => by
      have last : (h :: l).getLast?.or before = l.getLast?.or (some h) := by
        cases l with
        | nil => simp
        | cons x l => simp [List.getLast?_cons]
      have first : (l ++ r).head?.or after = l.head?.or (r.head?.or after) := by
        rw [List.head?_append, Option.or_assoc]
      rw [List.cons_append, last]
      simp only [Segment, segment_append, first, and_assoc]

/-- A segment is a matter of its own nodes' pointers. -/
theorem Segment.congr : ∀ {before : Option H} {l : List H}, Segment prev next before l after →
    (∀ x ∈ l, prev' x = prev x) → (∀ x ∈ l, next' x = next x) →
      Segment prev' next' before l after
  | _, [], _, _, _ => trivial
  | _, h :: l, ⟨back, forth, rest⟩, samePrev, sameNext => by
      refine ⟨?_, ?_, rest.congr (fun x inside => ?_) (fun x inside => ?_)⟩
      · rw [samePrev h List.mem_cons_self, back]
      · rw [sameNext h List.mem_cons_self, forth]
      · exact samePrev x (List.mem_cons_of_mem h inside)
      · exact sameNext x (List.mem_cons_of_mem h inside)

/-- Redirecting the back pointer of the first node. -/
theorem Segment.rebase (nodes : Segment prev next before l after) (nodup : l.Nodup)
    {b : Option H} (redirected : ∀ x ∈ l, prev' x = if l.head? = some x then b else prev x)
    (sameNext : ∀ x ∈ l, next' x = next x) : Segment prev' next' b l after := by
  cases l with
  | nil => trivial
  | cons h l =>
      obtain ⟨_, forth, rest⟩ := nodes
      have apart : ∀ x ∈ l, h ≠ x := fun x inside same => (List.nodup_cons.1 nodup).1 (same ▸ inside)
      refine ⟨?_, ?_, rest.congr (fun x inside => ?_) (fun x inside => ?_)⟩
      · simpa using redirected h List.mem_cons_self
      · rw [sameNext h List.mem_cons_self, forth]
      · simpa [apart x inside] using redirected x (List.mem_cons_of_mem h inside)
      · exact sameNext x (List.mem_cons_of_mem h inside)

/-- Redirecting the forward pointer of the last node. -/
theorem Segment.retarget : ∀ {before : Option H} {l : List H}, Segment prev next before l after →
    l.Nodup → ∀ {a : Option H}, (∀ x ∈ l, prev' x = prev x) →
    (∀ x ∈ l, next' x = if l.getLast? = some x then a else next x) →
      Segment prev' next' before l a
  | _, [], _, _, _, _, _ => trivial
  | _, h :: l, ⟨back, forth, rest⟩, nodup, a, samePrev, redirected => by
      obtain ⟨fresh, nodup⟩ := List.nodup_cons.1 nodup
      refine ⟨?_, ?_, rest.retarget nodup (fun x inside => ?_) (fun x inside => ?_)⟩
      · rw [samePrev h List.mem_cons_self, back]
      · rw [redirected h List.mem_cons_self]
        cases l with
        | nil => simp
        | cons y l =>
            have notLast : (h :: y :: l).getLast? ≠ some h := by
              rw [List.getLast?_cons_cons]
              exact fun last => fresh (List.mem_of_getLast? last)
            rw [if_neg notLast, forth]
            simp
      · exact samePrev x (List.mem_cons_of_mem h inside)
      · rw [redirected x (List.mem_cons_of_mem h inside)]
        cases l with
        | nil => cases inside
        | cons y l => rw [List.getLast?_cons_cons]

/-! ## Whole lists -/

theorem linked_nil : Linked prev next none ([] : List H) := ⟨rfl, trivial, List.nodup_nil⟩

theorem linked_singleton (back : prev h = none) (forth : next h = none) :
    Linked prev next (some h) [h] :=
  ⟨rfl, ⟨back, forth, trivial⟩, List.nodup_singleton h⟩

/-- The pointers of the node between `l` and `r`. -/
theorem Linked.pointers (linked : Linked prev next head (l ++ h :: r)) :
    prev h = l.getLast? ∧ next h = r.head? := by
  have nodes := (segment_append.1 linked.nodes).2
  exact ⟨by simpa using nodes.1, by simpa using nodes.2.1⟩

theorem Segment.unique : ∀ {a b : Option H} {l r : List H}, Segment prev next a l none →
    Segment prev next b r none → l.head? = r.head? → l = r
  | _, _, [], [], _, _, _ => rfl
  | _, _, [], _ :: _, _, _, same => by simp at same
  | _, _, _ :: _, [], _, _, same => by simp at same
  | _, _, x :: l, y :: r, ⟨_, forthX, restX⟩, ⟨_, forthY, restY⟩, same => by
      obtain rfl : x = y := by simpa using same
      rw [restX.unique restY]
      simpa using forthX.symm.trans forthY

/-- The pointers determine the list. -/
theorem Linked.unique (left : Linked prev next head l) (right : Linked prev next head r) :
    l = r :=
  left.nodes.unique right.nodes (left.start.symm.trans right.start)

theorem Linked.congr (linked : Linked prev next head l)
    (samePrev : ∀ x ∈ l, prev' x = prev x) (sameNext : ∀ x ∈ l, next' x = next x) :
    Linked prev' next' head l :=
  ⟨linked.start, linked.nodes.congr samePrev sameNext, linked.nodup⟩

/-- **A new node between `l` and `r`.** -/
theorem Linked.insert (linked : Linked prev next head (l ++ r)) (fresh : h ∉ l ++ r)
    (back : prev' h = l.getLast?) (forth : next' h = r.head?)
    (leftPrev : ∀ x ∈ l, prev' x = prev x)
    (leftNext : ∀ x ∈ l, next' x = if l.getLast? = some x then some h else next x)
    (rightPrev : ∀ x ∈ r, prev' x = if r.head? = some x then some h else prev x)
    (rightNext : ∀ x ∈ r, next' x = next x) :
    Linked prev' next' (l.head?.or (some h)) (l ++ h :: r) := by
  obtain ⟨left, right⟩ := segment_append.1 linked.nodes
  obtain ⟨nodupLeft, nodupRight, apart⟩ := List.nodup_append.1 linked.nodup
  rw [List.mem_append, not_or] at fresh
  refine ⟨?_, segment_append.2 ⟨?_, ?_, ?_, ?_⟩, ?_⟩
  · rw [List.head?_append, List.head?_cons]
  · exact left.retarget nodupLeft leftPrev leftNext
  · rw [back, Option.or_none]
  · rw [forth, Option.or_none]
  · exact right.rebase nodupRight rightPrev rightNext
  · refine List.nodup_append.2 ⟨nodupLeft, List.nodup_cons.2 ⟨fresh.2, nodupRight⟩, ?_⟩
    intro x inLeft y inRight same
    rcases List.mem_cons.1 inRight with rfl | inRight
    · exact fresh.1 (same ▸ inLeft)
    · exact apart x inLeft y inRight same

/-- **The node between `l` and `r` taken out.** -/
theorem Linked.remove (linked : Linked prev next head (l ++ h :: r))
    (leftPrev : ∀ x ∈ l, prev' x = prev x)
    (leftNext : ∀ x ∈ l, next' x = if l.getLast? = some x then r.head? else next x)
    (rightPrev : ∀ x ∈ r, prev' x = if r.head? = some x then l.getLast? else prev x)
    (rightNext : ∀ x ∈ r, next' x = next x) :
    Linked prev' next' (l.head?.or r.head?) (l ++ r) := by
  obtain ⟨left, right⟩ := segment_append.1 linked.nodes
  obtain ⟨nodupLeft, nodupRight, apart⟩ := List.nodup_append.1 linked.nodup
  have nodupRest := (List.nodup_cons.1 nodupRight).2
  refine ⟨List.head?_append.symm, segment_append.2 ⟨?_, ?_⟩, ?_⟩
  · rw [Option.or_none]
    exact left.retarget nodupLeft leftPrev leftNext
  · rw [Option.or_none]
    exact right.2.2.rebase nodupRest rightPrev rightNext
  · refine List.nodup_append.2 ⟨nodupLeft, nodupRest, ?_⟩
    exact fun x inLeft y inRest => apart x inLeft y (List.mem_cons_of_mem h inRest)

/-- What is left of a list whose nodes from `h` on have been cut away. -/
theorem Linked.keep_left (linked : Linked prev next head (l ++ h :: r)) (nonempty : l ≠ [])
    (samePrev : ∀ x ∈ l, prev' x = prev x)
    (cut : ∀ x ∈ l, next' x = if l.getLast? = some x then none else next x) :
    Linked prev' next' head l := by
  obtain ⟨nodupLeft, -, -⟩ := List.nodup_append.1 linked.nodup
  refine ⟨?_, (segment_append.1 linked.nodes).1.retarget nodupLeft samePrev cut, nodupLeft⟩
  rw [linked.start]
  cases l with
  | nil => exact absurd rfl nonempty
  | cons x l => rfl

/-- What is left of a list whose first node has been cut away. -/
theorem Linked.keep_right (linked : Linked prev next head (h :: r))
    (cut : ∀ x ∈ r, prev' x = if r.head? = some x then none else prev x)
    (sameNext : ∀ x ∈ r, next' x = next x) : Linked prev' next' r.head? r := by
  have nodup := (List.nodup_cons.1 linked.nodup).2
  exact ⟨rfl, linked.nodes.2.2.rebase nodup cut sameNext, nodup⟩

/-! ## Sorted insertion -/

/-- A sorted list stays sorted, for every order that the comparisons made decide. -/
theorem pairwise_orderedInsert {lt : H → H → Prop} [DecidableRel lt] {le : H → H → Prop}
    (trans : ∀ a b c, le a b → le b c → le a c) {h : H} {l : List H}
    (before : ∀ x ∈ l, lt h x → le h x) (behind : ∀ x ∈ l, ¬ lt h x → le x h)
    (sorted : l.Pairwise le) : (l.orderedInsert lt h).Pairwise le := by
  induction l with
  | nil => exact List.pairwise_singleton le h
  | cons x l ih =>
      obtain ⟨first, rest⟩ := List.pairwise_cons.1 sorted
      rw [List.orderedInsert]
      split
      · rename_i smaller
        have below : le h x := before x List.mem_cons_self smaller
        refine List.pairwise_cons.2 ⟨fun y inside => ?_, sorted⟩
        rcases List.mem_cons.1 inside with rfl | inside
        · exact below
        · exact trans h x y below (first y inside)
      · rename_i larger
        refine List.pairwise_cons.2 ⟨fun y inside => ?_, ih ?_ ?_ rest⟩
        · rcases (List.mem_orderedInsert lt).1 inside with rfl | inside
          · exact behind x List.mem_cons_self larger
          · exact first y inside
        · exact fun y inside => before y (List.mem_cons_of_mem x inside)
        · exact fun y inside => behind y (List.mem_cons_of_mem x inside)

/-- Nothing is put in among elements that the new one does not come before. -/
theorem orderedInsert_append {lt : H → H → Prop} [DecidableRel lt] {h : H} {l r : List H}
    (behind : ∀ x ∈ l, ¬ lt h x) :
    (l ++ r).orderedInsert lt h = l ++ r.orderedInsert lt h := by
  induction l with
  | nil => rfl
  | cons x l ih =>
      rw [List.cons_append, List.orderedInsert, if_neg (behind x List.mem_cons_self),
        ih fun y inside => behind y (List.mem_cons_of_mem x inside), List.cons_append]

end ChargerStack.Lib
