/-
# Lib.Heap -- an implicit binary heap

The first `n` places of a memory are the nodes of a tree: the children of `i` stand at
`2 * i + 1` and `2 * i + 2`.  An algorithm repairs the order by exchanging a node with its
parent or with a child, so what is left to repair is always at one place.

* `exchange` swaps two places, and `live_exchange` says that this only permutes what is there;
* `Ordered le f n`: no child is above its parent; `Ordered.le_root` makes of these
  comparisons of neighbours that nothing is above the root;
* `OrderedAbove` and `OrderedBelow`: the order but for the edge from a place up, and but for
  the edges from it down.  `OrderedAbove.exchange` and `OrderedBelow.exchange` are the steps of
  the two repairs, `OrderedAbove.stop` and `OrderedBelow.stop` their ends.
-/
import Mathlib.Data.List.Basic
import Mathlib.Data.List.Nodup
import Mathlib.Order.Defs.Unbundled

namespace ChargerStack.Lib.Heap

set_option autoImplicit false

universe u

variable {α : Type u}

/-! ## The memory -/

/-- What the first `n` places hold. -/
def live (f : Nat → α) (n : Nat) : List α := (List.range n).map f

/-- `f` with the places `i` and `j` exchanged. -/
def exchange (f : Nat → α) (i j : Nat) : Nat → α :=
  fun k => if k = i then f j else if k = j then f i else f k

/-- `f` with `x` at place `i`. -/
def store (f : Nat → α) (i : Nat) (x : α) : Nat → α := fun k => if k = i then x else f k

variable {f : Nat → α} {i j k n : Nat} {x : α}

@[simp] theorem exchange_left : exchange f i j i = f j := if_pos rfl

@[simp] theorem exchange_right : exchange f i j j = f i := by
  unfold exchange
  split
  · rename_i same
    rw [same]
  · exact if_pos rfl

theorem exchange_other (left : k ≠ i) (right : k ≠ j) : exchange f i j k = f k := by
  rw [exchange, if_neg left, if_neg right]

@[simp] theorem store_same : store f i x i = x := if_pos rfl

theorem store_other (other : k ≠ i) : store f i x k = f k := if_neg other

@[simp] theorem live_zero : live f 0 = [] := rfl

@[simp] theorem length_live : (live f n).length = n := by
  rw [live, List.length_map, List.length_range]

theorem mem_live : x ∈ live f n ↔ ∃ i, i < n ∧ f i = x := by
  simp only [live, List.mem_map, List.mem_range]

theorem live_succ : live f (n + 1) = live f n ++ [f n] := by
  rw [live, List.range_succ, List.map_append]
  rfl

theorem live_cons : live f (n + 1) = f 0 :: live (fun i => f (i + 1)) n := by
  rw [live, List.range_succ_eq_map, List.map_cons, List.map_map]
  rfl

theorem live_congr {g : Nat → α} (same : ∀ i, i < n → f i = g i) : live f n = live g n := by
  refine List.map_congr_left ?_
  intro i inside
  exact same i (List.mem_range.1 inside)

theorem live_store_end : live (store f n x) (n + 1) = live f n ++ [x] := by
  rw [live_succ, store_same]
  have same : ∀ i, i < n → store f n x i = f i := fun i less => store_other (Nat.ne_of_lt less)
  rw [live_congr same]

/-- The places that an exchange reads, in the order of the places it fills. -/
theorem live_exchange (left : i < n) (right : j < n) : (live (exchange f i j) n).Perm (live f n) := by
  -- both are images under `f` of lists without repetition of the places below `n`
  have read : exchange f i j = f ∘ exchange id i j := by
    funext k
    simp only [exchange, Function.comp, id]
    split
    · rfl
    · split <;> rfl
  rw [live, live, read, ← List.map_map]
  refine List.Perm.map f ?_
  have involutive : ∀ k, exchange id i j (exchange id i j k) = k := by
    intro k
    simp only [exchange, id]
    split_ifs <;> omega
  have injective : Function.Injective (exchange id i j) := by
    intro a b same
    rw [← involutive a, same, involutive b]
  rw [List.perm_ext_iff_of_nodup (List.nodup_range.map injective) List.nodup_range]
  have below : ∀ k, k < n → exchange id i j k < n := by
    intro k less
    simp only [exchange, id]
    split_ifs <;> omega
  intro k
  simp only [List.mem_map, List.mem_range]
  constructor
  · rintro ⟨a, less, rfl⟩
    exact below a less
  · intro less
    exact ⟨exchange id i j k, below k less, involutive k⟩

/-- The root is replaced by the last node. -/
theorem live_drop_root : (f 0 :: live (store f 0 (f n)) n).Perm (live f (n + 1)) := by
  cases n with
  | zero => exact List.Perm.refl _
  | succ m =>
      have rest : (fun i => store f 0 (f (m + 1)) (i + 1)) = fun i => f (i + 1) := by
        funext i
        exact store_other (Nat.succ_ne_zero i)
      have last : live (fun i => f (i + 1)) (m + 1) = live (fun i => f (i + 1)) m ++ [f (m + 1)] :=
        live_succ
      rw [live_cons, rest, store_same, live_cons, last]
      exact ((List.perm_append_singleton _ _).symm).cons (f 0)

/-! ## The order -/

/-- The node over `i`. -/
def parent (i : Nat) : Nat := (i - 1) / 2

theorem parent_lt (inner : 0 < i) : parent i < i := by
  unfold parent
  omega

theorem parent_eq_iff (inner : 0 < i) : parent i = k ↔ i = 2 * k + 1 ∨ i = 2 * k + 2 := by
  unfold parent
  omega

variable (le : α → α → Prop)

/-- No node is above its parent. -/
def Ordered (f : Nat → α) (n : Nat) : Prop :=
  ∀ i, 0 < i → i < n → le (f i) (f (parent i))

/-- The order, but for the edge from `k` to its parent. -/
structure OrderedAbove (f : Nat → α) (n k : Nat) : Prop where
  off : ∀ i, 0 < i → i < n → i ≠ k → le (f i) (f (parent i))
  across : ∀ i, 0 < i → i < n → parent i = k → 0 < k → le (f i) (f (parent k))

/-- The order, but for the edges from the children of `k` to it. -/
structure OrderedBelow (f : Nat → α) (n k : Nat) : Prop where
  off : ∀ i, 0 < i → i < n → parent i ≠ k → le (f i) (f (parent i))
  across : ∀ i, 0 < i → i < n → parent i = k → 0 < k → le (f i) (f (parent k))

variable {le}

theorem Ordered.le_root [Std.Refl le] [IsTrans α le] (ordered : Ordered le f n) (inside : i < n) :
    le (f i) (f 0) := by
  -- up the path from `i` to the root
  induction i using Nat.strongRecOn with
  | ind i ih =>
      by_cases root : i = 0
      · rw [root]
        exact Std.Refl.refl (f 0)
      · have inner : 0 < i := Nat.pos_of_ne_zero root
        have less : parent i < i := parent_lt inner
        exact IsTrans.trans _ _ _ (ordered i inner inside) (ih (parent i) less (by omega))

/-- A new node is stored behind the others. -/
theorem Ordered.store_end (ordered : Ordered le f n) (x : α) :
    OrderedAbove le (store f n x) (n + 1) n := by
  constructor
  · intro i inner inside other
    have less := parent_lt inner
    rw [store_other other, store_other (show parent i ≠ n by omega)]
    exact ordered i inner (by omega)
  · intro i inner inside child
    have less := parent_lt inner
    omega

theorem OrderedAbove.stop (order : OrderedAbove le f n k)
    (fits : 0 < k → le (f k) (f (parent k))) : Ordered le f n := by
  intro i inner inside
  by_cases here : i = k
  · subst here
    exact fits inner
  · exact order.off i inner inside here

/-- A node above its parent takes the parent's place. -/
theorem OrderedAbove.exchange [IsTrans α le] (order : OrderedAbove le f n k) (inner : 0 < k)
    (inside : k < n) (greater : le (f (parent k)) (f k)) :
    OrderedAbove le (exchange f (parent k) k) n (parent k) := by
  have less := parent_lt inner
  constructor
  · intro i innerI insideI other
    have lessI := parent_lt innerI
    by_cases here : i = k
    · subst here
      rwa [exchange_right, exchange_left]
    · rw [exchange_other other here]
      by_cases child : parent i = k
      · rw [child, exchange_right]
        exact order.across i innerI insideI child inner
      · by_cases sibling : parent i = parent k
        · have under := order.off i innerI insideI here
          rw [sibling] at under
          rw [sibling, exchange_left]
          exact IsTrans.trans _ _ _ under greater
        · rw [exchange_other sibling child]
          exact order.off i innerI insideI here
  · intro i innerI insideI sibling innerP
    have lessP := parent_lt innerP
    have up : le (f (parent k)) (f (parent (parent k))) :=
      order.off (parent k) innerP (by omega) (by omega)
    rw [exchange_other (show parent (parent k) ≠ parent k by omega)
      (show parent (parent k) ≠ k by omega)]
    by_cases here : i = k
    · subst here
      rwa [exchange_right]
    · have lessI := parent_lt innerI
      rw [exchange_other (show i ≠ parent k by omega) here]
      have under := order.off i innerI insideI here
      rw [sibling] at under
      exact IsTrans.trans _ _ _ under up

/-- The root is replaced, and a node less. -/
theorem Ordered.store_root (ordered : Ordered le f (n + 1)) (x : α) :
    OrderedBelow le (store f 0 x) n 0 := by
  constructor
  · intro i inner inside other
    rw [store_other (Nat.ne_of_gt inner), store_other other]
    exact ordered i inner (by omega)
  · intro i _ _ _ inner
    omega

theorem OrderedBelow.stop (order : OrderedBelow le f n k)
    (fits : ∀ i, 0 < i → i < n → parent i = k → le (f i) (f k)) : Ordered le f n := by
  intro i inner inside
  by_cases child : parent i = k
  · rw [child]
    exact fits i inner inside child
  · exact order.off i inner inside child

/-- A node under its greatest child takes the child's place. -/
theorem OrderedBelow.exchange {c : Nat} (order : OrderedBelow le f n k) (inner : 0 < c)
    (inside : c < n) (child : parent c = k) (greater : le (f k) (f c))
    (greatest : ∀ i, 0 < i → i < n → parent i = k → le (f i) (f c)) :
    OrderedBelow le (exchange f k c) n c := by
  have less : k < c := child ▸ parent_lt inner
  constructor
  · intro i innerI insideI other
    have lessI := parent_lt innerI
    by_cases here : i = c
    · subst here
      rwa [child, exchange_right, exchange_left]
    · by_cases hole : i = k
      · subst hole
        rw [exchange_left, exchange_other (show parent i ≠ i by omega) other]
        exact order.across c inner inside child innerI
      · rw [exchange_other hole here]
        by_cases sibling : parent i = k
        · rw [sibling, exchange_left]
          exact greatest i innerI insideI sibling
        · rw [exchange_other sibling other]
          exact order.off i innerI insideI sibling
  · intro i innerI insideI grandchild _
    have lessI := parent_lt innerI
    rw [child, exchange_left, exchange_other (show i ≠ k by omega) (show i ≠ c by omega)]
    have under := order.off i innerI insideI (by omega)
    rwa [grandchild] at under

end ChargerStack.Lib.Heap
