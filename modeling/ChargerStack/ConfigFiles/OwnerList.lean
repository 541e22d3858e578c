/-
# ConfigFiles.OwnerList -- the callback list of a configuration of config/config_manage.c

The callbacks attached to a configuration stand in a doubly linked list of `cb_list_t` nodes,
which are allocated and freed.  The model keeps the memory as the code uses it: a section that
reads or writes a node that is not allocated, or walks round for ever, has no result.

* `attachOwner`, `findOwner`, `unlinkOwner`, `freeOwner` and `notifyOwner` are the pieces between
  the locks in `config_attach`, `config_detach` and `notify_owner`;
* `Memory.Holds` says which nodes the list in memory is made of;
* one theorem for each piece says what it does to such a list: `holds_attachOwner`,
  `findOwner_eq`, `holds_unlinkOwner`, `holds_freeOwner`, `notifyOwner_eq`.
-/
import Mathlib.Logic.Function.Basic
import ChargerStack.Lib.LinkedList

namespace ChargerStack.ConfigFiles.OwnerList

open ChargerStack.Lib

set_option autoImplicit false

/-! ## Nodes in memory -/

abbrev Addr := Nat

/-- `cb_list_t`. -/
structure CbList (C : Type) where
  cb : C
  prev : Option Addr
  next : Option Addr
  deriving DecidableEq, Repr

/-- The `owners` of one configuration and the nodes that are allocated; how many ever were. -/
structure Memory (C : Type) where
  owners : Option Addr
  node : Addr → Option (CbList C)
  made : Nat

variable {C : Type}

namespace Memory

def prev (s : Memory C) (a : Addr) : Option Addr := (s.node a).bind CbList.prev

def next (s : Memory C) (a : Addr) : Option Addr := (s.node a).bind CbList.next

def cb (s : Memory C) (a : Addr) : Option C := (s.node a).map CbList.cb

def write (s : Memory C) (a : Addr) (n : CbList C) : Memory C :=
  { s with node := Function.update s.node a (some n) }

/-- `a->prev = p`. -/
def setPrev (s : Memory C) (a : Addr) (p : Option Addr) : Option (Memory C) :=
  (s.node a).map fun n => s.write a { n with prev := p }

/-- `a->next = p`. -/
def setNext (s : Memory C) (a : Addr) (p : Option Addr) : Option (Memory C) :=
  (s.node a).map fun n => s.write a { n with next := p }

end Memory

/-- The loop of `config_attach`, at the node `head`. -/
def lastOwner (s : Memory C) : Nat → Addr → Option Addr
  | 0, _ => none
  | fuel + 1, head =>
      (s.node head).bind fun n =>
        match n.next with
        | none => some head
        | some next => lastOwner s fuel next

/-- `config_attach` with the new node at `a`. -/
def attachOwner (a : Addr) (cb : C) (s : Memory C) : Option (Memory C) :=
  let s := { s.write a ⟨cb, none, none⟩ with made := s.made + 1 }
  match s.owners with
  | none => some { s with owners := some a }
  | some head =>
      (lastOwner s s.made head).bind fun last =>
        (s.setNext last (some a)).bind fun s => s.setPrev a (some last)

section

variable [DecidableEq C]

/-- The loop of `find_owner`. -/
def findOwnerFrom (s : Memory C) (cb : C) : Nat → Option Addr → Option (Option Addr)
  | _, none => some none
  | 0, some _ => none
  | fuel + 1, some head =>
      (s.node head).bind fun n =>
        if n.cb = cb then some (some head) else findOwnerFrom s cb fuel n.next

/-- `find_owner`. -/
def findOwner (s : Memory C) (cb : C) : Option (Option Addr) := findOwnerFrom s cb s.made s.owners

end

/-- The second section of `config_detach`. -/
def unlinkOwner (a : Addr) (s : Memory C) : Option (Memory C) :=
  (s.node a).bind fun n =>
    if s.owners = some a then
      let s := { s with owners := n.next }
      match n.next with
      | none => some s
      | some next => s.setPrev next none
    else
      match n.prev with
      | none => some s
      | some prev =>
          (s.setNext prev n.next).bind fun s =>
            match n.next with
            | none => some s
            | some next => s.setPrev next (some prev)

/-- `free`. -/
def freeOwner (a : Addr) (s : Memory C) : Option (Memory C) :=
  (s.node a).map fun _ => { s with node := Function.update s.node a none }

/-- The loop of `notify_owner`: the callbacks it calls, in order. -/
def notifyFrom (s : Memory C) : Nat → Option Addr → Option (List C)
  | _, none => some []
  | 0, some _ => none
  | fuel + 1, some head =>
      (s.node head).bind fun n => (notifyFrom s fuel n.next).map (n.cb :: ·)

/-- `notify_owner`. -/
def notifyOwner (s : Memory C) : Option (List C) := notifyFrom s s.made s.owners

/-! ## Reading after a write -/

section Writes

variable {s t : Memory C} {a : Addr} {p : Option Addr} {n : CbList C}

theorem write_prev : (s.write a n).prev = Function.update s.prev a n.prev :=
  Function.comp_update (fun m : Option (CbList C) => m.bind CbList.prev) s.node a (some n)

theorem write_next : (s.write a n).next = Function.update s.next a n.next :=
  Function.comp_update (fun m : Option (CbList C) => m.bind CbList.next) s.node a (some n)

theorem write_cb : (s.write a n).cb = Function.update s.cb a (some n.cb) :=
  Function.comp_update (fun m : Option (CbList C) => m.map CbList.cb) s.node a (some n)

/-- The nodes that are allocated. -/
def Memory.Has (s : Memory C) (a : Addr) : Prop := (s.node a).isSome

theorem write_has {x : Addr} : (s.write a n).Has x ↔ x = a ∨ s.Has x := by
  unfold Memory.Has Memory.write
  dsimp only
  rw [Function.update_apply]
  by_cases same : x = a <;> simp [same]

/-- Writing a pointer changes that pointer, and nothing else. -/
structure Writes (field : Memory C → Addr → Option Addr) (other : Memory C → Addr → Option Addr)
    (a : Addr) (p : Option Addr) (s t : Memory C) : Prop where
  field : field t = Function.update (field s) a p
  other : other t = other s
  cb : t.cb = s.cb
  has : ∀ x, t.Has x ↔ s.Has x
  owners : t.owners = s.owners
  made : t.made = s.made

theorem setPrev_writes (has : s.Has a) (p : Option Addr) :
    ∃ t, s.setPrev a p = some t ∧ Writes Memory.prev Memory.next a p s t := by
  obtain ⟨n, found⟩ := Option.isSome_iff_exists.1 has
  refine ⟨s.write a { n with prev := p }, by simp [Memory.setPrev, found], write_prev, ?_, ?_, ?_,
    rfl, rfl⟩
  · rw [write_next, ← show s.next a = n.next by simp [Memory.next, found], Function.update_eq_self]
  · rw [write_cb, ← show s.cb a = some n.cb by simp [Memory.cb, found], Function.update_eq_self]
  · intro x
    rw [write_has]
    exact ⟨fun h => h.elim (fun same => same ▸ has) id, .inr⟩

theorem setNext_writes (has : s.Has a) (p : Option Addr) :
    ∃ t, s.setNext a p = some t ∧ Writes Memory.next Memory.prev a p s t := by
  obtain ⟨n, found⟩ := Option.isSome_iff_exists.1 has
  refine ⟨s.write a { n with next := p }, by simp [Memory.setNext, found], write_next, ?_, ?_, ?_,
    rfl, rfl⟩
  · rw [write_prev, ← show s.prev a = n.prev by simp [Memory.prev, found], Function.update_eq_self]
  · rw [write_cb, ← show s.cb a = some n.cb by simp [Memory.cb, found], Function.update_eq_self]
  · intro x
    rw [write_has]
    exact ⟨fun h => h.elim (fun same => same ▸ has) id, .inr⟩

end Writes

/-! ## The list -/

/-- The list in memory, from `owners` on, and its nodes are allocated. -/
structure Memory.Holds (s : Memory C) (l : List Addr) : Prop where
  linked : Linked s.prev s.next s.owners l
  has : ∀ a ∈ l, s.Has a

/-- Its callbacks, in order. -/
def Memory.callbacks (s : Memory C) (l : List Addr) : List C := l.filterMap s.cb

variable {s : Memory C} {l r : List Addr} {a : Addr}

theorem node_of_has (has : s.Has a) :
    ∃ cb, s.cb a = some cb ∧ s.node a = some ⟨cb, s.prev a, s.next a⟩ := by
  obtain ⟨n, found⟩ := Option.isSome_iff_exists.1 has
  exact ⟨n.cb, by simp [Memory.cb, found], by simp [Memory.prev, Memory.next, found]⟩

theorem notifyFrom_eq : ∀ {before : Option Addr} {l : List Addr} {fuel : Nat},
    Segment s.prev s.next before l none → (∀ a ∈ l, s.Has a) → l.length ≤ fuel →
      notifyFrom s fuel l.head? = some (s.callbacks l)
  | _, [], _, _, _, _ => by simp [notifyFrom, Memory.callbacks]
  | _, a :: l, fuel, ⟨_, forth, rest⟩, has, enough => by
      obtain ⟨cb, own, found⟩ := node_of_has (has a List.mem_cons_self)
      obtain ⟨fuel, rfl⟩ : ∃ k, fuel = k + 1 := ⟨fuel - 1, by simp at enough; omega⟩
      have ih := notifyFrom_eq rest (fun x inside => has x (List.mem_cons_of_mem a inside))
        (Nat.le_of_succ_le_succ enough)
      rw [List.head?_cons, notifyFrom, found, Option.bind_some]
      dsimp only
      rw [forth, Option.or_none, ih, Option.map_some, Memory.callbacks, Memory.callbacks,
        List.filterMap_cons_some own]

/-- **Every callback of the list, in order.** -/
theorem notifyOwner_eq (holds : s.Holds l) (enough : l.length ≤ s.made) :
    notifyOwner s = some (s.callbacks l) := by
  rw [notifyOwner, holds.linked.start]
  exact notifyFrom_eq holds.linked.nodes holds.has enough

section

variable [DecidableEq C]

theorem findOwnerFrom_eq (cb : C) : ∀ {before : Option Addr} {l : List Addr} {fuel : Nat},
    Segment s.prev s.next before l none → (∀ a ∈ l, s.Has a) → l.length ≤ fuel →
      findOwnerFrom s cb fuel l.head? = some (l.find? fun a => s.cb a = some cb)
  | _, [], _, _, _, _ => by simp [findOwnerFrom]
  | _, a :: l, fuel, ⟨_, forth, rest⟩, has, enough => by
      obtain ⟨own, is, found⟩ := node_of_has (has a List.mem_cons_self)
      obtain ⟨fuel, rfl⟩ : ∃ k, fuel = k + 1 := ⟨fuel - 1, by simp at enough; omega⟩
      have ih := findOwnerFrom_eq cb rest
        (fun x inside => has x (List.mem_cons_of_mem a inside)) (Nat.le_of_succ_le_succ enough)
      rw [List.head?_cons, findOwnerFrom, found, Option.bind_some]
      dsimp only
      by_cases same : own = cb
      · rw [if_pos same, List.find?_cons_of_pos (by simp [is, same])]
      · rw [if_neg same, forth, Option.or_none, ih, List.find?_cons_of_neg (by simp [is, same])]

/-- The first node with that callback. -/
theorem findOwner_eq (holds : s.Holds l) (enough : l.length ≤ s.made) (cb : C) :
    findOwner s cb = some (l.find? fun a => s.cb a = some cb) := by
  rw [findOwner, holds.linked.start]
  exact findOwnerFrom_eq cb holds.linked.nodes holds.has enough

end

theorem lastOwner_eq : ∀ {before : Option Addr} {l : List Addr} {a last : Addr} {fuel : Nat},
    Segment s.prev s.next before (a :: l) none → (∀ x ∈ a :: l, s.Has x) →
      (a :: l).length ≤ fuel → (a :: l).getLast? = some last → lastOwner s fuel a = some last
  | _, [], a, last, fuel, ⟨_, forth, _⟩, has, enough, ends => by
      obtain ⟨cb, -, found⟩ := node_of_has (has a List.mem_cons_self)
      obtain ⟨fuel, rfl⟩ : ∃ k, fuel = k + 1 := ⟨fuel - 1, by simp at enough; omega⟩
      obtain rfl : a = last := by simpa using ends
      simp [lastOwner, found, forth]
  | _, b :: l, a, last, fuel, ⟨_, forth, rest⟩, has, enough, ends => by
      obtain ⟨cb, -, found⟩ := node_of_has (has a List.mem_cons_self)
      obtain ⟨fuel, rfl⟩ : ∃ k, fuel = k + 1 := ⟨fuel - 1, by simp at enough; omega⟩
      have ih := lastOwner_eq rest (fun x inside => has x (List.mem_cons_of_mem a inside))
        (Nat.le_of_succ_le_succ enough) (by rwa [List.getLast?_cons_cons] at ends)
      simp only [lastOwner, found, Option.bind_some, forth, List.head?_cons, Option.some_or]
      exact ih

/-- What one of the sections leaves besides the list: which nodes there are, their callbacks, and
how many were made. -/
structure Memory.Same (s t : Memory C) : Prop where
  cb : t.cb = s.cb
  has : ∀ x, t.Has x ↔ s.Has x
  made : t.made = s.made

theorem Memory.Same.refl (s : Memory C) : s.Same s := ⟨rfl, fun _ => Iff.rfl, rfl⟩

theorem Memory.Same.trans {s t u : Memory C} (first : s.Same t) (second : t.Same u) : s.Same u :=
  ⟨second.cb.trans first.cb, fun x => (second.has x).trans (first.has x),
    second.made.trans first.made⟩

theorem Writes.same {field other : Memory C → Addr → Option Addr} {p : Option Addr} {t : Memory C}
    (writes : Writes field other a p s t) : s.Same t := ⟨writes.cb, writes.has, writes.made⟩

/-- **A node at the end of the list.** -/
theorem holds_attachOwner (holds : s.Holds l) (fresh : ¬ s.Has a) (enough : l.length ≤ s.made)
    (cb : C) : ∃ t, attachOwner a cb s = some t ∧ t.Holds (l ++ [a]) ∧
      t.cb = Function.update s.cb a (some cb) ∧ (∀ x, t.Has x ↔ x = a ∨ s.Has x) ∧
      t.made = s.made + 1 := by
  have outside : a ∉ l := fun inside => fresh (holds.has a inside)
  have apart : ∀ x ∈ l, x ≠ a := fun x inside same => outside (same ▸ inside)
  -- the node is made, and not in the list yet
  let m : Memory C := { s.write a ⟨cb, none, none⟩ with made := s.made + 1 }
  have mPrev : m.prev = Function.update s.prev a none := write_prev
  have mNext : m.next = Function.update s.next a none := write_next
  have mCb : m.cb = Function.update s.cb a (some cb) := write_cb
  have mHas : ∀ x, m.Has x ↔ x = a ∨ s.Has x := fun x => write_has
  have mHolds : m.Holds l := by
    refine ⟨holds.linked.congr (fun x inside => ?_) (fun x inside => ?_),
      fun x inside => (mHas x).2 (.inr (holds.has x inside))⟩
    · rw [mPrev, Function.update_of_ne (apart x inside)]
    · rw [mNext, Function.update_of_ne (apart x inside)]
  have made : attachOwner a cb s = match m.owners with
      | none => some { m with owners := some a }
      | some head => (lastOwner m m.made head).bind fun last =>
          (m.setNext last (some a)).bind fun s => s.setPrev a (some last) := rfl
  cases l with
  | nil =>
      have empty : m.owners = none := mHolds.linked.start
      refine ⟨{ m with owners := some a }, by rw [made, empty], ⟨linked_singleton ?_ ?_, ?_⟩, mCb,
        mHas, rfl⟩
      · exact (congrFun mPrev a).trans (Function.update_self ..)
      · exact (congrFun mNext a).trans (Function.update_self ..)
      · intro x inside
        exact (mHas x).2 (.inl (List.mem_singleton.1 inside))
  | cons first l =>
      have start : m.owners = some first := mHolds.linked.start
      obtain ⟨last, ends⟩ : ∃ last, (first :: l).getLast? = some last :=
        Option.isSome_iff_exists.1 (by simp)
      have inside : last ∈ first :: l := List.mem_of_getLast? ends
      have walked : lastOwner m m.made first = some last :=
        lastOwner_eq mHolds.linked.nodes mHolds.has (Nat.le_succ_of_le enough) ends
      obtain ⟨m₁, set₁, writes₁⟩ := setNext_writes (mHolds.has last inside) (some a)
      obtain ⟨t, set₂, writes₂⟩ := setPrev_writes ((writes₁.has a).2 ((mHas a).2 (.inl rfl))) (some last)
      have same := writes₁.same.trans writes₂.same
      have tPrev : t.prev = Function.update m.prev a (some last) := by
        rw [writes₂.field, writes₁.other]
      have tNext : t.next = Function.update m.next last (some a) := by
        rw [writes₂.other, writes₁.field]
      refine ⟨t, ?_, ⟨?_, ?_⟩, same.cb.trans mCb, fun x => (same.has x).trans (mHas x), same.made⟩
      · rw [made, start]
        simp only [walked, Option.bind_some, set₁, set₂]
      · have before : Linked m.prev m.next m.owners ((first :: l) ++ []) := by
          rw [List.append_nil]
          exact mHolds.linked
        have new : a ∉ (first :: l) ++ [] := by rwa [List.append_nil]
        have back : t.prev a = (first :: l).getLast? := by rw [tPrev, Function.update_self, ends]
        have forth : t.next a = ([] : List Addr).head? := by
          rw [tNext, Function.update_of_ne (apart last inside).symm, mNext, Function.update_self,
            List.head?_nil]
        have leftPrev : ∀ x ∈ first :: l, t.prev x = m.prev x := fun x member => by
          rw [tPrev, Function.update_of_ne (apart x member)]
        have leftNext : ∀ x ∈ first :: l,
            t.next x = if (first :: l).getLast? = some x then some a else m.next x := fun x _ => by
          rw [tNext, Function.update_apply, ends]
          simp [eq_comm]
        have linked := before.insert new back forth leftPrev leftNext (by simp) (by simp)
        have head : t.owners = some first := writes₂.owners.trans (writes₁.owners.trans start)
        rw [head]
        exact linked
      · intro x member
        refine (same.has x).2 ((mHas x).2 ?_)
        rcases List.mem_append.1 member with member | member
        · exact .inr (holds.has x member)
        · exact .inl (List.mem_singleton.1 member)

/-- The pointer of one node is redirected, if there is one. -/
def redirect (f : Addr → Option Addr) (node : Option Addr) (p : Option Addr) : Addr → Option Addr :=
  fun x => if node = some x then p else f x

theorem redirect_some (f : Addr → Option Addr) (b : Addr) (p : Option Addr) :
    redirect f (some b) p = Function.update f b p := by
  funext x
  rw [redirect, Function.update_apply]
  simp [eq_comm]

/-- Both neighbours of a node are redirected. -/
theorem unlinkOwner_writes (holds : s.Holds (l ++ a :: r)) :
    ∃ t, unlinkOwner a s = some t ∧ s.Same t ∧ t.owners = l.head?.or r.head? ∧
      t.prev = redirect s.prev r.head? l.getLast? ∧ t.next = redirect s.next l.getLast? r.head? := by
  obtain ⟨back, forth⟩ := Linked.pointers holds.linked
  obtain ⟨-, -, apart⟩ := List.nodup_append.1 holds.linked.nodup
  have start : s.owners = l.head?.or (some a) := by
    rw [holds.linked.start, List.head?_append, List.head?_cons]
  have hasRight : ∀ x, r.head? = some x → s.Has x := fun x is =>
    holds.has x (List.mem_append_right l (List.mem_cons_of_mem a (List.mem_of_mem_head? is)))
  have hasLeft : ∀ x, l.getLast? = some x → s.Has x := fun x is =>
    holds.has x (List.mem_append_left _ (List.mem_of_getLast? is))
  obtain ⟨cb, -, found⟩ := node_of_has (holds.has a (List.mem_append_right l List.mem_cons_self))
  rw [unlinkOwner, found, Option.bind_some]
  dsimp only
  rw [back, forth]
  cases l with
  | nil =>
      rw [if_pos (by rw [start]; rfl)]
      cases next : r.head? with
      | none => exact ⟨_, rfl, ⟨rfl, fun _ => Iff.rfl, rfl⟩, rfl, rfl, rfl⟩
      | some q =>
          have has : Memory.Has { s with owners := some q } q := hasRight q next
          obtain ⟨t, set, writes⟩ := setPrev_writes has none
          refine ⟨t, set, ⟨writes.cb, writes.has, writes.made⟩, writes.owners, ?_, writes.other⟩
          rw [writes.field, redirect_some]
          rfl
  | cons first l =>
      have other : s.owners ≠ some a := by
        rw [start]
        intro same
        exact apart first List.mem_cons_self a List.mem_cons_self (by simpa using same)
      rw [if_neg other]
      cases before : (first :: l).getLast? with
      | none => simp at before
      | some p =>
          obtain ⟨m, set, writes⟩ := setNext_writes (hasLeft p before) r.head?
          dsimp only
          rw [set, Option.bind_some]
          cases next : r.head? with
          | none =>
              refine ⟨m, rfl, writes.same, writes.owners.trans start, writes.other, ?_⟩
              rw [writes.field, next, redirect_some]
          | some q =>
              obtain ⟨t, set₂, writes₂⟩ := setPrev_writes ((writes.has q).2 (hasRight q next)) (some p)
              refine ⟨t, set₂, writes.same.trans writes₂.same,
                writes₂.owners.trans (writes.owners.trans start), ?_, ?_⟩
              · rw [writes₂.field, writes.other, redirect_some]
              · rw [writes₂.other, writes.field, next, redirect_some]

/-- **A node of the list taken out.** -/
theorem holds_unlinkOwner (holds : s.Holds (l ++ a :: r)) :
    ∃ t, unlinkOwner a s = some t ∧ s.Same t ∧ t.Holds (l ++ r) := by
  obtain ⟨t, unlinked, same, start, prev, next⟩ := unlinkOwner_writes holds
  obtain ⟨nodupLeft, nodupRight, apart⟩ := List.nodup_append.1 holds.linked.nodup
  refine ⟨t, unlinked, same, ?_, fun x inside => (same.has x).2 (holds.has x ?_)⟩
  · rw [start]
    refine holds.linked.remove (fun x inside => ?_) (fun x inside => ?_) (fun x inside => ?_)
      (fun x inside => ?_)
    · rw [prev]
      refine if_neg fun is => ?_
      exact apart x inside x (List.mem_cons_of_mem a (List.mem_of_mem_head? is)) rfl
    · rw [next]
      rfl
    · rw [prev]
      rfl
    · rw [next]
      refine if_neg fun is => ?_
      exact apart x (List.mem_of_getLast? is) x (List.mem_cons_of_mem a inside) rfl
  · rcases List.mem_append.1 inside with inside | inside
    · exact List.mem_append_left _ inside
    · exact List.mem_append_right _ (List.mem_cons_of_mem a inside)

/-- A node that is not in the list is freed. -/
theorem holds_freeOwner (holds : s.Holds l) (has : s.Has a) (outside : a ∉ l) :
    ∃ t, freeOwner a s = some t ∧ t.Holds l ∧ (∀ x, t.Has x ↔ x ≠ a ∧ s.Has x) ∧
      (∀ x, x ≠ a → t.cb x = s.cb x) ∧ t.made = s.made := by
  obtain ⟨n, found⟩ := Option.isSome_iff_exists.1 has
  have apart : ∀ x ∈ l, x ≠ a := fun x inside same => outside (same ▸ inside)
  have kept : ∀ x, x ≠ a → Function.update s.node a none x = s.node x := fun x other =>
    Function.update_of_ne other ..
  have freed : freeOwner a s = some { s with node := Function.update s.node a none } := by
    rw [freeOwner, found]
    rfl
  refine ⟨_, freed, ⟨?_, ?_⟩, ?_, ?_, rfl⟩
  · refine holds.linked.congr (fun x inside => ?_) (fun x inside => ?_)
    · exact congrArg (·.bind CbList.prev) (kept x (apart x inside))
    · exact congrArg (·.bind CbList.next) (kept x (apart x inside))
  · intro x inside
    show (Function.update s.node a none x).isSome = true
    rw [kept x (apart x inside)]
    exact holds.has x inside
  · intro x
    unfold Memory.Has
    dsimp only
    rw [Function.update_apply]
    by_cases same : x = a <;> simp [same]
  · exact fun x other => congrArg (·.map CbList.cb) (kept x other)

end ChargerStack.ConfigFiles.OwnerList
