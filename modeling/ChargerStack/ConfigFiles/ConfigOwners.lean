/-
# ConfigFiles.ConfigOwners -- threads that attach to a configuration, detach and notify

Any number of threads call `config_attach`, `config_detach` and `notify_owner` on one
configuration; a step is what one of them does between two locks.  `config_detach` has three
steps: `find_owner` looks the node up, a second section unlinks it, and then it is freed.  A
section that uses a node that is not allocated ends the run in a crash.

A registration is known by its number in the order of the attaches.  A detach is recorded with
the registration it found.

* `Kept` is what the callback list is for: the list is well formed, a callback is registered as
  often as it was attached and not detached, and `notify_owner` calls what is registered, in
  the order of the attaches;
* `Undisturbed` is the condition on a step: when a detach comes to its second section, nobody
  has detached what it found in the first;
* `Shared` is the invariant, and `Shared.step` says that undisturbed steps keep it;
* `owners_kept_iff` is the outcome for runs, and `detached_twice` a run of two detaches that
  find the same node.
-/
import Mathlib.Data.List.Perm.Basic
import Mathlib.Data.List.Count
import ChargerStack.ConfigFiles.OwnerList
import ChargerStack.Lib.Run

namespace ChargerStack.ConfigFiles.ConfigOwners

open ChargerStack.Lib
open ChargerStack.ConfigFiles.OwnerList

set_option autoImplicit false

/-! ## Steps -/

/-- Where a thread stands in `config_detach`. -/
inductive Phase (C : Type) where
  | idle
  /-- Behind `find_owner`, with the node and the registration it stood for. -/
  | found (a : Addr) (registration : Nat) (cb : C)
  /-- Before `free`. -/
  | unlinked (a : Addr)

/-- The list and the threads; the callbacks attached so far, the registration each node was made
for, and the detaches that unlinked, in order. -/
structure Sys (C : Type) where
  mem : Memory C
  phase : Nat → Phase C
  attached : List C
  registration : Addr → Nat
  detached : List (Nat × C)
  crashed : Bool

inductive Act (C : Type) where
  /-- `config_attach`, with what `malloc` returns. -/
  | attach (node : Option Addr) (cb : C)
  | find (cb : C)
  | unlink
  | free
  | notify

variable {C : Type}

namespace Sys

def goto (t : Nat) (phase : Phase C) (s : Sys C) : Sys C :=
  { s with phase := Function.update s.phase t phase }

def crash (s : Sys C) : Sys C := { s with crashed := true }

/-- The callback gets the next number. -/
def register (a : Addr) (cb : C) (mem : Memory C) (s : Sys C) : Sys C :=
  { s with
    mem := mem
    attached := s.attached ++ [cb]
    registration := Function.update s.registration a s.attached.length }

/-- What a thread found is detached. -/
def remove (t : Nat) (a : Addr) (e : Nat × C) (mem : Memory C) (s : Sys C) : Sys C :=
  { s with
    mem := mem
    phase := Function.update s.phase t (.unlinked a)
    detached := s.detached ++ [e] }

/-- The node of a thread is freed. -/
def release (t : Nat) (mem : Memory C) (s : Sys C) : Sys C :=
  { s with mem := mem, phase := Function.update s.phase t .idle }

/-- The registrations that nobody has detached. -/
def live (s : Sys C) : List Nat :=
  (List.range s.attached.length).filter (· ∉ s.detached.map Prod.fst)

/-- Their callbacks, in the order of the attaches. -/
def registered (s : Sys C) : List C := s.live.filterMap (s.attached[·]?)

end Sys

section

variable [DecidableEq C]

/-- One step; `malloc` returns no node that is allocated. -/
def ownerStep (s : Sys C) (lab : Nat × Act C) : Option (Sys C) :=
  if s.crashed then none
  else
    match lab.2, s.phase lab.1 with
    | .attach none _, .idle => some s
    | .attach (some a) cb, .idle =>
        if s.mem.node a = none then
          match attachOwner a cb s.mem with
          | none => some s.crash
          | some mem => some (s.register a cb mem)
        else none
    | .find cb, .idle =>
        match findOwner s.mem cb with
        | none => some s.crash
        | some none => some s
        | some (some a) => some (s.goto lab.1 (.found a (s.registration a) cb))
    | .unlink, .found a registration cb =>
        match unlinkOwner a s.mem with
        | none => some s.crash
        | some mem => some (s.remove lab.1 a (registration, cb) mem)
    | .free, .unlinked a =>
        match freeOwner a s.mem with
        | none => some s.crash
        | some mem => some (s.release lab.1 mem)
    | .notify, .idle =>
        match notifyOwner s.mem with
        | none => some s.crash
        | some _ => some s
    | _, _ => none

/-- A configuration nobody is attached to. -/
def newOwners : Sys C := ⟨⟨none, fun _ => none, 0⟩, fun _ => .idle, [], fun _ => 0, [], false⟩

/-! ## What the list is for -/

/-- The list is well formed and holds every callback as often as it was attached and not
detached; no registration was detached twice; and `notify_owner` calls the callbacks that are
registered, once for each registration, in the order of the attaches. -/
structure Kept (s : Sys C) : Prop where
  sound : s.crashed = false
  list : ∃ l, s.mem.Holds l ∧ ∀ cb,
    (s.mem.callbacks l).count cb + (s.detached.map Prod.snd).count cb = s.attached.count cb
  once : (s.detached.map Prod.fst).Nodup
  notify : notifyOwner s.mem = some s.registered

end

/-- A detach that comes to its second section finds what it found there still registered. -/
def Undisturbed (s : Sys C) (lab : Nat × Act C) : Prop :=
  ∀ a registration cb, lab.2 = .unlink → s.phase lab.1 = .found a registration cb →
    registration ∉ s.detached.map Prod.fst

/-! ## The invariant -/

/-- The nodes `l` are in the list; each stands for a live registration, in order. -/
structure Shared (s : Sys C) (l : List Addr) : Prop where
  sound : s.crashed = false
  holds : s.mem.Holds l
  made : s.mem.made = s.attached.length
  live : l.map s.registration = s.live
  own : ∀ a ∈ l, s.mem.cb a = s.attached[s.registration a]?
  once : (s.detached.map Prod.fst).Nodup
  known : ∀ e ∈ s.detached, s.attached[e.1]? = some e.2
  found : ∀ t a registration cb, s.phase t = .found a registration cb →
    s.attached[registration]? = some cb ∧
      (registration ∉ s.detached.map Prod.fst → a ∈ l ∧ s.registration a = registration)
  unlinked : ∀ t a, s.phase t = .unlinked a → s.mem.Has a ∧ a ∉ l
  apart : ∀ t u a, s.phase t = .unlinked a → s.phase u = .unlinked a → t = u

variable {s s' : Sys C} {l : List Addr} {t : Nat}

theorem mem_live {k : Nat} : k ∈ s.live ↔ k < s.attached.length ∧ k ∉ s.detached.map Prod.fst := by
  simp [Sys.live]

/-- A walk visits no more nodes than were made. -/
theorem Shared.enough (shared : Shared s l) : l.length ≤ s.mem.made := by
  rw [shared.made, ← List.length_map s.registration, shared.live, Sys.live]
  exact (List.length_filter_le _ _).trans (List.length_range ..).le

theorem Shared.callbacks (shared : Shared s l) : s.mem.callbacks l = s.registered := by
  rw [Memory.callbacks, Sys.registered, ← shared.live, List.filterMap_map]
  exact List.filterMap_congr fun a inside => shared.own a inside

theorem filterMap_getElem?_range (xs : List C) :
    (List.range xs.length).filterMap (xs[·]?) = xs := by
  induction xs using List.reverseRecOn with
  | nil => rfl
  | append_singleton xs x ih =>
      have front : (List.range xs.length).filterMap ((xs ++ [x])[·]?) =
          (List.range xs.length).filterMap (xs[·]?) :=
        List.filterMap_congr fun k inside => List.getElem?_append_left (List.mem_range.1 inside)
      rw [List.length_append, List.length_singleton, List.range_succ, List.filterMap_append, front, ih]
      simp

/-- What was attached is registered or was detached. -/
theorem Shared.perm (shared : Shared s l) :
    (s.registered ++ s.detached.map Prod.snd).Perm s.attached := by
  have gone : s.detached.map Prod.snd = (s.detached.map Prod.fst).filterMap (s.attached[·]?) := by
    rw [List.filterMap_map, ← List.filterMap_eq_map]
    exact List.filterMap_congr fun e inside => (shared.known e inside).symm
  have inRange : ∀ k ∈ s.detached.map Prod.fst, k < s.attached.length := by
    intro k inside
    obtain ⟨e, member, rfl⟩ := List.mem_map.1 inside
    exact (List.getElem?_eq_some_iff.1 (shared.known e member)).1
  have rest : (s.detached.map Prod.fst).Perm
      ((List.range s.attached.length).filter fun k => !decide (k ∉ s.detached.map Prod.fst)) := by
    refine (List.perm_ext_iff_of_nodup shared.once (List.nodup_range.filter _)).2 fun k => ?_
    rw [List.mem_filter, List.mem_range]
    simpa using fun x inside => inRange k (List.mem_map_of_mem inside)
  have parts : (s.live ++ s.detached.map Prod.fst).Perm (List.range s.attached.length) :=
    (rest.append_left s.live).trans (List.filter_append_perm _ _)
  have whole := parts.filterMap (s.attached[·]?)
  rwa [List.filterMap_append, ← gone, filterMap_getElem?_range] at whole

theorem Shared.kept [DecidableEq C] (shared : Shared s l) : Kept s := by
  refine ⟨shared.sound, ⟨l, shared.holds, fun cb => ?_⟩, shared.once, ?_⟩
  · rw [shared.callbacks, ← List.count_append, shared.perm.count_eq]
  · rw [notifyOwner_eq shared.holds shared.enough, shared.callbacks]

/-! ## Every step -/

section Fields

variable {a : Addr} {cb : C} {e : Nat × C} {mem : Memory C}

theorem goto_phase (u : Nat) (phase : Phase C) :
    (s.goto t phase).phase u = if u = t then phase else s.phase u := Function.update_apply ..

theorem remove_phase (u : Nat) :
    (s.remove t a e mem).phase u = if u = t then .unlinked a else s.phase u := Function.update_apply ..

theorem release_phase (u : Nat) :
    (s.release t mem).phase u = if u = t then .idle else s.phase u := Function.update_apply ..

theorem register_registration (x : Addr) : (s.register a cb mem).registration x =
    if x = a then s.attached.length else s.registration x := Function.update_apply ..

theorem remove_gone :
    (s.remove t a e mem).detached.map Prod.fst = s.detached.map Prod.fst ++ [e.1] := by
  simp [Sys.remove]

end Fields

theorem getElem?_register {xs : List C} {k : Nat} {x y : C} (is : xs[k]? = some x) :
    (xs ++ [y])[k]? = some x :=
  (List.getElem?_append_left (List.getElem?_eq_some_iff.1 is).1).trans is

theorem Shared.inRange (shared : Shared s l) {k : Nat} (gone : k ∈ s.detached.map Prod.fst) :
    k < s.attached.length := by
  obtain ⟨e, member, rfl⟩ := List.mem_map.1 gone
  exact (List.getElem?_eq_some_iff.1 (shared.known e member)).1

theorem Shared.registration_live (shared : Shared s l) {a : Addr} (inside : a ∈ l) :
    s.registration a ∈ s.live := by
  rw [← shared.live]
  exact List.mem_map_of_mem inside

theorem Shared.live_register (shared : Shared s l) (a : Addr) (cb : C) (mem : Memory C) :
    (s.register a cb mem).live = s.live ++ [s.attached.length] := by
  have unregistered : s.attached.length ∉ s.detached.map Prod.fst := fun gone =>
    Nat.lt_irrefl _ (shared.inRange gone)
  rw [Sys.live, Sys.register, List.length_append, List.length_singleton, List.range_succ,
    List.filter_append, List.filter_cons_of_pos (by simpa using unregistered)]
  rfl

/-- One more callback. -/
theorem Shared.attach (shared : Shared s l) {a : Addr} {cb : C} {mem : Memory C}
    (fresh : ¬ s.mem.Has a) (holds : mem.Holds (l ++ [a]))
    (cbs : mem.cb = Function.update s.mem.cb a (some cb)) (has : ∀ x, mem.Has x ↔ x = a ∨ s.mem.Has x)
    (made : mem.made = s.mem.made + 1) : Shared (s.register a cb mem) (l ++ [a]) := by
  have apart : ∀ x, s.mem.Has x → x ≠ a := fun x there same => fresh (same ▸ there)
  have old : ∀ x ∈ l, (s.register a cb mem).registration x = s.registration x := by
    intro x inside
    rw [register_registration, if_neg (apart x (shared.holds.has x inside))]
  have new : (s.register a cb mem).registration a = s.attached.length := by
    rw [register_registration, if_pos rfl]
  refine ⟨shared.sound, holds, ?_, ?_, ?_, shared.once, ?_, ?_, ?_, shared.apart⟩
  · rw [show (s.register a cb mem).mem.made = s.mem.made + 1 from made, shared.made]
    simp [Sys.register]
  · rw [shared.live_register, ← shared.live, List.map_append, List.map_congr_left old,
      List.map_singleton, new]
  · intro x inside
    rw [show (s.register a cb mem).mem.cb = _ from cbs]
    rcases List.mem_append.1 inside with inside | inside
    · have below := (mem_live.1 (shared.registration_live inside)).1
      rw [Function.update_of_ne (apart x (shared.holds.has x inside)), old x inside, shared.own x inside]
      exact (List.getElem?_append_left below).symm
    · obtain rfl := List.mem_singleton.1 inside
      rw [Function.update_self, new]
      simp [Sys.register]
  · exact fun e member => getElem?_register (shared.known e member)
  · intro u b k c at_
    obtain ⟨is, there⟩ := shared.found u b k c at_
    refine ⟨getElem?_register is, fun stays => ?_⟩
    obtain ⟨inside, own⟩ := there stays
    exact ⟨List.mem_append_left _ inside, (old b inside).trans own⟩
  · intro u b at_
    obtain ⟨there, outside⟩ := shared.unlinked u b at_
    refine ⟨(has b).2 (.inr there), fun inside => ?_⟩
    rcases List.mem_append.1 inside with inside | inside
    · exact outside inside
    · exact apart b there (List.mem_singleton.1 inside)

/-- A thread has found the first node with its callback. -/
theorem Shared.find [DecidableEq C] (shared : Shared s l) {a : Addr} {cb : C}
    (first : l.find? (fun a => s.mem.cb a = some cb) = some a) :
    Shared (s.goto t (.found a (s.registration a) cb)) l := by
  have inside := List.mem_of_find?_eq_some first
  have own : s.mem.cb a = some cb := by simpa using List.find?_some first
  -- who has unlinked a node now had it before
  have was : ∀ u b, (s.goto t (.found a (s.registration a) cb)).phase u = .unlinked b →
      s.phase u = .unlinked b := by
    intro u b at_
    rw [goto_phase] at at_
    split at at_
    · cases at_
    · exact at_
  refine { shared with found := ?_, unlinked := ?_, apart := ?_ }
  · intro u b k c at_
    rw [goto_phase] at at_
    split at at_
    · obtain ⟨rfl, rfl, rfl⟩ := Phase.found.inj at_
      exact ⟨(shared.own a inside).symm.trans own, fun _ => ⟨inside, rfl⟩⟩
    · exact shared.found u b k c at_
  · exact fun u b at_ => shared.unlinked u b (was u b at_)
  · exact fun u v b atU atV => shared.apart u v b (was u b atU) (was v b atV)

theorem mem_middle {a x : Addr} {r : List Addr} (nodup : (l ++ a :: r).Nodup) :
    x ∈ l ++ r ↔ x ∈ l ++ a :: r ∧ x ≠ a := by
  have outside : a ∉ l ++ r := (List.nodup_cons.1 (List.perm_middle.nodup_iff.1 nodup)).1
  rw [List.perm_middle.mem_iff, List.mem_cons]
  constructor
  · exact fun inside => ⟨.inr inside, fun same => outside (same ▸ inside)⟩
  · rintro ⟨rfl | inside, other⟩
    · exact absurd rfl other
    · exact inside

theorem Shared.live_remove {a : Addr} {r : List Addr} {e : Nat × C} {mem : Memory C}
    (shared : Shared s (l ++ a :: r)) (own : s.registration a = e.1) :
    (l ++ r).map s.registration = (s.remove t a e mem).live := by
  have numbers : s.live.Nodup := List.nodup_range.filter _
  have live : s.live = l.map s.registration ++ e.1 :: r.map s.registration := by
    rw [← shared.live, List.map_append, List.map_cons, own]
  have apart := (List.nodup_cons.1 (List.perm_middle.nodup_iff.1 (live ▸ numbers))).1
  rw [List.mem_append, not_or] at apart
  have others : s.live.filter (· ≠ e.1) = (s.remove t a e mem).live := by
    rw [Sys.live, List.filter_filter, Sys.live, remove_gone]
    refine List.filter_congr fun x _ => ?_
    rw [← Bool.decide_and, decide_eq_decide, List.mem_append, not_or, List.mem_singleton, and_comm]
  have keep : ∀ xs : List Nat, e.1 ∉ xs → xs.filter (· ≠ e.1) = xs := by
    intro xs outside
    refine List.filter_eq_self.2 fun x inside => ?_
    simpa using fun same : x = e.1 => outside (same ▸ inside)
  rw [← others, live, List.filter_append, List.filter_cons_of_neg (by simp), keep _ apart.1,
    keep _ apart.2, List.map_append]

/-- A registration fewer. -/
theorem Shared.unlink {a : Addr} {r : List Addr} {e : Nat × C} {mem : Memory C}
    (shared : Shared s (l ++ a :: r)) (own : s.registration a = e.1)
    (is : s.attached[e.1]? = some e.2) (stays : e.1 ∉ s.detached.map Prod.fst)
    (same : s.mem.Same mem) (holds : mem.Holds (l ++ r)) :
    Shared (s.remove t a e mem) (l ++ r) := by
  have fewer : ∀ x, x ∈ l ++ r ↔ x ∈ l ++ a :: r ∧ x ≠ a := fun x =>
    mem_middle shared.holds.linked.nodup
  have middle : a ∈ l ++ a :: r := List.mem_append_right l List.mem_cons_self
  refine ⟨shared.sound, holds, same.made.trans shared.made, shared.live_remove own, ?_, ?_, ?_, ?_, ?_, ?_⟩
  · intro x inside
    rw [show (s.remove t a e mem).mem.cb = _ from same.cb]
    exact shared.own x ((fewer x).1 inside).1
  · rw [remove_gone]
    exact List.nodup_append.2 ⟨shared.once, List.nodup_singleton e.1, fun x inside y last same =>
      stays (List.mem_singleton.1 last ▸ same ▸ inside)⟩
  · intro d member
    rcases List.mem_append.1 member with member | member
    · exact shared.known d member
    · obtain rfl := List.mem_singleton.1 member
      exact is
  · intro u b k c at_
    rw [remove_phase] at at_
    split at at_
    · cases at_
    · obtain ⟨known, there⟩ := shared.found u b k c at_
      refine ⟨known, fun stays => ?_⟩
      rw [remove_gone, List.mem_append, not_or] at stays
      obtain ⟨inside, number⟩ := there stays.1
      refine ⟨(fewer b).2 ⟨inside, fun eq => stays.2 (List.mem_singleton.2 ?_)⟩, number⟩
      rw [← number, eq, own]
  · intro u b at_
    rw [remove_phase] at at_
    split at at_
    · obtain rfl := Phase.unlinked.inj at_
      exact ⟨(same.has a).2 (shared.holds.has a middle), fun inside => ((fewer a).1 inside).2 rfl⟩
    · obtain ⟨has, outside⟩ := shared.unlinked u b at_
      exact ⟨(same.has b).2 has, fun inside => outside ((fewer b).1 inside).1⟩
  · intro u v b atU atV
    rw [remove_phase] at atU atV
    split at atU
    · obtain rfl := Phase.unlinked.inj atU
      split at atV
      · rename_i left right
        exact left.trans right.symm
      · exact absurd middle (shared.unlinked v a atV).2
    · split at atV
      · obtain rfl := Phase.unlinked.inj atV
        exact absurd middle (shared.unlinked u a atU).2
      · exact shared.apart u v b atU atV

/-- A node that is out of the list is freed. -/
theorem Shared.free (shared : Shared s l) {a : Addr} {mem : Memory C} (at_ : s.phase t = .unlinked a)
    (holds : mem.Holds l) (has : ∀ x, mem.Has x ↔ x ≠ a ∧ s.mem.Has x)
    (cbs : ∀ x, x ≠ a → mem.cb x = s.mem.cb x) (made : mem.made = s.mem.made) :
    Shared (s.release t mem) l := by
  have outside := (shared.unlinked t a at_).2
  -- who has unlinked a node now is somebody else who had it before
  have was : ∀ u b, (s.release t mem).phase u = .unlinked b → u ≠ t ∧ s.phase u = .unlinked b := by
    intro u b atU
    rw [release_phase] at atU
    split at atU
    · cases atU
    · exact ⟨‹_›, atU⟩
  refine ⟨shared.sound, holds, made.trans shared.made, shared.live, ?_, shared.once, shared.known, ?_,
    ?_, ?_⟩
  · intro x inside
    exact (cbs x fun same => outside (same ▸ inside)).trans (shared.own x inside)
  · intro u b k cb atU
    rw [release_phase] at atU
    split at atU
    · cases atU
    · exact shared.found u b k cb atU
  · intro u b atU
    obtain ⟨other, atU⟩ := was u b atU
    obtain ⟨there, away⟩ := shared.unlinked u b atU
    exact ⟨(has b).2 ⟨fun same => other (shared.apart u t a (same ▸ atU) at_), there⟩, away⟩
  · exact fun u v b atU atV => shared.apart u v b (was u b atU).2 (was v b atV).2

/-- **Every undisturbed step.** -/
theorem Shared.step [DecidableEq C] {lab : Nat × Act C} (shared : Shared s l)
    (calm : Undisturbed s lab) (moved : ownerStep s lab = some s') : ∃ l', Shared s' l' := by
  unfold ownerStep at moved
  rw [if_neg (by simp [shared.sound])] at moved
  split at moved
  · obtain rfl := Option.some.inj moved
    exact ⟨l, shared⟩
  · rename_i a cb act idle
    split at moved
    · rename_i unused
      have fresh : ¬ s.mem.Has a := by simp [Memory.Has, unused]
      obtain ⟨mem, attached, holds, cbs, has, made⟩ :=
        holds_attachOwner shared.holds fresh shared.enough cb
      rw [attached] at moved
      obtain rfl := Option.some.inj moved
      exact ⟨l ++ [a], shared.attach fresh holds cbs has made⟩
    · cases moved
  · rename_i cb act idle
    rw [findOwner_eq shared.holds shared.enough cb] at moved
    cases first : l.find? fun a => s.mem.cb a = some cb with
    | none =>
        rw [first] at moved
        obtain rfl := Option.some.inj moved
        exact ⟨l, shared⟩
    | some a =>
        rw [first] at moved
        obtain rfl := Option.some.inj moved
        exact ⟨l, shared.find first⟩
  · rename_i a k cb act at_
    have stays := calm a k cb act at_
    obtain ⟨is, there⟩ := shared.found _ a k cb at_
    obtain ⟨inside, own⟩ := there stays
    obtain ⟨front, back, rfl⟩ := List.append_of_mem inside
    obtain ⟨mem, unlinked, same, holds⟩ := holds_unlinkOwner shared.holds
    rw [unlinked] at moved
    obtain rfl := Option.some.inj moved
    exact ⟨front ++ back, shared.unlink (e := (k, cb)) own is stays same holds⟩
  · rename_i a act at_
    obtain ⟨has, outside⟩ := shared.unlinked _ a at_
    obtain ⟨mem, freed, holds, has', cbs, made⟩ := holds_freeOwner shared.holds has outside
    rw [freed] at moved
    obtain rfl := Option.some.inj moved
    exact ⟨l, shared.free at_ holds has' cbs made⟩
  · rw [notifyOwner_eq shared.holds shared.enough] at moved
    obtain rfl := Option.some.inj moved
    exact ⟨l, shared⟩
  · cases moved

/-! ## Runs -/

theorem shared_new : Shared (newOwners : Sys C) [] := by
  refine ⟨rfl, ⟨linked_nil, ?_⟩, rfl, rfl, ?_, List.nodup_nil, ?_, ?_, ?_, ?_⟩
  · intro a inside
    cases inside
  · intro a inside
    cases inside
  · intro e member
    cases member
  · intro t a k cb at_
    cases at_
  · intro t a at_
    cases at_
  · intro t u a at_
    cases at_

/-- A detach whose registration is gone already is the second one of it. -/
theorem undisturbed_of_kept [DecidableEq C] {lab : Nat × Act C}
    (moved : ownerStep s lab = some s') (kept : Kept s') : Undisturbed s lab := by
  intro a k cb act at_ gone
  unfold ownerStep at moved
  split at moved
  · cases moved
  · simp only [act, at_] at moved
    split at moved
    · obtain rfl := Option.some.inj moved
      cases kept.sound
    · obtain rfl := Option.some.inj moved
      have once := kept.once
      rw [remove_gone] at once
      exact (List.nodup_append.1 once).2.2 k gone k (List.mem_singleton.2 rfl) rfl

/-- **The callback list over any interleaving.**  In a run of any threads that attach, detach and
notify, the list is kept in every state if and only if every detach that comes to its second
section finds that nobody has detached, since its first, what it found there. -/
theorem owners_kept_iff [DecidableEq C] (labs : List (Nat × Act C)) (s : Sys C)
    (ran : exec ownerStep newOwners labs = some s) :
    Always ownerStep Kept newOwners labs ↔ Along ownerStep Undisturbed newOwners labs := by
  have holds : ∀ s : Sys C, (∃ l, Shared s l) → Kept s := by
    rintro s ⟨l, shared⟩
    exact shared.kept
  have stays : ∀ (s : Sys C) lab t, Undisturbed s lab → (∃ l, Shared s l) →
      ownerStep s lab = some t → ∃ l, Shared t l := by
    rintro s lab t calm ⟨l, shared⟩ moved
    exact shared.step calm moved
  exact always_iff_along holds stays (fun _ _ _ _ moved kept => undisturbed_of_kept moved kept)
    ⟨[], shared_new⟩ ran

/-- Two callbacks are attached, the first is being detached while a third is attached, and then
everybody is notified. -/
def oneDetach : List (Nat × Act Nat) :=
  [(1, .attach (some 64) 7), (1, .attach (some 32) 8), (2, .find 7), (1, .attach (some 96) 9),
    (2, .unlink), (2, .free), (1, .notify)]

theorem oneDetach_kept : ∃ s, exec ownerStep newOwners oneDetach = some s ∧
    notifyOwner s.mem = some [8, 9] ∧
    (Always ownerStep Kept newOwners oneDetach ↔ Along ownerStep Undisturbed newOwners oneDetach) :=
  ⟨_, rfl, rfl, owners_kept_iff oneDetach _ rfl⟩

/-- **One registration, two detaches.**  Both look the node up before either unlinks it, and both
report that they have detached the callback. -/
theorem detached_twice : ¬ ∀ (labs : List (Nat × Act Nat)) (s : Sys Nat),
    exec ownerStep newOwners labs = some s → Always ownerStep Kept newOwners labs := by
  intro always
  have run := always [(1, .attach (some 64) 7), (2, .find 7), (3, .find 7), (2, .unlink), (3, .unlink)]
    _ rfl
  have last := ((((run.2 _ rfl).2 _ rfl).2 _ rfl).2 _ rfl).2 _ rfl
  have once : ([0, 0] : List Nat).Nodup := Kept.once last
  exact absurd once (by decide)

end ChargerStack.ConfigFiles.ConfigOwners
