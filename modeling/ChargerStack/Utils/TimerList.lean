/-
# Utils.TimerList -- the timer list of utils/timer.c

The timers that run stand in one doubly linked list, sorted by the absolute time at
which they are due.  The model keeps the list as the code does: a global head pointer
and a `prev` and a `next` in every timer, read and written one pointer at a time.

* `timerListRemove` and `timerListAdd` are the two operations every caller is made of;
* the walks along `next` take the number of nodes they may visit, and have no result
  when that is not enough: a walk that visits more nodes than there are goes round for
  ever;
* `timerListRemove_spec` says what is left after taking a timer out: the timers before
  it, unless there are none, and then the timers after it;
* `timerListAdd_spec` says where a timer is put in: before the first that is due later.
-/
import Mathlib.Logic.Function.Basic
import ChargerStack.Cxx.Basic
import ChargerStack.Lib.LinkedList

namespace ChargerStack.Utils.TimerList

open ChargerStack.Cxx
open ChargerStack.Lib

set_option autoImplicit false

/-! ## Times -/

/-- `struct timespec`. -/
structure Timespec where
  tvSec : Int
  tvNsec : Int
  deriving DecidableEq, Repr

/-- The instant it stands for, in nanoseconds. -/
def Timespec.nanos (t : Timespec) : Int := t.tvSec * 1000000000 + t.tvNsec

/-- `_timer_add_abstimeout`.  A sum of exactly a second of nanoseconds stays as it is. -/
def timerAddAbstimeout (abstimeout : Timespec) (timeoutMs : Nat) : Timespec :=
  let tvSec := int64 (abstimeout.tvSec + (timeoutMs / 1000 : Nat))
  let tvNsec := int64 (abstimeout.tvNsec + (timeoutMs % 1000 * 1000000 : Nat))
  if 1000000000 < tvNsec then ⟨int64 (tvSec + 1), int64 (tvNsec - 1000000000)⟩
  else ⟨tvSec, tvNsec⟩

/-- `_timespec_compare`. -/
def timespecCompare (first second : Timespec) : Int :=
  if second.tvSec < first.tvSec then 1
  else if first.tvSec < second.tvSec then -1
  else if first.tvNsec = second.tvNsec then 0
  else if second.tvNsec < first.tvNsec then 1 else -1

/-! ## Timers in memory -/

/-- The address of a timer. -/
abbrev Handle := Nat

inductive Status where
  | idle
  | running
  | stop
  deriving DecidableEq, Repr

/-- The two pointers of a `struct timer_handle_struct`. -/
structure Links where
  prev : Option Handle
  next : Option Handle
  deriving DecidableEq, Repr

/-- Everything else in it.  A callback is the address of a function. -/
structure Timer where
  absTimeout : Timespec
  cb : Option Nat
  timeoutMs : Nat
  userdata : Option Nat
  repeats : Int
  timeoutCount : Int
  status : Status
  deriving DecidableEq, Repr

structure TimerHandle extends Links, Timer
  deriving DecidableEq, Repr

/-- The globals of timer.c, the memory the handles point into, and the handles that
`malloc` has given out.  No handle is ever freed. -/
structure State where
  head : Option Handle
  ctrlFd : Int
  /-- What has been written to `g_ctrl_fd`. -/
  posted : Nat
  node : Handle → TimerHandle
  timers : List Handle

namespace State

def prev (s : State) (h : Handle) : Option Handle := (s.node h).prev

def next (s : State) (h : Handle) : Option Handle := (s.node h).next

def timer (s : State) (h : Handle) : Timer := (s.node h).toTimer

def setPrev (s : State) (h : Handle) (p : Option Handle) : State :=
  { s with node := Function.update s.node h { s.node h with prev := p } }

def setNext (s : State) (h : Handle) (n : Option Handle) : State :=
  { s with node := Function.update s.node h { s.node h with next := n } }

def setTimer (s : State) (h : Handle) (t : Timer) : State :=
  { s with node := Function.update s.node h { s.node h with toTimer := t } }

def setHead (s : State) (h : Option Handle) : State := { s with head := h }

end State

/-! ## The list -/

/-- `_timer_is_inlist`, from the node `cur` on. -/
def timerIsInlist (s : State) (hdl : Handle) : Nat → Option Handle → Option Bool
  | _, none => some false
  | 0, some _ => none
  | fuel + 1, some cur =>
      if cur = hdl then some true else timerIsInlist s hdl fuel (s.next cur)

/-- `_timer_list_remove`. -/
def timerListRemove (hdl : Handle) (s : State) : State :=
  match s.prev hdl, s.next hdl with
  -- only one
  | none, none => s.setHead none
  -- first node
  | none, some next => (s.setPrev next none).setHead (some next)
  -- last one
  | some prev, none => s.setNext prev none
  | some prev, some next => (s.setPrev next none).setNext prev none

/-- `_timer_list_insert_after`. -/
def timerListInsertAfter (cur hdl : Handle) (s : State) : State :=
  let t := ((s.setPrev hdl (some cur)).setNext hdl (s.next cur)).setNext cur (some hdl)
  match s.next cur with
  | none => t
  | some next => t.setPrev next (some hdl)

/-- `_timer_list_insert_before`. -/
def timerListInsertBefore (cur hdl : Handle) (s : State) : State :=
  match s.prev cur with
  | none =>
      (((s.setHead (some hdl)).setPrev hdl none).setNext hdl (some cur)).setPrev cur (some hdl)
  | some prev =>
      (((s.setPrev hdl (some prev)).setNext hdl (some cur)).setNext prev (some hdl)).setPrev
        cur (some hdl)

/-- The loop of `_timer_list_add`, at the node `cur`. -/
def timerListAddFrom (s : State) (hdl : Handle) : Nat → Option Handle → Int → Option (State × Int)
  | _, none, index => some (s, index)
  | 0, some _, _ => none
  | fuel + 1, some cur, index =>
      if 0 < timespecCompare (s.timer cur).absTimeout (s.timer hdl).absTimeout then
        some (timerListInsertBefore cur hdl s, index)
      else if s.next cur = none then some (timerListInsertAfter cur hdl s, index)
      else timerListAddFrom s hdl fuel (s.next cur) (int32 (index + 1))

/-- `_timer_list_add`, with the index it returns. -/
def timerListAdd (fuel : Nat) (hdl : Handle) (s : State) : Option (State × Int) :=
  if s.head = none then
    some (((s.setHead (some hdl)).setPrev hdl none).setNext hdl none, 0)
  else timerListAddFrom s hdl fuel s.head 0

/-! ## Reading after a write -/

namespace State

variable {s : State} {h : Handle} {p : Option Handle} {t : Timer}

/-- A field of the nodes, after one node has been written. -/
theorem read_update {α : Type} (field : TimerHandle → α) (n : TimerHandle) :
    (fun x => field (Function.update s.node h n x)) =
      Function.update (fun x => field (s.node x)) h (field n) :=
  Function.comp_update field s.node h n

/-- A field that the write leaves as it was. -/
theorem read_update_same {α : Type} (field : TimerHandle → α) {n : TimerHandle}
    (same : field n = field (s.node h)) :
    (fun x => field (Function.update s.node h n x)) = fun x => field (s.node x) := by
  rw [read_update, same]
  exact Function.update_eq_self h fun x => field (s.node x)

@[simp] theorem setPrev_prev : (s.setPrev h p).prev = Function.update s.prev h p :=
  read_update (fun n => n.prev) _

@[simp] theorem setPrev_next : (s.setPrev h p).next = s.next :=
  read_update_same (fun n => n.next) rfl

@[simp] theorem setPrev_timer : (s.setPrev h p).timer = s.timer :=
  read_update_same (fun n => n.toTimer) rfl

@[simp] theorem setNext_prev : (s.setNext h p).prev = s.prev :=
  read_update_same (fun n => n.prev) rfl

@[simp] theorem setNext_next : (s.setNext h p).next = Function.update s.next h p :=
  read_update (fun n => n.next) _

@[simp] theorem setNext_timer : (s.setNext h p).timer = s.timer :=
  read_update_same (fun n => n.toTimer) rfl

@[simp] theorem setTimer_prev : (s.setTimer h t).prev = s.prev :=
  read_update_same (fun n => n.prev) rfl

@[simp] theorem setTimer_next : (s.setTimer h t).next = s.next :=
  read_update_same (fun n => n.next) rfl

@[simp] theorem setTimer_timer : (s.setTimer h t).timer = Function.update s.timer h t :=
  read_update (fun n => n.toTimer) _

@[simp] theorem setHead_prev : (s.setHead p).prev = s.prev := rfl

@[simp] theorem setHead_next : (s.setHead p).next = s.next := rfl

@[simp] theorem setHead_timer : (s.setHead p).timer = s.timer := rfl

@[simp] theorem setHead_head : (s.setHead p).head = p := rfl

@[simp] theorem setPrev_head : (s.setPrev h p).head = s.head := rfl

@[simp] theorem setNext_head : (s.setNext h p).head = s.head := rfl

@[simp] theorem setTimer_head : (s.setTimer h t).head = s.head := rfl

/-- The list in memory, from the head on. -/
def Holds (s : State) (l : List Handle) : Prop := Linked s.prev s.next s.head l

/-- Everything but the pointers. -/
def contents (s : State) : (Handle → Timer) × List Handle × Int × Nat :=
  (s.timer, s.timers, s.ctrlFd, s.posted)

@[simp] theorem setPrev_contents : (s.setPrev h p).contents = s.contents := by
  rw [contents, setPrev_timer]
  rfl

@[simp] theorem setNext_contents : (s.setNext h p).contents = s.contents := by
  rw [contents, setNext_timer]
  rfl

@[simp] theorem setHead_contents : (s.setHead p).contents = s.contents := rfl

end State

/-! ## Taking a timer out -/

variable {s : State} {h : Handle} {l r : List Handle}

theorem timerListRemove_contents (hdl : Handle) (s : State) :
    (timerListRemove hdl s).contents = s.contents := by
  unfold timerListRemove
  split <;> simp

/-- **What taking a timer out leaves.**  The timers before it, and not those after it;
only when there are none before it, the timers after it. -/
theorem timerListRemove_spec (linked : s.Holds (l ++ h :: r)) :
    (timerListRemove h s).Holds (if l = [] then r else l) := by
  obtain ⟨back, forth⟩ := Linked.pointers linked
  obtain ⟨-, -, apart⟩ := List.nodup_append.1 linked.nodup
  unfold timerListRemove
  rcases List.eq_nil_or_concat l with rfl | ⟨l, prev, rfl⟩
  · rw [if_pos rfl]
    cases r with
    | nil =>
        rw [back, forth]
        exact linked_nil
    | cons next r =>
        rw [back, forth]
        refine Linked.keep_right linked ?_ ?_
        · intro x _
          simp [Function.update_apply, eq_comm]
        · simp
  · rw [List.concat_eq_append] at linked back apart ⊢
    rw [if_neg (by simp)]
    rw [List.getLast?_concat] at back
    have cut : ∀ x ∈ l ++ [prev], Function.update s.next prev none x =
        if (l ++ [prev]).getLast? = some x then none else s.next x := by
      intro x _
      simp [Function.update_apply, eq_comm]
    cases r with
    | nil =>
        rw [back, forth]
        refine Linked.keep_left linked (by simp) ?_ ?_
        · simp
        · simpa using cut
    | cons next r =>
        rw [back, forth]
        refine Linked.keep_left linked (by simp) ?_ ?_
        · intro x inside
          have other : x ≠ next := apart x inside next (by simp)
          simp [other]
        · simpa using cut

/-! ## Putting a timer in -/

theorem timerListInsertBefore_contents (cur hdl : Handle) (s : State) :
    (timerListInsertBefore cur hdl s).contents = s.contents := by
  unfold timerListInsertBefore
  split <;> simp

theorem timerListInsertAfter_contents (cur hdl : Handle) (s : State) :
    (timerListInsertAfter cur hdl s).contents = s.contents := by
  unfold timerListInsertAfter
  dsimp only
  split <;> simp

theorem timerListInsertBefore_spec {cur : Handle} (linked : s.Holds (l ++ cur :: r))
    (fresh : h ∉ l ++ cur :: r) : (timerListInsertBefore cur h s).Holds (l ++ h :: cur :: r) := by
  obtain ⟨back, -⟩ := Linked.pointers linked
  obtain ⟨-, -, apart⟩ := List.nodup_append.1 linked.nodup
  have other : ∀ x ∈ l ++ cur :: r, x ≠ h := fun x inside same => fresh (same ▸ inside)
  have start := linked.start
  unfold timerListInsertBefore
  rcases List.eq_nil_or_concat l with rfl | ⟨l, prev, rfl⟩
  · rw [back]
    refine Linked.insert (l := []) linked fresh ?_ ?_ ?_ ?_ ?_ ?_
    · simp [(other cur (by simp)).symm]
    · simp
    · simp
    · simp
    · intro x inside
      have apart := other x inside
      by_cases first : x = cur
      · simp [first]
      · simp [first, apart, Ne.symm first]
    · intro x inside
      simp [other x inside]
  · rw [List.concat_eq_append] at *
    rw [List.getLast?_concat] at back
    rw [back]
    have notPrev : ∀ x ∈ cur :: r, x ≠ prev := fun x inside same =>
      apart prev (by simp) x inside same.symm
    have head : ((l ++ [prev]).head?.or (some h)) = s.head := by
      rw [start]
      cases l <;> simp
    show Linked _ _ s.head _
    rw [← head]
    refine Linked.insert linked fresh ?_ ?_ ?_ ?_ ?_ ?_
    · simp [(other cur (by simp)).symm]
    · simp [(other prev (by simp)).symm]
    · intro x inside
      simp [other x (List.mem_append_left _ inside), apart x inside cur (by simp)]
    · intro x inside
      by_cases last : x = prev
      · simp [last]
      · simp [last, Ne.symm last, other x (List.mem_append_left _ inside)]
    · intro x inside
      by_cases first : x = cur
      · simp [first]
      · simp [first, Ne.symm first, other x (List.mem_append_right _ inside)]
    · intro x inside
      simp [notPrev x inside, other x (List.mem_append_right _ inside)]

theorem timerListInsertAfter_spec {cur : Handle} (linked : s.Holds (l ++ [cur]))
    (fresh : h ∉ l ++ [cur]) : (timerListInsertAfter cur h s).Holds (l ++ [cur, h]) := by
  obtain ⟨-, forth⟩ := Linked.pointers linked
  have other : ∀ x ∈ l ++ [cur], x ≠ h := fun x inside same => fresh (same ▸ inside)
  have head : ((l ++ [cur]).head?.or (some h)) = s.head := by
    rw [linked.start]
    cases l <;> simp
  have all : l ++ [cur, h] = (l ++ [cur]) ++ [h] := by simp
  have whole : s.Holds (l ++ [cur] ++ []) := by simpa using linked
  unfold timerListInsertAfter
  rw [forth, all]
  show Linked _ _ s.head _
  rw [← head]
  refine Linked.insert whole (by simpa using fresh) ?_ ?_ ?_ ?_ ?_ ?_
  · simp
  · simp [(other cur (by simp)).symm]
  · intro x inside
    simp [other x inside]
  · intro x inside
    by_cases last : x = cur
    · simp [last]
    · simp [last, Ne.symm last, other x inside]
  · simp
  · simp

/-- The order of `_timespec_compare`: seconds first, then nanoseconds. -/
def Timespec.Earlier (a b : Timespec) : Prop := 0 < timespecCompare b a

instance (a b : Timespec) : Decidable (a.Earlier b) := inferInstanceAs (Decidable (_ < _))

/-- Which of two timers is due first. -/
def DueBefore (timer : Handle → Timer) (a b : Handle) : Prop :=
  (timer a).absTimeout.Earlier (timer b).absTimeout

instance (timer : Handle → Timer) : DecidableRel (DueBefore timer) :=
  fun _ _ => inferInstanceAs (Decidable (Timespec.Earlier _ _))

theorem timerListAddFrom_spec : ∀ (r l : List Handle) (fuel : Nat) (index : Int),
    s.Holds (l ++ r) → r ≠ [] → h ∉ l ++ r → r.length ≤ fuel →
      ∃ t i, timerListAddFrom s h fuel r.head? index = some (t, i) ∧
        t.Holds (l ++ r.orderedInsert (DueBefore s.timer) h) ∧ t.contents = s.contents
  | [], _, _, _, _, nonempty, _, _ => absurd rfl nonempty
  | cur :: r, _, 0, _, _, _, _, enough => by simp at enough
  | cur :: r, l, fuel + 1, index, linked, _, fresh, enough => by
      obtain ⟨-, forth⟩ := Linked.pointers linked
      rw [List.head?_cons, timerListAddFrom]
      by_cases later : DueBefore s.timer h cur
      · have compared : 0 < timespecCompare (s.timer cur).absTimeout (s.timer h).absTimeout := later
        rw [if_pos compared, List.orderedInsert, if_pos later]
        exact ⟨_, _, rfl, timerListInsertBefore_spec linked fresh,
          timerListInsertBefore_contents cur h s⟩
      · have compared : ¬ 0 < timespecCompare (s.timer cur).absTimeout (s.timer h).absTimeout :=
          later
        rw [if_neg compared, List.orderedInsert, if_neg later, forth]
        cases r with
        | nil =>
            rw [List.head?_nil, if_pos rfl]
            exact ⟨_, _, rfl, timerListInsertAfter_spec linked fresh,
              timerListInsertAfter_contents cur h s⟩
        | cons next r =>
            rw [if_neg (by simp)]
            have step : l ++ cur :: next :: r = (l ++ [cur]) ++ next :: r := by simp
            rw [step] at linked fresh
            obtain ⟨t, i, ran, holds, same⟩ := timerListAddFrom_spec (next :: r) (l ++ [cur]) fuel
              (int32 (index + 1)) linked (by simp) fresh (by simpa using enough)
            refine ⟨t, i, ran, ?_, same⟩
            simpa using holds

/-- **Where a timer is put in.**  Before the first that is due later, and so behind every
timer due at the same time. -/
theorem timerListAdd_spec {fuel : Nat} (linked : s.Holds l) (fresh : h ∉ l)
    (enough : l.length ≤ fuel) :
    ∃ t i, timerListAdd fuel h s = some (t, i) ∧ t.Holds (l.orderedInsert (DueBefore s.timer) h) ∧
      t.contents = s.contents := by
  unfold timerListAdd
  rw [linked.start]
  cases l with
  | nil =>
      rw [List.head?_nil, if_pos rfl]
      refine ⟨_, _, rfl, ?_, by simp⟩
      exact linked_singleton (by simp) (by simp)
  | cons cur l =>
      rw [List.head?_cons, if_neg (by simp)]
      exact timerListAddFrom_spec (cur :: l) [] fuel 0 linked (by simp) fresh enough

/-! ## Searching -/

theorem timerIsInlist_from : ∀ (r l : List Handle) (fuel : Nat), s.Holds (l ++ r) →
    r.length ≤ fuel → timerIsInlist s h fuel r.head? = some (decide (h ∈ r))
  | [], _, fuel, _, _ => by
      cases fuel <;> simp [timerIsInlist]
  | cur :: r, _, 0, _, enough => by simp at enough
  | cur :: r, l, fuel + 1, linked, enough => by
      obtain ⟨-, forth⟩ := Linked.pointers linked
      rw [List.head?_cons, timerIsInlist]
      by_cases found : cur = h
      · simp [found]
      · have step : l ++ cur :: r = (l ++ [cur]) ++ r := by simp
        rw [step] at linked
        rw [if_neg found, forth,
          timerIsInlist_from r (l ++ [cur]) fuel linked (by simpa using enough)]
        simp [Ne.symm found]

theorem timerIsInlist_spec {fuel : Nat} (linked : s.Holds l) (enough : l.length ≤ fuel) :
    timerIsInlist s h fuel s.head = some (decide (h ∈ l)) := by
  rw [linked.start]
  exact timerIsInlist_from l [] fuel linked enough

/-! ## The order of the times -/

theorem Timespec.earlier_iff {a b : Timespec} :
    a.Earlier b ↔ a.tvSec < b.tvSec ∨ a.tvSec = b.tvSec ∧ a.tvNsec < b.tvNsec := by
  unfold Earlier timespecCompare
  split
  · omega
  · split
    · omega
    · split
      · omega
      · split <;> omega

theorem timespecCompare_neg {a b : Timespec} : timespecCompare a b < 0 ↔ a.Earlier b := by
  rw [Timespec.earlier_iff]
  unfold timespecCompare
  split
  · omega
  · split
    · omega
    · split
      · omega
      · split <;> omega

/-- The nanoseconds of a deadline: up to a whole second of them, both ends included. -/
structure Timespec.Deadline (t : Timespec) : Prop where
  low : 0 ≤ t.tvNsec
  high : t.tvNsec ≤ 1000000000

/-- What `clock_gettime` gives. -/
structure Timespec.Normalised (t : Timespec) : Prop where
  low : 0 ≤ t.tvNsec
  high : t.tvNsec < 1000000000

/-- The order of the code is the order of the instants, up to the two ways to write a full
second. -/
theorem Timespec.nanos_le {a b : Timespec} (bound : a.Deadline) (bound' : b.Deadline)
    (le : ¬ b.Earlier a) : a.nanos ≤ b.nanos := by
  rw [earlier_iff] at le
  have := bound.high
  have := bound'.low
  unfold nanos
  omega

/-- Against a normalised time the two orders agree. -/
theorem Timespec.earlier_iff_nanos {now t : Timespec} (normal : now.Normalised)
    (bound : t.Deadline) : now.Earlier t ↔ now.nanos < t.nanos := by
  have := normal.high
  have := normal.low
  have := bound.high
  have := bound.low
  rw [earlier_iff]
  unfold nanos
  omega

/-- **The deadline of a timeout.**  Exactly the timeout later, and with up to a whole second
of nanoseconds. -/
theorem timerAddAbstimeout_spec {now : Timespec} (normal : now.Normalised) {timeoutMs : Nat}
    (low : -2 ^ 63 ≤ now.tvSec) (high : now.tvSec + (timeoutMs / 1000 : Nat) + 1 < 2 ^ 63) :
    (timerAddAbstimeout now timeoutMs).Deadline ∧
      (timerAddAbstimeout now timeoutMs).nanos = now.nanos + timeoutMs * 1000000 := by
  have := normal.high
  have := normal.low
  unfold timerAddAbstimeout
  rw [int64_of_range (by omega) (by omega), int64_of_range (by omega) (by omega)]
  dsimp only
  split
  · rw [int64_of_range (by omega) (by omega), int64_of_range (by omega) (by omega)]
    refine ⟨⟨?_, ?_⟩, ?_⟩
    · dsimp only
      omega
    · dsimp only
      omega
    · simp only [Timespec.nanos]
      omega
  · refine ⟨⟨?_, ?_⟩, ?_⟩
    · dsimp only
      omega
    · dsimp only
      omega
    · simp only [Timespec.nanos]
      omega

end ChargerStack.Utils.TimerList
