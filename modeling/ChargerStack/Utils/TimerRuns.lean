/-
# Utils.TimerRuns -- the timer list over a whole run

The calls of the timer interface and the rounds of the timer thread, each one step, in
any order and over a clock that does not go back.  The list is meant to hold the running
timers, in the order of their deadlines.

* `timerListRemove` cuts off everything behind a timer that has neighbours on both
  sides, so a timer that is started again, stopped or deleted in the middle of the list
  takes the timers behind it along;
* `timer_runs_wellFormed_iff`: the list is what it is meant to be all along a run if and
  only if no running timer is touched while it has neighbours on both sides.  A round of
  the timer thread only ever takes out the first timer.
-/
import ChargerStack.Lib.Run
import ChargerStack.Utils.TimerLoop

namespace ChargerStack.Utils.TimerList

open ChargerStack.Cxx
open ChargerStack.Lib

set_option autoImplicit false

/-! ## The interface -/

/-- `_timer_post_timeout_signal`. -/
def timerPostTimeoutSignal (s : State) : State :=
  if 0 < s.ctrlFd then { s with posted := s.posted + 1 } else s

/-- `if (_timer_is_inlist(hdl)) _timer_list_remove(hdl)`. -/
def timerUnlist (fuel : Nat) (hdl : Handle) (s : State) : Option State :=
  (timerIsInlist s hdl fuel s.head).map fun listed => if listed then timerListRemove hdl s else s

/-- `p_timer_start`. -/
def timerStart (fuel : Nat) (now : Timespec) (hdl : Option Handle) (s : State) :
    Option (State × Int) :=
  match hdl with
  | none => some (s, -1)
  | some hdl =>
      let started := s.setTimer hdl { s.timer hdl with
        absTimeout := timerAddAbstimeout now (s.timer hdl).timeoutMs
        timeoutCount := 0
        status := .running }
      (timerUnlist fuel hdl started).bind fun t =>
        (timerListAdd fuel hdl t).map fun (u, index) =>
          (if index = 0 then timerPostTimeoutSignal u else u, 0)

/-- `p_timer_stop`. -/
def timerStop (fuel : Nat) (hdl : Option Handle) (s : State) : Option (State × Int) :=
  match hdl with
  | none => some (s, -1)
  | some hdl =>
      (timerUnlist fuel hdl (s.setTimer hdl { s.timer hdl with status := .stop })).map fun t =>
        (t, 0)

/-- `p_timer_del`, with what is left in `*p_hdl`.  `free_hdl` frees the user's data and
not the timer. -/
def timerDel (fuel : Nat) (hdl : Option Handle) (s : State) :
    Option (State × Option Handle × Int) :=
  match hdl with
  | none => some (s, none, -1)
  | some hdl =>
      (timerUnlist fuel hdl (s.setTimer hdl { s.timer hdl with status := .stop })).map fun t =>
        (t, none, 0)

/-- The new timer at the address `hdl`, before it is started.  `abs_timeout` is not set. -/
def State.allocate (s : State) (hdl : Handle) (timeoutMs : Nat) (repeats : Int)
    (cb userdata : Option Nat) : State :=
  { s with
    node := Function.update s.node hdl
      ⟨⟨none, none⟩, ⟨(s.timer hdl).absTimeout, cb, timeoutMs, userdata, repeats, 0, .idle⟩⟩
    timers := hdl :: s.timers }

/-- `p_timer_add`; `hdl` is what `malloc` returns. -/
def timerAdd (fuel : Nat) (now : Timespec) (hdl : Option Handle) (timeoutMs : Nat) (repeats : Int)
    (cb userdata : Option Nat) (s : State) : Option (State × Option Handle) :=
  if timeoutMs = 0 ∨ cb = none ∨ userdata = none then some (s, none)
  else
    match hdl with
    | none => some (s, none)
    | some hdl =>
        (timerStart fuel now (some hdl) (s.allocate hdl timeoutMs repeats cb userdata)).map
          fun t => (t.1, some hdl)

/-! ## Runs -/

/-- The timers, and the last time read. -/
structure System where
  state : State
  clock : Timespec

inductive Op where
  | add (malloc : Option Handle) (timeoutMs : Nat) (repeats : Int) (cb userdata : Option Nat)
      (now : Timespec)
  | start (hdl : Option Handle) (now : Timespec)
  | stop (hdl : Option Handle)
  | del (hdl : Option Handle)
  | loopOnce (now : Timespec)
  deriving DecidableEq, Repr

/-- What `CLOCK_MONOTONIC` can read after `clock`.  It counts nanoseconds in 64 bits. -/
structure Reads (clock now : Timespec) : Prop where
  low : 0 ≤ now.tvNsec
  high : now.tvNsec < 1000000000
  sec : 0 ≤ now.tvSec
  small : now.tvSec < 2 ^ 62
  monotone : clock.nanos ≤ now.nanos

instance (clock now : Timespec) : Decidable (Reads clock now) :=
  decidable_of_iff (0 ≤ now.tvNsec ∧ now.tvNsec < 1000000000 ∧ 0 ≤ now.tvSec ∧
      now.tvSec < 2 ^ 62 ∧ clock.nanos ≤ now.nanos)
    ⟨fun ⟨a, b, c, d, e⟩ => ⟨a, b, c, d, e⟩, fun ⟨a, b, c, d, e⟩ => ⟨a, b, c, d, e⟩⟩

/-- `malloc` returns memory that is not in use, a handle comes from `p_timer_add`, and the
clock does not go back. -/
def Allowed (s : System) : Op → Prop
  | .add malloc timeoutMs _ _ _ now =>
      (∀ h ∈ malloc, h ∉ s.state.timers) ∧ timeoutMs < 2 ^ 64 ∧ Reads s.clock now
  | .start hdl now => (∀ h ∈ hdl, h ∈ s.state.timers) ∧ Reads s.clock now
  | .stop hdl => ∀ h ∈ hdl, h ∈ s.state.timers
  | .del hdl => ∀ h ∈ hdl, h ∈ s.state.timers
  | .loopOnce now => Reads s.clock now

instance (s : System) : (op : Op) → Decidable (Allowed s op)
  | .add _ _ _ _ _ _ => inferInstanceAs (Decidable (_ ∧ _ ∧ _))
  | .start _ _ => inferInstanceAs (Decidable (_ ∧ _))
  | .stop hdl => inferInstanceAs (Decidable (∀ h ∈ hdl, h ∈ s.state.timers))
  | .del hdl => inferInstanceAs (Decidable (∀ h ∈ hdl, h ∈ s.state.timers))
  | .loopOnce now => inferInstanceAs (Decidable (Reads s.clock now))

/-- More nodes than any list can have. -/
def State.fuel (s : State) : Nat := s.timers.length + 2

/-- One operation.  There is no next state when it does not return. -/
def perform (s : System) : Op → Option System
  | .add malloc timeoutMs repeats cb userdata now =>
      (timerAdd s.state.fuel now malloc timeoutMs repeats cb userdata s.state).map fun t =>
        ⟨t.1, now⟩
  | .start hdl now => (timerStart s.state.fuel now hdl s.state).map fun t => ⟨t.1, now⟩
  | .stop hdl => (timerStop s.state.fuel hdl s.state).map fun t => ⟨t.1, s.clock⟩
  | .del hdl => (timerDel s.state.fuel hdl s.state).map fun t => ⟨t.1, s.clock⟩
  | .loopOnce now => (timerLoopOnce s.state.fuel now s.state).map fun t => ⟨t.1, now⟩

def step (s : System) (op : Op) : Option System :=
  if Allowed s op then perform s op else none

/-- After `p_timer_init`; nothing is known about the memory. -/
def init (ctrlFd : Int) (memory : Handle → TimerHandle) : System :=
  ⟨⟨none, ctrlFd, 0, memory, []⟩, ⟨0, 0⟩⟩

/-! ## Taking one timer out of the list -/

/-- The list after `timerUnlist`. -/
def cutAt (h : Handle) (l : List Handle) : List Handle :=
  if h ∈ l then
    if l.takeWhile (· ≠ h) = [] then l.tail else l.takeWhile (· ≠ h)
  else l

variable {s t : State} {h : Handle} {l a b : List Handle} {now : Timespec} {fuel : Nat}

theorem cutAt_split (fresh : h ∉ a) : cutAt h (a ++ h :: b) = if a = [] then b else a := by
  have before : (a ++ h :: b).takeWhile (· ≠ h) = a := by
    rw [List.takeWhile_append_of_pos]
    · simp
    · intro x inside
      have apart : x ≠ h := fun same => fresh (same ▸ inside)
      simpa using apart
  rw [cutAt, before, if_pos (by simp)]
  split
  · rename_i empty
    simp [empty]
  · rfl

/-- A member splits the list in two. -/
theorem split_at_member (nodup : l.Nodup) (inside : h ∈ l) : ∃ a b, l = a ++ h :: b ∧ h ∉ a := by
  obtain ⟨a, b, rfl⟩ := List.append_of_mem inside
  refine ⟨a, b, rfl, fun before => ?_⟩
  exact (List.nodup_append.1 nodup).2.2 h before h List.mem_cons_self rfl

theorem cutAt_sublist (h : Handle) (l : List Handle) : (cutAt h l).Sublist l := by
  unfold cutAt
  split
  · split
    · exact List.tail_sublist l
    · exact List.takeWhile_sublist _
  · exact List.Sublist.refl l

theorem not_mem_cutAt (nodup : l.Nodup) : h ∉ cutAt h l := by
  by_cases inside : h ∈ l
  · obtain ⟨a, b, rfl, fresh⟩ := split_at_member nodup inside
    rw [cutAt_split fresh]
    split
    · exact (List.nodup_cons.1 (List.nodup_append.1 nodup).2.1).1
    · exact fresh
  · rw [cutAt, if_neg inside]
    exact inside

/-- **No other timer is lost** if and only if the timer taken out was the first or the last. -/
theorem cutAt_complete (linked : s.Holds l) :
    (∀ x ∈ l, x ≠ h → x ∈ cutAt h l) ↔ (h ∈ l → s.prev h = none ∨ s.next h = none) := by
  by_cases inside : h ∈ l
  · obtain ⟨a, b, rfl, fresh⟩ := split_at_member linked.nodup inside
    obtain ⟨back, forth⟩ := Linked.pointers linked
    have ends : s.prev h = none ∨ s.next h = none ↔ a = [] ∨ b = [] := by
      rw [back, forth, List.getLast?_eq_none_iff, List.head?_eq_none_iff]
    rw [ends, cutAt_split fresh]
    constructor
    · intro all _
      by_contra both
      obtain ⟨left, right⟩ := not_or.1 both
      obtain ⟨x, b, rfl⟩ := List.exists_cons_of_ne_nil right
      obtain ⟨-, nodup, apart⟩ := List.nodup_append.1 linked.nodup
      have other : x ≠ h := fun same => (List.nodup_cons.1 nodup).1 (same ▸ List.mem_cons_self)
      have kept := all x (by simp) other
      rw [if_neg left] at kept
      exact apart x kept x (by simp) rfl
    · intro ends x member other
      rcases ends inside with rfl | rfl
      · simpa [other] using member
      · have member : x ∈ a := by simpa [other] using member
        split
        · rename_i empty
          rw [empty] at member
          exact member
        · exact member
  · rw [cutAt, if_neg inside]
    exact iff_of_true (fun _ member _ => member) fun member => absurd member inside

theorem timerUnlist_spec (linked : s.Holds l) (enough : l.length ≤ fuel) :
    ∃ t, timerUnlist fuel h s = some t ∧ t.Holds (cutAt h l) ∧ t.contents = s.contents := by
  unfold timerUnlist
  rw [timerIsInlist_spec linked enough, Option.map_some]
  refine ⟨_, rfl, ?_⟩
  by_cases inside : h ∈ l
  · obtain ⟨a, b, rfl, fresh⟩ := split_at_member linked.nodup inside
    rw [cutAt_split fresh]
    simp only [inside, decide_true, if_true]
    exact ⟨timerListRemove_spec linked, timerListRemove_contents h s⟩
  · rw [cutAt, if_neg inside]
    simp only [inside, decide_false]
    exact ⟨linked, rfl⟩

/-! ## What the operations do -/

/-- What `p_timer_start` writes into the timer. -/
def Timer.start (now : Timespec) (t : Timer) : Timer :=
  { t with
    absTimeout := timerAddAbstimeout now t.timeoutMs
    timeoutCount := 0
    status := .running }

/-- Nothing but the timer `h` has changed, and it is now `x`. -/
structure Wrote (h : Handle) (x : Timer) (s t : State) : Prop where
  timer : t.timer = Function.update s.timer h x
  timers : t.timers = s.timers

theorem wrote_of_contents {x : Timer} (same : t.contents = (s.setTimer h x).contents) :
    Wrote h x s t := by
  rw [State.setTimer_contents] at same
  exact ⟨congrArg Prod.fst same, congrArg (fun c => c.2.1) same⟩

theorem timerStart_spec (now : Timespec) (linked : s.Holds l) (enough : l.length ≤ fuel) :
    ∃ t, timerStart fuel now (some h) s = some (t, 0) ∧
      t.Holds ((cutAt h l).orderedInsert (DueBefore t.timer) h) ∧
      Wrote h ((s.timer h).start now) s t := by
  obtain ⟨t, unlisted, cut, same⟩ := timerUnlist_spec (h := h)
    (linked.setTimer h ((s.timer h).start now)) enough
  obtain ⟨u, i, added, holds, kept⟩ := timerListAdd_spec cut
    (not_mem_cutAt linked.nodup) ((cutAt_sublist h l).length_le.trans enough)
  have posted : (timerPostTimeoutSignal u).Holds = u.Holds ∧
      (timerPostTimeoutSignal u).timer = u.timer ∧
      (timerPostTimeoutSignal u).timers = u.timers := by
    unfold timerPostTimeoutSignal
    split <;> exact ⟨rfl, rfl, rfl⟩
  obtain ⟨timer, timers⟩ := wrote_of_contents (kept.trans same)
  have sameTimer : u.timer = t.timer := State.timer_of_contents kept
  rw [← sameTimer] at holds
  have ran : timerStart fuel now (some h) s =
      some (if i = 0 then timerPostTimeoutSignal u else u, 0) := by
    unfold Timer.start at unlisted
    rw [timerStart, unlisted, Option.bind_some, added, Option.map_some]
  refine ⟨_, ran, ?_, ?_⟩
  · split
    · rw [posted.1, posted.2.1]
      exact holds
    · exact holds
  · split
    · exact ⟨posted.2.1.trans timer, posted.2.2.trans timers⟩
    · exact ⟨timer, timers⟩

theorem timerStop_spec (linked : s.Holds l) (enough : l.length ≤ fuel) :
    ∃ t, timerStop fuel (some h) s = some (t, 0) ∧
      timerDel fuel (some h) s = some (t, none, 0) ∧ t.Holds (cutAt h l) ∧
      Wrote h { s.timer h with status := .stop } s t := by
  obtain ⟨t, unlisted, cut, same⟩ := timerUnlist_spec (h := h)
    (linked.setTimer h { s.timer h with status := .stop }) enough
  refine ⟨t, ?_, ?_, cut, wrote_of_contents same⟩
  · rw [timerStop, unlisted, Option.map_some]
  · rw [timerDel, unlisted, Option.map_some]

/-! ## The list as it is meant to be -/

/-- The list holds the running timers, in the order of their deadlines. -/
structure ListOk (s : State) (l : List Handle) : Prop where
  holds : s.Holds l
  sorted : SortedByCompare s l
  members : ∀ h, h ∈ l ↔ h ∈ s.timers ∧ (s.timer h).status = .running

def WellFormed (s : State) : Prop := ∃ l, ListOk s l

/-- What the timers have been given, whatever has become of the list. -/
structure Settings (s : State) : Prop where
  timeout : ∀ h ∈ s.timers, 0 < (s.timer h).timeoutMs ∧ (s.timer h).timeoutMs < 2 ^ 64
  deadline : ∀ h ∈ s.timers, (s.timer h).status = .running → (s.timer h).absTimeout.Deadline

structure Inv (s : System) : Prop where
  wellFormed : WellFormed s.state
  settings : Settings s.state

theorem ListOk.enough (ok : ListOk s l) : l.length < s.fuel := by
  have sub : l ⊆ s.timers := fun h inside => ((ok.members h).1 inside).1
  have le := (List.subperm_of_subset ok.holds.nodup sub).length_le
  unfold State.fuel
  omega

theorem reads_current {clock now : Timespec} (reads : Reads clock now) : now.Current where
  low := reads.low
  high := reads.high
  sec := by
    have := reads.sec
    omega

theorem Settings.fits {clock : Timespec} (settings : Settings s) (reads : Reads clock now)
    (inside : h ∈ s.timers) : now.tvSec + ((s.timer h).timeoutMs / 1000 : Nat) + 1 < 2 ^ 63 := by
  have small := (settings.timeout h inside).2
  have := reads.small
  omega

theorem Settings.sound {clock : Timespec} (settings : Settings s) (reads : Reads clock now)
    (ok : ListOk s l) : ∀ x ∈ l, (s.timer x).Sound now := by
  intro x inside
  obtain ⟨timer, running⟩ := (ok.members x).1 inside
  exact ⟨settings.deadline x timer running, (settings.timeout x timer).1,
    settings.fits reads timer⟩

/-- Writing one timer that stays sound. -/
theorem Settings.wrote {x : Timer} (settings : Settings s) (wrote : Wrote h x s t)
    (sameTimeout : x.timeoutMs = (s.timer h).timeoutMs)
    (deadline : h ∈ s.timers → x.status = .running → x.absTimeout.Deadline) : Settings t := by
  refine ⟨fun y inside => ?_, fun y inside running => ?_⟩
  · rw [wrote.timers] at inside
    rw [wrote.timer]
    by_cases same : y = h
    · subst same
      rw [Function.update_self, sameTimeout]
      exact settings.timeout y inside
    · rw [Function.update_of_ne same]
      exact settings.timeout y inside
  · rw [wrote.timers] at inside
    rw [wrote.timer] at running ⊢
    by_cases same : y = h
    · subst same
      rw [Function.update_self] at running ⊢
      exact deadline inside running
    · rw [Function.update_of_ne same] at running ⊢
      exact settings.deadline y inside running

/-- **One timer is written and taken out**, and put in again if it runs.  The list is what it
is meant to be if and only if the timer was not in the middle of it. -/
theorem wellFormed_wrote_iff {x : Timer} {l' : List Handle} (ok : ListOk s l)
    (inside : h ∈ s.timers) (wrote : Wrote h x s t) (holds : t.Holds l')
    (sorted : SortedByCompare t l') (others : ∀ y, y ≠ h → (y ∈ l' ↔ y ∈ cutAt h l))
    (self : h ∈ l' ↔ x.status = .running) :
    WellFormed t ↔
      ((s.timer h).status = .running → s.prev h = none ∨ s.next h = none) := by
  have listed : h ∈ l ↔ (s.timer h).status = .running := by
    simp [ok.members, inside]
  have unchanged : ∀ y, y ≠ h → t.timer y = s.timer y := by
    intro y apart
    rw [wrote.timer, Function.update_of_ne apart]
  rw [← listed, ← cutAt_complete ok.holds]
  constructor
  · rintro ⟨l'', ok'⟩ y member apart
    obtain rfl : l'' = l' := ok'.holds.unique holds
    rw [← others y apart, ok'.members, wrote.timers, unchanged y apart]
    exact (ok.members y).1 member
  · intro complete
    refine ⟨l', holds, sorted, fun y => ?_⟩
    rw [wrote.timers]
    by_cases same : y = h
    · subst same
      rw [self, wrote.timer, Function.update_self]
      simp [inside]
    · rw [others y same, unchanged y same, ← ok.members]
      exact ⟨fun kept => (cutAt_sublist h l).subset kept, fun member => complete y member same⟩

theorem not_wellFormed_of_lost (holds : s.Holds l) (inside : h ∈ s.timers)
    (running : (s.timer h).status = .running) (lost : h ∉ l) : ¬ WellFormed s := by
  rintro ⟨l', ok⟩
  obtain rfl := ok.holds.unique holds
  exact lost ((ok.members h).2 ⟨inside, running⟩)

/-- The rest of the list stays sorted when one timer is written. -/
theorem ListOk.sorted_cut {x : Timer} (ok : ListOk s l) (wrote : Wrote h x s t) :
    SortedByCompare t (cutAt h l) := by
  have fresh : h ∉ cutAt h l := not_mem_cutAt ok.holds.nodup
  refine (ok.sorted.sublist (cutAt_sublist h l)).imp_of_mem fun {a b} insideA insideB le => ?_
  have apartA : a ≠ h := fun same => fresh (same ▸ insideA)
  have apartB : b ≠ h := fun same => fresh (same ▸ insideB)
  rwa [wrote.timer, Function.update_of_ne apartA, Function.update_of_ne apartB]

/-! ## The operations one by one -/

/-- What an operation makes of a good state, and what it needs for that. -/
structure Effect (s t : State) (needs : Prop) : Prop where
  wellFormed : WellFormed t ↔ needs
  settings : Settings t

theorem timerStart_effect {clock : Timespec} (ok : ListOk s l) (settings : Settings s)
    (inside : h ∈ s.timers) (reads : Reads clock now) (enough : l.length ≤ fuel) :
    ∃ t, timerStart fuel now (some h) s = some (t, 0) ∧
      Effect s t ((s.timer h).status = .running → s.prev h = none ∨ s.next h = none) := by
  obtain ⟨t, ran, holds, wrote⟩ := timerStart_spec (h := h) now ok.holds enough
  have fresh : h ∉ cutAt h l := not_mem_cutAt ok.holds.nodup
  have started : (timerAddAbstimeout now (s.timer h).timeoutMs).Deadline :=
    (timerAddAbstimeout_spec (reads_current reads).toNormalised (reads_current reads).sec
      (settings.fits reads inside)).1
  refine ⟨t, ran, ?_, settings.wrote wrote rfl fun _ _ => started⟩
  have sorted : SortedByCompare t ((cutAt h l).orderedInsert (DueBefore t.timer) h) := by
    refine pairwise_orderedInsert ?_ ?_ ?_ (ok.sorted_cut wrote)
    · exact fun _ _ _ => decidedBy_earlier.trans _ _ _
    · intro x _ before
      unfold DueBefore at before
      rw [Timespec.earlier_iff] at before ⊢
      omega
    · exact fun x _ behind => behind
  refine wellFormed_wrote_iff ok inside wrote holds sorted (fun y apart => ?_) ?_
  · simp [List.mem_orderedInsert, apart]
  · simp [List.mem_orderedInsert, Timer.start]

theorem timerStop_effect (ok : ListOk s l) (settings : Settings s) (inside : h ∈ s.timers)
    (enough : l.length ≤ fuel) :
    ∃ t, timerStop fuel (some h) s = some (t, 0) ∧ timerDel fuel (some h) s = some (t, none, 0) ∧
      Effect s t ((s.timer h).status = .running → s.prev h = none ∨ s.next h = none) := by
  obtain ⟨t, stopped, deleted, holds, wrote⟩ := timerStop_spec (h := h) ok.holds enough
  refine ⟨t, stopped, deleted, ?_, settings.wrote wrote rfl fun _ running => by cases running⟩
  refine wellFormed_wrote_iff ok inside wrote holds (ok.sorted_cut wrote) (fun _ _ => Iff.rfl) ?_
  simp [not_mem_cutAt ok.holds.nodup]

/-! A new timer is not in the list, and not yet running. -/

variable {timeoutMs : Nat} {repeats : Int} {cb userdata : Option Nat}

theorem allocate_timer :
    (s.allocate h timeoutMs repeats cb userdata).timer = Function.update s.timer h
      ⟨(s.timer h).absTimeout, cb, timeoutMs, userdata, repeats, 0, .idle⟩ :=
  State.read_update (fun n => n.toTimer) _

theorem allocate_prev : (s.allocate h timeoutMs repeats cb userdata).prev =
    Function.update s.prev h none := State.read_update (fun n => n.prev) _

theorem allocate_next : (s.allocate h timeoutMs repeats cb userdata).next =
    Function.update s.next h none := State.read_update (fun n => n.next) _

theorem allocate_listOk (ok : ListOk s l) (fresh : h ∉ s.timers) :
    ListOk (s.allocate h timeoutMs repeats cb userdata) l := by
  have apart : ∀ x ∈ s.timers, x ≠ h := fun x inside same => fresh (same ▸ inside)
  have inside : ∀ x ∈ l, x ∈ s.timers := fun x member => ((ok.members x).1 member).1
  refine ⟨ok.holds.congr ?_ ?_, ?_, ?_⟩
  · intro x member
    rw [allocate_prev, Function.update_of_ne (apart x (inside x member))]
  · intro x member
    rw [allocate_next, Function.update_of_ne (apart x (inside x member))]
  · refine ok.sorted.imp_of_mem fun {a b} memberA memberB le => ?_
    rwa [allocate_timer, Function.update_of_ne (apart a (inside a memberA)),
      Function.update_of_ne (apart b (inside b memberB))]
  · intro x
    rw [allocate_timer, ok.members]
    show _ ↔ x ∈ h :: s.timers ∧ _
    by_cases same : x = h
    · simp [same, fresh]
    · simp [same]

theorem allocate_settings (settings : Settings s) (positive : 0 < timeoutMs)
    (small : timeoutMs < 2 ^ 64) : Settings (s.allocate h timeoutMs repeats cb userdata) := by
  refine ⟨fun x inside => ?_, fun x inside running => ?_⟩
  · rw [allocate_timer]
    by_cases same : x = h
    · subst same
      rw [Function.update_self]
      exact ⟨positive, small⟩
    · rw [Function.update_of_ne same]
      exact settings.timeout x ((List.mem_cons.1 inside).resolve_left same)
  · rw [allocate_timer] at running ⊢
    by_cases same : x = h
    · subst same
      rw [Function.update_self] at running
      cases running
    · rw [Function.update_of_ne same] at running ⊢
      exact settings.deadline x ((List.mem_cons.1 inside).resolve_left same) running

theorem timerAdd_effect {clock : Timespec} {malloc : Option Handle} (ok : ListOk s l)
    (settings : Settings s) (fresh : ∀ h ∈ malloc, h ∉ s.timers) (small : timeoutMs < 2 ^ 64)
    (reads : Reads clock now) (enough : l.length ≤ fuel) :
    ∃ r, timerAdd fuel now malloc timeoutMs repeats cb userdata s = some r ∧
      Effect s r.1 True := by
  have unchanged : Effect s s True := ⟨iff_of_true ⟨l, ok⟩ trivial, settings⟩
  unfold timerAdd
  split
  · exact ⟨(s, none), rfl, unchanged⟩
  · rename_i params
    cases malloc with
    | none => exact ⟨(s, none), rfl, unchanged⟩
    | some h =>
        have positive : 0 < timeoutMs := Nat.pos_of_ne_zero fun zero => params (.inl zero)
        have grown : ListOk (s.allocate h timeoutMs repeats cb userdata) l :=
          allocate_listOk ok (fresh h rfl)
        obtain ⟨t, ran, effect⟩ := timerStart_effect (h := h) grown
          (allocate_settings settings positive small) List.mem_cons_self reads enough
        refine ⟨(t, some h), ?_, effect.wellFormed.trans ?_, effect.settings⟩
        · dsimp only
          rw [ran, Option.map_some]
        · simp [allocate_timer]

theorem sortedByDeadline_of_compare (ok : ListOk s l) (settings : Settings s) :
    SortedByDeadline s l := by
  refine ok.sorted.imp_of_mem fun {a b} insideA insideB le => ?_
  obtain ⟨timerA, runningA⟩ := (ok.members a).1 insideA
  obtain ⟨timerB, runningB⟩ := (ok.members b).1 insideB
  exact Timespec.nanos_le (settings.deadline a timerA runningA)
    (settings.deadline b timerB runningB) le

theorem Looped.keeps_timeout {d w l' : List Handle} (looped : Looped now d w s t l') (x : Handle) :
    (t.timer x).timeoutMs = (s.timer x).timeoutMs := by
  rw [State.timer_of_contents looped.contents]
  dsimp only
  split
  · unfold Timer.expire
    split
    · rfl
    · split <;> rfl
  · rfl

theorem timerLoopOnce_effect {clock : Timespec} (ok : ListOk s l) (settings : Settings s)
    (reads : Reads clock now) (enough : l.length < fuel) :
    ∃ r, timerLoopOnce fuel now s = some r ∧ Effect s r.1 True := by
  have current := reads_current reads
  have sorted := sortedByDeadline_of_compare ok settings
  obtain ⟨d, w, rfl, inv⟩ :=
    loopInv_of_sorted ok.holds sorted (settings.sound reads ok) current
  obtain ⟨t, l', ran, looped⟩ := timerLoopOnce_spec inv current enough
  have round := looped.round inv current sorted
  have running : ∀ x ∈ d ++ w, (s.timer x).status = .running := fun x inside =>
    ((ok.members x).1 inside).2
  refine ⟨_, ran, iff_of_true ⟨l', round.holds, round.sortedByCompare ok.sorted, ?_⟩ trivial,
    ?_, ?_⟩
  · intro x
    rw [round.members, round.globals.1]
    by_cases away : x ∉ d ++ w ∨ ¬ Due now (s.timer x)
    · rw [round.waiting x away, ← ok.members]
      constructor
      · exact fun member => member.1
      · exact fun member => ⟨member, .inl (away.resolve_left (not_not.2 member))⟩
    · obtain ⟨member, due⟩ := not_or.1 away
      rw [not_not] at member due
      have fires : Fires now (s.timer x) := ⟨running x member, due⟩
      have timer := ((ok.members x).1 member).1
      by_cases left : (s.timer x).HasRepeatsLeft
      · obtain ⟨-, -, after⟩ := round.rearmed x member fires left
        refine iff_of_true ⟨member, .inr ⟨fires, left⟩⟩ ⟨timer, ?_⟩
        rw [after]
        exact running x member
      · obtain ⟨-, after⟩ := round.stopped x member fires left
        refine iff_of_false ?_ ?_
        · rintro ⟨-, late | ⟨-, again⟩⟩
          · exact late due
          · exact left again
        · rw [after]
          rintro ⟨-, stopped⟩
          cases stopped
  · intro x timer
    rw [round.globals.1] at timer
    rw [looped.keeps_timeout]
    exact settings.timeout x timer
  · intro x timer after
    rw [round.globals.1] at timer
    by_cases away : x ∉ d ++ w ∨ ¬ Due now (s.timer x)
    · rw [round.waiting x away] at after ⊢
      exact settings.deadline x timer after
    · obtain ⟨member, due⟩ := not_or.1 away
      rw [not_not] at member due
      have fires : Fires now (s.timer x) := ⟨running x member, due⟩
      by_cases left : (s.timer x).HasRepeatsLeft
      · exact (round.rearmed x member fires left).1
      · rw [(round.stopped x member fires left).2] at after
        cases after

/-! ## Whole runs -/

/-- The timer that an operation takes out of the list. -/
def Op.touches : Op → Option Handle
  | .start hdl _ => hdl
  | .stop hdl => hdl
  | .del hdl => hdl
  | .add _ _ _ _ _ _ => none
  | .loopOnce _ => none

/-- A running timer is touched only where it has a neighbour on at most one side. -/
def AtAnEnd (s : System) (op : Op) : Prop :=
  ∀ h ∈ op.touches, (s.state.timer h).status = .running →
    s.state.prev h = none ∨ s.state.next h = none

instance (s : System) (op : Op) : Decidable (AtAnEnd s op) :=
  inferInstanceAs (Decidable (∀ h ∈ op.touches, _ → _ ∨ _))

theorem init_inv (ctrlFd : Int) (memory : Handle → TimerHandle) : Inv (init ctrlFd memory) where
  wellFormed := ⟨[], linked_nil, List.Pairwise.nil, by simp [init]⟩
  settings := ⟨by simp [init], by simp [init]⟩

/-- **Every operation returns**, and needs the touched timer at an end of the list to keep the
list what it is meant to be. -/
theorem perform_effect {s : System} (inv : Inv s) {op : Op} (allowed : Allowed s op) :
    ∃ t, perform s op = some t ∧ Effect s.state t.state (AtAnEnd s op) := by
  obtain ⟨l, ok⟩ := inv.wellFormed
  have enough := ok.enough
  have unchanged : Effect s.state s.state True := ⟨iff_of_true ⟨l, ok⟩ trivial, inv.settings⟩
  have free : ∀ {op : Op}, op.touches = none → AtAnEnd s op = True := by
    intro op untouched
    simp [AtAnEnd, untouched]
  have touched : ∀ {op : Op} {h : Handle}, op.touches = some h → AtAnEnd s op =
      ((s.state.timer h).status = .running → s.state.prev h = none ∨ s.state.next h = none) := by
    intro op h touches
    simp [AtAnEnd, touches]
  cases op with
  | add malloc timeoutMs repeats cb userdata now =>
      obtain ⟨fresh, small, reads⟩ := allowed
      obtain ⟨r, ran, effect⟩ : ∃ r, timerAdd s.state.fuel now malloc timeoutMs repeats cb userdata
          s.state = some r ∧ Effect s.state r.1 True :=
        timerAdd_effect ok inv.settings fresh small reads enough.le
      exact ⟨⟨r.1, now⟩, by rw [perform, ran]; rfl, by rw [free rfl]; exact effect⟩
  | start hdl now =>
      obtain ⟨inside, reads⟩ := allowed
      cases hdl with
      | none => exact ⟨⟨s.state, now⟩, rfl, by rw [free rfl]; exact unchanged⟩
      | some h =>
          obtain ⟨t, ran, effect⟩ :=
            timerStart_effect ok inv.settings (inside h rfl) reads enough.le
          exact ⟨⟨t, now⟩, by rw [perform, ran]; rfl, by rw [touched rfl]; exact effect⟩
  | stop hdl =>
      cases hdl with
      | none => exact ⟨⟨s.state, s.clock⟩, rfl, by rw [free rfl]; exact unchanged⟩
      | some h =>
          obtain ⟨t, ran, -, effect⟩ := timerStop_effect ok inv.settings (allowed h rfl) enough.le
          exact ⟨⟨t, s.clock⟩, by rw [perform, ran]; rfl, by rw [touched rfl]; exact effect⟩
  | del hdl =>
      cases hdl with
      | none => exact ⟨⟨s.state, s.clock⟩, rfl, by rw [free rfl]; exact unchanged⟩
      | some h =>
          obtain ⟨t, -, ran, effect⟩ := timerStop_effect ok inv.settings (allowed h rfl) enough.le
          exact ⟨⟨t, s.clock⟩, by rw [perform, ran]; rfl, by rw [touched rfl]; exact effect⟩
  | loopOnce now =>
      obtain ⟨r, ran, effect⟩ := timerLoopOnce_effect ok inv.settings allowed enough
      exact ⟨⟨r.1, now⟩, by rw [perform, ran]; rfl, by rw [free rfl]; exact effect⟩

theorem step_effect {s t : System} (inv : Inv s) {op : Op} (moved : step s op = some t) :
    Effect s.state t.state (AtAnEnd s op) := by
  unfold step at moved
  split at moved
  · rename_i allowed
    obtain ⟨u, ran, effect⟩ := perform_effect inv allowed
    obtain rfl := Option.some.inj (ran.symm.trans moved)
    exact effect
  · cases moved

theorem step_inv {s t : System} {op : Op} (ends : AtAnEnd s op) (inv : Inv s)
    (moved : step s op = some t) : Inv t :=
  have effect := step_effect inv moved
  ⟨effect.wellFormed.2 ends, effect.settings⟩

/-- **The timer list over a run.**  In every state the list is well formed, sorted, and holds
exactly the running timers, if and only if no running timer is started again, stopped or
deleted while it has neighbours on both sides; and then every further operation returns. -/
theorem timer_runs_wellFormed_iff (ctrlFd : Int) (memory : Handle → TimerHandle) (ops : List Op)
    (t : System) (ran : exec step (init ctrlFd memory) ops = some t) :
    (Always step (fun s => WellFormed s.state) (init ctrlFd memory) ops ↔
      Along step AtAnEnd (init ctrlFd memory) ops) ∧
    (Along step AtAnEnd (init ctrlFd memory) ops →
      ∀ op, Allowed t op → ∃ u, step t op = some u) := by
  have start := init_inv ctrlFd memory
  constructor
  · refine always_iff_along (fun s inv => inv.wellFormed) (fun s op t => step_inv) ?_ start ran
    exact fun s op t inv moved good => (step_effect inv moved).wellFormed.1 good
  · intro along op allowed
    have inv : Inv t := exec_invariant_along (fun s op t => step_inv) along start ran
    obtain ⟨u, performed, -⟩ := perform_effect inv allowed
    exact ⟨u, by rw [step, if_pos allowed, performed]⟩

/-- Three timers, due one after the other, and the second is stopped. -/
def stopTheMiddle : List Op :=
  [.add (some 1) 1000 1 (some 7) (some 8) ⟨5, 0⟩, .add (some 2) 2000 1 (some 7) (some 8) ⟨5, 0⟩,
    .add (some 3) 3000 1 (some 7) (some 8) ⟨5, 0⟩, .stop (some 2)]

def zeroed : Handle → TimerHandle := fun _ => ⟨⟨none, none⟩, ⟨⟨0, 0⟩, none, 0, none, 0, 0, .idle⟩⟩

/-- The third timer runs and is not in the list any more. -/
theorem stopTheMiddle_loses : ∃ t, exec step (init 3 zeroed) stopTheMiddle = some t ∧
    ¬ WellFormed t.state := by
  refine ⟨_, rfl, not_wellFormed_of_lost (h := 3) (l := [1]) ?_ ?_ ?_ ?_⟩
  · exact ⟨rfl, ⟨rfl, rfl, trivial⟩, List.nodup_singleton 1⟩
  · decide +kernel
  · decide +kernel
  · decide

/-- Two timers; the second is stopped and the first fires. -/
def stopTheLast : List Op :=
  [.add (some 1) 1000 1 (some 7) (some 8) ⟨5, 0⟩, .add (some 2) 2000 1 (some 7) (some 8) ⟨5, 0⟩,
    .stop (some 2), .loopOnce ⟨6, 0⟩]

theorem stopTheLast_wellFormed : ∃ t, exec step (init 3 zeroed) stopTheLast = some t ∧
    Always step (fun s => WellFormed s.state) (init 3 zeroed) stopTheLast := by
  refine ⟨_, rfl, (timer_runs_wellFormed_iff 3 zeroed stopTheLast _ rfl).1.2 ?_⟩
  refine along_cons rfl ?_ (along_cons rfl ?_ (along_cons rfl ?_ (along_cons rfl ?_ trivial)))
  all_goals decide +kernel

end ChargerStack.Utils.TimerList
