/-
# Utils.TimerLoop -- one round of the timer thread

`p_timer_loop_once` walks the list from the head, takes every timer that is due out of
it, calls back, and puts a timer with repeats left in again, with the current time plus
its timeout as the new deadline.  The successor is saved before anything is taken out.

* `timerLoopFrom_spec` is the loop's invariant: the list is what is still due, followed
  by what is not.  A timer that is put in again goes into the second part, since its
  deadline is later than the current time, so the saved successor stays the head;
* `timerLoopOnce_fires_due`: every running timer that is due is called back once, in the
  order of the list, and the list afterwards holds what was not due and what was put in
  again.
-/
import ChargerStack.Utils.TimerList

namespace ChargerStack.Utils.TimerList

open ChargerStack.Cxx
open ChargerStack.Lib

set_option autoImplicit false

/-- `cur->cb(cur->userdata)`, and the timer it was made for. -/
structure Call where
  timer : Handle
  cb : Nat
  userdata : Option Nat
  deriving DecidableEq, Repr

def callOf (timer : Handle → Timer) (h : Handle) : Option Call :=
  (timer h).cb.map fun cb => ⟨h, cb, (timer h).userdata⟩

/-- `timeout_count++`. -/
def Timer.counted (t : Timer) : Timer := { t with timeoutCount := int32 (t.timeoutCount + 1) }

/-- The loop's body for a timer that is due. -/
def timerTimeout (fuel : Nat) (curtime : Timespec) (cur : Handle) (s : State) :
    Option (State × List Call) :=
  if (s.timer cur).status ≠ .running then some (timerListRemove cur s, [])
  else
    let called := (callOf s.timer cur).toList
    let t := timerListRemove cur (s.setTimer cur (s.timer cur).counted)
    if (t.timer cur).timeoutCount < (t.timer cur).repeats ∨ (t.timer cur).repeats < 0 then
      -- need restart the loop timer
      (timerListAdd fuel cur (t.setTimer cur { t.timer cur with
        absTimeout := timerAddAbstimeout curtime (t.timer cur).timeoutMs })).map fun u =>
          (u.1, called)
    else some (t.setTimer cur { t.timer cur with status := .stop }, called)

/-- The loop of `p_timer_loop_once`, at the node `cur`; `walk` bounds the walks of
`_timer_list_add`. -/
def timerLoopFrom (walk : Nat) (curtime : Timespec) :
    Nat → Option Handle → State → Option (State × List Call)
  | _, none, s => some (s, [])
  | 0, some _, _ => none
  | fuel + 1, some cur, s =>
      let next := s.next cur
      if timespecCompare curtime (s.timer cur).absTimeout < 0 then some (s, [])
      else
        (timerTimeout walk curtime cur s).bind fun (t, called) =>
          (timerLoopFrom walk curtime fuel next t).map fun (u, calls) => (u, called ++ calls)

/-- `p_timer_loop_once`, with the calls it makes. -/
def timerLoopOnce (fuel : Nat) (curtime : Timespec) (s : State) : Option (State × List Call) :=
  if s.head = none then some (s, []) else timerLoopFrom fuel curtime fuel s.head s

/-! ## What a round does to one timer -/

/-- Repeats are left once this timeout is counted. -/
def Timer.HasRepeatsLeft (t : Timer) : Prop :=
  t.counted.timeoutCount < t.repeats ∨ t.repeats < 0

instance (t : Timer) : Decidable t.HasRepeatsLeft := inferInstanceAs (Decidable (_ ∨ _))

/-- The timer is put in again. -/
def Timer.Rearmed (t : Timer) : Prop := t.status = .running ∧ t.HasRepeatsLeft

instance (t : Timer) : Decidable t.Rearmed := inferInstanceAs (Decidable (_ ∧ _))

/-- A timer that was due, after its turn. -/
def Timer.expire (now : Timespec) (t : Timer) : Timer :=
  if t.Rearmed then { t.counted with absTimeout := timerAddAbstimeout now t.timeoutMs }
  else if t.status = .running then { t.counted with status := .stop }
  else t

/-- The call made for a timer that was due. -/
def firedCall (timer : Handle → Timer) (h : Handle) : Option Call :=
  if (timer h).status = .running then callOf timer h else none

variable {s t : State} {cur : Handle} {l q : List Handle} {now : Timespec}

theorem State.Holds.setTimer (linked : s.Holds l) (h : Handle) (x : Timer) :
    (s.setTimer h x).Holds l := by
  simpa [State.Holds] using linked

theorem State.setTimer_contents {x : Timer} : (s.setTimer cur x).contents =
    (Function.update s.timer cur x, s.contents.2) := by
  rw [State.contents, State.setTimer_timer]
  rfl

theorem State.timer_of_contents {c : (Handle → Timer) × List Handle × Int × Nat}
    (same : t.contents = c) : t.timer = c.1 := congrArg Prod.fst same

/-- **The turn of the first timer of the list.** -/
theorem timerTimeout_spec (now : Timespec) {fuel : Nat} (linked : s.Holds (cur :: q))
    (enough : q.length ≤ fuel) :
    ∃ t, timerTimeout fuel now cur s = some (t, (firedCall s.timer cur).toList) ∧
      t.contents = (Function.update s.timer cur ((s.timer cur).expire now), s.contents.2) ∧
      t.Holds (if (s.timer cur).Rearmed then q.orderedInsert (DueBefore t.timer) cur else q) := by
  have fresh : cur ∉ q := (List.nodup_cons.1 linked.nodup).1
  unfold timerTimeout firedCall Timer.expire
  by_cases running : (s.timer cur).status = .running
  · have removed := timerListRemove_spec (l := []) (linked.setTimer cur (s.timer cur).counted)
    have same := timerListRemove_contents cur (s.setTimer cur (s.timer cur).counted)
    have counted := State.timer_of_contents same
    generalize timerListRemove cur (s.setTimer cur (s.timer cur).counted) = t at *
    simp only [State.setTimer_contents] at same counted
    rw [if_pos rfl] at removed
    have self : t.timer cur = (s.timer cur).counted := by
      rw [counted, Function.update_self]
    simp only [running, ne_eq, not_true_eq_false, if_false, if_true, self]
    by_cases again : (s.timer cur).HasRepeatsLeft
    · have rearmed : (s.timer cur).Rearmed := ⟨running, again⟩
      have test : (s.timer cur).counted.timeoutCount < (s.timer cur).counted.repeats ∨
          (s.timer cur).counted.repeats < 0 := again
      simp only [if_pos test, if_pos rearmed]
      obtain ⟨u, i, added, holds, kept⟩ := timerListAdd_spec
        (removed.setTimer cur { (s.timer cur).counted with
          absTimeout := timerAddAbstimeout now (s.timer cur).counted.timeoutMs }) fresh enough
      rw [added]
      refine ⟨u, rfl, ?_, ?_⟩
      · rw [kept, State.setTimer_contents, counted, same, Function.update_idem]
        rfl
      · rw [State.timer_of_contents kept]
        exact holds
    · have rearmed : ¬ (s.timer cur).Rearmed := fun both => again both.2
      have test : ¬ ((s.timer cur).counted.timeoutCount < (s.timer cur).counted.repeats ∨
          (s.timer cur).counted.repeats < 0) := again
      simp only [if_neg test, if_neg rearmed]
      refine ⟨_, rfl, ?_, removed.setTimer cur _⟩
      rw [State.setTimer_contents, counted, same, Function.update_idem]
  · have rearmed : ¬ (s.timer cur).Rearmed := fun both => running both.1
    simp only [running, ne_eq, not_false_eq_true, if_true, if_false, if_neg rearmed]
    have removed := timerListRemove_spec (l := []) linked
    rw [if_pos rfl] at removed
    refine ⟨_, rfl, ?_, removed⟩
    rw [timerListRemove_contents, Function.update_eq_self]
    rfl

/-! ## The loop -/

/-- An order of the deadlines that the comparison of the code decides. -/
structure DecidedBy (le : Timespec → Timespec → Prop) : Prop where
  trans : ∀ a b c, le a b → le b c → le a c
  decides : ∀ a b, a.Deadline → b.Deadline → ¬ b.Earlier a → le a b

theorem decidedBy_earlier : DecidedBy fun a b => ¬ b.Earlier a where
  trans a b c ab bc := by
    simp only [Timespec.earlier_iff] at *
    omega
  decides _ _ _ _ le := le

theorem decidedBy_nanos : DecidedBy fun a b => a.nanos ≤ b.nanos where
  trans _ _ _ := le_trans
  decides _ _ boundA boundB := Timespec.nanos_le boundA boundB

/-- What a timer needs so that its next deadline can be computed at `now`. -/
structure Timer.Sound (now : Timespec) (t : Timer) : Prop where
  deadline : t.absTimeout.Deadline
  positive : 0 < t.timeoutMs
  fits : now.tvSec + (t.timeoutMs / 1000 : Nat) + 1 < 2 ^ 63

/-- A current time. -/
structure Timespec.Current (now : Timespec) : Prop extends now.Normalised where
  sec : -2 ^ 63 ≤ now.tvSec

theorem Timer.Sound.rearmed {t : Timer} (sound : t.Sound now) (current : now.Current)
    (rearmed : t.Rearmed) :
    (t.expire now).absTimeout.Deadline ∧
      (t.expire now).absTimeout.nanos = now.nanos + t.timeoutMs * 1000000 := by
  rw [Timer.expire, if_pos rearmed]
  exact timerAddAbstimeout_spec current.toNormalised current.sec sound.fits

/-- The new deadline is later than the current time. -/
theorem Timer.Sound.later {t : Timer} (sound : t.Sound now) (current : now.Current)
    (rearmed : t.Rearmed) : now.Earlier (t.expire now).absTimeout := by
  obtain ⟨deadline, nanos⟩ := sound.rearmed current rearmed
  have positive := sound.positive
  rw [Timespec.earlier_iff_nanos current.toNormalised deadline, nanos]
  omega

/-- A timer that is due does not come after one that is not. -/
theorem Timespec.not_earlier_of_due {a b : Timespec} (due : ¬ now.Earlier a)
    (waits : now.Earlier b) : ¬ b.Earlier a := by
  rw [earlier_iff] at *
  omega

/-- Where the loop is: at the first timer that is still due, and when there is none, at the
end of the list or at a timer that is not due. -/
def LoopAt (d w : List Handle) (cur : Option Handle) : Prop :=
  cur = d.head? ∨ d = [] ∧ ∃ x ∈ w, cur = some x

/-- What the loop leaves, from a list of the timers `d` that are due and the timers `w`
that are not. -/
structure Looped (now : Timespec) (d w : List Handle) (s t : State) (w' : List Handle) : Prop where
  holds : t.Holds w'
  contents : t.contents =
    (fun x => if x ∈ d then (s.timer x).expire now else s.timer x, s.contents.2)
  members : ∀ x, x ∈ w' ↔ x ∈ w ∨ x ∈ d ∧ (s.timer x).Rearmed
  sorted : ∀ le, DecidedBy le →
    w.Pairwise (fun a b => le (s.timer a).absTimeout (s.timer b).absTimeout) →
      w'.Pairwise (fun a b => le (t.timer a).absTimeout (t.timer b).absTimeout)

theorem looped_nil {w : List Handle} (linked : s.Holds w) : Looped now [] w s s w where
  holds := linked
  contents := by simp [State.contents]
  members := by simp
  sorted _ _ sorted := sorted

/-- The timers that are not due, after the turn of `cur` has led from `s` to `t`. -/
def reinsert (s t : State) (cur : Handle) (w : List Handle) : List Handle :=
  if (s.timer cur).Rearmed then w.orderedInsert (DueBefore t.timer) cur else w

theorem mem_reinsert {w : List Handle} {x : Handle} :
    x ∈ reinsert s t cur w ↔ x ∈ w ∨ x = cur ∧ (s.timer cur).Rearmed := by
  unfold reinsert
  split
  · rename_i rearmed
    rw [List.mem_orderedInsert]
    simp [rearmed, or_comm]
  · rename_i rearmed
    simp [rearmed]

theorem length_reinsert (w : List Handle) : (reinsert s t cur w).length ≤ w.length + 1 := by
  unfold reinsert
  split
  · rw [List.orderedInsert_length]
  · omega

/-- One turn, and the rest of the loop. -/
theorem Looped.cons {d w w' : List Handle} {u : State} (fresh : cur ∉ d ++ w)
    (deadlines : ∀ x ∈ w, (s.timer x).absTimeout.Deadline) (sound : (s.timer cur).Sound now)
    (current : now.Current)
    (turn : t.contents = (Function.update s.timer cur ((s.timer cur).expire now), s.contents.2))
    (rest : Looped now d (reinsert s t cur w) t u w') : Looped now (cur :: d) w s u w' := by
  have timer : t.timer = Function.update s.timer cur ((s.timer cur).expire now) :=
    State.timer_of_contents turn
  rw [List.mem_append, not_or] at fresh
  have other : ∀ x, x ≠ cur → t.timer x = s.timer x := by
    intro x apart
    rw [timer, Function.update_of_ne apart]
  have self : t.timer cur = (s.timer cur).expire now := by
    rw [timer, Function.update_self]
  have inD : ∀ x ∈ d, x ≠ cur := fun x inside same => fresh.1 (same ▸ inside)
  have inW : ∀ x ∈ w, x ≠ cur := fun x inside same => fresh.2 (same ▸ inside)
  refine ⟨rest.holds, ?_, ?_, ?_⟩
  · rw [rest.contents, turn]
    refine Prod.ext (funext fun x => ?_) rfl
    by_cases first : x = cur
    · subst first
      simp [fresh.1, self]
    · simp [first, other x first]
  · intro x
    have again : x ∈ d ∧ (t.timer x).Rearmed ↔ x ∈ d ∧ (s.timer x).Rearmed := by
      refine and_congr_right fun inside => ?_
      rw [other x (inD x inside)]
    rw [rest.members, again, mem_reinsert, List.mem_cons]
    constructor
    · rintro ((inside | ⟨rfl, rearmed⟩) | ⟨inside, rearmed⟩)
      · exact .inl inside
      · exact .inr ⟨.inl rfl, rearmed⟩
      · exact .inr ⟨.inr inside, rearmed⟩
    · rintro (inside | ⟨rfl | inside, rearmed⟩)
      · exact .inl (.inl inside)
      · exact .inl (.inr ⟨rfl, rearmed⟩)
      · exact .inr ⟨inside, rearmed⟩
  · intro le decided sorted
    apply rest.sorted le decided
    have moved : w.Pairwise (fun a b => le (t.timer a).absTimeout (t.timer b).absTimeout) := by
      refine sorted.imp_of_mem fun {a b} insideA insideB le => ?_
      rw [other a (inW a insideA), other b (inW b insideB)]
      exact le
    unfold reinsert
    split
    · rename_i rearmed
      have deadline : (t.timer cur).absTimeout.Deadline := by
        rw [self]
        exact (sound.rearmed current rearmed).1
      have deadlines : ∀ x ∈ w, (t.timer x).absTimeout.Deadline := by
        intro x inside
        rw [other x (inW x inside)]
        exact deadlines x inside
      refine pairwise_orderedInsert ?_ ?_ ?_ moved
      · exact fun a b c => decided.trans _ _ _
      · intro x inside before
        refine decided.decides _ _ deadline (deadlines x inside) ?_
        unfold DueBefore at before
        rw [Timespec.earlier_iff] at before ⊢
        omega
      · exact fun x inside => decided.decides _ _ (deadlines x inside) deadline
    · exact moved

/-- The loop's invariant: what is still due stands before what is not. -/
structure LoopInv (now : Timespec) (d w : List Handle) (s : State) : Prop where
  holds : s.Holds (d ++ w)
  sound : ∀ x ∈ d ++ w, (s.timer x).Sound now
  due : ∀ x ∈ d, ¬ now.Earlier (s.timer x).absTimeout
  waits : ∀ x ∈ w, now.Earlier (s.timer x).absTimeout

/-- **One turn keeps the invariant.**  A timer that is put in again goes behind everything
that is still due. -/
theorem LoopInv.turn {d w : List Handle} {fuel : Nat} (inv : LoopInv now (cur :: d) w s)
    (current : now.Current) (enough : (d ++ w).length ≤ fuel) :
    ∃ t, timerTimeout fuel now cur s = some (t, (firedCall s.timer cur).toList) ∧
      t.contents = (Function.update s.timer cur ((s.timer cur).expire now), s.contents.2) ∧
      LoopInv now d (reinsert s t cur w) t := by
  obtain ⟨t, turned, contents, holds⟩ := timerTimeout_spec now inv.holds enough
  refine ⟨t, turned, contents, ?_⟩
  have timer : t.timer = Function.update s.timer cur ((s.timer cur).expire now) :=
    State.timer_of_contents contents
  have fresh : cur ∉ d ++ w := (List.nodup_cons.1 inv.holds.nodup).1
  have other : ∀ x ∈ d ++ w, t.timer x = s.timer x := by
    intro x inside
    have apart : x ≠ cur := fun same => fresh (same ▸ inside)
    rw [timer, Function.update_of_ne apart]
  have soundCur := inv.sound cur List.mem_cons_self
  have self : (s.timer cur).Rearmed → (t.timer cur).Sound now ∧
      now.Earlier (t.timer cur).absTimeout := by
    intro rearmed
    rw [timer, Function.update_self]
    refine ⟨⟨(soundCur.rearmed current rearmed).1, ?_, ?_⟩, soundCur.later current rearmed⟩
    · rw [Timer.expire, if_pos rearmed]
      exact soundCur.positive
    · rw [Timer.expire, if_pos rearmed]
      exact soundCur.fits
  have due : ∀ x ∈ d, ¬ now.Earlier (t.timer x).absTimeout := by
    intro x inside
    rw [other x (List.mem_append_left w inside)]
    exact inv.due x (List.mem_cons_of_mem cur inside)
  have soundOther : ∀ x ∈ d ++ w, (t.timer x).Sound now := by
    intro x inside
    rw [other x inside]
    exact inv.sound x (List.mem_cons_of_mem cur inside)
  refine ⟨?_, ?_, due, ?_⟩
  · unfold reinsert
    split at holds
    · rename_i rearmed
      rw [if_pos rearmed, ← orderedInsert_append]
      · exact holds
      · intro x inside
        exact Timespec.not_earlier_of_due (due x inside) (self rearmed).2
    · rename_i rearmed
      rw [if_neg rearmed]
      exact holds
  · intro x inside
    rcases List.mem_append.1 inside with inside | inside
    · exact soundOther x (List.mem_append_left w inside)
    · rcases mem_reinsert.1 inside with inside | ⟨rfl, rearmed⟩
      · exact soundOther x (List.mem_append_right d inside)
      · exact (self rearmed).1
  · intro x inside
    rcases mem_reinsert.1 inside with inside | ⟨rfl, rearmed⟩
    · rw [other x (List.mem_append_right d inside)]
      exact inv.waits x inside
    · exact (self rearmed).2

/-- The saved successor is where the loop goes on. -/
theorem LoopInv.next {d w : List Handle} (inv : LoopInv now (cur :: d) w s) (t : State) :
    LoopAt d (reinsert s t cur w) (s.next cur) := by
  obtain ⟨-, next⟩ := Linked.pointers (l := []) inv.holds
  cases d with
  | cons x d => exact .inl next
  | nil =>
      cases w with
      | nil => exact .inl next
      | cons x w => exact .inr ⟨rfl, x, mem_reinsert.2 (.inl List.mem_cons_self), next⟩

/-- **The loop.**  It ends, calls the running timers that are due in their order, and
leaves the list of the others and of those put in again. -/
theorem timerLoopFrom_spec {walk : Nat} (current : now.Current) :
    ∀ (d w : List Handle) (fuel : Nat) (cur : Option Handle) (s : State),
      LoopInv now d w s → LoopAt d w cur → d.length < fuel → (d ++ w).length ≤ walk →
        ∃ t w', timerLoopFrom walk now fuel cur s = some (t, d.filterMap (firedCall s.timer)) ∧
          Looped now d w s t w'
  | _, _, 0, _, _, _, _, enough, _ => by simp at enough
  | [], w, fuel + 1, cur, s, inv, place, _, _ => by
      refine ⟨s, w, ?_, looped_nil inv.holds⟩
      rcases place with rfl | ⟨-, x, inside, rfl⟩
      · rfl
      · rw [timerLoopFrom, if_pos (timespecCompare_neg.2 (inv.waits x inside))]
        rfl
  | cur :: d, w, fuel + 1, place, s, inv, at_, enough, walks => by
      obtain rfl : place = some cur := by
        rcases at_ with same | ⟨none, -⟩
        · exact same
        · cases none
      have fresh : cur ∉ d ++ w := (List.nodup_cons.1 inv.holds.nodup).1
      obtain ⟨t, turned, contents, after⟩ := inv.turn current (Nat.le_of_succ_le walks)
      have bound : (d ++ reinsert s t cur w).length ≤ walk := by
        have longer : (reinsert s t cur w).length ≤ w.length + 1 := length_reinsert w
        simp only [List.cons_append, List.length_cons, List.length_append] at walks ⊢
        omega
      obtain ⟨u, w', ran, looped⟩ := timerLoopFrom_spec current d _ fuel (s.next cur) t after
        (inv.next t) (Nat.lt_of_succ_lt_succ enough) bound
      refine ⟨u, w', ?_, looped.cons fresh ?_ (inv.sound cur List.mem_cons_self) current contents⟩
      · have due : ¬ timespecCompare now (s.timer cur).absTimeout < 0 := by
          rw [timespecCompare_neg]
          exact inv.due cur List.mem_cons_self
        have called : d.filterMap (firedCall t.timer) = d.filterMap (firedCall s.timer) := by
          refine List.filterMap_congr fun x inside => ?_
          have apart : x ≠ cur := fun same => fresh (by simp [← same, inside])
          have same : t.timer x = s.timer x := by
            rw [State.timer_of_contents contents]
            exact Function.update_of_ne apart _ _
          simp only [firedCall, callOf, same]
        rw [timerLoopFrom, if_neg due, turned, Option.bind_some]
        dsimp only
        rw [ran, Option.map_some, called]
        cases fired : firedCall s.timer cur <;> simp [fired]
      · exact fun x inside => (inv.sound x (by simp [inside])).deadline

/-! ## The whole round -/

/-- The deadline has been reached. -/
def Due (now : Timespec) (t : Timer) : Prop := t.absTimeout.nanos ≤ now.nanos

instance (now : Timespec) (t : Timer) : Decidable (Due now t) := inferInstanceAs (Decidable (_ ≤ _))

/-- The timer is called back in this round. -/
def Fires (now : Timespec) (t : Timer) : Prop := t.status = .running ∧ Due now t

instance (now : Timespec) (t : Timer) : Decidable (Fires now t) :=
  inferInstanceAs (Decidable (_ ∧ _))

/-- The timers `l` stand in the order of their deadlines. -/
def SortedByDeadline (s : State) (l : List Handle) : Prop :=
  l.Pairwise fun a b => (s.timer a).absTimeout.nanos ≤ (s.timer b).absTimeout.nanos

/-- The same, in the order of `_timespec_compare`. -/
def SortedByCompare (s : State) (l : List Handle) : Prop :=
  l.Pairwise fun a b => ¬ (s.timer b).absTimeout.Earlier (s.timer a).absTimeout

/-- What one round makes of the list `l` of `s`: the list `l'` of `t`. -/
structure Round (now : Timespec) (s t : State) (l l' : List Handle) : Prop where
  holds : t.Holds l'
  sorted : SortedByDeadline t l'
  sortedByCompare : SortedByCompare s l → SortedByCompare t l'
  members : ∀ x, x ∈ l' ↔ x ∈ l ∧ (¬ Due now (s.timer x) ∨
    Fires now (s.timer x) ∧ (s.timer x).HasRepeatsLeft)
  /-- A fired timer with repeats left is counted, and due again after its timeout. -/
  rearmed : ∀ x ∈ l, Fires now (s.timer x) → (s.timer x).HasRepeatsLeft →
    (t.timer x).absTimeout.Deadline ∧
    (t.timer x).absTimeout.nanos = now.nanos + (s.timer x).timeoutMs * 1000000 ∧
    t.timer x = { (s.timer x).counted with absTimeout := (t.timer x).absTimeout }
  /-- A fired timer without is counted and stopped. -/
  stopped : ∀ x ∈ l, Fires now (s.timer x) → ¬ (s.timer x).HasRepeatsLeft →
    x ∉ l' ∧ t.timer x = { (s.timer x).counted with status := .stop }
  /-- A due timer that does not run is only taken out. -/
  removed : ∀ x ∈ l, Due now (s.timer x) → (s.timer x).status ≠ .running →
    x ∉ l' ∧ t.timer x = s.timer x
  waiting : ∀ x, x ∉ l ∨ ¬ Due now (s.timer x) → t.timer x = s.timer x
  globals : t.timers = s.timers ∧ t.ctrlFd = s.ctrlFd ∧ t.posted = s.posted

theorem earlier_iff_not_due {x : Timer} (current : now.Current) (sound : x.Sound now) :
    now.Earlier x.absTimeout ↔ ¬ Due now x := by
  rw [Timespec.earlier_iff_nanos current.toNormalised sound.deadline, Due, not_le]

/-- In a sorted list what is due stands before what is not. -/
theorem loopInv_of_sorted (linked : s.Holds l) (sorted : SortedByDeadline s l)
    (sound : ∀ x ∈ l, (s.timer x).Sound now) (current : now.Current) :
    ∃ d w, l = d ++ w ∧ LoopInv now d w s := by
  refine ⟨l.takeWhile fun x => Due now (s.timer x), l.dropWhile fun x => Due now (s.timer x),
    List.takeWhile_append_dropWhile.symm, ?_, ?_, ?_, ?_⟩
  · rwa [List.takeWhile_append_dropWhile]
  · rwa [List.takeWhile_append_dropWhile]
  · intro x inside
    have due : Due now (s.timer x) := by simpa using List.mem_takeWhile_imp inside
    rw [earlier_iff_not_due current (sound x ((List.takeWhile_prefix _).subset inside))]
    exact not_not.2 due
  · have sorted := sorted.sublist (List.dropWhile_sublist fun x => Due now (s.timer x))
    have sub : l.dropWhile (fun x => Due now (s.timer x)) ⊆ l := (List.dropWhile_sublist _).subset
    have first := List.head?_dropWhile_not (fun x => decide (Due now (s.timer x))) l
    generalize l.dropWhile (fun x => Due now (s.timer x)) = w at *
    intro x inside
    rw [earlier_iff_not_due current (sound x (sub inside))]
    cases w with
    | nil => cases inside
    | cons y w =>
        have late : ¬ Due now (s.timer y) := by simpa using first
        rcases List.mem_cons.1 inside with rfl | inside
        · exact late
        · have later := (List.pairwise_cons.1 sorted).1 x inside
          unfold Due at late ⊢
          omega

theorem LoopInv.due_iff {d w : List Handle} (inv : LoopInv now d w s) (current : now.Current)
    {x : Handle} (inside : x ∈ d ++ w) : Due now (s.timer x) ↔ x ∈ d := by
  have early := earlier_iff_not_due current (inv.sound x inside)
  constructor
  · intro due
    rcases List.mem_append.1 inside with inside | inside
    · exact inside
    · exact absurd due (early.1 (inv.waits x inside))
  · intro inside
    by_contra late
    exact inv.due x inside (early.2 late)

/-- The calls of a round are those of the timers that fire. -/
theorem LoopInv.calls {d w : List Handle} (inv : LoopInv now d w s) (current : now.Current) :
    d.filterMap (firedCall s.timer) =
      ((d ++ w).filter fun x => Fires now (s.timer x)).filterMap (callOf s.timer) := by
  have none : w.filter (fun x => Fires now (s.timer x)) = [] := by
    rw [List.filter_eq_nil_iff]
    intro x inside fires
    have due : Due now (s.timer x) := (of_decide_eq_true fires).2
    rw [inv.due_iff current (List.mem_append_right d inside)] at due
    exact (List.nodup_append.1 inv.holds.nodup).2.2 x due x inside rfl
  have all : d.filter (fun x => Fires now (s.timer x)) =
      d.filter (fun x => (s.timer x).status = .running) := by
    refine List.filter_congr fun x inside => ?_
    have due := (inv.due_iff current (List.mem_append_left w inside)).2 inside
    simp [Fires, due]
  rw [List.filter_append, none, List.append_nil, all, List.filterMap_filter]
  refine List.filterMap_congr fun x _ => ?_
  unfold firedCall
  split <;> simp_all

theorem Looped.round {d w l' : List Handle} (looped : Looped now d w s t l')
    (inv : LoopInv now d w s) (current : now.Current) (sorted : SortedByDeadline s (d ++ w)) :
    Round now s t (d ++ w) l' := by
  have timer : t.timer = fun x => if x ∈ d then (s.timer x).expire now else s.timer x :=
    State.timer_of_contents looped.contents
  have apart : ∀ x ∈ d, x ∉ w := fun x inD inW =>
    (List.nodup_append.1 inv.holds.nodup).2.2 x inD x inW rfl
  have due : ∀ x ∈ d ++ w, Due now (s.timer x) → x ∈ d := fun x inside =>
    (inv.due_iff current inside).1
  -- A due timer stays in the list only when it is put in again.
  have gone : ∀ x ∈ d, ¬ (s.timer x).Rearmed → x ∉ l' := by
    intro x inside not member
    rcases (looped.members x).1 member with inW | ⟨-, rearmed⟩
    · exact apart x inside inW
    · exact not rearmed
  refine ⟨looped.holds, ?_, ?_, ?_, ?_, ?_, ?_, ?_, ?_⟩
  · exact looped.sorted _ decidedBy_nanos (sorted.sublist (List.sublist_append_right d w))
  · intro sorted
    exact looped.sorted _ decidedBy_earlier (sorted.sublist (List.sublist_append_right d w))
  · intro x
    rw [looped.members, List.mem_append]
    constructor
    · rintro (inside | ⟨inside, running, again⟩)
      · refine ⟨.inr inside, .inl fun late => ?_⟩
        exact apart x (due x (List.mem_append_right d inside) late) inside
      · have reached := (inv.due_iff current (List.mem_append_left w inside)).2 inside
        exact ⟨.inl inside, .inr ⟨⟨running, reached⟩, again⟩⟩
    · rintro ⟨inside, late | ⟨⟨running, reached⟩, again⟩⟩
      · refine .inl (inside.resolve_left fun inD => late ?_)
        exact (inv.due_iff current (List.mem_append_left w inD)).2 inD
      · exact .inr ⟨due x (List.mem_append.2 inside) reached, running, again⟩
  · intro x inside fires again
    have rearmed : (s.timer x).Rearmed := ⟨fires.1, again⟩
    obtain ⟨deadline, nanos⟩ := (inv.sound x inside).rearmed current rearmed
    have after : t.timer x = (s.timer x).expire now := by
      rw [timer]
      exact if_pos (due x inside fires.2)
    rw [after]
    refine ⟨deadline, nanos, ?_⟩
    rw [Timer.expire, if_pos rearmed]
  · intro x inside fires last
    have inD := due x inside fires.2
    have not : ¬ (s.timer x).Rearmed := fun rearmed => last rearmed.2
    refine ⟨gone x inD not, ?_⟩
    rw [timer]
    simp only [if_pos inD, Timer.expire, if_neg not, if_pos fires.1]
  · intro x inside reached idle
    have inD := due x inside reached
    have not : ¬ (s.timer x).Rearmed := fun rearmed => idle rearmed.1
    refine ⟨gone x inD not, ?_⟩
    rw [timer]
    simp only [if_pos inD, Timer.expire, if_neg not, if_neg idle]
  · intro x away
    have notD : x ∉ d := by
      intro inD
      have inside := List.mem_append_left w inD
      rcases away with away | late
      · exact away inside
      · exact late ((inv.due_iff current inside).2 inD)
    rw [timer]
    exact if_neg notD
  · have globals : (t.timers, t.ctrlFd, t.posted) = (s.timers, s.ctrlFd, s.posted) :=
      congrArg Prod.snd looped.contents
    simpa using globals

theorem timerLoopOnce_spec {d w : List Handle} {fuel : Nat} (inv : LoopInv now d w s)
    (current : now.Current) (enough : (d ++ w).length < fuel) :
    ∃ t l', timerLoopOnce fuel now s = some (t, d.filterMap (firedCall s.timer)) ∧
      Looped now d w s t l' := by
  have start : LoopAt d w s.head := by
    rw [inv.holds.start]
    cases d with
    | cons x d => exact .inl rfl
    | nil =>
        cases w with
        | nil => exact .inl rfl
        | cons x w => exact .inr ⟨rfl, x, List.mem_cons_self, rfl⟩
  have few : d.length < fuel := by
    rw [List.length_append] at enough
    omega
  obtain ⟨t, l', ran, looped⟩ :=
    timerLoopFrom_spec current d w fuel s.head s inv start few enough.le
  refine ⟨t, l', ?_, looped⟩
  rw [timerLoopOnce]
  split
  · rename_i empty
    rw [empty] at ran
    rw [← ran]
    cases fuel <;> rfl
  · exact ran

/-- A timer due at the start of second 5 that repeats, and one due a second later. -/
def twoTimers : State where
  head := some 1
  ctrlFd := 3
  posted := 0
  node h := if h = 1 then ⟨⟨none, some 2⟩, ⟨⟨5, 0⟩, some 7, 1500, some 8, -1, 0, .running⟩⟩
    else ⟨⟨some 1, none⟩, ⟨⟨6, 0⟩, some 7, 3000, some 9, 1, 0, .running⟩⟩
  timers := [1, 2]

end ChargerStack.Utils.TimerList
