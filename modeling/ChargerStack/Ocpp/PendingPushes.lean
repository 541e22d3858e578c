/-
# Ocpp.PendingPushes -- how often the frame of a call is queued

`sendCall` queues the frame of a call once.  A pass of `retryTimeoutThread` selects the calls
that are due under `m_pendingMutex`; later, call by call, it looks at `finished` once more and
counts the attempt under the lock of the call, and then pushes outside of both.  What the
threads do is shown as a list of events.

* `Selected` is the invariant of the selection: a call is selected at most once at a time, has
  attempts left, and stays so until its turn, since only its own turn counts attempts;
* `Told` relates the events to the calls: the pushes of a call so far are the one of `sendCall`
  and one for each attempt counted, less the one the retry thread has decided and not made;
* `pushes_bounded`: in every run, for every call `sendCall` has accepted, the budget, the push
  before the return, the queue, and that a re-send was decided on an unfinished call.
-/
import ChargerStack.Ocpp.PendingRetry

namespace ChargerStack.Ocpp.Pending

open Cxx Rapidjson Lib

set_option autoImplicit false

variable {env : Env}

/-! ## The selection -/

/-- The calls the retry thread has selected and not looked at again. -/
def chosen (s : State) : List Nat :=
  match s.retry with
  | .scanning _ _ retryList _ => retryList
  | .resending _ todo => todo
  | .pushing _ _ todo => todo
  | _ => []

/-- The calls the pass has still to visit. -/
def unvisited (s : State) : List Nat :=
  match s.retry with
  | .scanning _ todo _ _ => todo.map Prod.snd
  | _ => []

/-- The call whose re-send is decided and not made. -/
def decidedCall (s : State) : Option Nat :=
  match s.retry with
  | .pushing _ c _ => some c
  | _ => none

/-- The caller has queued its frame. -/
def Caller.queued : Caller → Bool
  | .waiting | .returned _ => true
  | _ => false

/-- The caller has entered its call in `m_pending`. -/
def Caller.entered : Caller → Bool
  | .stamped | .armed => false
  | _ => true

/-- What every step but a `recheck` leaves of a call. -/
structure Fixed (i j : Invocation) : Prop where
  connId : j.call.connId = i.call.connId
  isTx : j.call.isTx = i.call.isTx
  raw : j.call.raw = i.call.raw
  maxRetry : j.call.maxRetry = i.call.maxRetry
  retryCount : j.call.retryCount = i.call.retryCount
  finished : i.call.finished = true → j.call.finished = true
  entered : i.caller.entered = true → j.caller.entered = true

/-- The attempts of a call are within its budget, and only transaction calls have any. -/
structure Budgeted (i : Invocation) : Prop where
  nonneg : 0 ≤ i.call.retryCount
  bounded : i.call.retryCount ≤ max 0 i.call.maxRetry
  nonTx : i.call.isTx = false → i.call.retryCount = 0

/-- An attempt is left. -/
def AttemptLeft (i : Invocation) : Prop :=
  i.call.isTx = true ∧ i.call.retryCount < i.call.maxRetry

structure Selected (s : State) : Prop where
  once : (chosen s ++ unvisited s).Nodup
  entries : (s.pending.map Prod.snd).Nodup
  entered : ∀ c ∈ s.pending.map Prod.snd, ∃ i, s.invocations[c]? = some i ∧ i.caller.entered = true
  left : ∀ c ∈ chosen s, ∃ i, s.invocations[c]? = some i ∧ AttemptLeft i
  budgeted : ∀ (c : Nat) i, s.invocations[c]? = some i → Budgeted i
  inRange : ∀ (c : Nat) i, s.invocations[c]? = some i → i.call.connId < s.connectors.length
  decided : ∀ c, decidedCall s = some c → ∃ i, s.invocations[c]? = some i ∧ 0 < i.call.retryCount

theorem selected_idle (connected : Bool) (connectors : List ConnectorContext) (clock : Int) :
    Selected (idle connected connectors clock) where
  once := List.nodup_nil
  entries := List.nodup_nil
  entered := by intro c member; cases member
  left := by intro c member; cases member
  budgeted := by intro c i found; simp [idle] at found
  inRange := by intro c i found; simp [idle] at found
  decided := by intro c impossible; cases impossible

/-- An invocation that satisfies `P` is still there after one is rewritten, and satisfies it if
the rewriting does. -/
theorem exists_set {P : Invocation → Prop} {s t : State} {c d : Nat} {i j : Invocation}
    (before : ∃ k, s.invocations[d]? = some k ∧ P k) (found : s.invocations[c]? = some i)
    (same : t.invocations = (s.set c j).invocations) (new : c = d → P i → P j) :
    ∃ k, t.invocations[d]? = some k ∧ P k := by
  obtain ⟨k, atD, holds⟩ := before
  rw [same]
  by_cases here : c = d
  · subst here
    obtain rfl := Option.some.inj (found.symm.trans atD)
    exact ⟨j, set_self found, new rfl holds⟩
  · exact ⟨k, (set_other here).trans atD, holds⟩

/-- A step that leaves the calls alone, and of the retry thread's lists drops at most some. -/
theorem Selected.frame {s t : State} (selected : Selected s)
    (invocations : t.invocations = s.invocations)
    (connectors : t.connectors.length = s.connectors.length)
    (pending : (t.pending.map Prod.snd).Sublist (s.pending.map Prod.snd))
    (lists : (chosen t ++ unvisited t).Nodup) (chosen' : ∀ c ∈ chosen t, c ∈ chosen s)
    (decided : decidedCall t = none ∨ decidedCall t = decidedCall s) : Selected t where
  once := lists
  entries := selected.entries.sublist pending
  entered := by rw [invocations]; exact fun c member => selected.entered c (pending.subset member)
  left := by rw [invocations]; exact fun c member => selected.left c (chosen' c member)
  budgeted := by rw [invocations]; exact selected.budgeted
  inRange := by rw [invocations, connectors]; exact selected.inRange
  decided := by
    intro c now
    rw [invocations]
    rcases decided with none_ | same
    · rw [none_] at now
      cases now
    · exact selected.decided c (same ▸ now)

/-- A step that rewrites one call and keeps what is fixed about it. -/
theorem Selected.set {s t : State} (selected : Selected s) {c : Nat} {i j : Invocation}
    (found : s.invocations[c]? = some i) (same : t.invocations = (s.set c j).invocations)
    (fixed : Fixed i j) (connectors : t.connectors.length = s.connectors.length)
    (pending : t.pending = s.pending) (chosen' : chosen t = chosen s)
    (lists : (chosen t ++ unvisited t).Nodup) (decided : decidedCall t = decidedCall s) :
    Selected t where
  once := lists
  entries := by rw [pending]; exact selected.entries
  entered := by
    intro d member
    rw [pending] at member
    exact exists_set (selected.entered d member) found same fun _ => fixed.entered
  left := by
    intro d member
    rw [chosen'] at member
    refine exists_set (selected.left d member) found same fun _ left => ?_
    unfold AttemptLeft
    rw [fixed.isTx, fixed.retryCount, fixed.maxRetry]
    exact left
  budgeted := by
    refine forall_set selected.budgeted found same fun budgeted => ⟨?_, ?_, ?_⟩
    · rw [fixed.retryCount]; exact budgeted.nonneg
    · rw [fixed.retryCount, fixed.maxRetry]; exact budgeted.bounded
    · rw [fixed.retryCount, fixed.isTx]; exact budgeted.nonTx
  inRange := by
    rw [connectors]
    refine forall_set selected.inRange found same fun inRange => ?_
    rw [fixed.connId]
    exact inRange
  decided := by
    intro d now
    rw [decided] at now
    refine exists_set (selected.decided d now) found same fun _ counted => ?_
    rw [fixed.retryCount]
    exact counted

/-- A new call has no attempt behind it. -/
theorem Selected.enter {s : State} (selected : Selected s) (r : Request)
    (inRange : r.connId < s.connectors.length) :
    Selected { s with invocations := s.invocations ++ [⟨newCall env s.clock r, .stamped⟩] } where
  once := selected.once
  entries := selected.entries
  entered := by
    intro c member
    obtain ⟨i, found, entered⟩ := selected.entered c member
    exact ⟨i, getElem?_old found, entered⟩
  left := by
    intro c member
    obtain ⟨i, found, left⟩ := selected.left c member
    exact ⟨i, getElem?_old found, left⟩
  budgeted := by
    intro c i found
    rcases getElem?_snoc found with old | ⟨-, rfl⟩
    · exact selected.budgeted c i old
    · exact ⟨Int.le_refl 0, Int.le_max_left _ _, fun _ => rfl⟩
  inRange := by
    intro c i found
    rcases getElem?_snoc found with old | ⟨-, rfl⟩
    · exact selected.inRange c i old
    · exact inRange
  decided := by
    intro c now
    obtain ⟨i, found, counted⟩ := selected.decided c now
    exact ⟨i, getElem?_old found, counted⟩

/-- The call enters the map, which does not hold it yet. -/
theorem Selected.publish {s : State} (selected : Selected s) {c : Nat} {call : PendingCall}
    (found : s.invocations[c]? = some ⟨call, .armed⟩) :
    Selected { s.set c ⟨call, .published⟩ with
      pending := (s.pending.filter (·.1 ≠ call.uniqueId)) ++ [(call.uniqueId, c)] } := by
  have rewritten : Selected (s.set c ⟨call, .published⟩) :=
    selected.set found rfl ⟨rfl, rfl, rfl, rfl, rfl, id, fun _ => rfl⟩ rfl rfl rfl selected.once rfl
  have kept : ((s.pending.filter (·.1 ≠ call.uniqueId)).map Prod.snd).Sublist
      (s.pending.map Prod.snd) := List.filter_sublist.map _
  refine ⟨rewritten.once, ?_, ?_, rewritten.left, rewritten.budgeted, rewritten.inRange,
    rewritten.decided⟩
  · rw [List.map_append, List.nodup_append]
    refine ⟨selected.entries.sublist kept, by simp, ?_⟩
    intro d inside e new
    rintro rfl
    obtain rfl := List.mem_singleton.1 new
    obtain ⟨i, atC, entered⟩ := selected.entered _ (kept.subset inside)
    obtain rfl := Option.some.inj (found.symm.trans atC)
    cases entered
  · intro d member
    rw [List.map_append, List.mem_append] at member
    rcases member with old | new
    · exact rewritten.entered d (kept.subset old)
    · obtain rfl := List.mem_singleton.1 new
      exact ⟨_, set_self found, rfl⟩

/-- A call is chosen while it has an attempt left. -/
theorem Selected.choose {s : State} (selected : Selected s) {now : Int} {uid : String} {c : Nat}
    {todo : List (String × Nat)} {retryList : List Nat} {eraseList : List String}
    {call : PendingCall} {caller : Caller}
    (scanning : s.retry = .scanning now ((uid, c) :: todo) retryList eraseList)
    (found : s.invocations[c]? = some ⟨call, caller⟩) (due : call.retryDue now = true) :
    Selected { s with retry := .scanning now todo (retryList ++ [c]) eraseList } where
  once := by
    have once := selected.once
    simp only [chosen, unvisited, scanning, List.map_cons] at once ⊢
    rwa [List.append_assoc]
  entries := selected.entries
  entered := selected.entered
  left := by
    intro d member
    rcases List.mem_append.1 member with old | new
    · exact selected.left d (by simpa [chosen, scanning] using old)
    · obtain rfl := List.mem_singleton.1 new
      simp only [PendingCall.retryDue, Bool.and_eq_true, decide_eq_true_eq] at due
      exact ⟨_, found, due.1.1, due.2⟩
  budgeted := selected.budgeted
  inRange := selected.inRange
  decided := by intro d impossible; cases impossible

/-- The turn of a chosen call: the one step that counts an attempt. -/
theorem Selected.count {s : State} (selected : Selected s) {now : Int} {c : Nat} {todo : List Nat}
    {call : PendingCall} {caller : Caller} (resending : s.retry = .resending now (c :: todo))
    (found : s.invocations[c]? = some ⟨call, caller⟩) :
    Selected { s.set c ⟨call.rearm now, caller⟩ with retry := .pushing now c todo } := by
  have once := selected.once
  simp only [chosen, unvisited, resending, List.append_nil, List.nodup_cons] at once
  obtain ⟨i, atC, isTx, attempts⟩ := selected.left c (by simp [chosen, resending])
  obtain rfl := Option.some.inj (found.symm.trans atC)
  have budgeted := selected.budgeted c _ found
  have nonneg := budgeted.nonneg
  constructor
  · simpa [chosen, unvisited] using once.2
  · exact selected.entries
  · intro d member
    exact exists_set (selected.entered d member) found rfl fun _ entered => entered
  · intro d member
    have member : d ∈ todo := member
    refine exists_set (selected.left d (by simp [chosen, resending, member])) found rfl ?_
    -- The calls behind it are others.
    rintro rfl
    exact absurd member once.1
  · refine forall_set selected.budgeted found rfl fun _ => ⟨?_, ?_, ?_⟩
    · show 0 ≤ call.retryCount + 1
      simp only at nonneg
      omega
    · show call.retryCount + 1 ≤ max 0 call.maxRetry
      simp only at attempts
      omega
    · intro nonTx
      exact absurd (isTx.symm.trans nonTx) (by decide)
  · exact forall_set selected.inRange found rfl id
  · intro d now'
    obtain rfl : c = d := Option.some.inj now'
    refine ⟨_, set_self found, ?_⟩
    show 0 < call.retryCount + 1
    simp only at nonneg
    omega

/-- The guards of `sendCall`. -/
def accepts (env : Env) (s : State) (r : Request) : Bool :=
  s.connected && env.validateRequest r.action r.reqPayload && decide (r.connId < s.connectors.length)

/-- A request that is not accepted changes nothing. -/
theorem step_enter {s t : State} {r : Request} (moved : step env s (.enter r) = some t) :
    accepts env s r = false ∧ t = s ∨ accepts env s r = true ∧
      t = { s with invocations := s.invocations ++ [⟨newCall env s.clock r, .stamped⟩] } := by
  simp only [step] at moved
  split at moved
  · rename_i rejected
    cases moved
    exact .inl ⟨by unfold accepts; grind, rfl⟩
  · rename_i passed
    split at moved
    · cases moved
    · cases moved
      exact .inr ⟨by unfold accepts; grind, rfl⟩

theorem Selected.step {s t : State} {l : Label} (selected : Selected s)
    (moved : step env s l = some t) : Selected t := by
  have once := selected.once
  cases step_moves moved with
  | enter r fresh =>
      rcases step_enter moved with ⟨-, same⟩ | ⟨accepted, -⟩
      · rw [same]
        exact selected
      · simp only [accepts, Bool.and_eq_true, decide_eq_true_eq] at accepted
        exact selected.enter r accepted.2
  | publish found => exact selected.publish found
  | arm found | push found | answered found | refused found | complete handling found =>
      exact selected.set found rfl ⟨rfl, rfl, rfl, rfl, rfl, by simp, by simp [Caller.entered]⟩
        (by simp [State.enqueue, State.set]) rfl rfl once rfl
  | visitRetry scanning found unfinished due => exact selected.choose scanning found due
  | recheck resending found => exact selected.count resending found
  | passStart sleeping =>
      exact selected.frame rfl rfl (List.Sublist.refl _) List.nodup_nil (by simp [chosen]) (.inl rfl)
  | passLock clocked perm =>
      refine selected.frame rfl rfl (List.Sublist.refl _) ?_ (by simp [chosen]) (.inl rfl)
      exact (perm.map Prod.snd).nodup_iff.2 selected.entries
  | visitFinished scanning | visitKept scanning =>
      simp only [chosen, unvisited, scanning, List.map_cons] at once
      refine selected.frame rfl rfl (List.Sublist.refl _) ?_ (by simp [chosen, scanning]) (.inl rfl)
      exact once.sublist (List.Sublist.append_left (List.sublist_cons_self _ _) _)
  | visitExpired scanning found =>
      simp only [chosen, unvisited, scanning, List.map_cons] at once
      refine selected.set found rfl ⟨rfl, rfl, rfl, rfl, rfl, fun _ => rfl, id⟩ rfl rfl
        (by simp [chosen, scanning]) ?_ (by simp [decidedCall, scanning])
      exact once.sublist (List.Sublist.append_left (List.sublist_cons_self _ _) _)
  | passErase scanning =>
      simp only [chosen, unvisited, scanning] at once
      refine selected.frame rfl rfl (List.filter_sublist.map _) ?_ (by simp [chosen, scanning]) (.inl rfl)
      exact once
  | recheckFinished resending =>
      simp only [chosen, unvisited, resending, List.append_nil, List.nodup_cons] at once
      exact selected.frame rfl rfl (List.Sublist.refl _) (by simpa [chosen, unvisited] using once.2)
        (by simp +contextual [chosen, resending]) (.inl rfl)
  | repush pushing | repushNowhere pushing =>
      simp only [chosen, unvisited, pushing] at once
      exact selected.frame rfl (by simp [State.enqueue]) (List.Sublist.refl _) once
        (by simp [chosen, pushing]) (.inl rfl)
  | passEnd =>
      exact selected.frame rfl rfl (List.Sublist.refl _) List.nodup_nil (by simp [chosen]) (.inl rfl)
  | send found popped =>
      exact selected.frame rfl List.length_set (List.Sublist.refl _) once (fun _ m => m) (.inr rfl)
  | _ => exact selected.frame rfl rfl (List.Sublist.refl _) once (fun _ m => m) (.inr rfl)

/-! ## What a run shows -/

inductive Event where
  /-- `sendCall` has let a request pass, as the call `c`. -/
  | accepted (c : Nat) (r : Request)
  /-- A frame is pushed for the call `c`: into which queue, and whether by the retry thread. -/
  | queued (c : Nat) (again : Bool) (connId : Nat) (isTx : Bool) (raw : String)
  /-- The retry thread has looked at the call once more and counted an attempt. -/
  | decided (c : Nat)
  | finished (c : Nat)
  /-- The `sendCall` of the call returns. -/
  | returned (c : Nat)

/-- What a step shows, read at the state before it. -/
def shows (env : Env) (s : State) : Label → Option Event
  | .enter r => if accepts env s r then some (.accepted s.invocations.length r) else none
  | .push c => s.invocations[c]?.map fun i =>
      .queued c false i.call.connId i.call.isTx i.call.raw
  | .wake c => some (.returned c)
  | .complete n =>
      match s.handlers[n]? with
      | some h =>
          if (s.invocations[h.ref]?.map (·.call.finished)) = some false then some (.finished h.ref)
          else none
      | none => none
  | .visit =>
      match s.retry with
      | .scanning now ((_, c) :: _) _ _ =>
          match s.invocations[c]? with
          | some i =>
              if ¬ i.call.finished ∧ ¬ i.call.retryDue now ∧ i.call.expireAt ≤ now then
                some (.finished c)
              else none
          | none => none
      | _ => none
  | .recheck =>
      match s.retry with
      | .resending _ (c :: _) =>
          if (s.invocations[c]?.map (·.call.finished)) = some false then some (.decided c) else none
      | _ => none
  | .repush =>
      match s.retry with
      | .pushing _ c _ =>
          match s.invocations[c]? with
          | some i =>
              if i.call.connId < s.connectors.length then
                some (.queued c true i.call.connId true i.call.raw)
              else none
          | none => none
      | _ => none
  | _ => none

/-- The pushes of a call, in order: the connector, the queue and the frame. -/
def sends (c : Nat) (es : List Event) : List (Nat × Bool × String) :=
  es.filterMap fun
    | .queued d _ connId isTx raw => if d = c then some (connId, isTx, raw) else none
    | _ => none

def Event.isResend : Event → Bool
  | .queued _ again _ _ _ => again
  | _ => false

/-- The attempt at the call `c` that the retry thread has decided last: the call was unfinished,
and no re-send has come since. -/
def DecidedLast (c : Nat) (es : List Event) : Prop :=
  ∃ earlier later, es = earlier ++ .decided c :: later ∧ .finished c ∉ earlier ∧
    ∀ e ∈ later, e.isResend = false

/-- Every re-send was decided for its own, while the call was unfinished. -/
def ResendsDecided : List Event → Prop :=
  Each fun before e => ∀ c connId isTx raw, e = .queued c true connId isTx raw →
    DecidedLast c before

/-- Only the push of `sendCall` and that of the retry thread show a push. -/
theorem shows_queued {s : State} {l : Label} {c connId : Nat} {again isTx : Bool} {raw : String}
    (shown : shows env s l = some (.queued c again connId isTx raw)) :
    l = .push c ∨ l = .repush := by
  cases l with
  | push d =>
      obtain ⟨i, found, same⟩ := Option.map_eq_some_iff.1 shown
      cases same
      exact .inl rfl
  | repush => exact .inr rfl
  | _ => simp only [shows] at shown; grind

/-- **A step changes the queues exactly as its event says**, the send threads apart. -/
theorem connectors_step {s t : State} {l : Label} (moved : step env s l = some t)
    (sender : ∀ connId, l ≠ .send connId) :
    t.connectors =
      match shows env s l with
      | some (.queued _ _ connId isTx raw) => (s.enqueue connId isTx raw).connectors
      | _ => s.connectors := by
  have quiet : (∀ c, l ≠ .push c) → l ≠ .repush → t.connectors = s.connectors →
      t.connectors =
        match shows env s l with
        | some (.queued _ _ connId isTx raw) => (s.enqueue connId isTx raw).connectors
        | _ => s.connectors := by
    intro noPush noRepush same
    split
    · rcases shows_queued ‹_› with push | repush
      · exact absurd push (noPush _)
      · exact absurd repush noRepush
    · exact same
  cases step_moves moved with
  | push found => simp [shows, found, State.enqueue, State.set]
  | repush pushing found inRange => simp [shows, pushing, found, inRange]
  | repushNowhere pushing found outside => simp [shows, pushing, found, Nat.not_lt.2 outside]
  | send => exact absurd rfl (sender _)
  | _ => exact quiet (by simp) (by simp) rfl

/-! ## The account -/

/-- What the call of a request is, whatever happens to it. -/
def Carries (env : Env) (r : Request) (i : Invocation) : Prop :=
  i.call.connId = r.connId ∧ i.call.isTx = r.isTx ∧
    i.call.raw = callText env.toLinked r.uniqueId r.action r.reqPayload ∧
    i.call.maxRetry = int32 env.transactionMessageAttempts

theorem carries_newCall (now : Int) (r : Request) (caller : Caller) :
    Carries env r ⟨newCall env now r, caller⟩ := by
  simp [Carries, newCall]

structure Told (env : Env) (es : List Event) (s : State) : Prop where
  accepted : ∀ c r, .accepted c r ∈ es → ∃ i, s.invocations[c]? = some i ∧ Carries env r i
  sends : ∀ c, ∀ p ∈ sends c es, ∃ i, s.invocations[c]? = some i ∧
    p = (i.call.connId, i.call.isTx, i.call.raw)
  count : ∀ (c : Nat) i, s.invocations[c]? = some i →
    ((Pending.sends c es).length : Int) + (if decidedCall s = some c then 1 else 0) =
      (if i.caller.queued then 1 else 0) + i.call.retryCount
  returned : ∀ c, .returned c ∈ es → ∃ i, s.invocations[c]? = some i ∧ i.caller.queued = true
  finished : ∀ c, .finished c ∈ es → ∃ i, s.invocations[c]? = some i ∧ i.call.finished = true
  decided : ∀ c, decidedCall s = some c → DecidedLast c es
  resends : ResendsDecided es

theorem told_idle (connected : Bool) (connectors : List ConnectorContext) (clock : Int) :
    Told env [] (idle connected connectors clock) where
  accepted := by intro c r member; cases member
  sends := by intro c p member; cases member
  count := by intro c i found; simp [idle] at found
  returned := by intro c member; cases member
  finished := by intro c member; cases member
  decided := by intro c impossible; cases impossible
  resends := each_nil _

section Account

variable {s t : State} {es : List Event} {c d : Nat} {e : Event}

@[simp] theorem sends_append {fs : List Event} : sends c (es ++ fs) = sends c es ++ sends c fs :=
  List.filterMap_append ..

@[simp] theorem sends_singleton : sends c [e] =
    match e with
    | .queued d _ connId isTx raw => if d = c then [(connId, isTx, raw)] else []
    | _ => [] := by
  cases e <;> simp [sends]
  split <;> simp_all

theorem DecidedLast.snoc (decided : DecidedLast c es) (calm : e.isResend = false) :
    DecidedLast c (es ++ [e]) := by
  obtain ⟨earlier, later, rfl, unfinished, none_⟩ := decided
  refine ⟨earlier, later ++ [e], by simp, unfinished, ?_⟩
  intro f member
  rcases List.mem_append.1 member with old | new
  · exact none_ f old
  · obtain rfl := List.mem_singleton.1 new
    exact calm

/-- A step that leaves the calls and the decision alone. -/
theorem Told.frame (told : Told env es s) (invocations : t.invocations = s.invocations)
    (decided : decidedCall t = decidedCall s) : Told env es t where
  accepted := by rw [invocations]; exact told.accepted
  sends := by rw [invocations]; exact told.sends
  count := by rw [invocations, decided]; exact told.count
  returned := by rw [invocations]; exact told.returned
  finished := by rw [invocations]; exact told.finished
  decided := by rw [decided]; exact told.decided
  resends := told.resends

/-- A step that rewrites one call, and neither queues it nor counts an attempt. -/
theorem Told.set {i j : Invocation} (told : Told env es s) (found : s.invocations[c]? = some i)
    (same : t.invocations = (s.set c j).invocations) (fixed : Fixed i j)
    (queued : j.caller.queued = i.caller.queued) (decided : decidedCall t = decidedCall s) :
    Told env es t where
  accepted := by
    intro d r member
    refine exists_set (told.accepted d r member) found same fun _ carries => ?_
    unfold Carries
    rw [fixed.connId, fixed.isTx, fixed.raw, fixed.maxRetry]
    exact carries
  sends := by
    intro d p member
    refine exists_set (told.sends d p member) found same fun _ equal => ?_
    rw [fixed.connId, fixed.isTx, fixed.raw]
    exact equal
  count := by
    intro d k atD
    rw [same] at atD
    rw [decided]
    by_cases here : c = d
    · subst here
      obtain rfl := Option.some.inj ((set_self found).symm.trans atD)
      rw [queued, fixed.retryCount]
      exact told.count c i found
    · exact told.count d k ((set_other here).symm.trans atD)
  returned := by
    intro d member
    exact exists_set (told.returned d member) found same fun _ was => queued.trans was
  finished := by
    intro d member
    exact exists_set (told.finished d member) found same fun _ => fixed.finished
  decided := by rw [decided]; exact told.decided
  resends := told.resends

/-- An event that is no push: what it says holds of the state. -/
theorem Told.snoc (told : Told env es s) (noPush : ∀ c, Pending.sends c [e] = [])
    (calm : e.isResend = false)
    (accepted : ∀ c r, e = .accepted c r → ∃ i, s.invocations[c]? = some i ∧ Carries env r i)
    (returned : ∀ c, e = .returned c →
      ∃ i, s.invocations[c]? = some i ∧ i.caller.queued = true)
    (finished : ∀ c, e = .finished c →
      ∃ i, s.invocations[c]? = some i ∧ i.call.finished = true) :
    Told env (es ++ [e]) s where
  accepted := by
    intro c r member
    rcases List.mem_append.1 member with old | new
    · exact told.accepted c r old
    · exact accepted c r (List.mem_singleton.1 new).symm
  sends := by
    intro c p member
    rw [sends_append, noPush, List.append_nil] at member
    exact told.sends c p member
  count := by
    intro c i found
    rw [sends_append, noPush, List.append_nil]
    exact told.count c i found
  returned := by
    intro c member
    rcases List.mem_append.1 member with old | new
    · exact told.returned c old
    · exact returned c (List.mem_singleton.1 new).symm
  finished := by
    intro c member
    rcases List.mem_append.1 member with old | new
    · exact told.finished c old
    · exact finished c (List.mem_singleton.1 new).symm
  decided := fun c now => (told.decided c now).snoc calm
  resends := by
    refine each_snoc.2 ⟨told.resends, fun c connId isTx raw same => ?_⟩
    subst same
    cases calm

/-- A call that is not there has not been pushed. -/
theorem Told.sends_nil (told : Told env es s) (absent : s.invocations[c]? = none) :
    Pending.sends c es = [] := by
  refine List.eq_nil_iff_forall_not_mem.2 fun p member => ?_
  obtain ⟨i, found, -⟩ := told.sends c p member
  rw [absent] at found
  cases found

/-- `sendCall` queues its frame. -/
theorem Told.push {call : PendingCall} (told : Told env es s)
    (found : s.invocations[c]? = some ⟨call, .published⟩)
    (invocations : t.invocations = (s.set c ⟨call, .waiting⟩).invocations)
    (decided : decidedCall t = decidedCall s) :
    Told env (es ++ [.queued c false call.connId call.isTx call.raw]) t where
  accepted := by
    intro d r member
    have member : .accepted d r ∈ es := by simpa using member
    exact exists_set (told.accepted d r member) found invocations fun _ carries => carries
  sends := by
    intro d p member
    rw [sends_append, List.mem_append, sends_singleton] at member
    rcases member with old | new
    · exact exists_set (told.sends d p old) found invocations fun _ equal => equal
    · simp only [List.mem_ite_nil_right, List.mem_singleton] at new
      obtain ⟨rfl, rfl⟩ := new
      exact ⟨_, invocations ▸ set_self found, rfl⟩
  count := by
    intro d k atD
    rw [invocations] at atD
    rw [decided, sends_append, sends_singleton]
    by_cases here : c = d
    · subst here
      obtain rfl := Option.some.inj ((set_self found).symm.trans atD)
      have count := told.count c _ found
      simp only [Caller.queued, Bool.false_eq_true, if_false, if_true, List.length_append,
        List.length_singleton] at count ⊢
      push_cast
      omega
    · have count := told.count d k ((set_other here).symm.trans atD)
      simpa [here] using count
  returned := by
    intro d member
    have member : .returned d ∈ es := by simpa using member
    exact exists_set (told.returned d member) found invocations fun _ _ => rfl
  finished := by
    intro d member
    have member : .finished d ∈ es := by simpa using member
    exact exists_set (told.finished d member) found invocations fun _ finished => finished
  decided := by
    rw [decided]
    exact fun d now => (told.decided d now).snoc rfl
  resends := each_snoc.2 ⟨told.resends, fun _ _ _ _ impossible => nomatch impossible⟩

/-- The retry thread counts an attempt at an unfinished call. -/
theorem Told.attempt {call : PendingCall} {caller : Caller} {now : Int} {todo : List Nat}
    (told : Told env es s) (found : s.invocations[c]? = some ⟨call, caller⟩)
    (unfinished : call.finished = false) (undecided : decidedCall s = none) :
    Told env (es ++ [.decided c])
      { s.set c ⟨call.rearm now, caller⟩ with retry := .pushing now c todo } where
  accepted := by
    intro d r member
    have member : .accepted d r ∈ es := by simpa using member
    exact exists_set (told.accepted d r member) found rfl fun _ carries => carries
  sends := by
    intro d p member
    have member : p ∈ Pending.sends d es := by simpa using member
    exact exists_set (told.sends d p member) found rfl fun _ equal => equal
  count := by
    intro d k atD
    rw [sends_append, sends_singleton, List.append_nil]
    show _ + (if some c = some d then (1 : Int) else 0) = _
    by_cases here : c = d
    · subst here
      obtain rfl := Option.some.inj ((set_self found).symm.trans atD)
      have count := told.count c _ found
      rw [undecided] at count
      simp only [reduceCtorEq, if_false, if_true, PendingCall.rearm] at count ⊢
      omega
    · have count := told.count d k ((set_other here).symm.trans atD)
      simpa [here, undecided] using count
  returned := by
    intro d member
    have member : .returned d ∈ es := by simpa using member
    exact exists_set (told.returned d member) found rfl fun _ queued => queued
  finished := by
    intro d member
    have member : .finished d ∈ es := by simpa using member
    exact exists_set (told.finished d member) found rfl fun _ finished => finished
  decided := by
    intro d now
    obtain rfl : c = d := Option.some.inj now
    refine ⟨es, [], rfl, fun member => ?_, by simp⟩
    obtain ⟨i, atC, finished⟩ := told.finished c member
    obtain rfl := Option.some.inj (found.symm.trans atC)
    rw [unfinished] at finished
    cases finished
  resends := each_snoc.2 ⟨told.resends, fun _ _ _ _ impossible => nomatch impossible⟩

/-- The retry thread makes the push it has decided. -/
theorem Told.resend {i : Invocation} (told : Told env es s)
    (decided : decidedCall s = some c) (found : s.invocations[c]? = some i)
    (isTx : i.call.isTx = true) (invocations : t.invocations = s.invocations)
    (done : decidedCall t = none) :
    Told env (es ++ [.queued c true i.call.connId true i.call.raw]) t where
  accepted := by
    intro d r member
    rw [invocations]
    exact told.accepted d r (by simpa using member)
  sends := by
    intro d p member
    rw [invocations]
    rw [sends_append, List.mem_append, sends_singleton] at member
    rcases member with old | new
    · exact told.sends d p old
    · simp only [List.mem_ite_nil_right, List.mem_singleton] at new
      obtain ⟨rfl, rfl⟩ := new
      exact ⟨i, found, by rw [isTx]⟩
  count := by
    intro d k atD
    rw [invocations] at atD
    have count := told.count d k atD
    rw [decided] at count
    rw [done, sends_append, sends_singleton]
    by_cases here : c = d
    · subst here
      simp only [if_true, reduceCtorEq, if_false, List.length_append, List.length_singleton] at count ⊢
      push_cast
      omega
    · simpa [here] using count
  returned := by
    intro d member
    rw [invocations]
    exact told.returned d (by simpa using member)
  finished := by
    intro d member
    rw [invocations]
    exact told.finished d (by simpa using member)
  decided := by
    intro d now
    rw [done] at now
    cases now
  resends := by
    refine each_snoc.2 ⟨told.resends, fun d connId isTx raw same => ?_⟩
    cases same
    exact told.decided c decided

/-- A new call is pushed to nowhere yet. -/
theorem Told.enter (told : Told env es s) (selected : Selected s) (r : Request) :
    Told env (es ++ [.accepted s.invocations.length r])
      { s with invocations := s.invocations ++ [⟨newCall env s.clock r, .stamped⟩] } := by
  have old : ∀ {P : Invocation → Prop} {c : Nat}, (∃ i, s.invocations[c]? = some i ∧ P i) →
      ∃ i, (s.invocations ++ [⟨newCall env s.clock r, .stamped⟩])[c]? = some i ∧ P i := by
    rintro P c ⟨i, found, holds⟩
    exact ⟨i, getElem?_old found, holds⟩
  have grown : Told env es
      { s with invocations := s.invocations ++ [⟨newCall env s.clock r, .stamped⟩] } := by
    refine ⟨fun c r member => old (told.accepted c r member),
      fun c p member => old (told.sends c p member), ?_,
      fun c member => old (told.returned c member), fun c member => old (told.finished c member),
      told.decided, told.resends⟩
    intro c i found
    rcases getElem?_snoc found with before | ⟨rfl, rfl⟩
    · exact told.count c i before
    · have absent : s.invocations[s.invocations.length]? = none := List.getElem?_eq_none (Nat.le_refl _)
      have undecided : decidedCall s ≠ some s.invocations.length := by
        intro now
        obtain ⟨i, found, -⟩ := selected.decided _ now
        rw [absent] at found
        cases found
      show ((Pending.sends _ es).length : Int) +
        (if decidedCall s = some s.invocations.length then 1 else 0) = _
      rw [told.sends_nil absent, if_neg undecided]
      rfl
  refine grown.snoc (by simp) rfl ?_ (by simp) (by simp)
  intro c q same
  cases same
  exact ⟨⟨newCall env s.clock r, .stamped⟩, by simp, carries_newCall s.clock r .stamped⟩

end Account

/-- A visit finishes the call it finds expired, or leaves the calls alone. -/
theorem step_visit {s t : State} (moved : step env s .visit = some t) :
    decidedCall s = none ∧ decidedCall t = none ∧
      (shows env s .visit = none ∧ t.invocations = s.invocations ∨
        ∃ c call caller, shows env s .visit = some (.finished c) ∧
          s.invocations[c]? = some ⟨call, caller⟩ ∧
          t.invocations =
            (s.set c ⟨{ call with finished := true, success := false }, caller⟩).invocations) := by
  simp only [step] at moved
  split at moved
  · rename_i now uid c todo retryList eraseList scanning
    refine ⟨by simp [decidedCall, scanning], ?_⟩
    split at moved
    · cases moved
    · rename_i call caller found
      split at moved
      · rename_i finished
        cases moved
        exact ⟨rfl, .inl ⟨by simp [shows, scanning, found, finished], rfl⟩⟩
      · rename_i unfinished
        split at moved
        · rename_i due
          cases moved
          exact ⟨rfl, .inl ⟨by simp [shows, scanning, found, due], rfl⟩⟩
        · rename_i notDue
          split at moved
          · rename_i expired
            cases moved
            refine ⟨rfl, .inr ⟨c, call, caller, ?_, found, rfl⟩⟩
            simp [shows, scanning, found, unfinished, notDue, expired]
          · rename_i early
            cases moved
            exact ⟨rfl, .inl ⟨by simp [shows, scanning, found, early], rfl⟩⟩
  · cases moved

/-- A turn of the retry thread passes over a finished call and decides on another. -/
theorem step_recheck {s t : State} (moved : step env s .recheck = some t) :
    ∃ now c todo, s.retry = .resending now (c :: todo) ∧
      (shows env s .recheck = none ∧ t = { s with retry := .resending now todo } ∨
        ∃ call caller, shows env s .recheck = some (.decided c) ∧
          s.invocations[c]? = some ⟨call, caller⟩ ∧ call.finished = false ∧
          t = { s.set c ⟨call.rearm now, caller⟩ with retry := .pushing now c todo }) := by
  simp only [step] at moved
  split at moved
  · rename_i now c todo resending
    refine ⟨now, c, todo, resending, ?_⟩
    split at moved
    · cases moved
    · rename_i call caller found
      split at moved
      · rename_i finished
        cases moved
        exact .inl ⟨by simp [shows, resending, found, finished], rfl⟩
      · rename_i unfinished
        cases moved
        have unfinished : call.finished = false := Bool.eq_false_iff.2 unfinished
        exact .inr ⟨call, caller, by simp [shows, resending, found, unfinished], found, unfinished,
          rfl⟩
  · cases moved

/-- One step of any thread. -/
theorem Told.step {s t : State} {l : Label} {es : List Event} (told : Told env es s)
    (selected : Selected s) (moved : Pending.step env s l = some t) :
    Told env (es ++ (shows env s l).toList) t := by
  have silent : shows env s l = none → Told env es t → Told env (es ++ (shows env s l).toList) t := by
    intro none_ after
    rw [none_]
    simpa using after
  cases l with
  | enter r =>
      rcases step_enter moved with ⟨rejected, rfl⟩ | ⟨accepted, rfl⟩
      · exact silent (by simp [shows, rejected]) told
      · have shown : shows env s (.enter r) = some (.accepted s.invocations.length r) := by
          simp [shows, accepted]
        rw [shown]
        exact told.enter selected r
  | visit =>
      obtain ⟨before, after, ⟨shown, same⟩ | ⟨c, call, caller, shown, found, same⟩⟩ := step_visit moved
      · exact silent shown (told.frame same (after.trans before.symm))
      · rw [shown]
        refine (told.set found same ⟨rfl, rfl, rfl, rfl, rfl, fun _ => rfl, id⟩ rfl
          (after.trans before.symm)).snoc (by simp) rfl (by simp) (by simp) ?_
        rintro d ⟨⟩
        exact ⟨_, same ▸ set_self found, rfl⟩
  | recheck =>
      obtain ⟨now, c, todo, resending, ⟨shown, rfl⟩ | ⟨call, caller, shown, found, unfinished, rfl⟩⟩ :=
        step_recheck moved
      · exact silent shown (told.frame rfl (by simp [decidedCall, resending]))
      · rw [shown]
        exact told.attempt found unfinished (by simp [decidedCall, resending])
  | push c =>
      cases step_moves moved with
      | @push _ call found =>
          have shown : shows env s (.push c) =
              some (.queued c false call.connId call.isTx call.raw) := by
            simp [shows, found]
          rw [shown]
          exact told.push found rfl rfl
  | wake c =>
      have returned : ∀ {call : PendingCall} {rsp : Option Value},
          s.invocations[c]? = some ⟨call, .waiting⟩ →
          Told env (es ++ [.returned c]) (s.set c ⟨call, .returned rsp⟩) := by
        intro call rsp found
        have after : Told env es (s.set c ⟨call, .returned rsp⟩) :=
          told.set found rfl ⟨rfl, rfl, rfl, rfl, rfl, id, fun _ => rfl⟩ rfl rfl
        refine after.snoc (e := .returned c) (by simp) rfl (by simp) ?_ (by simp)
        rintro d ⟨⟩
        exact ⟨_, set_self found, rfl⟩
      cases step_moves moved with
      | answered found => exact returned found
      | refused found => exact returned found
  | complete n =>
      cases step_moves moved with
      | duplicate handling found finished =>
          exact silent (by simp [shows, handling, found, finished]) (told.frame rfl rfl)
      | @complete _ h call caller handling found unfinished =>
          have shown : shows env s (.complete n) = some (.finished h.ref) := by
            simp [shows, handling, found, unfinished]
          rw [shown]
          have after : Told env es (State.set { s with handlers := s.handlers.eraseIdx n } h.ref
              ⟨{ call with
                  finished := true
                  success := decide (h.message.type = .callResult)
                  response := h.text }, caller⟩) :=
            told.set found rfl ⟨rfl, rfl, rfl, rfl, rfl, fun _ => rfl, id⟩ rfl rfl
          refine after.snoc (e := .finished h.ref) (by simp) rfl (by simp) (by simp) ?_
          rintro d ⟨⟩
          exact ⟨_, set_self (s := { s with handlers := s.handlers.eraseIdx n }) found, rfl⟩
  | repush =>
      cases step_moves moved with
      | @repush now c todo call caller pushing found inRange =>
          have decided : decidedCall s = some c := by simp [decidedCall, pushing]
          have shown : shows env s .repush = some (.queued c true call.connId true call.raw) := by
            simp [shows, pushing, found, inRange]
          rw [shown]
          refine told.resend (i := ⟨call, caller⟩) decided found ?_ rfl rfl
          -- Only a transaction call has an attempt behind it.
          obtain ⟨i, atC, counted⟩ := selected.decided c decided
          obtain rfl := Option.some.inj (found.symm.trans atC)
          by_contra nonTx
          have none_ := (selected.budgeted c _ found).nonTx (Bool.eq_false_iff.2 nonTx)
          omega
      | repushNowhere pushing found outside =>
          exact absurd (selected.inRange _ _ found) (Nat.not_lt.2 outside)
  | arm c =>
      cases step_moves moved with
      | arm found =>
          exact silent rfl (told.set found rfl ⟨rfl, rfl, rfl, rfl, rfl, id, id⟩ rfl rfl)
  | publish c =>
      cases step_moves moved with
      | publish found =>
          exact silent rfl (told.set found rfl ⟨rfl, rfl, rfl, rfl, rfl, id, fun _ => rfl⟩ rfl rfl)
  | _ =>
      refine silent rfl ?_
      cases step_moves moved <;>
        exact told.frame rfl (by simp_all [decidedCall])

/-! ## Runs -/

/-- What a run of a client shows that starts with nothing outstanding. -/
def history (env : Env) (connected : Bool) (connectors : List ConnectorContext) (clock : Int)
    (ls : List Label) : List Event :=
  observe (step env) (shows env) (idle connected connectors clock) ls

section Runs

variable {connected : Bool} {connectors : List ConnectorContext} {clock : Int} {ls : List Label}
  {s : State}

theorem told_run (ran : exec (step env) (idle connected connectors clock) ls = some s) :
    Selected s ∧ Told env (history env connected connectors clock ls) s :=
  exec_history (C := fun _ _ => True) (H := fun es s => Selected s ∧ Told env es s)
    (fun _ _ _ _ _ inv moved => ⟨inv.1.step moved, inv.2.step inv.1 moved⟩)
    (along_of_labels (fun _ _ _ => trivial) _)
    ⟨selected_idle connected connectors clock, told_idle connected connectors clock⟩ ran

/-- **The pushes of a call.**  In every run, the frame of a call that `sendCall` has accepted is
queued once at most when it is no transaction message, and once more for each attempt its budget
has when it is one; at least once by the time `sendCall` returns; only into the queue of its
class at its connector; and again only for an attempt that was decided while the call was
unfinished. -/
theorem pushes_bounded (ran : exec (step env) (idle connected connectors clock) ls = some s)
    {c : Nat} {r : Request}
    (accepted : .accepted c r ∈ history env connected connectors clock ls) :
    ((sends c (history env connected connectors clock ls)).length : Int) ≤
        (if r.isTx then 1 + max 0 (int32 env.transactionMessageAttempts) else 1) ∧
      (.returned c ∈ history env connected connectors clock ls →
        1 ≤ (sends c (history env connected connectors clock ls)).length) ∧
      (∀ p ∈ sends c (history env connected connectors clock ls),
        p = (r.connId, r.isTx, callText env.toLinked r.uniqueId r.action r.reqPayload)) ∧
      ResendsDecided (history env connected connectors clock ls) := by
  obtain ⟨selected, told⟩ := told_run ran
  obtain ⟨i, found, connId, isTx, raw, maxRetry⟩ := told.accepted c r accepted
  have count := told.count c i found
  have budgeted := selected.budgeted c i found
  refine ⟨?_, ?_, ?_, told.resends⟩
  · have atMost : ((sends c (history env connected connectors clock ls)).length : Int) ≤
        1 + i.call.retryCount := by
      grind
    rw [← isTx, ← maxRetry]
    cases isTransaction : i.call.isTx with
    | false =>
        rw [budgeted.nonTx isTransaction] at atMost
        simpa using atMost
    | true =>
        have bounded := budgeted.bounded
        rw [if_pos rfl]
        omega
  · intro returned
    obtain ⟨j, atC, queued⟩ := told.returned c returned
    obtain rfl := Option.some.inj (found.symm.trans atC)
    rw [queued, if_pos rfl] at count
    -- A re-send that is decided and not made is counted already.
    split at count
    · rename_i now
      obtain ⟨k, atC, counted⟩ := selected.decided c now
      obtain rfl := Option.some.inj (found.symm.trans atC)
      omega
    · have nonneg := budgeted.nonneg
      omega
  · intro p member
    obtain ⟨j, atC, rfl⟩ := told.sends c p member
    obtain rfl := Option.some.inj (found.symm.trans atC)
    rw [connId, isTx, raw]

end Runs

/-! ## One transaction call -/

/-- A call that times out with three attempts left, and the pass that makes one of them. -/
def resentOnce : List Label := startCall ++ timeOut ++ resendPass

theorem resentOnce_bounded :
    ∃ s, exec (step startEnv) (idle true [{}] 0) resentOnce = some s ∧
      sends 0 (history startEnv true [{}] 0 resentOnce) =
        [(0, true, startFrame), (0, true, startFrame)] ∧
      ResendsDecided (history startEnv true [{}] 0 resentOnce) := by
  refine ⟨_, rfl, rfl, ?_⟩
  have ran : exec (step startEnv) (idle true [{}] 0) resentOnce = some _ := rfl
  have accepted : .accepted 0 ⟨"a", "StartTransaction", .object [], 0, true, 5000⟩ ∈
      history startEnv true [{}] 0 resentOnce := List.Mem.head _
  exact (pushes_bounded ran accepted).2.2.2

end ChargerStack.Ocpp.Pending
