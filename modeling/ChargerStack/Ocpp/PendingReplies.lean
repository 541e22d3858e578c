/-
# Ocpp.PendingReplies -- what a reply can do to a call

`parseMessage` finds the call of a reply by `m_pending.find(uniqueId)` with
`uniqueId` a `const char *`, so the key is the text before the first NUL of the
message's id.

* `Wired` is the invariant of the references: ids are distinct, and every entry and
  every reply in flight belongs to the call it points to;
* `Accounted` relates the replies handled so far to the calls: the outcome of each
  call is explained by the first reply handled while it was unfinished;
* `replies_settle_calls`: in every run whose replies carry no NUL in their id, a
  call finishes once, its outcome stays, and a `true` return is that first reply,
  a CallResult;
* `nul_reply_answers_another_call`: with a NUL in the id, a reply that carries
  another id makes `sendCall` return `true`.
-/
import ChargerStack.Ocpp.Pending

namespace ChargerStack.Ocpp.Pending

open Cxx Rapidjson Lib

set_option autoImplicit false

variable {env : Env}

/-! ## The replies of a run -/

/-- A reply that has been through `parseMessage`, and whether the call with exactly
its id was unfinished just before. -/
structure Handled where
  message : Message
  pending : Bool

def handled (s : State) : Label → Option Handled
  | .complete i => s.handlers[i]?.map fun h =>
      ⟨h.message, s.invocations.any fun i =>
        decide (i.call.uniqueId = h.message.uniqueId) && !i.call.finished⟩
  | _ => none

/-- The first reply with exactly that id that was handled while its call was
pending. -/
def firstReply (history : List Handled) (uniqueId : String) : Option Handled :=
  history.find? fun e => e.pending && decide (e.message.uniqueId = uniqueId)

theorem firstReply_snoc_other {history : List Handled} {e : Handled} {uid : String}
    (other : e.pending = true → e.message.uniqueId ≠ uid) :
    firstReply (history ++ [e]) uid = firstReply history uid := by
  have skipped : (e.pending && decide (e.message.uniqueId = uid)) = false := by
    cases pending : e.pending with
    | false => rfl
    | true => simpa using other pending
  simp [firstReply, List.find?_append, skipped]

theorem firstReply_snoc_first {history : List Handled} {e : Handled} {uid : String}
    (none_ : firstReply history uid = none) (pending : e.pending = true)
    (same : e.message.uniqueId = uid) : firstReply (history ++ [e]) uid = some e := by
  unfold firstReply at none_ ⊢
  simp [List.find?_append, none_, pending, same]

theorem reply?_parse {text : String} {m : Message} (valid : reply? env text = some m) :
    env.parse (cStr text) = some m.toValue := by
  unfold reply? at valid
  split at valid <;> cases valid
  all_goals
    rename_i read
    obtain ⟨v, parsed, shape⟩ := Option.bind_eq_some_iff.1 read
    rw [parsed, Message.ofValue?_eq_some_iff.1 shape]

theorem mem_of_find {uid : String} {c : Nat} {entries : List (String × Nat)}
    (found : find uid entries = some c) : (uid, c) ∈ entries := by
  induction entries with
  | nil => cases found
  | cons entry rest ih =>
      rw [find] at found
      split at found
      · cases found
        rename_i same
        exact List.mem_cons.2 (.inl (by rw [← same]))
      · exact List.mem_cons_of_mem _ (ih found)

/-! ## The references -/

structure Wired (env : Env) (s : State) : Prop where
  distinct : ∀ (c d : Nat) i j, s.invocations[c]? = some i → s.invocations[d]? = some j →
    i.call.uniqueId = j.call.uniqueId → c = d
  pending : ∀ uid c, (uid, c) ∈ s.pending →
    ∃ i, s.invocations[c]? = some i ∧ i.call.uniqueId = uid
  handling : ∀ h ∈ s.handlers, env.parse (cStr h.text) = some h.message.toValue ∧
    ∃ i, s.invocations[h.ref]? = some i ∧ i.call.uniqueId = h.message.uniqueId

theorem wired_idle (connected : Bool) (connectors : List ConnectorContext) (clock : Int) :
    Wired env (idle connected connectors clock) where
  distinct := by intro c d i j found; simp [idle] at found
  pending := by intro uid c member; simp [idle] at member
  handling := by intro h member; simp [idle] at member

/-- Dropping entries and handlers, and moving anything but the invocations. -/
theorem Wired.frame {s t : State} (wired : Wired env s) (same : t.invocations = s.invocations)
    (pending : ∀ p ∈ t.pending, p ∈ s.pending) (handlers : ∀ h ∈ t.handlers, h ∈ s.handlers) :
    Wired env t where
  distinct := by rw [same]; exact wired.distinct
  pending uid c member := by rw [same]; exact wired.pending uid c (pending _ member)
  handling h member := by rw [same]; exact wired.handling h (handlers h member)

/-- The invocation at `c` rewritten under its id, seen from either side. -/
theorem set_same_ids {s : State} {c : Nat} {i j : Invocation} (found : s.invocations[c]? = some i)
    (uniqueId : j.call.uniqueId = i.call.uniqueId) (d : Nat) (uid : String) :
    (∃ k, (s.set c j).invocations[d]? = some k ∧ k.call.uniqueId = uid) ↔
      ∃ k, s.invocations[d]? = some k ∧ k.call.uniqueId = uid := by
  by_cases here : c = d
  · subst here
    simp [set_self found, found, uniqueId]
  · rw [set_other here]

theorem Wired.set {s t : State} (wired : Wired env s) {c : Nat} {i j : Invocation}
    (found : s.invocations[c]? = some i) (same : t.invocations = (s.set c j).invocations)
    (pending : ∀ p ∈ t.pending, p ∈ s.pending) (handlers : ∀ h ∈ t.handlers, h ∈ s.handlers)
    (uniqueId : j.call.uniqueId = i.call.uniqueId) : Wired env t := by
  have set : Wired env (s.set c j) := by
    constructor
    · intro d e k l atD atE equal
      obtain ⟨k', atD', sameD⟩ := (set_same_ids found uniqueId d _).1 ⟨k, atD, rfl⟩
      obtain ⟨l', atE', sameE⟩ := (set_same_ids found uniqueId e _).1 ⟨l, atE, rfl⟩
      exact wired.distinct d e k' l' atD' atE' (by rw [sameD, sameE, equal])
    · intro uid d member
      exact (set_same_ids found uniqueId d uid).2 (wired.pending uid d member)
    · intro h member
      obtain ⟨parsed, owner⟩ := wired.handling h member
      exact ⟨parsed, (set_same_ids found uniqueId h.ref _).2 owner⟩
  exact set.frame same pending handlers

theorem Wired.enter {s : State} (wired : Wired env s) (i : Invocation)
    (unused : ∀ (c : Nat) j, s.invocations[c]? = some j → j.call.uniqueId ≠ i.call.uniqueId) :
    Wired env { s with invocations := s.invocations ++ [i] } where
  distinct c d j k atC atD same := by
    rcases getElem?_snoc atC with oldC | ⟨rfl, rfl⟩ <;>
      rcases getElem?_snoc atD with oldD | ⟨rfl, rfl⟩
    · exact wired.distinct c d j k oldC oldD same
    · exact absurd same (unused c j oldC)
    · exact absurd same.symm (unused d k oldD)
    · rfl
  pending uid c member := by
    obtain ⟨j, found, same⟩ := wired.pending uid c member
    exact ⟨j, getElem?_old found, same⟩
  handling h member := by
    obtain ⟨parsed, j, found, same⟩ := wired.handling h member
    exact ⟨parsed, j, getElem?_old found, same⟩

/-- The condition on one step: a reply's id carries no NUL. -/
def NulFreeReply (env : Env) (_ : State) : Label → Prop
  | .lookup text => ∀ m, reply? env text = some m → NulFree m.uniqueId
  | _ => True

/-- The new id of a fresh request. -/
theorem unused_of_fresh {s : State} {uid : String}
    (fresh : uid ∉ s.invocations.map (·.call.uniqueId)) (c : Nat) (j : Invocation)
    (found : s.invocations[c]? = some j) : j.call.uniqueId ≠ uid := fun same =>
  fresh (List.mem_map.2 ⟨j, List.mem_of_getElem? found, same⟩)

theorem wired_step {s t : State} {l : Label} (clean : NulFreeReply env s l)
    (wired : Wired env s) (moved : step env s l = some t) : Wired env t := by
  cases step_moves moved with
  | enter r fresh => exact wired.enter _ (unused_of_fresh fresh)
  | arm found => exact wired.set found rfl (fun _ m => m) (fun _ m => m) rfl
  | publish found =>
      have moved := wired.set (j := ⟨_, .published⟩) found rfl (fun _ m => m) (fun _ m => m) rfl
      refine ⟨moved.distinct, ?_, moved.handling⟩
      intro uid c member
      rcases List.mem_append.1 member with old | new
      · exact moved.pending uid c (List.mem_of_mem_filter old)
      · obtain ⟨rfl, rfl⟩ := Prod.mk.inj (List.mem_singleton.1 new)
        exact ⟨_, set_self found, rfl⟩
  | push found => exact wired.set found rfl (fun _ m => m) (fun _ m => m) rfl
  | answered found => exact wired.set found rfl (fun _ m => m) (fun _ m => m) rfl
  | refused found => exact wired.set found rfl (fun _ m => m) (fun _ m => m) rfl
  | lookup valid found =>
      refine ⟨wired.distinct, wired.pending, ?_⟩
      intro h member
      rcases List.mem_append.1 member with old | new
      · exact wired.handling h old
      · obtain rfl := List.mem_singleton.1 new
        obtain ⟨i, atC, same⟩ := wired.pending _ _ (mem_of_find found)
        -- Here the id of the message and the key it was looked up by are one.
        exact ⟨reply?_parse valid, i, atC, by rw [same, cStr_of_nulFree (clean _ valid)]⟩
  | duplicate => exact wired.frame rfl (fun _ m => m) fun _ m => List.mem_of_mem_eraseIdx m
  | complete handling found unfinished =>
      exact wired.set found rfl (fun _ m => m) (fun _ m => List.mem_of_mem_eraseIdx m) rfl
  | visitExpired scanning found =>
      exact wired.set found rfl (fun _ m => m) (fun _ m => m) rfl
  | passErase => exact wired.frame rfl (fun _ m => List.mem_of_mem_filter m) fun _ m => m
  | recheck resending found => exact wired.set found rfl (fun _ m => m) (fun _ m => m) rfl
  | _ => exact wired.frame rfl (fun _ m => m) fun _ m => m

/-! ## The history -/

/-- The outcome of one call follows from the replies handled so far. -/
structure Explained (env : Env) (history : List Handled) (i : Invocation) : Prop where
  unfinished : i.call.finished = false → firstReply history i.call.uniqueId = none
  success : i.call.finished = true → i.call.success = true →
    ∃ e, firstReply history i.call.uniqueId = some e ∧ e.message.type = .callResult ∧
      env.parse (cStr i.call.response) = some e.message.toValue
  returned : ∀ rsp, i.caller = .returned (some rsp) →
    i.call.finished = true ∧ i.call.success = true ∧
      rsp = (env.parse (cStr i.call.response)).getD .null

structure Accounted (env : Env) (history : List Handled) (s : State) : Prop where
  known : ∀ e ∈ history, e.pending = true →
    ∃ (c : Nat) (i : Invocation), s.invocations[c]? = some i ∧
      i.call.uniqueId = e.message.uniqueId
  explained : ∀ (c : Nat) i, s.invocations[c]? = some i → Explained env history i

theorem accounted_idle (connected : Bool) (connectors : List ConnectorContext) (clock : Int) :
    Accounted env [] (idle connected connectors clock) where
  known := by intro e member; simp at member
  explained := by intro c i found; simp [idle] at found

/-- What a move of the caller, or of the retry bookkeeping, leaves. -/
theorem Explained.move {history : List Handled} {i j : Invocation}
    (explained : Explained env history i) (uniqueId : j.call.uniqueId = i.call.uniqueId)
    (finished : j.call.finished = i.call.finished) (success : j.call.success = i.call.success)
    (response : j.call.response = i.call.response)
    (caller : ∀ rsp, j.caller = .returned (some rsp) → i.caller = .returned (some rsp)) :
    Explained env history j where
  unfinished := by rw [uniqueId, finished]; exact explained.unfinished
  success := by rw [uniqueId, finished, success, response]; exact explained.success
  returned rsp same := by
    rw [finished, success, response]
    exact explained.returned rsp (caller rsp same)

/-- A reply for another call. -/
theorem Explained.snoc {history : List Handled} {i : Invocation} {e : Handled}
    (explained : Explained env history i)
    (other : e.pending = true → e.message.uniqueId ≠ i.call.uniqueId) :
    Explained env (history ++ [e]) i where
  unfinished := by rw [firstReply_snoc_other other]; exact explained.unfinished
  success := by rw [firstReply_snoc_other other]; exact explained.success
  returned := explained.returned

theorem Accounted.same {history : List Handled} {s t : State} (accounted : Accounted env history s)
    (same : t.invocations = s.invocations) : Accounted env history t where
  known := by rw [same]; exact accounted.known
  explained := by rw [same]; exact accounted.explained

theorem Accounted.set {history : List Handled} {s t : State}
    (accounted : Accounted env history s) {c : Nat} {i j : Invocation}
    (found : s.invocations[c]? = some i) (same : t.invocations = (s.set c j).invocations)
    (uniqueId : j.call.uniqueId = i.call.uniqueId)
    (explained : Explained env history i → Explained env history j) : Accounted env history t where
  known e member pending := by
    obtain ⟨d, k, atD, equal⟩ := accounted.known e member pending
    rw [same]
    exact ⟨d, (set_same_ids found uniqueId d _).2 ⟨k, atD, equal⟩⟩
  explained := forall_set accounted.explained found same explained

/-- A new call: its id is fresh, so no reply so far was for it. -/
theorem Accounted.enter {history : List Handled} {s : State}
    (accounted : Accounted env history s) (r : Request)
    (fresh : r.uniqueId ∉ s.invocations.map (·.call.uniqueId)) :
    Accounted env history { s with
      invocations := s.invocations ++ [⟨newCall env s.clock r, .stamped⟩] } where
  known e member pending := by
    obtain ⟨c, i, found, same⟩ := accounted.known e member pending
    exact ⟨c, i, getElem?_old found, same⟩
  explained c i found := by
    rcases getElem?_snoc found with old | ⟨rfl, rfl⟩
    · exact accounted.explained c i old
    · refine ⟨?_, (fun finished => nomatch finished), fun _ same => nomatch same⟩
      intro unfinished
      rw [firstReply, List.find?_eq_none]
      intro e member matched
      simp only [Bool.and_eq_true, decide_eq_true_eq] at matched
      obtain ⟨d, j, atD, same⟩ := accounted.known e member matched.1
      exact unused_of_fresh fresh d j atD (same.trans matched.2)

/-- The event of a handler is flagged by its own call, ids being distinct. -/
theorem handled_complete {s : State} (wired : Wired env s) {n : Nat} {h : Handler}
    {call : PendingCall} {caller : Caller} (handling : s.handlers[n]? = some h)
    (found : s.invocations[h.ref]? = some ⟨call, caller⟩)
    (same : call.uniqueId = h.message.uniqueId) :
    handled s (.complete n) = some ⟨h.message, !call.finished⟩ := by
  have flag : (s.invocations.any fun i =>
      decide (i.call.uniqueId = h.message.uniqueId) && !i.call.finished) = !call.finished := by
    rw [Bool.eq_iff_iff, List.any_eq_true]
    constructor
    · rintro ⟨j, member, holds⟩
      simp only [Bool.and_eq_true, decide_eq_true_eq] at holds
      obtain ⟨d, atD⟩ := List.mem_iff_getElem?.1 member
      obtain rfl := wired.distinct d h.ref j _ atD found (holds.1.trans same.symm)
      obtain rfl : j = ⟨call, caller⟩ := Option.some.inj (atD.symm.trans found)
      exact holds.2
    · intro unfinished
      refine ⟨_, List.mem_of_getElem? found, ?_⟩
      rw [Bool.and_eq_true]
      exact ⟨decide_eq_true same, unfinished⟩
  simp [handled, handling, flag]

/-- A step that handles no reply adds nothing to the history. -/
theorem Accounted.quiet {history : List Handled} {s t : State} {l : Label}
    (silent : handled s l = none) (accounted : Accounted env history t) :
    Accounted env (history ++ (handled s l).toList) t := by
  simpa [silent] using accounted

/-- A reply that finds its call finished is no one's first. -/
theorem Accounted.duplicate {history : List Handled} {s t : State} {e : Handled}
    (accounted : Accounted env history s) (late : e.pending = false)
    (same : t.invocations = s.invocations) : Accounted env (history ++ [e]) t := by
  constructor
  · intro e' member pending
    rw [same]
    rcases List.mem_append.1 member with before | last
    · exact accounted.known e' before pending
    · obtain rfl := List.mem_singleton.1 last
      rw [late] at pending
      cases pending
  · intro c i atC
    rw [same] at atC
    apply (accounted.explained c i atC).snoc
    intro pending
    rw [late] at pending
    cases pending

/-- A reply that finds its call unfinished is its first one. -/
theorem Accounted.complete {history : List Handled} {s t : State} {h : Handler}
    {call : PendingCall} {caller : Caller} (wired : Wired env s)
    (accounted : Accounted env history s) (found : s.invocations[h.ref]? = some ⟨call, caller⟩)
    (same : call.uniqueId = h.message.uniqueId) (unfinished : call.finished = false)
    (parsed : env.parse (cStr h.text) = some h.message.toValue)
    (after : t.invocations = (s.set h.ref ⟨{ call with
      finished := true
      success := decide (h.message.type = .callResult)
      response := h.text }, caller⟩).invocations) :
    Accounted env (history ++ [⟨h.message, true⟩]) t := by
  have before := accounted.explained _ _ found
  constructor
  · intro e member pending
    have owner : ∃ (d : Nat) (k : Invocation), s.invocations[d]? = some k ∧
        k.call.uniqueId = e.message.uniqueId := by
      rcases List.mem_append.1 member with old | last
      · exact accounted.known e old pending
      · obtain rfl := List.mem_singleton.1 last
        exact ⟨_, _, found, same⟩
    obtain ⟨d, k, atD, equal⟩ := owner
    rw [after]
    refine ⟨d, (set_same_ids found ?_ d _).2 ⟨k, atD, equal⟩⟩
    rfl
  · intro d k other
    rw [after] at other
    by_cases here : h.ref = d
    · subst here
      obtain rfl := Option.some.inj ((set_self found).symm.trans other)
      have first := firstReply_snoc_first (before.unfinished unfinished)
        (e := ⟨h.message, true⟩) rfl same.symm
      refine ⟨(fun impossible => nomatch impossible), ?_, ?_⟩
      · intro _ success
        exact ⟨_, first, of_decide_eq_true success, parsed⟩
      · intro rsp returned
        have finished : call.finished = true := (before.returned rsp returned).1
        rw [unfinished] at finished
        cases finished
    · have old := (set_other here).symm.trans other
      apply (accounted.explained d k old).snoc
      intro _ equal
      exact here (wired.distinct h.ref d _ k found old (same.trans equal))

/-- One step keeps the account, the history growing by the reply it handled. -/
theorem accounted_step {history : List Handled} {s t : State} {l : Label} (wired : Wired env s)
    (accounted : Accounted env history s) (moved : step env s l = some t) :
    Accounted env (history ++ (handled s l).toList) t := by
  have move : ∀ {call : PendingCall} {p q : Caller}, (∀ rsp, q ≠ .returned (some rsp)) →
      Explained env history ⟨call, p⟩ → Explained env history ⟨call, q⟩ := by
    intro call p q outside explained
    refine explained.move rfl rfl rfl rfl ?_
    intro rsp equal
    exact absurd equal (outside rsp)
  cases step_moves moved with
  | duplicate handling found finished =>
      obtain ⟨-, i, atRef, same⟩ := wired.handling _ (List.mem_of_getElem? handling)
      obtain rfl := Option.some.inj (found.symm.trans atRef)
      rw [handled_complete wired handling found same, finished]
      exact accounted.duplicate rfl rfl
  | complete handling found unfinished =>
      obtain ⟨parsed, i, atRef, same⟩ := wired.handling _ (List.mem_of_getElem? handling)
      obtain rfl := Option.some.inj (found.symm.trans atRef)
      rw [handled_complete wired handling found same, unfinished]
      exact accounted.complete wired found same unfinished parsed rfl
  | enter r fresh => exact .quiet rfl (accounted.enter r fresh)
  | arm found =>
      exact .quiet rfl (accounted.set found rfl rfl fun explained =>
        explained.move rfl rfl rfl rfl fun _ equal => nomatch equal)
  | publish found =>
      exact .quiet rfl (accounted.set found rfl rfl (move fun _ equal => nomatch equal))
  | push found =>
      exact .quiet rfl (accounted.set found rfl rfl (move fun _ equal => nomatch equal))
  | answered found finished success =>
      refine .quiet rfl (accounted.set found rfl rfl ?_)
      intro explained
      refine ⟨explained.unfinished, explained.success, ?_⟩
      intro rsp equal
      cases equal
      exact ⟨finished, success, rfl⟩
  | refused found =>
      exact .quiet rfl (accounted.set found rfl rfl (move fun _ equal => nomatch equal))
  | visitExpired scanning found unfinished =>
      refine .quiet rfl (accounted.set found rfl rfl ?_)
      intro explained
      refine ⟨(fun impossible => nomatch impossible), (fun _ impossible => nomatch impossible), ?_⟩
      intro rsp equal
      exact absurd (explained.returned rsp equal).1 (by simp [unfinished])
  | recheck resending found =>
      exact .quiet rfl (accounted.set found rfl rfl fun explained =>
        explained.move rfl rfl rfl rfl fun _ equal => equal)
  | _ => exact .quiet rfl (accounted.same rfl)

/-! ## Runs -/

variable {connected : Bool} {connectors : List ConnectorContext} {clock : Int} {ls : List Label}
  {t : State}

/-- A finished call stays finished, with the same outcome. -/
def Settled (s t : State) : Prop :=
  ∀ (c : Nat) i, s.invocations[c]? = some i → i.call.finished = true →
    ∃ j, t.invocations[c]? = some j ∧ j.call.finished = true ∧
      j.call.success = i.call.success ∧ j.call.response = i.call.response

theorem settled_exec {s : State} (ran : exec (step env) s ls = some t) : Settled s t := by
  intro c i found finished
  obtain ⟨j, later, follows⟩ := later_exec ran c i found
  exact ⟨j, later, follows.settled finished⟩

theorem accounted_exec (clean : Along (step env) (NulFreeReply env)
      (idle connected connectors clock) ls)
    (ran : exec (step env) (idle connected connectors clock) ls = some t) :
    Accounted env (observe (step env) handled (idle connected connectors clock) ls) t := by
  have both := exec_history (H := fun history s => Wired env s ∧ Accounted env history s)
    (fun history s l t clean inv moved =>
      ⟨wired_step clean inv.1 moved, accounted_step inv.1 inv.2 moved⟩)
    clean ⟨wired_idle connected connectors clock, accounted_idle connected connectors clock⟩ ran
  exact both.2

/-- **Replies settle calls, once and in order.**  In every run from an idle client
whose replies carry no NUL in their id: what is finished at any point of the run
keeps its outcome to the end; and a `sendCall` that returned `true` did so with the
first reply that carried exactly its id and was handled while it was pending, a
CallResult, and `rspPayload` is that message. -/
theorem replies_settle_calls
    (clean : Along (step env) (NulFreeReply env) (idle connected connectors clock) ls)
    (ran : exec (step env) (idle connected connectors clock) ls = some t) :
    (∀ ks rest s, ls = ks ++ rest →
        exec (step env) (idle connected connectors clock) ks = some s → Settled s t) ∧
      ∀ (c : Nat) i rspPayload, t.invocations[c]? = some i →
        i.caller = .returned (some rspPayload) →
        ∃ e, firstReply (observe (step env) handled (idle connected connectors clock) ls)
            i.call.uniqueId = some e ∧
          e.message.type = .callResult ∧ rspPayload = e.message.toValue := by
  refine ⟨?_, ?_⟩
  · rintro ks rest s rfl begun
    obtain ⟨m, first, second⟩ := exec_append.1 ran
    obtain rfl : m = s := Option.some.inj (first.symm.trans begun)
    exact settled_exec second
  · intro c i rspPayload found returned
    have explained := (accounted_exec clean ran).explained c i found
    obtain ⟨finished, success, rfl⟩ := explained.returned rspPayload returned
    obtain ⟨e, first, result, parsed⟩ := explained.success finished success
    exact ⟨e, first, result, by rw [parsed, Option.getD_some]⟩

/-! ## One call and one reply -/

/-- A client whose one call is a Heartbeat with the id `a`, and whose central
system answers with one text. -/
def heartbeatEnv (answer : String) (message : Message) : Env where
  parse text := if text = answer then some message.toValue else none
  write _ := "[2,\"a\",\"Heartbeat\",\x7b\x7d]"
  validateRequest _ _ := true
  validateResponse _ _ := true
  retryInterval := 1000
  transactionMessageAttempts := 3

def heartbeatRun (answer : String) : List Label :=
  [.enter ⟨"a", "Heartbeat", .object [], 0, false, 5000⟩, .arm 0, .publish 0, .push 0,
    .lookup answer, .complete 0, .wake 0]

/-- The call answered under its own id. -/
theorem replies_settle_heartbeat :
    ∃ t i, exec (step (heartbeatEnv "[3,\"a\",\x7b\x7d]" (.callResult "a" [])))
        (idle true [{}] 0) (heartbeatRun "[3,\"a\",\x7b\x7d]") = some t ∧
      t.invocations[0]? = some i ∧
      i.caller = .returned (some (Message.callResult "a" []).toValue) ∧
      ∃ e, firstReply (observe (step (heartbeatEnv "[3,\"a\",\x7b\x7d]" (.callResult "a" [])))
          handled (idle true [{}] 0) (heartbeatRun "[3,\"a\",\x7b\x7d]")) i.call.uniqueId = some e ∧
        e.message.type = .callResult ∧
        (Message.callResult "a" []).toValue = e.message.toValue := by
  refine ⟨_, _, rfl, rfl, rfl, ?_⟩
  refine (@replies_settle_calls (heartbeatEnv "[3,\"a\",\x7b\x7d]" (.callResult "a" []))
    true [{}] 0 _ _ ?_ rfl).2 0 _ _ rfl rfl
  refine along_of_labels (fun l member s => ?_) _
  simp only [heartbeatRun, List.mem_cons, List.not_mem_nil, or_false] at member
  rcases member with rfl | rfl | rfl | rfl | rfl | rfl | rfl
  case inr.inr.inr.inr.inl =>
      intro m valid
      obtain rfl : Message.callResult "a" [] = m := Option.some.inj valid
      decide
  all_goals trivial

/-- **A reply with another id answers the call.**  The reply's id is `a`, NUL, `b`;
no reply of the run carries the id `a`, and the call with the id `a` returns `true`. -/
theorem nul_reply_answers_another_call :
    ∃ t i rspPayload,
      exec (step (heartbeatEnv "[3,\"a\\u0000b\",\x7b\x7d]" (.callResult "a\x00b" [])))
          (idle true [{}] 0) (heartbeatRun "[3,\"a\\u0000b\",\x7b\x7d]") = some t ∧
        t.invocations[0]? = some i ∧ i.caller = .returned (some rspPayload) ∧
        firstReply (observe
          (step (heartbeatEnv "[3,\"a\\u0000b\",\x7b\x7d]" (.callResult "a\x00b" [])))
          handled (idle true [{}] 0) (heartbeatRun "[3,\"a\\u0000b\",\x7b\x7d]"))
          i.call.uniqueId = none := by
  exact ⟨_, _, _, rfl, rfl, rfl, rfl⟩

end ChargerStack.Ocpp.Pending
