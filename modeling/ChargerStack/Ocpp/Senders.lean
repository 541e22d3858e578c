/-
# Ocpp.Senders -- which context a sender touches

`sendCall` checks `connId` against `m_connectors.size()`.  `sendCallResult` and
`sendCallError` index the vector as soon as the client is connected, and the
connection comes up in `start` before the first context is pushed.

* `available` is what `start` has promised by its progress, read off the phase and
  the thread vector, not off `m_connectors`;
* `Backed` is the invariant that the promise is kept and that every call past its
  guard has its context;
* `senders_in_range`: in a run whose replies keep to available ids every sender
  stays inside the vector, and an id without a context changes nothing;
* `reply_before_contexts`: a CallError between `doConnect` and the first context.
-/
import ChargerStack.Ocpp.Lifecycle

namespace ChargerStack.Ocpp.Lifecycle

open Cxx Rapidjson Lib

set_option autoImplicit false

variable {linked : Linked}

/-! ## The property, step by step -/

/-- What a sender called with `connId` owes: no access outside the vector, and for
an id without a context `false` and no change. -/
def InRange (s : State) (connId : UInt32) (sent : Except Failure (Bool × State)) : Prop :=
  ∃ ret t, sent = .ok (ret, t) ∧ (s.connectors.length ≤ connId.toNat → ret = false ∧ t = s)

/-- The sender a label runs does what it owes; the other labels are no senders. -/
def SenderSafe (linked : Linked) (s : State) : Label → Prop
  | .callEnter uniqueId action reqPayload connId isTx =>
      s.connectors.length ≤ connId.toNat →
        s.sendCallEnter linked uniqueId action reqPayload connId isTx = none
  | .callPush n => ∀ call, s.calls[n]? = some call →
      ∃ t, s.pushTo call.connId call.isTx call.raw = .ok t
  | .callError uniqueId errorCode errorDescription errorDetails connId =>
      InRange s connId
        (s.sendCallError linked uniqueId errorCode errorDescription errorDetails connId)
  | .callResult uniqueId action payload connId =>
      InRange s connId (s.sendCallResult linked uniqueId action payload connId)
  | _ => True

/-! ## The condition -/

/-- The ids `start` has provided for: in its first loop those below the counter,
and from the end of that loop on all up to `m_connectorNum`. -/
def available (s : State) : Nat :=
  match s.phase, s.sendThreads with
  | .spawning _, _ => s.connectorNum.toNat + 1
  | _, _ :: _ => s.connectorNum.toNat + 1
  | .filling i, [] => i.toNat
  | _, [] => 0

/-- A reply that goes out while the client is connected names an available id. -/
def Provided (linked : Linked) (s : State) : Label → Prop
  | .callError _ _ _ _ connId => s.isConnected = true → connId.toNat < available s
  | .callResult _ action payload connId =>
      s.isConnected = true → linked.validateResponse action payload = true →
        connId.toNat < available s
  | _ => True

/-! ## The invariant -/

structure Backed (s : State) : Prop where
  filling : ∀ i, s.phase = .filling i → i.toNat ≤ s.connectors.length
  spawning : ∀ i, s.phase = .spawning i → s.connectorNum.toNat < s.connectors.length
  threads : s.sendThreads ≠ [] → s.connectorNum.toNat < s.connectors.length
  calls : ∀ call ∈ s.calls, call.connId.toNat < s.connectors.length

theorem backed_construct (connectorNum : UInt32) : Backed (construct connectorNum) where
  filling := by intro i impossible; cases impossible
  spawning := by intro i impossible; cases impossible
  threads := by intro nonempty; cases nonempty rfl
  calls := by intro call member; cases member

/-- What `start` has provided for is there. -/
theorem Backed.available_le {s : State} (backed : Backed s) :
    available s ≤ s.connectors.length := by
  unfold available
  split
  · exact backed.spawning _ ‹_›
  · rename_i occupied _
    exact backed.threads (by simp [occupied])
  · exact backed.filling _ ‹_›
  · exact Nat.zero_le _

/-- A step that leaves the thread in `start` where it is and adds no call keeps the
invariant as long as no context goes away. -/
theorem Backed.frame {s t : State} (backed : Backed s) (phase : t.phase = s.phase)
    (num : t.connectorNum = s.connectorNum) (threads : s.sendThreads = [] → t.sendThreads = [])
    (length : t.connectors.length = s.connectors.length) (calls : t.calls ⊆ s.calls) : Backed t := by
  constructor
  · intro i filling
    rw [length]
    exact backed.filling i (phase ▸ filling)
  · intro i spawning
    rw [length, num]
    exact backed.spawning i (phase ▸ spawning)
  · intro nonempty
    rw [length, num]
    apply backed.threads
    intro empty
    exact nonempty (threads empty)
  · intro call member
    rw [length]
    exact backed.calls call (calls member)

theorem backed_step {s t : State} {l : Label} (backed : Backed s)
    (moved : step linked s l = some t) : Backed t := by
  obtain ⟨filling, spawning, threads, calls⟩ := backed
  cases step_moves moved with
  | start idle | connect connecting | connectFailed connecting | already connected running =>
      exact ⟨(fun _ other => nomatch other), (fun _ other => nomatch other), threads, calls⟩
  | claim connected stopped =>
      refine ⟨?_, (fun _ other => nomatch other), threads, calls⟩
      intro i phase
      cases phase
      exact Nat.zero_le _
  | @fill i phase more =>
      have grown : (s.connectors ++ [({} : ConnectorContext)]).length = s.connectors.length + 1 := by
        simp
      refine ⟨?_, (fun _ other => nomatch other), ?_, ?_⟩
      · intro j next
        cases next
        have counted := filling i phase
        have wrapped := Nat.mod_le (i.toNat + 1) (2 ^ 32)
        rw [grown, UInt32.toNat_add]
        exact Nat.le_trans wrapped (by omega)
      · intro nonempty
        rw [grown]
        exact Nat.lt_succ_of_lt (threads nonempty)
      · intro call member
        rw [grown]
        exact Nat.lt_succ_of_lt (calls call member)
  | @fillEnd i phase done =>
      refine ⟨(fun _ other => nomatch other), ?_, threads, calls⟩
      intro j next
      have counted := filling i phase
      have high := mt UInt32.le_iff_toNat_le.2 done
      show s.connectorNum.toNat < s.connectors.length
      omega
  | @spawn i phase more =>
      exact ⟨(fun _ other => nomatch other), fun _ _ => spawning i phase, fun _ => spawning i phase,
        calls⟩
  | @returnTrue i phase done =>
      exact ⟨(fun _ other => nomatch other), (fun _ other => nomatch other), threads, calls⟩
  | stop idle =>
      have noThreads : s.sendThreads = [] →
          s.sendThreads.map ({ · with joined := true }) = [] := by
        intro empty
        rw [empty, List.map_nil]
      exact Backed.frame ⟨filling, spawning, threads, calls⟩ rfl rfl noThreads (List.length_map _)
        (List.Subset.refl _)
  | connection up => exact ⟨filling, spawning, threads, calls⟩
  | callEnter inRange =>
      refine ⟨filling, spawning, threads, ?_⟩
      intro call member
      rcases List.mem_append.1 member with old | new
      · exact calls call old
      · obtain rfl := List.mem_singleton.1 new
        exact inRange
  | pushed found fewer =>
      exact Backed.frame ⟨filling, spawning, threads, calls⟩ rfl rfl id List.length_set fewer
  | unchanged => exact ⟨filling, spawning, threads, calls⟩

/-! ## Runs -/

theorem pushTo_of_lt {s : State} {connId : UInt32} (inRange : connId.toNat < s.connectors.length)
    (isTx : Bool) (text : String) : ∃ t, s.pushTo connId isTx text = .ok t := by
  simp [State.pushTo, List.getElem?_eq_getElem inRange]

/-- A sender that is refused, or that pushes at an id with a context. -/
theorem inRange_of_push {s : State} {connId : UInt32} {text : String}
    (inRange : connId.toNat < s.connectors.length) :
    InRange s connId (do return (true, ← s.pushTo connId false text)) := by
  obtain ⟨t, pushed⟩ := pushTo_of_lt inRange false text
  exact ⟨true, t, by simp [pushed, bind, Except.bind, pure, Except.pure], fun outside => by omega⟩

theorem inRange_refused (s : State) (connId : UInt32) : InRange s connId (.ok (false, s)) :=
  ⟨false, s, rfl, fun _ => ⟨rfl, rfl⟩⟩

/-- One step: the guards and the invariant keep every sender inside the vector. -/
theorem senderSafe_of_backed {s : State} {l : Label} (provided : Provided linked s l)
    (backed : Backed s) : SenderSafe linked s l := by
  cases l with
  | callEnter uniqueId action reqPayload connId isTx =>
      intro outside
      unfold State.sendCallEnter
      rw [if_pos outside]
      split
      · rfl
      · split <;> rfl
  | callPush n =>
      intro call found
      exact pushTo_of_lt (backed.calls call (List.mem_of_getElem? found)) call.isTx call.raw
  | callError uniqueId errorCode errorDescription errorDetails connId =>
      simp only [SenderSafe, State.sendCallError]
      split
      · exact inRange_refused s connId
      · rename_i connected
        exact inRange_of_push
          (Nat.lt_of_lt_of_le (provided (by simpa using connected)) backed.available_le)
  | callResult uniqueId action payload connId =>
      simp only [SenderSafe, State.sendCallResult]
      split
      · exact inRange_refused s connId
      · rename_i connected
        split
        · exact inRange_refused s connId
        · rename_i valid
          exact inRange_of_push (Nat.lt_of_lt_of_le
            (provided (by simpa using connected) (by simpa using valid)) backed.available_le)
  | _ => trivial

/-- **The senders stay inside `m_connectors`** in every run in which the replies that
go out while the client is connected name ids that `start` has provided for; and an
id without a context is refused without effect. -/
theorem senders_in_range {connectorNum : UInt32} {ls : List Label}
    (provided : Along (step linked) (Provided linked) (construct connectorNum) ls) :
    Along (step linked) (SenderSafe linked) (construct connectorNum) ls :=
  along_of_invariant (fun _ _ _ _ backed moved => backed_step backed moved)
    (fun _ _ provided backed => senderSafe_of_backed provided backed) provided
    (backed_construct connectorNum)

/-! ## The window in `start` -/

/-- The connection is up, and `m_connectors` is still empty. -/
def connectedEarly : List Label := [.start true, .connect true, .connection true]

/-- A CallError of a handler, with the default connector id. -/
def handlerError : Label := .callError "a" "InternalError" "" (.object []) 0

theorem senders_in_range_after_fill :
    Along (step unusedLinked) (SenderSafe unusedLinked) (construct 1)
      (startOne ++ [.returnTrue, handlerError]) := by
  refine senders_in_range ?_
  refine along_cons rfl trivial (along_cons rfl trivial (along_cons rfl trivial
    (along_cons rfl trivial (along_cons rfl trivial (along_cons rfl trivial
    (along_cons rfl trivial (along_cons rfl trivial (along_cons rfl trivial
    (along_cons rfl trivial (along_cons rfl trivial (along_cons rfl trivial
    (along_cons rfl ?_ trivial))))))))))))
  intro connected
  decide

/-- **A reply before the contexts.**  The handler of a Call that arrives in the
window reads `m_connectors[0]` of an empty vector. -/
theorem reply_before_contexts :
    ∃ s, exec (step unusedLinked) (construct 1) connectedEarly = some s ∧
      s.sendCallError unusedLinked "a" "InternalError" "" (.object []) 0 = .error .outOfBounds ∧
      ¬ Along (step unusedLinked) (SenderSafe unusedLinked) (construct 1)
        (connectedEarly ++ [handlerError]) := by
  refine ⟨_, rfl, rfl, fun safe => ?_⟩
  obtain ⟨ret, t, sent, -⟩ := (((safe.2 _ rfl).2 _ rfl).2 _ rfl).1
  cases sent

end ChargerStack.Ocpp.Lifecycle
