/-
# Ocpp.Dispatch -- from an incoming Call to its reply

`parseMessage` validates a text, looks the action up among the registered handlers,
validates the payload and leaves the handler to the thread pool.  The handlers of the
local list answer through the senders of the client, on connector 0.

* `call_never_answered`: no Call gets a reply, because `validateOCPPMessage` does not
  survive one;
* `serve_answered_iff`: behind that gate a Call is answered, and then once, exactly when
  its action is registered, its payload valid, the registration accepted, the handler
  comes to an answer and the client can send it; every other path is silent.
-/
import ChargerStack.Ocpp.Lifecycle
import ChargerStack.Ocpp.SendLocalList

namespace ChargerStack.Ocpp.Dispatch

open Cxx Rapidjson LocalList

set_option autoImplicit false

/-! ## Handlers -/

/-- The handlers of `AuthorizeLocalList`, the only ones the source registers. -/
inductive CallHandler where
  | sendList
  | getVersion
  deriving DecidableEq

/-- `m_callHandlers`. -/
abbrev CallHandlers := List (String × CallHandler)

def registerCallHandler (action : String) (handler : CallHandler) (hs : CallHandlers) :
    CallHandlers :=
  (action, handler) :: hs.filter (·.1 ≠ action)

/-- `AuthorizeLocalList::registHandler`. -/
def registHandler (hs : CallHandlers) : CallHandlers :=
  registerCallHandler "GetLocalListVersion" .getVersion
    (registerCallHandler "SendLocalList" .sendList hs)

/-- `getVersionCallHandler` behind the registration check. -/
def processVersion (s : LocalList.State) : Except Failure Answer := do
  if s.registrationStatus = .rejected then
    return .callError "GenericError" "Charge point is not connected"
  else if ← localAuthListEnabled s.config then return .listVersion s.localListVersion
  else return .callError "GenericError" "Charge point is not connected"

def getVersionCallHandler (s : LocalList.State) (req : Value) :
    Except Failure (Option (String × Answer)) := do
  if s.registrationStatus ≠ .accepted then return none
  else
    let uniqueId ← (← req.at_ 1).getString
    let answer ← processVersion s
    return some (uniqueId, answer)

/-! ## The message path -/

/-- The client and the local list, with the handlers registered so far. -/
structure ChargePoint where
  client : Lifecycle.State
  auth : LocalList.State
  callHandlers : CallHandlers

/-- How `parseMessage` ends. -/
inductive Parsed where
  | dropped
  /-- A CallResult or CallError: the lookup in `m_pending` follows. -/
  | reply (uniqueId : String)
  /-- `m_threadPool.enqueue`. -/
  | task (handler : CallHandler) (msg : Value)

variable (linked : Linked) (env : Env) (faults : Faults)

/-- `parseMessage` behind `validateOCPPMessage`. -/
def dispatch (hs : CallHandlers) (type : Int) (doc : Value) : Except Failure Parsed := do
  let uniqueId ← (← doc.at_ 1).getString
  if type = MessageType.callResult.toInt ∨ type = MessageType.callError.toInt then
    return .reply uniqueId
  else if type = MessageType.call.toInt then
    let action ← (← doc.at_ 2).getString
    match hs.lookup action with
    | none => return .dropped
    | some handler =>
        let payloadDoc ← doc.at_ 3
        if linked.validateRequest action payloadDoc then return .task handler doc
        else return .dropped
  else return .dropped

/-- `parseMessage`.  Its `type` is not initialised. -/
def parseMessage (hs : CallHandlers) (type : Int) (message : String) : Except Failure Parsed := do
  let left ← validateOCPPMessage linked.parse message type .null
  if ¬ left.ret then return .dropped
  else dispatch linked hs left.type left.document

/-- The payload of the reply to SendLocalList. -/
def statusPayload (status : UpdateStatus) : Members :=
  [("status", .string (updateStatusMap.toString status "Accepted"))]

/-- The payload of the reply to GetLocalListVersion. -/
def versionPayload (version : Int) : Members := [("listVersion", .int (int32 version))]

/-- The senders of `AuthorizeLocalList`, which leave `connId` at its default. -/
def sendAnswer (c : Lifecycle.State) (uniqueId : String) :
    Answer → Except Failure (Bool × Lifecycle.State)
  | .callError errorCode errorDescription =>
      c.sendCallError linked uniqueId errorCode errorDescription (.object []) 0
  | .updateStatus status =>
      c.sendCallResult linked uniqueId "SendLocalList" (.object (statusPayload status)) 0
  | .listVersion version =>
      c.sendCallResult linked uniqueId "GetLocalListVersion" (.object (versionPayload version)) 0

def runHandler (s : LocalList.State) (msg : Value) :
    CallHandler → Except Failure (Option (String × Answer) × LocalList.State)
  | .sendList => sendListCallHandler env faults s msg
  | .getVersion => do
      let answer ← getVersionCallHandler s msg
      return (answer, s)

/-- A task of the thread pool: a handler that throws does so before it sends, and the
exception ends there. -/
def runTask (cp : ChargePoint) (handler : CallHandler) (msg : Value) :
    Except Failure ChargePoint :=
  match runHandler env faults cp.auth msg handler with
  | .error _ => .ok cp
  | .ok (none, auth) => .ok { cp with auth := auth }
  | .ok (some (uniqueId, answer), auth) => do
      let sent ← sendAnswer linked cp.client uniqueId answer
      return { cp with client := sent.2, auth := auth }

/-- A validated message, with the task it leaves. -/
def serve (cp : ChargePoint) (type : Int) (doc : Value) : Except Failure ChargePoint := do
  match ← dispatch linked cp.callHandlers type doc with
  | .task handler msg => runTask linked env faults cp handler msg
  | _ => return cp

/-- A message, with the task it leaves. -/
def receive (cp : ChargePoint) (type : Int) (message : String) : Except Failure ChargePoint := do
  match ← parseMessage linked cp.callHandlers type message with
  | .task handler msg => runTask linked env faults cp handler msg
  | _ => return cp

/-! ## Replies -/

/-- A frame that replies to an id. -/
def Replies (m : Message) (uniqueId : String) : Prop :=
  (m.type = .callResult ∨ m.type = .callError) ∧ m.uniqueId = uniqueId

/-- One frame more in one queue, and that one a reply to the id. -/
def AnsweredOnce (uniqueId : String) (before after : Lifecycle.State) : Prop :=
  ∃ m : Message, Replies m uniqueId ∧ ∃ (connId : Nat) (ctx : ConnectorContext) (isTx : Bool),
    before.connectors[connId]? = some ctx ∧
      after.connectors =
        before.connectors.set connId (ctx.push isTx (cStr (linked.write m.toValue)))

/-- What is owed to a Call: it is handled to the end, and answered once. -/
def Answered (cp : ChargePoint) (type : Int) (message uniqueId : String) : Prop :=
  ∃ after, receive linked env faults cp type message = .ok after ∧
    AnsweredOnce linked uniqueId cp.client after.client

variable {linked} {env} {faults}

/-- **No Call is ever answered**, whatever its action and payload, the handlers, the
registration status and the connection. -/
theorem call_never_answered (cp : ChargePoint) (type : Int) {message uniqueId action : String}
    {payload : Members}
    (parsed : linked.parse (cStr message) = some (Message.call uniqueId action payload).toValue) :
    ¬ Answered linked env faults cp type message uniqueId := by
  rintro ⟨after, ran, -⟩
  have assertion : parseMessage linked cp.callHandlers type message = .error .rapidjson := by
    rw [parseMessage, validateOCPPMessage_null_of_named type ⟨_, parsed, namesType_toValue _⟩]
    rfl
  rw [receive, assertion] at ran
  cases ran

/-- Reads the one message below, and a version reply as a whole. -/
def versionLinked : Linked where
  parse := fun text => if text = "[2,\"m\",\"GetLocalListVersion\",\x7b\x7d]" then
    some (Message.call "m" "GetLocalListVersion" []).toValue else none
  write := fun _ => "[3,\"m\",\x7b\"listVersion\":1\x7d]"
  validateRequest := fun _ _ => true
  validateResponse := fun _ _ => true

/-- Connected and accepted, with the list enabled and its handlers registered. -/
def readyPoint : ChargePoint where
  client := ⟨2, true, true, [{}, {}, {}], [⟨0, false⟩, ⟨1, false⟩, ⟨2, false⟩], [], .idle⟩
  auth := enabledState
  callHandlers := registHandler []

theorem version_call_never_answered : ¬ Answered versionLinked textEnv {} readyPoint 0
    "[2,\"m\",\"GetLocalListVersion\",\x7b\x7d]" "m" :=
  @call_never_answered versionLinked textEnv {} readyPoint 0 _ _ "GetLocalListVersion" [] rfl

/-- Even a GetLocalListVersion that nothing else stands in the way of ends in the
assertion. -/
theorem version_call_asserts : readyPoint.client.isConnected = true ∧
    receive versionLinked textEnv {} readyPoint 0
      "[2,\"m\",\"GetLocalListVersion\",\x7b\x7d]" = .error .rapidjson ∧
    ¬ Answered versionLinked textEnv {} readyPoint 0
      "[2,\"m\",\"GetLocalListVersion\",\x7b\x7d]" "m" := by
  have assertion : receive versionLinked textEnv {} readyPoint 0
      "[2,\"m\",\"GetLocalListVersion\",\x7b\x7d]" = .error .rapidjson := rfl
  refine ⟨rfl, assertion, ?_⟩
  rintro ⟨after, ran, -⟩
  cases assertion.symm.trans ran

/-! ## Behind the gate -/

/-- The handler's answer, once the registration is accepted. -/
def answerOf (env : Env) (faults : Faults) (s : LocalList.State) (payload : Value) :
    CallHandler → Except Failure (Answer × LocalList.State)
  | .sendList => processList env faults s payload
  | .getVersion => (processVersion s).map fun answer => (answer, s)

/-- There is a connector 0, and a result is one its schema knows. -/
def Sendable (linked : Linked) (c : Lifecycle.State) (answer : Answer) : Prop :=
  c.connectors ≠ [] ∧
    match answer with
    | .callError .. => True
    | .updateStatus status =>
        linked.validateResponse "SendLocalList" (.object (statusPayload status)) = true
    | .listVersion version =>
        linked.validateResponse "GetLocalListVersion" (.object (versionPayload version)) = true

theorem dispatch_call (hs : CallHandlers) (uniqueId action : String) (payload : Members) :
    dispatch linked hs MessageType.call.toInt (Message.call uniqueId action payload).toValue =
      .ok (match hs.lookup (cStr action) with
        | none => .dropped
        | some handler =>
            if linked.validateRequest (cStr action) (.object payload) then
              .task handler (Message.call uniqueId action payload).toValue
            else .dropped) := by
  simp only [dispatch, Message.toValue, Value.at_, Value.getString, bind, Except.bind, pure,
    Except.pure, MessageType.toInt, List.getElem?_cons_succ, List.getElem?_cons_zero]
  cases hs.lookup (cStr action) with
  | none => rfl
  | some handler => cases linked.validateRequest (cStr action) (.object payload) <;> rfl

theorem runHandler_call (s : LocalList.State) (handler : CallHandler) (uniqueId action : String)
    (payload : Members) :
    runHandler env faults s (Message.call uniqueId action payload).toValue handler =
      if s.registrationStatus ≠ .accepted then .ok (none, s)
      else (answerOf env faults s (.object payload) handler).map fun outcome =>
        (some (cStr uniqueId, outcome.1), outcome.2) := by
  cases handler with
  | sendList =>
      simp only [runHandler, sendListCallHandler, answerOf, Message.toValue, Value.at_,
        Value.getString, bind, Except.bind, pure, Except.pure, List.getElem?_cons_succ,
        List.getElem?_cons_zero]
      split
      · rfl
      · cases processList env faults s (.object payload) <;> rfl
  | getVersion =>
      simp only [runHandler, getVersionCallHandler, answerOf, Message.toValue, Value.at_,
        Value.getString, bind, Except.bind, pure, Except.pure, List.getElem?_cons_succ,
        List.getElem?_cons_zero]
      by_cases accepted : s.registrationStatus = .accepted
      · simp only [accepted, ne_eq, not_true, if_false]
        cases processVersion s <;> rfl
      · simp only [accepted, ne_eq, not_false_eq_true, if_true]

theorem sendAnswer_of_sendable {c : Lifecycle.State} {answer : Answer} (uniqueId : String)
    (connected : c.isConnected = true) (sendable : Sendable linked c answer) :
    ∃ after, sendAnswer linked c (cStr uniqueId) answer = .ok (true, after) ∧
      AnsweredOnce linked (cStr uniqueId) c after := by
  obtain ⟨some_, valid⟩ := sendable
  obtain ⟨ctx, rest, shape⟩ := List.exists_cons_of_ne_nil some_
  have first : c.connectors[0]? = some ctx := by simp [shape]
  have pushed : ∀ text, c.pushTo 0 false text =
      .ok { c with connectors := c.connectors.set 0 (ctx.push false text) } := by
    intro text
    simp [Lifecycle.State.pushTo, first]
  have answered : ∀ m : Message, Replies m (cStr uniqueId) → AnsweredOnce linked (cStr uniqueId) c
      { c with connectors := c.connectors.set 0 (ctx.push false (cStr (linked.write m.toValue))) } :=
    fun m replies => ⟨m, replies, 0, ctx, false, first, rfl⟩
  cases answer with
  | callError errorCode errorDescription =>
      refine ⟨_, ?_, answered
        (.callError (cStr uniqueId) (cStr errorCode) (cStr errorDescription) []) ⟨.inr rfl, rfl⟩⟩
      simp [sendAnswer, Lifecycle.State.sendCallError, connected, pushed, bind, Except.bind, pure,
        Except.pure, callErrorText, Message.toValue, Value.ofCStr, MessageType.toInt]
  | updateStatus status =>
      refine ⟨_, ?_, answered (.callResult (cStr uniqueId) (statusPayload status)) ⟨.inl rfl, rfl⟩⟩
      simp [sendAnswer, Lifecycle.State.sendCallResult, connected, valid, pushed, bind, Except.bind,
        pure, Except.pure, callResultText, Message.toValue, Value.ofCStr, MessageType.toInt]
  | listVersion version =>
      refine ⟨_, ?_, answered (.callResult (cStr uniqueId) (versionPayload version)) ⟨.inl rfl, rfl⟩⟩
      simp [sendAnswer, Lifecycle.State.sendCallResult, connected, valid, pushed, bind, Except.bind,
        pure, Except.pure, callResultText, Message.toValue, Value.ofCStr, MessageType.toInt]

theorem sendAnswer_of_not_sendable {c : Lifecycle.State} {answer : Answer} {uniqueId : String}
    {sent : Bool × Lifecycle.State} (unsendable : ¬ Sendable linked c answer)
    (ran : sendAnswer linked c uniqueId answer = .ok sent) : sent.2 = c := by
  have filled : ∀ {k : Nat} {ctx : ConnectorContext}, c.connectors[k]? = some ctx →
      c.connectors ≠ [] := by
    rintro k ctx found empty
    simp [empty] at found
  cases answer with
  | callError errorCode errorDescription =>
      obtain same | ⟨ctx, text, found, -⟩ := Lifecycle.sendCallError_ok ran
      · exact same
      · exact absurd ⟨filled found, trivial⟩ unsendable
  | updateStatus status =>
      obtain same | ⟨valid, ctx, text, found, -⟩ := Lifecycle.sendCallResult_ok ran
      · exact same
      · exact absurd ⟨filled found, valid⟩ unsendable
  | listVersion version =>
      obtain same | ⟨valid, ctx, text, found, -⟩ := Lifecycle.sendCallResult_ok ran
      · exact same
      · exact absurd ⟨filled found, valid⟩ unsendable

theorem not_answeredOnce_of_same {c after : Lifecycle.State} {uniqueId : String}
    (same : after.connectors = c.connectors) : ¬ AnsweredOnce linked uniqueId c after := by
  rintro ⟨m, -, connId, ctx, isTx, found, set⟩
  have longer := congrArg (fun cs : List ConnectorContext => cs[connId]?) (same.symm.trans set)
  obtain ⟨inside, -⟩ := List.getElem?_eq_some_iff.1 found
  simp only [found, List.getElem?_set_self inside, Option.some.injEq] at longer
  have lengths := congrArg (fun c : ConnectorContext => c.frames.length) longer
  cases isTx <;> simp [ConnectorContext.push, ConnectorContext.frames] at lengths

/-- Silence is no answer. -/
theorem not_answered_of_silent {cp silent : ChargePoint} {uniqueId : String}
    (same : silent.client = cp.client) :
    ¬ ∃ after, (Except.ok silent : Except Failure ChargePoint) = .ok after ∧
      AnsweredOnce linked uniqueId cp.client after.client := by
  rintro ⟨after, ran, once⟩
  cases ran
  exact not_answeredOnce_of_same (congrArg Lifecycle.State.connectors same) once

/-- A task answers once, or leaves the queues as they are. -/
theorem runTask_answered_iff {cp : ChargePoint} {handler : CallHandler}
    {uniqueId action : String} {payload : Members} (connected : cp.client.isConnected = true) :
    (∃ after, runTask linked env faults cp handler
        (Message.call uniqueId action payload).toValue = .ok after ∧
      AnsweredOnce linked (cStr uniqueId) cp.client after.client) ↔
    cp.auth.registrationStatus = .accepted ∧
      ∃ answer auth, answerOf env faults cp.auth (.object payload) handler = .ok (answer, auth) ∧
        Sendable linked cp.client answer := by
  unfold runTask
  rw [runHandler_call]
  by_cases accepted : cp.auth.registrationStatus = .accepted
  · rw [if_neg (by simp [accepted])]
    cases outcome : answerOf env faults cp.auth (.object payload) handler with
    | error failure =>
        simp only [Except.map, reduceCtorEq, false_and, exists_false, and_false, iff_false]
        exact not_answered_of_silent rfl
    | ok pair =>
        obtain ⟨answer, auth⟩ := pair
        simp only [Except.map]
        constructor
        · rintro ⟨after, ran, once⟩
          refine ⟨accepted, answer, auth, rfl, ?_⟩
          by_contra unsendable
          obtain ⟨sent, sending, same⟩ := bind_ok ran
          cases same
          have := sendAnswer_of_not_sendable unsendable sending
          exact not_answeredOnce_of_same (congrArg Lifecycle.State.connectors this) once
        · rintro ⟨-, _, _, ⟨⟩, sendable⟩
          obtain ⟨after, sending, once⟩ := sendAnswer_of_sendable uniqueId connected sendable
          exact ⟨{ cp with client := after, auth := auth }, by simp [sending, bind, Except.bind,
            pure, Except.pure], once⟩
  · rw [if_pos accepted]
    simp only [accepted, false_and, iff_false]
    exact not_answered_of_silent rfl

/-- **Behind the gate** a Call is answered, and then once, exactly when its action is
registered, its payload valid, the registration accepted, and the handler's answer one
that the client can send. -/
theorem serve_answered_iff {cp : ChargePoint} {uniqueId action : String} {payload : Members}
    (connected : cp.client.isConnected = true) :
    (∃ after, serve linked env faults cp MessageType.call.toInt
        (Message.call uniqueId action payload).toValue = .ok after ∧
      AnsweredOnce linked (cStr uniqueId) cp.client after.client) ↔
    ∃ handler, cp.callHandlers.lookup (cStr action) = some handler ∧
      linked.validateRequest (cStr action) (.object payload) = true ∧
      cp.auth.registrationStatus = .accepted ∧
      ∃ answer auth, answerOf env faults cp.auth (.object payload) handler = .ok (answer, auth) ∧
        Sendable linked cp.client answer := by
  have silent := @not_answered_of_silent linked cp cp (cStr uniqueId) rfl
  unfold serve
  rw [dispatch_call]
  cases registered : cp.callHandlers.lookup (cStr action) with
  | none => simpa [bind, Except.bind, pure, Except.pure] using silent
  | some handler =>
      cases valid : linked.validateRequest (cStr action) (.object payload) with
      | false => simpa [bind, Except.bind, pure, Except.pure] using silent
      | true =>
          refine (runTask_answered_iff connected).trans ?_
          simp

/-- A handler that finds the registration accepted, the configuration readable and, for
SendLocalList, a request in the payload comes to an answer. -/
theorem answerOf_answers (env : Env) (faults : Faults) {s : LocalList.State} {handler : CallHandler}
    {payload : Members} {on : Bool}
    (accepted : s.registrationStatus = .accepted) (readable : localAuthListEnabled s.config = .ok on)
    (shaped : handler = .sendList → ∃ r, Request.ofMembers? payload = some r) :
    ∃ answer auth, answerOf env faults s (.object payload) handler = .ok (answer, auth) := by
  cases handler with
  | sendList =>
      obtain ⟨r, request⟩ := shaped rfl
      obtain ⟨outcome, processed⟩ :=
        processList_answers env faults request accepted readable
      exact ⟨outcome.1, outcome.2, processed⟩
  | getVersion =>
      cases on with
      | true =>
          refine ⟨.listVersion s.localListVersion, s, ?_⟩
          simp [answerOf, processVersion, accepted, readable, bind, Except.bind, pure, Except.pure,
            Except.map]
      | false =>
          refine ⟨.callError "GenericError" "Charge point is not connected", s, ?_⟩
          simp [answerOf, processVersion, accepted, readable, bind, Except.bind, pure, Except.pure,
            Except.map]

/-- So every path of the two handlers ends in one reply, for a client with its
connectors filled and replies that their schemas know. -/
theorem serve_answers {cp : ChargePoint} {uniqueId action : String} {payload : Members}
    {handler : CallHandler} {on : Bool} (connected : cp.client.isConnected = true)
    (filled : cp.client.connectors ≠ [])
    (registered : cp.callHandlers.lookup (cStr action) = some handler)
    (valid : linked.validateRequest (cStr action) (.object payload) = true)
    (shaped : handler = .sendList → ∃ r, Request.ofMembers? payload = some r)
    (knownStatus : ∀ status, linked.validateResponse "SendLocalList"
      (.object (statusPayload status)) = true)
    (knownVersion : ∀ version, linked.validateResponse "GetLocalListVersion"
      (.object (versionPayload version)) = true)
    (accepted : cp.auth.registrationStatus = .accepted)
    (readable : localAuthListEnabled cp.auth.config = .ok on) :
    ∃ after, serve linked env faults cp MessageType.call.toInt
        (Message.call uniqueId action payload).toValue = .ok after ∧
      AnsweredOnce linked (cStr uniqueId) cp.client after.client := by
  obtain ⟨answer, auth, answered⟩ :=
    answerOf_answers env faults accepted readable shaped
  refine (serve_answered_iff connected).2
    ⟨handler, registered, valid, accepted, answer, auth, answered, filled, ?_⟩
  cases answer with
  | callError errorCode errorDescription => trivial
  | updateStatus status => exact knownStatus status
  | listVersion version => exact knownVersion version

end ChargerStack.Ocpp.Dispatch
