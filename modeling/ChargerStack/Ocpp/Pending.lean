/-
# Ocpp.Pending -- outstanding calls of `OCPPClient`

The three kinds of threads that share `m_pending` and the `PendingCall`s in it,
as one step function:

* callers of `sendCall`, each from the creation of its `PendingCall` to the return
  (`enter`, `arm`, `publish`, `push`, `wake`);
* handlers of replies in `parseMessage`: `lookup` under `m_pendingMutex`, then
  `complete` under the lock of the call;
* `retryTimeoutThread`, one pass of it being `passStart`, `passLock`, a `visit` for
  each entry, `passErase`, and then `recheck` and `repush` for each call to re-send.

The remaining labels are the environment: the clock, the connection, and the send
threads, which take frames out of the queues.

One step is one critical section, or one access to what other threads read.  The
expiry branch of a visit reads `finished` twice, once before it takes the lock; a
reply between the two reads leaves what a reply before the first leaves, so the
two reads are one.
-/
import ChargerStack.Lib.Run
import ChargerStack.Ocpp.Client

namespace ChargerStack.Ocpp.Pending

open Cxx Rapidjson

set_option autoImplicit false

/-! ## State -/

/-- `std::chrono::milliseconds` on the nanosecond scale of `steady_clock`. -/
def ms (n : Int) : Int := n * 1000000

/-- `PendingCall`, less its mutex and condition variable. -/
structure PendingCall where
  connId : Nat
  uniqueId : String
  isTx : Bool
  raw : String
  retryCount : Int := 0
  maxRetry : Int := 0
  retryIntervalMs : Int := 0
  expireAt : Int
  nextRetry : Int
  finished : Bool := false
  success : Bool := false
  response : String := ""

/-- Where a `sendCall` invocation stands: `expireAt` set, `nextRetry` set, entered
in `m_pending`, frame queued, returned.  A `true` return carries `rspPayload`. -/
inductive Caller where
  | stamped
  | armed
  | published
  | waiting
  | returned (rspPayload : Option Value)

/-- One invocation of `sendCall` that created a `PendingCall`. -/
structure Invocation where
  call : PendingCall
  caller : Caller

/-- A reply in `parseMessage`, holding the `shared_ptr` it found. -/
structure Handler where
  ref : Nat
  text : String
  message : Message

/-- Where `retryTimeoutThread` stands.  While it scans it holds `m_pendingMutex`. -/
inductive RetryThread where
  | sleeping
  | clocked (now : Int)
  | scanning (now : Int) (todo : List (String × Nat)) (retryList : List Nat)
      (eraseList : List String)
  | resending (now : Int) (todo : List Nat)
  | pushing (now : Int) (ref : Nat) (todo : List Nat)

/-- The client.  A `PendingCall` is named by the index of its invocation. -/
structure State where
  connected : Bool
  connectors : List ConnectorContext
  invocations : List Invocation
  pending : List (String × Nat)
  handlers : List Handler
  retry : RetryThread
  clock : Int

/-- A client with nothing outstanding. -/
def idle (connected : Bool) (connectors : List ConnectorContext) (clock : Int) : State :=
  ⟨connected, connectors, [], [], [], .sleeping, clock⟩

/-- The code it is linked with and the members of `m_connectInfo` it reads. -/
structure Env extends Linked where
  retryInterval : Int
  transactionMessageAttempts : Nat

/-! ## Moves -/

/-- The arguments of a `sendCall`, and the id `generateMessageId` gives it. -/
structure Request where
  uniqueId : String
  action : String
  reqPayload : Value
  connId : Nat
  isTx : Bool
  timeout : Int

inductive Label where
  | enter (r : Request)
  | arm (c : Nat)
  | publish (c : Nat)
  | push (c : Nat)
  | wake (c : Nat)
  | lookup (text : String)
  | complete (i : Nat)
  | passStart
  | passLock (order : List (String × Nat))
  | visit
  | passErase
  | recheck
  | repush
  | passEnd
  | tick (d : Nat)
  | connection (up : Bool)
  | send (connId : Nat)

variable (env : Env)

/-- The `PendingCall` of a request, as it is when `nextRetry` is about to be set. -/
def newCall (now : Int) (r : Request) : PendingCall where
  connId := r.connId
  uniqueId := r.uniqueId
  isTx := r.isTx
  raw := callText env.toLinked r.uniqueId r.action r.reqPayload
  maxRetry := int32 env.transactionMessageAttempts
  retryIntervalMs := env.retryInterval
  expireAt := now + ms r.timeout
  nextRetry := 0

/-- `m_pending.find(uniqueId)`. -/
def find (uniqueId : String) : List (String × Nat) → Option Nat
  | [] => none
  | entry :: rest => if entry.1 = uniqueId then some entry.2 else find uniqueId rest

/-- The re-send branch of a visit. -/
def PendingCall.retryDue (call : PendingCall) (now : Int) : Bool :=
  call.isTx && decide (call.nextRetry ≤ now) && decide (call.retryCount < call.maxRetry)

/-- `retryCount++` and the next deadline; the product is unsigned. -/
def PendingCall.rearm (call : PendingCall) (now : Int) : PendingCall :=
  let retryCount := call.retryCount + 1
  let capped := min retryCount.toNat 8
  let delayMs := uint32 (call.retryIntervalMs * 2 ^ capped)
  { call with retryCount := retryCount, nextRetry := now + ms delayMs }

/-- The reply a validated text is, if it is one. -/
def reply? (text : String) : Option Message :=
  match (env.parse (cStr text)).bind Message.ofValue? with
  | some (.callResult uniqueId payload) => some (.callResult uniqueId payload)
  | some (.callError uniqueId code description details) =>
      some (.callError uniqueId code description details)
  | _ => none

namespace State

def set (s : State) (c : Nat) (i : Invocation) : State :=
  { s with invocations := s.invocations.set c i }

/-- `m_connectors[connId]->…Queue.push(raw)`. -/
def enqueue (s : State) (connId : Nat) (isTx : Bool) (raw : String) : State :=
  { s with connectors := s.connectors.modify connId (·.push isTx raw) }

/-- `m_pendingMutex` is held by the retry thread. -/
def locked (s : State) : Bool :=
  match s.retry with
  | .scanning .. => true
  | _ => false

end State

/-- One step; `none` when the label's thread is not there or has to wait. -/
def step (s : State) : Label → Option State
  | .enter r =>
      if ¬ s.connected ∨ ¬ env.validateRequest r.action r.reqPayload ∨
          s.connectors.length ≤ r.connId then some s
      -- `generateMessageId` does not give an id twice.
      else if r.uniqueId ∈ s.invocations.map (·.call.uniqueId) then none
      else some { s with
        invocations := s.invocations ++ [⟨newCall env s.clock r, .stamped⟩] }
  | .arm c =>
      match s.invocations[c]? with
      | some ⟨call, .stamped⟩ =>
          some (s.set c ⟨{ call with nextRetry := s.clock + ms call.retryIntervalMs }, .armed⟩)
      | _ => none
  | .publish c =>
      match s.invocations[c]? with
      | some ⟨call, .armed⟩ =>
          if s.locked then none
          else some { s.set c ⟨call, .published⟩ with
            pending := (s.pending.filter (·.1 ≠ call.uniqueId)) ++ [(call.uniqueId, c)] }
      | _ => none
  | .push c =>
      match s.invocations[c]? with
      | some ⟨call, .published⟩ =>
          some ((s.set c ⟨call, .waiting⟩).enqueue call.connId call.isTx call.raw)
      | _ => none
  | .wake c =>
      match s.invocations[c]? with
      | some ⟨call, .waiting⟩ =>
          if call.finished then
            if call.success then
              some (s.set c ⟨call, .returned (some ((env.parse (cStr call.response)).getD .null))⟩)
            else some (s.set c ⟨call, .returned none⟩)
          else if call.expireAt ≤ s.clock then some (s.set c ⟨call, .returned none⟩)
          else none
      | _ => none
  | .lookup text =>
      if s.locked then none
      else
        match reply? env text with
        | none => none
        | some message =>
            match find (cStr message.uniqueId) s.pending with
            | none => some s
            | some c => some { s with handlers := s.handlers ++ [⟨c, text, message⟩] }
  | .complete i =>
      match s.handlers[i]? with
      | none => none
      | some h =>
          match s.invocations[h.ref]? with
          | none => none
          | some ⟨call, caller⟩ =>
              let done := { s with handlers := s.handlers.eraseIdx i }
              if call.finished then some done
              else some (done.set h.ref
                ⟨{ call with
                    finished := true
                    success := decide (h.message.type = .callResult)
                    response := h.text }, caller⟩)
  | .passStart =>
      match s.retry with
      | .sleeping => some { s with retry := .clocked s.clock }
      | _ => none
  | .passLock order =>
      match s.retry with
      -- The iteration order of the `unordered_map`.
      | .clocked now =>
          if order.Perm s.pending then some { s with retry := .scanning now order [] [] } else none
      | _ => none
  | .visit =>
      match s.retry with
      | .scanning now ((uid, c) :: todo) retryList eraseList =>
          match s.invocations[c]? with
          | none => none
          | some ⟨call, caller⟩ =>
              if call.finished then
                some { s with retry := .scanning now todo retryList (eraseList ++ [uid]) }
              else if call.retryDue now then
                some { s with retry := .scanning now todo (retryList ++ [c]) eraseList }
              else if call.expireAt ≤ now then
                some { s.set c ⟨{ call with finished := true, success := false }, caller⟩ with
                  retry := .scanning now todo retryList (eraseList ++ [uid]) }
              else some { s with retry := .scanning now todo retryList eraseList }
      | _ => none
  | .passErase =>
      match s.retry with
      | .scanning now [] retryList eraseList =>
          some { s with
            pending := s.pending.filter (·.1 ∉ eraseList)
            retry := .resending now retryList }
      | _ => none
  | .recheck =>
      match s.retry with
      | .resending now (c :: todo) =>
          match s.invocations[c]? with
          | none => none
          | some ⟨call, caller⟩ =>
              if call.finished then some { s with retry := .resending now todo }
              else some { s.set c ⟨call.rearm now, caller⟩ with retry := .pushing now c todo }
      | _ => none
  | .repush =>
      match s.retry with
      | .pushing now c todo =>
          match s.invocations[c]? with
          | none => none
          | some ⟨call, _⟩ =>
              if call.connId < s.connectors.length then
                some { s.enqueue call.connId true call.raw with retry := .resending now todo }
              else some { s with retry := .resending now todo }
      | _ => none
  | .passEnd =>
      match s.retry with
      | .resending _ [] => some { s with retry := .sleeping }
      | _ => none
  | .tick d => some { s with clock := s.clock + d }
  | .connection up => some { s with connected := up }
  | .send connId =>
      match s.connectors[connId]? with
      | none => none
      | some ctx =>
          match ctx.pop with
          | none => none
          | some (_, rest) => some { s with connectors := s.connectors.set connId rest }

/-! ## What a step can do -/

/-- Every move with its guard and its result. -/
inductive Moves (s : State) : Label → State → Prop where
  | rejected (r : Request) : Moves s (.enter r) s
  | enter (r : Request) (fresh : r.uniqueId ∉ s.invocations.map (·.call.uniqueId)) :
      Moves s (.enter r) { s with
        invocations := s.invocations ++ [⟨newCall env s.clock r, .stamped⟩] }
  | arm {c : Nat} {call : PendingCall} (found : s.invocations[c]? = some ⟨call, .stamped⟩) :
      Moves s (.arm c)
        (s.set c ⟨{ call with nextRetry := s.clock + ms call.retryIntervalMs }, .armed⟩)
  | publish {c : Nat} {call : PendingCall} (found : s.invocations[c]? = some ⟨call, .armed⟩) :
      Moves s (.publish c) { s.set c ⟨call, .published⟩ with
        pending := (s.pending.filter (·.1 ≠ call.uniqueId)) ++ [(call.uniqueId, c)] }
  | push {c : Nat} {call : PendingCall} (found : s.invocations[c]? = some ⟨call, .published⟩) :
      Moves s (.push c) ((s.set c ⟨call, .waiting⟩).enqueue call.connId call.isTx call.raw)
  | answered {c : Nat} {call : PendingCall} (found : s.invocations[c]? = some ⟨call, .waiting⟩)
      (finished : call.finished = true) (success : call.success = true) :
      Moves s (.wake c)
        (s.set c ⟨call, .returned (some ((env.parse (cStr call.response)).getD .null))⟩)
  | refused {c : Nat} {call : PendingCall} (found : s.invocations[c]? = some ⟨call, .waiting⟩)
      (ended : call.finished = true ∨ call.expireAt ≤ s.clock) :
      Moves s (.wake c) (s.set c ⟨call, .returned none⟩)
  | unknown (text : String) : Moves s (.lookup text) s
  | lookup {text : String} {message : Message} {c : Nat} (valid : reply? env text = some message)
      (found : find (cStr message.uniqueId) s.pending = some c) :
      Moves s (.lookup text) { s with handlers := s.handlers ++ [⟨c, text, message⟩] }
  | duplicate {i : Nat} {h : Handler} {call : PendingCall} {caller : Caller}
      (handling : s.handlers[i]? = some h) (found : s.invocations[h.ref]? = some ⟨call, caller⟩)
      (finished : call.finished = true) :
      Moves s (.complete i) { s with handlers := s.handlers.eraseIdx i }
  | complete {i : Nat} {h : Handler} {call : PendingCall} {caller : Caller}
      (handling : s.handlers[i]? = some h) (found : s.invocations[h.ref]? = some ⟨call, caller⟩)
      (unfinished : call.finished = false) :
      Moves s (.complete i) (State.set { s with handlers := s.handlers.eraseIdx i } h.ref
        ⟨{ call with
            finished := true
            success := decide (h.message.type = .callResult)
            response := h.text }, caller⟩)
  | passStart (sleeping : s.retry = .sleeping) :
      Moves s .passStart { s with retry := .clocked s.clock }
  | passLock {now : Int} {order : List (String × Nat)} (clocked : s.retry = .clocked now)
      (perm : order.Perm s.pending) :
      Moves s (.passLock order) { s with retry := .scanning now order [] [] }
  | visitFinished {now : Int} {uid : String} {c : Nat} {todo : List (String × Nat)}
      {retryList : List Nat} {eraseList : List String}
      (scanning : s.retry = .scanning now ((uid, c) :: todo) retryList eraseList) :
      Moves s .visit { s with retry := .scanning now todo retryList (eraseList ++ [uid]) }
  | visitRetry {now : Int} {uid : String} {c : Nat} {todo : List (String × Nat)}
      {retryList : List Nat} {eraseList : List String} {call : PendingCall} {caller : Caller}
      (scanning : s.retry = .scanning now ((uid, c) :: todo) retryList eraseList)
      (found : s.invocations[c]? = some ⟨call, caller⟩) (unfinished : call.finished = false)
      (due : call.retryDue now = true) :
      Moves s .visit { s with retry := .scanning now todo (retryList ++ [c]) eraseList }
  | visitExpired {now : Int} {uid : String} {c : Nat} {todo : List (String × Nat)}
      {retryList : List Nat} {eraseList : List String} {call : PendingCall} {caller : Caller}
      (scanning : s.retry = .scanning now ((uid, c) :: todo) retryList eraseList)
      (found : s.invocations[c]? = some ⟨call, caller⟩) (unfinished : call.finished = false)
      (expired : call.expireAt ≤ now) :
      Moves s .visit
        { s.set c ⟨{ call with finished := true, success := false }, caller⟩ with
          retry := .scanning now todo retryList (eraseList ++ [uid]) }
  | visitKept {now : Int} {uid : String} {c : Nat} {todo : List (String × Nat)}
      {retryList : List Nat} {eraseList : List String}
      (scanning : s.retry = .scanning now ((uid, c) :: todo) retryList eraseList) :
      Moves s .visit { s with retry := .scanning now todo retryList eraseList }
  | passErase {now : Int} {retryList : List Nat} {eraseList : List String}
      (scanning : s.retry = .scanning now [] retryList eraseList) :
      Moves s .passErase { s with
        pending := s.pending.filter (·.1 ∉ eraseList), retry := .resending now retryList }
  | recheckFinished {now : Int} {c : Nat} {todo : List Nat}
      (resending : s.retry = .resending now (c :: todo)) :
      Moves s .recheck { s with retry := .resending now todo }
  | recheck {now : Int} {c : Nat} {todo : List Nat} {call : PendingCall} {caller : Caller}
      (resending : s.retry = .resending now (c :: todo))
      (found : s.invocations[c]? = some ⟨call, caller⟩) (unfinished : call.finished = false) :
      Moves s .recheck { s.set c ⟨call.rearm now, caller⟩ with retry := .pushing now c todo }
  | repush {now : Int} {c : Nat} {todo : List Nat} {call : PendingCall} {caller : Caller}
      (pushing : s.retry = .pushing now c todo)
      (found : s.invocations[c]? = some ⟨call, caller⟩)
      (inRange : call.connId < s.connectors.length) :
      Moves s .repush
        { s.enqueue call.connId true call.raw with retry := .resending now todo }
  | repushNowhere {now : Int} {c : Nat} {todo : List Nat} {call : PendingCall} {caller : Caller}
      (pushing : s.retry = .pushing now c todo)
      (found : s.invocations[c]? = some ⟨call, caller⟩)
      (outside : s.connectors.length ≤ call.connId) :
      Moves s .repush { s with retry := .resending now todo }
  | passEnd {now : Int} (resending : s.retry = .resending now []) :
      Moves s .passEnd { s with retry := .sleeping }
  | tick (d : Nat) : Moves s (.tick d) { s with clock := s.clock + d }
  | connection (up : Bool) : Moves s (.connection up) { s with connected := up }
  | send {connId : Nat} {ctx rest : ConnectorContext} {msg : String}
      (found : s.connectors[connId]? = some ctx) (popped : ctx.pop = some (msg, rest)) :
      Moves s (.send connId) { s with connectors := s.connectors.set connId rest }

variable {env}

theorem step_moves {s t : State} {l : Label} (moved : step env s l = some t) :
    Moves env s l t := by
  cases l <;> simp only [step] at moved
  case enter r =>
      split at moved
      · cases moved; exact .rejected r
      · split at moved
        · cases moved
        · cases moved; exact .enter r ‹_›
  case arm c =>
      split at moved <;> cases moved
      exact .arm ‹_›
  case publish c =>
      split at moved
      · split at moved <;> cases moved
        exact .publish ‹_›
      · cases moved
  case push c =>
      split at moved <;> cases moved
      exact .push ‹_›
  case wake c =>
      split at moved
      · split at moved
        · split at moved <;> cases moved
          · exact .answered ‹_› ‹_› ‹_›
          · exact .refused ‹_› (.inl ‹_›)
        · split at moved <;> cases moved
          exact .refused ‹_› (.inr ‹_›)
      · cases moved
  case lookup text =>
      split at moved
      · cases moved
      · split at moved
        · cases moved
        · split at moved <;> cases moved
          · exact .unknown text
          · exact .lookup ‹_› ‹_›
  case complete i =>
      split at moved
      · cases moved
      · split at moved
        · cases moved
        · split at moved <;> cases moved
          · exact .duplicate ‹_› ‹_› ‹_›
          · exact .complete ‹_› ‹_› (Bool.eq_false_iff.2 ‹_›)
  case passStart =>
      split at moved <;> cases moved
      exact .passStart ‹_›
  case passLock order =>
      split at moved
      · split at moved <;> cases moved
        exact .passLock ‹_› ‹_›
      · cases moved
  case visit =>
      split at moved
      · split at moved
        · cases moved
        · split at moved
          · cases moved
            exact .visitFinished ‹_›
          · have unfinished := Bool.eq_false_iff.2 ‹¬ PendingCall.finished _ = true›
            split at moved
            · cases moved
              exact .visitRetry ‹_› ‹_› unfinished ‹_›
            · split at moved <;> cases moved
              · exact .visitExpired ‹_› ‹_› unfinished ‹_›
              · exact .visitKept ‹_›
      · cases moved
  case passErase =>
      split at moved <;> cases moved
      exact .passErase ‹_›
  case recheck =>
      split at moved
      · split at moved
        · cases moved
        · split at moved <;> cases moved
          · exact .recheckFinished ‹_›
          · exact .recheck ‹_› ‹_› (Bool.eq_false_iff.2 ‹_›)
      · cases moved
  case repush =>
      split at moved
      · split at moved
        · cases moved
        · split at moved <;> cases moved
          · exact .repush ‹_› ‹_› ‹_›
          · exact .repushNowhere ‹_› ‹_› (by omega)
      · cases moved
  case passEnd =>
      split at moved <;> cases moved
      exact .passEnd ‹_›
  case tick d => cases moved; exact .tick d
  case connection up => cases moved; exact .connection up
  case send connId =>
      split at moved
      · cases moved
      · split at moved <;> cases moved
        exact .send ‹_› ‹_›

/-! ## What never changes -/

/-- What a run keeps of an invocation: its id and deadline, the outcome of a
finished call, and the result of a caller that has returned. -/
structure Follows (i j : Invocation) : Prop where
  uniqueId : j.call.uniqueId = i.call.uniqueId
  expireAt : j.call.expireAt = i.call.expireAt
  settled : i.call.finished = true → j.call.finished = true ∧
    j.call.success = i.call.success ∧ j.call.response = i.call.response
  returned : ∀ rsp, i.caller = .returned rsp → j.caller = .returned rsp

theorem Follows.refl (i : Invocation) : Follows i i :=
  ⟨rfl, rfl, fun finished => ⟨finished, rfl, rfl⟩, fun _ same => same⟩

theorem Follows.trans {i j k : Invocation} (first : Follows i j) (second : Follows j k) :
    Follows i k where
  uniqueId := second.uniqueId.trans first.uniqueId
  expireAt := second.expireAt.trans first.expireAt
  settled finished := by
    obtain ⟨still, success, response⟩ := first.settled finished
    obtain ⟨final, success', response'⟩ := second.settled still
    exact ⟨final, success'.trans success, response'.trans response⟩
  returned rsp same := second.returned rsp (first.returned rsp same)

/-- Every invocation of `s` is still there in `t`, further on. -/
def Later (s t : State) : Prop :=
  ∀ (c : Nat) i, s.invocations[c]? = some i → ∃ j, t.invocations[c]? = some j ∧ Follows i j

theorem later_refl (s : State) : Later s s := fun _ i found => ⟨i, found, .refl i⟩

theorem later_trans {s t u : State} (first : Later s t) (second : Later t u) : Later s u := by
  intro c i found
  obtain ⟨j, middle, follows⟩ := first c i found
  obtain ⟨k, last, follows'⟩ := second c j middle
  exact ⟨k, last, follows.trans follows'⟩

theorem later_of_same {s t : State} (same : t.invocations = s.invocations) : Later s t :=
  fun _ i found => ⟨i, same ▸ found, .refl i⟩

theorem getElem?_snoc {α : Type} {xs : List α} {x y : α} {c : Nat}
    (found : (xs ++ [x])[c]? = some y) : xs[c]? = some y ∨ c = xs.length ∧ y = x := by
  rw [List.getElem?_append] at found
  split at found
  · exact .inl found
  · obtain ⟨bound, same⟩ := List.getElem?_eq_some_iff.1 found
    simp only [List.length_singleton] at bound
    have here : c - xs.length = 0 := by omega
    simp only [here, List.getElem_cons_zero] at same
    exact .inr ⟨by omega, same.symm⟩

theorem getElem?_old {α : Type} {xs : List α} {x y : α} {c : Nat} (found : xs[c]? = some y) :
    (xs ++ [x])[c]? = some y := by
  obtain ⟨bound, -⟩ := List.getElem?_eq_some_iff.1 found
  exact (List.getElem?_append_left bound).trans found

theorem set_self {s : State} {c : Nat} {i j : Invocation} (found : s.invocations[c]? = some i) :
    (s.set c j).invocations[c]? = some j := by
  obtain ⟨bound, -⟩ := List.getElem?_eq_some_iff.1 found
  simp [State.set, bound]

theorem set_other {s : State} {c d : Nat} {j : Invocation} (ne : c ≠ d) :
    (s.set c j).invocations[d]? = s.invocations[d]? := by
  simp [State.set, List.getElem?_set_ne ne]

theorem forall_set {P : Invocation → Prop} {s t : State} {c : Nat} {i j : Invocation}
    (all : ∀ (d : Nat) k, s.invocations[d]? = some k → P k) (found : s.invocations[c]? = some i)
    (same : t.invocations = (s.set c j).invocations) (new : P i → P j) :
    ∀ (d : Nat) k, t.invocations[d]? = some k → P k := by
  intro d k other
  rw [same] at other
  by_cases here : c = d
  · subst here
    obtain rfl := Option.some.inj ((set_self found).symm.trans other)
    exact new (all c i found)
  · exact all d k ((set_other here).symm.trans other)

theorem later_set {s t : State} {c : Nat} {i j : Invocation} (found : s.invocations[c]? = some i)
    (same : t.invocations = (s.set c j).invocations) (follows : Follows i j) : Later s t := by
  intro d k other
  rw [same]
  by_cases here : c = d
  · subst here
    obtain rfl : k = i := Option.some.inj (other.symm.trans found)
    exact ⟨j, set_self found, follows⟩
  · exact ⟨k, (set_other here).trans other, .refl k⟩

/-- One step of any thread keeps what is settled. -/
theorem later_step {s t : State} {l : Label} (moved : step env s l = some t) : Later s t := by
  have unset : ∀ {call : PendingCall} {p q : Caller}, (∀ rsp, p ≠ .returned rsp) →
      Follows ⟨call, p⟩ ⟨call, q⟩ := fun outside =>
    ⟨rfl, rfl, fun finished => ⟨finished, rfl, rfl⟩, fun rsp same => absurd same (outside rsp)⟩
  cases step_moves moved with
  | enter r fresh =>
      intro c i found
      exact ⟨i, getElem?_old found, .refl i⟩
  | arm found =>
      exact later_set found rfl
        ⟨rfl, rfl, fun finished => ⟨finished, rfl, rfl⟩, fun _ same => nomatch same⟩
  | publish found => exact later_set found rfl (unset fun _ same => nomatch same)
  | push found => exact later_set found rfl (unset fun _ same => nomatch same)
  | answered found => exact later_set found rfl (unset fun _ same => nomatch same)
  | refused found => exact later_set found rfl (unset fun _ same => nomatch same)
  | complete handling found unfinished =>
      exact later_set found rfl
        ⟨rfl, rfl, fun finished => absurd finished (by simp [unfinished]), fun _ same => same⟩
  | visitExpired scanning found unfinished =>
      exact later_set found rfl
        ⟨rfl, rfl, fun finished => absurd finished (by simp [unfinished]), fun _ same => same⟩
  | recheck resending found =>
      exact later_set found rfl
        ⟨rfl, rfl, fun finished => ⟨finished, rfl, rfl⟩, fun _ same => same⟩
  | _ => exact later_of_same rfl

theorem later_exec {s t : State} {ls : List Label} (ran : Lib.exec (step env) s ls = some t) :
    Later s t :=
  Lib.exec_related later_refl (fun _ _ _ => later_trans) (fun _ _ _ => later_step) ran

end ChargerStack.Ocpp.Pending
