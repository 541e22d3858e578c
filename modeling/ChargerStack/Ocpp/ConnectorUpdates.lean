/-
# Ocpp.ConnectorUpdates -- the four mutators, memory first and the table after

`updateStatus`, `updateTransaction`, `updateReservation` and `updateAvailability`
write the connector in memory and then call `save`.  The first drops the result of
`save` and reports success; the other three report it, with memory already changed.

* `run_effect`: an operation stops before it changes anything, stores the changed
  connector in memory and table, or changes memory only;
* `faithful_iff`: from a state where memory and table agree, one operation keeps
  what its result says exactly when it meets `Sound`;
* `neverDiverges_iff`: the same for a whole run.
-/
import ChargerStack.Lib.Run
import ChargerStack.Ocpp.Connectors

namespace ChargerStack.Ocpp.Connectors

open Cxx Sqlite Lib

set_option autoImplicit false

/-! ## The status transitions -/

def statusToTableId : ChargePointStatus → Nat
  | .available => 1
  | .preparing => 2
  | .charging => 3
  | .suspendedEV => 4
  | .suspendedEVSE => 5
  | .finishing => 6
  | .reserved => 7
  | .unavailable => 8
  | .faulted => 9

def allowedTransitions : List (Nat × List Nat) :=
  [(1, [2, 4, 5, 7, 8, 9]),
    (2, [1, 3, 4, 5, 6, 9]),
    (3, [1, 4, 5, 6, 9]),
    (4, [1, 3, 5, 6, 8, 9]),
    (5, [1, 3, 4, 6, 8, 9]),
    (6, [1, 2, 8, 9]),
    (7, [1, 2, 8, 9]),
    (8, [1, 2, 9]),
    (9, [1, 2, 4, 5, 6, 7, 8])]

def checkStatusTransition (current target : ChargePointStatus) : Bool :=
  let fromId := statusToTableId current
  let toId := statusToTableId target
  if fromId = 0 ∨ toId = 0 then false
  else
    match allowedTransitions.lookup fromId with
    | none => false
    | some targets => targets.contains toId

/-- The enumerator's value, in the order of the declaration. -/
def statusValue : ChargePointStatus → Int
  | .available => 0
  | .preparing => 1
  | .charging => 2
  | .suspendedEVSE => 3
  | .suspendedEV => 4
  | .finishing => 5
  | .reserved => 6
  | .unavailable => 7
  | .faulted => 8

/-- The range check of `updateStatus`: below `Available` or above `Faulted`. -/
def outOfRange (status : ChargePointStatus) : Bool :=
  decide (statusValue status < statusValue .available) ||
    decide (statusValue .faulted < statusValue status)

@[simp] theorem outOfRange_eq_false (status : ChargePointStatus) : outOfRange status = false := by
  cases status <;> rfl

/-! ## The operations -/

/-- `enum class ChargePointErrorCode`. -/
inductive ChargePointErrorCode where
  | connectorLockFailure | eVCommunicationError | groundFailure | highTemperature | internalError
  | localListConflict | noError | otherError | overCurrentFailure | overVoltage | powerMeterFailure
  | powerSwitchFailure | readerFailure | resetFailure | underVoltage | weakSignal
  deriving DecidableEq, Repr

/-- What the task `updateStatus` enqueues hands to `m_notifier.sendCall`. -/
structure Notification where
  id : UInt32
  error : ChargePointErrorCode
  status : ChargePointStatus
  info : String
  deriving DecidableEq

/-- What a mutator returns, leaves behind and enqueues. -/
structure Outcome where
  returned : Bool
  state : State
  enqueued : Option Notification := none

/-- Writing through the pointer `get(id)` returned. -/
def State.put (s : State) (id : UInt32) (c : Connector) : State :=
  { s with connectors := s.connectors.set id.toNat c }

variable (engine : Engine)

/-- `updateStatus`; `done` is the result of `m_qUpdate->exec()`. -/
def updateStatus (s : State) (id : UInt32) (targetStatus : ChargePointStatus)
    (error : ChargePointErrorCode) (info : String) (force done : Bool) : Outcome :=
  match s.get id with
  | none => { returned := false, state := s }
  | some c =>
      let currentStatus := c.status
      if outOfRange currentStatus || outOfRange targetStatus then { returned := false, state := s }
      else if !force && !checkStatusTransition currentStatus targetStatus then
        { returned := false, state := s }
      else
        let after :=
          if c.status ≠ targetStatus then
            -- The result of `save` is not looked at.
            ((s.put id { c with status := targetStatus }).save engine id done).2
          else s
        { returned := true, state := after, enqueued := some ⟨id, error, targetStatus, info⟩ }

/-- The body the other three share: the assignments, then `return save(id)`. -/
def assignAndSave (assign : Connector → Connector) (s : State) (id : UInt32) (done : Bool) :
    Outcome :=
  match s.get id with
  | none => { returned := false, state := s }
  | some c =>
      if ¬ s.qUpdate then { returned := false, state := s }
      else
        let saved := (s.put id (assign c)).save engine id done
        { returned := saved.1, state := saved.2 }

/-- The assignments of `updateTransaction`. -/
def assignTransaction (transactionId : UInt32) (idTag parentIdTag : String) (c : Connector) :
    Connector :=
  { c with transaction := { id := transactionId, idTag := idTag, parentIdTag := parentIdTag } }

def updateTransaction (s : State) (id transactionId : UInt32) (idTag parentIdTag : String)
    (done : Bool) : Outcome :=
  assignAndSave engine (assignTransaction transactionId idTag parentIdTag) s id done

/-- The assignments of `updateReservation`. -/
def assignReservation (reservation : ConnectorReservation) (c : Connector) : Connector :=
  { c with reservation := reservation }

def updateReservation (s : State) (id reservationId : UInt32) (idTag parentIdTag : String)
    (expiryDate : Int) (status : ReservationStatus) (done : Bool) : Outcome :=
  assignAndSave engine (assignReservation
    { id := reservationId, idTag := idTag, parentIdTag := parentIdTag, expiry := expiryDate,
      status := status }) s id done

/-- The assignment of `updateAvailability`. -/
def assignAvailability (availability : AvailabilityType) (c : Connector) : Connector :=
  { c with availability := availability }

def updateAvailability (s : State) (id : UInt32) (availability : AvailabilityType) (done : Bool) :
    Outcome :=
  assignAndSave engine (assignAvailability availability) s id done

/-- A call of one of the four, with its arguments. -/
inductive Operation where
  | updateStatus (id : UInt32) (targetStatus : ChargePointStatus) (error : ChargePointErrorCode)
      (info : String) (force : Bool)
  | updateTransaction (id transactionId : UInt32) (idTag parentIdTag : String)
  | updateReservation (id reservationId : UInt32) (idTag parentIdTag : String) (expiryDate : Int)
      (status : ReservationStatus)
  | updateAvailability (id : UInt32) (availability : AvailabilityType)

namespace Operation

/-- The connector it is about. -/
def id : Operation → UInt32
  | .updateStatus id .. => id
  | .updateTransaction id .. => id
  | .updateReservation id .. => id
  | .updateAvailability id _ => id

/-- Its assignments to the connector. -/
def assign : Operation → Connector → Connector
  | .updateStatus _ targetStatus _ _ _, c => { c with status := targetStatus }
  | .updateTransaction _ transactionId idTag parentIdTag, c =>
      assignTransaction transactionId idTag parentIdTag c
  | .updateReservation _ reservationId idTag parentIdTag expiryDate status, c =>
      assignReservation
        { id := reservationId, idTag := idTag, parentIdTag := parentIdTag, expiry := expiryDate,
          status := status } c
  | .updateAvailability _ availability, c => assignAvailability availability c

def run (s : State) (done : Bool) : Operation → Outcome
  | .updateStatus id targetStatus error info force =>
      Connectors.updateStatus engine s id targetStatus error info force done
  | .updateTransaction id transactionId idTag parentIdTag =>
      Connectors.updateTransaction engine s id transactionId idTag parentIdTag done
  | .updateReservation id reservationId idTag parentIdTag expiryDate status =>
      Connectors.updateReservation engine s id reservationId idTag parentIdTag expiryDate status done
  | .updateAvailability id availability =>
      Connectors.updateAvailability engine s id availability done

/-- Its checks let it through to the assignments. -/
def Reaches (s : State) (c : Connector) : Operation → Prop
  | .updateStatus _ targetStatus _ _ force =>
      (force = true ∨ checkStatusTransition c.status targetStatus = true) ∧ c.status ≠ targetStatus
  | _ => s.qUpdate = true

end Operation

/-- One call of a run; the second part is the result of its UPDATE. -/
def step (s : State) (call : Operation × Bool) : Option State :=
  some (call.1.run engine s call.2).state

/-! ## What the result promises -/

variable {engine}

/-- The row's columns hold the connector. -/
structure Agrees (row : Row) (c : Connector) : Prop where
  status : row.status = .text (chargePointStatusMap.toString c.status "Available")
  transactionId : row.transactionId = .integer c.transaction.id.toNat
  transactionIdTag : row.transactionIdTag = .text c.transaction.idTag
  transactionParentIdTag : row.transactionParentIdTag = .text c.transaction.parentIdTag
  reservationId : row.reservationId = .integer c.reservation.id.toNat
  reservationIdTag : row.reservationIdTag = .text c.reservation.idTag
  reservationParentIdTag : row.reservationParentIdTag = .text c.reservation.parentIdTag
  reservationExpiryDate : row.reservationExpiryDate = .integer c.reservation.expiry
  availability : row.availability = .integer c.availability.toInt

variable (engine)

/-- The rows of the connector. -/
def State.rows (s : State) (id : UInt32) : List Row := s.table.filter (State.matches_ engine id)

/-- The connector, when there is one, has one row, and the row holds it. -/
def AgreesAt (s : State) (id : UInt32) : Prop :=
  ∀ c, s.get id = some c → ∃ row, s.rows engine id = [row] ∧ Agrees row c

/-- Memory and table agree. -/
def Agree (s : State) : Prop := ∀ id, AgreesAt engine s id

/-- What the result of a call is to mean. -/
structure Faithful (s : State) (call : Operation × Bool) : Prop where
  stored : (call.1.run engine s call.2).returned = true →
    AgreesAt engine (call.1.run engine s call.2).state call.1.id
  untouched : (call.1.run engine s call.2).returned = false →
    (call.1.run engine s call.2).state.get call.1.id = s.get call.1.id ∧
      (call.1.run engine s call.2).state.rows engine call.1.id = s.rows engine call.1.id

/-- An operation that gets as far as its assignments has its UPDATE prepared and
executed with texts free of NUL, or assigns what the connector holds already. -/
def Sound (s : State) (call : Operation × Bool) : Prop :=
  ∀ c, s.get call.1.id = some c → call.1.Reaches s c →
    if s.qUpdate = true ∧ call.2 = true then Clean (call.1.assign c) else call.1.assign c = c

/-- Every call of the run keeps what its result means, and memory and table agree in
every state on the way. -/
def NeverDiverges (s : State) (calls : List (Operation × Bool)) : Prop :=
  Along (step engine) (Faithful engine) s calls ∧
    ∀ done t, done <+: calls → exec (step engine) s done = some t → Agree engine t

/-! ## One call -/

variable {engine} {s t : State} {id other : UInt32} {c d : Connector} {done : Bool}

theorem get_put (here : s.get id = some c) : (s.put id d).get id = some d :=
  List.getElem?_set_self (List.getElem?_eq_some_iff.1 here).1

theorem get_put_of_ne (apart : other ≠ id) : (s.put id d).get other = s.get other := by
  have positions : id.toNat ≠ other.toNat := fun same => apart (UInt32.toNat_inj.1 same).symm
  exact List.getElem?_set_ne positions

theorem put_self (here : s.get id = some c) : s.put id c = s := by
  obtain ⟨connectors, table, qUpdate, qFind⟩ := s
  obtain ⟨bound, rfl⟩ := List.getElem?_eq_some_iff.1 here
  simp [State.put]

variable (engine) in
/-- The connector changed in memory and in its row. -/
def State.stored (s : State) (id : UInt32) (c : Connector) : State :=
  { s.put id c with
    table := s.table.map fun row => if State.matches_ engine id row then update engine row c else row }

theorem save_put (here : s.get id = some c) :
    (s.put id d).save engine id done =
      if s.qUpdate = true ∧ done = true then (true, s.stored engine id d) else (false, s.put id d) := by
  unfold State.save
  rw [get_put here]
  obtain ⟨connectors, table, qUpdate, qFind⟩ := s
  cases qUpdate <;> cases done <;> rfl

theorem assignAndSave_of_prepared (assign : Connector → Connector) (here : s.get id = some c)
    (prepared : s.qUpdate = true) :
    assignAndSave engine assign s id done =
      if done = true then { returned := true, state := s.stored engine id (assign c) }
      else { returned := false, state := s.put id (assign c) } := by
  simp only [assignAndSave, here, prepared, save_put here, true_and, not_true_eq_false, if_false]
  cases done <;> rfl

theorem assignAndSave_of_not_prepared (assign : Connector → Connector)
    (missing : s.get id = none ∨ s.qUpdate = false) :
    assignAndSave engine assign s id done = { returned := false, state := s } := by
  unfold assignAndSave
  rcases missing with missing | missing
  · rw [missing]
  · split
    · rfl
    · simp [missing]

variable (engine) in
/-- What a call does: it stops before its assignments, or it stores the changed
connector, or it changes memory alone, which only a change of status reports as done. -/
def Effect (op : Operation) (s : State) (done : Bool) (out : Outcome) : Prop :=
  ((∀ c, s.get op.id = some c → ¬ op.Reaches s c) ∧ out.state = s) ∨
  ∃ c, s.get op.id = some c ∧ op.Reaches s c ∧
    if s.qUpdate = true ∧ done = true then
      out.returned = true ∧ out.state = s.stored engine op.id (op.assign c)
    else
      out.state = s.put op.id (op.assign c) ∧
        (out.returned = true → (op.assign c).status ≠ c.status)

theorem assignAndSave_effect (op : Operation) (reaches : ∀ c, op.Reaches s c ↔ s.qUpdate = true) :
    Effect engine op s done (assignAndSave engine op.assign s op.id done) := by
  cases here : s.get op.id with
  | none =>
      refine .inl ⟨fun c found => ?_, ?_⟩
      · rw [here] at found
        cases found
      · rw [assignAndSave_of_not_prepared op.assign (.inl here)]
  | some c =>
      cases prepared : s.qUpdate with
      | false =>
          refine .inl ⟨fun c _ reached => ?_, ?_⟩
          · rw [reaches, prepared] at reached
            cases reached
          · rw [assignAndSave_of_not_prepared op.assign (.inr prepared)]
      | true =>
          refine .inr ⟨c, here, (reaches c).2 prepared, ?_⟩
          rw [assignAndSave_of_prepared op.assign here prepared, prepared]
          cases done with
          | true => simp
          | false => simp

theorem updateStatus_of_allowed {targetStatus : ChargePointStatus} {force : Bool}
    (error : ChargePointErrorCode) (info : String) (here : s.get id = some c)
    (allowed : (!force && !checkStatusTransition c.status targetStatus) = false)
    (apart : c.status ≠ targetStatus) :
    updateStatus engine s id targetStatus error info force done =
      { returned := true
        state :=
          if s.qUpdate = true ∧ done = true then s.stored engine id { c with status := targetStatus }
          else s.put id { c with status := targetStatus }
        enqueued := some ⟨id, error, targetStatus, info⟩ } := by
  simp only [updateStatus, here, outOfRange_eq_false, Bool.or_self, allowed, save_put here, if_pos apart,
    Bool.false_eq_true, if_false]
  split <;> rfl

theorem updateStatus_effect (targetStatus : ChargePointStatus) (error : ChargePointErrorCode)
    (info : String) (force : Bool) :
    Effect engine (.updateStatus id targetStatus error info force) s done
      (updateStatus engine s id targetStatus error info force done) := by
  cases here : s.get id with
  | none =>
      refine .inl ⟨fun c found => ?_, ?_⟩
      · rw [show (Operation.updateStatus id targetStatus error info force).id = id from rfl,
          here] at found
        cases found
      · simp only [updateStatus, here]
  | some c =>
      cases refused : (!force && !checkStatusTransition c.status targetStatus) with
      | true =>
          refine .inl ⟨fun d found reached => ?_, ?_⟩
          · cases here.symm.trans found
            have allowed := reached.1
            simp_all
          · simp [updateStatus, here, refused]
      | false =>
          by_cases same : c.status = targetStatus
          · refine .inl ⟨fun d found reached => ?_, ?_⟩
            · cases here.symm.trans found
              exact reached.2 same
            · subst same
              simp [updateStatus, here, refused]
          · refine .inr ⟨c, here, ⟨?_, same⟩, ?_⟩
            · cases force <;> simp_all
            · rw [updateStatus_of_allowed error info here refused same]
              split
              · exact ⟨rfl, rfl⟩
              · exact ⟨rfl, fun _ => Ne.symm same⟩

variable (engine) in
theorem run_effect (op : Operation) (s : State) (done : Bool) :
    Effect engine op s done (op.run engine s done) := by
  cases op with
  | updateStatus id targetStatus error info force =>
      exact updateStatus_effect targetStatus error info force
  | updateTransaction => exact assignAndSave_effect _ fun _ => Iff.rfl
  | updateReservation => exact assignAndSave_effect _ fun _ => Iff.rfl
  | updateAvailability => exact assignAndSave_effect _ fun _ => Iff.rfl

/-! ## Memory against table -/

theorem chargePointStatusMap_toString_injective {a b : ChargePointStatus}
    (same : chargePointStatusMap.toString a "Available" = chargePointStatusMap.toString b "Available") :
    a = b := by
  have back := fun s => chargePointStatusMap.toEnum_toString (chargePointStatusMap_named s) "Available"
    .available
  rw [← back a, same, back b]

/-- What the UPDATE writes is the connector exactly when no text is cut short. -/
theorem agrees_update_iff (row : Row) : Agrees (update engine row c) c ↔ Clean c := by
  have text : ∀ s, Sqlite.Value.text (cStr s) = .text s ↔ NulFree s := fun s => by
    rw [Sqlite.Value.text.injEq, cStr_eq_iff]
  constructor
  · intro agrees
    exact ⟨(text _).1 agrees.transactionIdTag, (text _).1 agrees.transactionParentIdTag,
      (text _).1 agrees.reservationIdTag, (text _).1 agrees.reservationParentIdTag⟩
  · intro clean
    have named : NulFree (chargePointStatusMap.toString c.status "Available") := by
      cases c.status <;> decide
    exact ⟨(text _).2 named, rfl, (text _).2 clean.transactionIdTag,
      (text _).2 clean.transactionParentIdTag, rfl, (text _).2 clean.reservationIdTag,
      (text _).2 clean.reservationParentIdTag, rfl, rfl⟩

theorem matches_written (row : Row) :
    State.matches_ engine other
      (if State.matches_ engine id row then update engine row d else row) =
    State.matches_ engine other row := by
  split <;> rfl

theorem rows_stored {row : Row} (only : s.rows engine id = [row]) :
    (s.stored engine id d).rows engine id = [update engine row d] := by
  have inside : row ∈ s.rows engine id := only ▸ List.mem_singleton_self row
  have matched := (List.mem_filter.1 inside).2
  show List.filter _ (List.map _ s.table) = _
  rw [List.filter_map, show State.matches_ engine id ∘ _ = State.matches_ engine id from
    funext fun row => matches_written row, ← State.rows, only, List.map_singleton, if_pos matched]

/-- A row belongs to one connector. -/
theorem matches_unique {row : Row} (first : State.matches_ engine id row = true)
    (second : State.matches_ engine other row = true) : other = id := by
  have key : row.connectorId = .integer id.toNat := of_decide_eq_true first
  have key' : row.connectorId = .integer other.toNat := of_decide_eq_true second
  have numbers := Sqlite.Value.integer.inj (key'.symm.trans key)
  exact UInt32.toNat_inj.1 (by omega)

theorem rows_stored_of_ne (apart : other ≠ id) :
    (s.stored engine id d).rows engine other = s.rows engine other := by
  show List.filter _ (List.map _ s.table) = _
  rw [List.filter_map, show State.matches_ engine other ∘ _ = State.matches_ engine other from
    funext fun row => matches_written row]
  have kept : ∀ row ∈ s.rows engine other,
      (if State.matches_ engine id row then update engine row d else row) = row := by
    intro row inside
    have theirs := (List.mem_filter.1 inside).2
    rw [if_neg]
    intro ours
    exact apart (matches_unique ours theirs)
  exact (List.map_congr_left kept).trans (List.map_id' _)

theorem agree_stored (agree : Agree engine s) (here : s.get id = some c) (clean : Clean d) :
    Agree engine (s.stored engine id d) := by
  intro other e found
  by_cases same : other = id
  · subst same
    obtain ⟨row, only, -⟩ := agree other c here
    obtain rfl := Option.some.inj ((get_put here).symm.trans found)
    exact ⟨update engine row d, rows_stored only, (agrees_update_iff row).2 clean⟩
  · rw [rows_stored_of_ne same]
    exact agree other e ((get_put_of_ne same).symm.trans found)

theorem faithful_of_unchanged {op : Operation} (agree : Agree engine s)
    (state : (op.run engine s done).state = s) : Faithful engine s (op, done) where
  stored := by
    intro _
    simpa only [state] using agree op.id
  untouched := by
    intro _
    simp only [state, and_self]

theorem faithful_stored_iff {op : Operation} (agree : Agree engine s)
    (here : s.get op.id = some c) (returned : (op.run engine s done).returned = true)
    (state : (op.run engine s done).state = s.stored engine op.id (op.assign c)) :
    Faithful engine s (op, done) ↔ Clean (op.assign c) := by
  obtain ⟨row, only, -⟩ := agree op.id c here
  constructor
  · intro faithful
    have stored := faithful.stored returned
    simp only [state] at stored
    obtain ⟨row', only', agrees'⟩ := stored (op.assign c) (get_put here)
    rw [rows_stored only, List.singleton_inj] at only'
    exact (agrees_update_iff row).1 (only' ▸ agrees')
  · intro clean
    refine ⟨fun _ => ?_, fun refused => ?_⟩
    · simpa only [state] using agree_stored agree here clean op.id
    · rw [returned] at refused
      cases refused

/-- With memory changed and the row not, the call is faithful only if nothing was to
change. -/
theorem faithful_put_iff {op : Operation} (agree : Agree engine s)
    (here : s.get op.id = some c)
    (state : (op.run engine s done).state = s.put op.id (op.assign c))
    (reported : (op.run engine s done).returned = true → (op.assign c).status ≠ c.status) :
    Faithful engine s (op, done) ↔ op.assign c = c := by
  obtain ⟨row, only, agrees⟩ := agree op.id c here
  constructor
  · intro faithful
    cases returned : (op.run engine s done).returned with
    | true =>
        -- Reported as done, with the old status still in the row.
        have stored := faithful.stored returned
        simp only [state] at stored
        obtain ⟨row', only', agrees'⟩ := stored (op.assign c) (get_put here)
        obtain rfl : row = row' := List.singleton_inj.1 (only.symm.trans only')
        have texts := Sqlite.Value.text.inj (agrees'.status.symm.trans agrees.status)
        exact absurd (chargePointStatusMap_toString_injective texts) (reported returned)
    | false =>
        have untouched := (faithful.untouched returned).1
        simp only [state, get_put here, here, Option.some.injEq] at untouched
        exact untouched
  · intro same
    apply faithful_of_unchanged agree
    rw [state, same, put_self here]

/-- **One call is faithful exactly when it is sound.** -/
theorem faithful_iff (agree : Agree engine s) (call : Operation × Bool) :
    Faithful engine s call ↔ Sound s call := by
  obtain ⟨op, done⟩ := call
  rcases run_effect engine op s done with ⟨stopped, state⟩ | ⟨c, here, reached, effect⟩
  · -- Nothing happened, and nothing was to happen.
    constructor
    · intro _ c here reached
      exact absurd reached (stopped c here)
    · intro _
      exact faithful_of_unchanged agree state
  · have sound : Sound s (op, done) ↔
        if s.qUpdate = true ∧ done = true then Clean (op.assign c) else op.assign c = c := by
      constructor
      · intro sound
        exact sound c here reached
      · intro holds d found _
        cases here.symm.trans found
        exact holds
    rw [sound]
    split at effect <;> rename_i executed
    · rw [if_pos executed]
      exact faithful_stored_iff agree here effect.1 effect.2
    · rw [if_neg executed]
      exact faithful_put_iff agree here effect.1 effect.2

theorem agree_run (agree : Agree engine s) {call : Operation × Bool} (sound : Sound s call) :
    Agree engine (call.1.run engine s call.2).state := by
  obtain ⟨op, done⟩ := call
  rcases run_effect engine op s done with ⟨-, state⟩ | ⟨c, here, reached, effect⟩
  · simpa only [state] using agree
  · have holds := sound c here reached
    split at effect <;> rename_i executed
    · rw [if_pos executed] at holds
      simpa only [effect.2] using agree_stored agree here holds
    · rw [if_neg executed] at holds
      simpa only [effect.1, holds, put_self here] using agree

/-! ## Whole runs -/

/-- **Memory and table never diverge, and no result misleads, exactly in the runs whose
calls are all sound.** -/
theorem neverDiverges_iff (agree : Agree engine s) (calls : List (Operation × Bool)) :
    NeverDiverges engine s calls ↔ Along (step engine) Sound s calls := by
  constructor
  · rintro ⟨faithful, agreed⟩
    induction calls generalizing s with
    | nil => trivial
    | cons call calls ih =>
        have sound := (faithful_iff agree call).1 faithful.1
        refine ⟨sound, fun t moved => ?_⟩
        have next : Agree engine t := Option.some.inj moved ▸ agree_run agree sound
        refine ih next (faithful.2 t moved) fun done u before ran => ?_
        exact agreed (call :: done) u (List.cons_prefix_cons.2 ⟨rfl, before⟩)
          (exec_cons.2 ⟨t, moved, ran⟩)
  · intro sound
    have kept : ∀ s call t, Sound s call → Agree engine s → step engine s call = some t →
        Agree engine t := fun s call t sound agree moved =>
      Option.some.inj moved ▸ agree_run agree sound
    refine ⟨along_of_invariant kept (fun s call sound agree => (faithful_iff agree call).2 sound)
      sound agree, fun done t before ran => ?_⟩
    obtain ⟨rest, rfl⟩ := before
    exact exec_invariant_along kept ((along_append ran).1 sound).1 agree ran

/-- One connector, with the row the UPDATE last wrote for it. -/
def savedOne (c : Connector) : State := ((one c).save plainEngine 0 true).2

theorem agree_savedOne (clean : Clean c) : Agree plainEngine (savedOne c) := by
  intro id d found
  have bound : id.toNat < 1 := (List.getElem?_eq_some_iff.1 found).1
  obtain rfl : id = 0 := UInt32.toNat_inj.1 (Nat.lt_one_iff.1 bound)
  obtain rfl : c = d := Option.some.inj found
  exact ⟨update plainEngine (emptyRow 0) c, rfl, (agrees_update_iff _).2 clean⟩

def startCharging : Operation := .updateStatus 0 .charging .noError "" true

theorem startCharging_stored :
    NeverDiverges plainEngine (savedOne (.fresh 0 0))
      [(startCharging, true), (.updateAvailability 0 .inoperative, true)] := by
  refine (neverDiverges_iff (agree_savedOne ⟨by decide, by decide, by decide, by decide⟩) _).2
    ⟨?_, fun t moved => ⟨?_, fun _ _ => trivial⟩⟩
  · intro c found _
    cases found
    exact ⟨by decide, by decide, by decide, by decide⟩
  · cases moved
    intro c found _
    cases found
    exact ⟨by decide, by decide, by decide, by decide⟩

/-- **A status whose UPDATE failed is reported as stored.**  After a reboot the
connector is available again. -/
theorem failed_update_is_reported :
    Agree plainEngine (savedOne (.fresh 0 0)) ∧
      (startCharging.run plainEngine (savedOne (.fresh 0 0)) false).returned = true ∧
      ¬ NeverDiverges plainEngine (savedOne (.fresh 0 0)) [(startCharging, false)] := by
  refine ⟨agree_savedOne ⟨by decide, by decide, by decide, by decide⟩, rfl, ?_⟩
  rintro ⟨⟨faithful, -⟩, -⟩
  obtain ⟨row, only, agrees⟩ := faithful.stored rfl _ rfl
  obtain rfl := List.singleton_inj.1 only
  exact absurd agrees.status (by decide)

end ChargerStack.Ocpp.Connectors
