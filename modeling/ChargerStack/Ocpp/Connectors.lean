/-
# Ocpp.Connectors -- the connector table, and what a reboot brings back

`Connectors` writes a connector with ten positional binds of a prepared UPDATE and
reads it with ten positional getters of a `SELECT *`.

* `read_update`: the ten columns carry every field but one through the database;
* `load_save_iff`: the one is `reservation.status`, which neither side mentions, so
  a saved connector comes back exactly when that field has its default.
-/
import ChargerStack.Sqlite.Value
import ChargerStack.Ocpp.BidirectionalMap

namespace ChargerStack.Ocpp.Connectors

open Cxx Sqlite

set_option autoImplicit false

/-! ## Connectors -/

/-- `enum class ReservationStatus`. -/
inductive ReservationStatus where
  | accepted | faulted | occupied | rejected | unavailable
  deriving DecidableEq, Repr

/-- `enum class AvailabilityType`.  A cast from a number can hold any other `int`. -/
inductive AvailabilityType where
  | inoperative
  | operative
  | other (n : Int) (int : -2 ^ 31 ≤ n ∧ n < 2 ^ 31) (unnamed : n ≠ 0 ∧ n ≠ 1)
  deriving DecidableEq

namespace AvailabilityType

/-- `static_cast<int>`. -/
def toInt : AvailabilityType → Int
  | .inoperative => 0
  | .operative => 1
  | .other n _ _ => n

/-- `static_cast<AvailabilityType>`. -/
def ofInt (n : Int) : AvailabilityType :=
  if zero : int32 n = 0 then .inoperative
  else if one : int32 n = 1 then .operative
  else .other (int32 n) (int32_range n) ⟨zero, one⟩

theorem ofInt_toInt (a : AvailabilityType) : ofInt a.toInt = a := by
  cases a with
  | inoperative => rfl
  | operative => rfl
  | other n int unnamed =>
      have fits := int32_of_range int.1 int.2
      simp [ofInt, toInt, fits, unnamed]

end AvailabilityType

structure ConnectorTransaction where
  id : UInt32 := 0
  idTag : String := ""
  parentIdTag : String := ""
  deriving DecidableEq

/-- `expiry` is a `DateTime`, a `std::time_t`; its default is the current time. -/
structure ConnectorReservation where
  status : ReservationStatus := .rejected
  id : UInt32 := 0
  idTag : String := ""
  parentIdTag : String := ""
  expiry : Int
  deriving DecidableEq

/-- `Connector`, less its timers. -/
structure Connector where
  id : UInt32 := 0
  status : ChargePointStatus := .available
  availability : AvailabilityType := .operative
  transaction : ConnectorTransaction := {}
  reservation : ConnectorReservation
  deriving DecidableEq

/-- `Connector(cid)` at time `now`. -/
def Connector.fresh (cid : UInt32) (now : Int) : Connector :=
  { id := cid, reservation := { expiry := now } }

/-! ## The table -/

/-- A row of `Connector`, in the order of `CREATE TABLE`. -/
structure Row where
  connectorId : Value
  status : Value
  transactionId : Value
  transactionIdTag : Value
  transactionParentIdTag : Value
  reservationId : Value
  reservationIdTag : Value
  reservationParentIdTag : Value
  reservationExpiryDate : Value
  availability : Value

/-- `Connectors`: its vector, its table, and which of its queries were prepared. -/
structure State where
  connectors : List Connector
  table : List Row
  qUpdate : Bool
  qFind : Bool

variable (engine : Engine)

/-- `bind` of an `unsigned int`. -/
def bindUInt32 (n : UInt32) : Value := .integer n.toNat

/-- The UPDATE with the binds 1 to 9, applied to the row `WHERE` picked. -/
def update (row : Row) (c : Connector) : Row where
  connectorId := row.connectorId
  status := engine.convert .text (bindText (chargePointStatusMap.toString c.status "Available"))
  transactionId := engine.convert .integer (bindUInt32 c.transaction.id)
  transactionIdTag := engine.convert .text (bindText c.transaction.idTag)
  transactionParentIdTag := engine.convert .text (bindText c.transaction.parentIdTag)
  reservationId := engine.convert .integer (bindUInt32 c.reservation.id)
  reservationIdTag := engine.convert .text (bindText c.reservation.idTag)
  reservationParentIdTag := engine.convert .text (bindText c.reservation.parentIdTag)
  reservationExpiryDate := engine.convert .integer (.integer c.reservation.expiry)
  availability := engine.convert .integer (.integer c.availability.toInt)

/-- The assignments of `load`, column by column. -/
def read (row : Row) (id : UInt32) (c : Connector) : Connector where
  id := id
  status := chargePointStatusMap.toEnum (engine.getString row.status) .available
  availability := .ofInt (engine.getInt64 row.availability)
  transaction :=
    { id := .ofNat (uint32 (engine.getInt64 row.transactionId))
      idTag := engine.getString row.transactionIdTag
      parentIdTag := engine.getString row.transactionParentIdTag }
  reservation :=
    { c.reservation with
      id := .ofNat (uint32 (engine.getInt64 row.reservationId))
      idTag := engine.getString row.reservationIdTag
      parentIdTag := engine.getString row.reservationParentIdTag
      expiry := engine.getInt64 row.reservationExpiryDate }

namespace State

/-- `get(id)`: `none` is the null pointer.  The vector is never empty. -/
def get (s : State) (id : UInt32) : Option Connector := s.connectors[id.toNat]?

/-- `connector_id = ?`. -/
def matches_ (id : UInt32) (row : Row) : Bool :=
  decide (row.connectorId = engine.convert .integer (bindUInt32 id))

/-- `save(id)`; `done` is the result of `m_qUpdate->exec()`, which changes nothing
when it fails. -/
def save (s : State) (id : UInt32) (done : Bool) : Bool × State :=
  match s.get id with
  | none => (false, s)
  | some c =>
      if ¬ s.qUpdate then (false, s)
      else if ¬ done then (false, s)
      else (true, { s with
        table := s.table.map fun row => if matches_ engine id row then update engine row c else row })

/-- `load(id)`; `done` is the result of `m_qFind->exec()`. -/
def load (s : State) (id : UInt32) (done : Bool) : Bool × State :=
  match s.get id with
  | none => (false, s)
  | some c =>
      if ¬ s.qFind then (false, s)
      else if ¬ done then (false, s)
      else
        match s.table.find? (matches_ engine id) with
        | none => (false, s)
        | some row =>
            if uint32 (engine.getInt64 row.connectorId) ≠ id.toNat then (false, s)
            else (true, { s with connectors := s.connectors.set id.toNat (read engine row id c) })

end State

/-! ## There and back -/

variable {engine}

/-- The texts of a connector survive the C strings they pass through. -/
structure Clean (c : Connector) : Prop where
  transactionIdTag : NulFree c.transaction.idTag
  transactionParentIdTag : NulFree c.transaction.parentIdTag
  reservationIdTag : NulFree c.reservation.idTag
  reservationParentIdTag : NulFree c.reservation.parentIdTag

theorem chargePointStatus_back (status : ChargePointStatus) :
    chargePointStatusMap.toEnum (engine.getString (engine.convert .text
      (bindText (chargePointStatusMap.toString status "Available")))) .available = status := by
  have clean : NulFree (chargePointStatusMap.toString status "Available") := by
    cases status <;> decide
  rw [Engine.convert_text_bindText, Engine.getString, cStr_cStr, cStr_of_nulFree clean]
  exact chargePointStatusMap.toEnum_toString (chargePointStatusMap_named status) _ _

theorem text_back {s : String} (clean : NulFree s) :
    engine.getString (engine.convert .text (bindText s)) = s := by
  rw [Engine.convert_text_bindText, Engine.getString, cStr_cStr, cStr_of_nulFree clean]

theorem uint32_back (n : UInt32) :
    UInt32.ofNat (uint32 (engine.getInt64 (engine.convert .integer (bindUInt32 n)))) = n := by
  rw [bindUInt32, Engine.convert_integer_integer, Engine.getInt64, uint32_of_lt n.toNat_lt,
    UInt32.ofNat_toNat]

/-- **Everything but the reservation status comes back.** -/
theorem read_update (row : Row) {c d : Connector} (clean : Clean c) (id : UInt32) :
    read engine (update engine row c) id d =
      { c with id := id, reservation := { c.reservation with status := d.reservation.status } } := by
  simp only [read, update, chargePointStatus_back, text_back clean.transactionIdTag,
    text_back clean.transactionParentIdTag, text_back clean.reservationIdTag,
    text_back clean.reservationParentIdTag, uint32_back, Engine.convert_integer_integer,
    Engine.getInt64_integer, AvailabilityType.ofInt_toInt]

/-- What a reboot is to bring back. -/
structure Restored (c d : Connector) : Prop where
  status : d.status = c.status
  availability : d.availability = c.availability
  transaction : d.transaction = c.transaction
  reservation : d.reservation = c.reservation

variable {s saved rebooted : State} {id : UInt32} {c : Connector} {done : Bool} {now : Int}

theorem save_true (here : s.get id = some c) (stored : s.save engine id done = (true, saved)) :
    saved.table = s.table.map fun row =>
      if State.matches_ engine id row then update engine row c else row := by
  unfold State.save at stored
  rw [here] at stored
  simp only at stored
  split at stored
  · cases stored
  · split at stored <;> cases stored
    rfl

/-- The row of the connector, after the save. -/
theorem find?_save (here : s.get id = some c)
    (exists_ : ∃ row ∈ s.table, State.matches_ engine id row = true)
    (stored : s.save engine id done = (true, saved)) :
    ∃ row, saved.table.find? (State.matches_ engine id) = some (update engine row c) ∧
      State.matches_ engine id row = true := by
  rw [save_true here stored, List.find?_map]
  -- The update leaves the key alone, so the same row is found.
  have same : State.matches_ engine id ∘ (fun row =>
      if State.matches_ engine id row then update engine row c else row) =
      State.matches_ engine id := by
    funext row
    simp only [Function.comp]
    split <;> rfl
  obtain ⟨row, found⟩ := Option.isSome_iff_exists.1 (List.find?_isSome.2 exists_)
  have matched := List.find?_some found
  exact ⟨row, by rw [same, found, Option.map_some, if_pos matched], matched⟩

/-- **A saved connector comes back from a reboot iff its reservation has the default
status.**  `rebooted` is a later run on the same database with a fresh connector in
its place. -/
theorem load_save_iff (here : s.get id = some c) (clean : Clean c)
    (exists_ : ∃ row ∈ s.table, State.matches_ engine id row = true)
    (stored : s.save engine id done = (true, saved)) (database : rebooted.table = saved.table)
    (fresh : rebooted.get id = some (.fresh id now)) (prepared : rebooted.qFind = true) :
    (∃ loaded d, rebooted.load engine id true = (true, loaded) ∧ loaded.get id = some d ∧
        Restored c d) ↔ c.reservation.status = .rejected := by
  obtain ⟨row, found, matched⟩ := find?_save here exists_ stored
  have key : uint32 (engine.getInt64 (update engine row c).connectorId) = id.toNat := by
    have stored : row.connectorId = .integer id.toNat := of_decide_eq_true matched
    show uint32 (engine.getInt64 row.connectorId) = id.toNat
    rw [stored, Engine.getInt64_integer, uint32_of_lt id.toNat_lt]
  have loads : rebooted.load engine id true = (true, { rebooted with
      connectors := rebooted.connectors.set id.toNat
        (read engine (update engine row c) id (.fresh id now)) }) := by
    simp [State.load, fresh, prepared, database, found, key]
  have bound : id.toNat < rebooted.connectors.length :=
    (List.getElem?_eq_some_iff.1 fresh).1
  rw [loads, read_update row clean]
  constructor
  · rintro ⟨loaded, d, same, at_, restored⟩
    obtain rfl := (Prod.mk.inj same).2
    obtain rfl := Option.some.inj ((List.getElem?_set_self bound).symm.trans at_)
    have status := congrArg ConnectorReservation.status restored.reservation
    exact status.symm
  · intro rejected
    refine ⟨_, _, rfl, List.getElem?_set_self bound, ⟨rfl, rfl, rfl, ?_⟩⟩
    obtain ⟨id', status, availability, transaction, reservation⟩ := c
    obtain ⟨status', rest⟩ := reservation
    cases rejected
    rfl

/-! ## A reserved connector -/

/-- An engine for tables that hold what was bound. -/
def plainEngine : Engine := ⟨.text, fun _ => 0, fun _ => ""⟩

def emptyRow (id : UInt32) : Row :=
  ⟨.integer id.toNat, .null, .null, .null, .null, .null, .null, .null, .null, .null⟩

/-- One connector, and its row. -/
def one (c : Connector) : State := ⟨[c], [emptyRow 0], true, true⟩

/-- Charging for tag `T1`, with a reservation for tag `T2` in the given state. -/
def busy (status : ReservationStatus) : Connector where
  status := .charging
  transaction := { id := 7, idTag := "T1" }
  reservation := { status := status, id := 9, idTag := "T2", expiry := 1700000000 }

/-- The next run on the same database. -/
def rebootOf (saved : State) : State := { one (.fresh 0 0) with table := saved.table }

theorem load_save_busy :
    ∃ loaded d, (rebootOf ((one (busy .rejected)).save plainEngine 0 true).2).load plainEngine 0 true =
      (true, loaded) ∧ loaded.get 0 = some d ∧ Restored (busy .rejected) d := by
  have clean : Clean (busy .rejected) := ⟨by decide, by decide, by decide, by decide⟩
  have row : ∃ row ∈ (one (busy .rejected)).table, State.matches_ plainEngine 0 row = true :=
    ⟨emptyRow 0, by simp [one], rfl⟩
  exact (@load_save_iff plainEngine (one (busy .rejected)) _
    (rebootOf ((one (busy .rejected)).save plainEngine 0 true).2) 0 (busy .rejected) true 0 rfl
    clean row rfl rfl rfl rfl).2 rfl

/-- **An accepted reservation comes back rejected.** -/
theorem accepted_reservation_is_lost :
    ∃ saved loaded d, (one (busy .accepted)).save plainEngine 0 true = (true, saved) ∧
      (rebootOf saved).load plainEngine 0 true = (true, loaded) ∧
      loaded.get 0 = some d ∧ d.reservation.id = 9 ∧ d.reservation.status = .rejected ∧
      ¬ Restored (busy .accepted) d := by
  refine ⟨_, _, _, rfl, rfl, rfl, rfl, rfl, fun restored => ?_⟩
  cases congrArg ConnectorReservation.status restored.reservation

end ChargerStack.Ocpp.Connectors
