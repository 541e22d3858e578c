/-
# Ocpp.StatusNotification -- the request of action/status/StatusNotification.cpp

`StatusNotification::sendCall` reads three optional texts out of a JSON object and builds a
request, which the client checks against StatusNotification.json.  The vendor's error code is
cut, in bytes; the vendor's name is not, and the information is read and not put in.

* `decodeFrom` is `UTF8::Decode` of RapidJSON, which the schema counts characters with.
* `accepts_iff`: which requests the schema accepts.
* `notification_reported_iff`: exactly when the request is accepted and has what it was given.
-/
import ChargerStack.Cxx.Basic
import ChargerStack.Ocpp.BidirectionalMap

namespace ChargerStack.Ocpp.StatusNotification

open Cxx

set_option autoImplicit false

abbrev Bytes := List UInt8

/-! ## Characters -/

/-- `UTF8::GetRange`, by its table. -/
def getRange (c : UInt8) : Nat :=
  if c < 0x80 then 0 else if c < 0x90 then 0x10 else if c < 0xA0 then 0x40
  else if c < 0xC0 then 0x20 else if c < 0xC2 then 8 else if c < 0xE0 then 2
  else if c = 0xE0 then 10 else if c < 0xED then 3 else if c = 0xED then 4
  else if c < 0xF0 then 3 else if c = 0xF0 then 11 else if c < 0xF4 then 6
  else if c = 0xF4 then 5 else 8

/-- The masks for the ranges of the bytes behind a first byte, or `none` where no character begins
with it. -/
def tails (c : UInt8) : Option (List Nat) :=
  match getRange c with
  | 0 => some []
  | 2 => some [0x70]
  | 3 => some [0x70, 0x70]
  | 4 => some [0x50, 0x70]
  | 5 => some [0x10, 0x70, 0x70]
  | 6 => some [0x70, 0x70, 0x70]
  | 10 => some [0x20, 0x70]
  | 11 => some [0x60, 0x70, 0x70]
  | _ => none

/-- `UTF8::Decode` over a text, inside a character that still has to have these bytes: the number
of characters that begin. -/
def decodeFrom : List Nat → Bytes → Option Nat
  | [], [] => some 0
  | _ :: _, [] => none
  | [], c :: t => (tails c).bind fun owed => (decodeFrom owed t).map (· + 1)
  | mask :: owed, c :: t => if getRange c &&& mask ≠ 0 then decodeFrom owed t else none

/-- `CountStringCodePoint`. -/
def countStringCodePoint (s : Bytes) : Option Nat := decodeFrom [] s

/-! ## The schema -/

/-- A value of the request: a text that the source has, or one that it is given. -/
inductive Field where
  | uint (n : Nat)
  | name (s : String)
  | text (b : Bytes)
  deriving DecidableEq, Repr

inductive Property where
  | integer
  | enumeration (names : List String)
  | string (maxLength : Option Nat)
  deriving DecidableEq, Repr

/-- A text whose characters cannot be counted is not too long. -/
def Property.admits : Property → Field → Bool
  | .integer, .uint _ => true
  | .enumeration names, .name s => names.contains s
  | .string none, .text _ => true
  | .string (some maxLength), .text b =>
      match countStringCodePoint b with
      | some n => n ≤ maxLength
      | none => true
  | _, _ => false

/-- A schema of an object, without additional properties. -/
structure Schema where
  properties : List (String × Property)
  required : List String

def Schema.accepts (schema : Schema) (members : List (String × Field)) : Bool :=
  members.all (fun m => (schema.properties.lookup m.1).any fun property => property.admits m.2) &&
    schema.required.all fun name => (members.lookup name).isSome

/-- StatusNotification.json; the validator does not know `format`. -/
def statusNotificationSchema : Schema where
  properties :=
    [("connectorId", .integer),
      ("errorCode", .enumeration ["ConnectorLockFailure", "EVCommunicationError", "GroundFailure",
        "HighTemperature", "InternalError", "LocalListConflict", "NoError", "OtherError",
        "OverCurrentFailure", "PowerMeterFailure", "PowerSwitchFailure", "ReaderFailure",
        "ResetFailure", "UnderVoltage", "OverVoltage", "WeakSignal"]),
      ("info", .string (some 50)),
      ("status", .enumeration ["Available", "Preparing", "Charging", "SuspendedEVSE",
        "SuspendedEV", "Finishing", "Reserved", "Unavailable", "Faulted"]),
      ("timestamp", .string none),
      ("vendorId", .string (some 255)),
      ("vendorErrorCode", .string (some 50))]
  required := ["connectorId", "errorCode", "status"]

/-! ## The code -/

/-- `enum class ChargePointErrorCode`. -/
inductive ChargePointErrorCode where
  | connectorLockFailure | evCommunicationError | groundFailure | highTemperature | internalError
  | localListConflict | noError | otherError | overCurrentFailure | overVoltage | powerMeterFailure
  | powerSwitchFailure | readerFailure | resetFailure | underVoltage | weakSignal
  deriving DecidableEq, Repr

def chargePointErrorCodeMap : BidirectionalMap ChargePointErrorCode where
  pairs :=
    [("ConnectorLockFailure", .connectorLockFailure),
      ("EVCommunicationError", .evCommunicationError), ("GroundFailure", .groundFailure),
      ("HighTemperature", .highTemperature), ("InternalError", .internalError),
      ("LocalListConflict", .localListConflict), ("NoError", .noError),
      ("OtherError", .otherError), ("OverCurrentFailure", .overCurrentFailure),
      ("OverVoltage", .overVoltage), ("PowerMeterFailure", .powerMeterFailure),
      ("PowerSwitchFailure", .powerSwitchFailure), ("ReaderFailure", .readerFailure),
      ("ResetFailure", .resetFailure), ("UnderVoltage", .underVoltage),
      ("WeakSignal", .weakSignal)]
  strings := by decide
  values := by decide

/-- What `Document::Parse` makes of a text, as far as it is looked at: the members of an object,
each with its text if it is a string. -/
inductive Document where
  | object (members : List (String × Option Bytes))
  | other
  deriving DecidableEq, Repr

structure StatusNotificationOther where
  vendorId : Bytes := []
  vendorErrorCode : Bytes := []
  info : Bytes := []
  deriving DecidableEq, Repr

/-- `HasMember(name) && doc[name].IsString()`, and the string. -/
def stringMember (name : String) (members : List (String × Option Bytes)) : Option Bytes :=
  (members.lookup name).join

section

variable (parse : Bytes → Option Document)

def parseStatusNotificationOther (otherJsonStr : Bytes) : StatusNotificationOther :=
  if otherJsonStr = [] then {}
  else
    match parse (cString otherJsonStr) with
    | some (.object members) =>
        { vendorId := ((stringMember "vendorId" members).map cString).getD []
          vendorErrorCode := ((stringMember "vendorErrorCode" members).map fun s =>
            if (cString s).length > 49 then (cString s).take 49 else cString s).getD []
          info := ((stringMember "info" members).map cString).getD [] }
    | _ => {}

end

/-- `now` is the text of the clock. -/
def buildStatusNotificationMessage (now : Bytes) (connectorId : Nat)
    (errorCode : ChargePointErrorCode) (status : ChargePointStatus)
    (other : StatusNotificationOther) : List (String × Field) :=
  (if other.vendorId = [] then [] else [("vendorId", .text (cString other.vendorId))]) ++
  (if other.vendorErrorCode = [] then []
    else [("vendorErrorCode", .text (cString (other.vendorErrorCode.take 49)))]) ++
  [("connectorId", .uint connectorId),
    ("errorCode", .name (chargePointErrorCodeMap.toString errorCode "NoError")),
    ("status", .name (chargePointStatusMap.toString status "Available")),
    ("timestamp", .text (cString now))]

/-- The request that `sendCall` hands to the client. -/
def sendCallRequest (parse : Bytes → Option Document) (now : Bytes) (connectorId : Nat)
    (errorCode : ChargePointErrorCode) (status : ChargePointStatus) (otherJson : Bytes) :
    List (String × Field) :=
  buildStatusNotificationMessage now connectorId errorCode status
    (parseStatusNotificationOther parse otherJson)

/-! ## What is promised -/

/-- A text that is not empty, in an object. -/
def given (parse : Bytes → Option Document) (otherJson : Bytes) (name : String) : Option Bytes :=
  if otherJson = [] then none
  else
    match parse (cString otherJson) with
    | some (.object members) => (stringMember name members).filter (· ≠ [])
    | _ => none

/-- A text is sent as it was given, or as many of its first characters as the limit allows. -/
def Kept (limit : Nat) (s sent : Bytes) : Prop :=
  sent = s ∨ sent <+: s ∧ countStringCodePoint sent = some limit

/-- The request has the member, with the text that was given for it. -/
def Keeps (limit : Nat) (text : Option Bytes) (request : List (String × Field)) (name : String) :
    Prop :=
  ∀ s, text = some s → ∃ sent, (name, Field.text sent) ∈ request ∧ Kept limit s sent

/-- The request is accepted and has the three texts, with this limit for the vendor's error code:
the schema allows 50 characters, the code takes 49. -/
structure Reported (codeLimit : Nat) (parse : Bytes → Option Document) (now : Bytes)
    (connectorId : Nat) (errorCode : ChargePointErrorCode) (status : ChargePointStatus)
    (otherJson : Bytes) : Prop where
  accepted : statusNotificationSchema.accepts
    (sendCallRequest parse now connectorId errorCode status otherJson) = true
  info : Keeps 50 (given parse otherJson "info")
    (sendCallRequest parse now connectorId errorCode status otherJson) "info"
  vendorId : Keeps 255 (given parse otherJson "vendorId")
    (sendCallRequest parse now connectorId errorCode status otherJson) "vendorId"
  vendorErrorCode : Keeps codeLimit (given parse otherJson "vendorErrorCode")
    (sendCallRequest parse now connectorId errorCode status otherJson) "vendorErrorCode"

/-- Without a NUL and not too long, or with a NUL behind as many characters as the limit allows. -/
def VendorIdFits (s : Bytes) : Prop :=
  (0 ∉ s ∧ ∀ n, countStringCodePoint s = some n → n ≤ 255) ∨
    countStringCodePoint (cString s) = some 255

/-- Without a NUL and at most 49 bytes long; or, if the limit is 49, with 49 ASCII characters in
front. -/
def VendorErrorCodeFits (limit : Nat) (s : Bytes) : Prop :=
  (0 ∉ s ∧ s.length ≤ 49) ∨
    (limit = 49 ∧ (s.take 49).length = 49 ∧ ∀ c ∈ s.take 49, 0 < c ∧ c < 128)

/-! ## Counting characters -/

variable {s : Bytes} {c : UInt8}

/-- Each character that begins, and each byte that is owed, is a byte of the text. -/
theorem decodeFrom_le {owed : List Nat} {n : Nat} (read : decodeFrom owed s = some n) :
    n + owed.length ≤ s.length := by
  induction s generalizing owed n with
  | nil =>
      cases owed with
      | nil =>
          obtain rfl := Option.some.inj read
          exact Nat.le_refl 0
      | cons mask owed => cases read
  | cons c t ih =>
      cases owed with
      | nil =>
          obtain ⟨owed, -, read⟩ := Option.bind_eq_some_iff.1 read
          obtain ⟨m, readRest, rfl⟩ := Option.map_eq_some_iff.1 read
          have := ih readRest
          simp only [List.length_nil, List.length_cons]
          omega
      | cons mask owed =>
          rw [decodeFrom] at read
          split at read
          · have := ih read
            simp only [List.length_cons]
            omega
          · cases read

theorem count_le {n : Nat} (read : countStringCodePoint s = some n) : n ≤ s.length :=
  decodeFrom_le read

theorem tails_eq_nil_iff : tails c = some [] ↔ c < 128 := by
  have table : ∀ n : Fin 256, tails (UInt8.ofNat n) = some [] ↔ UInt8.ofNat n < 128 := by
    decide +kernel
  have row := table ⟨c.toNat, c.toNat_lt⟩
  rwa [UInt8.ofNat_toNat] at row

/-- As many characters as bytes are ASCII. -/
theorem count_eq_length_iff : countStringCodePoint s = some s.length ↔ ∀ c ∈ s, c < 128 := by
  induction s with
  | nil => simp [countStringCodePoint, decodeFrom]
  | cons c t ih =>
      rw [List.forall_mem_cons, ← ih, ← tails_eq_nil_iff]
      constructor
      · intro read
        obtain ⟨owed, first, read⟩ := Option.bind_eq_some_iff.1 read
        obtain ⟨m, readRest, same⟩ := Option.map_eq_some_iff.1 read
        have bound := decodeFrom_le readRest
        rw [List.length_cons] at same
        obtain rfl : owed = [] := List.length_eq_zero_iff.1 (by omega)
        obtain rfl : m = t.length := by omega
        exact ⟨first, readRest⟩
      · rintro ⟨first, rest⟩
        have step : decodeFrom [] (c :: t) = (tails c).bind fun owed =>
          (decodeFrom owed t).map (· + 1) := rfl
        rw [countStringCodePoint, step, first, Option.bind_some]
        exact congrArg (Option.map (· + 1)) rest

/-! ## Which requests are accepted -/

theorem errorCode_admitted (e : ChargePointErrorCode) :
    (statusNotificationSchema.properties.lookup "errorCode").any (fun property =>
      property.admits (.name (chargePointErrorCodeMap.toString e "NoError"))) = true := by
  cases e <;> rfl

theorem status_admitted (status : ChargePointStatus) :
    (statusNotificationSchema.properties.lookup "status").any (fun property =>
      property.admits (.name (chargePointStatusMap.toString status "Available"))) = true := by
  cases status <;> rfl

/-- A text of so many bytes is not too long. -/
theorem admits_of_length {limit : Nat} (short : s.length ≤ limit) :
    (Property.string (some limit)).admits (.text s) = true := by
  rw [Property.admits]
  split
  · next n read =>
      have := count_le read
      simp only [decide_eq_true_eq]
      omega
  · rfl

theorem admits_iff {limit : Nat} : (Property.string (some limit)).admits (.text s) = true ↔
    ∀ n, countStringCodePoint s = some n → n ≤ limit := by
  rw [Property.admits]
  split
  · next n read => simp [read]
  · next unread => simp [unread]

/-- **Which requests the schema accepts**: those whose `vendorId`, if any, is not too long. -/
theorem accepts_iff (now : Bytes) (connectorId : Nat) (errorCode : ChargePointErrorCode)
    (status : ChargePointStatus) (other : StatusNotificationOther) :
    statusNotificationSchema.accepts
        (buildStatusNotificationMessage now connectorId errorCode status other) = true ↔
      other.vendorId = [] ∨ ∀ n, countStringCodePoint (cString other.vendorId) = some n → n ≤ 255 := by
  have code : (Property.string (some 50)).admits
      (.text (cString (other.vendorErrorCode.take 49))) = true := by
    refine admits_of_length ?_
    have := (cString_isPrefix (other.vendorErrorCode.take 49)).length_le
    have := List.length_take_le 49 other.vendorErrorCode
    omega
  have codeKnown : statusNotificationSchema.properties.lookup "vendorErrorCode" =
      some (.string (some 50)) := rfl
  have idKnown : statusNotificationSchema.properties.lookup "vendorId" =
      some (.string (some 255)) := rfl
  have connectorKnown : statusNotificationSchema.properties.lookup "connectorId" =
      some .integer := rfl
  have timeKnown : statusNotificationSchema.properties.lookup "timestamp" =
      some (.string none) := rfl
  have number : Property.integer.admits (.uint connectorId) = true := rfl
  have time : (Property.string none).admits (.text (cString now)) = true := rfl
  have required : statusNotificationSchema.required.all (fun name =>
      ((buildStatusNotificationMessage now connectorId errorCode status other).lookup name).isSome) =
        true := by
    unfold buildStatusNotificationMessage
    split <;> split <;> rfl
  rw [← admits_iff, Schema.accepts, required, Bool.and_true]
  unfold buildStatusNotificationMessage
  by_cases noId : other.vendorId = []
  · by_cases noCode : other.vendorErrorCode = []
    · simp [noId, noCode, connectorKnown, timeKnown, number, time, errorCode_admitted, status_admitted]
    · simp [noId, noCode, connectorKnown, timeKnown, codeKnown, number, time, code,
        errorCode_admitted, status_admitted]
  · by_cases noCode : other.vendorErrorCode = []
    · simp [noId, noCode, connectorKnown, timeKnown, idKnown, number, time, errorCode_admitted,
        status_admitted]
    · simp [noId, noCode, connectorKnown, timeKnown, idKnown, codeKnown, number, time, code,
        errorCode_admitted, status_admitted]

/-! ## What is read, and what is put in -/

variable {parse : Bytes → Option Document} {otherJson sent : Bytes}

/-- What is read of a text, where one is given and where none is. -/
theorem vendorId_eq (parse : Bytes → Option Document) (otherJson : Bytes) :
    (parseStatusNotificationOther parse otherJson).vendorId =
      ((given parse otherJson "vendorId").map cString).getD [] := by
  unfold parseStatusNotificationOther given
  split
  · rfl
  · split
    · next members _ =>
        cases text : stringMember "vendorId" members with
        | none => rfl
        | some s => cases s <;> rfl
    · rfl

theorem vendorErrorCode_eq (parse : Bytes → Option Document) (otherJson : Bytes) :
    (parseStatusNotificationOther parse otherJson).vendorErrorCode =
      ((given parse otherJson "vendorErrorCode").map fun s => (cString s).take 49).getD [] := by
  have cut : ∀ s : Bytes, (if (cString s).length > 49 then (cString s).take 49 else cString s) =
      (cString s).take 49 := by
    intro s
    split
    · rfl
    · next short => exact (List.take_of_length_le (by omega)).symm
  unfold parseStatusNotificationOther given
  split
  · rfl
  · split
    · next members _ =>
        simp only [cut]
        cases text : stringMember "vendorErrorCode" members with
        | none => rfl
        | some s => cases s <;> rfl
    · rfl

theorem given_ne_nil {name : String} (text : given parse otherJson name = some s) : s ≠ [] := by
  unfold given at text
  split at text
  · cases text
  · split at text
    · simpa using (Option.filter_eq_some_iff.1 text).2
    · cases text

section

variable (now : Bytes) (connectorId : Nat) (errorCode : ChargePointErrorCode)
  (status : ChargePointStatus) (other : StatusNotificationOther)

theorem vendorId_mem_iff : ("vendorId", Field.text sent) ∈
      buildStatusNotificationMessage now connectorId errorCode status other ↔
    other.vendorId ≠ [] ∧ sent = cString other.vendorId := by
  unfold buildStatusNotificationMessage
  split <;> split <;> simp [*]

theorem vendorErrorCode_mem_iff : ("vendorErrorCode", Field.text sent) ∈
      buildStatusNotificationMessage now connectorId errorCode status other ↔
    other.vendorErrorCode ≠ [] ∧ sent = cString (other.vendorErrorCode.take 49) := by
  unfold buildStatusNotificationMessage
  split <;> split <;> simp [*]

/-- The information is put into no request. -/
theorem info_notMem : ("info", Field.text sent) ∉
    buildStatusNotificationMessage now connectorId errorCode status other := by
  unfold buildStatusNotificationMessage
  split <;> split <;> simp

end

/-! ## When a text is kept -/

theorem cString_of_notMem (free : 0 ∉ s) : cString s = s := cString_eq_self_iff.2 free

/-- The vendor's name is sent up to its first NUL. -/
theorem vendorIdFits_iff (some_s : s ≠ []) : VendorIdFits s ↔
    (cString s ≠ [] ∧ Kept 255 s (cString s)) ∧
      ∀ n, countStringCodePoint (cString s) = some n → n ≤ 255 := by
  constructor
  · rintro (⟨free, short⟩ | full)
    · rw [cString_of_notMem free]
      exact ⟨⟨some_s, .inl rfl⟩, short⟩
    · refine ⟨⟨?_, .inr ⟨cString_isPrefix s, full⟩⟩, fun n read => ?_⟩
      · intro empty
        rw [empty] at full
        cases full
      · rw [full] at read
        exact (Option.some.inj read).symm.le
  · rintro ⟨⟨-, same | ⟨-, full⟩⟩, short⟩
    · refine .inl ⟨cString_eq_self_iff.1 same, ?_⟩
      rwa [same] at short
    · exact .inr full

/-- The vendor's error code is cut behind 49 bytes. -/
theorem vendorErrorCodeFits_iff {limit : Nat} (enough : 49 ≤ limit) (some_s : s ≠ []) :
    VendorErrorCodeFits limit s ↔
      (cString s).take 49 ≠ [] ∧ Kept limit s ((cString s).take 49) := by
  constructor
  · rintro (⟨free, short⟩ | ⟨rfl, full, ascii⟩)
    · rw [cString_of_notMem free, List.take_of_length_le short]
      exact ⟨some_s, .inl rfl⟩
    · have chars : ∀ c ∈ s.take 49, (c != 0) = true := by
        intro c member
        exact bne_iff_ne.2 (UInt8.pos_iff_ne_zero.1 (ascii c member).1)
      have cut : (cString s).take 49 = s.take 49 := by
        have whole : cString s = s.take 49 ++ cString (s.drop 49) := by
          conv_lhs => rw [← List.take_append_drop 49 s]
          exact List.takeWhile_append_of_pos chars
        rw [whole]
        exact List.take_left' full
      have some_cut : s.take 49 ≠ [] := by
        intro empty
        rw [empty] at full
        cases full
      rw [cut]
      refine ⟨some_cut, .inr ⟨List.take_prefix 49 s, ?_⟩⟩
      exact (count_eq_length_iff.2 fun c member => (ascii c member).2).trans (congrArg some full)
  · rintro ⟨-, same | ⟨front, full⟩⟩
    · left
      have free : 0 ∉ (cString s).take 49 :=
        fun member => zero_notMem_cString s (List.mem_of_mem_take member)
      have short := List.length_take_le 49 (cString s)
      rw [same] at free short
      exact ⟨free, short⟩
    · -- as many characters as bytes: they are ASCII
      right
      have long := count_le full
      have short := List.length_take_le 49 (cString s)
      have length : ((cString s).take 49).length = 49 := by omega
      obtain rfl : limit = 49 := by omega
      have same : (cString s).take 49 = s.take 49 := by
        conv_lhs => rw [List.prefix_iff_eq_take.1 front, length]
      have ascii : ∀ c ∈ (cString s).take 49, c < 128 := by
        refine count_eq_length_iff.1 ?_
        rw [full, length]
      rw [← same]
      refine ⟨rfl, length, fun c member => ⟨?_, ascii c member⟩⟩
      have nonzero : c ≠ 0 := by
        rintro rfl
        exact zero_notMem_cString s (List.mem_of_mem_take member)
      exact UInt8.pos_iff_ne_zero.2 nonzero

/-- What has to be given for it to be reported. -/
def Reportable (codeLimit : Nat) (parse : Bytes → Option Document) (otherJson : Bytes) : Prop :=
  given parse otherJson "info" = none ∧
    (∀ s, given parse otherJson "vendorId" = some s → VendorIdFits s) ∧
    ∀ s, given parse otherJson "vendorErrorCode" = some s → VendorErrorCodeFits codeLimit s

section

variable (parse : Bytes → Option Document) (now : Bytes) (connectorId : Nat)
  (errorCode : ChargePointErrorCode) (status : ChargePointStatus) (otherJson : Bytes)

/-- Information that is given is not kept. -/
theorem keeps_info_iff : Keeps 50 (given parse otherJson "info")
      (sendCallRequest parse now connectorId errorCode status otherJson) "info" ↔
    given parse otherJson "info" = none := by
  constructor
  · intro kept
    cases text : given parse otherJson "info" with
    | none => rfl
    | some s =>
        obtain ⟨sent, member, -⟩ := kept s text
        exact absurd member (info_notMem _ _ _ _ _)
  · intro none_given s text
    rw [none_given] at text
    cases text

/-- The text that is read is cut at its first NUL once more. -/
theorem cString_cString (s : Bytes) : cString (cString s) = cString s :=
  cString_of_notMem (zero_notMem_cString s)

theorem cString_take_cString (s : Bytes) :
    cString (((cString s).take 49).take 49) = (cString s).take 49 := by
  rw [List.take_take, Nat.min_self]
  exact cString_of_notMem fun member => zero_notMem_cString s (List.mem_of_mem_take member)

/-- The request is accepted, and has the vendor's name, exactly when that fits. -/
theorem accepted_keeps_vendorId_iff :
    (statusNotificationSchema.accepts
        (sendCallRequest parse now connectorId errorCode status otherJson) = true ∧
      Keeps 255 (given parse otherJson "vendorId")
        (sendCallRequest parse now connectorId errorCode status otherJson) "vendorId") ↔
    ∀ s, given parse otherJson "vendorId" = some s → VendorIdFits s := by
  have id := vendorId_eq parse otherJson
  constructor
  · rintro ⟨accepted, vendorId⟩ s text
    rw [text, Option.map_some, Option.getD_some] at id
    obtain ⟨sent, member, kept⟩ := vendorId s text
    obtain ⟨some_id, rfl⟩ := (vendorId_mem_iff _ _ _ _ _).1 member
    have short := ((accepts_iff _ _ _ _ _).1 accepted).resolve_left some_id
    rw [id] at some_id
    rw [id, cString_cString] at kept short
    exact (vendorIdFits_iff (given_ne_nil text)).2 ⟨⟨some_id, kept⟩, short⟩
  · intro idFits
    refine ⟨(accepts_iff _ _ _ _ _).2 ?_, fun s text => ?_⟩
    · cases text : given parse otherJson "vendorId" with
      | none =>
          left
          rw [id, text]
          rfl
      | some s =>
          right
          rw [id, text, Option.map_some, Option.getD_some, cString_cString]
          exact ((vendorIdFits_iff (given_ne_nil text)).1 (idFits s text)).2
    · rw [text, Option.map_some, Option.getD_some] at id
      obtain ⟨⟨some_id, kept⟩, -⟩ := (vendorIdFits_iff (given_ne_nil text)).1 (idFits s text)
      refine ⟨cString s, (vendorId_mem_iff _ _ _ _ _).2 ?_, kept⟩
      rw [id, cString_cString]
      exact ⟨some_id, rfl⟩

theorem keeps_vendorErrorCode_iff {codeLimit : Nat} (enough : 49 ≤ codeLimit) :
    Keeps codeLimit (given parse otherJson "vendorErrorCode")
        (sendCallRequest parse now connectorId errorCode status otherJson) "vendorErrorCode" ↔
      ∀ s, given parse otherJson "vendorErrorCode" = some s → VendorErrorCodeFits codeLimit s := by
  refine forall_congr' fun s => forall_congr' fun text => ?_
  have code := vendorErrorCode_eq parse otherJson
  rw [text, Option.map_some, Option.getD_some] at code
  rw [vendorErrorCodeFits_iff enough (given_ne_nil text)]
  constructor
  · rintro ⟨sent, member, kept⟩
    obtain ⟨some_code, rfl⟩ := (vendorErrorCode_mem_iff _ _ _ _ _).1 member
    rw [code] at some_code
    rw [code, cString_take_cString] at kept
    exact ⟨some_code, kept⟩
  · rintro ⟨some_code, kept⟩
    refine ⟨(cString s).take 49, (vendorErrorCode_mem_iff _ _ _ _ _).2 ?_, kept⟩
    rw [code, cString_take_cString]
    exact ⟨some_code, rfl⟩

theorem reported_iff_reportable {codeLimit : Nat} (enough : 49 ≤ codeLimit) :
    Reported codeLimit parse now connectorId errorCode status otherJson ↔
      Reportable codeLimit parse otherJson := by
  constructor
  · rintro ⟨accepted, info, vendorId, vendorErrorCode⟩
    exact ⟨(keeps_info_iff parse now connectorId errorCode status otherJson).1 info,
      (accepted_keeps_vendorId_iff parse now connectorId errorCode status otherJson).1
        ⟨accepted, vendorId⟩,
      (keeps_vendorErrorCode_iff parse now connectorId errorCode status otherJson enough).1
        vendorErrorCode⟩
  · rintro ⟨none_given, idFits, codeFits⟩
    obtain ⟨accepted, vendorId⟩ :=
      (accepted_keeps_vendorId_iff parse now connectorId errorCode status otherJson).2 idFits
    exact ⟨accepted, (keeps_info_iff parse now connectorId errorCode status otherJson).2 none_given,
      vendorId,
      (keeps_vendorErrorCode_iff parse now connectorId errorCode status otherJson enough).2 codeFits⟩

end

/-- **When a status is reported as it was given**: exactly when no information is given, and the
vendor's name and error code fit; by the limit of the code for the error code, and by that of the
schema. -/
theorem notification_reported_iff (parse : Bytes → Option Document) (now : Bytes) (connectorId : Nat)
    (errorCode : ChargePointErrorCode) (status : ChargePointStatus) (otherJson : Bytes) :
    (Reported 49 parse now connectorId errorCode status otherJson ↔
        Reportable 49 parse otherJson) ∧
      (Reported 50 parse now connectorId errorCode status otherJson ↔
        Reportable 50 parse otherJson) :=
  ⟨reported_iff_reportable parse now connectorId errorCode status otherJson (by decide),
    reported_iff_reportable parse now connectorId errorCode status otherJson (by decide)⟩

/-- An object with one member, `"info":"a"`. -/
def infoBody : Bytes := [123, 34, 105, 110, 102, 111, 34, 58, 34, 97, 34, 125]

/-- The information `a` is not in the request, whatever the limit for the error code. -/
theorem info_dropped : ¬ ∃ codeLimit, ∀ (parse : Bytes → Option Document) now connectorId
    errorCode status otherJson,
    Reported codeLimit parse now connectorId errorCode status otherJson := by
  rintro ⟨codeLimit, all⟩
  obtain ⟨sent, member, -⟩ :=
    (all (fun text => if text = infoBody then some (.object [("info", some [97])]) else none) [] 1
      .noError .available infoBody).info [97] rfl
  exact absurd member (info_notMem _ _ _ _ _)

end ChargerStack.Ocpp.StatusNotification
