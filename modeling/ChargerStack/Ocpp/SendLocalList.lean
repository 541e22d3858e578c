/-
# Ocpp.SendLocalList -- the SendLocalList request as a transaction

`sendListCallHandler` clears the table, inserts or updates entry by entry, then
writes the version to the configuration and to memory, with no SQL transaction
around any of it.

* `insertAll_eq`: a full update inserts the records before the first refused one,
  under ids that were never given out before;
* `sendList_atomic_iff`: the handler is all or nothing exactly when the request
  stops before the first statement, or what was done by the time of the failure was
  nothing, or all of it succeeded on an update that the statements carry out.
-/
import ChargerStack.Ocpp.LocalList
import ChargerStack.Ocpp.Message

namespace ChargerStack.Ocpp.LocalList

open Cxx Rapidjson Sqlite

set_option autoImplicit false

/-! ## The handler -/

/-- `enum class RegistrationStatus`. -/
inductive RegistrationStatus where
  | accepted | pending | rejected
  deriving DecidableEq, Repr

/-- `AuthorizeLocalList` with the singletons it reads: the registration status of
`Connectors` and the document of `ConfigManager`.  Its queries are prepared. -/
structure State where
  registrationStatus : RegistrationStatus
  config : Rapidjson.Value
  localListVersion : Int
  table : Table

/-- What the handlers hand to the client to send. -/
inductive Answer where
  | callError (errorCode errorDescription : String)
  | updateStatus (status : UpdateStatus)
  | listVersion (version : Int)
  deriving DecidableEq

/-- `LocalAuthListEnabled` of the `OCPP1_6` section. -/
def localAuthListEnabled (config : Rapidjson.Value) : Except Failure Bool :=
  match Config.getConfig config "OCPP1_6" with
  | none => .ok false
  | some section_ => do
      if ← section_.hasMember "LocalAuthListEnabled" then
        let enabled ← section_.member "LocalAuthListEnabled"
        if enabled.isBool then enabled.getBool else return false
      else return false

/-- `payload["listVersion"]`, −1 when it is no `int`. -/
def listVersion (payload : Rapidjson.Value) : Except Failure Int := do
  let version ← payload.member "listVersion"
  if version.isInt then version.getInt else return -1

/-- `payload["updateType"]`: `some true` is Full, `none` a text that is neither. -/
def updateType (payload : Rapidjson.Value) : Except Failure (Option Bool) := do
  let value ← payload.member "updateType"
  if value.isString then
    let text ← value.getString
    if text = "Differential" then return some false
    else if text = "Full" then return some true
    else return none
  else return some false

/-- `payload["localAuthorizationList"]`: an absent list is empty, `none` is a member
that is no array. -/
def localAuthorizationList (payload : Rapidjson.Value) :
    Except Failure (Option Rapidjson.Value) := do
  if ← payload.hasMember "localAuthorizationList" then
    let list ← payload.member "localAuthorizationList"
    if list.isArray then return some list else return none
  else return some (.array [])

def versionKey : String := "ChargePoint.LocalListVersion"

variable (env : Env)

/-- `isFull ? performFullUpdate(…) : performPartialUpdate(…)`. -/
def updateTable (faults : Faults) (s : State) (isFull : Bool) (list : Rapidjson.Value) :
    Except Failure (Bool × Table) :=
  if isFull then performFullUpdate env s.config faults s.table list
  else performPartialUpdate env faults s.table list

/-- From the first statement on. -/
def performUpdate (faults : Faults) (s : State) (isFull : Bool) (listVersion : Int)
    (list : Rapidjson.Value) : Except Failure (Answer × State) := do
  let updated ← updateTable env faults s isFull list
  if updated.1 then
    let stored ← Config.setConfig s.config versionKey (.int listVersion)
    if stored.1 then
      return (.updateStatus .accepted,
        { s with table := updated.2, config := stored.2, localListVersion := listVersion })
    else return (.updateStatus .failed, { s with table := updated.2, config := stored.2 })
  else return (.updateStatus .failed, { s with table := updated.2 })

/-- `sendListCallHandler` behind the registration check. -/
def processList (faults : Faults) (s : State) (payload : Rapidjson.Value) :
    Except Failure (Answer × State) := do
  if s.registrationStatus = .rejected then
    return (.callError "GenericError" "Charge point is not connected", s)
  else if ¬ (← localAuthListEnabled s.config) then
    return (.callError "NotImplemented" "LocalAuthListEnabled is not enabled", s)
  else
    let listVersion ← listVersion payload
    if listVersion < 0 then return (.callError "GenericError" "listVersion < 0 is invalid", s)
    else
      match ← updateType payload with
      | none => return (.callError "InvalidParams" "Invalid updateType", s)
      | some isFull =>
          if ¬ isFull ∧ listVersion ≤ s.localListVersion then
            return (.updateStatus .versionMismatch, s)
          else
            match ← localAuthorizationList payload with
            | none =>
                return (.callError "FormatViolation" "localAuthorizationList must be an array", s)
            | some list => performUpdate env faults s isFull listVersion list

/-- `sendListCallHandler`: the id and the answer it sends, if it sends one. -/
def sendListCallHandler (faults : Faults) (s : State) (req : Rapidjson.Value) :
    Except Failure (Option (String × Answer) × State) := do
  if s.registrationStatus ≠ .accepted then return (none, s)
  else
    let uniqueId ← (← req.at_ 1).getString
    let payload ← req.at_ 3
    let processed ← processList env faults s payload
    return (some (uniqueId, processed.1), processed.2)

/-- The handler in the thread pool, which catches what RapidJSON throws.  All that
can throw comes before the first statement, so nothing is changed then. -/
def handleSendList (faults : Faults) (s : State) (req : Rapidjson.Value) :
    Option (String × Answer) × State :=
  match sendListCallHandler env faults s req with
  | .ok outcome => outcome
  | .error _ => (none, s)

/-! ## Requests -/

/-- A SendLocalList payload. -/
structure Request where
  listVersion : Int
  isFull : Bool
  entries : List Members

def objects? : List Rapidjson.Value → Option (List Members)
  | [] => some []
  | .object ms :: rest => (objects? rest).map (ms :: ·)
  | _ :: _ => none

/-- The request an object is.  Every payload that `SendLocalList.json` accepts is
one: an integer, one of the two update types, and no list or a list of objects. -/
def Request.ofMembers? (ms : Members) : Option Request :=
  match Rapidjson.Value.findMember "listVersion" ms, Rapidjson.Value.findMember "updateType" ms with
  | some (.int listVersion), some (.string updateType) =>
      let isFull :=
        if updateType = "Full" then some true
        else if updateType = "Differential" then some false
        else none
      let entries :=
        match Rapidjson.Value.findMember "localAuthorizationList" ms with
        | none => some []
        | some (.array xs) => objects? xs
        | some _ => none
      isFull.bind fun isFull => entries.map fun entries => ⟨listVersion, isFull, entries⟩
  | _, _ => none

theorem objects?_some {xs : List Rapidjson.Value} {entries : List Members}
    (objects : objects? xs = some entries) : xs = entries.map .object := by
  induction xs generalizing entries with
  | nil =>
      cases objects
      rfl
  | cons x rest ih =>
      cases x with
      | object ms =>
          obtain ⟨later, found, rfl⟩ := Option.map_eq_some_iff.1 objects
          rw [ih found, List.map_cons]
      | _ => cases objects

/-- What the handler reads of a request. -/
theorem reads_of_request {ms : Members} {r : Request} (request : Request.ofMembers? ms = some r) :
    listVersion (.object ms) =
        .ok (if -2 ^ 31 ≤ r.listVersion ∧ r.listVersion < 2 ^ 31 then r.listVersion else -1) ∧
      updateType (.object ms) = .ok (some r.isFull) ∧
      localAuthorizationList (.object ms) = .ok (some (.array (r.entries.map .object))) := by
  unfold Request.ofMembers? at request
  split at request
  · rename_i number text version type
    obtain ⟨isFull, kind, listed⟩ := Option.bind_eq_some_iff.1 request
    obtain ⟨entries, list, rfl⟩ := Option.map_eq_some_iff.1 listed
    refine ⟨?_, ?_, ?_⟩
    · simp only [listVersion, Rapidjson.Value.member, version, bind, Except.bind, pure, Except.pure,
        Rapidjson.Value.isInt, Rapidjson.Value.getInt, decide_eq_true_eq]
      split <;> rfl
    · have read : updateType (.object ms) = .ok (if cStr text = "Differential" then some false
          else if cStr text = "Full" then some true else none) := by
        simp only [updateType, Rapidjson.Value.member, type, bind, Except.bind, pure, Except.pure,
          Rapidjson.Value.isString, if_true, Rapidjson.Value.getString]
        split
        · rfl
        · split <;> rfl
      rw [read]
      split at kind
      · cases kind
        subst_vars
        rfl
      · split at kind <;> cases kind
        subst_vars
        rfl
    · simp only [localAuthorizationList, Rapidjson.Value.hasMember, Rapidjson.Value.member, bind,
        Except.bind, pure, Except.pure]
      split at list
      · rename_i absent
        cases list
        simp [absent]
      · rename_i xs present
        simp [present, Rapidjson.Value.isArray, objects?_some list]
      · cases list
  · cases request

/-- The request gets as far as the first statement. -/
def Reached (s : State) (r : Request) : Prop :=
  s.registrationStatus = .accepted ∧ localAuthListEnabled s.config = .ok true ∧
    (0 ≤ r.listVersion ∧ r.listVersion < 2 ^ 31) ∧
    (r.isFull = true ∨ s.localListVersion < r.listVersion)

variable {env} {faults : Faults} {s : State} {r : Request} {ms : Members}

theorem processList_of_reached (env : Env) (faults : Faults)
    (request : Request.ofMembers? ms = some r) (reached : Reached s r) :
    processList env faults s (.object ms) =
      performUpdate env faults s r.isFull r.listVersion (.array (r.entries.map .object)) := by
  obtain ⟨version, type, list⟩ := reads_of_request request
  obtain ⟨accepted, enabled, range, newer⟩ := reached
  rw [if_pos (by omega)] at version
  have goesOn : ¬ (¬ r.isFull = true ∧ r.listVersion ≤ s.localListVersion) := by
    rintro ⟨differential, old⟩
    rcases newer with full | newer
    · exact differential full
    · omega
  simp only [processList, accepted, enabled, version, type, list, bind, Except.bind, pure,
    Except.pure, reduceCtorEq, if_false, not_true, show ¬ r.listVersion < 0 by omega, goesOn]

/-- A request that does not get there changes nothing, and is not accepted. -/
theorem processList_of_not_reached (env : Env) (faults : Faults)
    (request : Request.ofMembers? ms = some r)
    (accepted : s.registrationStatus = .accepted) (stops : ¬ Reached s r) :
    (∃ failure, localAuthListEnabled s.config = .error failure ∧
        processList env faults s (.object ms) = .error failure) ∨
      ∃ answer, processList env faults s (.object ms) = .ok (answer, s) ∧
        answer ≠ .updateStatus .accepted := by
  obtain ⟨version, type, list⟩ := reads_of_request request
  cases enabled : localAuthListEnabled s.config with
  | error failure =>
      exact .inl ⟨failure, rfl, by simp [processList, accepted, enabled, bind, Except.bind]⟩
  | ok on =>
      right
      cases on with
      | false =>
          refine ⟨.callError "NotImplemented" "LocalAuthListEnabled is not enabled", ?_,
            fun same => nomatch same⟩
          simp [processList, accepted, enabled, bind, Except.bind, pure, Except.pure]
      | true =>
          by_cases range : 0 ≤ r.listVersion ∧ r.listVersion < 2 ^ 31
          · -- The version is in range, so it is one that a differential update does not raise.
            have old : ¬ r.isFull = true ∧ r.listVersion ≤ s.localListVersion := by
              by_contra newer
              refine stops ⟨accepted, enabled, range, ?_⟩
              by_cases full : r.isFull = true
              · exact .inl full
              · have := not_and.1 newer full
                exact .inr (by omega)
            rw [if_pos (by omega)] at version
            refine ⟨.updateStatus .versionMismatch, ?_, fun same => nomatch same⟩
            simp only [processList, accepted, enabled, version, type, bind, Except.bind, pure,
              Except.pure, if_true, reduceCtorEq, if_false, not_true,
              show ¬ r.listVersion < 0 by omega, old, not_false_eq_true, and_self]
          · have negative : (if -2 ^ 31 ≤ r.listVersion ∧ r.listVersion < 2 ^ 31 then r.listVersion
                else -1) < 0 := by
              split <;> omega
            refine ⟨.callError "GenericError" "listVersion < 0 is invalid", ?_,
              fun same => nomatch same⟩
            simp only [processList, accepted, enabled, version, bind, Except.bind, pure, Except.pure,
              reduceCtorEq, if_false, not_true, negative, if_true]

/-! ## Inserts -/

/-- The number of records inserted before the first one refused, by a failure or by
a tag that is there. -/
def inserted (faults : Faults) : Nat → List Sqlite.Value → List AuthorizationRecord → Nat
  | _, _, [] => 0
  | k, tags, r :: rest =>
      if faults.execRow k ∨ .text (cStr r.idTag) ∈ tags then 0
      else inserted faults (k + 1) (tags ++ [.text (cStr r.idTag)]) rest + 1

/-- The rows of records, numbered on from `seq`. -/
def newRows (env : Env) : Int → List AuthorizationRecord → List Row
  | _, [] => []
  | seq, r :: rest => newRow env (seq + 1) r :: newRows env (seq + 1) rest

theorem newRows_fresh (rs : List AuthorizationRecord) (seq : Int) :
    ∀ row ∈ newRows env seq rs, seq < row.id := by
  induction rs generalizing seq with
  | nil => simp [newRows]
  | cons r rest ih =>
      intro row member
      rcases List.mem_cons.1 member with rfl | later
      · show seq < seq + 1
        omega
      · have := ih (seq + 1) row later
        omega

/-- **A run of inserts** stops at the first refused record, and has added the rows of
those before it. -/
theorem insertAll_eq (env : Env) (faults : Faults) (rs : List AuthorizationRecord) (k : Nat) (t : Table) :
    (insertAll env faults k t rs).1 =
        decide (inserted faults k (t.rows.map Row.tag) rs = rs.length) ∧
      (insertAll env faults k t rs).2.rows =
        t.rows ++ newRows env t.seq (rs.take (inserted faults k (t.rows.map Row.tag) rs)) := by
  induction rs generalizing k t with
  | nil => simp [insertAll, inserted, newRows]
  | cons r rest ih =>
      by_cases fails : faults.execRow k = true
      · simp [insertAll, inserted, fails, newRows]
      · by_cases there : Sqlite.Value.text (cStr r.idTag) ∈ t.rows.map Row.tag
        · have refused : execInsert env t r = none := by
            obtain ⟨row, inside, same⟩ := List.mem_map.1 there
            refine if_pos (List.any_eq_true.2 ⟨row, inside, decide_eq_true ?_⟩)
            exact same
          simp [insertAll, inserted, fails, refused, there, newRows]
        · obtain ⟨next, added, rows, seq⟩ : ∃ next, execInsert env t r = some next ∧
              next.rows = t.rows ++ [newRow env (t.seq + 1) r] ∧ next.seq = t.seq + 1 := by
            refine ⟨_, if_neg fun taken => ?_, rfl, rfl⟩
            obtain ⟨row, inside, same⟩ := List.any_eq_true.1 taken
            exact there (List.mem_map.2 ⟨row, inside, of_decide_eq_true same⟩)
          obtain ⟨ret, after⟩ := ih (k + 1) next
          have tags : next.rows.map Row.tag = t.rows.map Row.tag ++ [.text (cStr r.idTag)] := by
            rw [rows, List.map_append]
            rfl
          rw [tags] at ret after
          have count : inserted faults k (t.rows.map Row.tag) (r :: rest) =
              inserted faults (k + 1) (t.rows.map Row.tag ++ [.text (cStr r.idTag)]) rest + 1 :=
            if_neg (not_or.2 ⟨fails, there⟩)
          simp only [insertAll, fails, Bool.false_eq_true, if_false, added, count]
          refine ⟨by simpa using ret, ?_⟩
          rw [after, rows, seq, List.take_succ_cons, newRows, List.append_assoc, List.singleton_append]

/-! ## All or nothing -/

/-- What a row is about, and what a record asks for. -/
def content (row : Row) : Sqlite.Value × Cells := (row.tag, row.cells)

def contentOf (r : AuthorizationRecord) : Sqlite.Value × Cells :=
  (.text r.idTag, ⟨.text r.parentIdTag, .integer r.expiryDate, .integer r.status.toInt⟩)

/-- The purpose of a full update: the table is the list. -/
def FullApplied (env : Env) (after : List Row) (entries : List Members) : Prop :=
  after.map content = (entries.filterMap (fullRecordOf env id)).map contentOf

def UpdateApplied (env : Env) (r : Request) (before after : List Row) : Prop :=
  if r.isFull then FullApplied env after r.entries else PartialApplied env before after r.entries

/-- **Atomicity of one request**: it is accepted, and the update, the configuration
key and the version in memory are all in place; or it is not accepted, and table,
version and configuration are as before. -/
def Atomic (env : Env) (r : Request) (before : State)
    (outcome : Option (String × Answer) × State) : Prop :=
  ((∃ uniqueId, outcome.1 = some (uniqueId, .updateStatus .accepted)) ∧
      UpdateApplied env r before.table.rows outcome.2.table.rows ∧
      outcome.2.localListVersion = r.listVersion ∧
      Config.getConfig outcome.2.config versionKey = some (.int r.listVersion)) ∨
    (∀ uniqueId, outcome.1 ≠ some (uniqueId, .updateStatus .accepted)) ∧
      outcome.2.table.rows = before.table.rows ∧
      outcome.2.localListVersion = before.localListVersion ∧ outcome.2.config = before.config

/-- The version can be written: its key is there, with a number. -/
def VersionSettable (s : State) (r : Request) : Prop :=
  Config.Settable s.config versionKey (.int r.listVersion)

/-- The table part of a request. -/
def runUpdates (env : Env) (faults : Faults) (s : State) (r : Request) :
    Except Failure (Bool × Table) :=
  updateTable env faults s r.isFull (.array (r.entries.map .object))

theorem performUpdate_accepted {after : Table} (ran : runUpdates env faults s r = .ok (true, after))
    (settable : VersionSettable s r) :
    ∃ config, performUpdate env faults s r.isFull r.listVersion (.array (r.entries.map .object)) =
        .ok (.updateStatus .accepted,
          { s with table := after, config := config, localListVersion := r.listVersion }) ∧
      Config.getConfig config versionKey = some (.int r.listVersion) := by
  obtain ⟨config, stored, reads⟩ := Config.setConfig_of_settable (by decide) (by decide) rfl settable
  refine ⟨config, ?_, reads⟩
  unfold runUpdates at ran
  simp only [performUpdate, bind, Except.bind, pure, Except.pure, ran, if_true, stored]

theorem performUpdate_failed {ret : Bool} {after : Table}
    (ran : runUpdates env faults s r = .ok (ret, after))
    (fails : ¬ (ret = true ∧ VersionSettable s r)) :
    performUpdate env faults s r.isFull r.listVersion (.array (r.entries.map .object)) =
      .ok (.updateStatus .failed, { s with table := after }) := by
  unfold runUpdates at ran
  cases ret with
  | false => simp [performUpdate, bind, Except.bind, pure, Except.pure, ran]
  | true =>
      have stored := Config.setConfig_of_not_settable (by decide) (by decide)
        (fun settable : VersionSettable s r => fails ⟨rfl, settable⟩)
      simp [performUpdate, bind, Except.bind, pure, Except.pure, ran, stored]

theorem handleSendList_of_processed {uniqueId action : String} {answer : Answer} {after : State}
    (accepted : s.registrationStatus = .accepted)
    (processed : processList env faults s (.object ms) = .ok (answer, after)) :
    handleSendList env faults s (Message.call uniqueId action ms).toValue =
      (some (cStr uniqueId, answer), after) := by
  simp [handleSendList, sendListCallHandler, accepted, Message.toValue, Rapidjson.Value.at_,
    Rapidjson.Value.getString, bind, Except.bind, pure, Except.pure, processed]

theorem atomic_iff_of_refused {outcome : Option (String × Answer) × State}
    (refused : ∀ uniqueId, outcome.1 ≠ some (uniqueId, .updateStatus .accepted)) :
    Atomic env r s outcome ↔ outcome.2.table.rows = s.table.rows ∧
      outcome.2.localListVersion = s.localListVersion ∧ outcome.2.config = s.config := by
  constructor
  · rintro (⟨⟨uniqueId, accepted⟩, -⟩ | ⟨-, same⟩)
    · exact absurd accepted (refused uniqueId)
    · exact same
  · exact fun same => .inr ⟨refused, same⟩

/-- No answer and no change. -/
theorem atomic_silent : Atomic env r s (none, s) := by
  refine .inr ⟨?_, rfl, rfl, rfl⟩
  intro uniqueId accepted
  cases accepted

/-- A request that stops early is atomic. -/
theorem atomic_of_not_reached {uniqueId action : String}
    (request : Request.ofMembers? ms = some r) (stops : ¬ Reached s r) :
    Atomic env r s (handleSendList env faults s (Message.call uniqueId action ms).toValue) := by
  by_cases accepted : s.registrationStatus = .accepted
  · rcases processList_of_not_reached env faults request accepted stops with
      ⟨failure, -, thrown⟩ | ⟨answer, processed, other⟩
    · have nothing : handleSendList env faults s (Message.call uniqueId action ms).toValue =
          (none, s) := by
        simp [handleSendList, sendListCallHandler, accepted, Message.toValue, Rapidjson.Value.at_,
          Rapidjson.Value.getString, bind, Except.bind, thrown]
      rw [nothing]
      exact atomic_silent
    · rw [handleSendList_of_processed accepted processed]
      refine .inr ⟨fun uniqueId same => other ?_, rfl, rfl, rfl⟩
      exact (Prod.mk.inj (Option.some.inj same)).2
  · have nothing : handleSendList env faults s (Message.call uniqueId action ms).toValue =
        (none, s) := by
      simp [handleSendList, sendListCallHandler, accepted, pure, Except.pure]
    rw [nothing]
    exact atomic_silent

/-- A request that reaches the table is atomic iff its statements all went through
and are the update, or did nothing. -/
theorem atomic_iff_of_reached {uniqueId action : String} {ret : Bool} {after : Table}
    (request : Request.ofMembers? ms = some r) (reached : Reached s r)
    (ran : runUpdates env faults s r = .ok (ret, after)) :
    Atomic env r s (handleSendList env faults s (Message.call uniqueId action ms).toValue) ↔
      (ret = true ∧ VersionSettable s r ∧ UpdateApplied env r s.table.rows after.rows) ∨
        (¬ (ret = true ∧ VersionSettable s r) ∧ after.rows = s.table.rows) := by
  have processed := processList_of_reached env faults request reached
  by_cases all : ret = true ∧ VersionSettable s r
  · obtain ⟨rfl, settable⟩ := all
    obtain ⟨config, accepted, reads⟩ := performUpdate_accepted ran settable
    rw [handleSendList_of_processed reached.1 (processed.trans accepted)]
    simp [Atomic, settable, reads]
  · rw [handleSendList_of_processed reached.1 (processed.trans (performUpdate_failed ran all)),
      atomic_iff_of_refused (by simp)]
    constructor
    · rintro ⟨rows, -, -⟩
      exact .inr ⟨all, rows⟩
    · rintro (⟨rfl, settable, -⟩ | ⟨-, rows⟩)
      · exact absurd ⟨rfl, settable⟩ all
      · exact ⟨rows, rfl, rfl⟩

/-! ## The full update -/

/-- The records `performFullUpdate` makes of the entries. -/
def fullRecords (env : Env) (entries : List Members) : List AuthorizationRecord :=
  entries.filterMap (fullRecordOf env cStr)

/-- Reading the texts of the list as C strings loses nothing. -/
def Plain (env : Env) (entries : List Members) : Prop :=
  fullRecords env entries = entries.filterMap (fullRecordOf env id)

theorem length_fullRecordOf (f g : String → String) (entries : List Members) :
    (entries.filterMap (fullRecordOf env f)).length =
      (entries.filterMap (fullRecordOf env g)).length := by
  have reads : ∀ ms, (fullRecordOf env f ms).isSome = (fullRecordOf env g ms).isSome := by
    intro ms
    unfold fullRecordOf readString
    cases Rapidjson.Value.findMember "idTag" ms with
    | none => rfl
    | some v => cases v <;> first | rfl | (cases readObject ms "idTagInfo" <;> rfl)
  induction entries with
  | nil => rfl
  | cons ms rest ih =>
      have here := reads ms
      cases first : fullRecordOf env f ms <;> cases second : fullRecordOf env g ms <;>
        simp_all

theorem cStr_of_mem_fullRecords {entries : List Members} {record : AuthorizationRecord}
    (member : record ∈ fullRecords env entries) :
    cStr record.idTag = record.idTag ∧ cStr record.parentIdTag = record.parentIdTag := by
  have empty : cStr "" = "" := rfl
  have read : ∀ {ms : Members} {name text : String}, readString cStr ms name = some text →
      cStr text = text := by
    intro ms name text found
    unfold readString at found
    split at found <;> cases found
    exact cStr_cStr _
  obtain ⟨ms, -, made⟩ := List.mem_filterMap.1 member
  unfold fullRecordOf at made
  split at made
  · cases made
  · rename_i idTag tag
    split at made <;> cases made
    · exact ⟨read tag, empty⟩
    · rename_i info _
      refine ⟨read tag, ?_⟩
      simp only [recordOf]
      cases parent : readString cStr info "parentIdTag" with
      | none => exact empty
      | some text => exact read parent

theorem contentOf_injective : Function.Injective contentOf := by
  rintro ⟨tag, parent, expiry, status⟩ ⟨tag', parent', expiry', status'⟩ same
  simp only [contentOf, Prod.mk.injEq, Cells.mk.injEq, Sqlite.Value.text.injEq,
    Sqlite.Value.integer.injEq] at same
  obtain ⟨rfl, rfl, rfl, sameStatus⟩ := same
  rw [AuthorizationStatus.toInt_injective sameStatus]

theorem newRows_content {rs : List AuthorizationRecord}
    (texts : ∀ record ∈ rs, cStr record.idTag = record.idTag ∧
      cStr record.parentIdTag = record.parentIdTag) (seq : Int) :
    (newRows env seq rs).map content = rs.map contentOf := by
  induction rs generalizing seq with
  | nil => rfl
  | cons record rest ih =>
      obtain ⟨tag, parent⟩ := texts record List.mem_cons_self
      have here : content (newRow env (seq + 1) record) = contentOf record := by
        simp [content, contentOf, newRow, tag, parent]
      rw [newRows, List.map_cons, here,
        ih (fun other inside => texts other (List.mem_cons_of_mem _ inside)), List.map_cons]

/-- All records inserted: the table is the list iff nothing was there before and the
texts are plain. -/
theorem fullApplied_iff (start : List Row) (seq : Int) (entries : List Members) :
    FullApplied env (start ++ newRows env seq (fullRecords env entries)) entries ↔
      start = [] ∧ Plain env entries := by
  rw [FullApplied, List.map_append, newRows_content fun _ => cStr_of_mem_fullRecords]
  constructor
  · intro same
    have lengths := congrArg List.length same
    simp only [List.length_append, List.length_map, fullRecords, length_fullRecordOf cStr id] at lengths
    obtain rfl : start = [] := List.length_eq_zero_iff.1 (by omega)
    exact ⟨rfl, contentOf_injective.list_map same⟩
  · rintro ⟨rfl, plain⟩
    rw [List.map_nil, List.nil_append, plain]

/-- Rows under new ids are not the old rows. -/
theorem append_newRows_eq_iff {t : Table} {start : List Row} {rs : List AuthorizationRecord} :
    start ++ newRows env t.seq rs = t.rows ↔ start = t.rows ∧ rs = [] := by
  constructor
  · intro same
    have none_ : newRows env t.seq rs = [] := by
      by_contra some_
      obtain ⟨row, member⟩ := List.exists_mem_of_ne_nil _ some_
      have low := t.given row (same ▸ List.mem_append_right _ member)
      have high := newRows_fresh rs t.seq row member
      omega
    refine ⟨by rwa [none_, List.append_nil] at same, ?_⟩
    cases rs with
    | nil => rfl
    | cons record rest => cases none_
  · rintro ⟨rfl, rfl⟩
    simp [newRows]

theorem inserted_le (faults : Faults) (k : Nat) (tags : List Sqlite.Value) (rs : List AuthorizationRecord) :
    inserted faults k tags rs ≤ rs.length := by
  induction rs generalizing k tags with
  | nil => exact Nat.le_refl 0
  | cons record rest ih =>
      rw [inserted]
      split
      · exact Nat.zero_le _
      · exact Nat.succ_le_succ (ih _ _)

/-- The rows the inserts start from: an unprepared DELETE is skipped. -/
def startRows (faults : Faults) (s : State) : List Row :=
  if faults.prepareDelete then s.table.rows else []

/-- The number of inserts that go through. -/
def insertCount (env : Env) (faults : Faults) (s : State) (r : Request) : Nat :=
  inserted faults 0 ((startRows faults s).map Row.tag) (fullRecords env r.entries)

/-- When a full update that reaches the table is atomic. -/
def FullAtomic (env : Env) (faults : Faults) (s : State) (r : Request) : Prop :=
  maxLength s.config < r.entries.length ∨
    (faults.prepareDelete = false ∧ faults.execDelete = true) ∨
    (insertCount env faults s r = (fullRecords env r.entries).length ∧ VersionSettable s r ∧
      startRows faults s = [] ∧ Plain env r.entries) ∨
    (¬ (insertCount env faults s r = (fullRecords env r.entries).length ∧ VersionSettable s r) ∧
      startRows faults s = s.table.rows ∧ insertCount env faults s r = 0)

/-- The inserts of a full update that was not stopped before them. -/
theorem full_inserts_iff {t : Table} (rows : t.rows = startRows faults s)
    (seq : t.seq = s.table.seq) (full : r.isFull = true) :
    ((insertAll env faults 0 t (fullRecords env r.entries)).1 = true ∧ VersionSettable s r ∧
        UpdateApplied env r s.table.rows
          (insertAll env faults 0 t (fullRecords env r.entries)).2.rows) ∨
      (¬ ((insertAll env faults 0 t (fullRecords env r.entries)).1 = true ∧ VersionSettable s r) ∧
        (insertAll env faults 0 t (fullRecords env r.entries)).2.rows = s.table.rows) ↔
    (insertCount env faults s r = (fullRecords env r.entries).length ∧ VersionSettable s r ∧
        startRows faults s = [] ∧ Plain env r.entries) ∨
      (¬ (insertCount env faults s r = (fullRecords env r.entries).length ∧ VersionSettable s r) ∧
        startRows faults s = s.table.rows ∧ insertCount env faults s r = 0) := by
  obtain ⟨ret, after⟩ := insertAll_eq env faults (fullRecords env r.entries) 0 t
  have count : inserted faults 0 (t.rows.map Row.tag) (fullRecords env r.entries) =
      insertCount env faults s r := by
    rw [rows]
    rfl
  have short := inserted_le faults 0 (t.rows.map Row.tag) (fullRecords env r.entries)
  rw [count] at ret after short
  rw [ret, after, decide_eq_true_iff, rows, seq, append_newRows_eq_iff]
  refine or_congr (and_congr_right fun all => and_congr_right fun _ => ?_)
    (and_congr_right fun _ => and_congr_right fun _ => ?_)
  · rw [all, List.take_length, UpdateApplied, if_pos full, fullApplied_iff]
  · rw [List.take_eq_nil_iff]
    constructor
    · rintro (zero | empty)
      · exact zero
      · rw [empty] at short
        exact Nat.le_zero.1 short
    · exact .inl

theorem runUpdates_full (env : Env) (faults : Faults) (s : State) (full : r.isFull = true) :
    runUpdates env faults s r =
    if maxLength s.config < r.entries.length then .ok (false, s.table)
    else if faults.prepareDelete then
      .ok (insertAll env faults 0 s.table (fullRecords env r.entries))
    else if faults.execDelete then .ok (false, s.table)
    else .ok (insertAll env faults 0 (execDelete s.table) (fullRecords env r.entries)) := by
  have records := records_objects (fullRecord_object env) r.entries
  simp only [runUpdates, updateTable, full, if_true, performFullUpdate, List.length_map, records,
    bind, Except.bind, pure, Except.pure, fullRecords]

theorem full_update_iff {uniqueId action : String} (request : Request.ofMembers? ms = some r)
    (reached : Reached s r) (full : r.isFull = true) :
    Atomic env r s (handleSendList env faults s (Message.call uniqueId action ms).toValue) ↔
      FullAtomic env faults s r := by
  have ran := runUpdates_full env faults s full
  unfold FullAtomic
  by_cases long : maxLength s.config < r.entries.length
  · rw [if_pos long] at ran
    rw [atomic_iff_of_reached request reached ran]
    simp [long]
  · rw [if_neg long] at ran
    cases unprepared : faults.prepareDelete with
    | true =>
        rw [unprepared, if_pos rfl] at ran
        rw [atomic_iff_of_reached request reached ran,
          full_inserts_iff (t := s.table) (by simp [startRows, unprepared]) rfl full]
        simp [long]
    | false =>
        rw [unprepared, if_neg (by simp)] at ran
        cases failed : faults.execDelete with
        | true =>
            rw [failed, if_pos rfl] at ran
            rw [atomic_iff_of_reached request reached ran]
            simp
        | false =>
            rw [failed, if_neg (by simp)] at ran
            rw [atomic_iff_of_reached request reached ran,
              full_inserts_iff (t := execDelete s.table) (by simp [startRows, unprepared, execDelete])
                rfl full]
            simp [long]

/-! ## The partial update -/

/-- The shifted values of these records are in the rows they pick already. -/
def Harmless (env : Env) (rows : List Row) (rs : List AuthorizationRecord) : Prop :=
  ∀ row ∈ rows, ∀ tag record, row.tag = .text tag → lastFor tag rs = some record →
    shifted env record = row.cells

theorem settle_eq_iff (rs : List AuthorizationRecord) (row : Row) :
    settle env rs row = row ↔ ∀ tag record, row.tag = .text tag → lastFor tag rs = some record →
      shifted env record = row.cells := by
  obtain ⟨id, tag, cells⟩ := row
  cases tag with
  | text tag =>
      cases last : lastFor tag rs with
      | none =>
          simp only [settle, last, true_iff]
          rintro _ record ⟨⟩ found
          cases last.symm.trans found
      | some record =>
          simp only [settle, last, Row.mk.injEq, true_and]
          constructor
          · rintro same _ other ⟨⟩ found
            cases last.symm.trans found
            exact same
          · exact fun same => same tag record rfl last
  | _ => simp [settle]

theorem map_settle_eq_iff (rows : List Row) (rs : List AuthorizationRecord) :
    rows.map (settle env rs) = rows ↔ Harmless env rows rs := by
  have pointwise : rows.map (settle env rs) = rows.map id ↔
      ∀ row ∈ rows, settle env rs row = row := List.map_inj_left
  rw [List.map_id] at pointwise
  exact pointwise.trans (forall₂_congr fun row _ => settle_eq_iff rs row)

/-- The number of updates that go through. -/
def updateCount (env : Env) (faults : Faults) (r : Request) : Nat :=
  done faults 0 (partialRecords env r.entries)

/-- When a differential update that reaches the table is atomic. -/
def DiffAtomic (env : Env) (faults : Faults) (s : State) (r : Request) : Prop :=
  (updateCount env faults r = (partialRecords env r.entries).length ∧ VersionSettable s r ∧
      ShiftAgrees env s.table.rows r.entries) ∨
    (¬ (updateCount env faults r = (partialRecords env r.entries).length ∧ VersionSettable s r) ∧
      Harmless env s.table.rows ((partialRecords env r.entries).take (updateCount env faults r)))

theorem runUpdates_differential (env : Env) (faults : Faults) (s : State)
    (full : ¬ r.isFull = true) : ∃ after,
    runUpdates env faults s r =
        .ok (decide (updateCount env faults r = (partialRecords env r.entries).length), after) ∧
      after.rows = s.table.rows.map (settle env
        ((partialRecords env r.entries).take (updateCount env faults r))) := by
  obtain ⟨after, performed, rows⟩ :=
    performPartialUpdate_eq env faults s.table r.entries
  refine ⟨after, ?_, rows⟩
  rw [runUpdates, updateTable, if_neg full, performed]
  rfl

theorem differential_update_iff {uniqueId action : String}
    (request : Request.ofMembers? ms = some r) (reached : Reached s r) (full : ¬ r.isFull = true) :
    Atomic env r s (handleSendList env faults s (Message.call uniqueId action ms).toValue) ↔
      DiffAtomic env faults s r := by
  obtain ⟨after, ran, rows⟩ := runUpdates_differential env faults s full
  rw [atomic_iff_of_reached request reached ran, DiffAtomic, decide_eq_true_iff, rows,
    map_settle_eq_iff]
  refine or_congr (and_congr_right fun all => and_congr_right fun _ => ?_) Iff.rfl
  rw [UpdateApplied, if_neg full, all, List.take_length, partialApplied_settle_iff]

/-! ## The condition -/

/-- With a readable configuration every path of the handler comes to an answer. -/
theorem processList_answers (env : Env) (faults : Faults) {on : Bool}
    (request : Request.ofMembers? ms = some r)
    (accepted : s.registrationStatus = .accepted) (readable : localAuthListEnabled s.config = .ok on) :
    ∃ outcome, processList env faults s (.object ms) = .ok outcome := by
  by_cases reached : Reached s r
  · obtain ⟨⟨ret, after⟩, ran⟩ : ∃ updated, runUpdates env faults s r = .ok updated := by
      by_cases full : r.isFull = true
      · rw [runUpdates_full env faults s full]
        split_ifs <;> exact ⟨_, rfl⟩
      · obtain ⟨after, ran, -⟩ :=
          runUpdates_differential env faults s full
        exact ⟨_, ran⟩
    rw [processList_of_reached env faults request reached]
    by_cases all : ret = true ∧ VersionSettable s r
    · obtain ⟨rfl, settable⟩ := all
      obtain ⟨config, performed, -⟩ := performUpdate_accepted ran settable
      exact ⟨_, performed⟩
    · exact ⟨_, performUpdate_failed ran all⟩
  · rcases processList_of_not_reached env faults request accepted reached with
      ⟨failure, unreadable, -⟩ | ⟨answer, processed, -⟩
    · cases readable.symm.trans unreadable
    · exact ⟨_, processed⟩

/-- **SendLocalList is all or nothing** exactly when it stops before the first
statement, or its statements stop having changed nothing, or they all go through, the
version is stored and they are what the list asked for. -/
theorem sendList_atomic_iff (env : Env) (faults : Faults) (s : State) (r : Request) (ms : Members)
    (uniqueId action : String) (request : Request.ofMembers? ms = some r) :
    Atomic env r s (handleSendList env faults s (Message.call uniqueId action ms).toValue) ↔
      ¬ Reached s r ∨ (if r.isFull then FullAtomic env faults s r else DiffAtomic env faults s r) := by
  by_cases reached : Reached s r
  · rw [or_iff_right (not_not.2 reached)]
    split
    · rename_i full
      exact full_update_iff request reached full
    · rename_i differential
      exact differential_update_iff request reached differential
  · simp [reached, atomic_of_not_reached request reached]

/-! ## A list with one tag twice -/

/-- `T1` is listed, at version 1. -/
def enabledState : State where
  registrationStatus := .accepted
  config := .object [("OCPP1_6", .object [("LocalAuthListEnabled", .bool true)]),
    ("ChargePoint", .object [("LocalListVersion", .int 1)])]
  localListVersion := 1
  table := blockedTable

/-- A full update to version 2 with two entries for `T2`. -/
def twiceMembers : Members :=
  [("listVersion", .int 2), ("updateType", .string "Full"),
    ("localAuthorizationList",
      .array [.object [("idTag", .string "T2")], .object [("idTag", .string "T2")]])]

def twice : Request := ⟨2, true, [[("idTag", .string "T2")], [("idTag", .string "T2")]]⟩

/-- The empty full update empties the table. -/
theorem sendList_atomic_empty :
    Atomic textEnv ⟨2, true, []⟩ enabledState (handleSendList textEnv {} enabledState
      (Message.call "m" "SendLocalList"
        [("listVersion", .int 2), ("updateType", .string "Full")]).toValue) := by
  refine (sendList_atomic_iff textEnv {} enabledState ⟨2, true, []⟩ _ "m" "SendLocalList" rfl).2
    (.inr (.inr (.inr (.inl ⟨rfl, ?_, rfl, rfl⟩))))
  exact ⟨_, rfl, rfl⟩

/-- **The second `T2` violates the UNIQUE column**: the answer is Failed, `T1` is gone
and the first `T2` is there. -/
theorem failed_full_update_loses_list :
    ¬ Atomic textEnv twice enabledState (handleSendList textEnv {} enabledState
      (Message.call "m" "SendLocalList" twiceMembers).toValue) := by
  have answer : (handleSendList textEnv {} enabledState
      (Message.call "m" "SendLocalList" twiceMembers).toValue).1 =
        some ("m", .updateStatus .failed) := rfl
  have rows : (handleSendList textEnv {} enabledState
      (Message.call "m" "SendLocalList" twiceMembers).toValue).2.table.rows =
        [⟨2, .text "T2", ⟨.text "", .integer 0, .integer 3⟩⟩] := rfl
  rintro (⟨⟨uniqueId, accepted⟩, -⟩ | ⟨-, same, -⟩)
  · rw [answer] at accepted
    cases accepted
  · rw [rows] at same
    exact absurd same (by decide)

end ChargerStack.Ocpp.LocalList
