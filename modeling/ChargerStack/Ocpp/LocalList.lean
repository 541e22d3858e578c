/-
# Ocpp.LocalList -- the local authorization list and its two updates

The table `AuthentLocalList`, the record parser of `performFullUpdate` and
`performPartialUpdate`, and the statements they run.

The UPDATE of a partial update reads
`SET [parent]=?, [expiry]=?, [status]=? WHERE tag=?` and is bound as
`idTag, parentIdTag, expiryDate, status`: each value lands one column early, and the
row is picked by the status number.

* `updateAll_eq`: so a run of updates gives each row the shifted values of the last
  record whose status, written in decimal, is the row's tag;
* `partial_update_iff`: and the update is what it should be exactly when that
  happens to be what the list asked for.
-/
import ChargerStack.Rapidjson.Value
import ChargerStack.Sqlite.Value
import ChargerStack.Ocpp.BidirectionalMap
import ChargerStack.Ocpp.ConfigManager

namespace ChargerStack.Ocpp.LocalList

open Cxx Rapidjson Sqlite

set_option autoImplicit false

/-! ## Records -/

/-- `AuthorizationRecord`.  `expiryDate` goes from `time_t` through `uint64_t` to the
`int64_t` that is bound: the same 64 bits. -/
structure AuthorizationRecord where
  idTag : String
  parentIdTag : String := ""
  expiryDate : Int := 0
  status : AuthorizationStatus := .invalid
  deriving DecidableEq

/-- SQLite, and the C library's `get_time` and `mktime` as `DateTime` uses them: the
timestamp of a text, 0 when it is no date. -/
structure Env where
  engine : Engine
  timestamp : String → Int

/-- The members of an object. -/
abbrev Members := List (String × Rapidjson.Value)

variable (env : Env)

/-- `v.HasMember(name) && v[name].IsString()`, and then its text. -/
def stringMember (v : Rapidjson.Value) (name : String) : Except Failure (Option String) := do
  if ← v.hasMember name then
    let m ← v.member name
    if m.isString then return some (← m.getString) else return none
  else return none

/-- `v.HasMember(name) && v[name].IsObject()`, and then that object. -/
def objectMember (v : Rapidjson.Value) (name : String) :
    Except Failure (Option Rapidjson.Value) := do
  if ← v.hasMember name then
    let m ← v.member name
    if m.isObject then return some m else return none
  else return none

/-- The body of the record loop of `performPartialUpdate`; `none` is `continue`. -/
def partialRecord (data : Rapidjson.Value) : Except Failure (Option AuthorizationRecord) := do
  match ← stringMember data "idTag" with
  | none => return none
  | some idTag =>
      match ← objectMember data "idTagInfo" with
      | none => return some { idTag := idTag }
      | some info =>
          match ← stringMember info "status" with
          | none => return none
          | some statusStr =>
              let parentIdTag ← stringMember info "parentIdTag"
              let expiryDate ← stringMember info "expiryDate"
              return some {
                idTag := idTag
                parentIdTag := parentIdTag.getD ""
                expiryDate := (expiryDate.map env.timestamp).getD 0
                status := authorizationStatusMap.toEnum statusStr .invalid }

/-- The body of the record loop of `performFullUpdate`: without a status the record
keeps the default one. -/
def fullRecord (data : Rapidjson.Value) : Except Failure (Option AuthorizationRecord) := do
  match ← stringMember data "idTag" with
  | none => return none
  | some idTag =>
      match ← objectMember data "idTagInfo" with
      | none => return some { idTag := idTag }
      | some info =>
          let statusStr ← stringMember info "status"
          let parentIdTag ← stringMember info "parentIdTag"
          let expiryDate ← stringMember info "expiryDate"
          return some {
            idTag := idTag
            parentIdTag := parentIdTag.getD ""
            expiryDate := (expiryDate.map env.timestamp).getD 0
            status := (statusStr.map fun s =>
              authorizationStatusMap.toEnum s .invalid).getD .invalid }

/-- The records of a list, in order. -/
def records (record : Rapidjson.Value → Except Failure (Option AuthorizationRecord)) :
    List Rapidjson.Value → Except Failure (List AuthorizationRecord)
  | [] => .ok []
  | data :: rest => do
      let first ← record data
      let later ← records record rest
      return first.toList ++ later

/-! ## The table -/

/-- The three columns behind `id` and `tag`. -/
structure Cells where
  parent : Sqlite.Value
  expiry : Sqlite.Value
  status : Sqlite.Value
  deriving DecidableEq

structure Row where
  id : Int
  tag : Sqlite.Value
  cells : Cells
  deriving DecidableEq

/-- `AuthentLocalList` and its entry in `sqlite_sequence`: AUTOINCREMENT has given
out no id above it. -/
structure Table where
  rows : List Row
  seq : Int
  given : ∀ row ∈ rows, row.id ≤ seq

/-- `DELETE FROM AuthentLocalList`. -/
def execDelete (t : Table) : Table := ⟨[], t.seq, by simp⟩

/-- The row `INSERT INTO AuthentLocalList VALUES (NULL, ?, ?, ?, ?)` makes of a
record. -/
def newRow (id : Int) (r : AuthorizationRecord) : Row where
  id := id
  tag := env.engine.convert .text (bindText r.idTag)
  cells :=
    { parent := env.engine.convert .text (bindText r.parentIdTag)
      expiry := env.engine.convert .integer (.integer r.expiryDate)
      status := env.engine.convert .integer (.integer r.status.toInt) }

/-- The INSERT of a record; `none` is the UNIQUE violation of a tag that is there. -/
def execInsert (t : Table) (r : AuthorizationRecord) : Option Table :=
  if t.rows.any fun row => decide (row.tag = (newRow env 0 r).tag) then none
  else some
    { rows := t.rows ++ [newRow env (t.seq + 1) r]
      seq := t.seq + 1
      given := by
        intro row member
        rcases List.mem_append.1 member with old | new
        · have := t.given row old
          omega
        · rw [List.mem_singleton.1 new]
          exact Int.le_refl _ }

/-- `UPDATE AuthentLocalList SET [parent]=?1, [expiry]=?2, [status]=?3 WHERE tag=?4`. -/
def runUpdate (bind1 bind2 bind3 bind4 : Sqlite.Value) (rows : List Row) : List Row :=
  rows.map fun row =>
    if row.tag = env.engine.convert .text bind4 then
      { row with cells :=
        { parent := env.engine.convert .text bind1
          expiry := env.engine.convert .integer bind2
          status := env.engine.convert .integer bind3 } }
    else row

theorem runUpdate_given {bind1 bind2 bind3 bind4 : Sqlite.Value} {rows : List Row} {seq : Int}
    (given : ∀ row ∈ rows, row.id ≤ seq) :
    ∀ row ∈ runUpdate env bind1 bind2 bind3 bind4 rows, row.id ≤ seq := by
  intro row member
  obtain ⟨old, inside, rfl⟩ := List.mem_map.1 member
  split <;> exact given old inside

/-- The UPDATE as `performPartialUpdate` binds it. -/
def execUpdate (t : Table) (r : AuthorizationRecord) : Table where
  rows := runUpdate env (bindText r.idTag) (bindText r.parentIdTag) (.integer r.expiryDate)
    (.integer r.status.toInt) t.rows
  seq := t.seq
  given := runUpdate_given env t.given

/-! ## The updates -/

/-- Which statements of a request fail: the preparation and the execution of the
DELETE, and the `k`-th INSERT or UPDATE. -/
structure Faults where
  prepareDelete : Bool := false
  execDelete : Bool := false
  execRow : Nat → Bool := fun _ => false

/-- The insert loop, from the `k`-th record on. -/
def insertAll (faults : Faults) : Nat → Table → List AuthorizationRecord → Bool × Table
  | _, t, [] => (true, t)
  | k, t, r :: rest =>
      if faults.execRow k then (false, t)
      else
        match execInsert env t r with
        | none => (false, t)
        | some next => insertAll faults (k + 1) next rest

/-- The update loop, from the `k`-th record on. -/
def updateAll (faults : Faults) : Nat → Table → List AuthorizationRecord → Bool × Table
  | _, t, [] => (true, t)
  | k, t, r :: rest =>
      if faults.execRow k then (false, t)
      else updateAll faults (k + 1) (execUpdate env t r) rest

/-- `LocalAuthListMaxLength`, 500 unless the configuration has an `unsigned`. -/
def maxLength (config : Rapidjson.Value) : Nat :=
  match Config.getConfig config "OCPP1_6.LocalAuthListMaxLength" with
  | some cfg => if cfg.isUint then cfg.getUint.toOption.getD 500 else 500
  | none => 500

def performFullUpdate (config : Rapidjson.Value) (faults : Faults) (t : Table)
    (authorization_datas : Rapidjson.Value) : Except Failure (Bool × Table) :=
  match authorization_datas with
  | .array datas =>
      if maxLength config < datas.length then .ok (false, t)
      else do
        let rs ← records (fullRecord env) datas
        if faults.prepareDelete then return insertAll env faults 0 t rs
        else if faults.execDelete then return (false, t)
        else return insertAll env faults 0 (execDelete t) rs
  | _ => .ok (false, t)

def performPartialUpdate (faults : Faults) (t : Table) (authorization_datas : Rapidjson.Value) :
    Except Failure (Bool × Table) :=
  match authorization_datas with
  | .array datas => do
      let rs ← records (partialRecord env) datas
      return updateAll env faults 0 t rs
  | _ => .ok (false, t)

/-! ## Entries

What an entry says, with its texts read by `read`: `cStr` is what the code gets to
see of them, `id` is all of them. -/

def readString (read : String → String) (ms : Members) (name : String) : Option String :=
  match Rapidjson.Value.findMember name ms with
  | some (.string s) => some (read s)
  | _ => none

def readObject (ms : Members) (name : String) : Option Members :=
  match Rapidjson.Value.findMember name ms with
  | some (.object members) => some members
  | _ => none

/-- The record of an `idTag` and its `idTagInfo`. -/
def recordOf (read : String → String) (idTag : String) (info : Members)
    (status : AuthorizationStatus) : AuthorizationRecord where
  idTag := idTag
  parentIdTag := (readString read info "parentIdTag").getD ""
  expiryDate := ((readString read info "expiryDate").map env.timestamp).getD 0
  status := status

def partialRecordOf (read : String → String) (ms : Members) : Option AuthorizationRecord :=
  match readString read ms "idTag" with
  | none => none
  | some idTag =>
      match readObject ms "idTagInfo" with
      | none => some { idTag := idTag }
      | some info =>
          match readString read info "status" with
          | none => none
          | some s => some (recordOf env read idTag info (authorizationStatusMap.toEnum s .invalid))

def fullRecordOf (read : String → String) (ms : Members) : Option AuthorizationRecord :=
  match readString read ms "idTag" with
  | none => none
  | some idTag =>
      match readObject ms "idTagInfo" with
      | none => some { idTag := idTag }
      | some info => some (recordOf env read idTag info
          (((readString read info "status").map fun s =>
            authorizationStatusMap.toEnum s .invalid).getD .invalid))

variable {env}

theorem stringMember_object (ms : Members) (name : String) :
    stringMember (.object ms) name = .ok (readString cStr ms name) := by
  simp only [stringMember, readString, Rapidjson.Value.hasMember, Rapidjson.Value.member, bind,
    Except.bind, pure, Except.pure]
  cases Rapidjson.Value.findMember name ms with
  | none => rfl
  | some v => cases v <;> rfl

theorem objectMember_object (ms : Members) (name : String) :
    objectMember (.object ms) name = .ok ((readObject ms name).map .object) := by
  simp only [objectMember, readObject, Rapidjson.Value.hasMember, Rapidjson.Value.member, bind,
    Except.bind, pure, Except.pure]
  cases Rapidjson.Value.findMember name ms with
  | none => rfl
  | some v => cases v <;> rfl

theorem partialRecord_object (env : Env) (ms : Members) :
    partialRecord env (.object ms) = .ok (partialRecordOf env cStr ms) := by
  simp only [partialRecord, partialRecordOf, stringMember_object, objectMember_object, bind,
    Except.bind, pure, Except.pure]
  cases readString cStr ms "idTag" with
  | none => rfl
  | some idTag =>
      cases readObject ms "idTagInfo" with
      | none => rfl
      | some info =>
          simp only [Option.map_some, stringMember_object]
          cases readString cStr info "status" <;> rfl

theorem fullRecord_object (env : Env) (ms : Members) :
    fullRecord env (.object ms) = .ok (fullRecordOf env cStr ms) := by
  simp only [fullRecord, fullRecordOf, stringMember_object, objectMember_object, bind,
    Except.bind, pure, Except.pure]
  cases readString cStr ms "idTag" with
  | none => rfl
  | some idTag =>
      cases readObject ms "idTagInfo" with
      | none => rfl
      | some info =>
          simp only [Option.map_some, stringMember_object]
          rfl

theorem records_objects {record : Rapidjson.Value → Except Failure (Option AuthorizationRecord)}
    {recordOf : Members → Option AuthorizationRecord}
    (reads : ∀ ms, record (.object ms) = .ok (recordOf ms)) (entries : List Members) :
    records record (entries.map .object) = .ok (entries.filterMap recordOf) := by
  induction entries with
  | nil => rfl
  | cons ms rest ih =>
      simp only [List.map_cons, records, reads, ih, bind, Except.bind, pure, Except.pure]
      cases first : recordOf ms <;> simp [first]

/-! ## What a run of updates leaves -/

/-- What the UPDATE of a record writes: its values one column early. -/
def shifted (env : Env) (r : AuthorizationRecord) : Cells where
  parent := .text (cStr r.idTag)
  expiry := env.engine.numeric (cStr r.parentIdTag)
  status := .integer r.expiryDate

/-- The tag its WHERE clause picks. -/
def picked (r : AuthorizationRecord) : String := decimal r.status.toInt

/-- The last of the records that pick a tag. -/
def lastFor (tag : String) : List AuthorizationRecord → Option AuthorizationRecord
  | [] => none
  | r :: rest =>
      match lastFor tag rest with
      | some last => some last
      | none => if picked r = tag then some r else none

/-- The cells of a row after all the updates. -/
def settle (env : Env) (rs : List AuthorizationRecord) (row : Row) : Row :=
  match row.tag with
  | .text tag =>
      match lastFor tag rs with
      | some r => { row with cells := shifted env r }
      | none => row
  | _ => row

theorem execUpdate_rows (t : Table) (r : AuthorizationRecord) :
    (execUpdate env t r).rows =
      t.rows.map fun row => if row.tag = .text (picked r) then { row with cells := shifted env r }
        else row := rfl

theorem settle_nil : settle env [] = id := by
  funext row
  unfold settle
  split <;> rfl

/-- One update, and then the rest of them. -/
theorem settle_cons (r : AuthorizationRecord) (rest : List AuthorizationRecord) (row : Row) :
    settle env (r :: rest) row = settle env rest
      (if row.tag = .text (picked r) then { row with cells := shifted env r } else row) := by
  obtain ⟨id, tag, cells⟩ := row
  cases tag with
  | text tag =>
      by_cases here : picked r = tag
      · subst here
        simp only [if_true, settle, lastFor]
        cases lastFor (picked r) rest <;> rfl
      · have apart : Sqlite.Value.text tag ≠ .text (picked r) := fun same =>
          here (Sqlite.Value.text.inj same).symm
        simp only [if_neg apart, settle, lastFor, if_neg here]
        cases lastFor tag rest <;> rfl
  | _ => rfl

/-- The number of records before the first statement that fails, the whole list when
none does. -/
def done (faults : Faults) : Nat → List AuthorizationRecord → Nat
  | _, [] => 0
  | k, _ :: rest => if faults.execRow k then 0 else done faults (k + 1) rest + 1

/-- **A run of updates, row by row**: it stops at the first failure, and of the
records before that the last one that picks the row wins. -/
theorem updateAll_eq (env : Env) (faults : Faults) (rs : List AuthorizationRecord) (k : Nat) (t : Table) :
    (updateAll env faults k t rs).1 = decide (done faults k rs = rs.length) ∧
      (updateAll env faults k t rs).2.rows =
        t.rows.map (settle env (rs.take (done faults k rs))) := by
  induction rs generalizing k t with
  | nil => simp [updateAll, done, settle_nil]
  | cons r rest ih =>
      cases fails : faults.execRow k with
      | true => simp [updateAll, done, fails, settle_nil]
      | false =>
          obtain ⟨ret, rows⟩ := ih (k + 1) (execUpdate env t r)
          simp only [updateAll, done, fails, Bool.false_eq_true, if_false]
          refine ⟨by simpa using ret, ?_⟩
          rw [rows, execUpdate_rows, List.map_map, List.take_succ_cons]
          apply List.map_congr_left
          intro row _
          exact (settle_cons r _ row).symm

theorem done_fine (k : Nat) (rs : List AuthorizationRecord) : done {} k rs = rs.length := by
  induction rs generalizing k with
  | nil => rfl
  | cons r rest ih => simp [done, ih]

/-! ## What a partial update is for -/

/-- The cells a table maps a tag to. -/
def lookup (rows : List Row) (tag : String) : Option Cells :=
  (rows.find? fun row => row.tag = .text tag).map Row.cells

/-- An entry with an `idTagInfo` that holds a status, and the cells it asks for. -/
def wanted (env : Env) (ms : Members) : Option (String × Cells) :=
  match readString id ms "idTag", readObject ms "idTagInfo" with
  | some idTag, some info =>
      (readString id info "status").map fun s =>
        let r := recordOf env id idTag info (authorizationStatusMap.toEnum s .invalid)
        (idTag, ⟨.text r.parentIdTag, .integer r.expiryDate, .integer r.status.toInt⟩)
  | _, _ => none

/-- The cells the last such entry of a tag asks for. -/
def lastWanted (env : Env) (entries : List Members) (tag : String) : Option Cells :=
  (((entries.filterMap (wanted env)).filter fun w => w.1 = tag).getLast?).map Prod.snd

/-- No entry is about the tag. -/
def Unlisted (entries : List Members) (tag : String) : Prop :=
  ∀ ms ∈ entries, readString id ms "idTag" ≠ some tag

/-- **The purpose of a partial update**: listed tags are mapped to what their last
entry asks for, unlisted ones as before. -/
def PartialApplied (env : Env) (before after : List Row) (entries : List Members) : Prop :=
  (∀ tag cells, lastWanted env entries tag = some cells → lookup after tag = some cells) ∧
    ∀ tag, Unlisted entries tag → lookup after tag = lookup before tag

theorem lookup_settle (rs : List AuthorizationRecord) (rows : List Row) (tag : String) :
    lookup (rows.map (settle env rs)) tag =
      (lookup rows tag).map fun cells => ((lastFor tag rs).map (shifted env)).getD cells := by
  have sameTag : ∀ row : Row, (settle env rs row).tag = row.tag := by
    intro row
    unfold settle
    split
    · split <;> rfl
    · rfl
  have picks : ((fun row : Row => decide (row.tag = .text tag)) ∘ settle env rs) =
      fun row => decide (row.tag = .text tag) := by
    funext row
    simp only [Function.comp, sameTag]
  rw [lookup, List.find?_map, picks, lookup, Option.map_map, Option.map_map]
  cases found : rows.find? fun row => decide (row.tag = .text tag) with
  | none => rfl
  | some row =>
      have isTag : row.tag = .text tag := by simpa using List.find?_some found
      simp only [Option.map_some, Function.comp, settle, isTag]
      cases lastFor tag rs <;> rfl

/-- The records `performPartialUpdate` makes of the entries. -/
def partialRecords (env : Env) (entries : List Members) : List AuthorizationRecord :=
  entries.filterMap (partialRecordOf env cStr)

/-- The condition: every listed tag has a row, which the shifted values of the last
record that picks it, or in their absence its own, make what is wanted; and a record
that picks an unlisted row finds its shifted values there already. -/
def ShiftAgrees (env : Env) (rows : List Row) (entries : List Members) : Prop :=
  (∀ tag cells, lastWanted env entries tag = some cells →
    ∃ old, lookup rows tag = some old ∧
      match lastFor tag (partialRecords env entries) with
      | some r => shifted env r = cells
      | none => old = cells) ∧
    ∀ tag, Unlisted entries tag → ∀ old r, lookup rows tag = some old →
      lastFor tag (partialRecords env entries) = some r → shifted env r = old

theorem partialApplied_settle_iff (rows : List Row) (entries : List Members) :
    PartialApplied env rows (rows.map (settle env (partialRecords env entries))) entries ↔
      ShiftAgrees env rows entries := by
  unfold PartialApplied ShiftAgrees
  simp only [lookup_settle]
  refine and_congr (forall₃_congr fun tag cells listed => ?_)
    (forall₂_congr fun tag unlisted => ?_)
  · cases lookup rows tag with
    | none => simp
    | some old => cases lastFor tag (partialRecords env entries) <;> simp
  · cases lookup rows tag with
    | none => simp
    | some old => cases lastFor tag (partialRecords env entries) <;> simp

theorem performPartialUpdate_eq (env : Env) (faults : Faults) (t : Table) (entries : List Members) :
    ∃ after, performPartialUpdate env faults t (.array (entries.map .object)) =
        .ok (decide (done faults 0 (partialRecords env entries) =
          (partialRecords env entries).length), after) ∧
      after.rows = t.rows.map (settle env ((partialRecords env entries).take
        (done faults 0 (partialRecords env entries)))) := by
  obtain ⟨ret, rows⟩ := updateAll_eq env faults (partialRecords env entries) 0 t
  refine ⟨_, ?_, rows⟩
  simp only [performPartialUpdate, records_objects (partialRecord_object env), bind, Except.bind, pure,
    Except.pure]
  rw [← ret]
  rfl

/-- **A partial update does what it is for exactly when the shift happens to agree
with the list.**  All statements succeed, and it returns `true`. -/
theorem partial_update_iff (t : Table) (entries : List Members) :
    (∃ after, performPartialUpdate env {} t (.array (entries.map .object)) = .ok (true, after) ∧
        PartialApplied env t.rows after.rows entries) ↔
      ShiftAgrees env t.rows entries := by
  obtain ⟨after, ran, rows⟩ := performPartialUpdate_eq env {} t entries
  rw [done_fine, List.take_length] at rows
  rw [done_fine, decide_eq_true rfl] at ran
  rw [ran, ← partialApplied_settle_iff, ← rows]
  constructor
  · rintro ⟨other, same, applied⟩
    obtain rfl := (Prod.mk.inj (Except.ok.inj same)).2
    exact applied
  · intro applied
    exact ⟨_, rfl, applied⟩

theorem lastFor_ordinary {tag : String} (ordinary : ∀ s : AuthorizationStatus, decimal s.toInt ≠ tag)
    (rs : List AuthorizationRecord) : lastFor tag rs = none := by
  induction rs with
  | nil => rfl
  | cons r rest ih => simp [lastFor, ih, picked, ordinary r.status]

/-- A partial update never touches a tag that is not the number of a status. -/
theorem lookup_performPartialUpdate {tag : String} {faults : Faults} {t after : Table}
    {entries : List Members} {ret : Bool}
    (ordinary : ∀ s : AuthorizationStatus, decimal s.toInt ≠ tag)
    (ran : performPartialUpdate env faults t (.array (entries.map .object)) = .ok (ret, after)) :
    lookup after.rows tag = lookup t.rows tag := by
  obtain ⟨other, ran', rows⟩ := performPartialUpdate_eq env faults t entries
  obtain rfl := (Prod.mk.inj (Except.ok.inj (ran.symm.trans ran'))).2
  rw [rows, lookup_settle, lastFor_ordinary ordinary]
  simp

/-! ## One entry for one row -/

/-- No number in the texts of this list: SQLite keeps them as they are. -/
def textEnv : Env := ⟨⟨.text, fun _ => 0, fun _ => ""⟩, fun _ => 0⟩

/-- Tag `T1`, blocked. -/
def blockedTable : Table :=
  ⟨[⟨1, .text "T1", ⟨.text "", .integer 0, .integer 1⟩⟩], 1, by simp⟩

/-- `T1` is to be accepted. -/
def acceptEntry : Members :=
  [("idTag", .string "T1"), ("idTagInfo", .object [("status", .string "Accepted")])]

/-- **The update reports success and `T1` is still blocked.** -/
theorem partial_update_leaves_tag_blocked :
    ∃ after, performPartialUpdate textEnv {} blockedTable (.array ([acceptEntry].map .object)) =
        .ok (true, after) ∧
      lookup after.rows "T1" = some ⟨.text "", .integer 0, .integer 1⟩ ∧
      lastWanted textEnv [acceptEntry] "T1" = some ⟨.text "", .integer 0, .integer 0⟩ ∧
      ¬ PartialApplied textEnv blockedTable.rows after.rows [acceptEntry] := by
  refine ⟨_, rfl, rfl, rfl, fun applied => ?_⟩
  have stored := applied.1 "T1" _ rfl
  cases stored

end ChargerStack.Ocpp.LocalList
