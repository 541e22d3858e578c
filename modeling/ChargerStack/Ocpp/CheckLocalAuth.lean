/-
# Ocpp.CheckLocalAuth -- who may charge by the local list

`checkLocalAuth` reads back what `performFullUpdate` has inserted: it finds the row of a tag
and looks at the columns 3 and 4 of `SELECT *`.

* `full_update_rows`: with all statements succeeding a full update of distinct tags leaves the
  rows of the list, whatever was there before;
* `full_update_authorizes`: and then a tag is authorized exactly when its entry is accepted and
  not expired, an entry without an expiry date expiring at 0;
* `nul_tag_is_authorized`: the tag that is asked for is bound as a C string, so one with a NUL
  is authorized by the entry of the part before it.
-/
import ChargerStack.Ocpp.SendLocalList

namespace ChargerStack.Ocpp.LocalList

open Cxx Rapidjson Sqlite

set_option autoImplicit false

/-- The columns of `CREATE TABLE AuthentLocalList`, as `SELECT *` numbers them. -/
def Row.column (row : Row) : Nat → Sqlite.Value
  | 0 => .integer row.id
  | 1 => row.tag
  | 2 => row.cells.parent
  | 3 => row.cells.expiry
  | 4 => row.cells.status
  | _ => .null

variable (env : Env)

/-- `SELECT * FROM AuthentLocalList WHERE tag=?`. -/
def execFind (t : Table) (idTag : String) : Option Row :=
  t.rows.find? fun row => row.tag = env.engine.convert .text (bindText idTag)

/-- `checkLocalAuth` at time `now`; `selected` is the result of its statement. -/
def checkLocalAuth (t : Table) (idTag : String) (now : Int) (selected : Bool) : Bool :=
  if idTag = "" then false
  else if selected then
    match execFind env t idTag with
    | some row =>
        let expired := env.engine.getInt64 (row.column 3)
        if row.column 3 = .null then false
        else if now < expired then
          decide ((uint32 (env.engine.getInt64 (row.column 4)) : Int) =
            AuthorizationStatus.accepted.toInt)
        else false
    | none => false
  else false

/-! ## What an entry grants -/

/-- A text of the `idTagInfo` of an entry, as `GetString` gives it. -/
def infoText (ms : Members) (name : String) : Option String :=
  (readObject ms "idTagInfo").bind fun info => readString cStr info name

/-- The timestamp of its expiry date, 0 when it has none. -/
def expiry (ms : Members) : Int := ((infoText ms "expiryDate").map env.timestamp).getD 0

/-- The entry is one of the tag, accepted, and expires later than `now`. -/
def Grants (now : Int) (tag : String) (ms : Members) : Prop :=
  readString id ms "idTag" = some tag ∧ infoText ms "status" = some "Accepted" ∧
    ∃ date, infoText ms "expiryDate" = some date ∧ now < env.timestamp date

variable {env}

theorem toEnum_accepted_iff (s : String) :
    authorizationStatusMap.toEnum s .invalid = .accepted ↔ s = "Accepted" := by
  constructor
  · intro accepted
    unfold BidirectionalMap.toEnum at accepted
    cases found : authorizationStatusMap.pairs.find? fun p => p.1 = s with
    | none => simp [found] at accepted
    | some p =>
        have same : p.1 = s := by simpa using List.find?_some found
        have member := List.mem_of_find?_eq_some found
        simp only [found, Option.map_some, Option.getD_some] at accepted
        simp only [authorizationStatusMap, List.mem_cons, List.not_mem_nil, or_false] at member
        rcases member with rfl | rfl | rfl | rfl | rfl | rfl <;> simp_all
  · rintro rfl
    rfl

variable (env) in
/-- What the record of an entry says. -/
theorem fullRecordOf_entry {ms : Members} {tag : String}
    (listed : readString id ms "idTag" = some tag) :
    ∃ r, fullRecordOf env cStr ms = some r ∧ r.idTag = cStr tag ∧ r.expiryDate = expiry env ms ∧
      (r.status = .accepted ↔ infoText ms "status" = some "Accepted") := by
  have cut : readString cStr ms "idTag" = some (cStr tag) := by
    unfold readString at listed ⊢
    split at listed <;> cases listed
    rfl
  unfold fullRecordOf infoText expiry infoText
  rw [cut]
  cases info : readObject ms "idTagInfo" with
  | none => exact ⟨_, rfl, rfl, rfl, by simp⟩
  | some members =>
      refine ⟨_, rfl, rfl, rfl, ?_⟩
      simp only [recordOf, Option.bind_some]
      cases readString cStr members "status" with
      | none => simp
      | some s => simpa using toEnum_accepted_iff s

/-! ## The table after a full update -/

/-- Records of distinct tags, none of them there, are all inserted. -/
theorem inserted_all {rs : List AuthorizationRecord} {tags : List Sqlite.Value} (k : Nat)
    (distinct : (rs.map fun r => cStr r.idTag).Nodup)
    (apart : ∀ r ∈ rs, .text (cStr r.idTag) ∉ tags) : inserted {} k tags rs = rs.length := by
  induction rs generalizing k tags with
  | nil => rfl
  | cons r rest ih =>
      rw [List.map_cons, List.nodup_cons] at distinct
      have next : ∀ other ∈ rest, .text (cStr other.idTag) ∉ tags ++ [.text (cStr r.idTag)] := by
        intro other inside member
        rcases List.mem_append.1 member with old | new
        · exact apart other (List.mem_cons_of_mem r inside) old
        · have same : cStr other.idTag = cStr r.idTag := by simpa using new
          exact distinct.1 (same ▸ List.mem_map_of_mem inside)
      rw [inserted, if_neg (by simpa using apart r List.mem_cons_self), ih (k + 1) distinct.2 next,
        List.length_cons]

theorem newRows_tags (rs : List AuthorizationRecord) (seq : Int) :
    (newRows env seq rs).map Row.tag = rs.map fun r => .text (cStr r.idTag) := by
  induction rs generalizing seq with
  | nil => rfl
  | cons r rest ih =>
      rw [newRows, List.map_cons, ih, List.map_cons]
      rfl

/-- The row of a tag among new rows is the row of the record with that tag. -/
theorem find?_newRows (rs : List AuthorizationRecord) (seq : Int) (tag : String) :
    ((newRows env seq rs).find? fun row => row.tag = .text tag).map Row.cells =
      (rs.find? fun r => cStr r.idTag = tag).map fun r => (newRow env 0 r).cells := by
  induction rs generalizing seq with
  | nil => rfl
  | cons r rest ih =>
      have here : (newRow env (seq + 1) r).tag = .text (cStr r.idTag) := rfl
      by_cases same : cStr r.idTag = tag
      · rw [newRows, List.find?_cons_of_pos (by simp [here, same]),
          List.find?_cons_of_pos (by simpa using same)]
        rfl
      · rw [newRows, List.find?_cons_of_neg (by simp [here, same]),
          List.find?_cons_of_neg (by simpa using same), ih]

variable (env) in
/-- The records of a list in which every entry has a tag. -/
theorem fullRecords_tags {entries : List Members} {tags : List String}
    (listed : entries.map (readString id · "idTag") = tags.map some) :
    (fullRecords env entries).map (·.idTag) = tags.map cStr := by
  induction entries generalizing tags with
  | nil =>
      obtain rfl : tags = [] := by simpa using listed.symm
      rfl
  | cons ms rest ih =>
      cases tags with
      | nil => cases listed
      | cons tag later =>
          simp only [List.map_cons, List.cons.injEq] at listed
          obtain ⟨r, made, idTag, -⟩ := fullRecordOf_entry env listed.1
          have tail := ih listed.2
          simp only [fullRecords] at tail ⊢
          rw [List.filterMap_cons_some made, List.map_cons, idTag, tail, List.map_cons]

section Update

variable {config : Rapidjson.Value} {t : Table} {entries : List Members} {tags : List String}

variable (env) in
/-- Their texts, in C strings, are the tags. -/
theorem fullRecords_texts (listed : entries.map (readString id · "idTag") = tags.map some)
    (clean : ∀ tag ∈ tags, NulFree tag) :
    (fullRecords env entries).map (fun r => cStr r.idTag) = tags := by
  have whole : tags.map cStr = tags :=
    (List.map_congr_left fun tag inside => cStr_of_nulFree (clean tag inside)).trans
      (List.map_id tags)
  have idTags := fullRecords_tags env listed
  rw [whole] at idTags
  refine (List.map_congr_left fun r inside => ?_).trans idTags
  exact (cStr_of_mem_fullRecords inside).1

variable (env t) in
/-- **A full update leaves the rows of its list**, one for each entry, whatever the table held. -/
theorem full_update_rows (listed : entries.map (readString id · "idTag") = tags.map some)
    (clean : ∀ tag ∈ tags, NulFree tag) (distinct : tags.Nodup)
    (short : entries.length ≤ maxLength config) :
    ∃ after, performFullUpdate env config {} t (.array (entries.map .object)) = .ok (true, after) ∧
      after.rows = newRows env t.seq (fullRecords env entries) ∧
      after.rows.map Row.tag = tags.map .text := by
  have texts := fullRecords_texts env listed clean
  have all : inserted {} 0 [] (fullRecords env entries) = (fullRecords env entries).length :=
    inserted_all 0 (by rwa [texts]) (by simp)
  obtain ⟨ret, rows⟩ := insertAll_eq env {} (fullRecords env entries) 0 (execDelete t)
  have start : (execDelete t).rows = [] := rfl
  rw [start, List.map_nil, all] at ret rows
  rw [List.take_length, List.nil_append] at rows
  refine ⟨_, ?_, rows, ?_⟩
  · have made := records_objects (fullRecord_object env) entries
    simp only [performFullUpdate, List.length_map, if_neg (Nat.not_lt.2 short), made, bind,
      Except.bind, pure, Except.pure, Bool.false_eq_true, if_false]
    exact congrArg Except.ok (Prod.ext (ret.trans (by simp)) rfl)
  · rw [rows, newRows_tags, ← texts, List.map_map]
    rfl

/-- The record found for a tag is the one of its entry. -/
theorem find?_fullRecords (listed : entries.map (readString id · "idTag") = tags.map some)
    (clean : ∀ tag ∈ tags, NulFree tag) (distinct : tags.Nodup) {tag : String} (free : NulFree tag)
    (P : AuthorizationRecord → Prop) :
    (∃ r, (fullRecords env entries).find? (fun r => cStr r.idTag = tag) = some r ∧ P r) ↔
      ∃ ms ∈ entries, readString id ms "idTag" = some tag ∧
        ∃ r, fullRecordOf env cStr ms = some r ∧ P r := by
  have texts := fullRecords_texts env listed clean
  constructor
  · rintro ⟨r, found, holds⟩
    have same : cStr r.idTag = tag := by simpa using List.find?_some found
    obtain ⟨ms, inside, made⟩ := List.mem_filterMap.1 (List.mem_of_find?_eq_some found)
    have known : readString id ms "idTag" ∈ tags.map some := listed ▸ List.mem_map_of_mem inside
    obtain ⟨own, inTags, read⟩ := List.mem_map.1 known
    obtain ⟨r', made', idTag, -⟩ := fullRecordOf_entry env read.symm
    obtain rfl := Option.some.inj (made.symm.trans made')
    have whole : own = tag := by
      rw [← same, idTag, cStr_cStr, cStr_of_nulFree (clean own inTags)]
    exact ⟨ms, inside, whole ▸ read.symm, r, made, holds⟩
  · rintro ⟨ms, inside, read, r, made, holds⟩
    obtain ⟨r', made', idTag, -⟩ := fullRecordOf_entry env read
    obtain rfl := Option.some.inj (made.symm.trans made')
    have member : r ∈ fullRecords env entries := List.mem_filterMap.2 ⟨ms, inside, made⟩
    have same : cStr r.idTag = tag := by rw [idTag, cStr_cStr, cStr_of_nulFree free]
    have hit : ((fullRecords env entries).find? fun r => cStr r.idTag = tag).isSome = true :=
      List.find?_isSome.2 ⟨r, member, by simpa using same⟩
    obtain ⟨other, found⟩ := Option.isSome_iff_exists.1 hit
    -- The tags are distinct, so no other record comes before it.
    have first : other = r := by
      refine List.inj_on_of_nodup_map (texts ▸ distinct) (List.mem_of_find?_eq_some found) member ?_
      have isTag : cStr other.idTag = tag := by simpa using List.find?_some found
      exact isTag.trans same.symm
    exact ⟨r, first ▸ found, holds⟩

/-- What the cells of a row say about a tag. -/
theorem checkLocalAuth_of_find {t : Table} {idTag : String} {now : Int}
    {found : Option AuthorizationRecord}
    (rows : (execFind env t idTag).map Row.cells = found.map fun r => (newRow env 0 r).cells) :
    checkLocalAuth env t idTag now true = true ↔
      idTag ≠ "" ∧ ∃ r, found = some r ∧ r.status = .accepted ∧ now < r.expiryDate := by
  unfold checkLocalAuth
  by_cases empty : idTag = ""
  · simp [empty]
  · rw [if_neg empty, if_pos rfl]
    cases found with
    | none =>
        have missing : execFind env t idTag = none := by simpa using rows
        simp [missing]
    | some r =>
        obtain ⟨row, hit, cells⟩ := Option.map_eq_some_iff.1 rows
        have accepted : (uint32 r.status.toInt : Int) = AuthorizationStatus.accepted.toInt ↔
            r.status = .accepted := by
          cases r.status <;> simp [uint32, AuthorizationStatus.toInt]
        have third : row.column 3 = .integer r.expiryDate := by
          show row.cells.expiry = _
          rw [cells]
          rfl
        have fourth : row.column 4 = .integer r.status.toInt := by
          show row.cells.status = _
          rw [cells]
          rfl
        simp [hit, third, fourth, accepted, empty, and_comm]

/-- **A full update, and who may charge then.**  The update returns true and leaves one row for
each entry.  A tag is authorized if and only if it is not empty and the entry of its part before
the first NUL is accepted and expires later than now, at 0 when it has no expiry date; so for a
tag without a NUL, from 1970 on, if and only if its entry grants it. -/
theorem full_update_authorizes (listed : entries.map (readString id · "idTag") = tags.map some)
    (clean : ∀ tag ∈ tags, NulFree tag) (distinct : tags.Nodup)
    (short : entries.length ≤ maxLength config) :
    ∃ after, performFullUpdate env config {} t (.array (entries.map .object)) = .ok (true, after) ∧
      after.rows.map Row.tag = tags.map .text ∧
      (∀ idTag now, checkLocalAuth env after idTag now true = true ↔
        idTag ≠ "" ∧ ∃ ms ∈ entries, readString id ms "idTag" = some (cStr idTag) ∧
          infoText ms "status" = some "Accepted" ∧ now < expiry env ms) ∧
      ∀ idTag now, NulFree idTag → 0 ≤ now →
        (checkLocalAuth env after idTag now true = true ↔
          idTag ≠ "" ∧ ∃ ms ∈ entries, Grants env now idTag ms) := by
  obtain ⟨after, ran, rows, rowTags⟩ := full_update_rows env t listed clean distinct short
  have exact_ : ∀ idTag now, checkLocalAuth env after idTag now true = true ↔
      idTag ≠ "" ∧ ∃ ms ∈ entries, readString id ms "idTag" = some (cStr idTag) ∧
        infoText ms "status" = some "Accepted" ∧ now < expiry env ms := by
    intro idTag now
    have found : (execFind env after idTag).map Row.cells =
        ((fullRecords env entries).find? fun r => cStr r.idTag = cStr idTag).map
          fun r => (newRow env 0 r).cells := by
      unfold execFind
      rw [rows]
      exact find?_newRows (fullRecords env entries) t.seq (cStr idTag)
    rw [checkLocalAuth_of_find found]
    refine and_congr_right fun _ => ?_
    rw [find?_fullRecords listed clean distinct (cStr_nulFree idTag)]
    refine exists_congr fun ms => and_congr_right fun _ => and_congr_right fun read => ?_
    obtain ⟨r, made, -, expires, status⟩ := fullRecordOf_entry env read
    rw [made, ← expires, ← status]
    simp
  refine ⟨after, ran, rowTags, exact_, ?_⟩
  intro idTag now free later
  rw [exact_, cStr_of_nulFree free]
  refine and_congr_right fun _ => exists_congr fun ms => and_congr_right fun _ => ?_
  refine and_congr_right fun _ => and_congr_right fun _ => ?_
  unfold expiry
  cases infoText ms "expiryDate" with
  | none => simpa using later
  | some date => simp

end Update

/-! ## One card -/

/-- `T1`, accepted until 2030. -/
def datedEntry : Members :=
  [("idTag", .string "T1"), ("idTagInfo", .object
    [("status", .string "Accepted"), ("expiryDate", .string "2030-01-01T00:00:00Z")])]

/-- The first second of 2030. -/
def datedEnv : Env :=
  ⟨⟨.text, fun _ => 0, fun _ => ""⟩, fun s => if s = "2030-01-01T00:00:00Z" then 1893456000 else 0⟩

/-- In 2023 the card is authorized. -/
theorem datedEntry_authorized :
    ∃ after, performFullUpdate datedEnv (.object []) {} blockedTable
        (.array ([datedEntry].map .object)) = .ok (true, after) ∧
      after.rows.map Row.tag = [.text "T1"] ∧
      (checkLocalAuth datedEnv after "T1" 1700000000 true = true ↔
        "T1" ≠ "" ∧ ∃ ms ∈ [datedEntry], Grants datedEnv 1700000000 "T1" ms) := by
  obtain ⟨after, ran, tags, -, grants⟩ :=
    @full_update_authorizes datedEnv (.object []) blockedTable [datedEntry] ["T1"] rfl (by decide)
      (by decide) (by decide)
  exact ⟨after, ran, tags, grants "T1" 1700000000 (by decide) (by decide)⟩

/-- A tag that goes on behind a NUL. -/
def nulTag : String := "T1\x00T2"

/-- **Another tag is authorized**: `c_str()` ends at the NUL, and the row of `T1` is found. -/
theorem nul_tag_is_authorized :
    ∃ after, performFullUpdate datedEnv (.object []) {} blockedTable
        (.array ([datedEntry].map .object)) = .ok (true, after) ∧
      checkLocalAuth datedEnv after nulTag 1700000000 true = true ∧
      ¬ ∃ ms ∈ [datedEntry], Grants datedEnv 1700000000 nulTag ms := by
  refine ⟨_, rfl, by decide, ?_⟩
  rintro ⟨ms, inside, idTag, -⟩
  obtain rfl := List.mem_singleton.1 inside
  exact absurd idTag (by decide)

end ChargerStack.Ocpp.LocalList
