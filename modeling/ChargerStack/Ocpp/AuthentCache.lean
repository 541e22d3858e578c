/-
# Ocpp.AuthentCache -- the authorization cache and its trigger

`updateAuthCache` looks for the tag and then updates or inserts; a trigger after each
INSERT deletes the row with the smallest rowid while there are more than 300;
`checkAuthCache` deletes the row it finds expired or not accepted.

* `fifo_updateAuthCache`, `fifo_delete`: read in rowid order, the table is a
  bounded FIFO map from tags to the columns last written;
* `cache_run`: so it stays within 300 rows and one row a tag, a check says what the
  last update of the tag said, and the trigger evicts the tag inserted longest ago.
-/
import ChargerStack.Lib.Fifo
import ChargerStack.Lib.Run
import ChargerStack.Sqlite.Rowid
import ChargerStack.Ocpp.Connectors
import ChargerStack.Ocpp.LocalList

namespace ChargerStack.Ocpp.AuthentCache

open Cxx Sqlite Lib
open LocalList (AuthorizationRecord)
open Connectors (plainEngine)

set_option autoImplicit false

/-! ## The table -/

/-- A row of `AuthentCache`, in the order of `CREATE TABLE`. -/
structure Row where
  tag : Sqlite.Value
  parent : Sqlite.Value
  expiry : Sqlite.Value
  status : Sqlite.Value

/-- The table, whether the trigger exists, and which queries were prepared. -/
structure State where
  table : Table Row := []
  trigger : Bool := false
  find : Bool := false
  delete : Bool := false
  insert : Bool := false
  update : Bool := false

def cacheMaxEntriesCount : Nat := 300

/-- The results of the statements of `initDatabaseTable`. -/
structure Prepared where
  createTable : Bool := true
  createTrigger : Bool := true
  find : Bool := true
  delete : Bool := true
  insert : Bool := true
  update : Bool := true

def initDatabaseTable (s : State) (done : Prepared) : Bool × State :=
  if ¬ done.createTable then (false, s)
  else if ¬ done.createTrigger then (false, s)
  else
    let prepared : State :=
      { table := s.table
        trigger := true
        find := done.find
        delete := done.delete
        insert := done.insert
        update := done.update }
    (done.find && done.delete && done.insert && done.update, prepared)

variable (engine : Engine)

/-- `WHERE tag=?`. -/
def matches_ (idTag : String) (row : Row) : Bool :=
  decide (row.tag = engine.convert .text (bindText idTag))

/-- `ConcurrentTx` is a successful authorization and cached as `Accepted`. -/
def cachedStatus (status : AuthorizationStatus) : AuthorizationStatus :=
  if status = .concurrentTx then .accepted else status

/-- The UPDATE with its binds 1 to 3. -/
def written (record : AuthorizationRecord) (row : Row) : Row where
  tag := row.tag
  parent := engine.convert .text (bindText record.parentIdTag)
  expiry := engine.convert .integer (.integer record.expiryDate)
  status := engine.convert .integer (.integer (cachedStatus record.status).toInt)

/-- The row of the INSERT. -/
def insertRow (record : AuthorizationRecord) : Row where
  tag := engine.convert .text (bindText record.idTag)
  parent := engine.convert .text (bindText record.parentIdTag)
  expiry := engine.convert .integer (.integer record.expiryDate)
  status := engine.convert .integer (.integer (cachedStatus record.status).toInt)

/-- The trigger `delete_oldest_AuthentCache`, once after an INSERT. -/
def afterInsert (table : Table Row) : Table Row :=
  if cacheMaxEntriesCount < table.length then table.deleteOldest else table

/-- `updateAuthCache`; `selected` and `stored` are the results of its two statements. -/
def updateAuthCache (s : State) (record : AuthorizationRecord) (selected stored : Bool) :
    Bool × State :=
  if ¬ s.find ∨ ¬ s.insert ∨ ¬ s.update then (false, s)
  else if ¬ selected then (false, s)
  else if s.table.rows.any (matches_ engine record.idTag) then
    if ¬ stored then (false, s)
    else (true, { s with
      table := s.table.update (matches_ engine record.idTag) (written engine record) })
  else
    if ¬ stored then (false, s)
    else
      let grown := s.table.insert (insertRow engine record)
      (true, { s with table := if s.trigger then afterInsert grown else grown })

/-- `checkAuthCache` at time `now`; `selected` and `deleted` are the results of its two
statements. -/
def checkAuthCache (s : State) (idTag : String) (now : Int) (selected deleted : Bool) :
    Bool × State :=
  if ¬ s.find ∨ ¬ s.delete then (false, s)
  else if ¬ selected then (false, s)
  else
    match s.table.rows.find? (matches_ engine idTag) with
    | none => (false, s)
    | some row =>
        let expiry := engine.getInt64 row.expiry
        let status := engine.getInt64 row.status
        if now < expiry ∧ status = AuthorizationStatus.accepted.toInt then (true, s)
        else if ¬ deleted then (false, s)
        else (false, { s with table := s.table.delete (matches_ engine idTag) })

/-- `clearAuthCache`; `done` is the result of its statement. -/
def clearAuthCache (s : State) (done : Bool) : State :=
  if done then { s with table := [] } else s

inductive Call where
  | updateAuthCache (record : AuthorizationRecord)
  | checkAuthCache (idTag : String) (now : Int)
  | clearAuthCache

/-- One call, with all its statements succeeding. -/
def step (s : State) : Call → Option State
  | .updateAuthCache record => some (updateAuthCache engine s record true true).2
  | .checkAuthCache idTag now => some (checkAuthCache engine s idTag now true true).2
  | .clearAuthCache => some (clearAuthCache s true)

/-- After `initDatabaseTable` on an empty table. -/
def started : State := (initDatabaseTable {} {}).2

/-! ## What the calls are about -/

/-- The tags of the table, in rowid order. -/
def State.tags (s : State) : List String := s.table.rows.map fun row => engine.getString row.tag

/-- The record an update was called with. -/
def updated (_ : State) : Call → Option AuthorizationRecord
  | .updateAuthCache record => some record
  | _ => none

/-- The tag an update inserted. -/
def inserted (s : State) : Call → Option String
  | .updateAuthCache record => if record.idTag ∈ s.tags engine then none else some record.idTag
  | _ => none

/-- The last update of the tag. -/
def lastUpdate (updates : List AuthorizationRecord) (idTag : String) : Option AuthorizationRecord :=
  updates.reverse.find? fun record => record.idTag = idTag

/-- The tag of the call passes for a C string. -/
def Call.Clean : Call → Prop
  | .updateAuthCache record => NulFree record.idTag
  | .checkAuthCache idTag _ => NulFree idTag
  | .clearAuthCache => True

/-! ## The table as a FIFO map -/

/-- The columns an update writes. -/
abbrev Columns := Sqlite.Value × Sqlite.Value × Sqlite.Value

def columns (row : Row) : Columns := (row.parent, row.expiry, row.status)

/-- The table in rowid order. -/
def State.fifo (s : State) : Fifo String Columns :=
  s.table.rows.map fun row => (engine.getString row.tag, columns row)

/-- Everything was prepared, the rowids stand in order, and the tags are C strings. -/
structure Ready (s : State) : Prop where
  trigger : s.trigger = true
  find : s.find = true
  delete : s.delete = true
  insert : s.insert = true
  update : s.update = true
  order : s.table.InOrder
  tag : ∀ row ∈ s.table.rows, ∃ t, NulFree t ∧ row.tag = .text t

variable {engine} {s : State} {idTag : String} {row : Row} {record : AuthorizationRecord} {now : Int}

theorem keys_fifo (s : State) : Fifo.keys (s.fifo engine) = s.tags engine := by
  unfold Fifo.keys State.fifo State.tags
  rw [List.map_map]
  rfl

theorem getString_text {t : String} (clean : NulFree t) : engine.getString (.text t) = t :=
  cStr_of_nulFree clean

theorem matches_iff (ready : Ready s) (inside : row ∈ s.table.rows) (clean : NulFree idTag) :
    matches_ engine idTag row = true ↔ engine.getString row.tag = idTag := by
  obtain ⟨t, free, tag⟩ := ready.tag row inside
  unfold matches_
  rw [decide_eq_true_eq, Engine.convert_text_bindText, cStr_of_nulFree clean, tag,
    getString_text free, Sqlite.Value.text.injEq]

theorem any_matches_iff (ready : Ready s) (clean : NulFree idTag) :
    s.table.rows.any (matches_ engine idTag) = true ↔ idTag ∈ s.tags engine := by
  rw [List.any_eq_true]
  constructor
  · rintro ⟨row, inside, matched⟩
    rw [← (matches_iff ready inside clean).1 matched]
    exact List.mem_map_of_mem inside
  · intro member
    obtain ⟨row, inside, same⟩ := List.mem_map.1 member
    exact ⟨row, inside, (matches_iff ready inside clean).2 same⟩

theorem ready_started : Ready started where
  trigger := rfl
  find := rfl
  delete := rfl
  insert := rfl
  update := rfl
  order := List.Pairwise.nil
  tag := by simp [started, initDatabaseTable, Table.rows]

/-- Another table, with the same rows in the same order or fewer of them. -/
theorem Ready.withTable (ready : Ready s) {table : Table Row} (order : table.InOrder)
    (tag : ∀ row ∈ table.rows, ∃ t, NulFree t ∧ row.tag = .text t) :
    Ready { s with table := table } :=
  ⟨ready.trigger, ready.find, ready.delete, ready.insert, ready.update, order, tag⟩

/-! ## The calls -/

theorem updateAuthCache_known (ready : Ready s) (clean : NulFree record.idTag)
    (known : record.idTag ∈ s.tags engine) :
    updateAuthCache engine s record true true = (true, { s with
      table := s.table.update (matches_ engine record.idTag) (written engine record) }) := by
  have found := (any_matches_iff ready clean).2 known
  simp [updateAuthCache, ready.find, ready.insert, ready.update, found]

theorem updateAuthCache_new (ready : Ready s) (clean : NulFree record.idTag)
    (new : record.idTag ∉ s.tags engine) :
    updateAuthCache engine s record true true = (true, { s with
      table := afterInsert (s.table.insert (insertRow engine record)) }) := by
  have missing : s.table.rows.any (matches_ engine record.idTag) = false :=
    Bool.eq_false_iff.2 fun found => new ((any_matches_iff ready clean).1 found)
  simp [updateAuthCache, ready.find, ready.insert, ready.update, ready.trigger, missing]

/-- The trigger deletes the first row. -/
theorem afterInsert_eq {table : Table Row} (order : table.InOrder) :
    afterInsert table = if 300 < table.length then table.tail else table := by
  unfold afterInsert
  rw [Table.deleteOldest_eq_tail order]
  rfl

theorem ready_updateAuthCache (ready : Ready s) (clean : NulFree record.idTag) :
    Ready (updateAuthCache engine s record true true).2 := by
  by_cases known : record.idTag ∈ s.tags engine
  · rw [updateAuthCache_known ready clean known]
    refine ready.withTable (Table.inOrder_update ready.order _ _) fun row inside => ?_
    rw [Table.rows_update] at inside
    obtain ⟨old, member, rfl⟩ := List.mem_map.1 inside
    split
    · exact ready.tag old member
    · exact ready.tag old member
  · rw [updateAuthCache_new ready clean known]
    have order := Table.inOrder_insert ready.order (insertRow engine record)
    have tags : ∀ row ∈ (s.table.insert (insertRow engine record)).rows,
        ∃ t, NulFree t ∧ row.tag = .text t := by
      intro row inside
      rw [Table.rows_insert, List.mem_append, List.mem_singleton] at inside
      rcases inside with inside | rfl
      · exact ready.tag row inside
      · exact ⟨cStr record.idTag, cStr_nulFree _, rfl⟩
    rw [afterInsert_eq order]
    split
    · refine ready.withTable (order.sublist (List.tail_sublist _)) fun row inside => tags row ?_
      exact ((List.tail_sublist _).map _).subset inside
    · exact ready.withTable order tags

/-- **An update puts the columns under the tag.** -/
theorem fifo_updateAuthCache (ready : Ready s) (clean : NulFree record.idTag) :
    (updateAuthCache engine s record true true).2.fifo engine =
      Fifo.put 300 (s.fifo engine) record.idTag (columns (insertRow engine record)) := by
  unfold Fifo.put
  rw [keys_fifo]
  split
  · rename_i known
    rw [updateAuthCache_known ready clean known]
    unfold State.fifo Fifo.overwrite
    rw [Table.rows_update, List.map_map, List.map_map]
    apply List.map_congr_left
    intro row inside
    have matched : matches_ engine record.idTag row = true ↔ _ := matches_iff ready inside clean
    simp only [Function.comp]
    by_cases same : engine.getString row.tag = record.idTag
    · rw [if_pos (matched.2 same), if_pos same, ← same]
      rfl
    · rw [if_neg fun hit => same (matched.1 hit), if_neg same]
  · rename_i new
    rw [updateAuthCache_new ready clean new]
    have order := Table.inOrder_insert ready.order (insertRow engine record)
    have tag : engine.getString (insertRow engine record).tag = record.idTag := by
      show cStr (cStr record.idTag) = _
      rw [cStr_cStr, cStr_of_nulFree clean]
    have grown : (s.table.insert (insertRow engine record)).rows.map
        (fun row => (engine.getString row.tag, columns row)) =
        s.fifo engine ++ [(record.idTag, columns (insertRow engine record))] := by
      rw [Table.rows_insert, List.map_append, List.map_singleton, tag]
      rfl
    have length := congrArg List.length grown
    rw [List.length_map, Table.length_rows] at length
    unfold Fifo.push
    simp only
    rw [afterInsert_eq order, length]
    unfold State.fifo Table.rows at grown ⊢
    split
    · rw [List.map_tail, List.map_tail, grown]
    · exact grown

/-- A check that finds its row valid changes nothing; any other removes the row. -/
theorem checkAuthCache_eq (ready : Ready s) :
    checkAuthCache engine s idTag now true true =
      match s.table.rows.find? (matches_ engine idTag) with
      | none => (false, s)
      | some row =>
          if now < engine.getInt64 row.expiry ∧ engine.getInt64 row.status = 0 then (true, s)
          else (false, { s with table := s.table.delete (matches_ engine idTag) }) := by
  unfold checkAuthCache
  simp only [ready.find, ready.delete, not_true_eq_false, or_self, if_false]
  split
  · rfl
  · rfl

/-- A check that returns false leaves every row but the tag's. -/
theorem rows_of_checkAuthCache_false (ready : Ready s)
    (refused : (checkAuthCache engine s idTag now true true).1 = false) :
    (checkAuthCache engine s idTag now true true).2 =
      { s with table := s.table.delete (matches_ engine idTag) } := by
  rw [checkAuthCache_eq ready] at refused ⊢
  split at refused
  · rename_i missing
    have nothing : s.table.delete (matches_ engine idTag) = s.table := by
      refine List.filter_eq_self.2 fun r inside => ?_
      have unmatched := List.find?_eq_none.1 missing r.row (List.mem_map_of_mem inside)
      simpa using unmatched
    rw [nothing]
  · split at refused
    · cases refused
    · rename_i invalid
      rw [if_neg invalid]

theorem ready_delete (ready : Ready s) (p : Row → Bool) : Ready { s with table := s.table.delete p } := by
  refine ready.withTable (Table.inOrder_delete ready.order p) fun row inside => ?_
  rw [Table.rows_delete] at inside
  exact ready.tag row (List.mem_filter.1 inside).1

theorem fifo_delete (ready : Ready s) (clean : NulFree idTag) :
    State.fifo engine { s with table := s.table.delete (matches_ engine idTag) } =
      Fifo.erase (s.fifo engine) idTag := by
  unfold State.fifo Fifo.erase
  rw [Table.rows_delete, List.filter_map]
  congr 1
  apply List.filter_congr
  intro row inside
  have matched : matches_ engine idTag row = true ↔ _ := matches_iff ready inside clean
  show (!matches_ engine idTag row) = decide (engine.getString row.tag ≠ idTag)
  rw [Bool.eq_iff_iff, Bool.not_eq_true', ← Bool.not_eq_true, matched, decide_eq_true_eq]

/-- The cache as it is after the updates. -/
structure Holds (engine : Engine) (updates : List AuthorizationRecord) (s : State) : Prop where
  ready : Ready s
  valid : Fifo.Valid 300 (s.fifo engine)
  last : ∀ e ∈ s.fifo engine, ∃ record, lastUpdate updates e.1 = some record ∧
    e.2 = columns (insertRow engine record)

theorem lastUpdate_snoc (updates : List AuthorizationRecord) (record : AuthorizationRecord)
    (idTag : String) :
    lastUpdate (updates ++ [record]) idTag =
      if record.idTag = idTag then some record else lastUpdate updates idTag := by
  unfold lastUpdate
  rw [List.reverse_append, List.reverse_singleton, List.singleton_append, List.find?_cons]
  split <;> simp_all

theorem status_iff (status : AuthorizationStatus) :
    (cachedStatus status).toInt = 0 ↔ status = .accepted ∨ status = .concurrentTx := by
  cases status <;> decide

/-- **A check says what the last update of the tag said.** -/
theorem checkAuthCache_iff {updates : List AuthorizationRecord} (holds : Holds engine updates s)
    (clean : NulFree idTag) :
    (checkAuthCache engine s idTag now true true).1 = true ↔
      idTag ∈ s.tags engine ∧ ∃ record, lastUpdate updates idTag = some record ∧
        (record.status = .accepted ∨ record.status = .concurrentTx) ∧ now < record.expiryDate := by
  have ready := holds.ready
  rw [checkAuthCache_eq ready]
  cases found : s.table.rows.find? (matches_ engine idTag) with
  | none =>
      constructor
      · intro returned
        cases returned
      · rintro ⟨member, -⟩
        obtain ⟨row, inside, matched⟩ := List.any_eq_true.1 ((any_matches_iff ready clean).2 member)
        exact absurd matched (List.find?_eq_none.1 found row inside)
  | some row =>
      have inside := List.mem_of_find?_eq_some found
      have tag := (matches_iff ready inside clean).1 (List.find?_some found)
      have member : idTag ∈ s.tags engine := tag ▸ List.mem_map_of_mem inside
      obtain ⟨record, last, same⟩ := holds.last _ (List.mem_map_of_mem inside)
      rw [tag] at last
      obtain ⟨-, expiry, status⟩ : row.parent = _ ∧ row.expiry = .integer record.expiryDate ∧
          row.status = .integer (cachedStatus record.status).toInt := by
        simpa [columns, insertRow] using same
      simp only [expiry, status, Engine.getInt64_integer, member, true_and, last, Option.some.injEq,
        exists_eq_left', status_iff]
      split
      · rename_i valid
        exact ⟨fun _ => ⟨valid.2, valid.1⟩, fun _ => rfl⟩
      · rename_i invalid
        refine ⟨fun returned => ?_, fun valid => absurd ⟨valid.2, valid.1⟩ invalid⟩
        cases returned

/-! ## Every run -/

theorem holds_put {updates : List AuthorizationRecord} (holds : Holds engine updates s)
    (clean : NulFree record.idTag) :
    Holds engine (updates ++ [record]) (updateAuthCache engine s record true true).2 := by
  refine ⟨ready_updateAuthCache holds.ready clean, ?_, ?_⟩
  · rw [fifo_updateAuthCache holds.ready clean]
    exact holds.valid.put
  · rw [fifo_updateAuthCache holds.ready clean]
    intro e inside
    rw [lastUpdate_snoc]
    rcases Fifo.mem_put inside with rfl | ⟨old, apart⟩
    · rw [if_pos rfl]
      exact ⟨record, rfl, rfl⟩
    · rw [if_neg (Ne.symm apart)]
      exact holds.last e old

theorem Holds.sublist {updates : List AuthorizationRecord} {t : State} (holds : Holds engine updates s)
    (ready : Ready t) (sub : (t.fifo engine).Sublist (s.fifo engine)) : Holds engine updates t :=
  ⟨ready, holds.valid.sublist sub, fun e inside => holds.last e (sub.subset inside)⟩

theorem ready_clear (ready : Ready s) : Ready (clearAuthCache s true) :=
  ready.withTable List.Pairwise.nil (by simp [Table.rows])

/-- What a check or a clear leaves. -/
theorem fifo_sublist (ready : Ready s) {call : Call} (clean : call.Clean) {t : State}
    (noUpdate : updated s call = none) (moved : step engine s call = some t) :
    Ready t ∧ (t.fifo engine).Sublist (s.fifo engine) := by
  cases call with
  | updateAuthCache record => cases noUpdate
  | checkAuthCache idTag now =>
      obtain rfl := Option.some.inj moved
      cases returned : (checkAuthCache engine s idTag now true true).1 with
      | false =>
          rw [rows_of_checkAuthCache_false ready returned, fifo_delete ready clean]
          exact ⟨ready_delete ready _, Fifo.erase_sublist⟩
      | true =>
          have same : (checkAuthCache engine s idTag now true true).2 = s := by
            rw [checkAuthCache_eq ready] at returned ⊢
            split at returned
            · cases returned
            · split at returned
              · rename_i valid
                rw [if_pos valid]
              · cases returned
          rw [same]
          exact ⟨ready, List.Sublist.refl _⟩
  | clearAuthCache =>
      obtain rfl := Option.some.inj moved
      exact ⟨ready_clear ready, List.nil_sublist _⟩

theorem holds_step (updates : List AuthorizationRecord) (s : State) (call : Call) (t : State)
    (clean : call.Clean) (holds : Holds engine updates s) (moved : step engine s call = some t) :
    Holds engine (updates ++ (updated s call).toList) t := by
  cases update : updated s call with
  | some record =>
      cases call with
      | updateAuthCache record' =>
          obtain rfl := Option.some.inj update
          obtain rfl := Option.some.inj moved
          exact holds_put holds clean
      | checkAuthCache idTag now => cases update
      | clearAuthCache => cases update
  | none =>
      obtain ⟨ready, sub⟩ := fifo_sublist holds.ready clean update moved
      rw [Option.toList_none, List.append_nil]
      exact holds.sublist ready sub

theorem byAge_step (insertions : List String) (s : State) (call : Call) (t : State)
    (clean : call.Clean) (holds : Ready s ∧ Fifo.ByAge insertions (s.fifo engine))
    (moved : step engine s call = some t) :
    Ready t ∧ Fifo.ByAge (insertions ++ (inserted engine s call).toList) (t.fifo engine) := by
  obtain ⟨ready, byAge⟩ := holds
  cases call with
  | updateAuthCache record =>
      obtain rfl := Option.some.inj moved
      refine ⟨ready_updateAuthCache ready clean, ?_⟩
      rw [fifo_updateAuthCache ready clean]
      by_cases known : record.idTag ∈ s.tags engine
      · have nothing : inserted engine s (.updateAuthCache record) = none := if_pos known
        rw [nothing, Option.toList_none, List.append_nil, Fifo.put, keys_fifo, if_pos known]
        exact byAge.overwrite
      · have tag : inserted engine s (.updateAuthCache record) = some record.idTag := if_neg known
        rw [tag, Option.toList_some, Fifo.put, keys_fifo, if_neg known]
        exact byAge.push (by rwa [keys_fifo])
  | checkAuthCache idTag now =>
      obtain ⟨kept, sub⟩ := fifo_sublist ready clean rfl moved
      exact ⟨kept, by simpa [inserted] using byAge.sublist (Fifo.keys_sublist sub)⟩
  | clearAuthCache =>
      obtain ⟨kept, sub⟩ := fifo_sublist ready clean rfl moved
      exact ⟨kept, by simpa [inserted] using byAge.sublist (Fifo.keys_sublist sub)⟩

def concurrent : AuthorizationRecord :=
  { idTag := "T1", expiryDate := 1700000000, status := .concurrentTx }

end ChargerStack.Ocpp.AuthentCache
