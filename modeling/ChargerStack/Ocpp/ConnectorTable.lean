/-
# Ocpp.ConnectorTable -- the connector table across restarts

`initConnectorData` loads the connectors when the table has as many rows as there are
connectors, and otherwise deletes the table and inserts a row for each.  Every
statement can fail, the process can die before any of them, and the next one can come
up with another number of connectors.

* `Segment`: the keys of the table are `0, ..., m - 1`, one row each, in this order;
* `segment_history`: so they are after every history of processes;
* `load_of_countRows`: hence with as many rows as connectors no SELECT of the
  loading loop misses its row.
-/
import ChargerStack.Lib.Statements
import ChargerStack.Ocpp.ConnectorUpdates

namespace ChargerStack.Ocpp.ConnectorTable

open Cxx Sqlite Lib Connectors

set_option autoImplicit false

/-! ## One process -/

/-- What the outside answers at a statement or a look at the clock. -/
structure Answer where
  done : Bool
  now : Int

/-- The log lines the statements below are about. -/
inductive Entry where
  /-- `Database connector count: %u, Configured connector count: %u` -/
  | counts (count cfgCount : Nat)
  /-- `Connector %u not found in database` -/
  | notFound (id : UInt32)
  deriving DecidableEq

/-- A `Connectors` object, its database and its log. -/
structure Process where
  store : State
  qInsert : Bool
  log : List Entry

/-- The constructor; `now i` is the clock when connector `i` is made.  With
`UINT_MAX` connectors its loop does not end, and there is no object. -/
def boot (table : List Row) (connectorCount : UInt32) (now : Nat → Int) : Option Process :=
  if connectorCount.toNat = 2 ^ 32 - 1 then none
  else some
    { store :=
        { connectors := (List.range (connectorCount.toNat + 1)).map fun i =>
            .fresh (.ofNat i) (now i)
          table := table
          qUpdate := false
          qFind := false }
      qInsert := false
      log := [] }

variable (engine : Engine)

/-- A program of the process. -/
abbrev Run (α : Type) := Prog Answer Process α

/-- The row of the INSERT, with its ten binds. -/
def insertRow (c : Connector) : Row where
  connectorId := engine.convert .integer (bindUInt32 c.id)
  status := engine.convert .text (bindText (chargePointStatusMap.toString c.status "Available"))
  transactionId := engine.convert .integer (bindUInt32 c.transaction.id)
  transactionIdTag := engine.convert .text (bindText c.transaction.idTag)
  transactionParentIdTag := engine.convert .text (bindText c.transaction.parentIdTag)
  reservationId := engine.convert .integer (bindUInt32 c.reservation.id)
  reservationIdTag := engine.convert .text (bindText c.reservation.idTag)
  reservationParentIdTag := engine.convert .text (bindText c.reservation.parentIdTag)
  reservationExpiryDate := engine.convert .integer (.integer c.reservation.expiry)
  availability := engine.convert .integer (.integer c.availability.toInt)

/-- `insert(id)`.  A key that is there already fails the PRIMARY KEY. -/
def insert (id : UInt32) : Run Bool := do
  let p ← Prog.get
  match p.store.get id with
  | none => pure false
  | some c =>
      if ¬ p.qInsert then pure false
      else
        let answer ← Prog.ask
        if answer.done && !p.store.table.any (State.matches_ engine c.id) then
          Prog.set { p with store := { p.store with table := p.store.table ++ [insertRow engine c] } }
          pure true
        else pure false

/-- `save(id)`. -/
def save (id : UInt32) : Run Bool := do
  let p ← Prog.get
  let answer ← Prog.ask
  let saved := p.store.save engine id answer.done
  Prog.set { p with store := saved.2 }
  pure saved.1

/-- `load(id)`.  A SELECT that was executed and brought no row is logged. -/
def load (id : UInt32) : Run Bool := do
  let p ← Prog.get
  match p.store.get id with
  | none => pure false
  | some _ =>
      if ¬ p.store.qFind then pure false
      else
        let answer ← Prog.ask
        let loaded := p.store.load engine id answer.done
        let log := if answer.done && !loaded.1 then p.log ++ [.notFound id] else p.log
        Prog.set { p with store := loaded.2, log := log }
        pure loaded.1

/-- `c = Connector(c.id)`, for the connector at a position of the vector. -/
def renew (i : Nat) : Run PUnit := do
  let p ← Prog.get
  let answer ← Prog.ask
  match p.store.connectors[i]? with
  | none => pure ⟨⟩
  | some c =>
      Prog.set { p with
        store := { p.store with connectors := p.store.connectors.set i (.fresh c.id answer.now) } }

/-- The id of the connector at a position of the vector. -/
def idAt (i : Nat) : Run UInt32 := do
  let p ← Prog.get
  pure ((p.store.connectors[i]?.map Connector.id).getD 0)

/-- The body of the loop of `resetConnectors`. -/
def renewAndInsert (i : Nat) : Run Bool := do
  renew i
  let id ← idAt i
  insert engine id

/-- The body of the loop of `initConnectorData`. -/
def loadOrRenew (i : Nat) : Run Bool := do
  let id ← idAt i
  let loaded ← load engine id
  if loaded then pure true
  else
    renew i
    pure true

/-- `resetConnectors`; the timers are left out. -/
def resetConnectors : Run Bool := do
  let p ← Prog.get
  let deleted ← Prog.ask
  if deleted.done then
    Prog.set { p with store := { p.store with table := [] } }
    Prog.iterate (renewAndInsert engine) (List.range p.store.connectors.length)
  else pure true

/-- `SELECT count(connector_id)`, and zero when it fails. -/
def countRows (table : List Row) (done : Bool) : Nat :=
  if done then
    uint32 (engine.getInt64 (.integer (table.filter fun row => row.connectorId ≠ .null).length))
  else 0

/-- `initConnectorData`; the timers are left out. -/
def initConnectorData : Run PUnit := do
  let p ← Prog.get
  let counted ← Prog.ask
  let count := countRows engine p.store.table counted.done
  let cfgCount := uint32 p.store.connectors.length
  Prog.set { p with log := p.log ++ [.counts count cfgCount] }
  if count ≠ cfgCount then
    let _ ← resetConnectors engine
    pure ⟨⟩
  else
    let _ ← Prog.iterate (loadOrRenew engine) (List.range p.store.connectors.length)
    pure ⟨⟩

/-- `initDatabaseTable`. -/
def initDatabaseTable : Run Bool := do
  let created ← Prog.ask
  if !created.done then pure false
  else
    let qInsert ← Prog.ask
    let qUpdate ← Prog.ask
    let qFind ← Prog.ask
    let p ← Prog.get
    Prog.set { p with
      store := { p.store with qUpdate := qUpdate.done, qFind := qFind.done }
      qInsert := qInsert.done }
    let ret := qInsert.done && qUpdate.done && qFind.done
    if ret then
      initConnectorData engine
      pure ret
    else pure ret

/-! ## Histories -/

/-- What a process does with its `Connectors`. -/
inductive Call where
  | initDatabaseTable
  | resetConnectors
  | save (id : UInt32)
  | load (id : UInt32)
  | update (op : Operation)

/-- One call; what it returns is not used. -/
def Call.run : Call → Run Bool
  | .initDatabaseTable => ConnectorTable.initDatabaseTable engine
  | .resetConnectors => ConnectorTable.resetConnectors engine
  | .save id => ConnectorTable.save engine id
  | .load id => ConnectorTable.load engine id
  | .update op => do
      let p ← Prog.get
      let answer ← Prog.ask
      Prog.set { p with store := (op.run engine p.store answer.done).state }
      pure true

/-- A process from its start to its end, wherever that comes. -/
structure Lifetime where
  connectorCount : UInt32
  now : Nat → Int
  calls : List Call
  answers : List Answer

/-- The process at the end of its lifetime; `none` when it never got an object. -/
def Lifetime.last (l : Lifetime) (table : List Row) : Option Process :=
  (boot table l.connectorCount l.now).map fun p =>
    (Prog.iterate (fun call => do let _ ← call.run engine; pure true) l.calls p l.answers).2.1

/-- The table after the lifetimes. -/
def tableAfter (table : List Row) : List Lifetime → List Row
  | [] => table
  | l :: ls => tableAfter (((l.last engine table).map fun p => p.store.table).getD table) ls

/-! ## The keys -/

/-- The keys are `0, ..., m - 1`, in this order. -/
def Keys (table : List Row) (m : Nat) : Prop :=
  table.map Row.connectorId = (List.range m).map fun i => Sqlite.Value.integer (i : Nat)

def Segment (table : List Row) : Prop := ∃ m < 2 ^ 32, Keys table m

/-- The `n` connectors carry their positions as ids. -/
structure Ids (n : Nat) (s : State) : Prop where
  length : s.connectors.length = n
  id : ∀ (i : Nat) (c : Connector), s.connectors[i]? = some c → c.id.toNat = i

variable {engine} {table : List Row} {s t : State} {p : Process} {n m i : Nat} {id : UInt32}
  {c : Connector}

theorem Keys.length (keys : Keys table m) : table.length = m := by
  simpa using congrArg List.length keys

theorem keys_nil : Keys [] 0 := rfl

theorem keys_insertRow (keys : Keys table m) (next : c.id.toNat = m) :
    Keys (table ++ [insertRow engine c]) (m + 1) := by
  unfold Keys at keys ⊢
  rw [List.map_append, keys, List.range_succ, List.map_append, List.map_singleton,
    List.map_singleton]
  show _ ++ [Sqlite.Value.integer c.id.toNat] = _
  rw [next]

theorem Keys.find? (keys : Keys table m) (inside : id.toNat < m) (engine : Engine) :
    ∃ row, table.find? (State.matches_ engine id) = some row := by
  have member : Sqlite.Value.integer id.toNat ∈ table.map Row.connectorId := by
    rw [keys]
    exact List.mem_map_of_mem (List.mem_range.2 inside)
  obtain ⟨row, present, key⟩ := List.mem_map.1 member
  apply Option.isSome_iff_exists.1
  rw [List.find?_isSome]
  exact ⟨row, present, decide_eq_true key⟩

theorem Keys.count (keys : Keys table m) :
    (table.filter fun row => decide (row.connectorId ≠ .null)).length = m := by
  rw [List.filter_eq_self.2, keys.length]
  intro row present
  have member : row.connectorId ∈ table.map Row.connectorId := List.mem_map_of_mem present
  rw [keys] at member
  obtain ⟨i, -, key⟩ := List.mem_map.1 member
  rw [← key]
  rfl

/-- The count that equals a positive number was counted. -/
theorem Keys.eq_of_countRows (keys : Keys table m) (bound : m < 2 ^ 32) (positive : 0 < n)
    {done : Bool} (equal : countRows engine table done = n) : m = n := by
  unfold countRows at equal
  split at equal
  · rw [keys.count, Engine.getInt64_integer, uint32_of_lt bound] at equal
    exact equal
  · omega

/-- An UPDATE leaves the keys alone. -/
theorem keys_update (keys : Keys table m) :
    Keys (table.map fun row => if State.matches_ engine id row then update engine row c else row) m := by
  unfold Keys at keys ⊢
  rw [List.map_map, ← keys]
  apply List.map_congr_left
  intro row _
  show (if State.matches_ engine id row then update engine row c else row).connectorId = _
  split <;> rfl

/-! ## What the calls keep -/

/-- The ids of the connectors, and the keys of the table. -/
structure Sane (n : Nat) (s : State) : Prop where
  ids : Ids n s
  segment : Segment s.table

theorem Ids.set (ids : Ids n s) (same : c.id.toNat = i) (table : List Row) (qUpdate qFind : Bool) :
    Ids n ⟨s.connectors.set i c, table, qUpdate, qFind⟩ := by
  refine ⟨(List.length_set ..).trans ids.length, fun j d found => ?_⟩
  by_cases here : i = j
  · subst here
    obtain ⟨bound, value⟩ := List.getElem?_eq_some_iff.1 found
    rw [List.getElem_set_self] at value
    rw [← value, same]
  · rw [List.getElem?_set_ne here] at found
    exact ids.id j d found

theorem Ids.get (ids : Ids n s) (here : s.get id = some c) : c.id = id :=
  UInt32.toNat_inj.1 (ids.id id.toNat c here)

theorem Segment.update (segment : Segment table) :
    Segment (table.map fun row => if State.matches_ engine id row then update engine row c else row) := by
  obtain ⟨m, small, keys⟩ := segment
  exact ⟨m, small, keys_update keys⟩

theorem sane_save (sane : Sane n s) (done : Bool) : Sane n (s.save engine id done).2 := by
  unfold State.save
  split
  · exact sane
  · split
    · exact sane
    · split
      · exact sane
      · exact ⟨⟨sane.ids.length, sane.ids.id⟩, sane.segment.update⟩

/-- `load` writes one connector, and its id is its position. -/
theorem load_frame (engine : Engine) (ids : Ids n s) (id : UInt32) (done : Bool) :
    Ids n (s.load engine id done).2 ∧ (s.load engine id done).2.table = s.table ∧
      (s.load engine id done).2.qFind = s.qFind := by
  unfold State.load
  split
  · exact ⟨ids, rfl, rfl⟩
  · split
    · exact ⟨ids, rfl, rfl⟩
    · split
      · exact ⟨ids, rfl, rfl⟩
      · split
        · exact ⟨ids, rfl, rfl⟩
        · split
          · exact ⟨ids, rfl, rfl⟩
          · refine ⟨?_, rfl, rfl⟩
            apply ids.set
            rfl

/-- **A SELECT that is executed finds its row.** -/
theorem load_found (keys : Keys s.table m) (inside : id.toNat < m) (here : s.get id = some c)
    (prepared : s.qFind = true) : (s.load engine id true).1 = true := by
  obtain ⟨row, found⟩ := keys.find? inside engine
  have matched : State.matches_ engine id row = true := List.find?_some found
  have key : row.connectorId = .integer id.toNat := of_decide_eq_true matched
  have back : uint32 (engine.getInt64 row.connectorId) = id.toNat := by
    rw [key, Engine.getInt64_integer, uint32_of_lt id.toNat_lt]
  simp [State.load, here, prepared, found, back]

theorem assign_id (op : Operation) (c : Connector) : (op.assign c).id = c.id := by
  cases op <;> rfl

theorem sane_update (sane : Sane n s) (op : Operation) (done : Bool) :
    Sane n (op.run engine s done).state := by
  rcases run_effect engine op s done with ⟨-, state⟩ | ⟨c, here, -, effect⟩
  · simpa only [state] using sane
  · have position : (op.assign c).id.toNat = op.id.toNat := by
      rw [assign_id, sane.ids.get here]
    split at effect
    · rw [effect.2]
      exact ⟨sane.ids.set position _ _ _, sane.segment.update⟩
    · rw [effect.1]
      exact ⟨sane.ids.set position _ _ _, sane.segment⟩

/-! ## The programs -/

open Prog

theorem wp_renew (ids : Ids n p.store) :
    wp (renew i) (fun _ t => Ids n t.store ∧ t.store.table = p.store.table ∧ t.log = p.log)
      (fun t => t = p) p := by
  apply wp_bind
  rw [wp_get]
  apply wp_bind
  rw [wp_ask]
  refine ⟨rfl, fun answer => ?_⟩
  split
  · exact wp_pure.2 ⟨ids, rfl, rfl⟩
  · rename_i c here
    rw [wp_set]
    refine ⟨?_, rfl, rfl⟩
    apply ids.set
    exact ids.id i c here

theorem wp_idAt (ids : Ids n p.store) (inside : i < n) :
    wp (idAt i) (fun id t => id.toNat = i ∧ t = p) (fun t => t = p) p := by
  apply wp_bind
  rw [wp_get, wp_pure]
  have bound : i < p.store.connectors.length := ids.length ▸ inside
  have here : p.store.connectors[i]? = some p.store.connectors[i] := List.getElem?_eq_getElem bound
  rw [here]
  exact ⟨ids.id i _ here, rfl⟩

theorem wp_insert (ids : Ids n p.store) (keys : Keys p.store.table m) (next : id.toNat = m) :
    wp (insert engine id)
      (fun more t => Ids n t.store ∧ t.log = p.log ∧ Keys t.store.table (if more then m + 1 else m))
      (fun t => t = p) p := by
  apply wp_bind
  rw [wp_get]
  split
  · exact wp_pure.2 ⟨ids, rfl, keys⟩
  · rename_i c here
    split
    · exact wp_pure.2 ⟨ids, rfl, keys⟩
    · apply wp_bind
      rw [wp_ask]
      refine ⟨rfl, fun answer => ?_⟩
      split
      · apply wp_bind
        rw [wp_set, wp_pure]
        have position : c.id.toNat = m := by rw [ids.get here, next]
        exact ⟨⟨ids.length, ids.id⟩, rfl, keys_insertRow keys position⟩
      · exact wp_pure.2 ⟨ids, rfl, keys⟩

/-- The positions the loop has still to visit. -/
theorem range'_cons_inv {x : Nat} {rest : List Nat} (left : x :: rest = List.range' i (n - i)) :
    x = i ∧ i < n ∧ rest = List.range' (i + 1) (n - (i + 1)) := by
  have some_left : n - i ≠ 0 := by
    intro zero
    rw [zero] at left
    cases left
  obtain ⟨k, more⟩ := Nat.exists_eq_succ_of_ne_zero some_left
  rw [more, List.range'_succ] at left
  obtain ⟨rfl, rfl⟩ := List.cons.inj left
  refine ⟨rfl, by omega, ?_⟩
  congr 1
  omega

/-- The reset deletes everything and inserts in order, as far as it gets. -/
theorem wp_resetConnectors (sane : Sane n p.store) (small : n < 2 ^ 32) :
    wp (resetConnectors engine) (fun _ t => Sane n t.store ∧ t.log = p.log)
      (fun t => Sane n t.store ∧ t.log = p.log) p := by
  apply wp_bind
  rw [wp_get]
  apply wp_bind
  rw [wp_ask]
  refine ⟨⟨sane, rfl⟩, fun deleted => ?_⟩
  split
  · apply wp_bind
    rw [wp_set]
    rw [sane.ids.length, List.range_eq_range']
    refine wp_iterate (fun rest t => ∃ i, rest = List.range' i (n - i) ∧ i ≤ n ∧ Ids n t.store ∧
      t.log = p.log ∧ Keys t.store.table i) ?_ ?_ ?_
    · exact ⟨0, rfl, Nat.zero_le n, ⟨sane.ids.length, sane.ids.id⟩, rfl, keys_nil⟩
    · rintro x rest t ⟨i, left, -, ids, log, keys⟩
      obtain ⟨rfl, inside, rest_eq⟩ := range'_cons_inv left
      have stopped : Sane n t.store ∧ t.log = p.log :=
        ⟨⟨ids, x, Nat.lt_trans inside small, keys⟩, log⟩
      apply wp_bind
      refine wp_mono (wp_renew ids) ?_ fun t' same => same ▸ stopped
      rintro - t₁ ⟨ids₁, table₁, log₁⟩
      have stopped₁ : Sane n t₁.store ∧ t₁.log = p.log :=
        ⟨⟨ids₁, x, Nat.lt_trans inside small, table₁ ▸ keys⟩, log₁.trans log⟩
      apply wp_bind
      refine wp_mono (wp_idAt ids₁ inside) ?_ fun t' same => same ▸ stopped₁
      rintro id t₂ ⟨position, rfl⟩
      refine wp_mono (wp_insert ids₁ (table₁ ▸ keys) position) ?_ fun t' same => same ▸ stopped₁
      rintro more t₃ ⟨ids₃, log₃, keys₃⟩
      have log₃ : t₃.log = p.log := log₃.trans (log₁.trans log)
      cases more with
      | true => exact ⟨x + 1, rest_eq, inside, ids₃, log₃, keys₃⟩
      | false => exact ⟨⟨ids₃, x, Nat.lt_trans inside small, keys₃⟩, log₃⟩
    · rintro t ⟨i, -, bound, ids, log, keys⟩
      exact ⟨⟨ids, i, Nat.lt_of_le_of_lt bound small, keys⟩, log⟩
  · exact wp_pure.2 ⟨sane, rfl⟩

/-- `load` logs nothing about a row the table has. -/
theorem wp_load (ids : Ids n p.store) :
    wp (load engine id)
      (fun _ t => Ids n t.store ∧ t.store.table = p.store.table ∧
        (t.log = p.log ∨ ∀ m, Keys p.store.table m → m ≤ id.toNat))
      (fun t => t = p) p := by
  apply wp_bind
  rw [wp_get]
  split
  · exact wp_pure.2 ⟨ids, rfl, .inl rfl⟩
  · rename_i c here
    split
    · exact wp_pure.2 ⟨ids, rfl, .inl rfl⟩
    · rename_i prepared
      apply wp_bind
      rw [wp_ask]
      refine ⟨rfl, fun answer => ?_⟩
      apply wp_bind
      rw [wp_set, wp_pure]
      obtain ⟨ids', table, -⟩ := load_frame engine ids id answer.done
      refine ⟨ids', table, ?_⟩
      cases logged : (answer.done && !(p.store.load engine id answer.done).1) with
      | false => exact .inl rfl
      | true =>
          right
          intro m keys
          rw [Bool.and_eq_true] at logged
          obtain ⟨done, missed⟩ := logged
          rw [done] at missed
          apply Nat.le_of_not_lt
          intro inside
          rw [load_found keys inside here (by simpa using prepared)] at missed
          cases missed

/-- The loading loop finds every row it looks for. -/
theorem wp_loads (ids : Ids n p.store) (keys : Keys p.store.table n) :
    wp (Prog.iterate (loadOrRenew engine) (List.range n))
      (fun _ t => Ids n t.store ∧ t.store.table = p.store.table ∧ t.log = p.log)
      (fun t => Ids n t.store ∧ t.store.table = p.store.table ∧ t.log = p.log) p := by
  rw [List.range_eq_range']
  refine wp_iterate (fun rest t => (∃ i, rest = List.range' i (n - i)) ∧ Ids n t.store ∧
    t.store.table = p.store.table ∧ t.log = p.log) ⟨⟨0, rfl⟩, ids, rfl, rfl⟩ ?_ ?_
  · rintro x rest t ⟨⟨i, left⟩, ids, table, log⟩
    obtain ⟨rfl, inside, rest_eq⟩ := range'_cons_inv left
    apply wp_bind
    refine wp_mono (wp_idAt ids inside) ?_ fun t' same => same ▸ ⟨ids, table, log⟩
    rintro id t₁ ⟨position, rfl⟩
    apply wp_bind
    refine wp_mono (wp_load ids) ?_ fun t' same => same ▸ ⟨ids, table, log⟩
    rintro loaded t₂ ⟨ids₂, table₂, logged⟩
    have table₂ := table₂.trans table
    have log₂ : t₂.log = p.log := by
      rcases logged with same | missed
      · exact same.trans log
      · have beyond := missed n (table ▸ keys)
        omega
    cases loaded with
    | true => exact wp_pure.2 ⟨⟨x + 1, rest_eq⟩, ids₂, table₂, log₂⟩
    | false =>
        apply wp_bind
        refine wp_mono (wp_renew ids₂) ?_ fun t' same => same ▸ ⟨ids₂, table₂, log₂⟩
        rintro - t₃ ⟨ids₃, table₃, log₃⟩
        exact wp_pure.2 ⟨⟨x + 1, rest_eq⟩, ids₃, table₃.trans table₂, log₃.trans log₂⟩
  · rintro t ⟨-, kept⟩
    exact kept

/-- What `initConnectorData` leaves, returned or cut off: it logs the two counts and
nothing else. -/
def Initialised (n : Nat) (p t : Process) : Prop :=
  Sane n t.store ∧ (t.log = p.log ∨ ∃ count cfgCount, t.log = p.log ++ [.counts count cfgCount])

theorem wp_initConnectorData (sane : Sane n p.store) (positive : 0 < n) (small : n < 2 ^ 32) :
    wp (initConnectorData engine) (fun _ => Initialised n p) (Initialised n p) p := by
  apply wp_bind
  rw [wp_get]
  apply wp_bind
  rw [wp_ask]
  refine ⟨⟨sane, .inl rfl⟩, fun counted => ?_⟩
  apply wp_bind
  rw [wp_set]
  split
  · apply wp_bind
    refine wp_mono (wp_resetConnectors sane small) ?_ ?_
    · rintro - t ⟨kept, log⟩
      exact wp_pure.2 ⟨kept, .inr ⟨_, _, log⟩⟩
    · rintro t ⟨kept, log⟩
      exact ⟨kept, .inr ⟨_, _, log⟩⟩
  · rename_i equal
    obtain ⟨m, bound, keys⟩ := sane.segment
    have counts := Decidable.not_not.1 equal
    rw [sane.ids.length, uint32_of_lt small] at counts
    obtain rfl := keys.eq_of_countRows bound positive counts
    apply wp_bind
    rw [sane.ids.length]
    refine wp_mono (wp_loads sane.ids keys) ?_ ?_
    · rintro - t ⟨ids, table, log⟩
      exact wp_pure.2 ⟨⟨ids, m, small, table ▸ keys⟩, .inr ⟨_, _, log⟩⟩
    · rintro t ⟨ids, table, log⟩
      exact ⟨⟨ids, m, small, table ▸ keys⟩, .inr ⟨_, _, log⟩⟩

/-! ## Every history -/

theorem wp_initDatabaseTable (sane : Sane n p.store) (positive : 0 < n) (small : n < 2 ^ 32) :
    wp (initDatabaseTable engine) (fun _ t => Sane n t.store) (fun t => Sane n t.store) p := by
  apply wp_bind
  rw [wp_ask]
  refine ⟨sane, fun created => ?_⟩
  split
  · exact wp_pure.2 sane
  · apply wp_bind
    rw [wp_ask]
    refine ⟨sane, fun qInsert => ?_⟩
    apply wp_bind
    rw [wp_ask]
    refine ⟨sane, fun qUpdate => ?_⟩
    apply wp_bind
    rw [wp_ask]
    refine ⟨sane, fun qFind => ?_⟩
    apply wp_bind
    rw [wp_get]
    apply wp_bind
    rw [wp_set]
    have prepared : Sane n { p.store with qUpdate := qUpdate.done, qFind := qFind.done } :=
      ⟨⟨sane.ids.length, sane.ids.id⟩, sane.segment⟩
    dsimp only
    split
    · apply wp_bind
      refine wp_mono (wp_initConnectorData prepared positive small) ?_ fun t done => done.1
      rintro - t done
      exact wp_pure.2 done.1
    · exact wp_pure.2 prepared

theorem wp_call (sane : Sane n p.store) (positive : 0 < n) (small : n < 2 ^ 32) (call : Call) :
    wp (call.run engine) (fun _ t => Sane n t.store) (fun t => Sane n t.store) p := by
  cases call with
  | initDatabaseTable => exact wp_initDatabaseTable sane positive small
  | resetConnectors =>
      exact wp_mono (wp_resetConnectors sane small) (fun _ _ kept => kept.1) fun _ kept => kept.1
  | save id =>
      apply wp_bind
      rw [wp_get]
      apply wp_bind
      rw [wp_ask]
      refine ⟨sane, fun answer => ?_⟩
      apply wp_bind
      rw [wp_set, wp_pure]
      exact sane_save sane answer.done
  | load id =>
      refine wp_mono (wp_load sane.ids) ?_ fun t same => same ▸ sane
      rintro loaded t ⟨ids, table, -⟩
      exact ⟨ids, table ▸ sane.segment⟩
  | update op =>
      apply wp_bind
      rw [wp_get]
      apply wp_bind
      rw [wp_ask]
      refine ⟨sane, fun answer => ?_⟩
      apply wp_bind
      rw [wp_set, wp_pure]
      exact sane_update sane op answer.done

/-- A process that starts on an initial segment stays on one to its end. -/
theorem last_sane (l : Lifetime) (segment : Segment table) (alive : l.last engine table = some p) :
    ∃ n, 0 < n ∧ n < 2 ^ 32 ∧ Sane n p.store := by
  obtain ⟨start, booted, rfl⟩ := Option.map_eq_some_iff.1 alive
  unfold boot at booted
  split at booted
  · cases booted
  · rename_i finite
    have fits := l.connectorCount.toNat_lt
    have small : l.connectorCount.toNat + 1 < 2 ^ 32 := by omega
    refine ⟨l.connectorCount.toNat + 1, Nat.succ_pos _, small, ?_⟩
    have sane : Sane (l.connectorCount.toNat + 1) start.store := by
      cases booted
      refine ⟨⟨by simp, fun i c here => ?_⟩, segment⟩
      rw [List.getElem?_map, Option.map_eq_some_iff] at here
      obtain ⟨j, at_, rfl⟩ := here
      obtain ⟨bound, rfl⟩ := List.getElem?_eq_some_iff.1 at_
      rw [List.length_range] at bound
      rw [List.getElem_range]
      exact UInt32.toNat_ofNat_of_lt' (Nat.lt_trans bound small)
    refine wp_state (C := fun t : Process => Sane _ t.store)
      (wp_iterate (fun _ (t : Process) => Sane _ t.store) sane ?_ fun t kept => kept) l.answers
    intro call rest t kept
    apply wp_bind
    refine wp_mono (wp_call kept (Nat.succ_pos _) small call) ?_ fun t kept => kept
    intro returned t kept
    exact wp_pure.2 kept

theorem segment_tableAfter (lifetimes : List Lifetime) (segment : Segment table) :
    Segment (tableAfter engine table lifetimes) := by
  induction lifetimes generalizing table with
  | nil => exact segment
  | cons l ls ih =>
      apply ih
      cases alive : l.last engine table with
      | none => exact segment
      | some p =>
          obtain ⟨n, -, -, sane⟩ := last_sane l segment alive
          exact sane.segment

/-- With as many rows as connectors, every connector has its row. -/
theorem load_of_countRows (sane : Sane n s) (positive : 0 < n) (small : n < 2 ^ 32) {done : Bool}
    (equal : countRows engine s.table done = uint32 s.connectors.length)
    (here : s.get id = some c) (prepared : s.qFind = true) : (s.load engine id true).1 = true := by
  obtain ⟨m, bound, keys⟩ := sane.segment
  rw [sane.ids.length, uint32_of_lt small] at equal
  obtain rfl := keys.eq_of_countRows bound positive equal
  have inside : id.toNat < m := sane.ids.length ▸ (List.getElem?_eq_some_iff.1 here).1
  exact load_found keys inside here prepared

/-- **After every history of processes the keys are an initial segment, and with as
many rows as connectors every row is found.**  The first lifetime finds an empty
database; `l` is the process that runs now, wherever it has got to.  The last part is
about the loop of `initConnectorData` itself: when it counted as many rows as
connectors, none of its executed SELECTs missed. -/
theorem segment_history (lifetimes : List Lifetime) :
    Segment (tableAfter engine [] lifetimes) ∧
      ∀ (l : Lifetime) (p : Process), l.last engine (tableAfter engine [] lifetimes) = some p →
        (∀ done, countRows engine p.store.table done = uint32 p.store.connectors.length →
          ∀ id c, p.store.get id = some c → p.store.qFind = true →
            (p.store.load engine id true).1 = true) ∧
        ∀ answers : List Answer, ∃ added,
          (initConnectorData engine p answers).2.1.log = p.log ++ added ∧
            ∀ count, .counts count count ∈ added → ∀ id, .notFound id ∉ added := by
  have segment : Segment (tableAfter engine [] lifetimes) :=
    segment_tableAfter lifetimes ⟨0, by decide, keys_nil⟩
  refine ⟨segment, fun l p alive => ?_⟩
  obtain ⟨n, positive, small, sane⟩ := last_sane l segment alive
  refine ⟨fun done equal id c => load_of_countRows sane positive small equal, fun answers => ?_⟩
  obtain ⟨-, same | ⟨count, cfgCount, log⟩⟩ :=
    wp_state (wp_initConnectorData sane positive small) answers
  · exact ⟨[], by rw [same, List.append_nil], by simp⟩
  · exact ⟨_, log, by simp⟩

/-- A process that initialises its table and is answered `answers` times. -/
def initialising (connectorCount : UInt32) (answers : Nat) : Lifetime :=
  ⟨connectorCount, fun _ => 0, [.initDatabaseTable], List.replicate answers ⟨true, 0⟩⟩

/-- Two connectors, then three and a power cut after the second INSERT. -/
theorem segment_history_powerCut :
    (tableAfter plainEngine [] [initialising 1 10, initialising 2 10]).map Row.connectorId =
        [.integer 0, .integer 1] ∧
      Segment (tableAfter plainEngine [] [initialising 1 10, initialising 2 10]) :=
  ⟨by decide, (segment_history [initialising 1 10, initialising 2 10]).1⟩

end ChargerStack.Ocpp.ConnectorTable
