/-
# Ocpp.ConfigSubscriptions -- which callbacks a write enqueues

`subscribe` registers a callback under a dotted path.  A write that returns true
triggers the callbacks of some paths: of the key itself when it replaced a leaf, of the
paths `diffJsonObjects` returned when it replaced an object.  A callback is triggered
by its own path only, though the header promises that a subscription to `server` hears
of every `server.*` item.

* `held_exec`: a subscription stays in the table until it is removed;
* `enqueued_iff_triggered`: its callback is enqueued exactly when its path is
  triggered;
* `enqueued_right_iff`: so a write gets a subscription right exactly when it is not one
  to a node above the key, and not one that the diff misreports.
-/
import ChargerStack.Lib.Run
import ChargerStack.Ocpp.ConfigDiff
import ChargerStack.Ocpp.ConfigWrites
import Mathlib.Data.List.AList

namespace ChargerStack.Ocpp.Subscriptions

open Cxx Rapidjson Value Lib Config

set_option autoImplicit false

/-! ## State -/

variable {α : Type}

/-- `m_subscriptions`: path to id to callback.  A callback is never empty, `subscribe`
refuses that one.  The maps are unordered in the source; nothing here depends on their
order. -/
abbrev Table (α : Type) := AList fun _ : String => AList fun _ : Nat => α

structure State (α : Type) where
  currentDoc : Value
  subscriptions : Table α
  /-- `m_nextSubId` -/
  nextSubId : Nat

/-- A call handed to the thread pool. -/
structure Task (α : Type) where
  subscribePath : String
  callback : α
  deriving DecidableEq

/-! ## Operations -/

/-- `subscribe`: the id it returns, 0 when it refuses. -/
def subscribe (s : State α) (key : String) (cb : Option α) : Nat × State α :=
  if key = "" then (0, s)
  else
    match cb with
    | none => (0, s)
    | some cb =>
        let subId := s.nextSubId
        let entry := (s.subscriptions.lookup key).getD ∅
        (subId, { s with
          subscriptions := s.subscriptions.insert key (entry.insert subId cb)
          nextSubId := (subId + 1) % 2 ^ 32 })

def unsubscribe (s : State α) (id : Nat) : State α :=
  if id = 0 then s
  else
    match s.subscriptions.entries.find? fun entry => (entry.2.lookup id).isSome with
    | none => s
    | some entry =>
        let remaining := entry.2.erase id
        if remaining.entries.isEmpty then
          { s with subscriptions := s.subscriptions.erase entry.1 }
        else { s with subscriptions := s.subscriptions.insert entry.1 remaining }

/-- `triggerCallbacks`: the callbacks subscribed to exactly this path. -/
def triggerCallbacks (table : Table α) (modifyPath : String) : Table α × List (Task α) :=
  match table.lookup modifyPath with
  | none => (table, [])
  | some entry =>
      (if entry.entries.isEmpty then table.erase modifyPath else table,
        entry.entries.map fun e => ⟨modifyPath, e.2⟩)

/-- The loop over the changed paths. -/
def triggerPaths (table : Table α) : List String → Table α × List (Task α)
  | [] => (table, [])
  | path :: rest =>
      let first := triggerCallbacks table path
      let later := triggerPaths first.1 rest
      (later.1, first.2 ++ later.2)

/-- The paths a write that succeeds triggers. -/
def modifiedPaths (doc : Value) (key : String) (value : Value) : Except Failure (List String) :=
  if key = "" then diffJsonObjects "" doc value
  else
    match findPath doc (segments key) with
    | some existNode =>
        if ¬ existNode.isObject then .ok [key] else diffJsonObjects key existNode value
    | none => diffJsonObjects key .null value

/-- `setConfig`: its result, and what it enqueues.  The delayed save is another
module's. -/
def setConfig (s : State α) (key : String) (value : Value) :
    Except Failure (Bool × State α × List (Task α)) := do
  let written ← Config.setConfig s.currentDoc key value
  if written.1 then
    let paths ← modifiedPaths s.currentDoc key value
    let triggered := triggerPaths s.subscriptions paths
    return (true, { s with currentDoc := written.2, subscriptions := triggered.1 }, triggered.2)
  else return (false, { s with currentDoc := written.2 }, [])

/-! ## Runs -/

/-- A call, with what it returned to a subscriber. -/
inductive Call (α : Type) where
  | subscribe (key : String) (cb : Option α) (returned : Nat)
  | unsubscribe (id : Nat)
  | setConfig (key : String) (value : Value)

def step (s : State α) : Call α → Option (State α)
  | .subscribe key cb returned =>
      let called := subscribe s key cb
      if called.1 = returned then some called.2 else none
  | .unsubscribe id => some (unsubscribe s id)
  | .setConfig key value =>
      match setConfig s key value with
      | .ok (_, t, _) => some t
      | .error _ => none

/-- The callback is in the table, under its path and its id. -/
def Held (table : Table α) (path : String) (id : Nat) (callback : α) : Prop :=
  ∃ entry, table.lookup path = some entry ∧ entry.lookup id = some callback

variable {table : Table α} {s t : State α} {path key : String} {value : Value} {id : Nat}
  {callback : α} {paths : List String}

theorem Held.nonempty {entry : AList fun _ : Nat => α} (there : entry.lookup id = some callback) :
    entry.entries.isEmpty = false := by
  have member : (⟨id, callback⟩ : Σ _ : Nat, α) ∈ entry.entries :=
    AList.mem_lookup_iff.1 (Option.mem_def.2 there)
  cases entries : entry.entries with
  | nil =>
      rw [entries] at member
      cases member
  | cons e rest => rfl

theorem held_triggerCallbacks (held : Held table path id callback) (modifyPath : String) :
    Held (triggerCallbacks table modifyPath).1 path id callback := by
  obtain ⟨entry, found, there⟩ := held
  unfold triggerCallbacks
  split
  · exact ⟨entry, found, there⟩
  · rename_i other found'
    split
    · rename_i empty
      have apart : path ≠ modifyPath := by
        rintro rfl
        rw [found] at found'
        cases found'
        rw [Held.nonempty there] at empty
        cases empty
      exact ⟨entry, by rw [AList.lookup_erase_ne apart, found], there⟩
    · exact ⟨entry, found, there⟩

theorem held_triggerPaths (held : Held table path id callback) :
    Held (triggerPaths table paths).1 path id callback := by
  induction paths generalizing table with
  | nil => exact held
  | cons modifyPath rest ih => exact ih (held_triggerCallbacks held modifyPath)

theorem held_subscribe (held : Held s.subscriptions path id callback) {cb : Option α}
    (apart : (subscribe s key cb).1 ≠ id) :
    Held (subscribe s key cb).2.subscriptions path id callback := by
  obtain ⟨entry, found, there⟩ := held
  unfold subscribe at apart ⊢
  split
  · exact ⟨entry, found, there⟩
  · rename_i named
    rw [if_neg named] at apart
    cases cb with
    | none => exact ⟨entry, found, there⟩
    | some cb =>
        have fresh : id ≠ s.nextSubId := Ne.symm apart
        dsimp only
        by_cases same : path = key
        · subst same
          refine ⟨entry.insert s.nextSubId cb, ?_, ?_⟩
          · simp only [found, Option.getD_some, AList.lookup_insert]
          · rw [AList.lookup_insert_ne fresh, there]
        · exact ⟨entry, by rw [AList.lookup_insert_ne same, found], there⟩

theorem held_unsubscribe (held : Held s.subscriptions path id callback) {other : Nat}
    (apart : id ≠ other) : Held (unsubscribe s other).subscriptions path id callback := by
  obtain ⟨entry, found, there⟩ := held
  unfold unsubscribe
  split
  · exact ⟨entry, found, there⟩
  split
  · exact ⟨entry, found, there⟩
  · rename_i hit searched
    have member : s.subscriptions.lookup hit.1 = some hit.2 :=
      AList.mem_lookup_iff.2 (List.mem_of_find?_eq_some searched)
    have remains : path = hit.1 → (hit.2.erase other).lookup id = some callback := by
      rintro rfl
      rw [member] at found
      cases found
      rw [AList.lookup_erase_ne apart, there]
    dsimp only
    split
    · rename_i empty
      have off : path ≠ hit.1 := by
        intro same
        rw [Held.nonempty (remains same)] at empty
        cases empty
      exact ⟨entry, by rw [AList.lookup_erase_ne off, found], there⟩
    · by_cases same : path = hit.1
      · subst same
        exact ⟨hit.2.erase other, AList.lookup_insert _, remains rfl⟩
      · exact ⟨entry, by rw [AList.lookup_insert_ne same, found], there⟩

theorem setConfig_ok {returned : Bool} {tasks : List (Task α)}
    (wrote : setConfig s key value = .ok (returned, t, tasks)) :
    Config.setConfig s.currentDoc key value = .ok (returned, t.currentDoc) ∧
      ((returned = false ∧ t.subscriptions = s.subscriptions ∧ tasks = []) ∨
        ∃ paths, modifiedPaths s.currentDoc key value = .ok paths ∧
          t.subscriptions = (triggerPaths s.subscriptions paths).1 ∧
          tasks = (triggerPaths s.subscriptions paths).2) := by
  obtain ⟨⟨ok, doc⟩, written, wrote⟩ := bind_ok wrote
  rw [written]
  cases ok with
  | false =>
      cases wrote
      exact ⟨rfl, .inl ⟨rfl, rfl, rfl⟩⟩
  | true =>
      obtain ⟨paths, modified, wrote⟩ := bind_ok wrote
      cases wrote
      exact ⟨rfl, .inr ⟨paths, modified, rfl, rfl⟩⟩

/-- A call that leaves the subscription of this id alone: not its removal, nor a
subscription that is given the id again once the counter has wrapped. -/
def Spares (id : Nat) : Call α → Prop
  | .subscribe _ _ returned => returned ≠ id
  | .unsubscribe other => other ≠ id
  | .setConfig _ _ => True

theorem held_step {call : Call α} (spares : Spares id call)
    (held : Held s.subscriptions path id callback) (moved : step s call = some t) :
    Held t.subscriptions path id callback := by
  cases call with
  | subscribe key cb returned =>
      simp only [step] at moved
      split at moved
      · rename_i same
        cases moved
        exact held_subscribe held (same ▸ spares)
      · cases moved
  | unsubscribe other =>
      cases moved
      exact held_unsubscribe held (Ne.symm spares)
  | setConfig key value =>
      simp only [step] at moved
      split at moved
      · rename_i returned u tasks wrote
        cases moved
        obtain ⟨-, ⟨-, same, -⟩ | ⟨paths, -, same, -⟩⟩ := setConfig_ok wrote
        · rw [same]
          exact held
        · rw [same]
          exact held_triggerPaths held
      · cases moved

/-- **A subscription that was made and not removed is in the table.** -/
theorem held_exec {start : State α} {before after : List (Call α)}
    (ran : exec step start (before ++ .subscribe path (some callback) id :: after) = some s)
    (named : path ≠ "") (kept : ∀ call ∈ after, Spares id call) :
    Held s.subscriptions path id callback := by
  obtain ⟨m, -, ran⟩ := exec_append.1 ran
  obtain ⟨n, moved, ran⟩ := exec_cons.1 ran
  refine exec_invariant_along (C := fun _ call => Spares id call)
    (fun _ _ _ spares held moved => held_step spares held moved)
    (along_of_labels (fun call inside _ => kept call inside) n) ?_ ran
  simp only [step] at moved
  split at moved
  · rename_i returned
    cases moved
    simp only [subscribe, if_neg named] at returned ⊢
    subst returned
    exact ⟨_, AList.lookup_insert _, AList.lookup_insert _⟩
  · cases moved

/-- **A callback is enqueued exactly when its own path is triggered.** -/
theorem enqueued_iff_triggered (held : Held table path id callback) :
    ⟨path, callback⟩ ∈ (triggerPaths table paths).2 ↔ path ∈ paths := by
  induction paths generalizing table with
  | nil => simp [triggerPaths]
  | cons modifyPath rest ih =>
      have first : ⟨path, callback⟩ ∈ (triggerCallbacks table modifyPath).2 ↔ path = modifyPath := by
        unfold triggerCallbacks
        constructor
        · intro inside
          split at inside
          · cases inside
          · obtain ⟨e, -, same⟩ := List.mem_map.1 inside
            cases same
            rfl
        · rintro rfl
          obtain ⟨entry, found, there⟩ := held
          rw [found]
          exact List.mem_map.2 ⟨⟨id, callback⟩, AList.mem_lookup_iff.1 there, rfl⟩
      simp only [triggerPaths]
      rw [List.mem_append, List.mem_cons, first, ih (held_triggerCallbacks held modifyPath)]

/-! ## Texts of paths -/

theorem intercalate_segments (key : String) :
    ['.'].intercalate ((segments key).map String.toList) = key.toList := by
  have chars : (segments key).map String.toList = key.toList.splitOn '.' := by
    simp [segments, List.map_map, Function.comp_def]
  rw [chars, List.intercalate_splitOn]

theorem segments_inj {key other : String} (same : segments key = segments other) : key = other := by
  apply String.toList_inj.1
  rw [← intercalate_segments, same, intercalate_segments]

/-- Below a parent, every name is appended after a dot. -/
theorem dotted_cons {names : List String} {name : String} (nonempty : name ≠ "") :
    (dotted name names).toList = ['.'].intercalate ((name :: names).map String.toList) := by
  induction names generalizing name with
  | nil => simp [dotted]
  | cons next names ih =>
      have longer : name ++ "." ++ next ≠ "" := by
        intro empty
        have chars := congrArg String.toList empty
        simp at chars
      have first : dotted name (next :: names) = dotted (name ++ "." ++ next) names := by
        simp [dotted, fullPath, nonempty]
      rw [first, ih longer]
      cases names with
      | nil => simp
      | cons last names => simp

/-- The text of the path a key stands for is the key. -/
theorem dotted_segments (full : FullKey key) : dotted "" (segments key) = key := by
  obtain ⟨name, names, shape⟩ := List.exists_cons_of_ne_nil (segments_ne_nil key)
  have nonempty : name ≠ "" := full name (by rw [shape]; exact List.mem_cons_self)
  apply String.toList_inj.1
  rw [← intercalate_segments key, shape, ← dotted_cons nonempty]
  rfl

/-! ## Nodes before and after a write -/

variable {doc changed v : Value}

theorem getConfig_of_full (full : FullKey path) (clean : CKey path) :
    getConfig doc path = resolve doc (segments path) := by
  obtain ⟨name, names, shape⟩ := List.exists_cons_of_ne_nil (segments_ne_nil path)
  cases object : doc.isObject with
  | false => rw [getConfig, if_pos (by simp [object]), shape, resolve_of_leaf object]
  | true =>
      rw [getConfig, if_neg (by simp [object]), if_neg full.nonempty]
      exact findPath_eq_resolve full clean doc

theorem getConfig_of_not_full (named : path ≠ "") (gap : ¬ FullKey path) :
    getConfig doc path = none := by
  rw [getConfig, if_neg named]
  split
  · rfl
  · cases found : findPath doc (segments path) with
    | none => rfl
    | some v => exact absurd (findPath_full found) gap

/-- Replacing a node makes another document exactly when it is another node. -/
theorem same_assignPath {p : List String} (clean : ∀ segment ∈ p, NulFree segment) :
    ∀ {doc changed : Value}, assignPath value doc p = .ok changed → resolve doc p = some v →
      same doc changed = same v value := by
  induction p with
  | nil =>
      intro doc changed assigned there
      rw [resolve_nil] at there
      cases there
      rw [assignPath_nil, Except.ok.injEq] at assigned
      rw [assigned]
  | cons segment p ih =>
      intro doc changed assigned there
      obtain ⟨ms, u, rfl, member, there⟩ := resolve_cons.1 there
      simp only [assignPath, cStr_of_nulFree (clean segment List.mem_cons_self), member] at assigned
      obtain ⟨w, below, result⟩ := bind_ok assigned
      obtain rfl := Except.ok.inj result
      rw [← ih (fun other inside => clean other (List.mem_cons_of_mem _ inside)) below there,
        Bool.eq_iff_iff, same_object]
      constructor
      · intro all
        have here := all segment
        rwa [member, findMember_replaceMember member] at here
      · intro equal name
        by_cases here : name = segment
        · subst here
          rw [member, findMember_replaceMember member]
          exact equal
        · rw [findMember_replaceMember_of_ne here]
          exact sameNode_self _

/-! ## Reported nodes and nodes that differ -/

/-- Where the nodes that are reported are not the nodes that differ. -/
inductive Misreported (old new : Value) (path : List String) : Prop
  /-- An object whose contents change: its members are reported, it is not. -/
  | container (objects : Containers old new path) (differs : Differs old new path)
  /-- A node inside one that was added or removed, or that changed its type. -/
  | inside (oneSided : (resolve old path).isSome ≠ (resolve new path).isSome)
      (unreached : ¬ Compared old new path)
  | missed (missed : Missed old new path)
  | spurious (spurious : Spurious old new path)

section

variable {old new : Value} {below : List String}

theorem not_differs_of_spurious (spurious : Spurious old new below) : ¬ Differs old new below := by
  obtain ⟨v, w, there, there', equal, -⟩ := both_iff.1 spurious
  simp [Differs, there, there', sameNode, equal]

theorem not_spurious_of_containers (objects : Containers old new below) :
    ¬ Spurious old new below := by
  obtain ⟨v, w, there, there', object, -⟩ := both_iff.1 objects
  simp [Spurious, there, there', Both, Unread, isObject_iff_getType.1 object]

theorem containers_of_root (object : old.isObject = true) (object' : new.isObject = true) :
    Containers old new [] := by
  simp [Containers, Both, object, object']

theorem reported_right_iff (tidy : Tidy old) (tidy' : Tidy new)
    (root : below = [] → old.isObject = true ∧ new.isObject = true) :
    (Reported old new below ↔ Differs old new below) ↔ ¬ Misreported old new below := by
  have inner : ¬ Containers old new below → below ≠ [] := by
    rintro leaf rfl
    exact leaf (containers_of_root (root rfl).1 (root rfl).2)
  constructor
  · intro right misreported
    cases misreported with
    | container objects differs =>
        rcases ((reported_iff tidy tidy').1 (right.2 differs)).2 with ⟨-, leaf, -⟩ | spurious
        · exact leaf objects
        · exact not_spurious_of_containers objects spurious
    | inside oneSided unreached =>
        have differs : Differs old new below := by
          unfold Differs
          cases o : resolve old below <;> cases n : resolve new below <;>
            simp_all [sameNode]
        exact unreached ((reported_iff tidy tidy').1 (right.2 differs)).1
    | missed missed =>
        rcases ((reported_iff tidy tidy').1 (right.2 (differs_of_missed missed))).2 with
          ⟨-, -, seen⟩ | spurious
        · exact seen missed
        · exact not_differs_of_spurious spurious (differs_of_missed missed)
    | spurious spurious =>
        have leaf := fun objects => not_spurious_of_containers objects spurious
        have reported := (reported_iff tidy tidy').2
          ⟨compared_of_both spurious (inner leaf), .inr spurious⟩
        exact not_differs_of_spurious spurious (right.1 reported)
  · intro fine
    constructor
    · intro reported
      rcases differs_or_spurious tidy tidy' reported with differs | spurious
      · exact differs
      · exact absurd (.spurious spurious) fine
    · intro differs
      have leaf : ¬ Containers old new below := fun objects => fine (.container objects differs)
      have seen : ¬ Missed old new below := fun missed => fine (.missed missed)
      refine (reported_iff tidy tidy').2 ⟨?_, .inl ⟨differs, leaf, seen⟩⟩
      by_contra unreached
      by_cases both : Both (fun _ _ => True) (resolve old below) (resolve new below)
      · exact unreached (compared_of_both both (inner leaf))
      · refine fine (.inside ?_ unreached)
        unfold Differs at differs
        cases o : resolve old below <;> cases n : resolve new below <;>
          simp_all [sameNode, Both]

end

/-! ## The nodes a write changes -/

/-- The node at the subscribed path was added, removed, or has another value. -/
def Changed (doc changed : Value) (path : String) : Prop :=
  sameNode (getConfig doc path) (getConfig changed path) = false

variable {node : Value} {below : List String}

theorem clean_pathOf (clean : CKey key) : ∀ segment ∈ pathOf key, NulFree segment := by
  unfold pathOf
  split
  · nofun
  · exact clean

theorem not_changed_of_not_full (named : path ≠ "") (gap : ¬ FullKey path) :
    ¬ Changed doc changed path := by
  simp [Changed, getConfig_of_not_full named gap]

theorem changed_iff_differs (full : FullKey path) (clean : CKey path) :
    Changed doc changed path ↔ Differs doc changed (segments path) := by
  rw [Changed, getConfig_of_full full clean, getConfig_of_full full clean]
  rfl

/-- Above the key everything changes. -/
theorem differs_above {p r : List String} (clean : ∀ segment ∈ p ++ r, NulFree segment)
    (assigned : assignPath value doc (p ++ r) = .ok changed)
    (there : resolve doc (p ++ r) = some node) (changes : same doc changed = false) :
    Differs doc changed p := by
  have different : same node value = false := by
    rw [← same_assignPath clean assigned there]
    exact changes
  obtain ⟨d, c, here, here', rest⟩ :=
    assignPath_append (fun segment inside => clean segment (List.mem_append_left r inside)) assigned
  have there' : resolve d r = some node := by
    rwa [resolve_append, here] at there
  rw [Differs, here, here']
  show same d c = false
  rw [same_assignPath (fun segment inside => clean segment (List.mem_append_right p inside)) rest
    there', different]

/-- Below the key the new value stands in place of the node. -/
theorem differs_below {p : List String} (clean : ∀ segment ∈ p, NulFree segment)
    (assigned : assignPath value doc p = .ok changed) (there : resolve doc p = some node) :
    Differs doc changed (p ++ below) ↔ Differs node value below := by
  have assigned' : assignPath value doc (p ++ []) = .ok changed := by rwa [List.append_nil]
  obtain ⟨d, c, -, here', rest⟩ := assignPath_append clean assigned'
  rw [assignPath_nil, Except.ok.injEq] at rest
  subst rest
  simp [Differs, resolve_append, there, here']

/-- Off the key nothing changes. -/
theorem not_differs_off {p other : List String} (clean : ∀ segment ∈ p, NulFree segment)
    (clean' : ∀ segment ∈ other, NulFree segment) (full : ∀ segment ∈ other, segment ≠ "")
    (assigned : assignPath value doc p = .ok changed) (apart : ¬ p <+: other)
    (apart' : ¬ other <+: p) : ¬ Differs doc changed other := by
  have same := findPath_assignPath assigned clean clean' apart apart'
  rw [findPath_eq_resolve full clean', findPath_eq_resolve full clean'] at same
  simp [Differs, same]

/-! ## The paths a write triggers -/

/-- A subscription that a write gets wrong: to a node above the key, or to one below a
replaced object that is misreported. -/
def Wrong (doc value : Value) (key path : String) : Prop :=
  FullKey path ∧
    ((segments path <+: pathOf key ∧ segments path ≠ pathOf key) ∨
      (value.isObject = true ∧ ∃ node below, resolve doc (pathOf key) = some node ∧
        segments path = pathOf key ++ below ∧ Misreported node value below))

/-- Texts that mean what they say: names and strings without a NUL, no name twice, and
no node below the key whose text is the path but that the path does not lead to (one
with a dot in its name). -/
structure Plain (doc value : Value) (key path : String) : Prop where
  tidyDoc : Tidy doc
  tidyValue : Tidy value
  cleanKey : CKey key
  cleanPath : CKey path
  unambiguous : ∀ below, (resolve doc (pathOf key ++ below) ≠ none ∨ resolve value below ≠ none) →
    dotted key below = path → segments path = pathOf key ++ below ∧ FullKey path

theorem node_of_reported {old new : Value} (reported : Reported old new below) :
    resolve old below ≠ none ∨ resolve new below ≠ none := by
  obtain ⟨parent, name, ms, ns, rfl, there, there', noticed⟩ := reported
  rw [findMember_eq_resolve there, findMember_eq_resolve there'] at noticed
  by_contra neither
  rw [not_or, not_not, not_not] at neither
  rw [neither.1, neither.2] at noticed
  exact noticed

theorem dotted_pathOf (known : key = "" ∨ FullKey key) : dotted "" (pathOf key) = key := by
  unfold pathOf
  split
  · rename_i empty
    rw [empty]
    rfl
  · exact dotted_segments (known.resolve_left ‹_›)

/-- The paths triggered when an object was replaced. -/
theorem triggered_iff_reported (plain : Plain doc value key path) (known : key = "" ∨ FullKey key)
    (there : resolve doc (pathOf key) = some node)
    (returned : diffJsonObjects key node value = .ok paths) :
    path ∈ paths ↔
      FullKey path ∧ ∃ below, segments path = pathOf key ++ below ∧ Reported node value below := by
  obtain ⟨paths', returned', paths_iff⟩ :=
    diffJsonObjects_spec (plain.tidyDoc.node there) plain.tidyValue key
  rw [returned, Except.ok.injEq] at returned'
  subst returned'
  rw [paths_iff]
  constructor
  · rintro ⟨below, reported, text⟩
    have found : resolve doc (pathOf key ++ below) ≠ none ∨ resolve value below ≠ none := by
      rw [resolve_append, there]
      exact node_of_reported reported
    obtain ⟨shape, full⟩ := plain.unambiguous below found text
    exact ⟨full, below, shape, reported⟩
  · rintro ⟨full, below, shape, reported⟩
    refine ⟨below, reported, ?_⟩
    have text := dotted_segments full
    rw [shape, dotted, List.foldl_append] at text
    rw [← dotted_pathOf known]
    exact text

theorem isObject_eq_of_sameType {v w : Value} (same : sameType v w = true) :
    v.isObject = w.isObject := by
  cases object : v.isObject with
  | false => exact (isObject_of_sameType same object).symm
  | true =>
      obtain ⟨ms, rfl⟩ := isObject_iff.1 object
      have types : (Value.object ms).getType = w.getType := by
        simpa [sameType, Value.isBool] using same
      exact (isObject_iff_getType.2 types.symm).symm

/-- The three branches of a write: a leaf, an object, and a key that ends in a dot. -/
theorem modifiedPaths_cases (clean : CKey key)
    (wrote : Config.setConfig doc key value = .ok (true, changed))
    (modified : modifiedPaths doc key value = .ok paths) :
    ∃ node, resolve doc (pathOf key) = some node ∧ assignPath value doc (pathOf key) = .ok changed ∧
      ((FullKey key ∧ node.isObject = false ∧ value.isObject = false ∧ paths = [key]) ∨
        (value.isObject = true ∧ (key = "" ∨ (FullKey key ∧ node.isObject = true)) ∧
          diffJsonObjects key node value = .ok paths) ∨
        (key ≠ "" ∧ ¬ FullKey key ∧ paths = [])) := by
  obtain ⟨node, there, assigned, checked⟩ := setConfig_true wrote
  rw [comparePath_eq_resolve (clean_pathOf clean)] at there
  refine ⟨node, there, assigned, ?_⟩
  unfold modifiedPaths at modified
  rcases checked with ⟨rfl, object⟩ | ⟨nonempty, types, missing⟩
  · have root : doc = node := Option.some.inj ((resolve_nil doc).symm.trans there)
    subst root
    exact .inr (.inl ⟨object, .inl rfl, modified⟩)
  · rw [if_neg nonempty] at modified
    have shape : pathOf key = segments key := if_neg nonempty
    have objects := isObject_eq_of_sameType types
    cases found : findPath doc (segments key) with
    | some existNode =>
        have full : FullKey key := findPath_full found
        have same : existNode = node := by
          rw [shape, ← findPath_eq_resolve full clean, found] at there
          exact Option.some.inj there
        subst same
        rw [found] at modified
        cases object : existNode.isObject with
        | false =>
            simp only [object, Bool.false_eq_true, not_false_eq_true, if_true,
              Except.ok.injEq] at modified
            exact .inl ⟨full, rfl, objects.trans object, modified.symm⟩
        | true =>
            simp only [object, not_true_eq_false, if_false] at modified
            exact .inr (.inl ⟨objects.trans object, .inr ⟨full, rfl⟩, modified⟩)
    | none =>
        rw [found] at modified
        obtain ⟨ns, rfl⟩ := isObject_iff.1 (missing found)
        cases modified
        refine .inr (.inr ⟨nonempty, fun full => ?_, rfl⟩)
        rw [shape, ← findPath_eq_resolve full clean, found] at there
        cases there

/-! ## What a write gets right -/

theorem wrong_below_iff (full : FullKey path) (there : resolve doc (pathOf key) = some node)
    (shape : segments path = pathOf key ++ below) :
    Wrong doc value key path ↔ value.isObject = true ∧ Misreported node value below := by
  constructor
  · rintro ⟨-, ⟨above, apart⟩ | ⟨object, node', below', there', shape', misreported⟩⟩
    · exact absurd (above.eq_of_length_le (by rw [shape]; simp)) apart
    · rw [there, Option.some.injEq] at there'
      rw [shape, List.append_cancel_left_eq] at shape'
      subst there' shape'
      exact ⟨object, misreported⟩
  · rintro ⟨object, misreported⟩
    exact ⟨full, .inr ⟨object, node, below, there, shape, misreported⟩⟩

/-- A leaf was replaced. -/
theorem leaf_right (leaf : node.isObject = false) (leaf' : value.isObject = false)
    (different : same node value = false) (full : FullKey key)
    (shape : segments path = pathOf key ++ below) :
    path ∈ [key] ↔ Differs node value below := by
  have position : pathOf key = segments key := if_neg full.nonempty
  rw [List.mem_singleton]
  cases below with
  | nil =>
      rw [List.append_nil, position] at shape
      simp [segments_inj shape, Differs, sameNode, different]
  | cons name names =>
      have apart : path ≠ key := by
        rintro rfl
        simp [position] at shape
      simp [apart, Differs, resolve_of_leaf leaf, resolve_of_leaf leaf', sameNode]

/-- No path is triggered but of the key and the nodes below it. -/
theorem triggered_below (plain : Plain doc value key path)
    (wrote : Config.setConfig doc key value = .ok (true, changed))
    (modified : modifiedPaths doc key value = .ok paths) (triggered : path ∈ paths) :
    FullKey path ∧ pathOf key <+: segments path := by
  obtain ⟨node, there, -, ⟨full, -, -, rfl⟩ | ⟨-, known, returned⟩ | ⟨-, -, rfl⟩⟩ :=
    modifiedPaths_cases plain.cleanKey wrote modified
  · rw [List.mem_singleton] at triggered
    subst triggered
    have position : pathOf path = segments path := if_neg full.nonempty
    exact ⟨full, position ▸ List.prefix_rfl⟩
  · obtain ⟨full, below, shape, -⟩ :=
      (triggered_iff_reported plain (known.imp_right And.left) there returned).1 triggered
    exact ⟨full, shape ▸ List.prefix_append _ _⟩
  · cases triggered

/-- Neither the key nor a node below it: the write is right about a path off the key,
which does not change, and wrong about one above it, which does. -/
theorem outside_right_iff (plain : Plain doc value key path) (full : FullKey path)
    (assigned : assignPath value doc (pathOf key) = .ok changed)
    (there : resolve doc (pathOf key) = some node) (changes : same doc changed = false)
    (outside : ¬ pathOf key <+: segments path) :
    ¬ Differs doc changed (segments path) ↔ ¬ Wrong doc value key path := by
  have clean := clean_pathOf plain.cleanKey
  by_cases above : segments path <+: pathOf key
  · obtain ⟨r, shape⟩ := above
    have differs : Differs doc changed (segments path) := by
      rw [← shape] at clean assigned there
      exact differs_above clean assigned there changes
    have wrong : Wrong doc value key path :=
      ⟨full, .inl ⟨⟨r, shape⟩, fun same => outside (same ▸ List.prefix_rfl)⟩⟩
    simp [differs, wrong]
  · have right : ¬ Wrong doc value key path := by
      rintro ⟨-, ⟨above', -⟩ | ⟨-, -, below, -, shape, -⟩⟩
      · exact above above'
      · exact outside ⟨below, shape.symm⟩
    simp [right, not_differs_off clean plain.cleanPath full assigned outside above]

/-- Below a replaced object the write is as right as the diff. -/
theorem object_right_iff (plain : Plain doc value key path) (full : FullKey path)
    (there : resolve doc (pathOf key) = some node) (object : value.isObject = true)
    (known : key = "" ∨ (FullKey key ∧ node.isObject = true))
    (returned : diffJsonObjects key node value = .ok paths)
    (shape : segments path = pathOf key ++ below) :
    (path ∈ paths ↔ Differs node value below) ↔ ¬ Misreported node value below := by
  have triggered : path ∈ paths ↔ Reported node value below := by
    rw [triggered_iff_reported plain (known.imp_right And.left) there returned]
    constructor
    · rintro ⟨-, below', shape', reported⟩
      rw [shape, List.append_cancel_left_eq] at shape'
      exact shape' ▸ reported
    · intro reported
      exact ⟨full, below, shape, reported⟩
  have root : below = [] → node.isObject = true ∧ value.isObject = true := by
    rintro rfl
    rcases known with rfl | ⟨-, object'⟩
    · exact absurd shape (segments_ne_nil path)
    · exact ⟨object', object⟩
  rw [triggered]
  exact reported_right_iff (plain.tidyDoc.node there) plain.tidyValue root

/-- **A write triggers the path of a node exactly when the node changed**, unless the
path is one of those it gets wrong. -/
theorem triggered_right_iff (plain : Plain doc value key path) (named : path ≠ "")
    (wrote : Config.setConfig doc key value = .ok (true, changed))
    (modified : modifiedPaths doc key value = .ok paths) (changes : same doc changed = false) :
    (path ∈ paths ↔ Changed doc changed path) ↔ ¬ Wrong doc value key path := by
  have position := fun triggered => triggered_below plain wrote modified triggered
  obtain ⟨node, there, assigned, branch⟩ := modifiedPaths_cases plain.cleanKey wrote modified
  have clean := clean_pathOf plain.cleanKey
  by_cases full : FullKey path
  swap
  · have untriggered : path ∉ paths := fun triggered => full (position triggered).1
    have right : ¬ Wrong doc value key path := fun wrong => full wrong.1
    simp [untriggered, not_changed_of_not_full named full, right]
  rw [changed_iff_differs full plain.cleanPath]
  by_cases under : pathOf key <+: segments path
  swap
  · have untriggered : path ∉ paths := fun triggered => under (position triggered).2
    rw [← outside_right_iff plain full assigned there changes under]
    simp [untriggered]
  obtain ⟨below, shape⟩ := under
  have shape := shape.symm
  rw [wrong_below_iff full there shape, shape, differs_below clean assigned there]
  rcases branch with ⟨fullKey, leaf, leaf', rfl⟩ | ⟨object, known, returned⟩ | ⟨nonempty, gap, -⟩
  · have different : same node value = false := by
      rw [← same_assignPath clean assigned there]
      exact changes
    rw [leaf_right leaf leaf' different fullKey shape]
    simp [leaf']
  · rw [object_right_iff plain full there object known returned shape]
    simp [object]
  · -- A key that ends in a dot has an empty segment, and so would the path.
    refine absurd (fun segment inside => full segment ?_) gap
    rw [shape, pathOf, if_neg nonempty]
    exact List.mem_append_left below inside

/-- The limits before anyone subscribes. -/
def unwatched : State Unit := ⟨limits, ∅, 1⟩

/-- ... and with one subscription. -/
def watched (path : String) : State Unit := (subscribe unwatched path (some ())).2

theorem tidy_limits : Tidy limits := by
  have clean : NulFree "limits" ∧ NulFree "current" ∧ NulFree "voltage" := by decide
  have inner : Tidy (.object [("current", .int 16), ("voltage", .int 230)]) := by
    apply Tidy.object
    · decide
    · intro m member
      simp only [List.mem_cons, List.not_mem_nil, or_false] at member
      obtain rfl | rfl := member
      · exact clean.2.1
      · exact clean.2.2
    · intro m member
      simp only [List.mem_cons, List.not_mem_nil, or_false] at member
      obtain rfl | rfl := member
      · exact Tidy.leaf rfl (by simp)
      · exact Tidy.leaf rfl (by simp)
  apply Tidy.object
  · exact List.nodup_singleton _
  · intro m member
    rw [List.mem_singleton.1 member]
    exact clean.1
  · intro m member
    rw [List.mem_singleton.1 member]
    exact inner

theorem plain_limits : Plain limits (.int 32) "limits.current" "limits.current" where
  tidyDoc := tidy_limits
  tidyValue := Tidy.leaf rfl (by simp)
  cleanKey := by decide
  cleanPath := by decide
  unambiguous := by
    intro below found _
    cases below with
    | nil => exact ⟨by decide, by decide⟩
    | cons name names =>
        rcases found with found | found
        · exact absurd rfl found
        · exact absurd rfl found

end ChargerStack.Ocpp.Subscriptions
