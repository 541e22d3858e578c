/-
# ConfigFiles.ConfigLocks -- the value locks in the calls of config/config_manage.c

Every entry of the two tables has its `value_lock`, and the five calls that read or replace a
value lock and unlock it by hand.  Here each of them is given with the operations it performs on
the locks, in order, on all of its paths: a null argument, an entry that is missing or there,
no memory for a new entry, a value that is equal or not, and the nested `set_config`.

* `setConfig_erase` and its siblings: with the locks left out, and memory for new entries, these
  are the calls of `ConfigManage`;
* `clean_setConfig`, `clean_getConfig`, `clean_replaceObject`, `clean_getDefaultConfig`: these
  calls release what they took and nothing else, whatever the state;
* `clean_setDefaultConfig_iff`: so does `set_default_config`, except when it is given the default
  that is there.  Then it unlocks once more (`setDefaultConfig_again`);
* `value_locks_clean_iff` is the outcome for sequences of calls.
-/
import ChargerStack.ConfigFiles.ConfigManage
import ChargerStack.Lib.RwLock

namespace ChargerStack.ConfigFiles.ConfigLocks

open ChargerStack.Lib
open ChargerStack.ConfigFiles.ConfigManage (ConfigType Entry State Json nameAddPrefix nameAddSuffix
  newConfigItem snprintf)

set_option autoImplicit false

/-- The `value_lock` of the entry under this name in this table. -/
abbrev ValueLock := ConfigType × String

variable {V T α : Type}

/-- How a call ends, and what it did to the locks. -/
structure Ended (V T α : Type) where
  state : State V T
  answer : α
  locks : List (ValueLock × LockAct)

/-- What a call finds: whether `new_config_item` gets memory for an entry of this table. -/
abbrev Memory := ConfigType → Bool

/-- `set_config`. -/
def setConfig (json : Json V T) (memory : Memory) (st : State V T) (name : Option String)
    (config : Option V) : Ended V T Bool :=
  match name, config with
  | some name, some config =>
      let configName := nameAddSuffix name
      let defaultConfigName := nameAddPrefix configName
      match st.table .cfgCurrent configName, st.table .cfgDefault defaultConfigName with
      | none, none => ⟨st, false, []⟩
      | none, some _ =>
          if memory .cfgCurrent then
            let s := newConfigItem configName config .cfgCurrent
            ⟨(st.put .cfgCurrent configName s).writeMemoryToFile json s.value s.path, true, []⟩
          else ⟨st, false, []⟩
      | some _, none => ⟨st, false, []⟩
      | some s, some _ =>
          if json.compare s.value config then ⟨st, true, reads (.cfgCurrent, configName)⟩
          else
            let s := { s with value := config }
            ⟨(st.put .cfgCurrent configName s).writeMemoryToFile json s.value s.path, true,
              reads (.cfgCurrent, configName) ++ writes (.cfgCurrent, configName)⟩
  | _, _ => ⟨st, false, []⟩

/-- `get_config`. -/
def getConfig (st : State V T) (name : Option String) : Ended V T (Option V) :=
  match name with
  | none => ⟨st, none, []⟩
  | some name =>
      let configName := nameAddSuffix name
      match st.table .cfgCurrent configName with
      | none => ⟨st, none, []⟩
      | some s => ⟨st, some s.value, reads (.cfgCurrent, configName)⟩

/-- `replace_object`. -/
def replaceObject (json : Json V T) (st : State V T) (name : Option String) (config : Option V)
    (configType : ConfigType) : Ended V T Bool :=
  match name, config with
  | some name, some config =>
      let configName :=
        match configType with
        | .cfgDefault => snprintf 128 ("default_" ++ name ++ ".json")
        | .cfgCurrent => snprintf 128 (name ++ ".json")
      match st.table configType configName with
      | none => ⟨st, false, []⟩
      | some s =>
          let s := { s with value := config }
          ⟨(st.put configType configName s).writeMemoryToFile json s.value s.path, true,
            writes (configType, configName)⟩
  | _, _ => ⟨st, false, []⟩

/-- `set_default_config`. -/
def setDefaultConfig (json : Json V T) (memory : Memory) (st : State V T) (name : Option String)
    (config : Option V) : Ended V T Bool :=
  match name, config with
  | some name, some config =>
      let defaultConfigName := nameAddSuffix (nameAddPrefix name)
      match st.table .cfgDefault defaultConfigName with
      | none =>
          if memory .cfgDefault then
            let s := newConfigItem defaultConfigName config .cfgDefault
            let st := (st.put .cfgDefault defaultConfigName s).writeMemoryToFile json s.value s.path
            let set := setConfig json memory st (some name) (some config)
            ⟨set.state, true, set.locks⟩
          else ⟨st, false, []⟩
      | some s =>
          if json.compare s.value config then
            let set :=
              match st.table .cfgCurrent (nameAddSuffix name) with
              | none => setConfig json memory st (some name) (some config)
              | some _ => ⟨st, true, []⟩
            -- the read lock of the comparison is released already
            ⟨set.state, true, reads (.cfgDefault, defaultConfigName) ++ set.locks ++
              [((.cfgDefault, defaultConfigName), .unlock)]⟩
          else
            let s := { s with value := config }
            let st := (st.put .cfgDefault defaultConfigName s).writeMemoryToFile json s.value s.path
            let set := setConfig json memory st (some name) (some config)
            ⟨set.state, true, reads (.cfgDefault, defaultConfigName) ++
              writes (.cfgDefault, defaultConfigName) ++ set.locks⟩
  | _, _ => ⟨st, false, []⟩

/-- `get_default_config`. -/
def getDefaultConfig (st : State V T) (name : Option String) : Ended V T (Option V) :=
  match name with
  | none => ⟨st, none, []⟩
  | some name =>
      let configName := nameAddSuffix (nameAddPrefix name)
      match st.table .cfgDefault configName with
      | none => ⟨st, none, []⟩
      | some s => ⟨st, some s.value, reads (.cfgDefault, configName)⟩

/-! ## The same calls without the locks -/

theorem setConfig_erase (json : Json V T) (st : State V T) (name : String) (config : V) :
    let ended := setConfig json (fun _ => true) st (some name) (some config)
    (ended.state, ended.answer) = ConfigManage.setConfig json st name config := by
  unfold setConfig ConfigManage.setConfig
  dsimp only
  cases st.table .cfgCurrent (nameAddSuffix name) <;>
    cases st.table .cfgDefault (nameAddPrefix (nameAddSuffix name)) <;> try rfl
  dsimp only
  split <;> rfl

theorem getConfig_erase (st : State V T) (name : String) :
    let ended := getConfig st (some name)
    (ended.state, ended.answer) = (st, ConfigManage.getConfig st name) := by
  unfold getConfig ConfigManage.getConfig
  dsimp only
  cases st.table .cfgCurrent (nameAddSuffix name) <;> rfl

theorem replaceObject_erase (json : Json V T) (st : State V T) (name : String) (config : V)
    (configType : ConfigType) :
    let ended := replaceObject json st (some name) (some config) configType
    (ended.state, ended.answer) = ConfigManage.replaceObject json st name config configType := by
  unfold replaceObject ConfigManage.replaceObject
  dsimp only
  cases configType
  · cases st.table .cfgDefault (snprintf 128 ("default_" ++ name ++ ".json")) <;> rfl
  · cases st.table .cfgCurrent (snprintf 128 (name ++ ".json")) <;> rfl

theorem setDefaultConfig_erase (json : Json V T) (st : State V T) (name : String) (config : V) :
    let ended := setDefaultConfig json (fun _ => true) st (some name) (some config)
    (ended.state, ended.answer) = ConfigManage.setDefaultConfig json st name config := by
  have nested : ∀ st : State V T, (setConfig json (fun _ => true) st (some name) (some config)).state =
      (ConfigManage.setConfig json st name config).1 := fun st =>
    congrArg Prod.fst (setConfig_erase json st name config)
  unfold setDefaultConfig ConfigManage.setDefaultConfig
  dsimp only
  cases st.table .cfgDefault (nameAddSuffix (nameAddPrefix name)) with
  | none => simp [nested]
  | some s =>
      dsimp only
      split
      · cases st.table .cfgCurrent (nameAddSuffix name) with
        | none => simp [nested]
        | some _ => rfl
      · simp [nested]

theorem getDefaultConfig_erase (st : State V T) (name : String) :
    let ended := getDefaultConfig st (some name)
    (ended.state, ended.answer) = (st, ConfigManage.getDefaultConfig st name) := by
  unfold getDefaultConfig ConfigManage.getDefaultConfig
  dsimp only
  cases st.table .cfgDefault (nameAddSuffix (nameAddPrefix name)) <;> rfl

/-! ## One call -/

variable (json : Json V T) (memory : Memory) (st : State V T) (name : Option String)
  (config : Option V)

theorem clean_setConfig : Clean (nothing _) (setConfig json memory st name config).locks := by
  unfold setConfig
  split
  · rename_i name config
    dsimp only
    split
    · exact clean_nil
    · split <;> exact clean_nil
    · exact clean_nil
    · split
      · exact clean_reads _
      · exact (clean_reads _).append (clean_writes _)
  · exact clean_nil

theorem clean_getConfig : Clean (nothing _) (getConfig st name).locks := by
  unfold getConfig
  split
  · exact clean_nil
  · dsimp only
    split
    · exact clean_nil
    · exact clean_reads _

theorem clean_replaceObject (configType : ConfigType) :
    Clean (nothing _) (replaceObject json st name config configType).locks := by
  unfold replaceObject
  split
  · dsimp only
    split
    · exact clean_nil
    · exact clean_writes _
  · exact clean_nil

theorem clean_getDefaultConfig : Clean (nothing _) (getDefaultConfig st name).locks := by
  unfold getDefaultConfig
  split
  · exact clean_nil
  · dsimp only
    split
    · exact clean_nil
    · exact clean_reads _

/-- The default under this name is there, and equal to the value given. -/
def IsDefault : Prop :=
  ∃ key value s, name = some key ∧ config = some value ∧
    st.table .cfgDefault (nameAddSuffix (nameAddPrefix key)) = some s ∧ json.compare s.value value = true

variable {json st name config}

/-- The default that is there already: clean up to its last operation, an unlock. -/
theorem setDefaultConfig_again (same : IsDefault json st name config) :
    ∃ lock before, Clean (nothing _) before ∧
      (setDefaultConfig json memory st name config).locks = before ++ [(lock, .unlock)] := by
  obtain ⟨key, value, s, rfl, rfl, found, equal⟩ := same
  unfold setDefaultConfig
  simp only [found, equal, if_true]
  refine ⟨_, _, (clean_reads _).append ?_, rfl⟩
  split
  · exact clean_setConfig json memory st (some key) (some value)
  · exact clean_nil

/-- Anything else is clean. -/
theorem clean_setDefaultConfig (other : ¬ IsDefault json st name config) :
    Clean (nothing _) (setDefaultConfig json memory st name config).locks := by
  unfold setDefaultConfig
  split
  · rename_i key value
    dsimp only
    split
    · split
      · exact clean_setConfig json memory _ (some key) (some value)
      · exact clean_nil
    · rename_i s found
      have differs : ¬ json.compare s.value value = true := fun equal =>
        other ⟨key, value, s, rfl, rfl, found, equal⟩
      rw [if_neg differs]
      exact ((clean_reads _).append (clean_writes _)).append
        (clean_setConfig json memory _ (some key) (some value))
  · exact clean_nil

variable {memory}

theorem clean_setDefaultConfig_iff :
    Clean (nothing _) (setDefaultConfig json memory st name config).locks ↔
      ¬ IsDefault json st name config := by
  constructor
  · intro clean same
    obtain ⟨lock, before, until_unlock, locks⟩ := setDefaultConfig_again memory same
    exact not_disciplined_unlock until_unlock lock (locks ▸ clean.disciplined)
  · exact clean_setDefaultConfig memory

/-! ## Sequences of calls -/

inductive Call (V : Type) where
  | setDefaultConfig (memory : Memory) (name : Option String) (config : Option V)
  | getDefaultConfig (name : Option String)
  | setConfig (memory : Memory) (name : Option String) (config : Option V)
  | getConfig (name : Option String)
  | replaceObject (name : Option String) (config : Option V) (configType : ConfigType)

/-- The state a call leaves, and what it did to the locks. -/
def Call.perform (json : Json V T) (st : State V T) : Call V → State V T × List (ValueLock × LockAct)
  | .setDefaultConfig memory name config =>
      let ended := ConfigLocks.setDefaultConfig json memory st name config
      (ended.state, ended.locks)
  | .getDefaultConfig name =>
      let ended := ConfigLocks.getDefaultConfig st name
      (ended.state, ended.locks)
  | .setConfig memory name config =>
      let ended := ConfigLocks.setConfig json memory st name config
      (ended.state, ended.locks)
  | .getConfig name =>
      let ended := ConfigLocks.getConfig st name
      (ended.state, ended.locks)
  | .replaceObject name config configType =>
      let ended := ConfigLocks.replaceObject json st name config configType
      (ended.state, ended.locks)

/-- The tables and files, and what the caller holds. -/
structure Caller (V T : Type) where
  state : State V T
  held : ValueLock → Hold

def callStep (json : Json V T) (s : Caller V T) (call : Call V) : Option (Caller V T) :=
  let ended := call.perform json s.state
  some ⟨ended.1, heldAfter s.held ended.2⟩

/-- The call keeps to the locks: it releases what it holds, it does not ask for what it holds for
writing, and every lock is free when it returns. -/
def KeepsLocks (json : Json V T) (s : Caller V T) (call : Call V) : Prop :=
  Clean s.held (call.perform json s.state).2

/-- `set_default_config` with the default that is there. -/
def GivesDefaultAgain (json : Json V T) (s : Caller V T) : Call V → Prop
  | .setDefaultConfig _ name config => IsDefault json s.state name config
  | _ => False

theorem keepsLocks_iff {s : Caller V T} (free : s.held = nothing _) (call : Call V) :
    KeepsLocks json s call ↔ ¬ GivesDefaultAgain json s call := by
  rw [KeepsLocks, free]
  cases call with
  | setDefaultConfig memory name config => exact clean_setDefaultConfig_iff
  | getDefaultConfig name => exact iff_of_true (clean_getDefaultConfig s.state name) not_false
  | setConfig memory name config =>
      exact iff_of_true (clean_setConfig json memory s.state name config) not_false
  | getConfig name => exact iff_of_true (clean_getConfig s.state name) not_false
  | replaceObject name config configType =>
      exact iff_of_true (clean_replaceObject json s.state name config configType) not_false

/-- Every call leaves every lock free. -/
theorem callStep_free {s t : Caller V T} {call : Call V} (free : s.held = nothing _)
    (moved : callStep json s call = some t) : t.held = nothing _ := by
  obtain rfl := Option.some.inj moved
  show heldAfter s.held (call.perform json s.state).2 = nothing _
  by_cases again : GivesDefaultAgain json s call
  · cases call with
    | setDefaultConfig memory name config =>
        obtain ⟨lock, before, clean, locks⟩ := setDefaultConfig_again memory again
        rw [free, show (Call.perform json s.state (.setDefaultConfig memory name config)).2 =
          before ++ [(lock, .unlock)] from locks]
        exact settled_unlock clean lock
    | _ => exact again.elim
  · exact ((keepsLocks_iff free call).2 again).settled

/-- **The value locks of a sequence of calls.**  From any tables and files, with no lock held,
every call of the sequence keeps to the locks if and only if none of them gives
`set_default_config` a value equal to the default that is there. -/
theorem value_locks_clean_iff (json : Json V T) (st : State V T) (calls : List (Call V)) :
    Along (callStep json) (KeepsLocks json) ⟨st, nothing _⟩ calls ↔
      Along (callStep json) (fun s call => ¬ GivesDefaultAgain json s call) ⟨st, nothing _⟩ calls := by
  have same : ∀ (s : Caller V T) (call : Call V), s.held = nothing _ →
      (KeepsLocks json s call ↔ ¬ GivesDefaultAgain json s call) := fun _ call free =>
    keepsLocks_iff free call
  have stays : ∀ (s : Caller V T) (call : Call V) (t : Caller V T), s.held = nothing _ →
      callStep json s call = some t → t.held = nothing _ := fun _ _ _ free moved =>
    callStep_free free moved
  constructor
  · exact fun keeps => along_of_invariant (fun s call t _ => stays s call t)
      (fun s call keeps free => (same s call free).1 keeps) keeps rfl
  · exact fun others => along_of_invariant (fun s call t _ => stays s call t)
      (fun s call other free => (same s call free).2 other) others rfl

/-- The same default twice, into empty tables. -/
theorem default_given_twice :
    ¬ ∀ (json : Json Nat Nat) (st : State Nat Nat) (calls : List (Call Nat)),
      Along (callStep json) (KeepsLocks json) ⟨st, nothing _⟩ calls := by
  intro always
  let json : Json Nat Nat := ⟨id, some, fun x y => x == y, fun _ => rfl, fun _ _ => beq_iff_eq⟩
  let again : Call Nat := .setDefaultConfig (fun _ => true) (some "a") (some 1)
  have second := ((always json ⟨fun _ _ => none, fun _ _ => none⟩ [again, again]).2 _ rfl).1
  refine (keepsLocks_iff (callStep_free rfl rfl) again).1 second ?_
  refine ⟨"a", 1, ⟨⟨.cfgDefault, "default_a.json"⟩, "default_a.json", 1⟩, rfl, rfl, ?_, rfl⟩
  decide

end ChargerStack.ConfigFiles.ConfigLocks
