/-
# ConfigFiles.ConfigManage -- the configuration tables of config/config_manage.c and their files

A configuration `name` has a current value, kept in `g_config_manage` under `name.json`, and a
default one, kept in `g_default_config_manage` under `default_name.json`.  Every table entry
carries the path of the file it is written to, and at start-up the tables are filled from the
two directories.

* `Store` is what the calls are for: two values a name, and a restart changes nothing;
* in memory the calls do what the store does (`view_perform`);
* `Kept` says that the two directories hold what the tables hold.  A call keeps it as long as
  the entry it overwrites is written to its own file, and a restart brings the tables back as
  long as no file is skipped (`kept_perform`, `view_restart`);
* `configs_survive_restarts` is the outcome for whole runs.

An entry made by a call has the right path.  One that was loaded has the path of the default
directory whenever its file's name contains `default` (`loaded_elsewhere_iff`), and then the
next value goes to the wrong file (`overwrite_elsewhere_is_lost`).
-/
import Mathlib.Data.List.Infix
import Mathlib.Logic.Function.Basic
import ChargerStack.Lib.Run

namespace ChargerStack.ConfigFiles.ConfigManage

open ChargerStack.Lib

set_option autoImplicit false

/-- `config_type_e`. -/
inductive ConfigType where
  | cfgDefault
  | cfgCurrent
  deriving DecidableEq, Repr

/-- `DEFAULT_CONFIG_PATH` and `CONFIG_PATH`. -/
def ConfigType.directory : ConfigType → String
  | .cfgDefault => "/home/zlgmcu/project/learnC++/src/config/config_path/default"
  | .cfgCurrent => "/home/zlgmcu/project/learnC++/src/config/config_path/current"

/-- A file of one of the two directories. -/
structure Path where
  directory : ConfigType
  file : String
  deriving DecidableEq, Repr

/-- `"%s/%s"`. -/
def Path.text (path : Path) : String := path.directory.directory ++ "/" ++ path.file

/-- `strstr` finds the needle. -/
def strstr (haystack needle : String) : Bool := decide (needle.toList <:+: haystack.toList)

variable {V T : Type}

/-- The part of cJSON that the tables rest on, for values `V` and file contents `T`: `parse`
reads back what `print` wrote, and `compare` is equality. -/
structure Json (V T : Type) where
  print : V → T
  parse : T → Option V
  compare : V → V → Bool
  parse_print : ∀ value, parse (print value) = some value
  compare_iff : ∀ x y, compare x y = true ↔ x = y

/-- `config_manage_t`, without the callbacks and the locks. -/
structure Entry (V : Type) where
  path : Path
  name : String
  value : V
  deriving DecidableEq, Repr

/-- The two tables and the two directories. -/
structure State (V T : Type) where
  table : ConfigType → String → Option (Entry V)
  files : ConfigType → String → Option T

/-- `name_add_suffix`. -/
def nameAddSuffix (name : String) : String := name ++ ".json"

/-- `name_add_prefix`. -/
def nameAddPrefix (configName : String) : String := "default_" ++ configName

/-- `new_config_item`. -/
def newConfigItem (name : String) (config : V) (whereE : ConfigType) : Entry V :=
  ⟨⟨whereE, name⟩, name, config⟩

namespace State

/-- An entry is added to a table under its name, or takes the place of the one there. -/
def put (st : State V T) (type : ConfigType) (name : String) (s : Entry V) : State V T :=
  { st with
    table := Function.update st.table type (Function.update (st.table type) name (some s)) }

/-- `write_memory_to_file`, succeeding. -/
def writeMemoryToFile (st : State V T) (json : Json V T) (value : V) (path : Path) : State V T :=
  { st with
    files := Function.update st.files path.directory
      (Function.update (st.files path.directory) path.file (some (json.print value))) }

end State

/-- `set_config`. -/
def setConfig (json : Json V T) (st : State V T) (name : String) (config : V) :
    State V T × Bool :=
  let configName := nameAddSuffix name
  let defaultConfigName := nameAddPrefix configName
  match st.table .cfgCurrent configName, st.table .cfgDefault defaultConfigName with
  | none, none => (st, false)
  | none, some _ =>
      let s := newConfigItem configName config .cfgCurrent
      ((st.put .cfgCurrent configName s).writeMemoryToFile json s.value s.path, true)
  | some _, none => (st, false)
  | some s, some _ =>
      if json.compare s.value config then (st, true)
      else
        let s := { s with value := config }
        ((st.put .cfgCurrent configName s).writeMemoryToFile json s.value s.path, true)

/-- `get_config`. -/
def getConfig (st : State V T) (name : String) : Option V :=
  (st.table .cfgCurrent (nameAddSuffix name)).map Entry.value

/-- `snprintf` into a buffer of the given size; the characters of a name are its bytes. -/
def snprintf (size : Nat) (text : String) : String := String.ofList (text.toList.take (size - 1))

/-- `replace_object`. -/
def replaceObject (json : Json V T) (st : State V T) (name : String) (config : V)
    (configType : ConfigType) : State V T × Bool :=
  let configName :=
    match configType with
    | .cfgDefault => snprintf 128 ("default_" ++ name ++ ".json")
    | .cfgCurrent => snprintf 128 (name ++ ".json")
  match st.table configType configName with
  | none => (st, false)
  | some s =>
      let s := { s with value := config }
      ((st.put configType configName s).writeMemoryToFile json s.value s.path, true)

/-- `set_default_config`. -/
def setDefaultConfig (json : Json V T) (st : State V T) (name : String) (config : V) :
    State V T × Bool :=
  let defaultConfigName := nameAddSuffix (nameAddPrefix name)
  match st.table .cfgDefault defaultConfigName with
  | none =>
      let s := newConfigItem defaultConfigName config .cfgDefault
      let st := (st.put .cfgDefault defaultConfigName s).writeMemoryToFile json s.value s.path
      ((setConfig json st name config).1, true)
  | some s =>
      if json.compare s.value config then
        match st.table .cfgCurrent (nameAddSuffix name) with
        | none => ((setConfig json st name config).1, true)
        | some _ => (st, true)
      else
        let s := { s with value := config }
        let st := (st.put .cfgDefault defaultConfigName s).writeMemoryToFile json s.value s.path
        ((setConfig json st name config).1, true)

/-- `get_default_config`. -/
def getDefaultConfig (st : State V T) (name : String) : Option V :=
  (st.table .cfgDefault (nameAddSuffix (nameAddPrefix name))).map Entry.value

/-! ## Start-up -/

/-- `add_config_item`. -/
def addConfigItem (st : State V T) (type : ConfigType) (configName : String) (cjsonConfig : V)
    (pathFlag : Bool) : State V T :=
  match st.table type configName with
  | none =>
      st.put type configName
        (newConfigItem configName cjsonConfig (if pathFlag then .cfgDefault else .cfgCurrent))
  | some s => st.put type configName { s with value := cjsonConfig }

/-- `strncmp(name, ".", 1) == 0`. -/
def Dotted (name : String) : Prop := name.toList.head? = some '.'

instance (name : String) : Decidable (Dotted name) := inferInstanceAs (Decidable (_ = _))

/-- One turn of the loop of `config_hash_init`. -/
def loadFile (json : Json V T) (type : ConfigType) (st : State V T) (name : String) : State V T :=
  if Dotted name then st
  else
    let flag := strstr (Path.text ⟨type, name⟩) "default"
    match (st.files type name).bind json.parse with
    | none => st
    | some cjsonConfig => addConfigItem st type name cjsonConfig flag

/-- `config_hash_init`, with the names in the order `readdir` gives them. -/
def configHashInit (json : Json V T) (type : ConfigType) (listing : List String)
    (st : State V T) : State V T :=
  listing.foldl (loadFile json type) st

/-- `config_manage_init`. -/
def configManageInit (json : Json V T) (listing : ConfigType → List String) (st : State V T) :
    State V T :=
  configHashInit json .cfgCurrent (listing .cfgCurrent)
    (configHashInit json .cfgDefault (listing .cfgDefault) st)

/-- The process starts again: the tables are empty, the files are there. -/
def restart (json : Json V T) (listing : ConfigType → List String) (st : State V T) : State V T :=
  configManageInit json listing { st with table := fun _ _ => none }

/-! ## What the calls are for -/

/-- For each name the value last given to it, and the default. -/
structure Store (V : Type) where
  current : String → Option V
  default : String → Option V

/-- A configuration has a current value only beside a default. -/
def Store.setConfig (store : Store V) (name : String) (config : V) : Store V × Bool :=
  match store.default name with
  | none => (store, false)
  | some _ => ({ store with current := Function.update store.current name (some config) }, true)

def Store.replaceObject (store : Store V) (name : String) (config : V) : Store V × Bool :=
  match store.current name with
  | none => (store, false)
  | some _ => ({ store with current := Function.update store.current name (some config) }, true)

/-- A new default is the current value too; the default that is there already only where there
is no current value. -/
def Store.setDefaultConfig [DecidableEq V] (store : Store V) (name : String) (config : V) :
    Store V × Bool :=
  if store.default name = some config ∧ store.current name ≠ none then (store, true)
  else
    (⟨Function.update store.current name (some config),
      Function.update store.default name (some config)⟩, true)

inductive Op (V : Type) where
  | setDefaultConfig (name : String) (config : V)
  | setConfig (name : String) (config : V)
  /-- With `CFG_CURRENT`. -/
  | replaceObject (name : String) (config : V)
  /-- With the names that `readdir` finds in each directory, in its order. -/
  | restart (listing : ConfigType → List String)

/-- A call, and its answer. -/
def perform (json : Json V T) (st : State V T) : Op V → State V T × Bool
  | .setDefaultConfig name config => setDefaultConfig json st name config
  | .setConfig name config => setConfig json st name config
  | .replaceObject name config => replaceObject json st name config .cfgCurrent
  | .restart listing => (restart json listing st, true)

def Store.perform [DecidableEq V] (store : Store V) : Op V → Store V × Bool
  | .setDefaultConfig name config => store.setDefaultConfig name config
  | .setConfig name config => store.setConfig name config
  | .replaceObject name config => store.replaceObject name config
  | .restart _ => (store, true)

/-- What the callers see of a state. -/
def view (st : State V T) : Store V := ⟨getConfig st, getDefaultConfig st⟩

/-! ## In memory -/

theorem nameAddSuffix_injective {a b : String} (same : nameAddSuffix a = nameAddSuffix b) :
    a = b := by
  have lists := congrArg String.toList same
  simp only [nameAddSuffix, String.toList_append] at lists
  exact String.toList_injective (List.append_cancel_right lists)

theorem nameAddPrefix_injective {a b : String} (same : nameAddPrefix a = nameAddPrefix b) :
    a = b := by
  have lists := congrArg String.toList same
  simp only [nameAddPrefix, String.toList_append] at lists
  exact String.toList_injective (List.append_cancel_left lists)

/-- The two orders in which the source builds the name of the default. -/
theorem prefix_suffix (name : String) :
    nameAddPrefix (nameAddSuffix name) = nameAddSuffix (nameAddPrefix name) := by
  simp [nameAddPrefix, nameAddSuffix, String.append_assoc]

theorem table_put_of_ne {st : State V T} {type other : ConfigType} (apart : other ≠ type)
    (name : String) (s : Entry V) : (st.put type name s).table other = st.table other := by
  simp [State.put, apart]

theorem table_put {st : State V T} (type : ConfigType) (name : String) (s : Entry V) :
    (st.put type name s).table type = Function.update (st.table type) name (some s) := by
  simp [State.put]

theorem table_put_apply (st : State V T) (type other : ConfigType) (name key : String)
    (s : Entry V) : (st.put type name s).table other key =
      if other = type ∧ key = name then some s else st.table other key := by
  by_cases same : other = type
  · subst same
    rw [table_put, Function.update_apply]
    simp
  · rw [table_put_of_ne same]
    simp [same]

theorem view_put_current {st : State V T} (name : String) (s : Entry V) :
    view (st.put .cfgCurrent (nameAddSuffix name) s) =
      { view st with current := Function.update (view st).current name (some s.value) } := by
  have current : getConfig (st.put .cfgCurrent (nameAddSuffix name) s) =
      Function.update (getConfig st) name (some s.value) := by
    funext other
    by_cases same : other = name
    · subst same
      simp [getConfig, table_put]
    · have apart : nameAddSuffix other ≠ nameAddSuffix name := fun h =>
        same (nameAddSuffix_injective h)
      simp [getConfig, table_put, same, apart]
  have default : getDefaultConfig (st.put .cfgCurrent (nameAddSuffix name) s) =
      getDefaultConfig st := by
    funext other
    rw [getDefaultConfig, table_put_of_ne (by decide)]
    rfl
  rw [view, current, default]
  rfl

theorem view_put_default {st : State V T} (name : String) (s : Entry V) :
    view (st.put .cfgDefault (nameAddSuffix (nameAddPrefix name)) s) =
      { view st with default := Function.update (view st).default name (some s.value) } := by
  have current : getConfig (st.put .cfgDefault (nameAddSuffix (nameAddPrefix name)) s) =
      getConfig st := by
    funext other
    rw [getConfig, table_put_of_ne (by decide)]
    rfl
  have default : getDefaultConfig (st.put .cfgDefault (nameAddSuffix (nameAddPrefix name)) s) =
      Function.update (getDefaultConfig st) name (some s.value) := by
    funext other
    by_cases same : other = name
    · subst same
      simp [getDefaultConfig, table_put]
    · have apart : nameAddSuffix (nameAddPrefix other) ≠ nameAddSuffix (nameAddPrefix name) :=
        fun h => same (nameAddPrefix_injective (nameAddSuffix_injective h))
      simp [getDefaultConfig, table_put, same, apart]
  rw [view, current, default]
  rfl

@[simp]
theorem view_writeMemoryToFile (json : Json V T) (st : State V T) (value : V) (path : Path) :
    view (st.writeMemoryToFile json value path) = view st := rfl

theorem default_eq (st : State V T) (name : String) : (view st).default name =
    (st.table .cfgDefault (nameAddPrefix (nameAddSuffix name))).map Entry.value := by
  rw [prefix_suffix]
  rfl

theorem update_own {store : Store V} {name : String} {config : V}
    (own : store.current name = some config) :
    { store with current := Function.update store.current name (some config) } = store := by
  rw [← own, Function.update_eq_self]

theorem view_setConfig (json : Json V T) (st : State V T) (name : String) (config : V) :
    (view (setConfig json st name config).1, (setConfig json st name config).2) =
      (view st).setConfig name config := by
  rw [Store.setConfig, default_eq, setConfig]
  cases hs : st.table .cfgCurrent (nameAddSuffix name) with
  | none =>
      cases hd : st.table .cfgDefault (nameAddPrefix (nameAddSuffix name)) with
      | none => rfl
      | some d => simp [view_put_current, newConfigItem]
  | some s =>
      cases hd : st.table .cfgDefault (nameAddPrefix (nameAddSuffix name)) with
      | none => rfl
      | some d =>
          dsimp only [Option.map_some]
          split
          · rename_i same
            have own : (view st).current name = some config := by
              rw [← (json.compare_iff _ _).1 same]
              exact congrArg (Option.map Entry.value) hs
            rw [update_own own]
          · simp [view_put_current]

theorem snprintf_short {size : Nat} {text : String} (short : text.length < size) :
    snprintf size text = text := by
  rw [snprintf, List.take_of_length_le, String.ofList_toList]
  rw [String.length_toList]
  omega

/-- The names a caller may pass: a file name, short enough for the buffer of
`replace_object`. -/
structure ConfigName (name : String) : Prop where
  nonempty : name ≠ ""
  chars : ∀ c ∈ name.toList, c ≠ '/' ∧ c ≠ Char.ofNat 0
  short : (name ++ ".json").length < 128

theorem view_replaceObject (json : Json V T) (st : State V T) {name : String}
    (valid : ConfigName name) (config : V) :
    (view (replaceObject json st name config .cfgCurrent).1,
      (replaceObject json st name config .cfgCurrent).2) =
      (view st).replaceObject name config := by
  have current : (view st).current name =
      (st.table .cfgCurrent (nameAddSuffix name)).map Entry.value := rfl
  have short : snprintf 128 (name ++ ".json") = nameAddSuffix name := snprintf_short valid.short
  rw [Store.replaceObject, current, replaceObject]
  dsimp only
  rw [short]
  cases hs : st.table .cfgCurrent (nameAddSuffix name) with
  | none => rfl
  | some s => simp [view_put_current]

theorem view_setDefaultConfig [DecidableEq V] (json : Json V T) (st : State V T) (name : String) (config : V) :
    (view (setDefaultConfig json st name config).1, (setDefaultConfig json st name config).2) =
      (view st).setDefaultConfig name config := by
  have default : (view st).default name =
      (st.table .cfgDefault (nameAddSuffix (nameAddPrefix name))).map Entry.value := rfl
  have current : (view st).current name =
      (st.table .cfgCurrent (nameAddSuffix name)).map Entry.value := rfl
  -- a state whose default is `config` already
  have next : ∀ st' : State V T, (view st').default name = some config →
      view (setConfig json st' name config).1 =
        { view st' with current := Function.update (view st').current name (some config) } := by
    intro st' given
    have both := view_setConfig json st' name config
    rw [Store.setConfig, given] at both
    exact congrArg Prod.fst both
  rw [Store.setDefaultConfig, default, current, setDefaultConfig]
  cases hd : st.table .cfgDefault (nameAddSuffix (nameAddPrefix name)) with
  | none =>
      dsimp only
      rw [next _ (by simp [view_put_default, newConfigItem])]
      simp [view_put_default, newConfigItem]
  | some d =>
      dsimp only
      split
      · rename_i same
        have own := (json.compare_iff _ _).1 same
        have given : (view st).default name = some config := by rw [default, hd, ← own]; rfl
        cases hs : st.table .cfgCurrent (nameAddSuffix name) with
        | none =>
            dsimp only
            rw [next st given]
            simp [← given]
        | some s => simp [own]
      · rename_i other
        have apart : d.value ≠ config := fun same => other ((json.compare_iff _ _).2 same)
        rw [next _ (by simp [view_put_default])]
        simp [view_put_default, apart]

/-! ## The files -/

/-- The entry that start-up makes of a file. -/
def loaded (json : Json V T) (st : State V T) (type : ConfigType) (name : String) :
    Option (Entry V) :=
  if Dotted name then none
  else
    ((st.files type name).bind json.parse).map fun value =>
      newConfigItem name value
        (if strstr (Path.text ⟨type, name⟩) "default" then .cfgDefault else .cfgCurrent)

@[simp]
theorem files_put (st : State V T) (type : ConfigType) (name : String) (s : Entry V) :
    (st.put type name s).files = st.files := rfl

theorem files_writeMemoryToFile (json : Json V T) (st : State V T) (value : V) (path : Path)
    (type : ConfigType) (name : String) : (st.writeMemoryToFile json value path).files type name =
      if type = path.directory ∧ name = path.file then some (json.print value)
      else st.files type name := by
  rw [State.writeMemoryToFile]
  dsimp only
  by_cases same : type = path.directory
  · subst same
    simp [Function.update_apply]
  · simp [same]

theorem files_loadFile (json : Json V T) (type : ConfigType) (st : State V T) (name : String) :
    (loadFile json type st name).files = st.files := by
  unfold loadFile addConfigItem
  split
  · rfl
  · dsimp only
    split
    · rfl
    · split <;> rfl

theorem table_loadFile_of_ne (json : Json V T) {type other : ConfigType} (apart : other ≠ type)
    (st : State V T) (name : String) :
    (loadFile json type st name).table other = st.table other := by
  unfold loadFile addConfigItem
  split
  · rfl
  · dsimp only
    split
    · rfl
    · split <;> exact table_put_of_ne apart _ _

theorem table_loadFile (json : Json V T) (type : ConfigType) (st : State V T) {name : String}
    (absent : st.table type name = none) :
    (loadFile json type st name).table type =
      Function.update (st.table type) name (loaded json st type name) := by
  have same : Function.update (st.table type) name none = st.table type := by
    rw [← absent, Function.update_eq_self]
  unfold loadFile loaded
  split
  · exact same.symm
  · dsimp only
    cases (st.files type name).bind json.parse with
    | none => exact same.symm
    | some value =>
        dsimp only [addConfigItem, Option.map_some]
        rw [absent]
        exact table_put _ _ _

theorem files_configHashInit (json : Json V T) (type : ConfigType) (listing : List String)
    (st : State V T) : (configHashInit json type listing st).files = st.files := by
  induction listing generalizing st with
  | nil => rfl
  | cons name rest ih => exact (ih _).trans (files_loadFile json type st name)

theorem table_configHashInit_of_ne (json : Json V T) {type other : ConfigType}
    (apart : other ≠ type) (listing : List String) (st : State V T) :
    (configHashInit json type listing st).table other = st.table other := by
  induction listing generalizing st with
  | nil => rfl
  | cons name rest ih => exact (ih _).trans (table_loadFile_of_ne json apart st name)

theorem table_configHashInit (json : Json V T) (type : ConfigType) {listing : List String}
    (distinct : listing.Nodup) {st : State V T}
    (absent : ∀ name ∈ listing, st.table type name = none) (name : String) :
    (configHashInit json type listing st).table type name =
      if name ∈ listing then loaded json st type name else st.table type name := by
  induction listing generalizing st with
  | nil => rfl
  | cons first rest ih =>
      obtain ⟨fresh, distinct⟩ := List.nodup_cons.1 distinct
      have table := table_loadFile json type st (absent first List.mem_cons_self)
      have later : ∀ other ∈ rest, (loadFile json type st first).table type other = none := by
        intro other member
        have apart : other ≠ first := by
          rintro rfl
          exact fresh member
        rw [table, Function.update_of_ne apart]
        exact absent other (List.mem_cons_of_mem first member)
      have files : loaded json (loadFile json type st first) type name =
          loaded json st type name := by
        rw [loaded, loaded, files_loadFile]
      change (configHashInit json type rest (loadFile json type st first)).table type name = _
      rw [ih distinct later, files, table]
      by_cases same : name = first
      · subst same
        simp [fresh]
      · simp [same]

/-- `readdir` finds every file once. -/
def Lists (st : State V T) (listing : ConfigType → List String) : Prop :=
  ∀ type, (listing type).Nodup ∧ ∀ name, name ∈ listing type ↔ st.files type name ≠ none

theorem loaded_absent {json : Json V T} {st : State V T} {type : ConfigType} {name : String}
    (absent : st.files type name = none) : loaded json st type name = none := by
  rw [loaded, absent]
  split <;> rfl

/-- After a restart, the tables hold what is loaded from the files. -/
theorem table_restart (json : Json V T) {listing : ConfigType → List String} {st : State V T}
    (lists : Lists st listing) (type : ConfigType) (name : String) :
    (restart json listing st).table type name = loaded json st type name := by
  have found : ∀ type, (if name ∈ listing type then loaded json st type name else none) =
      loaded json st type name := by
    intro type
    split
    · rfl
    · rename_i missing
      rw [(lists type).2, not_not] at missing
      exact (loaded_absent missing).symm
  unfold restart configManageInit
  cases type with
  | cfgDefault =>
      rw [table_configHashInit_of_ne json (by decide),
        table_configHashInit json .cfgDefault (lists .cfgDefault).1 (fun _ _ => rfl)]
      exact found .cfgDefault
  | cfgCurrent =>
      rw [table_configHashInit json .cfgCurrent (lists .cfgCurrent).1 ?_]
      · rw [table_configHashInit_of_ne json (by decide), loaded, files_configHashInit]
        exact found .cfgCurrent
      · intro other _
        rw [table_configHashInit_of_ne json (by decide)]

theorem files_restart (json : Json V T) (listing : ConfigType → List String) (st : State V T) :
    (restart json listing st).files = st.files := by
  rw [restart, configManageInit, files_configHashInit, files_configHashInit]

/-- The directories hold what the tables hold. -/
structure Kept (json : Json V T) (st : State V T) : Prop where
  files : ∀ type name, st.files type name =
    (st.table type name).map fun s => json.print s.value
  paths : ∀ type name s, st.table type name = some s → s.path.file = name
  defaults : ∀ name s, st.table .cfgDefault name = some s →
    s.path.directory = .cfgDefault ∧ ¬ Dotted name

/-- An entry put into a table and written to its own file. -/
theorem kept_put {json : Json V T} {st : State V T} (kept : Kept json st) {type : ConfigType}
    {name : String} {s : Entry V} (home : s.path = ⟨type, name⟩)
    (plain : type = .cfgDefault → ¬ Dotted name) :
    Kept json ((st.put type name s).writeMemoryToFile json s.value s.path) := by
  have table : ∀ other key, ((st.put type name s).writeMemoryToFile json s.value s.path).table
      other key = if other = type ∧ key = name then some s else st.table other key :=
    fun other key => table_put_apply st type other name key s
  have files : ∀ other key, ((st.put type name s).writeMemoryToFile json s.value s.path).files
      other key =
        if other = type ∧ key = name then some (json.print s.value) else st.files other key := by
    intro other key
    rw [files_writeMemoryToFile, home, files_put]
  constructor
  · intro other key
    rw [files, table]
    split
    · rfl
    · exact kept.files other key
  · intro other key e found
    rw [table] at found
    split at found
    · rename_i here
      cases found
      rw [home, here.2]
    · exact kept.paths other key e found
  · intro key e found
    rw [table] at found
    split at found
    · rename_i here
      cases found
      obtain ⟨rfl, rfl⟩ := here
      exact ⟨by rw [home], plain rfl⟩
    · exact kept.defaults key e found

/-- The current entry of `name`, if there is one, is written to the current directory. -/
def Home (st : State V T) (name : String) : Prop :=
  ∀ s, st.table .cfgCurrent (nameAddSuffix name) = some s → s.path.directory = .cfgCurrent

theorem kept_setConfig {json : Json V T} {st : State V T} (kept : Kept json st) {name : String}
    {config : V} (home : getDefaultConfig st name ≠ none → getConfig st name ≠ some config →
      Home st name) : Kept json (setConfig json st name config).1 := by
  have default := default_eq st name
  rw [setConfig]
  cases hs : st.table .cfgCurrent (nameAddSuffix name) with
  | none =>
      cases hd : st.table .cfgDefault (nameAddPrefix (nameAddSuffix name)) with
      | none => exact kept
      | some d => exact kept_put kept rfl (fun same => by cases same)
  | some s =>
      cases hd : st.table .cfgDefault (nameAddPrefix (nameAddSuffix name)) with
      | none => exact kept
      | some d =>
          dsimp only
          split
          · exact kept
          · rename_i other
            refine kept_put kept ?_ (fun same => by cases same)
            have given : getDefaultConfig st name ≠ none := by
              rw [hd] at default
              intro none
              cases default.symm.trans none
            have changed : getConfig st name ≠ some config := by
              intro same
              rw [getConfig, hs] at same
              exact other ((json.compare_iff _ _).2 (Option.some.inj same))
            have directory := home given changed s hs
            have file := kept.paths _ _ s hs
            change s.path = _
            rw [← directory, ← file]

theorem default_not_dotted (name : String) : ¬ Dotted (nameAddSuffix (nameAddPrefix name)) := by
  simp [Dotted, nameAddSuffix, nameAddPrefix, String.toList_append]

theorem kept_setDefaultConfig {json : Json V T} {st : State V T} (kept : Kept json st)
    {name : String} {config : V} (home : getDefaultConfig st name ≠ some config →
      getConfig st name ≠ some config → Home st name) :
    Kept json (setDefaultConfig json st name config).1 := by
  have plain := default_not_dotted name
  rw [setDefaultConfig]
  cases hd : st.table .cfgDefault (nameAddSuffix (nameAddPrefix name)) with
  | none =>
      dsimp only
      have added := kept_put kept
        (s := newConfigItem (nameAddSuffix (nameAddPrefix name)) config .cfgDefault) rfl
        fun _ => plain
      refine kept_setConfig added fun _ changed => ?_
      have absent : getDefaultConfig st name ≠ some config := by
        rw [getDefaultConfig, hd]
        simp
      exact home absent changed
  | some d =>
      dsimp only
      split
      · cases hs : st.table .cfgCurrent (nameAddSuffix name) with
        | none =>
            apply kept_setConfig kept
            intro _ _ s found
            rw [hs] at found
            cases found
        | some s => exact kept
      · rename_i other
        have path : d.path = ⟨.cfgDefault, nameAddSuffix (nameAddPrefix name)⟩ := by
          rw [← (kept.defaults _ d hd).1, ← kept.paths _ _ d hd]
        have written := kept_put kept (s := { d with value := config }) path fun _ => plain
        refine kept_setConfig written fun _ changed => ?_
        have different : getDefaultConfig st name ≠ some config := by
          rw [getDefaultConfig, hd]
          intro same
          exact other ((json.compare_iff _ _).2 (Option.some.inj same))
        exact home different changed

theorem kept_replaceObject {json : Json V T} {st : State V T} (kept : Kept json st)
    {name : String} (valid : ConfigName name) (home : Home st name) (config : V) :
    Kept json (replaceObject json st name config .cfgCurrent).1 := by
  have short : snprintf 128 (name ++ ".json") = nameAddSuffix name := snprintf_short valid.short
  rw [replaceObject]
  dsimp only
  rw [short]
  cases hs : st.table .cfgCurrent (nameAddSuffix name) with
  | none => exact kept
  | some s =>
      refine kept_put kept ?_ (fun same => by cases same)
      have directory := home s hs
      have file := kept.paths _ _ s hs
      change s.path = _
      rw [← directory, ← file]

/-! ## Restarts -/

theorem strstr_default (name : String) :
    strstr (Path.text ⟨.cfgDefault, name⟩) "default" = true := by
  rw [strstr, decide_eq_true_iff, Path.text, String.toList_append, String.toList_append]
  have inside : "default".toList <:+: (ConfigType.directory .cfgDefault).toList :=
    ⟨"/home/zlgmcu/project/learnC++/src/config/config_path/".toList, [], by decide⟩
  exact (inside.trans (List.infix_append' [] _ _)).trans (List.infix_append' [] _ _)

/-- What is kept and not skipped is loaded with its value. -/
theorem loaded_of_kept {json : Json V T} {st : State V T} (kept : Kept json st)
    {type : ConfigType} {name : String}
    (plain : st.files type name ≠ none → ¬ Dotted name) :
    loaded json st type name = (st.table type name).map fun s =>
      newConfigItem name s.value
        (if strstr (Path.text ⟨type, name⟩) "default" then .cfgDefault else .cfgCurrent) := by
  have file := kept.files type name
  cases found : st.table type name with
  | none =>
      rw [found] at file
      exact loaded_absent file
  | some s =>
      rw [found] at file
      have present : st.files type name ≠ none := by simp [file]
      rw [loaded, if_neg (plain present), file]
      simp [json.parse_print]

/-- No current configuration has a name that start-up skips. -/
def NoneHidden (st : State V T) : Prop :=
  ∀ name, st.files .cfgCurrent name ≠ none → ¬ Dotted name

theorem not_dotted_of_kept {json : Json V T} {st : State V T} (kept : Kept json st)
    (seen : NoneHidden st) (type : ConfigType) (name : String)
    (present : st.files type name ≠ none) : ¬ Dotted name := by
  cases type with
  | cfgCurrent => exact seen name present
  | cfgDefault =>
      rw [kept.files] at present
      cases found : st.table .cfgDefault name with
      | none => simp [found] at present
      | some s => exact (kept.defaults name s found).2

theorem table_restart_of_kept {json : Json V T} {st : State V T} (kept : Kept json st)
    (seen : NoneHidden st) {listing : ConfigType → List String} (lists : Lists st listing)
    (type : ConfigType) (name : String) :
    (restart json listing st).table type name = (st.table type name).map fun s =>
      newConfigItem name s.value
        (if strstr (Path.text ⟨type, name⟩) "default" then .cfgDefault else .cfgCurrent) := by
  rw [table_restart json lists]
  exact loaded_of_kept kept (not_dotted_of_kept kept seen type name)

theorem view_restart {json : Json V T} {st : State V T} (kept : Kept json st)
    (seen : NoneHidden st) {listing : ConfigType → List String} (lists : Lists st listing) :
    view (restart json listing st) = view st := by
  have current : getConfig (restart json listing st) = getConfig st := by
    funext name
    rw [getConfig, table_restart_of_kept kept seen lists, Option.map_map]
    rfl
  have default : getDefaultConfig (restart json listing st) = getDefaultConfig st := by
    funext name
    rw [getDefaultConfig, table_restart_of_kept kept seen lists, Option.map_map]
    rfl
  rw [view, current, default]
  rfl

theorem kept_restart {json : Json V T} {st : State V T} (kept : Kept json st)
    (seen : NoneHidden st) {listing : ConfigType → List String} (lists : Lists st listing) :
    Kept json (restart json listing st) := by
  have table := table_restart_of_kept kept seen lists
  constructor
  · intro type name
    rw [files_restart, table, kept.files, Option.map_map]
    rfl
  · intro type name s found
    rw [table] at found
    obtain ⟨before, -, rfl⟩ := Option.map_eq_some_iff.1 found
    rfl
  · intro name s found
    rw [table] at found
    obtain ⟨before, inTable, rfl⟩ := Option.map_eq_some_iff.1 found
    rw [strstr_default]
    exact ⟨rfl, (kept.defaults name before inTable).2⟩

/-! ## What happens elsewhere -/

theorem prefix_cons_eq_nil {α : Type} {needle right : List α} {c : α} (apart : c ∉ needle)
    (start : needle <+: c :: right) : needle = [] := by
  cases needle with
  | nil => rfl
  | cons d needle =>
      obtain ⟨rfl, -⟩ := List.cons_prefix_cons.1 start
      simp at apart

/-- A needle without the character in the middle lies on one side of it. -/
theorem infix_across {α : Type} {needle left right : List α} {c : α} (apart : c ∉ needle) :
    needle <:+: left ++ c :: right ↔ needle <:+: left ∨ needle <:+: right := by
  rw [List.infix_append_iff_ne_nil, List.infix_cons_iff]
  constructor
  · rintro (inside | (start | inside) | ⟨first, second, -, nonempty, rfl, -, start⟩)
    · exact .inl inside
    · rw [prefix_cons_eq_nil apart start]
      exact .inl List.nil_infix
    · exact .inr inside
    · exact absurd (prefix_cons_eq_nil (fun member => apart (List.mem_append_right _ member)) start)
        nonempty
  · rintro (inside | inside)
    · exact .inl inside
    · exact .inr (.inl (.inr inside))

/-- The path of a current file contains `default` exactly when the file's name does. -/
theorem strstr_current_iff (file : String) :
    strstr (Path.text ⟨.cfgCurrent, file⟩) "default" = true ↔
      "default".toList <:+: file.toList := by
  have split : (Path.text ⟨.cfgCurrent, file⟩).toList =
      (ConfigType.directory .cfgCurrent).toList ++ '/' :: file.toList := by
    simp [Path.text, String.toList_append]
  have apart : ¬ "default".toList <:+: (ConfigType.directory .cfgCurrent).toList := by
    decide +kernel
  rw [strstr, decide_eq_true_iff, split, infix_across (by decide)]
  exact or_iff_right apart

/-- The suffix adds no `default`. -/
theorem default_in_suffix_iff (name : String) :
    "default".toList <:+: (nameAddSuffix name).toList ↔ "default".toList <:+: name.toList := by
  have split : (nameAddSuffix name).toList = name.toList ++ '.' :: "json".toList := by
    simp [nameAddSuffix, String.toList_append]
  rw [split, infix_across (by decide)]
  exact or_iff_left (by decide)

theorem setConfig_overwrite {json : Json V T} {st : State V T} {name : String} {config : V}
    {s d : Entry V} (hs : st.table .cfgCurrent (nameAddSuffix name) = some s)
    (hd : st.table .cfgDefault (nameAddSuffix (nameAddPrefix name)) = some d)
    (changed : s.value ≠ config) :
    setConfig json st name config =
      ((st.put .cfgCurrent (nameAddSuffix name) { s with value := config }).writeMemoryToFile json
        config s.path, true) := by
  rw [← prefix_suffix] at hd
  rw [setConfig, hs, hd]
  dsimp only
  rw [if_neg (fun same => changed ((json.compare_iff _ _).1 same))]

/-- A current entry that is not at home is there because it was loaded and its name contains
`default`. -/
theorem loaded_elsewhere_iff {json : Json V T} {st : State V T}
    {listing : ConfigType → List String} (lists : Lists st listing) {name : String} {s : Entry V}
    (found : (restart json listing st).table .cfgCurrent (nameAddSuffix name) = some s) :
    s.path.directory = .cfgDefault ↔ "default".toList <:+: name.toList := by
  rw [table_restart json lists, loaded] at found
  split at found
  · cases found
  · obtain ⟨value, -, rfl⟩ := Option.map_eq_some_iff.1 found
    rw [← default_in_suffix_iff, ← strstr_current_iff]
    dsimp only [newConfigItem]
    cases strstr (Path.text ⟨.cfgCurrent, nameAddSuffix name⟩) "default" <;> simp

/-- Where it is overwritten then, the next restart brings back the old value. -/
theorem overwrite_elsewhere_is_lost {json : Json V T} {st : State V T} (kept : Kept json st)
    {name : String} {config old : V} (given : getDefaultConfig st name ≠ none)
    (before : getConfig st name = some old) (changed : old ≠ config) (away : ¬ Home st name)
    (plain : ¬ Dotted (nameAddSuffix name)) {listing : ConfigType → List String}
    (lists : Lists (setConfig json st name config).1 listing) :
    getConfig (restart json listing (setConfig json st name config).1) name = some old := by
  obtain ⟨s, hs, rfl⟩ := Option.map_eq_some_iff.1 before
  obtain ⟨d, hd⟩ : ∃ d, st.table .cfgDefault (nameAddSuffix (nameAddPrefix name)) = some d := by
    cases found : st.table .cfgDefault (nameAddSuffix (nameAddPrefix name)) with
    | none => simp [getDefaultConfig, found] at given
    | some d => exact ⟨d, rfl⟩
  have elsewhere : s.path.directory ≠ .cfgCurrent := by
    intro home
    apply away
    intro s' hs'
    rw [← Option.some.inj (hs.symm.trans hs')]
    exact home
  have file : (setConfig json st name config).1.files .cfgCurrent (nameAddSuffix name) =
      some (json.print s.value) := by
    rw [setConfig_overwrite hs hd changed]
    dsimp only [State.writeMemoryToFile]
    rw [Function.update_of_ne elsewhere.symm, files_put, kept.files, hs]
    rfl
  rw [getConfig, table_restart json lists, loaded, if_neg plain, file]
  simp [json.parse_print, newConfigItem]

/-- A current value under a name that begins with a dot is gone after a restart. -/
theorem hidden_is_lost {json : Json V T} {st : State V T} {name : String}
    (hidden : Dotted (nameAddSuffix name)) {listing : ConfigType → List String}
    (lists : Lists st listing) : getConfig (restart json listing st) name = none := by
  rw [getConfig, table_restart json lists, loaded, if_pos hidden]
  rfl

/-! ## Runs -/

/-- What is asked of a call and of a restart from outside. -/
def Allowed (st : State V T) : Op V → Prop
  | .setDefaultConfig name _ | .setConfig name _ | .replaceObject name _ => ConfigName name
  | .restart listing => Lists st listing

/-- A call that overwrites a current entry finds its path in the current directory, and a
restart finds no current file whose name begins with a dot. -/
def Fits (st : State V T) : Op V → Prop
  | .setDefaultConfig name config =>
      getDefaultConfig st name ≠ some config → getConfig st name ≠ some config → Home st name
  | .setConfig name config =>
      getDefaultConfig st name ≠ none → getConfig st name ≠ some config → Home st name
  | .replaceObject name _ => Home st name
  | .restart _ => NoneHidden st

theorem kept_perform {json : Json V T} {st : State V T} (kept : Kept json st) {op : Op V}
    (allowed : Allowed st op) (fits : Fits st op) : Kept json (perform json st op).1 := by
  cases op with
  | setDefaultConfig name config => exact kept_setDefaultConfig kept fits
  | setConfig name config => exact kept_setConfig kept fits
  | replaceObject name config => exact kept_replaceObject kept allowed fits config
  | restart listing => exact kept_restart kept fits allowed

/-- A step of the code is the step of the store. -/
theorem view_perform [DecidableEq V] {json : Json V T} {st : State V T} (kept : Kept json st)
    {op : Op V} (allowed : Allowed st op) (fits : Fits st op) :
    (view (perform json st op).1, (perform json st op).2) = (view st).perform op := by
  cases op with
  | setDefaultConfig name config => exact view_setDefaultConfig json st name config
  | setConfig name config => exact view_setConfig json st name config
  | replaceObject name config => exact view_replaceObject json st allowed config
  | restart listing => exact congrArg (·, true) (view_restart kept fits allowed)

/-- Nothing is configured, and there are no files. -/
def State.empty : State V T := ⟨fun _ _ => none, fun _ _ => none⟩

def Store.empty : Store V := ⟨fun _ => none, fun _ => none⟩

def step (json : Json V T) (st : State V T) (op : Op V) : Option (State V T) :=
  some (perform json st op).1

def answer (json : Json V T) (st : State V T) (op : Op V) : Option Bool :=
  some (perform json st op).2

namespace Store

variable [DecidableEq V]

def step (store : Store V) (op : Op V) : Option (Store V) := some (store.perform op).1

def answer (store : Store V) (op : Op V) : Option Bool := some (store.perform op).2

end Store

/-- What the calls of a run gave to the names. -/
def given [DecidableEq V] (run : List (Op V)) : Store V :=
  run.foldl (fun store op => (store.perform op).1) Store.empty

theorem kept_empty (json : Json V T) : Kept json (State.empty : State V T) := by
  constructor
  · intro type name
    rfl
  · intro type name s found
    cases found
  · intro name s found
    cases found

/-- In a run in which no current entry is written elsewhere and no current file is hidden,
the calls answer as those of the store do, and after any number of restarts the getters return
what the calls gave. -/
theorem configs_survive_restarts [DecidableEq V] (json : Json V T) {run : List (Op V)}
    {st : State V T} (allowed : Along (step json) Allowed State.empty run)
    (fits : Along (step json) Fits State.empty run)
    (ran : exec (step json) State.empty run = some st) :
    observe (step json) (answer json) State.empty run =
        observe Store.step Store.answer Store.empty run ∧
      ∀ name, getConfig st name = (given run).current name ∧
        getDefaultConfig st name = (given run).default name := by
  have matched : ∀ (s : State V T) (s' : Store V) (op : Op V) (t : State V T),
      Allowed s op ∧ Fits s op → Kept json s ∧ view s = s' → step json s op = some t →
        answer json s op = Store.answer s' (id op) ∧
          ∃ t', Store.step s' (id op) = some t' ∧ Kept json t ∧ view t = t' := by
    rintro s s' op t ⟨allowed, fits⟩ ⟨kept, rfl⟩ ⟨⟩
    have both := view_perform kept allowed fits
    refine ⟨congrArg (some ∘ Prod.snd) both, _, rfl, kept_perform kept allowed fits, ?_⟩
    exact congrArg Prod.fst both
  obtain ⟨answers, store, ran', -, same⟩ :=
    exec_simulation (f := id) (C := fun s op => Allowed s op ∧ Fits s op)
      (R := fun s s' => Kept json s ∧ view s = s') matched (along_and allowed fits)
      ⟨kept_empty json, rfl⟩ ran
  rw [List.map_id] at answers ran'
  refine ⟨answers, fun name => ?_⟩
  have total : exec Store.step Store.empty run = some (given run) := exec_total _ _ _
  obtain rfl : store = given run := Option.some.inj (ran'.symm.trans total)
  rw [← same]
  exact ⟨rfl, rfl⟩

/-! ## Two runs -/

/-- A write to a file that is there adds nothing to the listing. -/
theorem lists_overwritten (json : Json V T) {st : State V T}
    {listing : ConfigType → List String} (lists : Lists st listing) (path : Path)
    (there : path.file ∈ listing path.directory) (value : V) :
    Lists (st.writeMemoryToFile json value path) listing := by
  intro type
  refine ⟨(lists type).1, fun name => ?_⟩
  rw [files_writeMemoryToFile]
  split
  · rename_i same
    obtain ⟨rfl, rfl⟩ := same
    simp [there]
  · exact (lists type).2 name

/-- A write to a new file adds it. -/
theorem lists_added (json : Json V T) {st : State V T} {listing : ConfigType → List String}
    (lists : Lists st listing) (path : Path) (fresh : path.file ∉ listing path.directory)
    (value : V) :
    Lists (st.writeMemoryToFile json value path)
      (Function.update listing path.directory (path.file :: listing path.directory)) := by
  intro type
  by_cases same : type = path.directory
  · subst same
    rw [Function.update_self]
    refine ⟨List.nodup_cons.2 ⟨fresh, (lists _).1⟩, fun name => ?_⟩
    rw [files_writeMemoryToFile, List.mem_cons, (lists _).2]
    by_cases here : name = path.file <;> simp [here]
  · rw [Function.update_of_ne same]
    refine ⟨(lists type).1, fun name => ?_⟩
    rw [files_writeMemoryToFile, if_neg (fun both => same both.1)]
    exact (lists type).2 name

theorem Lists.put {st : State V T} {listing : ConfigType → List String} (lists : Lists st listing)
    (type : ConfigType) (name : String) (s : Entry V) : Lists (st.put type name s) listing :=
  lists

theorem Lists.restart {json : Json V T} {st : State V T} {listing : ConfigType → List String}
    (lists : Lists st listing) (order : ConfigType → List String) :
    Lists (restart json order st) listing := by
  intro type
  rw [files_restart]
  exact lists type

/-- The files of one configuration. -/
def filesOf (name : String) : ConfigType → List String
  | .cfgDefault => [nameAddSuffix (nameAddPrefix name)]
  | .cfgCurrent => [nameAddSuffix name]

/-- The first call for a configuration makes its two files. -/
theorem lists_first (json : Json V T) (name : String) (config : V) :
    Lists (setDefaultConfig json State.empty name config).1 (filesOf name) := by
  have absent : (State.empty : State V T).table = fun _ _ => none := rfl
  have files : (setDefaultConfig json State.empty name config).1.files =
      ((State.empty.writeMemoryToFile json config
        ⟨.cfgDefault, nameAddSuffix (nameAddPrefix name)⟩).writeMemoryToFile json config
          ⟨.cfgCurrent, nameAddSuffix name⟩).files := by
    simp [setDefaultConfig, setConfig, absent, State.put, State.writeMemoryToFile, prefix_suffix,
      newConfigItem]
  have none : Lists (State.empty : State V T) fun _ => [] := by
    intro type
    simp [State.empty]
  have both := lists_added json
    (lists_added json none ⟨.cfgDefault, nameAddSuffix (nameAddPrefix name)⟩ (by simp) config)
    ⟨.cfgCurrent, nameAddSuffix name⟩ (by simp) config
  intro type
  rw [files]
  have here := both type
  cases type with
  | cfgDefault | cfgCurrent => simpa [filesOf] using here

/-- Whole numbers, printed and compared as they are. -/
def numbers : Json Nat Nat := ⟨id, some, fun x y => x == y, fun _ => rfl, fun x y => by simp⟩

/-- A configuration that is given a default and, after a restart, another value. -/
def changedRun (name : String) (listing : ConfigType → List String) : List (Op Nat) :=
  [.setDefaultConfig name 1, .restart (filesOf name), .setConfig name 2, .restart listing]

/-- The state before the second value is set. -/
def reloaded (name : String) : State Nat Nat :=
  restart numbers (filesOf name) (setDefaultConfig numbers State.empty name 1).1

section Reloaded

variable {name : String} (plain : ¬ Dotted (nameAddSuffix name))

theorem kept_first (name : String) : Kept numbers (setDefaultConfig numbers State.empty name 1).1 :=
  kept_setDefaultConfig (kept_empty numbers) fun _ _ s found => by cases found

theorem noneHidden_of_filesOf {st : State Nat Nat} (lists : Lists st (filesOf name))
    (plain : ¬ Dotted (nameAddSuffix name)) : NoneHidden st := by
  intro file present
  have member := ((lists .cfgCurrent).2 file).2 present
  rw [List.mem_singleton.1 member]
  exact plain

include plain

theorem kept_reloaded : Kept numbers (reloaded name) :=
  kept_restart (kept_first name) (noneHidden_of_filesOf (lists_first numbers name 1) plain)
    (lists_first numbers name 1)

theorem getters_reloaded :
    getConfig (reloaded name) name = some 1 ∧ getDefaultConfig (reloaded name) name = some 1 := by
  have same := view_restart (kept_first name)
    (noneHidden_of_filesOf (lists_first numbers name 1) plain) (lists_first numbers name 1)
  have first := congrArg Prod.fst (view_setDefaultConfig numbers State.empty name 1)
  have both : view (reloaded name) = ⟨Function.update (fun _ => none) name (some 1),
      Function.update (fun _ => none) name (some 1)⟩ := same.trans first
  have current : getConfig (reloaded name) = Function.update (fun _ => none) name (some 1) :=
    congrArg Store.current both
  have default : getDefaultConfig (reloaded name) = Function.update (fun _ => none) name (some 1) :=
    congrArg Store.default both
  rw [current, default, Function.update_self]
  exact ⟨rfl, rfl⟩

/-- The current entry, with the path that start-up gave it. -/
theorem entry_reloaded : ∃ s, (reloaded name).table .cfgCurrent (nameAddSuffix name) = some s ∧
    s.value = 1 ∧ s.path.file = nameAddSuffix name ∧
    (s.path.directory = .cfgDefault ↔ "default".toList <:+: name.toList) := by
  obtain ⟨s, hs, value⟩ := Option.map_eq_some_iff.1 (getters_reloaded plain).1
  exact ⟨s, hs, value, (kept_reloaded plain).paths _ _ s hs,
    loaded_elsewhere_iff (lists_first numbers name 1) hs⟩

theorem changed_reloaded : ∃ s, (reloaded name).table .cfgCurrent (nameAddSuffix name) = some s ∧
    (setConfig numbers (reloaded name) name 2).1 =
      ((reloaded name).put .cfgCurrent (nameAddSuffix name) { s with value := 2 }).writeMemoryToFile
        numbers 2 s.path := by
  obtain ⟨s, hs, value, -⟩ := entry_reloaded plain
  obtain ⟨d, hd, -⟩ := Option.map_eq_some_iff.1 (getters_reloaded plain).2
  exact ⟨s, hs, by rw [setConfig_overwrite hs hd (by simp [value])]⟩

/-- The second value is written to the file that is there. -/
theorem lists_changed (home : ¬ "default".toList <:+: name.toList) :
    Lists (setConfig numbers (reloaded name) name 2).1 (filesOf name) := by
  obtain ⟨s, hs, -, file, directory⟩ := entry_reloaded plain
  obtain ⟨s', hs', same⟩ := changed_reloaded plain
  obtain rfl : s = s' := Option.some.inj (hs.symm.trans hs')
  have current : s.path.directory = .cfgCurrent := by
    cases hd : s.path.directory with
    | cfgDefault => exact absurd (directory.1 hd) home
    | cfgCurrent => rfl
  rw [same]
  refine lists_overwritten numbers (((lists_first numbers name 1).restart _).put _ _ _) s.path ?_ 2
  rw [current, file]
  exact List.mem_singleton.2 rfl

theorem home_reloaded (home : ¬ "default".toList <:+: name.toList) : Home (reloaded name) name := by
  obtain ⟨s, hs, -, -, directory⟩ := entry_reloaded plain
  intro s' hs'
  obtain rfl : s = s' := Option.some.inj (hs.symm.trans hs')
  cases hd : s.path.directory with
  | cfgDefault => exact absurd (directory.1 hd) home
  | cfgCurrent => rfl

/-- The second value is written to a file of the default directory. -/
theorem lists_straggler (away : "default".toList <:+: name.toList) :
    Lists (setConfig numbers (reloaded name) name 2).1
      (Function.update (filesOf name) .cfgDefault
        (nameAddSuffix name :: filesOf name .cfgDefault)) := by
  obtain ⟨s, hs, -, file, directory⟩ := entry_reloaded plain
  obtain ⟨s', hs', same⟩ := changed_reloaded plain
  obtain rfl : s = s' := Option.some.inj (hs.symm.trans hs')
  have path : s.path = ⟨.cfgDefault, nameAddSuffix name⟩ := by
    rw [← directory.2 away, ← file]
  have fresh : nameAddSuffix name ∉ filesOf name .cfgDefault := by
    intro member
    have lengths := congrArg String.length
      (nameAddSuffix_injective (List.mem_singleton.1 member))
    rw [nameAddPrefix, String.length_append] at lengths
    have eight : "default_".length = 8 := rfl
    omega
  rw [same, path]
  exact lists_added numbers (((lists_first numbers name 1).restart _).put _ _ _) _ fresh 2

end Reloaded

theorem allowed_changedRun {name : String} (valid : ConfigName name)
    {listing : ConfigType → List String}
    (lists : Lists (setConfig numbers (reloaded name) name 2).1 listing) :
    Along (step numbers) Allowed State.empty (changedRun name listing) := by
  refine along_cons rfl valid (along_cons rfl ?_ (along_cons rfl valid (along_cons rfl lists trivial)))
  exact lists_first numbers name 1

theorem exec_changedRun (name : String) (listing : ConfigType → List String) :
    exec (step numbers) State.empty (changedRun name listing) =
      some (restart numbers listing (setConfig numbers (reloaded name) name 2).1) := rfl

theorem given_changedRun (name : String) (listing : ConfigType → List String) :
    (given (changedRun name listing)).current name = some 2 ∧
      (given (changedRun name listing)).default name = some 1 := by
  simp [given, changedRun, Store.perform, Store.setDefaultConfig, Store.setConfig, Store.empty]

theorem fits_changedRun {name : String} (plain : ¬ Dotted (nameAddSuffix name))
    (home : ¬ "default".toList <:+: name.toList) :
    Along (step numbers) Fits State.empty (changedRun name (filesOf name)) := by
  refine along_cons rfl ?_ (along_cons rfl ?_ (along_cons rfl ?_ (along_cons rfl ?_ trivial)))
  · intro _ _ s found
    cases found
  · exact noneHidden_of_filesOf (lists_first numbers name 1) plain
  · exact fun _ _ => home_reloaded plain home
  · exact noneHidden_of_filesOf (lists_changed plain home) plain

theorem configName_pcu : ConfigName "pcu" := ⟨by decide, by simp, by decide⟩

/-- The second value of `pcu` is there after the restart. -/
theorem pcu_survives_restarts :
    ∃ st, exec (step numbers) State.empty (changedRun "pcu" (filesOf "pcu")) = some st ∧
      getConfig st "pcu" = some 2 ∧ getDefaultConfig st "pcu" = some 1 := by
  have plain : ¬ Dotted (nameAddSuffix "pcu") := by decide
  have home : ¬ "default".toList <:+: "pcu".toList := by decide
  obtain ⟨-, both⟩ := configs_survive_restarts numbers
    (allowed_changedRun configName_pcu (lists_changed plain home)) (fits_changedRun plain home)
    (exec_changedRun _ _)
  obtain ⟨current, default⟩ := given_changedRun "pcu" (filesOf "pcu")
  exact ⟨_, exec_changedRun _ _, (both "pcu").1.trans current, (both "pcu").2.trans default⟩

theorem configName_my_default : ConfigName "my_default" := ⟨by decide, by simp, by decide⟩

def strayFiles : ConfigType → List String :=
  Function.update (filesOf "my_default") .cfgDefault
    (nameAddSuffix "my_default" :: filesOf "my_default" .cfgDefault)

/-- The second value of `my_default` is not there after the restart: it was written to the
default directory, because the path of the reloaded entry contains `default`. -/
theorem my_default_loses_value :
    ∃ st, Along (step numbers) Allowed State.empty (changedRun "my_default" strayFiles) ∧
      exec (step numbers) State.empty (changedRun "my_default" strayFiles) = some st ∧
      (given (changedRun "my_default" strayFiles)).current "my_default" = some 2 ∧
      getConfig st "my_default" = some 1 := by
  have plain : ¬ Dotted (nameAddSuffix "my_default") := by decide
  have away : "default".toList <:+: "my_default".toList := ⟨"my_".toList, [], by decide⟩
  have lists := lists_straggler plain away
  obtain ⟨before, default⟩ := getters_reloaded plain
  obtain ⟨s, hs, -, -, directory⟩ := entry_reloaded plain
  refine ⟨_, allowed_changedRun configName_my_default lists, exec_changedRun _ _,
    (given_changedRun _ _).1, ?_⟩
  refine overwrite_elsewhere_is_lost (kept_reloaded plain) ?_ before (by decide) ?_ plain lists
  · rw [default]
    exact Option.some_ne_none 1
  · intro home
    cases (directory.2 away).symm.trans (home s hs)

end ChargerStack.ConfigFiles.ConfigManage
