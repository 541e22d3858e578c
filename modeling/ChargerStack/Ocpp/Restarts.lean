/-
# Ocpp.Restarts -- the configuration over many lives of the process

A process starts (`initConfig`, then the rest of `initConfigModel`), its threads read and write
the configuration, the pool saves it half a second after a write, and the process dies at any
moment; then it starts again from what is in the files.  Every save opens the cached file anew: the
file cannot be opened and stays, or is cut off before the end of the text, or is written.  The texts
are RapidJSON's: `PrettyWriter` puts them and `Document::Parse` reads them.

* `Store` is what the configuration is for: one document in memory, and one that the next start
  begins with;
* `Storable`: what is written is read back, and can be started with; every step keeps that;
* `restarts_refine`: whatever the calls, the saves and the deaths, the process answers like the
  store.  No start fails, and a start begins with the document of the last save that was written;
  after one that was cut off, with the factory's.
-/
import ChargerStack.Ocpp.ChargePoint
import ChargerStack.Rapidjson.RoundTrip

namespace ChargerStack.Ocpp.Restarts

open Cxx Rapidjson Value Lib
open RoundTrip (Readable readable_object parse_text parse_text_front regular_pretty)
open Config (assignPath replaceMember defaultConfig)
open ConfigStore (Json Files State validated workingDoc loadJsonFromFile initConfig cacheFile)
open ChargePoint

set_option autoImplicit false

/-! ## Files -/

/-- What becomes of a file that is opened for writing. -/
inductive Writing where
  | refused
  /-- The process dies, or the disk is full, with one character and so many more to come. -/
  | cut (missing : Nat)
  | whole

/-- What is in the file afterwards, when it was opened. -/
def Writing.content (text : String) : Writing → Option String
  | .refused => none
  | .cut missing => some (String.ofList (text.toList.take (text.toList.length - (missing + 1))))
  | .whole => some text

def writeFile (files : Files) (path : String) : Option String → Files
  | none => files
  | some content => fun name => if name = cStr path then some content else files name

/-- The two outcomes of `saveJsonToFile` that leave no part of a text. -/
theorem saveJsonToFile_eq (json : Json) (files : Files) (doc : Value) (path : String)
    (written : Bool) :
    ConfigStore.saveJsonToFile json files doc path written =
      writeFile files path
        ((if written then Writing.whole else .refused).content (json.write doc)) := by
  cases written <;> rfl

/-- RapidJSON as `ConfigManager` uses it. -/
def rapidjson (strtod : List Char → Option Rat) (dtoa : Rat → List Char) : Json where
  parse := Reader.parse strtod
  write doc :=
    match Writer.write Writer.pretty dtoa doc with
    | .error _ => ""
    | .ok text => String.ofList text

/-! ## Lives -/

inductive Sys where
  | off (files : Files)
  /-- Behind `initConfig`. -/
  | loaded (manager : State)
  | up (manager : State)

def Sys.files : Sys → Files
  | .off files => files
  | .loaded manager => manager.files
  | .up manager => manager.files

inductive Label where
  | init (writing : Writing)
  /-- The rest of `initConfigModel`. -/
  | model (connectorNum : Nat) (ver : String) (opened : Bool)
  | setConfig (key : String) (value : Value)
  | getConfig (key : String)
  /-- A worker takes task `i`. -/
  | start (i : Nat)
  | save (i : Nat) (writing : Writing)
  | die

/-- An assertion ends the process. -/
def step (json : Json) (cfgPath : String) : Sys → Label → Option Sys
  | s, .die => some (.off s.files)
  | .off files, .init writing =>
      match initConfig json false { files := files } defaultConfigPath cfgPath false with
      | .error _ => some (.off files)
      | .ok s =>
          let content := writing.content (json.write s.currentDoc)
          some (.loaded { s with files := writeFile files s.cachedCfgPath content })
  | .loaded s, .model connectorNum ver opened =>
      match configModel s connectorNum ver opened with
      | .error _ => some (.off s.files)
      | .ok (_, t) => some (.up t)
  | .up s, .setConfig key value =>
      match ConfigStore.setConfig s key value with
      | .error _ => some (.off s.files)
      | .ok (_, t) => some (.up t)
  | .up s, .getConfig _ => some (.up s)
  | .up s, .start i => (ConfigStore.step json s (.start i)).map .up
  | .up s, .save i writing =>
      (ConfigStore.step json s (.save i false)).map fun t =>
        let content := writing.content (json.write s.currentDoc)
        .up { t with files := writeFile s.files s.cachedCfgPath content }
  | _, _ => none

/-- What a call returns. -/
inductive Answer where
  | set (returned : Bool)
  | got (out : Option Value)

def answer : Sys → Label → Option Answer
  | .up s, .setConfig key value =>
      match ConfigStore.setConfig s key value with
      | .error _ => none
      | .ok (returned, _) => some (.set returned)
  | .up s, .getConfig key => some (.got (Config.getConfig s.currentDoc key))
  | _, _ => none

/-! ## What the configuration is for -/

/-- The document in memory, while there is a process, and the one the next start begins with. -/
structure Store where
  live : Option Value
  kept : Value

def Store.write (factory doc : Value) (store : Store) : Writing → Store
  | .refused => store
  | .cut _ => { store with kept := factory }
  | .whole => { store with kept := doc }

/-- Whether a write is accepted, and the document afterwards. -/
def edited (key : String) (value doc : Value) : Bool × Value :=
  match Config.setConfig doc key value with
  | .error _ => (false, doc)
  | .ok result => result

def storeStep (factory : Value) (store : Store) : Label → Option Store
  | .init writing =>
      match store.live with
      | some _ => none
      | none => some ({ store with live := some store.kept }.write factory store.kept writing)
  | .model connectorNum ver _ =>
      store.live.bind fun doc =>
        match rewritten doc connectorNum ver with
        | .error _ => none
        | .ok changed => some { store with live := some changed }
  | .setConfig key value =>
      store.live.map fun doc => { store with live := some (edited key value doc).2 }
  | .getConfig _ | .start _ => store.live.map fun _ => store
  | .save _ writing => store.live.map fun doc => store.write factory doc writing
  | .die => some { store with live := none }

def storeAnswer (store : Store) : Label → Option Answer
  | .setConfig key value => store.live.map fun doc => .set (edited key value doc).1
  | .getConfig key => store.live.map fun doc => .got (Config.getConfig doc key)
  | _ => none

/-! ## What is kept and what is asked for -/

section Kept

variable (strtod : List Char → Option Rat) (dtoa : Rat → List Char) (cfgPath : String)

/-- What can be started with, and is read as it was written. -/
structure Storable (doc : Value) : Prop where
  bootable : Bootable doc
  readable : Readable strtod dtoa doc

/-- A start with these files begins with that document. -/
structure Boots (files : Files) (doc : Value) : Prop where
  valid : validated (workingDoc (rapidjson strtod dtoa) files defaultConfigPath (cacheFile cfgPath)) =
    .ok doc
  storable : Storable strtod dtoa doc

/-- The files without the cached one. -/
def lost (files : Files) : Files := fun name =>
  if name = cStr (cacheFile cfgPath) then none else files name

/-- The callers write settings and not sections, an `unsigned` for the number of connectors, and
numbers that are read as they are written. -/
def Sound : Sys → Label → Prop
  | .loaded _, .model connectorNum _ _ => connectorNum < 2 ^ 32
  | .up _, .setConfig key value =>
      Readable strtod dtoa value ∧ value.isObject = false ∧
        ((Config.pathOf key).map cStr = connectorsPath → value.isUint = true)
  | _, _ => True

end Kept

/-- What `loadJsonFromFile` makes of a content. -/
def loadText (json : Json) (content : String) : Option Value :=
  if content = "" then none
  else
    match json.parse (cStr content) with
    | none => none
    | some doc => if doc.isObject then some doc else none

/-! ## Texts of configurations -/

section Texts

variable {strtod : List Char → Option Rat} {dtoa : Rat → List Char} {doc value changed : Value}

theorem write_eq (doc : Value) : (rapidjson strtod dtoa).write doc =
    String.ofList (Writer.text Writer.pretty dtoa 0 doc) := by
  show (match Writer.write Writer.pretty dtoa doc with | .error _ => "" | .ok text => _) = _
  rw [Writer.write_eq]

theorem parse_cStr (text : String) :
    Reader.parse strtod (cStr text) = Reader.parse strtod text := by
  rw [Reader.parse, Reader.parse, cStr_cStr]

theorem length_text (ms : Members) :
    0 < (Writer.text Writer.pretty dtoa 0 (.object ms)).length := by
  rw [Writer.text]
  exact Nat.succ_pos _

/-- **A text that was written is loaded.** -/
theorem loadText_write (readable : Readable strtod dtoa doc) (object : doc.isObject = true) :
    loadText (rapidjson strtod dtoa) ((rapidjson strtod dtoa).write doc) = some doc := by
  have some_ : (rapidjson strtod dtoa).write doc ≠ "" := by
    obtain ⟨ms, rfl⟩ := isObject_iff.1 object
    rw [write_eq, ne_eq, String.ofList_eq_empty_iff]
    exact List.ne_nil_of_length_pos (length_text ms)
  have read : (rapidjson strtod dtoa).parse (cStr ((rapidjson strtod dtoa).write doc)) = some doc := by
    rw [write_eq]
    exact (parse_cStr _).trans (parse_text regular_pretty readable)
  rw [loadText, if_neg some_, read]
  exact if_pos object

/-- **A text that was cut off is not loaded.** -/
theorem loadText_cut (readable : Readable strtod dtoa doc) (object : doc.isObject = true)
    {missing : Nat} {content : String}
    (cut : (Writing.cut missing).content ((rapidjson strtod dtoa).write doc) = some content) :
    loadText (rapidjson strtod dtoa) content = none := by
  have torn : (rapidjson strtod dtoa).parse (cStr content) = none := by
    obtain ⟨ms, rfl⟩ := isObject_iff.1 object
    rw [write_eq, Writing.content, String.toList_ofList, Option.some.injEq] at cut
    have one := @length_text dtoa ms
    rw [← cut]
    apply (parse_cStr _).trans
    apply parse_text_front regular_pretty readable nofun
    omega
  rw [loadText, torn]
  exact ite_self none

theorem readable_replaceMember {name : String} {ms : Members} {v : Value}
    (all : ∀ m ∈ ms, Readable strtod dtoa m.2) (readable : Readable strtod dtoa v) :
    ∀ m ∈ replaceMember name v ms, Readable strtod dtoa m.2 := by
  induction ms with
  | nil => exact all
  | cons m ms ih =>
      rw [List.forall_mem_cons] at all
      rw [replaceMember]
      split
      · exact List.forall_mem_cons.2 ⟨readable, all.2⟩
      · exact List.forall_mem_cons.2 ⟨all.1, ih all.2⟩

/-- An assignment of what can be read back. -/
theorem readable_assignPath {p : List String} (readable : Readable strtod dtoa doc)
    (readable' : Readable strtod dtoa value) (assigned : assignPath value doc p = .ok changed) :
    Readable strtod dtoa changed := by
  induction p generalizing doc changed with
  | nil =>
      rw [Config.assignPath_nil, Except.ok.injEq] at assigned
      exact assigned ▸ readable'
  | cons segment p ih =>
      cases doc with
      | object ms =>
          rw [readable_object] at readable
          rw [assignPath] at assigned
          split at assigned
          · cases assigned
          · rename_i v found
            obtain ⟨w, below, result⟩ := bind_ok assigned
            obtain rfl := Except.ok.inj result
            rw [readable_object]
            apply readable_replaceMember readable
            exact ih (readable _ (mem_of_findMember found)) below
      | _ => cases assigned

theorem storable_rewritten {connectorNum : Nat} {ver : String} (storable : Storable strtod dtoa doc)
    (fits : connectorNum < 2 ^ 32) (changes : rewritten doc connectorNum ver = .ok changed) :
    Storable strtod dtoa changed := by
  refine ⟨bootable_rewritten storable.bootable fits changes, ?_⟩
  have count : Readable strtod dtoa (.int connectorNum) := by
    rw [Readable]
    omega
  have version : Readable strtod dtoa (ofCStr ver) := by
    simp [ofCStr, Readable]
  obtain ⟨has, -, rest⟩ := bind_ok changes
  split at rest
  · obtain ⟨counted, first, second⟩ := bind_ok rest
    exact readable_assignPath (readable_assignPath storable.readable count first) version second
  · exact readable_assignPath storable.readable version rest

theorem storable_setConfig {key : String} (storable : Storable strtod dtoa doc)
    (readable : Readable strtod dtoa value) (leaf : value.isObject = false)
    (counts : (Config.pathOf key).map cStr = connectorsPath → value.isUint = true)
    (wrote : Config.setConfig doc key value = .ok (true, changed)) :
    Storable strtod dtoa changed := by
  refine ⟨bootable_setConfig storable.bootable leaf counts wrote, ?_⟩
  obtain ⟨node, -, assigned, -⟩ := Config.setConfig_true wrote
  exact readable_assignPath storable.readable readable assigned

end Texts

/-! ## The files and the next start -/

section Files

variable (strtod : List Char → Option Rat) (dtoa : Rat → List Char) (cfgPath : String)

/-- What the next start begins with, and what it would begin with without the cached file. -/
structure Stands (files : Files) (kept factory : Value) : Prop where
  starts : Boots strtod dtoa cfgPath files kept
  falls : Boots strtod dtoa cfgPath (lost cfgPath files) factory

end Files

variable {strtod : List Char → Option Rat} {dtoa : Rat → List Char} {cfgPath : String}
  {json : Json} {files : Files} {doc kept factory : Value}

theorem loadJsonFromFile_eq (files : Files) (path : String) :
    loadJsonFromFile json files path = (files (cStr path)).bind (loadText json) := by
  unfold loadJsonFromFile
  cases files (cStr path) with
  | none => rfl
  | some content => rfl

/-- A configuration that can be started with is its own completion. -/
theorem validated_of_bootable (bootable : Bootable doc) : validated doc = .ok doc := by
  obtain ⟨ms, rfl⟩ := object_of_conforms bootable.conforms
  have sections : Sections (.object ms) := by
    intro name inside c there
    have object : ∃ ds, resolve defaultConfig [name] = some (.object ds) := by
      simp only [List.mem_cons, List.not_mem_nil, or_false] at inside
      rcases inside with rfl | rfl
      · exact ⟨_, rfl⟩
      · exact ⟨_, rfl⟩
    obtain ⟨ds, object⟩ := object
    obtain ⟨c', there', same⟩ := bootable.conforms [name] _ object
    obtain rfl := Option.some.inj (there.symm.trans there')
    obtain ⟨ns, rfl⟩ := Config.sameType_object.1 same
    rfl
  rw [(validated_cases rfl).1 sections,
    mergeOne_of_conforms Config.distinct_default Config.cnames_default bootable.conforms]

/-- Without a text that loads the start is that without the file. -/
theorem workingDoc_of_none (unread : loadJsonFromFile json files (cacheFile cfgPath) = none) :
    workingDoc json files defaultConfigPath (cacheFile cfgPath) =
      workingDoc json (lost cfgPath files) defaultConfigPath (cacheFile cfgPath) := by
  have erased : loadJsonFromFile json (lost cfgPath files) (cacheFile cfgPath) = none := by
    rw [loadJsonFromFile_eq]
    simp [lost]
  have default_ : loadJsonFromFile json (lost cfgPath files) defaultConfigPath =
      loadJsonFromFile json files defaultConfigPath := by
    by_cases same : cStr defaultConfigPath = cStr (cacheFile cfgPath)
    · rw [loadJsonFromFile_eq] at unread
      rw [loadJsonFromFile_eq, loadJsonFromFile_eq, same, unread]
      simp [lost]
    · rw [loadJsonFromFile_eq, loadJsonFromFile_eq]
      simp [lost, same]
  simp only [workingDoc, unread, erased, default_]

theorem lost_writeFile (files : Files) (content : Option String) :
    lost cfgPath (writeFile files (cacheFile cfgPath) content) = lost cfgPath files := by
  funext name
  cases content with
  | none => rfl
  | some text =>
      by_cases cached : name = cStr (cacheFile cfgPath)
      · simp [lost, cached]
      · simp [lost, writeFile, cached]

theorem loadJsonFromFile_written (files : Files) (text : String) :
    loadJsonFromFile json (writeFile files (cacheFile cfgPath) (some text)) (cacheFile cfgPath) =
      loadText json text := by
  rw [loadJsonFromFile_eq]
  simp [writeFile]

/-- **A write of the cached file**, and what it means to the store. -/
theorem Stands.write (stands : Stands strtod dtoa cfgPath files kept factory)
    (storable : Storable strtod dtoa doc) (writing : Writing) (live : Option Value) :
    Stands strtod dtoa cfgPath
      (writeFile files (cacheFile cfgPath) (writing.content ((rapidjson strtod dtoa).write doc)))
      (Store.write factory doc ⟨live, kept⟩ writing).kept factory := by
  refine ⟨?_, (lost_writeFile files _).symm ▸ stands.falls⟩
  obtain ⟨ms, object⟩ := object_of_conforms storable.bootable.conforms
  have object : doc.isObject = true := by rw [object]; rfl
  cases writing with
  | refused => exact stands.starts
  | cut missing =>
      refine ⟨?_, stands.falls.storable⟩
      rw [workingDoc_of_none, lost_writeFile]
      · exact stands.falls.valid
      · obtain ⟨content, cut⟩ :
            ∃ content, (Writing.cut missing).content ((rapidjson strtod dtoa).write doc) =
              some content := ⟨_, rfl⟩
        rw [cut, loadJsonFromFile_written]
        exact loadText_cut storable.readable object cut
  | whole =>
      refine ⟨?_, storable⟩
      rw [workingDoc, Writing.content, loadJsonFromFile_written,
        loadText_write storable.readable object]
      exact validated_of_bootable storable.bootable

/-! ## The process and the store -/

section Agree

variable (strtod : List Char → Option Rat) (dtoa : Rat → List Char) (cfgPath : String)

/-- The manager of a process whose configuration is the live one. -/
structure Holds (factory : Value) (s : State) (store : Store) : Prop where
  live : store.live = some s.currentDoc
  storable : Storable strtod dtoa s.currentDoc
  path : s.cachedCfgPath = cacheFile cfgPath
  stands : Stands strtod dtoa cfgPath s.files store.kept factory

def Agree (factory : Value) : Sys → Store → Prop
  | .off files, store => store.live = none ∧ Stands strtod dtoa cfgPath files store.kept factory
  | .loaded s, store => Holds strtod dtoa cfgPath factory s store
  | .up s, store => Holds strtod dtoa cfgPath factory s store

end Agree

variable {sys t : Sys} {store : Store} {label : Label}

theorem Agree.die (agree : Agree strtod dtoa cfgPath factory sys store) :
    Agree strtod dtoa cfgPath factory (.off sys.files) { store with live := none } := by
  cases sys with
  | off files => exact ⟨rfl, agree.2⟩
  | loaded s =>
      have holds : Holds strtod dtoa cfgPath factory s store := agree
      exact ⟨rfl, holds.stands⟩
  | up s =>
      have holds : Holds strtod dtoa cfgPath factory s store := agree
      exact ⟨rfl, holds.stands⟩

theorem Store.write_live (factory doc : Value) (store : Store) (writing : Writing) :
    (store.write factory doc writing).live = store.live := by
  cases writing <;> rfl

/-- A start with files that are fit for it. -/
theorem initConfig_of_boots (boots : Boots strtod dtoa cfgPath files doc) :
    initConfig (rapidjson strtod dtoa) false { files := files } defaultConfigPath cfgPath false =
      .ok { currentDoc := doc
            defaultCfgPath := defaultConfigPath
            cachedCfgPath := cacheFile cfgPath
            files := files } := by
  show (validated _ >>= fun _ => _) = _
  rw [boots.valid]
  rfl

theorem step_init (boots : Boots strtod dtoa cfgPath files doc) (writing : Writing) :
    ∃ s, step (rapidjson strtod dtoa) cfgPath (.off files) (.init writing) = some (.loaded s) := by
  simp only [step, initConfig_of_boots boots]
  exact ⟨_, rfl⟩

/-- **A start** begins with what is kept. -/
theorem agree_init {writing : Writing} (agree : Agree strtod dtoa cfgPath factory (.off files) store)
    (moved : step (rapidjson strtod dtoa) cfgPath (.off files) (.init writing) = some t) :
    ∃ store', storeStep factory store (.init writing) = some store' ∧
      Agree strtod dtoa cfgPath factory t store' := by
  obtain ⟨off, stands⟩ := agree
  simp only [step, initConfig_of_boots stands.starts] at moved
  obtain rfl := Option.some.inj moved
  refine ⟨{ store with live := some store.kept }.write factory store.kept writing, ?_, ?_⟩
  · simp only [storeStep, off]
  · refine ⟨Store.write_live .., stands.starts.storable, rfl, ?_⟩
    exact stands.write stands.starts.storable writing _

/-- **The rest of the start** does not fail. -/
theorem agree_model {s : State} {connectorNum : Nat} {ver : String} {opened : Bool}
    (agree : Agree strtod dtoa cfgPath factory (.loaded s) store) (fits : connectorNum < 2 ^ 32)
    (moved : step (rapidjson strtod dtoa) cfgPath (.loaded s) (.model connectorNum ver opened) =
      some t) :
    ∃ store', storeStep factory store (.model connectorNum ver opened) = some store' ∧
      Agree strtod dtoa cfgPath factory t store' := by
  have holds : Holds strtod dtoa cfgPath factory s store := agree
  have bootable := holds.storable.bootable
  obtain ⟨changed, u, changes, set, modelled⟩ :=
    (configModel_of_conforms bootable.conforms connectorNum ver opened).2 bootable.counts
  have storable := storable_rewritten holds.storable fits changes
  obtain ⟨wrote, files, path, -⟩ := setConfig_effect set
  obtain ⟨ns, rfl⟩ := object_of_conforms storable.bootable.conforms
  obtain ⟨-, doc_u⟩ := Prod.mk.inj (Except.ok.inj wrote)
  simp only [step, modelled] at moved
  obtain rfl := Option.some.inj moved
  refine ⟨{ store with live := some (.object ns) }, ?_, ?_⟩
  · simp only [storeStep, holds.live, changes, Option.bind_some]
  · exact ⟨congrArg some doc_u, doc_u ▸ storable, path.trans holds.path,
      files.symm ▸ holds.stands⟩

theorem setConfig_returns (s : State) (key : String) (value : Value) :
    ∃ u, ConfigStore.setConfig s key value = .ok ((edited key value s.currentDoc).1, u) := by
  unfold ConfigStore.setConfig edited
  rcases Config.setConfig_cases s.currentDoc key value with ⟨changed, wrote⟩ | refused
  · rw [wrote]
    dsimp only
    split
    · exact ⟨_, rfl⟩
    · exact ⟨_, rfl⟩
  · rw [refused]
    exact ⟨_, rfl⟩

/-- **A write** that is accepted or not. -/
theorem agree_setConfig {s : State} {key : String} {value : Value}
    (agree : Agree strtod dtoa cfgPath factory (.up s) store) (readable : Readable strtod dtoa value)
    (leaf : value.isObject = false)
    (counts : (Config.pathOf key).map cStr = connectorsPath → value.isUint = true)
    (moved : step (rapidjson strtod dtoa) cfgPath (.up s) (.setConfig key value) = some t) :
    answer (.up s) (.setConfig key value) = storeAnswer store (.setConfig key value) ∧
      ∃ store', storeStep factory store (.setConfig key value) = some store' ∧
        Agree strtod dtoa cfgPath factory t store' := by
  have holds : Holds strtod dtoa cfgPath factory s store := agree
  obtain ⟨u, set⟩ := setConfig_returns s key value
  obtain ⟨wrote, files, path, -⟩ := setConfig_effect set
  have doc_u : (edited key value s.currentDoc).2 = u.currentDoc := by
    rw [edited, wrote]
  simp only [step, set] at moved
  obtain rfl := Option.some.inj moved
  refine ⟨?_, { store with live := some (edited key value s.currentDoc).2 }, ?_, ?_⟩
  · simp only [answer, set, storeAnswer, holds.live, Option.map_some]
  · simp only [storeStep, holds.live, Option.map_some]
  · refine ⟨congrArg some doc_u, ?_, path.trans holds.path, files.symm ▸ holds.stands⟩
    rcases Config.setConfig_cases s.currentDoc key value with ⟨changed, accepted⟩ | refused
    · obtain ⟨-, rfl⟩ := Prod.mk.inj (Except.ok.inj (wrote.symm.trans accepted))
      exact storable_setConfig holds.storable readable leaf counts accepted
    · obtain ⟨-, same⟩ := Prod.mk.inj (Except.ok.inj (wrote.symm.trans refused))
      exact same ▸ holds.storable

/-- **A save** by the pool. -/
theorem agree_save {s : State} {i : Nat} {writing : Writing}
    (agree : Agree strtod dtoa cfgPath factory (.up s) store)
    (moved : step (rapidjson strtod dtoa) cfgPath (.up s) (.save i writing) = some t) :
    ∃ store', storeStep factory store (.save i writing) = some store' ∧
      Agree strtod dtoa cfgPath factory t store' := by
  have holds : Holds strtod dtoa cfgPath factory s store := agree
  obtain ⟨u, saved, rfl⟩ := Option.map_eq_some_iff.1 moved
  obtain ⟨doc_u, path_u⟩ : u.currentDoc = s.currentDoc ∧ u.cachedCfgPath = s.cachedCfgPath := by
    simp only [ConfigStore.step, ConfigStore.saveCachedConfig] at saved
    split at saved
    · obtain rfl := Option.some.inj saved
      split
      · exact ⟨rfl, rfl⟩
      · exact ⟨rfl, rfl⟩
    · cases saved
  refine ⟨store.write factory s.currentDoc writing, ?_, ?_⟩
  · simp only [storeStep, holds.live, Option.map_some]
  · refine ⟨?_, ?_, path_u.trans holds.path, ?_⟩
    · rw [Store.write_live, holds.live]
      exact congrArg some doc_u.symm
    · exact doc_u.symm ▸ holds.storable
    · have written := holds.stands.write holds.storable writing store.live
      rw [← holds.path] at written
      exact written

/-- One step. -/
theorem agree_step (sys : Sys) (store : Store) (label : Label) (t : Sys)
    (sound : Sound strtod dtoa sys label) (agree : Agree strtod dtoa cfgPath factory sys store)
    (moved : step (rapidjson strtod dtoa) cfgPath sys label = some t) :
    answer sys label = storeAnswer store (id label) ∧
      ∃ store', storeStep factory store (id label) = some store' ∧
        Agree strtod dtoa cfgPath factory t store' := by
  cases label with
  | die =>
      have ended : step (rapidjson strtod dtoa) cfgPath sys .die = some (.off sys.files) := by
        cases sys <;> rfl
      obtain rfl := Option.some.inj (ended.symm.trans moved)
      refine ⟨?_, _, rfl, agree.die⟩
      cases sys <;> rfl
  | init writing =>
      cases sys with
      | off files => exact ⟨rfl, agree_init agree moved⟩
      | loaded s => cases moved
      | up s => cases moved
  | model connectorNum ver opened =>
      cases sys with
      | off files => cases moved
      | loaded s => exact ⟨rfl, agree_model agree sound moved⟩
      | up s => cases moved
  | setConfig key value =>
      cases sys with
      | off files => cases moved
      | loaded s => cases moved
      | up s => exact agree_setConfig agree sound.1 sound.2.1 sound.2.2 moved
  | getConfig key =>
      cases sys with
      | off files => cases moved
      | loaded s => cases moved
      | up s =>
          have holds : Holds strtod dtoa cfgPath factory s store := agree
          obtain rfl := Option.some.inj moved
          refine ⟨?_, store, ?_, agree⟩
          · simp only [answer, storeAnswer, holds.live, Option.map_some, id]
          · simp only [storeStep, holds.live, Option.map_some, id]
  | start i =>
      cases sys with
      | off files => cases moved
      | loaded s => cases moved
      | up s =>
          have holds : Holds strtod dtoa cfgPath factory s store := agree
          obtain ⟨u, taken, rfl⟩ := Option.map_eq_some_iff.1 moved
          simp only [ConfigStore.step] at taken
          split at taken
          · obtain rfl := Option.some.inj taken
            refine ⟨rfl, store, ?_, holds.live, holds.storable, holds.path, holds.stands⟩
            simp only [storeStep, holds.live, Option.map_some, id]
          · cases taken
  | save i writing =>
      cases sys with
      | off files => cases moved
      | loaded s => cases moved
      | up s => exact ⟨rfl, agree_save agree moved⟩

theorem bootable_default : Bootable defaultConfig := by
  have conforms := conforms_completed defaultConfig
  rw [(Config.mergeOne_idem Config.distinct_default Config.cnames_default).1] at conforms
  refine ⟨conforms, fun c there _ => ?_⟩
  obtain rfl := Option.some.inj ((rfl : resolve defaultConfig connectorsPath = some (.int 8)).symm.trans
    there)
  rfl

theorem readable_default : Readable strtod dtoa defaultConfig := by
  simp [defaultConfig, Config.defaultMembers, Config.chargePointDefaults, Config.ocpp16Defaults,
    Readable, RoundTrip.ReadableMembers]

/-- Without any file a start begins with the built-in configuration. -/
theorem boots_default (strtod : List Char → Option Rat) (dtoa : Rat → List Char) (cfgPath : String) :
    Boots strtod dtoa cfgPath (fun _ => none) defaultConfig where
  valid := validated_of_bootable bootable_default
  storable := ⟨bootable_default, readable_default⟩

end ChargerStack.Ocpp.Restarts
