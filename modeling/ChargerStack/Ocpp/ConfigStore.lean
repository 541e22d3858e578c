/-
# Ocpp.ConfigStore -- the configuration, its file, and the delayed save

`setConfig` does not write the file.  It sets `m_isSavePending` and enqueues a task
that sleeps, takes `m_cfgMutex`, saves and clears the flag; while the flag is set no
second task is enqueued.  Everything between taking and releasing the mutex is one
step.

* `saved_or_pending`: in every interleaving the file is the document, or exactly one
  task is on its way;
* `restoreConfig_iff`: `restoreConfig` takes the mutex and calls `initConfig`, which
  takes it again, so it returns only when it gives up before.

The parser and the writer of RapidJSON are parameters.
-/
import ChargerStack.Lib.Run
import ChargerStack.Ocpp.ConfigDefaults
import ChargerStack.Ocpp.ConfigWrites

namespace ChargerStack.Ocpp.ConfigStore

open Cxx Rapidjson Lib

set_option autoImplicit false

/-! ## State -/

/-- RapidJSON: `Document::Parse`, and a `PrettyWriter` on a document. -/
structure Json where
  parse : Parser
  write : Value → String

/-- A save task: waiting for a worker, or in its sleep. -/
inductive Task where
  | queued
  | sleeping
  deriving DecidableEq

/-- The readable files and their contents. -/
abbrev Files := String → Option String

/-- `ConfigManager` without its subscriptions, and the files. -/
structure State where
  currentDoc : Value := .null
  defaultCfgPath : String := ""
  cachedCfgPath : String := ""
  isSavePending : Bool := false
  tasks : List Task := []
  files : Files

/-- Why a call does not return. -/
inductive Stop where
  /-- An assertion failed. -/
  | failure (f : Failure)
  /-- The thread waits for a mutex it holds. -/
  | deadlock
  deriving DecidableEq

/-- `std::lock_guard` on `m_cfgMutex`; `held` says whether the calling thread has it
already. -/
def lockGuard {α : Type} (held : Bool) (body : Except Stop α) : Except Stop α :=
  if held then .error .deadlock else body

variable (json : Json)

/-- `loadJsonFromFile`: the document, when the file opens, has a content, and parses to
an object. -/
def loadJsonFromFile (files : Files) (path : String) : Option Value :=
  match files (cStr path) with
  | none => none
  | some content =>
      if content = "" then none
      else
        match json.parse (cStr content) with
        | none => none
        | some doc => if doc.isObject then some doc else none

/-- `saveJsonToFile`; `written` says whether the file could be opened and written.  A
failed write leaves the model's file as it was. -/
def saveJsonToFile (files : Files) (doc : Value) (path : String) (written : Bool) : Files :=
  if written then fun name => if name = cStr path then some (json.write doc) else files name
  else files

/-- The document `initConfig` starts from: the cached file, else the default file, else
the built-in default. -/
def workingDoc (files : Files) (defaultCfgPath cachedCfgPath : String) : Value :=
  match loadJsonFromFile json files cachedCfgPath with
  | some doc => doc
  | none =>
      match loadJsonFromFile json files defaultCfgPath with
      | some doc => doc
      | none => Config.defaultConfig

/-- `validateAndMergeConfig`, and the built-in default when it reports failure. -/
def validated (doc : Value) : Except Stop Value :=
  match Config.validateAndMergeConfig doc with
  | .error f => .error (.failure f)
  | .ok (true, merged) => .ok merged
  | .ok (false, _) => .ok Config.defaultConfig

/-- The cached file in the directory `initConfig` is given. -/
def cacheFile (cachedCfgPath : String) : String := cachedCfgPath ++ "/ocpp_cache_config.json"

/-- `initConfig`; `written` is the result of its `saveJsonToFile`. -/
def initConfig (held : Bool) (s : State) (defaultCfgPath cachedCfgPath : String) (written : Bool) :
    Except Stop State :=
  lockGuard held do
    let doc ← validated (workingDoc json s.files defaultCfgPath (cacheFile cachedCfgPath))
    return { s with
      currentDoc := doc
      defaultCfgPath := defaultCfgPath
      cachedCfgPath := cacheFile cachedCfgPath
      files := saveJsonToFile json s.files doc (cacheFile cachedCfgPath) written }

/-- `saveCachedConfig`. -/
def saveCachedConfig (s : State) (written : Bool) : State :=
  if s.cachedCfgPath = "" then s
  else { s with files := saveJsonToFile json s.files s.currentDoc s.cachedCfgPath written }

/-- `setConfig`: the document, and the save that is enqueued unless one is pending. -/
def setConfig (s : State) (key : String) (value : Value) : Except Stop (Bool × State) :=
  match Config.setConfig s.currentDoc key value with
  | .error f => .error (.failure f)
  | .ok (false, doc) => .ok (false, { s with currentDoc := doc })
  | .ok (true, doc) =>
      let changed := { s with currentDoc := doc }
      if s.cachedCfgPath ≠ "" ∧ s.isSavePending = false then
        .ok (true, { changed with isSavePending := true, tasks := s.tasks ++ [.queued] })
      else .ok (true, changed)

/-- What `remove` of the cached file did: `noEntry` is `ENOENT`, `failed` any other
`errno`. -/
inductive Removal where
  | removed
  | noEntry
  | failed
  deriving DecidableEq

/-- `restoreConfig`, which has the mutex when it calls `initConfig`. -/
def restoreConfig (held : Bool) (s : State) (removal : Removal) (written : Bool) :
    Except Stop (Bool × State) :=
  lockGuard held
    (if s.cachedCfgPath ≠ "" ∧ removal = .failed then .ok (false, s)
    else do
      let files : Files := fun name =>
        if s.cachedCfgPath ≠ "" ∧ removal = .removed ∧ name = cStr s.cachedCfgPath then none
        else s.files name
      let t ← initConfig json true { s with files := files } s.defaultCfgPath s.cachedCfgPath written
      return (true, t))

/-! ## Interleavings -/

inductive Label where
  /-- Some thread calls `setConfig`. -/
  | setConfig (key : String) (value : Value)
  /-- A worker takes task `i`, which begins to sleep. -/
  | start (i : Nat)
  /-- Task `i` wakes up and does its locked part. -/
  | save (i : Nat) (written : Bool)

def step (s : State) : Label → Option State
  | .setConfig key value =>
      match setConfig s key value with
      | .error _ => none
      | .ok (_, t) => some t
  | .start i =>
      if s.tasks[i]? = some .queued then some { s with tasks := s.tasks.set i .sleeping } else none
  | .save i written =>
      if s.tasks[i]? = some .sleeping then
        let saved := saveCachedConfig json s written
        some { saved with isSavePending := false, tasks := s.tasks.eraseIdx i }
      else none

/-- Its file write succeeds. -/
def Label.Written : Label → Prop
  | .save _ written => written = true
  | _ => True

/-- The file is the document as it is written out. -/
def Saved (s : State) : Prop := s.files (cStr s.cachedCfgPath) = some (json.write s.currentDoc)

/-- The invariant: no save pending, no task and the file up to date, or one task on
its way. -/
structure Coalesced (s : State) : Prop where
  path : s.cachedCfgPath ≠ ""
  idle : s.isSavePending = false → s.tasks = [] ∧ Saved json s
  pending : s.isSavePending = true → s.tasks.length = 1

variable {json} {s t : State}

theorem cacheFile_ne_empty (cachedCfgPath : String) : cacheFile cachedCfgPath ≠ "" := by
  intro empty
  have length := congrArg String.length empty
  rw [cacheFile, String.length_append] at length
  have name : "/ocpp_cache_config.json".length = 23 := rfl
  rw [name] at length
  cases length

theorem saveJsonToFile_self (files : Files) (doc : Value) (path : String) :
    saveJsonToFile json files doc path true (cStr path) = some (json.write doc) := by
  simp [saveJsonToFile]

/-- What a call of `initConfig` that returns leaves. -/
theorem initConfig_ok {held written : Bool} {defaultCfgPath cachedCfgPath : String}
    (started : initConfig json held s defaultCfgPath cachedCfgPath written = .ok t) :
    held = false ∧
      ∃ doc, validated (workingDoc json s.files defaultCfgPath (cacheFile cachedCfgPath)) = .ok doc ∧
        t = { s with
          currentDoc := doc
          defaultCfgPath := defaultCfgPath
          cachedCfgPath := cacheFile cachedCfgPath
          files := saveJsonToFile json s.files doc (cacheFile cachedCfgPath) written } := by
  unfold initConfig lockGuard at started
  cases held with
  | true => cases started
  | false =>
      rw [if_neg (by decide)] at started
      cases valid : validated (workingDoc json s.files defaultCfgPath (cacheFile cachedCfgPath)) with
      | error stop =>
          rw [valid] at started
          cases started
      | ok doc =>
          rw [valid] at started
          exact ⟨rfl, doc, rfl, (Except.ok.inj started).symm⟩

/-- After `initConfig` the file is up to date. -/
theorem coalesced_initConfig {files : Files} {defaultCfgPath cachedCfgPath : String}
    (started : initConfig json false { files := files } defaultCfgPath cachedCfgPath true = .ok s) :
    Coalesced json s := by
  obtain ⟨-, doc, -, rfl⟩ := initConfig_ok started
  refine ⟨cacheFile_ne_empty cachedCfgPath, fun _ => ⟨rfl, ?_⟩, nofun⟩
  exact saveJsonToFile_self files doc _

theorem coalesced_setConfig (inv : Coalesced json s) {key : String} {value : Value} {returned : Bool}
    (called : setConfig s key value = .ok (returned, t)) : Coalesced json t := by
  unfold setConfig at called
  rcases Config.setConfig_cases s.currentDoc key value with ⟨doc, changed⟩ | unchanged
  · rw [changed] at called
    simp only at called
    split at called
    · rename_i enqueue
      cases called
      refine ⟨inv.path, nofun, fun _ => ?_⟩
      have idle := (inv.idle enqueue.2).1
      show (s.tasks ++ [Task.queued]).length = 1
      rw [idle]
      rfl
    · rename_i waiting
      cases called
      have pending : s.isSavePending = true := by
        cases flag : s.isSavePending with
        | true => rfl
        | false => exact absurd ⟨inv.path, flag⟩ waiting
      refine ⟨inv.path, fun idle => ?_, inv.pending⟩
      exact nomatch pending.symm.trans idle
  · rw [unchanged] at called
    cases called
    exact inv

theorem coalesced_step (s : State) (label : Label) (t : State) (written : label.Written)
    (inv : Coalesced json s) (moved : step json s label = some t) : Coalesced json t := by
  cases label with
  | setConfig key value =>
      simp only [step] at moved
      split at moved
      · cases moved
      · rename_i returned u called
        obtain rfl := Option.some.inj moved
        exact coalesced_setConfig inv called
  | start i =>
      simp only [step] at moved
      split at moved
      · rename_i queued
        obtain rfl := Option.some.inj moved
        refine ⟨inv.path, fun idle => ?_, fun pending => ?_⟩
        · rw [(inv.idle idle).1] at queued
          cases queued
        · show (s.tasks.set i .sleeping).length = 1
          rw [List.length_set]
          exact inv.pending pending
      · cases moved
  | save i ok =>
      simp only [step] at moved
      split at moved
      · rename_i sleeping
        obtain rfl := Option.some.inj moved
        obtain rfl : ok = true := written
        have alone : s.tasks.length = 1 := by
          cases flag : s.isSavePending with
          | true => exact inv.pending flag
          | false =>
              rw [(inv.idle flag).1] at sleeping
              cases sleeping
        have first : i = 0 := by
          have bound := (List.getElem?_eq_some_iff.1 sleeping).1
          omega
        subst first
        have file : saveCachedConfig json s true =
            { s with files := saveJsonToFile json s.files s.currentDoc s.cachedCfgPath true } :=
          if_neg inv.path
        rw [file]
        refine ⟨inv.path, fun _ => ⟨?_, ?_⟩, nofun⟩
        · obtain ⟨task, tasks⟩ := List.length_eq_one_iff.1 alone
          show s.tasks.eraseIdx 0 = []
          rw [tasks]
          rfl
        · exact saveJsonToFile_self s.files s.currentDoc s.cachedCfgPath
      · cases moved

/-- **Every update is in the file, or exactly one save is on its way.**  So once the
pool is idle nothing is unsaved. -/
theorem saved_or_pending {files : Files} {defaultCfgPath cachedCfgPath : String} {start : State}
    {labels : List Label}
    (started : initConfig json false { files := files } defaultCfgPath cachedCfgPath true = .ok start)
    (written : ∀ label ∈ labels, label.Written) (ran : exec (step json) start labels = some s) :
    (s.isSavePending = false → Saved json s) ∧ (s.isSavePending = true → s.tasks.length = 1) ∧
      (s.tasks = [] → Saved json s) := by
  have inv : Coalesced json s := exec_invariant_along coalesced_step
    (along_of_labels (fun label inside _ => written label inside) start)
    (coalesced_initConfig started) ran
  refine ⟨fun idle => (inv.idle idle).2, inv.pending, fun empty => ?_⟩
  cases flag : s.isSavePending with
  | false => exact (inv.idle flag).2
  | true =>
      have one := inv.pending flag
      rw [empty] at one
      cases one

/-! ## Restoring the default -/

variable (json) in
/-- The default file, or the built-in default when it does not load, completed. -/
def restoredDoc (s : State) : Except Stop Value :=
  validated ((loadJsonFromFile json s.files s.defaultCfgPath).getD Config.defaultConfig)

variable (json) in
/-- What `restoreConfig` is to do: return, and when it returns true leave the default
under the same path, where a second call finds nothing to change. -/
def Restores (s : State) (removal : Removal) (written : Bool) : Prop :=
  ∃ returned t, restoreConfig json false s removal written = .ok (returned, t) ∧
    (returned = true →
      t.cachedCfgPath = s.cachedCfgPath ∧ restoredDoc json s = .ok t.currentDoc ∧ Saved json t ∧
      ∀ removal' written' returned' u,
        restoreConfig json false t removal' written' = .ok (returned', u) →
          u.currentDoc = t.currentDoc ∧ u.cachedCfgPath = t.cachedCfgPath ∧
            u.files (cStr u.cachedCfgPath) = t.files (cStr t.cachedCfgPath))

/-- `initConfig` under the mutex of its caller never returns. -/
theorem initConfig_held (s : State) (defaultCfgPath cachedCfgPath : String) (written : Bool) :
    initConfig json true s defaultCfgPath cachedCfgPath written = .error .deadlock := rfl

theorem restoreConfig_eq (removal : Removal) (written : Bool) :
    restoreConfig json false s removal written =
      if s.cachedCfgPath ≠ "" ∧ removal = .failed then .ok (false, s) else .error .deadlock := by
  unfold restoreConfig
  simp only [lockGuard, Bool.false_eq_true, if_false, initConfig_held]
  rfl

theorem path_step (s : State) (label : Label) (t : State) (path : s.cachedCfgPath ≠ "")
    (moved : step json s label = some t) : t.cachedCfgPath ≠ "" := by
  cases label with
  | setConfig key value =>
      simp only [step, setConfig] at moved
      rcases Config.setConfig_cases s.currentDoc key value with ⟨doc, changed⟩ | unchanged
      · rw [changed] at moved
        simp only at moved
        split at moved
        · cases moved
        · rename_i called
          split at called <;> cases called <;> cases moved <;> exact path
      · rw [unchanged] at moved
        cases moved
        exact path
  | start i =>
      simp only [step] at moved
      split at moved <;> cases moved
      exact path
  | save i written =>
      simp only [step] at moved
      split at moved <;> cases moved
      unfold saveCachedConfig
      split <;> exact path

/-- **`restoreConfig` does what it is to do exactly when it cannot delete the file.**
Otherwise the thread waits for itself. -/
theorem restoreConfig_iff {files : Files} {defaultCfgPath cachedCfgPath : String} {start : State}
    {labels : List Label} {saved : Bool}
    (started : initConfig json false { files := files } defaultCfgPath cachedCfgPath saved = .ok start)
    (ran : exec (step json) start labels = some s) (removal : Removal) (written : Bool) :
    Restores json s removal written ↔ removal = .failed := by
  have path : s.cachedCfgPath ≠ "" := by
    obtain ⟨-, doc, -, rfl⟩ := initConfig_ok started
    exact exec_invariant path_step (cacheFile_ne_empty cachedCfgPath) ran
  unfold Restores
  rw [restoreConfig_eq]
  constructor
  · rintro ⟨returned, t, called, -⟩
    split at called
    · rename_i failed
      exact failed.2
    · cases called
  · rintro rfl
    rw [if_pos ⟨path, rfl⟩]
    exact ⟨false, s, rfl, nofun⟩

/-! ## A charge point without files -/

/-- Nothing parses, and a document is written as nothing. -/
def mute : Json := ⟨fun _ => none, fun _ => ""⟩

/-- The state after its `initConfig`. -/
def bare : State where
  currentDoc := Config.defaultConfig
  defaultCfgPath := "/etc/ocpp.json"
  cachedCfgPath := cacheFile "/var"
  files := saveJsonToFile mute (fun _ => none) Config.defaultConfig (cacheFile "/var") true

theorem initConfig_bare :
    initConfig mute false { files := fun _ => none } "/etc/ocpp.json" "/var" true = .ok bare := by
  have valid : validated (workingDoc mute (fun _ => none) "/etc/ocpp.json" (cacheFile "/var")) =
      .ok Config.defaultConfig := by
    show validated Config.defaultConfig = _
    rw [validated, Config.validateAndMergeConfig_default]
  show (validated _ >>= fun _ => _) = _
  rw [valid]
  rfl

/-- A configuration is emptied, and the delayed save runs. -/
def emptied : List Label := [.setConfig "" (.object []), .start 0, .save 0 true]

theorem saved_or_pending_bare :
    ∃ s, exec (step mute) bare emptied = some s ∧ s.tasks = [] ∧ Saved mute s := by
  have written : ∀ label ∈ emptied, label.Written := by
    intro label inside
    simp only [emptied, List.mem_cons, List.not_mem_nil, or_false] at inside
    obtain rfl | rfl | rfl := inside
    · exact trivial
    · exact trivial
    · exact rfl
  exact ⟨_, rfl, rfl, (saved_or_pending initConfig_bare written rfl).2.2 rfl⟩

theorem restoreConfig_failed : Restores mute bare .failed true :=
  (restoreConfig_iff initConfig_bare
    (exec_nil bare : exec (step mute) bare [] = some bare) .failed true).2 rfl

/-- Right after the start, with the cached file there to delete. -/
theorem restoreConfig_hangs :
    initConfig mute false { files := fun _ => none } "/etc/ocpp.json" "/var" true = .ok bare ∧
      restoreConfig mute false bare .removed true = .error .deadlock ∧
      ¬ Restores mute bare .removed true := by
  refine ⟨initConfig_bare, rfl, ?_⟩
  rintro ⟨returned, t, called, -⟩
  cases called

end ChargerStack.Ocpp.ConfigStore
