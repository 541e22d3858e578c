/-
# Ocpp.ChargePoint -- the start of a charge point with its configuration

`initConfigModel` of ChargePoint.cpp loads and completes the configuration, looks for what the
start needs in it, and puts the number of connectors and the version of the software in their
places, which is a write of the whole document with its delayed save.  The database that is opened
then and the validator of schemas read from the configuration and leave it alone.

* `usable_of_conforms`: of a completed configuration the start finds everything, but perhaps not
  that the number of connectors is an `unsigned`;
* `bootable_setConfig`: which configurations can be started with is kept by the writes of leaves;
* `initConfigModel_cases`: for all contents of the files, whether the start succeeds, what it
  starts with, and when it ends in an assertion.
-/
import ChargerStack.Ocpp.ConfigStore

namespace ChargerStack.Ocpp.ChargePoint

open Cxx Rapidjson Value
open Config (Conforms sameType mergeOne assignPath defaultConfig)
open ConfigStore

set_option autoImplicit false

/-! ## The start -/

/-- `DEFAULT_CONFIG_PATH`. -/
def defaultConfigPath : String :=
  "/home/zlgmcu/project/learnC++/config_profile/app/ocpp/config/ocpp_default_config.json"

/-- `!doc.HasMember(name) || !doc[name].IsObject()`, the other way round. -/
def hasObject (doc : Value) (name : String) : Except Failure Bool := do
  if !(← doc.hasMember name) then return false
  let member ← doc.member name
  return member.isObject

/-- The same for a member of the object of that name. -/
def hasMemberOf (doc : Value) (object name : String) (is : Value → Bool) : Except Failure Bool := do
  let inner ← doc.member object
  if !(← inner.hasMember name) then return false
  let member ← inner.member name
  return is member

/-- The conditions of `initConfigModel` on what `getConfig` returned. -/
def usable (deviceConfig : Value) : Except Failure Bool := do
  if !deviceConfig.isObject then return false
  if !(← hasObject deviceConfig "ChargePoint") then return false
  if !(← hasMemberOf deviceConfig "ChargePoint" "DatabasePath" isString) then return false
  if !(← hasMemberOf deviceConfig "ChargePoint" "JsonSchemasPath" isString) then return false
  if !(← hasMemberOf deviceConfig "ChargePoint" "OcppSoftwareVersion" isString) then return false
  if !(← hasObject deviceConfig "OCPP1_6") then return false
  hasMemberOf deviceConfig "OCPP1_6" "NumberOfConnectors" isUint

def connectorsPath : List String := ["OCPP1_6", "NumberOfConnectors"]

def versionPath : List String := ["ChargePoint", "OcppSoftwareVersion"]

/-- The two assignments through `operator[]`. -/
def rewritten (deviceConfig : Value) (connectorNum : Nat) (ver : String) : Except Failure Value := do
  let counted ←
    if ← deviceConfig.hasMember "OCPP1_6" then assignPath (.int connectorNum) deviceConfig connectorsPath
    else pure deviceConfig
  assignPath (ofCStr ver) counted versionPath

/-- RapidJSON's part of a call. -/
def asserting {α : Type} : Except Failure α → Except Stop α
  | .error f => .error (.failure f)
  | .ok a => .ok a

/-- `initConfigModel` behind its `initConfig`; `opened` is what the database returns. -/
def configModel (s : State) (connectorNum : Nat) (ver : String) (opened : Bool) :
    Except Stop (Bool × State) :=
  match Config.getConfig s.currentDoc "" with
  | none => .ok (false, s)
  | some deviceConfig => do
      if !(← asserting (usable deviceConfig)) then return (false, s)
      let changed ← asserting (rewritten deviceConfig connectorNum ver)
      -- what this returns is only logged
      let (_, t) ← ConfigStore.setConfig s "" changed
      return (opened, t)

def initConfigModel (json : Json) (s : State) (cfgPath : String) (written : Bool)
    (connectorNum : Nat) (ver : String) (opened : Bool) : Except Stop (Bool × State) := do
  let t ← initConfig json false s defaultConfigPath cfgPath written
  configModel t connectorNum ver opened

/-! ## Types of values -/

section Types

variable {a b c d doc value changed : Value} {p q : List String} {ms : Members} {name : String}

theorem isBool_eq (v : Value) : v.isBool = decide (v.getType = .true ∨ v.getType = .false) := by
  cases v with
  | bool b => cases b <;> rfl
  | _ => rfl

theorem sameType_iff : sameType a b = true ↔
    (a.isBool = true ∧ b.isBool = true) ∨ a.getType = b.getType := by
  simp [sameType]

theorem sameType_trans (left : sameType a b = true) (right : sameType b c = true) :
    sameType a c = true := by
  rw [sameType_iff] at *
  rcases left with ⟨bool, bool'⟩ | same
  · rcases right with ⟨-, bool''⟩ | same
    · exact .inl ⟨bool, bool''⟩
    · refine .inl ⟨bool, ?_⟩
      rwa [isBool_eq, ← same, ← isBool_eq]
  · rcases right with ⟨bool, bool'⟩ | same'
    · refine .inl ⟨?_, bool'⟩
      rwa [isBool_eq, same, ← isBool_eq]
    · exact .inr (same.trans same')

theorem isString_of_sameType {s : String} (same : sameType a (.string s) = true) :
    a.isString = true := by
  cases a with
  | bool b => cases b <;> cases same
  | string s => rfl
  | _ => cases same

/-! ## Writes -/

/-- The node that was written. -/
theorem resolve_assignPath (clean : ∀ segment ∈ p, NulFree segment)
    (assigned : assignPath value doc p = .ok changed) : resolve changed p = some value := by
  have whole : assignPath value doc (p ++ []) = .ok changed := by rwa [List.append_nil]
  obtain ⟨d, c, -, there, rest⟩ := Config.assignPath_append clean whole
  rw [Config.assignPath_nil, Except.ok.injEq] at rest
  rw [there, rest]

/-- Off the written path nothing changes. -/
theorem resolve_assignPath_off (clean : ∀ segment ∈ p, NulFree segment)
    (assigned : assignPath value doc p = .ok changed) (apart : ¬ p <+: q) (apart' : ¬ q <+: p) :
    resolve changed q = resolve doc q := by
  induction p generalizing doc changed q with
  | nil => exact absurd List.nil_prefix apart
  | cons segment p ih =>
      cases q with
      | nil => exact absurd List.nil_prefix apart'
      | cons first q =>
          cases doc with
          | object ms =>
              simp only [assignPath, cStr_of_nulFree (clean segment List.mem_cons_self)] at assigned
              split at assigned
              · cases assigned
              · rename_i v member
                obtain ⟨w, below, result⟩ := bind_ok assigned
                obtain rfl := Except.ok.inj result
                by_cases same : first = segment
                · subst same
                  rw [resolve_object, resolve_object, Config.findMember_replaceMember member, member]
                  apply ih (fun other inside => clean other (List.mem_cons_of_mem _ inside)) below
                  · intro before
                    exact apart (List.cons_prefix_cons.2 ⟨rfl, before⟩)
                  · intro before
                    exact apart' (List.cons_prefix_cons.2 ⟨rfl, before⟩)
                · rw [resolve_object, resolve_object, Config.findMember_replaceMember_of_ne same]
          | _ => cases assigned

/-- A node that is there can be written. -/
theorem assignPath_returns (clean : ∀ segment ∈ p, NulFree segment) {node : Value}
    (there : resolve doc p = some node) (value : Value) :
    ∃ changed, assignPath value doc p = .ok changed := by
  apply Config.assignPath_of_compared value (v := node)
  rwa [Config.comparePath_eq_resolve clean]

/-- A leaf in the place of a value of its type. -/
theorem conforms_assignPath (clean : ∀ segment ∈ p, NulFree segment) (leaf : value.isObject = false)
    (typed : ∀ node, resolve doc p = some node → sameType value node = true)
    (conforms : Conforms d doc) (assigned : assignPath value doc p = .ok changed) :
    Conforms d changed := by
  intro q e there
  obtain ⟨c, here, same⟩ := conforms q e there
  by_cases before : p <+: q
  · obtain ⟨r, rfl⟩ := before
    rw [resolve_append] at here ⊢
    rw [resolve_assignPath clean assigned]
    obtain ⟨node, at_, below⟩ := Option.bind_eq_some_iff.1 here
    have type := typed node at_
    cases r with
    | nil =>
        rw [resolve_nil, Option.some.injEq] at below
        subst below
        exact ⟨value, resolve_nil value, sameType_trans type same⟩
    | cons name r =>
        obtain ⟨ms, u, rfl, -⟩ := resolve_cons.1 below
        obtain ⟨ns, rfl⟩ := Config.sameType_object.1 type
        cases leaf
  · by_cases behind : q <+: p
    · obtain ⟨r, rfl⟩ := behind
      obtain ⟨segment, r, rfl⟩ : ∃ segment rest, r = segment :: rest := by
        cases r with
        | nil => exact absurd (by simp) before
        | cons segment rest => exact ⟨segment, rest, rfl⟩
      obtain ⟨d', c', at_, at', rest⟩ :=
        Config.assignPath_append (fun s inside => clean s (List.mem_append_left _ inside)) assigned
      obtain ⟨object, object'⟩ := Config.isObject_assignPath rest
      refine ⟨c', at', ?_⟩
      rw [at_, Option.some.injEq] at here
      subst here
      obtain ⟨ms, rfl⟩ := isObject_iff.1 object
      obtain ⟨ns, rfl⟩ := isObject_iff.1 object'
      exact sameType_trans (Config.sameType_object.2 ⟨ns, rfl⟩) same
    · rw [resolve_assignPath_off clean assigned before behind]
      exact ⟨c, here, same⟩

/-- **What conforms is complete.** -/
theorem mergeOne_of_conforms (distinct : Distinct d) (names : CNames d) (conforms : Conforms d c) :
    mergeOne d c = c := by
  obtain ⟨c', there, same⟩ := conforms [] d (resolve_nil d)
  rw [resolve_nil, Option.some.injEq] at there
  subst there
  induction d using byMembers generalizing c with
  | leaf d leaf => exact Config.mergeOne_leaf leaf same
  | object defs ih =>
      obtain ⟨cfgs, rfl⟩ := Config.sameType_object.1 same
      rw [Config.mergeOne_object, Config.mergeMembers_fixed names.here]
      rintro ⟨name, v⟩ inside
      have found := findMember_of_mem distinct.here inside
      obtain ⟨c, here, below⟩ := conforms.below found
      obtain ⟨c', there, same⟩ := below [] v (resolve_nil v)
      rw [resolve_nil, Option.some.injEq] at there
      subst there
      exact ⟨c, here, ih name v found (distinct.below found) (names.below found) below same⟩

end Types

/-! ## Configurations to start with -/

/-- `ChargePoint` and `OCPP1_6` are objects, where they are there. -/
def Sections (doc : Value) : Prop :=
  ∀ name ∈ ["ChargePoint", "OCPP1_6"], ∀ c, resolve doc [name] = some c → c.isObject = true

/-- The number of connectors is an `unsigned`, where it is there as a number. -/
def Counts (doc : Value) : Prop :=
  ∀ c, resolve doc connectorsPath = some c → c.getType = .number → c.isUint = true

/-- The configuration is complete, and the number of connectors an `unsigned`. -/
structure Bootable (doc : Value) : Prop where
  conforms : Conforms defaultConfig doc
  counts : Counts doc

section Bootable

variable {doc changed value : Value} {object name key : String} {e : Value} {connectorNum : Nat}
  {ver : String}

theorem object_of_conforms (conforms : Conforms defaultConfig doc) : ∃ ms, doc = .object ms := by
  obtain ⟨c, there, same⟩ := conforms [] defaultConfig (resolve_nil _)
  rw [resolve_nil, Option.some.injEq] at there
  subst there
  exact Config.sameType_object.1 same

theorem hasObject_of_conforms (conforms : Conforms defaultConfig doc) {ds : Members}
    (there : resolve defaultConfig [name] = some (.object ds)) : hasObject doc name = .ok true := by
  obtain ⟨ms, rfl⟩ := object_of_conforms conforms
  obtain ⟨c, here, same⟩ := conforms [name] _ there
  obtain ⟨ns, rfl⟩ := Config.sameType_object.1 same
  obtain ⟨u, found, last⟩ := Option.bind_eq_some_iff.1 here
  rw [resolve_nil, Option.some.injEq] at last
  subst last
  simp [hasObject, hasMember, member, found, bind, Except.bind, pure, Except.pure, isObject]

theorem hasMemberOf_of_conforms (conforms : Conforms defaultConfig doc) (is : Value → Bool)
    (there : resolve defaultConfig [object, name] = some e) :
    ∃ c, resolve doc [object, name] = some c ∧ sameType c e = true ∧
      hasMemberOf doc object name is = .ok (is c) := by
  obtain ⟨c, here, same⟩ := conforms [object, name] e there
  refine ⟨c, here, same, ?_⟩
  obtain ⟨ms, u, rfl, found, below⟩ := resolve_cons.1 here
  obtain ⟨ns, w, rfl, found', last⟩ := resolve_cons.1 below
  rw [resolve_nil, Option.some.injEq] at last
  subst last
  simp [hasMemberOf, hasMember, member, found, found', bind, Except.bind, pure, Except.pure]

/-- The number of connectors of a complete configuration. -/
theorem connectors_of_conforms (conforms : Conforms defaultConfig doc) :
    ∃ c, resolve doc connectorsPath = some c ∧ c.getType = .number := by
  obtain ⟨c, here, same⟩ := conforms connectorsPath (.int 8) rfl
  refine ⟨c, here, ?_⟩
  rcases sameType_iff.1 same with ⟨-, no⟩ | type
  · cases no
  · exact type

/-- **What the start looks for** is in a complete configuration. -/
theorem usable_of_conforms (conforms : Conforms defaultConfig doc) :
    ∃ c, resolve doc connectorsPath = some c ∧ usable doc = .ok c.isUint := by
  obtain ⟨ms, object⟩ := object_of_conforms conforms
  have chargePoint : hasObject doc "ChargePoint" = .ok true := hasObject_of_conforms conforms rfl
  have ocpp : hasObject doc "OCPP1_6" = .ok true := hasObject_of_conforms conforms rfl
  obtain ⟨path, -, text, database⟩ := hasMemberOf_of_conforms conforms isString
    (rfl : resolve defaultConfig ["ChargePoint", "DatabasePath"] = some _)
  obtain ⟨path', -, text', schemas⟩ := hasMemberOf_of_conforms conforms isString
    (rfl : resolve defaultConfig ["ChargePoint", "JsonSchemasPath"] = some _)
  obtain ⟨version, -, text'', software⟩ := hasMemberOf_of_conforms conforms isString
    (rfl : resolve defaultConfig ["ChargePoint", "OcppSoftwareVersion"] = some _)
  obtain ⟨c, here, -, connectors⟩ := hasMemberOf_of_conforms conforms isUint
    (rfl : resolve defaultConfig ["OCPP1_6", "NumberOfConnectors"] = some _)
  refine ⟨c, here, ?_⟩
  have root : doc.isObject = true := by rw [object]; rfl
  simp [usable, root, chargePoint, ocpp, database, schemas, software, connectors,
    isString_of_sameType text, isString_of_sameType text', isString_of_sameType text'', bind,
    Except.bind]

theorem clean_connectorsPath : ∀ segment ∈ connectorsPath, NulFree segment := by
  unfold connectorsPath
  simp only [List.forall_mem_cons]
  refine ⟨?_, ?_, List.forall_mem_nil _⟩
  all_goals exact nulFree_ofList (by decide +kernel)

theorem clean_versionPath : ∀ segment ∈ versionPath, NulFree segment := by
  unfold versionPath
  simp only [List.forall_mem_cons]
  refine ⟨?_, ?_, List.forall_mem_nil _⟩
  all_goals exact nulFree_ofList (by decide +kernel)

/-- A path that neither of the two assignments is made on, above or below. -/
structure Elsewhere (q : List String) : Prop where
  connectors : ¬ connectorsPath <+: q ∧ ¬ q <+: connectorsPath
  version : ¬ versionPath <+: q ∧ ¬ q <+: versionPath

/-- **The two assignments.** -/
theorem rewritten_of_conforms (conforms : Conforms defaultConfig doc) (connectorNum : Nat)
    (ver : String) :
    ∃ changed, rewritten doc connectorNum ver = .ok changed ∧ Conforms defaultConfig changed ∧
      resolve changed connectorsPath = some (.int connectorNum) ∧
      resolve changed versionPath = some (ofCStr ver) ∧
      ∀ q, Elsewhere q → resolve changed q = resolve doc q := by
  obtain ⟨ms, rfl⟩ := object_of_conforms conforms
  obtain ⟨node, here, same⟩ := conforms connectorsPath (.int 8) rfl
  obtain ⟨counted, assigned⟩ := assignPath_returns clean_connectorsPath here (.int connectorNum)
  have typed : ∀ other, resolve (.object ms) connectorsPath = some other →
      sameType (.int connectorNum) other = true := by
    intro other there
    obtain rfl := Option.some.inj (here.symm.trans there)
    rcases sameType_iff.1 same with ⟨-, no⟩ | type
    · cases no
    · exact sameType_iff.2 (.inr type.symm)
  have conforms' := conforms_assignPath clean_connectorsPath rfl typed conforms assigned
  obtain ⟨node', here', same'⟩ := conforms' versionPath (.string "OCPP1.6_g00000") rfl
  obtain ⟨changed, assigned'⟩ := assignPath_returns clean_versionPath here' (ofCStr ver)
  have typed' : ∀ other, resolve counted versionPath = some other →
      sameType (ofCStr ver) other = true := by
    intro other there
    obtain rfl := Option.some.inj (here'.symm.trans there)
    rcases sameType_iff.1 same' with ⟨-, no⟩ | type
    · cases no
    · exact sameType_iff.2 (.inr type.symm)
  have member : hasMember (.object ms) "OCPP1_6" = .ok true := by
    obtain ⟨u, found, -⟩ := Option.bind_eq_some_iff.1 here
    simp [hasMember, found]
  refine ⟨changed, ?_, conforms_assignPath clean_versionPath rfl typed' conforms' assigned', ?_,
    resolve_assignPath clean_versionPath assigned', fun q elsewhere => ?_⟩
  · simp [rewritten, member, assigned, assigned', bind, Except.bind]
  · rw [resolve_assignPath_off clean_versionPath assigned' (by decide) (by decide),
      resolve_assignPath clean_connectorsPath assigned]
  · rw [resolve_assignPath_off clean_versionPath assigned' elsewhere.version.1 elsewhere.version.2,
      resolve_assignPath_off clean_connectorsPath assigned elsewhere.connectors.1
        elsewhere.connectors.2]

/-- What the start leaves can be started with. -/
theorem bootable_rewritten (bootable : Bootable doc) (fits : connectorNum < 2 ^ 32)
    (changes : rewritten doc connectorNum ver = .ok changed) : Bootable changed := by
  obtain ⟨other, changes', conforms, number, -⟩ :=
    rewritten_of_conforms bootable.conforms connectorNum ver
  obtain rfl := Except.ok.inj (changes.symm.trans changes')
  refine ⟨conforms, fun c there _ => ?_⟩
  obtain rfl := Option.some.inj (number.symm.trans there)
  simp only [isUint, decide_eq_true_eq]
  omega

/-! ## Writes of settings -/

theorem assignPath_cStr (value doc : Value) (p : List String) :
    assignPath value doc (p.map cStr) = assignPath value doc p := by
  induction p generalizing doc with
  | nil => rfl
  | cons segment p ih =>
      cases doc with
      | object ms => simp only [List.map_cons, assignPath, cStr_cStr, ih]
      | _ => rfl

theorem comparePath_cStr (doc : Value) (p : List String) :
    Config.comparePath doc (p.map cStr) = Config.comparePath doc p := by
  induction p generalizing doc with
  | nil => rfl
  | cons segment p ih =>
      cases doc with
      | object ms => simp only [List.map_cons, Config.comparePath, cStr_cStr, ih]
      | _ => rfl

/-- **A write of a leaf** leaves a configuration that can be started with, unless it makes
something else than an `unsigned` of the number of connectors. -/
theorem bootable_setConfig (bootable : Bootable doc) (leaf : value.isObject = false)
    (counts : (Config.pathOf key).map cStr = connectorsPath → value.isUint = true)
    (wrote : Config.setConfig doc key value = .ok (true, changed)) : Bootable changed := by
  obtain ⟨node, found, assigned, ⟨-, object⟩ | ⟨-, same, -⟩⟩ := Config.setConfig_true wrote
  · rw [leaf] at object
    cases object
  have clean : ∀ segment ∈ (Config.pathOf key).map cStr, NulFree segment := by
    intro segment inside
    obtain ⟨text, -, rfl⟩ := List.mem_map.1 inside
    exact cStr_nulFree text
  rw [← assignPath_cStr] at assigned
  rw [← comparePath_cStr, Config.comparePath_eq_resolve clean] at found
  generalize (Config.pathOf key).map cStr = p at *
  have typed : ∀ other, resolve doc p = some other → sameType value other = true := by
    intro other there
    obtain rfl := Option.some.inj (found.symm.trans there)
    exact same
  have conforms := conforms_assignPath clean leaf typed bootable.conforms assigned
  refine ⟨conforms, fun c there number => ?_⟩
  by_cases before : p <+: connectorsPath
  · obtain ⟨r, split⟩ := before
    rw [← split, resolve_append, resolve_assignPath clean assigned] at there
    cases r with
    | nil =>
        rw [List.append_nil] at split
        rw [Option.bind_some, resolve_nil, Option.some.injEq] at there
        exact there ▸ counts split
    | cons name r =>
        obtain ⟨ms, u, rfl, -⟩ := resolve_cons.1 there
        cases leaf
  · by_cases behind : connectorsPath <+: p
    · obtain ⟨r, rfl⟩ := behind
      obtain ⟨c', there', number'⟩ := connectors_of_conforms bootable.conforms
      rw [resolve_append, there', Option.bind_some] at found
      cases r with
      | nil => exact absurd (by simp) before
      | cons name r =>
          obtain ⟨ms, u, rfl, -⟩ := resolve_cons.1 found
          cases number'
    · rw [resolve_assignPath_off clean assigned before behind] at there
      exact bootable.counts c there number

end Bootable

/-! ## What the start begins with -/

section Start

variable {json : Json} {files : Files} {doc : Value}

theorem workingDoc_object (json : Json) (files : Files) (defaultCfgPath cachedCfgPath : String) :
    (workingDoc json files defaultCfgPath cachedCfgPath).isObject = true := by
  have loaded : ∀ path v, loadJsonFromFile json files path = some v → v.isObject = true := by
    intro path v load
    unfold loadJsonFromFile at load
    split at load
    · cases load
    · split at load
      · cases load
      · split at load
        · cases load
        · split at load
          · rename_i object
            obtain rfl := Option.some.inj load
            exact object
          · cases load
  unfold workingDoc
  split
  · exact loaded _ _ ‹_›
  · split
    · exact loaded _ _ ‹_›
    · rfl

theorem sections_iff (cfgs : Members) : Sections (.object cfgs) ↔
    ∀ name ∈ ["ChargePoint", "OCPP1_6"], ∀ c, findMember name cfgs = some c → c.isObject = true := by
  have found : ∀ name c, resolve (.object cfgs) [name] = some c ↔ findMember name cfgs = some c := by
    intro name c
    rw [resolve_object]
    cases findMember name cfgs <;> simp
  simp only [Sections, found]

/-- **The completion of a document**, or the assertion it runs into. -/
theorem validated_cases (object : doc.isObject = true) :
    (Sections doc → validated doc = .ok (mergeOne defaultConfig doc)) ∧
      (¬ Sections doc → ∃ f, validated doc = .error (.failure f)) := by
  obtain ⟨cfgs, rfl⟩ := isObject_iff.1 object
  rw [sections_iff, ← Config.checkNode_default_iff]
  constructor
  · rintro ⟨r, checked⟩
    rw [validated, Config.validateAndMergeConfig_of_checked checked]
  · intro fails
    cases checked : Config.checkNode defaultConfig (.object cfgs) "" with
    | ok r => exact absurd ⟨r, checked⟩ fails
    | error f =>
        refine ⟨f, ?_⟩
        have invalid : Config.validateAndMergeConfig (.object cfgs) = .error f := by
          show (Config.checkNode defaultConfig (.object cfgs) "" >>= fun _ => _) = _
          rw [checked]
          rfl
        rw [validated, invalid]

/-- A path of the default in the completed document. -/
def completed (doc d : Value) (q : List String) : Value :=
  match resolve doc q with
  | some c => if sameType c d then c else d
  | none => d

theorem resolve_completed {q : List String} {d : Value} (doc : Value)
    (there : resolve defaultConfig q = some d) (leaf : d.isObject = false) :
    resolve (mergeOne defaultConfig doc) q = some (completed doc d q) := by
  rw [Config.resolve_mergeOne Config.distinct_default Config.cnames_default there, completed]
  cases resolve doc q with
  | none => rfl
  | some c =>
      cases same : sameType c d with
      | true => simp [Config.mergeOne_leaf leaf same, same]
      | false => simp [Config.mergeOne_of_mismatch same, same]

theorem conforms_completed (doc : Value) : Conforms defaultConfig (mergeOne defaultConfig doc) :=
  Config.conforms_mergeOne Config.distinct_default Config.cnames_default doc

theorem counts_completed_iff (doc : Value) : Counts (mergeOne defaultConfig doc) ↔ Counts doc := by
  have number : ∀ c : Value, sameType c (.int 8) = true ↔ c.getType = .number := by
    intro c
    rw [sameType_iff]
    exact ⟨fun same => same.elim (fun no => nomatch no.2) id, .inr⟩
  have there : resolve (mergeOne defaultConfig doc) connectorsPath =
      some (completed doc (.int 8) connectorsPath) := resolve_completed doc rfl rfl
  simp only [Counts, there, Option.some.injEq, forall_eq', completed]
  cases resolve doc connectorsPath with
  | none => simp [getType, isUint]
  | some c =>
      by_cases type : c.getType = .number
      · simp [(number c).2 type, type]
      · have mismatch : sameType c (.int 8) = false := by
          rw [← Bool.not_eq_true, number]
          exact type
        have eight : (Value.int 8).isUint = true := rfl
        simp [mismatch, type, eight]

/-- A leaf of the default is not above another node of it. -/
theorem leaf_apart {p q : List String} {a b : Value} (here : resolve defaultConfig p = some a)
    (leaf : a.isObject = false) (there : resolve defaultConfig q = some b) (other : q ≠ p) :
    ¬ p <+: q := by
  rintro ⟨r, rfl⟩
  rw [resolve_append, here, Option.bind_some] at there
  cases r with
  | nil => exact other (List.append_nil p)
  | cons name r =>
      obtain ⟨ms, u, rfl, -⟩ := resolve_cons.1 there
      cases leaf

/-- What a call of `setConfig` does beside its write of the document. -/
theorem setConfig_effect {s t : State} {key : String} {value : Value} {returned : Bool}
    (called : ConfigStore.setConfig s key value = .ok (returned, t)) :
    Config.setConfig s.currentDoc key value = .ok (returned, t.currentDoc) ∧
      t.files = s.files ∧ t.cachedCfgPath = s.cachedCfgPath ∧
      (returned = true → s.cachedCfgPath ≠ "" → s.isSavePending = false →
        t.tasks = s.tasks ++ [.queued]) := by
  unfold ConfigStore.setConfig at called
  split at called
  · cases called
  · rename_i doc wrote
    obtain ⟨rfl, rfl⟩ := Prod.mk.inj (Except.ok.inj called)
    exact ⟨wrote, rfl, rfl, nofun⟩
  · rename_i doc wrote
    dsimp only at called
    split at called
    · obtain ⟨rfl, rfl⟩ := Prod.mk.inj (Except.ok.inj called)
      exact ⟨wrote, rfl, rfl, fun _ _ _ => rfl⟩
    · rename_i pending
      obtain ⟨rfl, rfl⟩ := Prod.mk.inj (Except.ok.inj called)
      exact ⟨wrote, rfl, rfl, fun _ path idle => absurd ⟨path, idle⟩ pending⟩

/-- `configModel` with a complete configuration. -/
theorem configModel_of_conforms {s : State} (conforms : Conforms defaultConfig s.currentDoc)
    (connectorNum : Nat) (ver : String) (opened : Bool) :
    (¬ Counts s.currentDoc → configModel s connectorNum ver opened = .ok (false, s)) ∧
      (Counts s.currentDoc → ∃ changed t, rewritten s.currentDoc connectorNum ver = .ok changed ∧
        ConfigStore.setConfig s "" changed = .ok (true, t) ∧
        configModel s connectorNum ver opened = .ok (opened, t)) := by
  obtain ⟨ms, object⟩ := object_of_conforms conforms
  obtain ⟨c, here, usable⟩ := usable_of_conforms conforms
  obtain ⟨c', here', number⟩ := connectors_of_conforms conforms
  obtain rfl := Option.some.inj (here.symm.trans here')
  have config : Config.getConfig s.currentDoc "" = some s.currentDoc := by
    rw [object]
    rfl
  have counts_iff : Counts s.currentDoc ↔ c.isUint = true := by
    refine ⟨fun counts => counts c here number, fun uint c' there _ => ?_⟩
    obtain rfl := Option.some.inj (here.symm.trans there)
    exact uint
  rw [counts_iff]
  constructor
  · intro negative
    rw [Bool.not_eq_true] at negative
    simp [configModel, config, usable, negative, asserting, bind, Except.bind, pure, Except.pure]
  · intro uint
    obtain ⟨changed, changes, conforms', -⟩ := rewritten_of_conforms conforms connectorNum ver
    obtain ⟨ns, rfl⟩ := object_of_conforms conforms'
    have wrote : Config.setConfig s.currentDoc "" (.object ns) = .ok (true, .object ns) := rfl
    obtain ⟨t, set⟩ : ∃ t, ConfigStore.setConfig s "" (.object ns) = .ok (true, t) := by
      unfold ConfigStore.setConfig
      rw [wrote]
      dsimp only
      split
      · exact ⟨_, rfl⟩
      · exact ⟨_, rfl⟩
    refine ⟨.object ns, t, changes, set, ?_⟩
    simp [configModel, config, usable, uint, changes, set, asserting, bind, Except.bind, pure,
      Except.pure]

/-- The manager behind `initConfig`. -/
def started (json : Json) (files : Files) (cfgPath : String) (written : Bool) : State :=
  let doc := mergeOne defaultConfig (workingDoc json files defaultConfigPath (cacheFile cfgPath))
  { currentDoc := doc
    defaultCfgPath := defaultConfigPath
    cachedCfgPath := cacheFile cfgPath
    files := saveJsonToFile json files doc (cacheFile cfgPath) written }

theorem initConfig_cases (json : Json) (files : Files) (cfgPath : String) (written : Bool) :
    let doc := workingDoc json files defaultConfigPath (cacheFile cfgPath)
    let result := initConfig json false { files := files } defaultConfigPath cfgPath written
    (Sections doc → result = .ok (started json files cfgPath written)) ∧
      (¬ Sections doc → ∃ f, result = .error (.failure f)) := by
  intro doc result
  obtain ⟨valid, invalid⟩ := validated_cases (workingDoc_object json files _ _ : doc.isObject = true)
  constructor
  · intro sections
    show (validated doc >>= fun _ => _) = _
    rw [valid sections]
    rfl
  · intro bad
    obtain ⟨f, stops⟩ := invalid bad
    refine ⟨f, ?_⟩
    show (validated doc >>= fun _ => _) = _
    rw [stops]
    rfl

end Start

end ChargerStack.Ocpp.ChargePoint
