/-
# Ocpp.ConfigDefaults -- checking a configuration against the built-in one, and completing it

`checkNode` walks the default document beside the configuration and logs what is
missing or of another type; `mergeNode` then adds what is missing and overwrites what
has another type.

* `findMember_mergeMembers`: what a member is after a merge, in terms of the two
  members before it, and with it the merge at every path;
* `mergeNode_correct`: so a merged configuration has every path of the default with
  its type, keeps what was there and fits, and is a fixed point;
* `validateAndMergeConfig_iff`: `checkNode` goes into an object of the default
  whatever the configuration has in its place, so it runs into an assertion exactly
  when the configuration has something else than an object there.
-/
import ChargerStack.Rapidjson.Path
import ChargerStack.Ocpp.ConfigManager

namespace ChargerStack.Ocpp.Config

open Cxx Rapidjson Value

set_option autoImplicit false

/-! ## The built-in default -/

/-- The member `ChargePoint` of `DEFAULT_CONFIG_JSON`. -/
def chargePointDefaults : Value.Members :=
  [("CallRequestTimeout", .int 30),
    ("ChargePointIdentifier", .string "DeYeL430"),
    ("ChargePointSerialNumber", .string "SN123456"),
    ("ClientCertificateRequestEcCurve", .string "P-256"),
    ("ClientCertificateRequestHashType", .string "SHA256"),
    ("ClientCertificateRequestKeyType", .string "RSA"),
    ("ClientCertificateRequestRsaKeyLength", .int 2048),
    ("ClientCertificateRequestSubjectCountry", .string "CN"),
    ("ClientCertificateRequestSubjectEmail", .string "it@deye.com.cn"),
    ("ClientCertificateRequestSubjectLocation", .string "Ningbo"),
    ("ClientCertificateRequestSubjectOrganizationUnit", .string "OrganizationUnit"),
    ("ClientCertificateRequestSubjectState", .string "State"),
    ("ConnectionTimeout", .int 3000),
    ("ConnectionUrl", .string "ws://172.30.1.88:8080/steve/websocket/CentralSystemService"),
    ("DatabasePath", .string "/usr/local/app/ocpp/chargepoint.db"),
    ("FirmwareVersion", .string "v1.0"),
    ("FirmwareSavePath", .string "/tmp"),
    ("SecurityLogSavePath", .string "/usr/local/app/ocpp"),
    ("Iccid", .string "111"),
    ("Imsi", .string "111"),
    ("JsonSchemasPath", .string "/usr/local/app/ocpp/schema/json"),
    ("MeterSerialNumber", .string "MeterSN123"),
    ("MeterType", .string "MainMeterType"),
    ("Model", .string "YourModel"),
    ("Vendor", .string "DeYe"),
    ("Protocol", .string "ocpp1.6"),
    ("OcppSoftwareVersion", .string "OCPP1.6_g00000"),
    ("RetryInterval", .int 2000),
    ("TransactionMessageAttempts", .int 3),
    ("LocalListVersion", .int 0),
    ("SecurityProfile", .int 1),
    ("Tlsv12CipherList", .string "ECDHE-ECDSA-AES256-GCM-SHA384:ECDHE-RSA-AES256-GCM-SHA384"),
    ("Tlsv13CipherList", .string "TLS_AES_128_GCM_SHA256:TLS_AES_256_GCM_SHA384"),
    ("TlsServerCertificateCa", .string "/usr/local/app/ocpp/open-ocpp_ca.crt"),
    ("TlsClientCertificate", .string "/usr/local/app/ocpp/open-ocpp_charge-point.crt"),
    ("TlsClientCertificatePrivateKey", .string "/usr/local/app/ocpp/open-ocpp_charge-point.key"),
    ("TlsClientCertificatePrivateKeyPassphrase", .string ""),
    ("InternalCertificateManagementEnabled", .bool false),
    ("TlsAllowSelfSignedCertificates", .bool true),
    ("TlsAllowExpiredCertificates", .bool false),
    ("TlsAcceptNonTrustedCertificates", .bool false),
    ("TlsSkipServerNameCheck", .bool false),
    ("SecurityEventNotificationEnabled", .bool true),
    ("SecurityLogMaxEntriesCount", .int 2000),
    ("AuthentCacheMaxEntriesCount", .int 1000)]

/-- The member `OCPP1_6` of `DEFAULT_CONFIG_JSON`. -/
def ocpp16Defaults : Value.Members :=
  [("AllowOfflineTxForUnknownId", .bool false),
    ("AuthorizationCacheEnabled", .bool false),
    ("AuthorizeRemoteTxRequests", .bool true),
    ("ClockAlignedDataInterval", .int 3600),
    ("ConnectorPhaseRotation", .string "NotApplicable"),
    ("GetConfigurationMaxKeys", .int 150),
    ("HeartbeatInterval", .int 15),
    ("LocalAuthListEnabled", .bool false),
    ("LocalAuthListMaxLength", .int 500),
    ("LocalAuthorizeOffline", .bool false),
    ("LocalPreAuthorize", .bool false),
    ("MeterValueSampleInterval", .int 60),
    ("MeterValuesAlignedData", .string "Energy.Active.Import.Register"),
    ("MeterValuesAlignedDataMaxLength", .int 64),
    ("MeterValuesSampledData", .string "Energy.Active.Import.Register"),
    ("MeterValuesSampledDataMaxLength", .int 64),
    ("NumberOfConnectors", .int 8),
    ("ReserveConnectorZeroSupported", .bool false),
    ("ResetRetries", .int 2),
    ("SendLocalListMaxLength", .int 0),
    ("StopTransactionOnEVSideDisconnect", .bool true),
    ("StopTransactionOnInvalidId", .bool false),
    ("StopTxnAlignedData", .string "Energy.Active.Import.Register"),
    ("StopTxnAlignedDataMaxLength", .int 64),
    ("StopTxnSampledData", .string "Energy.Active.Import.Register"),
    ("StopTxnSampledDataMaxLength", .int 64),
    ("SupportedFeatureProfiles",
      .string "Core,FirmwareManagement,LocalAuthListManagement,Reservation,RemoteTrigger"),
    ("SupportedFeatureProfilesMaxLength", .int 128),
    ("TransactionMessageAttempts", .int 0),
    ("TransactionMessageRetryInterval", .int 60),
    ("WebSocketPingInterval", .int 30),
    ("ConnectionTimeOut", .int 180),
    ("AdditionalRootCertificateCheck", .bool false),
    ("AuthorizationKey", .string "123123"),
    ("CertificateSignedMaxChainSize", .int 10000),
    ("CertificateStoreMaxLength", .int 50),
    ("CpoName", .string "DeYe OCPP1_6"),
    ("SupportedFileTransferProtocols", .string "FTP,FTPS,HTTP,HTTPS"),
    ("UnlockConnectorOnEVSideDisconnect", .bool true)]

/-- `DEFAULT_CONFIG_JSON`, parsed. -/
def defaultMembers : Members :=
  [("ChargePoint", .object chargePointDefaults), ("OCPP1_6", .object ocpp16Defaults)]

def defaultConfig : Value := .object defaultMembers

/-! ## `checkNode` -/

def jsonTypeToString : Kind → String
  | .null => "null"
  | .false => "bool"
  | .true => "bool"
  | .object => "object"
  | .array => "array"
  | .string => "string"
  | .number => "number"

/-- A warning of `checkNode`. -/
inductive Complaint where
  /-- `Missing key: %s` -/
  | missing (path : String)
  /-- `Type mismatch: %s (expect=%s, actual=%s)` -/
  | mismatch (path expect actual : String)
  deriving DecidableEq

/-- What `checkNode` returns, and what it logged. -/
structure Checked where
  ok : Bool
  log : List Complaint

/-- The path the code builds for a member: `path.empty() ? key : path + "." + key`. -/
def fullPath (path key : String) : String := if path = "" then key else path ++ "." ++ key

/-- The type test, and its warning. -/
def compareTypes (path : String) (defVal cfgVal : Value) : Checked :=
  if sameType cfgVal defVal then ⟨true, []⟩
  else ⟨false, [.mismatch path (jsonTypeToString defVal.getType)
    (jsonTypeToString cfgVal.getType)]⟩

mutual

/-- A member that is there: the type test, and the recursion wherever the default has
an object. -/
def checkMember (path : String) : Value → Value → Except Failure Checked
  | .object defs, cfgVal => do
      let same := compareTypes path (.object defs) cfgVal
      let below ← checkMembers defs cfgVal path
      return ⟨same.ok && below.ok, same.log ++ below.log⟩
  | defVal, cfgVal => .ok (compareTypes path defVal cfgVal)

/-- The loop of `checkNode` over the members of the default. -/
def checkMembers : Members → Value → String → Except Failure Checked
  | [], _, _ => .ok ⟨true, []⟩
  | (name, defVal) :: rest, cfgNode, path => do
      let key := cStr name
      let found ← cfgNode.hasMember key
      if !found then
        let later ← checkMembers rest cfgNode path
        return ⟨false, .missing (fullPath path key) :: later.log⟩
      else
        let cfgVal ← cfgNode.member key
        let first ← checkMember (fullPath path key) defVal cfgVal
        let later ← checkMembers rest cfgNode path
        return ⟨first.ok && later.ok, first.log ++ later.log⟩

end

/-- `checkNode`.  `MemberBegin` asserts an object. -/
def checkNode : Value → Value → String → Except Failure Checked
  | .object defs, cfgNode, path => checkMembers defs cfgNode path
  | _, _, _ => .error .rapidjson

/-! ## `mergeNode` -/

mutual

/-- What becomes of a member that has the default's type: an object is merged. -/
def mergeValue : Value → Value → Value
  | .object defs, .object cfgs => .object (mergeMembers defs cfgs)
  | _, cfgVal => cfgVal

/-- The loop of `mergeNode` over the members of the default. -/
def mergeMembers : Members → Members → Members
  | [], cfgs => cfgs
  | (name, defVal) :: rest, cfgs =>
      let key := cStr name
      match findMember key cfgs with
      | none => mergeMembers rest (cfgs ++ [(key, defVal)])
      | some cfgVal =>
          if ¬ sameType cfgVal defVal then mergeMembers rest (replaceMember key defVal cfgs)
          else mergeMembers rest (replaceMember key (mergeValue defVal cfgVal) cfgs)

end

/-- `mergeNode`.  `MemberBegin` and `HasMember` assert objects; below the root it is
called on two objects only. -/
def mergeNode : Value → Value → Except Failure Value
  | .object [], cfgNode => .ok cfgNode
  | .object defs, .object cfgs => .ok (.object (mergeMembers defs cfgs))
  | _, _ => .error .rapidjson

/-- `validateAndMergeConfig`: its result, and the configuration it leaves. -/
def validateAndMergeConfig (config : Value) : Except Failure (Bool × Value) :=
  if ¬ config.isObject then .ok (false, config)
  else do
    let _ ← checkNode defaultConfig config ""
    let merged ← mergeNode defaultConfig config
    return (true, merged)

/-! ## One level of a merge -/

variable {defs cfgs : Members} {d c : Value} {name : String}

@[simp] theorem sameType_self (v : Value) : sameType v v = true := by
  simp [sameType]

/-- What becomes of a member that is there. -/
def mergeOne (defVal cfgVal : Value) : Value :=
  if sameType cfgVal defVal then mergeValue defVal cfgVal else defVal

theorem mergeMembers_cons {defVal : Value} {rest : Members} (clean : NulFree name) :
    mergeMembers ((name, defVal) :: rest) cfgs =
      mergeMembers rest (match findMember name cfgs with
        | none => cfgs ++ [(name, defVal)]
        | some cfgVal => replaceMember name (mergeOne defVal cfgVal) cfgs) := by
  simp only [mergeMembers, cStr_of_nulFree clean, mergeOne]
  cases findMember name cfgs with
  | none => rfl
  | some cfgVal =>
      by_cases same : sameType cfgVal defVal = true
      · simp [same]
      · simp [same]

/-- **A member after the merge.** -/
theorem findMember_mergeMembers (nodup : (defs.map Prod.fst).Nodup)
    (clean : ∀ name ∈ defs.map Prod.fst, NulFree name) :
    findMember name (mergeMembers defs cfgs) =
      match findMember name defs with
      | none => findMember name cfgs
      | some defVal =>
          some (match findMember name cfgs with
            | none => defVal
            | some cfgVal => mergeOne defVal cfgVal) := by
  induction defs generalizing cfgs with
  | nil => rfl
  | cons m rest ih =>
      obtain ⟨key, defVal⟩ := m
      rw [List.map_cons, List.nodup_cons] at nodup
      have cleanRest : ∀ name ∈ rest.map Prod.fst, NulFree name :=
        fun other inside => clean other (List.mem_cons_of_mem _ inside)
      rw [mergeMembers_cons (clean key List.mem_cons_self), ih nodup.2 cleanRest]
      by_cases here : key = name
      · subst here
        have last : findMember key rest = none := findMember_eq_none.2 nodup.1
        simp only [last, findMember, if_true]
        cases there : findMember key cfgs with
        | none => simp [findMember_append, there, findMember]
        | some cfgVal => simp [findMember_replaceMember there]
      · have same : findMember name (match findMember key cfgs with
            | none => cfgs ++ [(key, defVal)]
            | some cfgVal => replaceMember key (mergeOne defVal cfgVal) cfgs) =
            findMember name cfgs := by
          cases findMember key cfgs with
          | none => simp [findMember_append, findMember, here]
          | some cfgVal => exact findMember_replaceMember_of_ne (Ne.symm here)
        simp only [same, findMember, here, if_false]

theorem filter_replaceMember {ms : Members} {w : Value} {p : String → Bool}
    (dropped : p name = false) :
    (replaceMember name w ms).filter (fun m => p m.1) = ms.filter fun m => p m.1 := by
  induction ms with
  | nil => rfl
  | cons m rest ih =>
      by_cases here : m.1 = name
      · simp [replaceMember, here, dropped]
      · simp only [replaceMember, here, if_false, List.filter_cons, ih]

/-- The members the default does not name stay as they are and where they are. -/
theorem filter_mergeMembers {p : String → Bool} (clean : ∀ name ∈ defs.map Prod.fst, NulFree name)
    (dropped : ∀ name ∈ defs.map Prod.fst, p name = false) :
    (mergeMembers defs cfgs).filter (fun m => p m.1) = cfgs.filter fun m => p m.1 := by
  induction defs generalizing cfgs with
  | nil => rfl
  | cons m rest ih =>
      obtain ⟨key, defVal⟩ := m
      have here := dropped key List.mem_cons_self
      rw [mergeMembers_cons (clean key List.mem_cons_self),
        ih (fun other inside => clean other (List.mem_cons_of_mem _ inside))
          (fun other inside => dropped other (List.mem_cons_of_mem _ inside))]
      cases findMember key cfgs with
      | none => simp [here]
      | some cfgVal => exact filter_replaceMember here

/-- A merge that finds nothing to do. -/
theorem mergeMembers_fixed (clean : ∀ name ∈ defs.map Prod.fst, NulFree name)
    (fixed : ∀ m ∈ defs, ∃ cfgVal, findMember m.1 cfgs = some cfgVal ∧ mergeOne m.2 cfgVal = cfgVal) :
    mergeMembers defs cfgs = cfgs := by
  induction defs with
  | nil => rfl
  | cons m rest ih =>
      obtain ⟨key, defVal⟩ := m
      obtain ⟨cfgVal, found, same⟩ := fixed (key, defVal) List.mem_cons_self
      have there : findMember key cfgs = some cfgVal := found
      have kept : mergeOne defVal cfgVal = cfgVal := same
      rw [mergeMembers_cons (clean key List.mem_cons_self), there]
      simp only [kept, replaceMember_self there]
      exact ih (fun other inside => clean other (List.mem_cons_of_mem _ inside))
        fun m inside => fixed m (List.mem_cons_of_mem _ inside)

/-! ## Every level of a merge -/

theorem sameType_object {v : Value} {ms : Members} :
    sameType v (.object ms) = true ↔ ∃ ns, v = .object ns := by
  cases v with
  | bool b => cases b <;> simp [sameType, getType, isBool]
  | _ => simp [sameType, getType, isBool]

theorem mergeOne_object (defs cfgs : Members) :
    mergeOne (.object defs) (.object cfgs) = .object (mergeMembers defs cfgs) := by
  rw [mergeOne, if_pos (sameType_object.2 ⟨cfgs, rfl⟩), mergeValue]

theorem mergeOne_of_mismatch (mismatch : sameType c d = false) : mergeOne d c = d := by
  rw [mergeOne, mismatch]
  rfl

theorem mergeOne_leaf (leaf : d.isObject = false) (same : sameType c d = true) :
    mergeOne d c = c := by
  rw [mergeOne, if_pos same]
  cases d with
  | object defs => cases leaf
  | _ => rfl

theorem sameType_mergeOne (d c : Value) : sameType (mergeOne d c) d = true := by
  cases same : sameType c d with
  | false => rw [mergeOne_of_mismatch same, sameType_self]
  | true =>
      cases d with
      | object defs =>
          obtain ⟨cfgs, rfl⟩ := sameType_object.1 same
          rw [mergeOne_object]
          exact sameType_object.2 ⟨_, rfl⟩
      | _ => rw [mergeOne_leaf rfl same, same]

/-- **A path of the default after the merge.** -/
theorem resolve_mergeOne {path : List String} {e : Value} (distinct : Distinct d)
    (names : CNames d) (there : resolve d path = some e) :
    resolve (mergeOne d c) path = some (match resolve c path with
      | none => e
      | some cfgVal => mergeOne e cfgVal) := by
  induction path generalizing d c with
  | nil =>
      rw [resolve_nil, Option.some.injEq] at there
      rw [resolve_nil, resolve_nil, there]
  | cons name path ih =>
      obtain ⟨defs, d', rfl, found, below⟩ := resolve_cons.1 there
      cases c with
      | object cfgs =>
          rw [mergeOne_object, resolve_object, resolve_object,
            findMember_mergeMembers distinct.here names.here, found]
          cases here : findMember name cfgs with
          | none => exact below
          | some c' => exact ih (distinct.below found) (names.below found) below
      | bool b =>
          rw [mergeOne_of_mismatch (by cases b <;> rfl)]
          exact there
      | _ => exact there

theorem mergeOne_idem (distinct : Distinct d) (names : CNames d) :
    mergeOne d d = d ∧ ∀ c, mergeOne d (mergeOne d c) = mergeOne d c := by
  induction d using byMembers with
  | leaf d leaf =>
      have self : mergeOne d d = d := mergeOne_leaf leaf (sameType_self d)
      refine ⟨self, fun c => ?_⟩
      cases same : sameType c d with
      | false => rw [mergeOne_of_mismatch same, self]
      | true => rw [mergeOne_leaf leaf same, mergeOne_leaf leaf same]
  | object defs ih =>
      have below := fun name v found =>
        ih name v found (distinct.below found) (names.below found)
      have self : mergeOne (.object defs) (.object defs) = .object defs := by
        rw [mergeOne_object, mergeMembers_fixed names.here]
        rintro ⟨name, v⟩ inside
        have found := findMember_of_mem distinct.here inside
        exact ⟨v, found, (below name v found).1⟩
      refine ⟨self, fun c => ?_⟩
      cases same : sameType c (.object defs) with
      | false => rw [mergeOne_of_mismatch same, self]
      | true =>
          obtain ⟨cfgs, rfl⟩ := sameType_object.1 same
          rw [mergeOne_object, mergeOne_object, mergeMembers_fixed names.here]
          rintro ⟨name, v⟩ inside
          have found := findMember_of_mem distinct.here inside
          obtain ⟨self, again⟩ := below name v found
          have after : findMember name (mergeMembers defs cfgs) = _ :=
            findMember_mergeMembers distinct.here names.here
          rw [found] at after
          refine ⟨_, after, ?_⟩
          cases findMember name cfgs with
          | none => exact self
          | some cfgVal => exact again cfgVal

/-! ## What a merge is for -/

/-- Every path of the default is there, with its type. -/
def Conforms (defNode cfgNode : Value) : Prop :=
  ∀ path d, resolve defNode path = some d →
    ∃ c, resolve cfgNode path = some c ∧ sameType c d = true

theorem Conforms.below (conforms : Conforms (.object defs) (.object cfgs))
    (found : findMember name defs = some d) :
    ∃ c, findMember name cfgs = some c ∧ Conforms d c := by
  obtain ⟨c, there, -⟩ := conforms [name] d (by rw [resolve_object, found]; exact resolve_nil d)
  obtain ⟨ms, c', same, here, -⟩ := resolve_cons.1 there
  cases same
  refine ⟨c', here, fun path e below => ?_⟩
  obtain ⟨e', there, same⟩ := conforms (name :: path) e (by rw [resolve_object, found]; exact below)
  rw [resolve_object, here] at there
  exact ⟨e', there, same⟩

theorem compareTypes_same (path : String) (same : sameType c d = true) :
    compareTypes path d c = ⟨true, []⟩ := by
  rw [compareTypes, if_pos same]

/-- A check of members that are all there and pass theirs. -/
theorem checkMembers_ok {path : String} (clean : ∀ name ∈ defs.map Prod.fst, NulFree name)
    (pass : ∀ m ∈ defs, ∃ c, findMember m.1 cfgs = some c ∧
      ∀ path, checkMember path m.2 c = .ok ⟨true, []⟩) :
    checkMembers defs (.object cfgs) path = .ok ⟨true, []⟩ := by
  induction defs with
  | nil => rfl
  | cons m rest ih =>
      obtain ⟨key, defVal⟩ := m
      obtain ⟨c, found, checked⟩ := pass (key, defVal) List.mem_cons_self
      have later := ih (fun other inside => clean other (List.mem_cons_of_mem _ inside))
        fun m inside => pass m (List.mem_cons_of_mem _ inside)
      have here : findMember key cfgs = some c := found
      simp only [checkMembers, cStr_of_nulFree (clean key List.mem_cons_self), hasMember, member,
        here, checked, later, Option.isSome_some, bind, Except.bind, pure, Except.pure]
      rfl

/-- Members that conform pass the check, when each of them passes its own. -/
theorem checkMembers_of_below (distinct : Distinct (.object defs)) (names : CNames (.object defs))
    (conforms : Conforms (.object defs) (.object cfgs))
    (below : ∀ name v, findMember name defs = some v → ∀ c, Conforms v c → ∀ path,
      checkMember path v c = .ok ⟨true, []⟩) (path : String) :
    checkMembers defs (.object cfgs) path = .ok ⟨true, []⟩ := by
  refine checkMembers_ok names.here ?_
  rintro ⟨name, v⟩ inside
  have found := findMember_of_mem distinct.here inside
  obtain ⟨c, here, conforms⟩ := conforms.below found
  exact ⟨c, here, below name v found c conforms⟩

theorem checkMember_of_conforms (distinct : Distinct d) (names : CNames d)
    (conforms : Conforms d c) (path : String) : checkMember path d c = .ok ⟨true, []⟩ := by
  obtain ⟨c', there, same⟩ := conforms [] d (resolve_nil d)
  rw [resolve_nil, Option.some.injEq] at there
  subst there
  induction d using byMembers generalizing c path with
  | leaf d leaf =>
      cases d with
      | object defs => cases leaf
      | _ => simp only [checkMember, compareTypes_same path same]
  | object defs ih =>
      obtain ⟨cfgs, rfl⟩ := sameType_object.1 same
      have members : checkMembers defs (.object cfgs) path = .ok ⟨true, []⟩ := by
        apply checkMembers_of_below distinct names conforms
        intro name v found c below path
        obtain ⟨c', there, same⟩ := below [] v (resolve_nil v)
        rw [resolve_nil, Option.some.injEq] at there
        subst there
        exact ih name v found (distinct.below found) (names.below found) below path same
      simp only [checkMember, compareTypes_same path same, members, bind, Except.bind, pure,
        Except.pure]
      rfl

/-- **What conforms passes the check.** -/
theorem checkNode_of_conforms (distinct : Distinct (.object defs)) (names : CNames (.object defs))
    (conforms : Conforms (.object defs) (.object cfgs)) (path : String) :
    checkNode (.object defs) (.object cfgs) path = .ok ⟨true, []⟩ :=
  checkMembers_of_below distinct names conforms (fun _ _ found _ below =>
    checkMember_of_conforms (distinct.below found) (names.below found) below) path

/-- What the merge of `cfgNode` with the default `defNode` is to be. -/
structure Merged (defNode cfgNode merged : Value) : Prop where
  /-- Every path of the default is there with its type, and the check says so. -/
  conforms : Conforms defNode merged
  checked : checkNode defNode merged "" = .ok ⟨true, []⟩
  /-- A leaf of the right type keeps its value. -/
  kept : ∀ path d c, resolve defNode path = some d → d.isObject = false →
    resolve cfgNode path = some c → sameType c d = true → resolve merged path = some c
  /-- What the default does not name is unchanged. -/
  unnamed : ∀ path ds cs, resolve defNode path = some (.object ds) →
    resolve cfgNode path = some (.object cs) →
    ∃ ms, resolve merged path = some (.object ms) ∧
      ms.filter (fun m => m.1 ∉ ds.map Prod.fst) = cs.filter fun m => m.1 ∉ ds.map Prod.fst
  /-- What was missing or of another type holds the default. -/
  filled : ∀ path d, resolve defNode path = some d →
    (∀ c, resolve cfgNode path = some c → sameType c d = false) → resolve merged path = some d
  /-- A second merge changes nothing. -/
  again : mergeNode defNode merged = .ok merged

theorem mergeNode_object (defs cfgs : Members) :
    mergeNode (.object defs) (.object cfgs) = .ok (mergeOne (.object defs) (.object cfgs)) := by
  rw [mergeOne_object]
  cases defs <;> rfl

theorem conforms_mergeOne (distinct : Distinct d) (names : CNames d) (c : Value) :
    Conforms d (mergeOne d c) := by
  intro path e there
  refine ⟨_, resolve_mergeOne distinct names there, ?_⟩
  cases resolve c path with
  | none => exact sameType_self e
  | some cfgVal => exact sameType_mergeOne e cfgVal

/-- **Merging a default with distinct names, all C strings, into any configuration.** -/
theorem mergeNode_correct (distinct : Distinct (.object defs)) (names : CNames (.object defs))
    (cfgs : Members) :
    ∃ merged, mergeNode (.object defs) (.object cfgs) = .ok merged ∧
      Merged (.object defs) (.object cfgs) merged := by
  refine ⟨_, mergeNode_object defs cfgs, ?_⟩
  have conforms := conforms_mergeOne distinct names (.object cfgs)
  constructor
  case conforms => exact conforms
  case checked =>
    rw [mergeOne_object] at conforms ⊢
    exact checkNode_of_conforms distinct names conforms ""
  case kept =>
    intro path d c there leaf here same
    rw [resolve_mergeOne distinct names there, here]
    simp only [mergeOne_leaf leaf same]
  case unnamed =>
    intro path ds cs there here
    have level := resolve_mergeOne (c := .object cfgs) distinct names there
    rw [here] at level
    simp only [mergeOne_object] at level
    refine ⟨_, level, filter_mergeMembers (p := fun n => n ∉ ds.map Prod.fst) (names path ds there) ?_⟩
    intro name inside
    simpa using inside
  case filled =>
    intro path d there missing
    rw [resolve_mergeOne distinct names there]
    cases here : resolve (.object cfgs) path with
    | none => rfl
    | some c => exact congrArg some (mergeOne_of_mismatch (missing c here))
  case again =>
    have again := (mergeOne_idem distinct names).2 (.object cfgs)
    rw [mergeOne_object] at again ⊢
    rw [mergeNode_object, again]

/-- A default with a NUL in a name. -/
def nulDefault : Members := [("a\x00b", .int 1)]

/-- The merge adds the name up to the NUL. -/
theorem nul_name_is_cut :
    Distinct (.object nulDefault) ∧
      ¬ ∃ merged, mergeNode (.object nulDefault) (.object []) = .ok merged ∧
        Merged (.object nulDefault) (.object []) merged := by
  refine ⟨forall_levels (by decide) fun name v found => ?_, ?_⟩
  · have leaf : v = .int 1 := by
      have member := mem_of_findMember found
      simp only [nulDefault, List.mem_singleton, Prod.mk.injEq] at member
      exact member.2
    intro path ns there
    exact absurd there (no_levels (by rw [leaf]; rfl))
  · rintro ⟨merged, result, correct⟩
    obtain rfl := Except.ok.inj result
    obtain ⟨c, there, -⟩ := correct.conforms ["a\x00b"] (.int 1) rfl
    have missing : resolve (.object [("a", .int 1)]) ["a\x00b"] = none := rfl
    exact nomatch missing.symm.trans there

/-! ## The built-in default -/

theorem leaf_of_all {ms : Members} (leaves : ∀ m ∈ ms, m.2.isObject = false) {v : Value}
    (found : findMember name ms = some v) {P : Members → Prop} :
    ∀ path ns, resolve v path = some (.object ns) → P ns := fun _ _ there =>
  absurd there (no_levels (leaves _ (mem_of_findMember found)))

/-- A property of the three objects of the default. -/
theorem default_levels {P : Members → Prop} (root : P defaultMembers)
    (chargePoint : P chargePointDefaults) (ocpp16 : P ocpp16Defaults) :
    ∀ path ms, resolve defaultConfig path = some (.object ms) → P ms := by
  refine forall_levels root fun name v found => ?_
  have member := mem_of_findMember found
  simp only [defaultMembers, List.mem_cons, Prod.mk.injEq, List.not_mem_nil, or_false] at member
  rcases member with ⟨-, rfl⟩ | ⟨-, rfl⟩
  · exact forall_levels chargePoint fun _ _ found => leaf_of_all (by decide) found
  · exact forall_levels ocpp16 fun _ _ found => leaf_of_all (by decide) found

theorem distinct_default : Distinct defaultConfig :=
  default_levels (by decide) (by decide +kernel) (by decide +kernel)

theorem nulFree_chargePointDefaults : ∀ name ∈ chargePointDefaults.map Prod.fst, NulFree name := by
  unfold chargePointDefaults
  simp only [List.map_cons, List.map_nil, List.forall_mem_cons]
  repeat' apply And.intro
  all_goals first | exact List.forall_mem_nil _ | exact nulFree_ofList (by decide +kernel)

theorem nulFree_ocpp16Defaults : ∀ name ∈ ocpp16Defaults.map Prod.fst, NulFree name := by
  unfold ocpp16Defaults
  simp only [List.map_cons, List.map_nil, List.forall_mem_cons]
  repeat' apply And.intro
  all_goals first | exact List.forall_mem_nil _ | exact nulFree_ofList (by decide +kernel)

theorem cnames_default : CNames defaultConfig :=
  default_levels (by decide) nulFree_chargePointDefaults nulFree_ocpp16Defaults

/-- The built-in default, merged into an empty configuration. -/
theorem mergeNode_default :
    ∃ merged, mergeNode defaultConfig (.object []) = .ok merged ∧
      Merged defaultConfig (.object []) merged :=
  mergeNode_correct distinct_default cnames_default []

/-! ## Where the check runs into an assertion -/

/-- The check of an object gets through when the checks of the members it has do. -/
theorem checkMembers_returns_iff {path : String}
    (clean : ∀ name ∈ defs.map Prod.fst, NulFree name) :
    (∃ r, checkMembers defs (.object cfgs) path = .ok r) ↔
      ∀ m ∈ defs, ∀ c, findMember m.1 cfgs = some c →
        ∃ r, checkMember (fullPath path m.1) m.2 c = .ok r := by
  induction defs with
  | nil => simp [checkMembers]
  | cons m rest ih =>
      obtain ⟨key, defVal⟩ := m
      have later := ih fun other inside => clean other (List.mem_cons_of_mem _ inside)
      rw [List.forall_mem_cons, ← later]
      simp only [checkMembers, cStr_of_nulFree (clean key List.mem_cons_self), hasMember, member]
      cases findMember key cfgs with
      | none =>
          cases checkMembers rest (.object cfgs) path with
          | error failure => simp [bind, Except.bind]
          | ok r => simp [bind, Except.bind, pure, Except.pure]
      | some c =>
          cases first : checkMember (fullPath path key) defVal c with
          | error failure => simp [bind, Except.bind, first]
          | ok r =>
              cases checkMembers rest (.object cfgs) path with
              | error failure => simp [bind, Except.bind, first]
              | ok r' => simp [bind, Except.bind, pure, Except.pure, first]

theorem checkMember_leaf {path : String} (leaf : d.isObject = false) :
    ∃ r, checkMember path d c = .ok r := by
  cases d with
  | object defs => cases leaf
  | _ => exact ⟨_, rfl⟩

/-- An object of leaves is checked against an object, and against nothing else. -/
theorem checkMember_leaves_iff {path : String} (some_ : defs ≠ [])
    (clean : ∀ name ∈ defs.map Prod.fst, NulFree name) (leaves : ∀ m ∈ defs, m.2.isObject = false) :
    (∃ r, checkMember path (.object defs) c = .ok r) ↔ c.isObject = true := by
  have members : (∃ r, checkMember path (.object defs) c = .ok r) ↔
      ∃ r, checkMembers defs c path = .ok r := by
    simp only [checkMember]
    cases checkMembers defs c path with
    | error failure => simp [bind, Except.bind]
    | ok r => simp [bind, Except.bind, pure, Except.pure]
  rw [members]
  cases c with
  | object cfgs =>
      refine iff_of_true ?_ rfl
      rw [checkMembers_returns_iff clean]
      intro m inside c _
      exact checkMember_leaf (leaves m inside)
  | _ =>
      obtain ⟨m, rest, rfl⟩ := List.exists_cons_of_ne_nil some_
      refine iff_of_false ?_ nofun
      rintro ⟨r, checked⟩
      cases checked

/-- The objects of the default. -/
theorem checkNode_default_iff :
    (∃ r, checkNode defaultConfig (.object cfgs) "" = .ok r) ↔
      ∀ name ∈ ["ChargePoint", "OCPP1_6"], ∀ c, findMember name cfgs = some c → c.isObject = true := by
  show (∃ r, checkMembers defaultMembers (.object cfgs) "" = .ok r) ↔ _
  rw [checkMembers_returns_iff cnames_default.here]
  simp only [defaultMembers, List.forall_mem_cons, List.not_mem_nil, false_implies, implies_true,
    and_true]
  refine and_congr (forall_congr' fun c => imp_congr_right fun _ => ?_)
    (forall_congr' fun c => imp_congr_right fun _ => ?_)
  · exact checkMember_leaves_iff (by decide) nulFree_chargePointDefaults (by decide)
  · exact checkMember_leaves_iff (by decide) nulFree_ocpp16Defaults (by decide)

theorem validateAndMergeConfig_of_checked {r : Checked}
    (checked : checkNode defaultConfig (.object cfgs) "" = .ok r) :
    validateAndMergeConfig (.object cfgs) = .ok (true, mergeOne defaultConfig (.object cfgs)) := by
  have merged := mergeNode_object defaultMembers cfgs
  show (checkNode defaultConfig (.object cfgs) "" >>= fun _ => _) = _
  rw [checked]
  show (mergeNode (.object defaultMembers) (.object cfgs) >>= fun _ => _) = _
  rw [merged]
  rfl

/-- The built-in default is its own completion. -/
theorem validateAndMergeConfig_default :
    validateAndMergeConfig defaultConfig = .ok (true, defaultConfig) := by
  have conforms := conforms_mergeOne distinct_default cnames_default defaultConfig
  have self := (mergeOne_idem distinct_default cnames_default).1
  rw [self] at conforms
  have checked := checkNode_of_conforms distinct_default cnames_default conforms ""
  rw [defaultConfig, validateAndMergeConfig_of_checked checked, ← defaultConfig, self]

/-- **The configuration is completed exactly when `ChargePoint` and `OCPP1_6` are each
absent or an object.**  Anything else in their place ends in an assertion. -/
theorem validateAndMergeConfig_iff (cfgs : Members) :
    (∃ merged, validateAndMergeConfig (.object cfgs) = .ok (true, merged) ∧
        Conforms defaultConfig merged) ↔
      ∀ name ∈ ["ChargePoint", "OCPP1_6"], ∀ c, findMember name cfgs = some c → c.isObject = true := by
  rw [← checkNode_default_iff]
  constructor
  · rintro ⟨merged, result, -⟩
    obtain ⟨r, checked, -⟩ := bind_ok result
    exact ⟨r, checked⟩
  · rintro ⟨r, checked⟩
    exact ⟨mergeOne defaultConfig (.object cfgs), validateAndMergeConfig_of_checked checked,
      conforms_mergeOne distinct_default cnames_default _⟩

/-- A number where the default has an object. -/
theorem number_for_object_is_fatal :
    validateAndMergeConfig (.object [("ChargePoint", .int 5)]) = .error .rapidjson ∧
      ¬ ∃ merged, validateAndMergeConfig (.object [("ChargePoint", .int 5)]) = .ok (true, merged) ∧
        Conforms defaultConfig merged := by
  refine ⟨rfl, ?_⟩
  rintro ⟨merged, result, -⟩
  cases result

end ChargerStack.Ocpp.Config
