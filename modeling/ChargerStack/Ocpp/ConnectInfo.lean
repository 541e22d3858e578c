/-
# Ocpp.ConnectInfo -- what the client reads from the configuration before it connects

`initConnectInfo` tests that the members it needs are there, and then reads each with
the getter of the type it expects.  A getter asserts its type, and `GetUint` and
`GetInt` assert a range besides; the load and `setConfig` compare JSON types only, and
JSON has one type for all numbers.

* `returns_initConnectInfo`: on any document, which members decide whether it returns;
* `initConnectInfo_returns_iff`: on a document that was merged with the built-in one
  and then written by keys that do not replace one of its two objects, six numbers do.
-/
import ChargerStack.Lib.Run
import ChargerStack.Ocpp.ConfigDefaults
import ChargerStack.Ocpp.ConfigWrites
import ChargerStack.Ocpp.Url

namespace ChargerStack.Ocpp.Connect

open ChargerStack.Lib
open Cxx Rapidjson Value Config

set_option autoImplicit false

/-! ## `OCPPClient::initConnectInfo` -/

structure Credentials where
  user : String := ""
  password : String := ""
  tls12CipherList : String := ""
  tls13CipherList : String := ""
  encodedPemCertificates : Bool := false
  serverCertificateCa : String := ""
  clientCertificate : String := ""
  clientCertificatePrivateKey : String := ""
  clientCertificatePrivateKeyPassphrase : String := ""
  allowSelfsignedCertificates : Bool := false
  allowExpiredCertificates : Bool := false
  acceptUntrustedCertificates : Bool := false
  skipServerNameCheck : Bool := false
  serverName : String := ""
  deriving DecidableEq, Repr

structure ConnectInfo where
  retryInterval : Int
  webSocketPingInterval : Int
  url : String
  user : String
  password : String
  protocol : String
  timeout : Nat
  messageTimeout : Nat
  transactionMessageAttempts : Nat
  credentials : Credentials
  deriving DecidableEq, Repr

/-- The lambda `hasRequired`. -/
def hasRequired (obj : Value) : List String → Except Failure Bool
  | [] => .ok true
  | k :: keys => do
      let found ← obj.hasMember k
      if !found then return false
      hasRequired obj keys

/-- The members of `ChargePoint` that have to be there. -/
def chargePointRequired : List String :=
  ["Protocol", "ConnectionTimeout", "ConnectionUrl", "ChargePointIdentifier", "SecurityProfile",
    "RetryInterval", "CallRequestTimeout"]

/-- The members of `OCPP1_6` that have to be there. -/
def ocpp16Required : List String :=
  ["AuthorizationKey", "WebSocketPingInterval", "TransactionMessageAttempts"]

/-- The members of `ChargePoint` that TLS needs. -/
def tlsRequired : List String :=
  ["Tlsv12CipherList", "Tlsv13CipherList", "InternalCertificateManagementEnabled",
    "TlsServerCertificateCa", "TlsClientCertificate", "TlsClientCertificatePrivateKey",
    "TlsClientCertificatePrivateKeyPassphrase", "TlsAllowSelfSignedCertificates",
    "TlsAllowExpiredCertificates", "TlsAcceptNonTrustedCertificates", "TlsSkipServerNameCheck"]

/-- `FindMember` and the test for an object. -/
def findObject (jConfig : Value) (name : String) : Except Failure (Option Value) :=
  match jConfig with
  | .object ms => .ok ((findMember name ms).filter isObject)
  | _ => .error .rapidjson

/-- `obj[name].GetUint()`. -/
def uintAt (obj : Value) (name : String) : Except Failure Nat := do
  let v ← obj.member name
  v.getUint

/-- `obj[name].GetInt()`. -/
def intAt (obj : Value) (name : String) : Except Failure Int := do
  let v ← obj.member name
  v.getInt

/-- `obj[name].GetString()`. -/
def textAt (obj : Value) (name : String) : Except Failure String := do
  let v ← obj.member name
  v.getString

/-- `obj[name].GetBool()`. -/
def flagAt (obj : Value) (name : String) : Except Failure Bool := do
  let v ← obj.member name
  v.getBool

def toBytes (s : String) : List UInt8 := s.toUTF8.toList

/-- A text of bytes below 128. -/
def ofBytes (bytes : List UInt8) : String := String.ofList (bytes.map fun b => Char.ofNat b.toNat)

/-- The URL with a slash at its end, unless it is empty. -/
def withSlash (url : String) : String :=
  if url ≠ "" ∧ url.toList.getLast? ≠ some '/' then url ++ "/" else url

def basicAuth (securityProfile : Nat) (authorizationKey : String) (jChargePoint : Value) :
    Except Failure Credentials :=
  if authorizationKey ≠ "" ∧ securityProfile ≤ 2 then do
    let user ← textAt jChargePoint "ChargePointIdentifier"
    return { user := user, password := authorizationKey }
  else .ok {}

/-- The certificate the client shows, where both sides authenticate. -/
def clientCertificate (securityProfile : Nat) (jChargePoint : Value) (credentials : Credentials) :
    Except Failure Credentials :=
  if securityProfile = 0 ∨ securityProfile = 3 then do
    let certificate ← textAt jChargePoint "TlsClientCertificate"
    let privateKey ← textAt jChargePoint "TlsClientCertificatePrivateKey"
    let passphrase ← textAt jChargePoint "TlsClientCertificatePrivateKeyPassphrase"
    return { credentials with
      clientCertificate := certificate
      clientCertificatePrivateKey := privateKey
      clientCertificatePrivateKeyPassphrase := passphrase }
  else .ok credentials

/-- Certificates that are managed elsewhere. -/
def externalCertificates (securityProfile : Nat) (jChargePoint : Value)
    (credentials : Credentials) : Except Failure Credentials := do
  let ca ← textAt jChargePoint "TlsServerCertificateCa"
  let credentials ← clientCertificate securityProfile jChargePoint
    { credentials with serverCertificateCa := ca }
  let allowSelfsigned ← flagAt jChargePoint "TlsAllowSelfSignedCertificates"
  let allowExpired ← flagAt jChargePoint "TlsAllowExpiredCertificates"
  let acceptUntrusted ← flagAt jChargePoint "TlsAcceptNonTrustedCertificates"
  let skipServerName ← flagAt jChargePoint "TlsSkipServerNameCheck"
  return { credentials with
    allowSelfsignedCertificates := allowSelfsigned
    allowExpiredCertificates := allowExpired
    acceptUntrustedCertificates := acceptUntrusted
    skipServerNameCheck := skipServerName
    encodedPemCertificates := false }

/-- The passphrase of the charge point's own certificate. -/
def ownPassphrase (securityProfile : Nat) (jChargePoint : Value) (credentials : Credentials) :
    Except Failure Credentials :=
  if securityProfile = 3 then do
    let passphrase ← textAt jChargePoint "TlsClientCertificatePrivateKeyPassphrase"
    return { credentials with
      clientCertificate := ""
      clientCertificatePrivateKey := ""
      clientCertificatePrivateKeyPassphrase := passphrase }
  else .ok credentials

/-- Certificates that the charge point manages itself. -/
def internalCertificates (securityProfile : Nat) (jChargePoint : Value)
    (credentials : Credentials) : Except Failure Credentials := do
  let credentials ← ownPassphrase securityProfile jChargePoint
    { credentials with serverCertificateCa := "" }
  return { credentials with
    encodedPemCertificates := true
    allowSelfsignedCertificates := true
    allowExpiredCertificates := true
    acceptUntrustedCertificates := false
    skipServerNameCheck := false }

def tlsCredentials (securityProfile : Nat) (jChargePoint : Value) (credentials : Credentials) :
    Except Failure Credentials := do
  let tls12 ← textAt jChargePoint "Tlsv12CipherList"
  let tls13 ← textAt jChargePoint "Tlsv13CipherList"
  let internalCertMgmt ← flagAt jChargePoint "InternalCertificateManagementEnabled"
  let credentials := { credentials with tls12CipherList := tls12, tls13CipherList := tls13 }
  if securityProfile = 0 ∨ internalCertMgmt = true then
    externalCertificates securityProfile jChargePoint credentials
  else internalCertificates securityProfile jChargePoint credentials

/-- The end of the function, where the result is stored. -/
def saveInfo (jChargePoint jOCPP16 : Value) (url : String) (credentials : Credentials)
    (info : ConnectInfo) : Except Failure (Bool × ConnectInfo) := do
  let protocol ← textAt jChargePoint "Protocol"
  let timeout ← uintAt jChargePoint "ConnectionTimeout"
  let messageTimeout ← uintAt jChargePoint "CallRequestTimeout"
  let retryInterval ← intAt jChargePoint "RetryInterval"
  let webSocketPingInterval ← intAt jOCPP16 "WebSocketPingInterval"
  let transactionMessageAttempts ← uintAt jOCPP16 "TransactionMessageAttempts"
  return (true, { info with
    credentials, url, protocol, timeout, messageTimeout, retryInterval, webSocketPingInterval,
    transactionMessageAttempts })

/-- TLS, unless the profile goes without, and the end of the function. -/
def tlsAndSave (securityProfile : Nat) (jChargePoint jOCPP16 : Value) (url : String)
    (credentials : Credentials) (info : ConnectInfo) : Except Failure (Bool × ConnectInfo) :=
  if securityProfile = 1 then saveInfo jChargePoint jOCPP16 url credentials info
  else do
    let hasTlsConfig ← hasRequired jChargePoint tlsRequired
    if !hasTlsConfig then return (false, info)
    let credentials ← tlsCredentials securityProfile jChargePoint credentials
    saveInfo jChargePoint jOCPP16 url credentials info

/-- The reads after that of the profile. -/
def extractFor (securityProfile : Nat) (jChargePoint jOCPP16 : Value) (info : ConnectInfo) :
    Except Failure (Bool × ConnectInfo) := do
  let authorizationKey ← textAt jOCPP16 "AuthorizationKey"
  let connectionUrl ← textAt jChargePoint "ConnectionUrl"
  let identifier ← textAt jChargePoint "ChargePointIdentifier"
  let url := withSlash connectionUrl ++ ofBytes (Url.encode (toBytes identifier))
  let credentials ← basicAuth securityProfile authorizationKey jChargePoint
  tlsAndSave securityProfile jChargePoint jOCPP16 url credentials info

/-- The reads, once the members are known to be there. -/
def extractInfo (jChargePoint jOCPP16 : Value) (info : ConnectInfo) :
    Except Failure (Bool × ConnectInfo) := do
  let securityProfile ← uintAt jChargePoint "SecurityProfile"
  extractFor securityProfile jChargePoint jOCPP16 info

/-- `initConnectInfo` on the current document: its result, and `m_connectInfo` after it. -/
def initConnectInfo (info : ConnectInfo) (doc : Value) : Except Failure (Bool × ConnectInfo) :=
  match getConfig doc "" with
  | none => .ok (false, info)
  | some jConfig => do
      let cp ← findObject jConfig "ChargePoint"
      let ocpp ← findObject jConfig "OCPP1_6"
      match cp, ocpp with
      | some jChargePoint, some jOCPP16 =>
          let hasChargePoint ← hasRequired jChargePoint chargePointRequired
          if !hasChargePoint then return (false, info)
          let hasOcpp16 ← hasRequired jOCPP16 ocpp16Required
          if !hasOcpp16 then return (false, info)
          extractInfo jChargePoint jOCPP16 info
      | _, _ => return (false, info)

/-! ## Whether a call returns -/

/-- No assertion ended the call. -/
def Returns {α : Type} (x : Except Failure α) : Prop := ∃ a, x = .ok a

variable {α β : Type} {x : Except Failure α} {f : α → Except Failure β}

@[simp] theorem returns_ok (a : α) : Returns (.ok a : Except Failure α) := ⟨a, rfl⟩

@[simp] theorem returns_pure (a : α) : Returns (pure a : Except Failure α) := ⟨a, rfl⟩

theorem returns_bind : Returns (x >>= f) ↔ ∃ a, x = .ok a ∧ Returns (f a) := by
  constructor
  · rintro ⟨b, ran⟩
    obtain ⟨a, first, rest⟩ := bind_ok ran
    exact ⟨a, first, b, rest⟩
  · rintro ⟨a, rfl, rest⟩
    exact rest

/-- What follows a read that succeeds returns or not whatever was read. -/
theorem returns_bind_then {P Q : Prop} (first : Returns x ↔ P)
    (rest : P → ∀ a, Returns (f a) ↔ Q) : Returns (x >>= f) ↔ P ∧ Q := by
  rw [returns_bind]
  constructor
  · rintro ⟨a, read, later⟩
    have holds : P := first.1 ⟨a, read⟩
    exact ⟨holds, (rest holds a).1 later⟩
  · rintro ⟨holds, later⟩
    obtain ⟨a, read⟩ := first.2 holds
    exact ⟨a, read, (rest holds a).2 later⟩

theorem returns_bind_and {P Q : Prop} (first : Returns x ↔ P) (rest : ∀ a, Returns (f a) ↔ Q) :
    Returns (x >>= f) ↔ P ∧ Q :=
  returns_bind_then first fun _ => rest

theorem returns_bind_last {P : Prop} (first : Returns x ↔ P) (rest : ∀ a, Returns (f a)) :
    Returns (x >>= f) ↔ P := by
  rw [returns_bind_and first fun a => iff_true_intro (rest a), and_true]

/-- A read on one of two branches. -/
theorem returns_if {p : Prop} [Decidable p] {P : Prop} {a : α} (first : Returns x ↔ P) :
    Returns (if p then x else .ok a) ↔ (p → P) := by
  split
  · rename_i holds
    rw [first, imp_iff_right holds]
  · rename_i fails
    exact iff_of_true (returns_ok a) fun holds => absurd holds fails

/-! ## What the getters accept -/

/-- The member is a string. -/
def IsText (ms : Members) (name : String) : Prop := ∃ s, findMember name ms = some (.string s)

/-- The member is `true` or `false`. -/
def IsFlag (ms : Members) (name : String) : Prop := ∃ b, findMember name ms = some (.bool b)

/-- The member is an integer from `low` on and below `high`. -/
def InRange (low high : Int) (ms : Members) (name : String) : Prop :=
  ∃ i, findMember name ms = some (.int i) ∧ low ≤ i ∧ i < high

/-- Every one of the members is there. -/
def Has (ms : Members) (names : List String) : Prop := ∀ name ∈ names, (findMember name ms).isSome

instance (ms : Members) (names : List String) : Decidable (Has ms names) :=
  inferInstanceAs (Decidable (∀ name ∈ names, _))

variable {ms : Members} {name : String}

theorem member_bind {f : Value → Except Failure β} {b : β} :
    (member (.object ms) name >>= f) = .ok b ↔ ∃ v, findMember name ms = some v ∧ f v = .ok b := by
  rw [member]
  cases findMember name ms with
  | none => simp [bind, Except.bind]
  | some v => simp [bind, Except.bind]

theorem returns_textAt : Returns (textAt (.object ms) name) ↔ IsText ms name := by
  simp only [Returns, textAt, member_bind]
  constructor
  · rintro ⟨s, v, found, read⟩
    cases v with
    | string t => exact ⟨t, found⟩
    | _ => cases read
  · rintro ⟨s, found⟩
    exact ⟨cStr s, _, found, rfl⟩

theorem flagAt_eq_ok {b : Bool} :
    flagAt (.object ms) name = .ok b ↔ findMember name ms = some (.bool b) := by
  rw [flagAt, member_bind]
  constructor
  · rintro ⟨v, found, read⟩
    cases v with
    | bool c =>
        obtain rfl := Except.ok.inj read
        exact found
    | _ => cases read
  · intro found
    exact ⟨_, found, rfl⟩

theorem returns_flagAt : Returns (flagAt (.object ms) name) ↔ IsFlag ms name :=
  exists_congr fun _ => flagAt_eq_ok

theorem uintAt_eq_ok {n : Nat} :
    uintAt (.object ms) name = .ok n ↔ findMember name ms = some (.int n) ∧ (n : Int) < 2 ^ 32 := by
  rw [uintAt, member_bind]
  constructor
  · rintro ⟨v, found, read⟩
    cases v with
    | int i =>
        simp only [getUint, isUint, decide_eq_true_eq] at read
        split at read
        · rename_i range
          obtain rfl := Except.ok.inj read
          rw [Int.toNat_of_nonneg range.1]
          exact ⟨found, range.2⟩
        · cases read
    | _ => cases read
  · rintro ⟨found, below⟩
    have range : isUint (.int n) = true := by
      rw [isUint, decide_eq_true_eq]
      exact ⟨Int.natCast_nonneg n, below⟩
    refine ⟨_, found, ?_⟩
    rw [getUint, if_pos range]
    exact congrArg Except.ok (Int.toNat_natCast n)

theorem returns_uintAt : Returns (uintAt (.object ms) name) ↔ InRange 0 (2 ^ 32) ms name := by
  simp only [Returns, uintAt_eq_ok]
  constructor
  · rintro ⟨n, found, below⟩
    exact ⟨n, found, Int.natCast_nonneg n, below⟩
  · rintro ⟨i, found, low, below⟩
    refine ⟨i.toNat, ?_⟩
    rw [Int.toNat_of_nonneg low]
    exact ⟨found, below⟩

theorem returns_intAt : Returns (intAt (.object ms) name) ↔ InRange (-2 ^ 31) (2 ^ 31) ms name := by
  simp only [Returns, intAt, member_bind]
  constructor
  · rintro ⟨n, v, found, read⟩
    cases v with
    | int i =>
        simp only [getInt, isInt, decide_eq_true_eq] at read
        split at read
        · exact ⟨i, found, ‹_›⟩
        · cases read
    | _ => cases read
  · rintro ⟨i, found, range⟩
    have fits : isInt (.int i) = true := decide_eq_true range
    exact ⟨i, _, found, by rw [getInt, if_pos fits]⟩

theorem hasRequired_object (names : List String) :
    hasRequired (.object ms) names = .ok (decide (Has ms names)) := by
  induction names with
  | nil => simp [hasRequired, Has]
  | cons name rest ih =>
      simp only [hasRequired, hasMember, bind, Except.bind, pure, Except.pure]
      cases found : findMember name ms with
      | none =>
          have missing : ¬ Has ms (name :: rest) := by
            rw [Has, List.forall_mem_cons, found]
            simp
          simp [missing]
      | some v =>
          have same : Has ms (name :: rest) ↔ Has ms rest := by
            rw [Has, List.forall_mem_cons, found]
            simp [Has]
          simp [ih, same]

/-! ## What the function accepts -/

/-- The members read for the client's certificate. -/
def CertificateReadable (cp : Members) : Prop :=
  IsText cp "TlsClientCertificate" ∧ IsText cp "TlsClientCertificatePrivateKey" ∧
    IsText cp "TlsClientCertificatePrivateKeyPassphrase"

/-- The members read for certificates that are managed elsewhere. -/
def ExternalReadable (profile : Int) (cp : Members) : Prop :=
  IsText cp "TlsServerCertificateCa" ∧ (profile = 0 ∨ profile = 3 → CertificateReadable cp) ∧
    IsFlag cp "TlsAllowSelfSignedCertificates" ∧ IsFlag cp "TlsAllowExpiredCertificates" ∧
    IsFlag cp "TlsAcceptNonTrustedCertificates" ∧ IsFlag cp "TlsSkipServerNameCheck"

/-- The members read for TLS. -/
def TlsReadable (profile : Int) (cp : Members) : Prop :=
  IsText cp "Tlsv12CipherList" ∧ IsText cp "Tlsv13CipherList" ∧
    ∃ internal, findMember "InternalCertificateManagementEnabled" cp = some (.bool internal) ∧
      (profile = 0 ∨ internal = true → ExternalReadable profile cp) ∧
      (¬ (profile = 0 ∨ internal = true) → profile = 3 →
        IsText cp "TlsClientCertificatePrivateKeyPassphrase")

/-- The members read at the end. -/
def SaveReadable (cp ocpp : Members) : Prop :=
  IsText cp "Protocol" ∧ InRange 0 (2 ^ 32) cp "ConnectionTimeout" ∧
    InRange 0 (2 ^ 32) cp "CallRequestTimeout" ∧ InRange (-2 ^ 31) (2 ^ 31) cp "RetryInterval" ∧
    InRange (-2 ^ 31) (2 ^ 31) ocpp "WebSocketPingInterval" ∧
    InRange 0 (2 ^ 32) ocpp "TransactionMessageAttempts"

/-- The members read once the required ones are there: nothing more when the profile asks for
TLS and one of its members is missing. -/
def ExtractReadable (cp ocpp : Members) : Prop :=
  ∃ profile, findMember "SecurityProfile" cp = some (.int profile) ∧ 0 ≤ profile ∧
    profile < 2 ^ 32 ∧ IsText ocpp "AuthorizationKey" ∧ IsText cp "ConnectionUrl" ∧
    IsText cp "ChargePointIdentifier" ∧
    (profile ≠ 1 → Has cp tlsRequired → TlsReadable profile cp ∧ SaveReadable cp ocpp) ∧
    (profile = 1 → SaveReadable cp ocpp)

/-- What the document must be where the required members are there. -/
def Readable (doc : Value) : Prop :=
  ∀ cp ocpp, resolve doc ["ChargePoint"] = some (.object cp) →
    resolve doc ["OCPP1_6"] = some (.object ocpp) → Has cp chargePointRequired →
    Has ocpp ocpp16Required → ExtractReadable cp ocpp

variable {cp ocpp : Members} {profile : Nat} {credentials : Credentials} {info : ConnectInfo}

theorem returns_basicAuth (profile : Nat) (key : String)
    (text : IsText cp "ChargePointIdentifier") : Returns (basicAuth profile key (.object cp)) :=
  (returns_if (returns_bind_last returns_textAt fun _ => returns_pure _)).2 fun _ => text

theorem returns_clientCertificate :
    Returns (clientCertificate profile (.object cp) credentials) ↔
      ((profile : Int) = 0 ∨ (profile : Int) = 3 → CertificateReadable cp) := by
  have same : ((profile : Int) = 0 ∨ (profile : Int) = 3) ↔ (profile = 0 ∨ profile = 3) := by omega
  rw [same]
  exact returns_if (returns_bind_and returns_textAt fun _ => returns_bind_and returns_textAt fun _ =>
    returns_bind_last returns_textAt fun _ => returns_pure _)

theorem returns_externalCertificates :
    Returns (externalCertificates profile (.object cp) credentials) ↔ ExternalReadable profile cp :=
  returns_bind_and returns_textAt fun _ => returns_bind_and returns_clientCertificate fun _ =>
    returns_bind_and returns_flagAt fun _ => returns_bind_and returns_flagAt fun _ =>
    returns_bind_and returns_flagAt fun _ => returns_bind_last returns_flagAt fun _ => returns_pure _

theorem returns_internalCertificates :
    Returns (internalCertificates profile (.object cp) credentials) ↔
      ((profile : Int) = 3 → IsText cp "TlsClientCertificatePrivateKeyPassphrase") := by
  have same : (profile : Int) = 3 ↔ profile = 3 := by omega
  rw [same]
  refine returns_bind_last ?_ fun _ => returns_pure _
  exact returns_if (returns_bind_last returns_textAt fun _ => returns_pure _)

theorem returns_tlsCredentials :
    Returns (tlsCredentials profile (.object cp) credentials) ↔ TlsReadable profile cp := by
  refine returns_bind_and returns_textAt fun _ => returns_bind_and returns_textAt fun _ => ?_
  rw [returns_bind]
  refine exists_congr fun internal => and_congr flagAt_eq_ok ?_
  have same : ((profile : Int) = 0 ∨ internal = true) ↔ (profile = 0 ∨ internal = true) := by
    refine or_congr ?_ Iff.rfl
    omega
  dsimp only
  rw [same]
  split
  · rename_i external
    rw [returns_externalCertificates]
    simp [external]
  · rename_i external
    rw [returns_internalCertificates]
    simp [external]

theorem returns_saveInfo {url : String} :
    Returns (saveInfo (.object cp) (.object ocpp) url credentials info) ↔ SaveReadable cp ocpp :=
  returns_bind_and returns_textAt fun _ => returns_bind_and returns_uintAt fun _ =>
    returns_bind_and returns_uintAt fun _ => returns_bind_and returns_intAt fun _ =>
    returns_bind_and returns_intAt fun _ => returns_bind_last returns_uintAt fun _ => returns_pure _

theorem returns_tlsAndSave {url : String} :
    Returns (tlsAndSave profile (.object cp) (.object ocpp) url credentials info) ↔
      ((profile : Int) ≠ 1 → Has cp tlsRequired → TlsReadable profile cp ∧ SaveReadable cp ocpp) ∧
      ((profile : Int) = 1 → SaveReadable cp ocpp) := by
  have same : (profile : Int) = 1 ↔ profile = 1 := by omega
  rw [ne_eq, same, tlsAndSave, hasRequired_object]
  by_cases one : profile = 1
  · rw [if_pos one, returns_saveInfo]
    simp [one]
  · rw [if_neg one]
    show Returns (if !decide (Has cp tlsRequired) then _ else _) ↔ _
    by_cases has : Has cp tlsRequired
    · simp only [has, decide_true, Bool.not_true, Bool.false_eq_true, if_false, one,
        not_false_eq_true, true_implies, false_implies, and_true]
      exact returns_bind_and returns_tlsCredentials fun _ => returns_saveInfo
    · simp [has, one]

theorem returns_extractFor :
    Returns (extractFor profile (.object cp) (.object ocpp) info) ↔
      IsText ocpp "AuthorizationKey" ∧ IsText cp "ConnectionUrl" ∧
      IsText cp "ChargePointIdentifier" ∧
      ((profile : Int) ≠ 1 → Has cp tlsRequired → TlsReadable profile cp ∧ SaveReadable cp ocpp) ∧
      ((profile : Int) = 1 → SaveReadable cp ocpp) := by
  refine returns_bind_and returns_textAt fun key => returns_bind_and returns_textAt fun _ =>
    returns_bind_then returns_textAt fun text _ => ?_
  have basic := iff_true_intro (returns_basicAuth profile key text)
  dsimp only
  rw [returns_bind_and basic fun _ => returns_tlsAndSave, true_and]

theorem returns_extractInfo :
    Returns (extractInfo (.object cp) (.object ocpp) info) ↔ ExtractReadable cp ocpp := by
  unfold extractInfo
  rw [returns_bind]
  constructor
  · rintro ⟨profile, read, later⟩
    obtain ⟨found, below⟩ := uintAt_eq_ok.1 read
    exact ⟨profile, found, Int.natCast_nonneg profile, below, returns_extractFor.1 later⟩
  · rintro ⟨profile, found, low, below, later⟩
    obtain ⟨n, rfl⟩ := Int.eq_ofNat_of_zero_le low
    exact ⟨n, uintAt_eq_ok.2 ⟨found, below⟩, returns_extractFor.2 later⟩

/-- `FindMember` found nothing, or something else than an object. -/
theorem no_object (missing : (findMember name ms).filter isObject = none) (ns : Members) :
    resolve (.object ms) [name] ≠ some (.object ns) := by
  rw [resolve_object]
  intro there
  obtain ⟨v, found, same⟩ := Option.bind_eq_some_iff.1 there
  rw [resolve_nil, Option.some.injEq] at same
  rw [found, same] at missing
  cases missing

theorem exists_object {v : Value} (found : (findMember name ms).filter isObject = some v) :
    ∃ ns, v = .object ns ∧ resolve (.object ms) [name] = some (.object ns) := by
  obtain ⟨there, object⟩ := Option.filter_eq_some_iff.1 found
  obtain ⟨ns, rfl⟩ := isObject_iff.1 object
  refine ⟨ns, rfl, ?_⟩
  rw [resolve_object, there]
  rfl

/-- The required members, and the reads after them. -/
theorem returns_required :
    Returns (do
      let hasChargePoint ← hasRequired (.object cp) chargePointRequired
      if !hasChargePoint then return (false, info)
      let hasOcpp16 ← hasRequired (.object ocpp) ocpp16Required
      if !hasOcpp16 then return (false, info)
      extractInfo (.object cp) (.object ocpp) info) ↔
      (Has cp chargePointRequired → Has ocpp ocpp16Required → ExtractReadable cp ocpp) := by
  rw [hasRequired_object, hasRequired_object]
  show Returns (if !decide (Has cp chargePointRequired) then _ else
    if !decide (Has ocpp ocpp16Required) then _ else _) ↔ _
  by_cases left : Has cp chargePointRequired
  · by_cases right : Has ocpp ocpp16Required
    · simp [left, right, returns_extractInfo]
    · simp [left, right]
  · simp [left]

/-- **Which documents the function gets through.** -/
theorem returns_initConnectInfo (info : ConnectInfo) (doc : Value) :
    Returns (initConnectInfo info doc) ↔ Readable doc := by
  cases doc with
  | object ms =>
      show Returns (match (findMember "ChargePoint" ms).filter isObject,
        (findMember "OCPP1_6" ms).filter isObject with
        | some jChargePoint, some jOCPP16 => _
        | _, _ => _) ↔ _
      unfold Readable
      cases left : (findMember "ChargePoint" ms).filter isObject with
      | none => exact iff_of_true (returns_pure _) fun cp _ there => absurd there (no_object left cp)
      | some jChargePoint =>
          obtain ⟨cp, rfl, there⟩ := exists_object left
          cases right : (findMember "OCPP1_6" ms).filter isObject with
          | none =>
              exact iff_of_true (returns_pure _) fun _ ocpp _ there =>
                absurd there (no_object right ocpp)
          | some jOCPP16 =>
              obtain ⟨ocpp, rfl, there'⟩ := exists_object right
              simp only [there, there', Option.some.injEq, Value.object.injEq]
              refine returns_required.trans ⟨?_, fun all => all cp ocpp rfl rfl⟩
              rintro readable _ _ rfl rfl
              exact readable
  | _ => exact iff_of_true (returns_ok _) fun cp _ there => by cases there

/-! ## Types along writes -/

theorem isBool_iff {v : Value} : v.isBool = true ↔ v.getType = .true ∨ v.getType = .false := by
  cases v with
  | bool b => cases b <;> simp [isBool, getType]
  | _ => simp [isBool, getType]

theorem sameType_iff {v w : Value} :
    sameType v w = true ↔ v.isBool = true ∧ w.isBool = true ∨ v.getType = w.getType := by
  simp [sameType]

theorem sameType_trans {u v w : Value} (first : sameType u v = true) (second : sameType v w = true) :
    sameType u w = true := by
  rw [sameType_iff] at first second ⊢
  rcases first with ⟨left, middle⟩ | same
  · rcases second with ⟨-, right⟩ | same
    · exact .inl ⟨left, right⟩
    · refine .inl ⟨left, ?_⟩
      rw [isBool_iff, ← same, ← isBool_iff]
      exact middle
  · rcases second with ⟨middle, right⟩ | same'
    · refine .inl ⟨?_, right⟩
      rw [isBool_iff, same, ← isBool_iff]
      exact middle
    · exact .inr (same.trans same')

/-- The names a key leads through. -/
def namesOf (key : String) : List String := (segments key).map cStr

/-- **An assignment of the same type** leaves every node its type, but for those inside the one
it assigns. -/
theorem sameType_assignPath {value node : Value} {path : List String}
    (same : sameType value node = true) :
    ∀ {doc changed : Value}, comparePath doc path = some node →
      assignPath value doc path = .ok changed → ∀ q c, resolve doc q = some c →
      (∀ rest, q = path.map cStr ++ rest → rest = []) →
      ∃ c', resolve changed q = some c' ∧ sameType c' c = true := by
  induction path with
  | nil =>
      intro doc changed compared assigned q c there outside
      obtain rfl : q = [] := outside q rfl
      have written : value = changed := by simpa using assigned
      have here : doc = node := by cases doc <;> simpa [comparePath] using compared
      rw [resolve_nil, Option.some.injEq] at there
      subst written here there
      exact ⟨value, resolve_nil value, same⟩
  | cons segment path ih =>
      intro doc changed compared assigned q c there outside
      obtain ⟨ms, v, rfl, found, below⟩ := comparePath_cons compared
      simp only [assignPath, found] at assigned
      obtain ⟨w, inside, result⟩ := bind_ok assigned
      obtain rfl := Except.ok.inj result
      cases q with
      | nil =>
          rw [resolve_nil, Option.some.injEq] at there
          subst there
          exact ⟨_, resolve_nil _, sameType_object.2 ⟨_, rfl⟩⟩
      | cons name q =>
          rw [resolve_object] at there ⊢
          by_cases here : name = cStr segment
          · subst here
            rw [found] at there
            rw [findMember_replaceMember found]
            refine ih below inside q c there fun rest split => outside rest ?_
            rw [split, List.map_cons, List.cons_append]
          · rw [findMember_replaceMember_of_ne here]
            exact ⟨c, there, sameType_self c⟩

/-- A call of `setConfig` with a key that is not empty, and that returns true. -/
def write (doc : Value) (w : String × Value) : Option Value :=
  if w.1 = "" then none
  else
    match setConfig doc w.1 w.2 with
    | .ok (true, changed) => some changed
    | _ => none

/-- The key names one of the two objects of the configuration, and not a member of it. -/
def NamesObject (key : String) : Prop := namesOf key = ["ChargePoint"] ∨ namesOf key = ["OCPP1_6"]

instance (key : String) : Decidable (NamesObject key) := inferInstanceAs (Decidable (_ ∨ _))

theorem default_objects {path : List String}
    (there : resolve defaultConfig path = some (.object ms)) :
    path = [] ∨ path = ["ChargePoint"] ∨ path = ["OCPP1_6"] := by
  cases path with
  | nil => exact .inl rfl
  | cons name path =>
      obtain ⟨_, v, same, found, below⟩ := resolve_cons.1 there
      obtain rfl := Value.object.inj same
      have member := mem_of_findMember found
      -- below an object of leaves there is no other
      have last : ∀ leaves : Members, v = .object leaves → (∀ m ∈ leaves, m.2.isObject = false) →
          path = [] := by
        rintro leaves rfl leaf
        cases path with
        | nil => rfl
        | cons other path =>
            obtain ⟨_, u, same, found, below⟩ := resolve_cons.1 below
            obtain rfl := Value.object.inj same
            exact absurd below (no_levels (leaf _ (mem_of_findMember found)))
      simp only [defaultMembers, List.mem_cons, Prod.mk.injEq, List.not_mem_nil, or_false] at member
      rcases member with ⟨rfl, object⟩ | ⟨rfl, object⟩
      · rw [last _ object (by decide)]
        exact .inr (.inl rfl)
      · rw [last _ object (by decide)]
        exact .inr (.inr rfl)

theorem namesOf_ne_nil (key : String) : namesOf key ≠ [] := by
  rw [namesOf, ne_eq, List.map_eq_nil_iff]
  exact segments_ne_nil key

/-- **A write keeps the types of the configuration**, unless it replaces one of the objects. -/
theorem conforms_write {doc changed : Value} {w : String × Value} (inside : ¬ NamesObject w.1)
    (conforms : Conforms defaultConfig doc) (wrote : write doc w = some changed) :
    Conforms defaultConfig changed := by
  unfold write at wrote
  split at wrote
  · cases wrote
  rename_i nonempty
  split at wrote
  · rename_i after returned
    obtain rfl := Option.some.inj wrote
    obtain ⟨node, compared, assigned, ⟨empty, -⟩ | ⟨-, same, -⟩⟩ := setConfig_true returned
    · exact absurd empty nonempty
    rw [pathOf, if_neg nonempty] at compared assigned
    intro q d there
    obtain ⟨c, found, typed⟩ := conforms q d there
    have outside : ∀ rest, q = namesOf w.1 ++ rest → rest = [] := by
      rintro rest rfl
      cases rest with
      | nil => rfl
      | cons name rest =>
          rw [resolve_append] at there
          obtain ⟨u, above, below⟩ := Option.bind_eq_some_iff.1 there
          obtain ⟨_, -, rfl, -⟩ := resolve_cons.1 below
          rcases default_objects above with empty | named
          · exact absurd empty (namesOf_ne_nil w.1)
          · exact absurd named inside
    obtain ⟨c', found', kept⟩ := sameType_assignPath same compared assigned q c found outside
    exact ⟨c', found', sameType_trans kept typed⟩
  · cases wrote

/-! ## A configuration of the right types -/

variable {defs : Members} {doc : Value}

theorem member_of_conforms {d : Value} (conforms : Conforms (.object defs) (.object ms))
    (found : findMember name defs = some d) :
    ∃ c, findMember name ms = some c ∧ sameType c d = true := by
  obtain ⟨c, there, below⟩ := conforms.below found
  obtain ⟨c', same, typed⟩ := below [] d (resolve_nil d)
  rw [resolve_nil, Option.some.injEq] at same
  subst same
  exact ⟨c, there, typed⟩

theorem isText_of_conforms {s : String} (conforms : Conforms (.object defs) (.object ms))
    (found : findMember name defs = some (.string s)) : IsText ms name := by
  obtain ⟨c, there, typed⟩ := member_of_conforms conforms found
  cases c with
  | string t => exact ⟨t, there⟩
  | bool b => cases b <;> cases typed
  | _ => cases typed

theorem isFlag_of_conforms {b : Bool} (conforms : Conforms (.object defs) (.object ms))
    (found : findMember name defs = some (.bool b)) : IsFlag ms name := by
  obtain ⟨c, there, typed⟩ := member_of_conforms conforms found
  cases c with
  | bool b => exact ⟨b, there⟩
  | _ => cases b <;> cases typed

theorem has_of_conforms {names : List String} (conforms : Conforms (.object defs) (.object ms))
    (all : Has defs names) : Has ms names := by
  intro name inside
  obtain ⟨d, found⟩ := Option.isSome_iff_exists.1 (all name inside)
  obtain ⟨c, there, -⟩ := member_of_conforms conforms found
  rw [there]
  rfl

theorem object_of_conforms (conforms : Conforms defaultConfig doc)
    (found : resolve defaultConfig [name] = some (.object defs)) :
    ∃ ms, resolve doc [name] = some (.object ms) ∧ Conforms (.object defs) (.object ms) := by
  obtain ⟨c, there, typed⟩ := conforms [name] (.object defs) found
  obtain ⟨ms, rfl⟩ := sameType_object.1 typed
  refine ⟨ms, there, fun path d below => ?_⟩
  obtain ⟨c, there', typed⟩ := conforms ([name] ++ path) d (by
    rw [resolve_append, found]
    exact below)
  rw [resolve_append, there] at there'
  exact ⟨c, there', typed⟩

/-- The path leads to an integer from `low` on and below `high`. -/
def NumberAt (low high : Int) (doc : Value) (path : List String) : Prop :=
  ∃ i, resolve doc path = some (.int i) ∧ low ≤ i ∧ i < high

/-- `NumberAt` as a test. -/
def numberAt (low high : Int) (doc : Value) (path : List String) : Bool :=
  match resolve doc path with
  | some (.int i) => decide (low ≤ i ∧ i < high)
  | _ => false

theorem numberAt_eq_true {low high : Int} {path : List String} :
    numberAt low high doc path = true ↔ NumberAt low high doc path := by
  unfold numberAt NumberAt
  split
  · rename_i i found
    simp [found]
  · rename_i other
    refine iff_of_false Bool.false_ne_true ?_
    rintro ⟨i, found, -⟩
    exact other i found

instance (low high : Int) (doc : Value) (path : List String) :
    Decidable (NumberAt low high doc path) := decidable_of_iff _ numberAt_eq_true

/-- The six numbers fit the types they are read as. -/
def NumbersFit (doc : Value) : Prop :=
  NumberAt 0 (2 ^ 32) doc ["ChargePoint", "SecurityProfile"] ∧
    NumberAt 0 (2 ^ 32) doc ["ChargePoint", "ConnectionTimeout"] ∧
    NumberAt 0 (2 ^ 32) doc ["ChargePoint", "CallRequestTimeout"] ∧
    NumberAt (-2 ^ 31) (2 ^ 31) doc ["ChargePoint", "RetryInterval"] ∧
    NumberAt (-2 ^ 31) (2 ^ 31) doc ["OCPP1_6", "WebSocketPingInterval"] ∧
    NumberAt 0 (2 ^ 32) doc ["OCPP1_6", "TransactionMessageAttempts"]

instance (doc : Value) : Decidable (NumbersFit doc) := inferInstanceAs (Decidable (_ ∧ _))

theorem numberAt_iff {low high : Int} {object : String}
    (there : resolve doc [object] = some (.object ms)) :
    NumberAt low high doc [object, name] ↔ InRange low high ms name := by
  have member : resolve doc [object, name] = findMember name ms := by
    show resolve doc ([object] ++ [name]) = _
    rw [resolve_append, there, Option.bind_some, resolve_object]
    simp
  rw [NumberAt, InRange, member]

theorem tlsReadable_of_conforms (conforms : Conforms (.object chargePointDefaults) (.object cp))
    (profile : Int) : TlsReadable profile cp := by
  obtain ⟨internal, found⟩ : IsFlag cp "InternalCertificateManagementEnabled" :=
    isFlag_of_conforms conforms rfl
  have passphrase : IsText cp "TlsClientCertificatePrivateKeyPassphrase" :=
    isText_of_conforms conforms rfl
  refine ⟨isText_of_conforms conforms rfl, isText_of_conforms conforms rfl, internal, found,
    fun _ => ?_, fun _ _ => passphrase⟩
  exact ⟨isText_of_conforms conforms rfl,
    fun _ => ⟨isText_of_conforms conforms rfl, isText_of_conforms conforms rfl, passphrase⟩,
    isFlag_of_conforms conforms rfl, isFlag_of_conforms conforms rfl,
    isFlag_of_conforms conforms rfl, isFlag_of_conforms conforms rfl⟩

/-- **Where the types are right, the six numbers decide.** -/
theorem readable_iff_numbersFit (conforms : Conforms defaultConfig doc) :
    Readable doc ↔ NumbersFit doc := by
  have chargePoint : resolve defaultConfig ["ChargePoint"] = some (.object chargePointDefaults) := rfl
  have ocpp16 : resolve defaultConfig ["OCPP1_6"] = some (.object ocpp16Defaults) := rfl
  obtain ⟨cp, there, conformsCp⟩ := object_of_conforms conforms chargePoint
  obtain ⟨ocpp, there', conformsOcpp⟩ := object_of_conforms conforms ocpp16
  have hasTls : Has cp tlsRequired := has_of_conforms conformsCp (by decide +kernel)
  unfold NumbersFit
  simp only [numberAt_iff there, numberAt_iff there']
  constructor
  · intro readable
    obtain ⟨profile, found, low, high, -, -, -, tls, plain⟩ := readable cp ocpp there there'
      (has_of_conforms conformsCp (by decide +kernel))
      (has_of_conforms conformsOcpp (by decide +kernel))
    have save : SaveReadable cp ocpp := by
      by_cases one : profile = 1
      · exact plain one
      · exact (tls one hasTls).2
    exact ⟨⟨profile, found, low, high⟩, save.2⟩
  · rintro ⟨⟨profile, found, low, high⟩, numbers⟩ cp₂ ocpp₂ same same' - -
    obtain rfl := Value.object.inj (Option.some.inj (there.symm.trans same))
    obtain rfl := Value.object.inj (Option.some.inj (there'.symm.trans same'))
    have save : SaveReadable cp ocpp := ⟨isText_of_conforms conformsCp rfl, numbers⟩
    exact ⟨profile, found, low, high, isText_of_conforms conformsOcpp rfl,
      isText_of_conforms conformsCp rfl, isText_of_conforms conformsCp rfl,
      fun _ _ => ⟨tlsReadable_of_conforms conformsCp profile, save⟩, fun _ => save⟩

theorem conforms_merged {file start : Value} (merged : mergeNode defaultConfig file = .ok start) :
    Conforms defaultConfig start := by
  cases file with
  | object cfgs =>
      rw [defaultConfig, mergeNode_object] at merged
      obtain rfl := Except.ok.inj merged
      exact conforms_mergeOne distinct_default cnames_default _
  | _ => cases merged

/-- **When the client gets through the configuration.**  For any document that a load and
writes can lead to, `Readable` says what has to be where; and as long as no write replaces
`ChargePoint` or `OCPP1_6` as a whole, six numbers have to fit the types they are read as,
and nothing else. -/
theorem initConnectInfo_returns_iff (info : ConnectInfo) (file start doc : Value)
    (writes : List (String × Value)) (merged : mergeNode defaultConfig file = .ok start)
    (wrote : exec write start writes = some doc) :
    ((∃ result, initConnectInfo info doc = .ok result) ↔ Readable doc) ∧
      ((∀ w ∈ writes, ¬ NamesObject w.1) →
        ((∃ result, initConnectInfo info doc = .ok result) ↔ NumbersFit doc)) := by
  have readable := returns_initConnectInfo info doc
  refine ⟨readable, fun inside => readable.trans (readable_iff_numbersFit ?_)⟩
  have met : Along write (fun _ w => ¬ NamesObject w.1) start writes :=
    along_of_labels (fun w member _ => inside w member) start
  exact exec_invariant_along (fun _ _ _ outside => conforms_write outside) met
    (conforms_merged merged) wrote

/-- `m_connectInfo` before the first call. -/
def noInfo : ConnectInfo := ⟨0, 0, "", "", "", "", 0, 0, 0, {}⟩

/-- The built-in configuration as the file, and a write to one of its numbers. -/
theorem writtenInterval_returns :
    ∃ doc, mergeNode defaultConfig defaultConfig = .ok defaultConfig ∧
      exec write defaultConfig [("ChargePoint.RetryInterval", .int 5000)] = some doc ∧
      ∃ result, initConnectInfo noInfo doc = .ok result := by
  have merged : mergeNode defaultConfig defaultConfig = .ok defaultConfig := by
    have same := (mergeOne_idem distinct_default cnames_default).1
    rw [defaultConfig] at same ⊢
    rw [mergeNode_object, same]
  have some : (exec write defaultConfig [("ChargePoint.RetryInterval", .int 5000)]).isSome := by
    decide +kernel
  have fit : ∀ doc ∈ exec write defaultConfig [("ChargePoint.RetryInterval", .int 5000)],
      NumbersFit doc := by
    decide +kernel
  obtain ⟨doc, wrote⟩ := Option.isSome_iff_exists.1 some
  obtain ⟨-, iff⟩ := initConnectInfo_returns_iff noInfo _ _ doc
    [("ChargePoint.RetryInterval", .int 5000)] merged wrote
  exact ⟨doc, merged, wrote, (iff (by decide +kernel)).2 (fit doc wrote)⟩

/-- A file with a profile of -1: a number for the load, and none for `GetUint`. -/
def negativeProfile : Members := [("ChargePoint", .object [("SecurityProfile", .int (-1))])]

theorem negative_profile_is_fatal :
    ∃ start, mergeNode defaultConfig (.object negativeProfile) = .ok start ∧
      ¬ ∃ result, initConnectInfo noInfo start = .ok result := by
  refine ⟨_, mergeNode_object defaultMembers negativeProfile, ?_⟩
  have conforms := conforms_mergeOne distinct_default cnames_default (.object negativeProfile)
  have profile : resolve defaultConfig ["ChargePoint", "SecurityProfile"] = some (.int 1) := rfl
  have merged : resolve (mergeOne defaultConfig (.object negativeProfile))
      ["ChargePoint", "SecurityProfile"] = some (.int (-1)) :=
    resolve_mergeOne distinct_default cnames_default profile
  intro returns
  obtain ⟨⟨i, found, low, -⟩, -⟩ :=
    (readable_iff_numbersFit conforms).1 ((returns_initConnectInfo _ _).1 returns)
  obtain rfl := Value.int.inj (Option.some.inj (merged.symm.trans found))
  cases low

end ChargerStack.Ocpp.Connect
