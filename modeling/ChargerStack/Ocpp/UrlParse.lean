/-
# Ocpp.UrlParse -- parsing and printing of ocpp/tool/url/Url.cpp

`Url::parse` fills the object from the groups of its pattern and validates the host;
`Url::toString` puts the parts together again, without what is empty and without the
default port of the protocol.

* `parse_eq`: parsing, in terms of the parts of the text.
* `toString_eq`: what is printed is the text of the parts that `printed` leaves.
-/
import Mathlib.Data.Nat.Digits.Defs
import ChargerStack.Ocpp.UrlParts

namespace ChargerStack.Ocpp.Url

set_option autoImplicit false

open ChargerStack.Lib
open ChargerStack.Lib.Regex

/-! ## Numbers and ports -/

/-- The number that digits stand for. -/
def number (digits : Bytes) : Nat := digits.foldl (fun n c => 10 * n + (c.toNat - 48)) 0

/-- `std::stoi` of a text of digits; it throws where an `int` is too small. -/
def stoi (digits : Bytes) : Option Nat :=
  if number digits ≤ 2147483647 then some (number digits) else none

/-- `std::to_string`. -/
def to_string (n : Nat) : Bytes :=
  if n = 0 then [48] else (Nat.digits 10 n).reverse.map fun d => 48 + UInt8.ofNat d

/-- `http`, `https`, `ftp`, `ftps`, `sftp`, `ws` and `wss`. -/
def s_defaultPorts : List (Bytes × UInt16) :=
  [([104, 116, 116, 112], 80), ([104, 116, 116, 112, 115], 443), ([102, 116, 112], 21),
   ([102, 116, 112, 115], 990), ([115, 102, 116, 112], 22), ([119, 115], 80),
   ([119, 115, 115], 443)]

/-- The default port of a protocol, or 0. -/
def defaultPort (protocol : Bytes) : UInt16 := (s_defaultPorts.lookup protocol).getD 0

/-! ## Validation -/

/-- `std::getline` until it fails: the pieces between the marks, without an empty last one. -/
def getlines (mark : UInt8) (s : Bytes) : List Bytes :=
  let pieces := s.splitOn mark
  if pieces.getLast? = some [] then pieces.dropLast else pieces

/-- The loop of `validateIPv4`, with `count` parts behind it. -/
def validateParts : Nat → List Bytes → Option Bool
  | count, [] => some (count = 4)
  | count, part :: rest =>
      if count + 1 > 4 then some false
      else if part = [] ∨ part.length > 3 then some false
      else if ¬ part.all isdigit then some false
      else (stoi part).bind fun num =>
        if num > 255 then some false else validateParts (count + 1) rest

def validateIPv4 (ip : Bytes) : Option Bool := validateParts 0 (getlines 46 ip)

/-- `\d+\.\d+\.\d+\.\d+` -/
def ipv4Regex : Regex UInt8 :=
  (plus (chars isdigit)).seq ((char 46).seq ((plus (chars isdigit)).seq ((char 46).seq
    ((plus (chars isdigit)).seq ((char 46).seq (plus (chars isdigit)))))))

/-- `[a-zA-Z0-9-]` -/
def labelChar (c : UInt8) : Bool := isalnum c || c == 45

/-- `[a-zA-Z0-9]([a-zA-Z0-9-]{0,61}[a-zA-Z0-9])?` -/
def labelRegex (n : Nat) : Regex UInt8 :=
  (chars isalnum).seq (opt (group n ((upTo (chars labelChar) 61).seq (chars isalnum))))

/-- A label, and labels behind dots. -/
def domainRegex : Regex UInt8 :=
  (group 1 (labelRegex 2)).seq (star (group 3 ((char 46).seq (group 4 (labelRegex 5)))))

def validateDomain (domain : Bytes) : Bool := (regexMatch domainRegex domain).isSome

/-- `inet_pton(AF_INET6, text, ..) == 1`, for a text that ends at its first NUL. -/
abbrev InetPton := Bytes → Bool

section

variable (inet_pton : InetPton)

def validateIPv6 (ip : Bytes) : Bool := inet_pton (ip.takeWhile (· != 0))

/-- `Url::validate`, of the protocol and the host. -/
def validate (protocol host : Bytes) : Option Bool :=
  if host = [] then some false
  else if protocol = [] then some false
  else if host.head? = some 91 ∧ host.getLast? = some 93 then
    some (validateIPv6 inet_pton ((host.drop 1).take (host.length - 2)))
  else if (regexMatch ipv4Regex host).isSome then validateIPv4 host
  else some (validateDomain host)

end

/-! ## The object -/

/-- The members of `Url`. -/
structure UrlObject where
  valid : Bool := false
  protocol : Bytes := []
  username : Bytes := []
  password : Bytes := []
  host : Bytes := []
  port : UInt16 := 0
  path : Bytes := []
  query : Bytes := []
  fragment : Bytes := []
  queryParams : List (Bytes × Bytes) := []
  deriving DecidableEq, Repr

/-- `params[key] = value` -/
def setParam (key value : Bytes) : List (Bytes × Bytes) → List (Bytes × Bytes)
  | [] => [(key, value)]
  | (k, v) :: rest => if k = key then (k, value) :: rest else (k, v) :: setParam key value rest

def parseQueryParams (query : Bytes) : List (Bytes × Bytes) :=
  (getlines 38 query).foldl (fun params param =>
    setParam (param.takeWhile (· != 61)) ((param.dropWhile (· != 61)).drop 1) params) []

/-- `Url::parse` on an object that is `u`: what it returns and the object it leaves, or `none`
where `std::stoi` throws. -/
def parse (inet_pton : InetPton) (u : UrlObject) (url : Bytes) : Option (Bool × UrlObject) :=
  match regexMatch urlRegex url with
  | none => some (false, { u with valid := false })
  | some m =>
      (if m.str 5 ≠ [] then (stoi (m.str 5)).map UInt16.ofNat
        else some (defaultPort (m.str 1))).bind fun port =>
      (validate inet_pton (m.str 1) (m.str 4)).map fun valid =>
        (valid,
          { valid := valid
            protocol := m.str 1
            username := m.str 2
            password := m.str 3
            host := m.str 4
            port := port
            path := if m.str 6 = [] then [47] else m.str 6
            query := m.str 7
            fragment := m.str 8
            queryParams := parseQueryParams (m.str 7) })

/-- `Url::toString` -/
def toString (u : UrlObject) : Bytes :=
  if u.valid = false then []
  else
    u.protocol ++ [58, 47, 47] ++
    (if u.username = [] then []
      else u.username ++ (if u.password = [] then [] else 58 :: u.password) ++ [64]) ++
    u.host ++
    (if u.port ≠ 0 ∧ u.port ≠ defaultPort u.protocol then 58 :: to_string u.port.toNat else []) ++
    u.path ++
    (if u.query = [] then [] else 63 :: u.query) ++
    (if u.fragment = [] then [] else 35 :: u.fragment)

/-! ## Parsing, by the parts -/

namespace Parts

def username (p : Parts) : Bytes :=
  match p.user with
  | some (name, _) => name
  | none => []

def password (p : Parts) : Bytes :=
  match p.user with
  | some (_, some t) => t
  | _ => []

/-- The port as the object holds it: the last 16 bits of the number, or the default. -/
def portNumber (p : Parts) : UInt16 :=
  match p.port with
  | some digits => UInt16.ofNat (number digits)
  | none => defaultPort p.protocol

/-- The object that is filled from the parts, the host being valid. -/
def object (p : Parts) : UrlObject where
  valid := true
  protocol := p.protocol
  username := p.username
  password := p.password
  host := p.host
  port := p.portNumber
  path := if p.path = [] then [47] else p.path
  query := p.query.getD []
  fragment := p.fragment.getD []
  queryParams := parseQueryParams (p.query.getD [])

end Parts

theorem lookup_log (n m : Nat) (o : Option Bytes) :
    (log n o).lookup m = if m = n then o else none := by
  cases o with
  | none => simp [log]
  | some t =>
      by_cases same : m = n
      · simp [log, same]
      · simp [log, same, List.lookup_cons, beq_false_of_ne same]

theorem lookup_userCaptures (p : Parts) (m : Nat) : (userCaptures p.user).lookup m =
    if m = 3 then p.user.bind (·.2) else if m = 2 then p.user.map (·.1) else none := by
  cases user : p.user with
  | none => simp [userCaptures]
  | some named =>
      obtain ⟨name, password⟩ := named
      simp only [userCaptures, List.lookup_append, lookup_log, Option.bind_some, Option.map_some]
      by_cases third : m = 3
      · cases password <;> simp [third, List.lookup_cons]
      · by_cases second : m = 2
        · simp [second]
        · simp [third, second, List.lookup_cons, beq_false_of_ne second]

/-- The groups, by their numbers. -/
theorem str_captures (p : Parts) : p.captures.str 1 = p.protocol ∧
    p.captures.str 2 = p.username ∧ p.captures.str 3 = p.password ∧ p.captures.str 4 = p.host ∧
    p.captures.str 5 = p.port.getD [] ∧ p.captures.str 6 = p.path ∧
    p.captures.str 7 = p.query.getD [] ∧ p.captures.str 8 = p.fragment.getD [] := by
  simp only [Captures.str, Parts.captures, Parts.hostCaptures, List.lookup_append, lookup_log,
    lookup_userCaptures, List.lookup_cons]
  refine ⟨by simp, ?_, ?_, by simp, by simp, by simp, by simp, by simp⟩
  · cases user : p.user <;> simp [Parts.username, user]
  · rcases user : p.user with - | ⟨name, - | t⟩ <;> simp [Parts.password, user]

/-- The port that is filled in. -/
theorem port_eq {p : Parts} (some_digits : p.port ≠ some []) {port : UInt16} :
    (if p.port.getD [] ≠ [] then (stoi (p.port.getD [])).map UInt16.ofNat
      else some (defaultPort p.protocol)) = some port ↔
    (∀ digits, p.port = some digits → number digits ≤ 2147483647) ∧ port = p.portNumber := by
  cases written : p.port with
  | none => simp [Parts.portNumber, written, eq_comm]
  | some digits =>
      have nonempty : digits ≠ [] := fun empty => some_digits (empty ▸ written)
      simp only [Option.getD_some, ne_eq, nonempty, not_false_eq_true, if_true, stoi,
        Parts.portNumber, written, Option.some.injEq, forall_eq']
      split
      · next fits => simp [fits, eq_comm]
      · next large => simp [large]

variable {inet_pton : InetPton} {x v : UrlObject} {url : Bytes}

/-- **A text that is parsed**: its parts are read, the number of the port fits into an `int`, and
the host is valid. -/
theorem parse_eq_true_iff : parse inet_pton x url = some (true, v) ↔
    ∃ p, split url = some p ∧ (∀ digits, p.port = some digits → number digits ≤ 2147483647) ∧
      validate inet_pton p.protocol p.host = some true ∧ v = p.object := by
  unfold parse
  rw [regexMatch_urlRegex]
  cases read : split url with
  | none => simp
  | some p =>
      obtain ⟨one, two, three, four, five, six, seven, eight⟩ := str_captures p
      have some_digits : p.port ≠ some [] :=
        fun written => ((split_eq_some_iff.1 read).2.port_digits written).1 rfl
      simp only [Option.map_some, one, two, three, four, five, six, seven, eight,
        Option.bind_eq_some_iff, port_eq some_digits, Option.map_eq_some_iff, Prod.mk.injEq,
        Option.some.injEq, exists_eq_left']
      constructor
      · rintro ⟨port, ⟨fits, rfl⟩, valid, validated, rfl, rfl⟩
        exact ⟨fits, validated, rfl⟩
      · rintro ⟨fits, validated, rfl⟩
        exact ⟨p.portNumber, ⟨fits, rfl⟩, true, validated, rfl, rfl⟩

/-! ## Printing, by the parts -/

/-- A part that is printed only if it is not empty. -/
def unlessEmpty (t : Bytes) : Option Bytes := if t = [] then none else some t

/-- What is left of the parts when the object is printed. -/
def printed (p : Parts) : Parts where
  protocol := p.protocol
  user := p.user.map fun (name, password) => (name, unlessEmpty (password.getD []))
  host := p.host
  port := if p.portNumber ≠ 0 ∧ p.portNumber ≠ defaultPort p.protocol then
      some (to_string p.portNumber.toNat)
    else none
  path := if p.path = [] then [47] else p.path
  query := unlessEmpty (p.query.getD [])
  fragment := unlessEmpty (p.fragment.getD [])

theorem marked_unlessEmpty (mark : UInt8) (t : Bytes) :
    marked mark (unlessEmpty t) = if t = [] then [] else mark :: t := by
  unfold unlessEmpty
  split <;> rfl

/-- What is printed of an object that was filled from parts. -/
theorem toString_eq {p : Parts}
    (named : ∀ name password, p.user = some (name, password) → name ≠ []) :
    toString p.object = (printed p).text := by
  have user : userText (printed p).user = if p.username = [] then []
      else p.username ++ (if p.password = [] then [] else 58 :: p.password) ++ [64] := by
    cases user : p.user with
    | none => simp [printed, user, userText, Parts.username]
    | some named' =>
        obtain ⟨name, password⟩ := named'
        have some_name := named name password user
        cases password with
        | none => simp [printed, user, userText, Parts.username, Parts.password, some_name,
            marked_unlessEmpty]
        | some t => simp [printed, user, userText, Parts.username, Parts.password, some_name,
            marked_unlessEmpty]
  have port : marked 58 (printed p).port =
      if p.portNumber ≠ 0 ∧ p.portNumber ≠ defaultPort p.protocol then
        58 :: to_string p.portNumber.toNat
      else [] := by
    simp only [printed]
    split <;> rfl
  rw [Parts.text, user, Parts.hostText, Parts.tailText, port]
  simp only [toString, Parts.object, printed, marked_unlessEmpty, List.append_assoc]
  rfl

end ChargerStack.Ocpp.Url
