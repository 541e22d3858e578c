/-
# Ocpp.UrlPort -- which numbers of a port are kept

`Url::parse` converts the digits of the port by `std::stoi`, which throws above the greatest
`int`, and casts the number to 16 bits.  It has then taken over the protocol, the user and the
host already, and nothing of what follows.

* `parse_eq_parseRun`: what `parse` leaves out is the object of a call that throws.
* `parseRun_threw_iff`: when it throws, and what it leaves.
* `portAsWritten_iff`: exactly when the port comes out as it is written.
-/
import ChargerStack.Ocpp.UrlParse

namespace ChargerStack.Ocpp.Url

set_option autoImplicit false

open ChargerStack.Lib
open ChargerStack.Lib.Regex

/-! ## A call that throws -/

/-- How a call of `Url::parse` ends, and the object it leaves. -/
inductive Run where
  | returned (result : Bool) (u : UrlObject)
  | threw (u : UrlObject)
  deriving DecidableEq, Repr

namespace Run

/-- What the caller gets, if it gets something. -/
def toOption : Run → Option (Bool × UrlObject)
  | returned result u => some (result, u)
  | threw _ => none

/-- `std::stoi` where it is called: the object `u` is left if it throws. -/
def bind {α : Type} (number : Option α) (u : UrlObject) (k : α → Run) : Run :=
  match number with
  | some n => k n
  | none => threw u

theorem toOption_bind {α : Type} (number : Option α) (u : UrlObject) (k : α → Run) :
    (bind number u k).toOption = number.bind fun n => (k n).toOption := by
  cases number <;> rfl

end Run

/-- `Url::parse`, statement by statement. -/
def parseRun (inet_pton : InetPton) (u : UrlObject) (url : Bytes) : Run :=
  let u := { u with valid := false }
  match regexMatch urlRegex url with
  | none => .returned false u
  | some m =>
      let u := { u with
        protocol := m.str 1
        username := m.str 2
        password := m.str 3
        host := m.str 4 }
      Run.bind (if m.str 5 ≠ [] then (stoi (m.str 5)).map UInt16.ofNat
        else some (defaultPort (m.str 1))) u fun port =>
      let u := { u with
        port := port
        path := if m.str 6 = [] then [47] else m.str 6
        query := m.str 7
        fragment := m.str 8
        queryParams := parseQueryParams (m.str 7) }
      Run.bind (validate inet_pton u.protocol u.host) u fun valid =>
      .returned valid { u with valid := valid }

theorem parse_eq_parseRun (inet_pton : InetPton) (u : UrlObject) (url : Bytes) :
    parse inet_pton u url = (parseRun inet_pton u url).toOption := by
  unfold parse parseRun
  cases regexMatch urlRegex url with
  | none => rfl
  | some m =>
      simp only [Run.toOption_bind]
      refine congrArg (Option.bind _) (funext fun port => ?_)
      cases validate inet_pton (m.str 1) (m.str 4) <;> rfl

/-! ## The validation does not throw -/

theorem number_foldl_lt {digits : Bytes} (all : digits.all isdigit = true) (n : Nat) :
    digits.foldl (fun n c => 10 * n + (c.toNat - 48)) n < (n + 1) * 10 ^ digits.length := by
  induction digits generalizing n with
  | nil => simp
  | cons c t ih =>
      simp only [List.all_cons, Bool.and_eq_true, isdigit, decide_eq_true_eq] at all
      obtain ⟨⟨-, small⟩, all⟩ := all
      have value : c.toNat ≤ 57 := small
      calc (c :: t).foldl (fun n c => 10 * n + (c.toNat - 48)) n
          < (10 * n + (c.toNat - 48) + 1) * 10 ^ t.length := ih all _
        _ ≤ ((n + 1) * 10) * 10 ^ t.length := Nat.mul_le_mul_right _ (by omega)
        _ = (n + 1) * 10 ^ (c :: t).length := by rw [List.length_cons, Nat.pow_succ']; ring

/-- Digits make a number with as many digits. -/
theorem number_lt {digits : Bytes} (all : digits.all isdigit = true) :
    number digits < 10 ^ digits.length := by
  have bound := number_foldl_lt all 0
  rwa [Nat.zero_add, Nat.one_mul] at bound

theorem stoi_of_short {part : Bytes} (all : part.all isdigit = true) (short : part.length ≤ 3) :
    stoi part = some (number part) := by
  have small := number_lt all
  have bound : 10 ^ part.length ≤ 10 ^ 3 := Nat.pow_le_pow_right (by decide) short
  rw [stoi, if_pos (by omega)]

theorem validateParts_isSome (count : Nat) (parts : List Bytes) :
    (validateParts count parts).isSome = true := by
  induction parts generalizing count with
  | nil => rfl
  | cons part rest ih =>
      rw [validateParts]
      split
      · rfl
      · split
        · rfl
        · next unlike =>
            split
            · rfl
            · next digits =>
                have all : part.all isdigit = true := by simpa using digits
                rw [stoi_of_short all (by omega), Option.bind_some]
                split
                · rfl
                · exact ih (count + 1)

theorem validate_isSome (inet_pton : InetPton) (protocol host : Bytes) :
    (validate inet_pton protocol host).isSome = true := by
  unfold validate
  split
  · rfl
  · split
    · rfl
    · split
      · rfl
      · split
        · exact validateParts_isSome 0 _
        · rfl

/-! ## How a call ends -/

variable {inet_pton : InetPton} {u v : UrlObject} {url digits : Bytes} {p : Parts}

/-- The object with what was taken over before the port. -/
def Parts.begun (p : Parts) (u : UrlObject) : UrlObject :=
  { u with
    valid := false
    protocol := p.protocol
    username := p.username
    password := p.password
    host := p.host }

theorem port_ne_nil (read : split url = some p) : p.port ≠ some [] := by
  intro written
  exact ((split_eq_some_iff.1 read).2.port_digits written).1 rfl

/-- Without parts, nothing is taken over. -/
theorem parseRun_of_none (unread : split url = none) :
    parseRun inet_pton u url = .returned false { u with valid := false } := by
  unfold parseRun
  rw [regexMatch_urlRegex, unread]
  rfl

/-- With a port that fits, everything is. -/
theorem parseRun_of_fits (inet_pton : InetPton) (u : UrlObject) (read : split url = some p)
    (fits : ∀ digits, p.port = some digits → number digits ≤ 2147483647) :
    ∃ valid, validate inet_pton p.protocol p.host = some valid ∧
      parseRun inet_pton u url = .returned valid { p.object with valid := valid } := by
  obtain ⟨one, two, three, four, five, six, seven, eight⟩ := str_captures p
  obtain ⟨valid, validated⟩ :=
    Option.isSome_iff_exists.1 (validate_isSome inet_pton p.protocol p.host)
  refine ⟨valid, validated, ?_⟩
  have port := (port_eq (port_ne_nil read)).2 ⟨fits, rfl⟩
  unfold parseRun
  rw [regexMatch_urlRegex, read]
  simp only [Option.map_some, one, two, three, four, five, six, seven, eight, port, Run.bind,
    validated]
  rfl

/-- With a port that is too great, it ends in the middle. -/
theorem parseRun_of_large (read : split url = some p) (written : p.port = some digits)
    (large : 2147483647 < number digits) : parseRun inet_pton u url = .threw (p.begun u) := by
  obtain ⟨one, two, three, four, five, -⟩ := str_captures p
  have some_digits : digits ≠ [] := by
    rintro rfl
    exact port_ne_nil read written
  have thrown : stoi digits = none := if_neg (by omega)
  unfold parseRun
  rw [regexMatch_urlRegex, read]
  simp only [Option.map_some, one, two, three, four, five, written, Option.getD_some, thrown,
    ne_eq, some_digits, not_false_eq_true, if_true, Option.map_none, Run.bind]
  rfl

/-- **When a call throws**: exactly when the port is too great for an `int`.  The object is then
not valid and has the new host with the old port and the old path. -/
theorem parseRun_threw_iff : parseRun inet_pton u url = .threw v ↔
    ∃ p digits, split url = some p ∧ p.port = some digits ∧ 2147483647 < number digits ∧
      v = p.begun u := by
  constructor
  · intro threw
    cases read : split url with
    | none =>
        rw [parseRun_of_none read] at threw
        cases threw
    | some p =>
        by_cases fits : ∀ digits, p.port = some digits → number digits ≤ 2147483647
        · obtain ⟨valid, -, ends⟩ := parseRun_of_fits inet_pton u read fits
          rw [ends] at threw
          cases threw
        · push Not at fits
          obtain ⟨digits, written, large⟩ := fits
          rw [parseRun_of_large read written large] at threw
          cases threw
          exact ⟨p, digits, rfl, written, large, rfl⟩
  · rintro ⟨p, digits, read, written, large, rfl⟩
    exact parseRun_of_large read written large

/-! ## The port as it is written -/

/-- The digits of the port, if the text has one. -/
def writtenPort (url : Bytes) : Option Bytes := (split url).bind (·.port)

/-- The call does not throw; if it accepts a text with a port, the object has that port; and no
text with a port above 65535 is accepted. -/
structure PortAsWritten (inet_pton : InetPton) (u : UrlObject) (url : Bytes) : Prop where
  returns : ∃ result v, parseRun inet_pton u url = .returned result v
  exact_port : ∀ v digits, parseRun inet_pton u url = .returned true v →
    writtenPort url = some digits → v.port.toNat = number digits
  rejects : ∀ digits, writtenPort url = some digits → 65535 < number digits →
    ∃ v, parseRun inet_pton u url = .returned false v

theorem toNat_portNumber {p : Parts} {digits : Bytes} (written : p.port = some digits)
    (small : number digits ≤ 65535) : p.portNumber.toNat = number digits := by
  have stored : p.portNumber = UInt16.ofNat (number digits) := by rw [Parts.portNumber, written]
  rw [stored, UInt16.toNat_ofNat']
  omega

/-- A port that comes out as it is written is small, or is rejected with its host. -/
theorem PortAsWritten.small_or_rejected (asWritten : PortAsWritten inet_pton u url) {p : Parts}
    {digits : Bytes} (read : split url = some p) (written : p.port = some digits) :
    number digits ≤ 65535 ∨
      number digits ≤ 2147483647 ∧ validate inet_pton p.protocol p.host ≠ some true := by
  have written' : writtenPort url = some digits := by rw [writtenPort, read]; exact written
  by_cases small : number digits ≤ 65535
  · exact .inl small
  obtain ⟨v, rejected⟩ := asWritten.rejects digits written' (by omega)
  have fits : number digits ≤ 2147483647 := by
    by_contra large
    rw [parseRun_of_large read written (by omega)] at rejected
    cases rejected
  refine .inr ⟨fits, fun valid => ?_⟩
  have all : ∀ digits, p.port = some digits → number digits ≤ 2147483647 := by
    intro t written'
    obtain rfl := Option.some.inj (written.symm.trans written')
    exact fits
  obtain ⟨_, validated, ends⟩ := parseRun_of_fits inet_pton u read all
  rw [valid] at validated
  cases validated
  rw [ends] at rejected
  cases rejected

theorem portAsWritten_of_none (read : split url = none) : PortAsWritten inet_pton u url := by
  have none_written : writtenPort url = none := by rw [writtenPort, read]; rfl
  refine ⟨⟨_, _, parseRun_of_none read⟩, fun v digits _ written => ?_, fun digits written => ?_⟩
  · cases none_written.symm.trans written
  · cases none_written.symm.trans written

theorem portAsWritten_of_condition {p : Parts} (read : split url = some p)
    (condition : ∀ digits, p.port = some digits → number digits ≤ 65535 ∨
      number digits ≤ 2147483647 ∧ validate inet_pton p.protocol p.host ≠ some true) :
    PortAsWritten inet_pton u url := by
  have port : writtenPort url = p.port := by rw [writtenPort, read]; rfl
  have fits : ∀ digits, p.port = some digits → number digits ≤ 2147483647 := by
    intro digits written
    rcases condition digits written with small | ⟨fits, -⟩
    · omega
    · exact fits
  obtain ⟨valid, validated, ends⟩ := parseRun_of_fits inet_pton u read fits
  refine ⟨⟨_, _, ends⟩, fun v digits accepted written => ?_, fun digits written large => ?_⟩
  · rw [port] at written
    rw [ends] at accepted
    obtain ⟨rfl, rfl⟩ := Run.returned.inj accepted
    rcases condition digits written with small | ⟨-, rejected⟩
    · exact toNat_portNumber written small
    · exact absurd validated rejected
  · rw [port] at written
    rcases condition digits written with small | ⟨-, rejected⟩
    · omega
    · cases valid with
      | true => exact absurd validated rejected
      | false => exact ⟨_, ends⟩

/-- **When the port comes out as it is written**: if there is none, if it is at most 65535, or if
it fits into an `int` and the host is rejected anyway. -/
theorem portAsWritten_iff : PortAsWritten inet_pton u url ↔
    ∀ p digits, split url = some p → p.port = some digits → number digits ≤ 65535 ∨
      number digits ≤ 2147483647 ∧ validate inet_pton p.protocol p.host ≠ some true := by
  constructor
  · intro asWritten p digits read written
    exact asWritten.small_or_rejected read written
  · intro condition
    cases read : split url with
    | none => exact portAsWritten_of_none read
    | some p => exact portAsWritten_of_condition read fun digits => condition p digits read

/-- `http://a:65616/` -/
def wrappedUrl : Bytes := [104, 116, 116, 112, 58, 47, 47, 97, 58, 54, 53, 54, 49, 54, 47]

/-- `http://a:2147483648/` -/
def thrownUrl : Bytes :=
  [104, 116, 116, 112, 58, 47, 47, 97, 58, 50, 49, 52, 55, 52, 56, 51, 54, 52, 56, 47]

/-- The one is accepted with port 80, the other throws and leaves the host behind. -/
theorem port_notAsWritten : (¬ ∀ inet_pton u url, PortAsWritten inet_pton u url) ∧
    parseRun (fun _ => false) {} wrappedUrl = .returned true
      { valid := true, protocol := [104, 116, 116, 112], host := [97], port := 80, path := [47] } ∧
    parseRun (fun _ => false) {} thrownUrl =
      .threw { protocol := [104, 116, 116, 112], host := [97] } := by
  have wrapped : parseRun (fun _ => false) {} wrappedUrl = .returned true
      { valid := true, protocol := [104, 116, 116, 112], host := [97], port := 80,
        path := [47] } := by decide
  refine ⟨fun all => ?_, wrapped, by decide⟩
  have kept := (all (fun _ => false) {} wrappedUrl).exact_port _ [54, 53, 54, 49, 54] wrapped
    (by decide)
  exact absurd kept (by decide)

end ChargerStack.Ocpp.Url
