/-
# Ocpp.UrlRoundTrip -- when a printed URL is parsed as it was

`Url::toString` leaves out the default port and what is empty, and writes a path that was not
there.  Nothing but the port can be missed: without it the host and the path touch.

* `readable_printed`: if the port is kept, the printed parts are read back.
* `portKept_of_reparsed`: if they are, it is.
* `reparsed_iff`: exactly when parsing the printed text gives the same object.
* `portKept_iff_of_slash`: what that comes to for the usual paths.
-/
import ChargerStack.Ocpp.UrlParse

namespace ChargerStack.Ocpp.Url

set_option autoImplicit false

open ChargerStack.Lib
open ChargerStack.Lib.Regex

variable {s host rest : Bytes} {p : Parts}

/-! ## Decimal digits -/

theorem digitByte {d : Nat} (small : d < 10) : (48 + UInt8.ofNat d).toNat = 48 + d := by
  rw [UInt8.toNat_add, UInt8.toNat_ofNat', show (48 : UInt8).toNat = 48 from rfl]
  omega

theorem to_string_digits (n : Nat) : ∀ c ∈ to_string n, isdigit c = true := by
  intro c member
  unfold to_string at member
  split at member
  · obtain rfl : c = 48 := by simpa using member
    rfl
  · obtain ⟨d, inside, rfl⟩ := List.mem_map.1 member
    have small : d < 10 := Nat.digits_lt_base (by decide) (List.mem_reverse.1 inside)
    have value := digitByte small
    simp only [isdigit, decide_eq_true_eq, UInt8.le_iff_toNat_le, value]
    refine ⟨Nat.le_add_right 48 d, ?_⟩
    have : (57 : UInt8).toNat = 57 := rfl
    omega

theorem to_string_ne_nil (n : Nat) : to_string n ≠ [] := by
  unfold to_string
  split
  · simp
  · next nonzero => simpa [Nat.digits_eq_nil_iff_eq_zero] using nonzero

theorem number_digits {ds : List Nat} (small : ∀ d ∈ ds, d < 10) :
    number (ds.reverse.map fun d => 48 + UInt8.ofNat d) = Nat.ofDigits 10 ds := by
  rw [number, List.foldl_map, List.foldl_reverse]
  induction ds with
  | nil => rfl
  | cons d ds ih =>
      have value := digitByte (small d List.mem_cons_self)
      rw [List.foldr_cons, ih fun e member => small e (List.mem_cons_of_mem d member), value,
        Nat.ofDigits_cons]
      omega

theorem number_to_string (n : Nat) : number (to_string n) = n := by
  unfold to_string
  split
  · next zero => rw [zero]; rfl
  · rw [number_digits fun d => Nat.digits_lt_base (by decide), Nat.ofDigits_digits]

/-! ## The host -/

/-- An address in brackets, as the host is tested for one. -/
def Enclosed (host : Bytes) : Prop := host.head? = some 91 ∧ host.getLast? = some 93

/-- What a valid host without brackets is made of. -/
def Plain (c : UInt8) : Prop := isalnum c = true ∨ c = 45 ∨ c = 46

theorem plain_of_labelChar {c : UInt8} (inside : labelChar c = true) : Plain c := by
  simp only [labelChar, Bool.or_eq_true, beq_iff_eq] at inside
  exact inside.imp_right .inl

theorem within_labelRegex (n : Nat) : Within Plain (labelRegex n) :=
  have between : Within Plain (chars labelChar) := fun _ => plain_of_labelChar
  ⟨fun _ => .inl, ⟨within_upTo between 61, fun _ => .inl⟩, trivial⟩

theorem within_dot : Within Plain (char 46) := fun _ same => .inr (.inr (by simpa using same))

theorem within_domainRegex : Within Plain domainRegex :=
  ⟨within_labelRegex 2, within_dot, within_labelRegex 5⟩

theorem isalnum_of_isdigit {c : UInt8} (digit : isdigit c = true) : isalnum c = true := by
  simp only [isdigit, decide_eq_true_eq] at digit
  simp [isalnum, digit]

theorem within_ipv4Regex : Within Plain ipv4Regex := by
  have digits : Within Plain (plus (chars isdigit)) :=
    ⟨fun c digit => .inl (isalnum_of_isdigit digit), fun c digit => .inl (isalnum_of_isdigit digit)⟩
  exact ⟨digits, within_dot, digits, within_dot, digits, within_dot, digits⟩

/-- A valid host stands in brackets or has none, and no at sign either. -/
theorem validate_host {inet_pton : InetPton} {protocol : Bytes}
    (valid : validate inet_pton protocol host = some true) :
    Enclosed host ∨ ∀ c ∈ host, Plain c := by
  unfold validate at valid
  split at valid
  · cases valid
  · split at valid
    · cases valid
    · split at valid
      · next enclosed => exact .inl enclosed
      · split at valid
        · next matched => exact .inr (regexMatch_within within_ipv4Regex matched)
        · exact .inr (regexMatch_within within_domainRegex (Option.some.inj valid))

theorem not_plain_at : ¬ Plain 64 := by
  simp [Plain, isalnum]

theorem not_plain_bracket : ¬ Plain 91 := by
  simp [Plain, isalnum]

theorem bracketSplit_of_head (other : s.head? ≠ some 91) : bracketSplit s = none := by
  unfold bracketSplit
  split
  · exact absurd rfl other
  · rfl

/-- Where a bracket is closed, what comes behind does not matter. -/
theorem bracketSplit_append_right (closed : 93 ∈ host) (rest : Bytes) :
    bracketSplit (host ++ rest) = (bracketSplit host).map fun read => (read.1, read.2 ++ rest) := by
  cases host with
  | nil => cases closed
  | cons c t =>
      by_cases mark : c = 91
      · subst mark
        have inside : 93 ∈ t := (List.mem_cons.1 closed).resolve_left (by decide)
        have left : t.dropWhile addressChar ≠ [] := by
          simp only [ne_eq, List.dropWhile_eq_nil_iff]
          exact fun all => absurd (all 93 inside) (by decide)
        have stops : (t ++ rest).dropWhile addressChar = t.dropWhile addressChar ++ rest := by
          rw [List.dropWhile_append, if_neg (by simpa using left)]
        have taken : (t ++ rest).takeWhile addressChar = t.takeWhile addressChar := by
          have whole := List.takeWhile_append_dropWhile (p := addressChar) (l := t)
          have whole' := List.takeWhile_append_dropWhile (p := addressChar) (l := t ++ rest)
          rw [stops, ← List.append_assoc] at whole'
          exact List.append_cancel_right ((List.append_cancel_right whole').trans whole.symm)
        simp only [List.cons_append, bracketSplit, stops, taken]
        split
        · rfl
        · obtain empty | ⟨d, u, same, outside⟩ := dropWhile_cases addressChar t
          · exact absurd empty left
          · obtain rfl : d = 93 := by simpa [addressChar] using outside
            rw [same]
            rfl
      · rw [bracketSplit_of_head (by simpa using mark), bracketSplit_of_head (by simpa using mark)]
        rfl

theorem bracketSplit_closed {h rest : Bytes} (read : bracketSplit s = some (h, rest)) : 93 ∈ h := by
  unfold bracketSplit at read
  split at read
  · split at read
    · cases read
    · split at read
      · cases read
        simp
      · cases read
  · cases read

/-- A host is an address in brackets, or goes as far as the class of hosts does. -/
theorem hostSplit_cases {h rest : Bytes} (read : hostSplit s = some (h, rest)) :
    bracketSplit h = some (h, []) ∨
      bracketSplit s = none ∧ h ≠ [] ∧ (∀ c ∈ h, hostChar c = true) ∧ Stops hostChar rest := by
  rw [hostSplit, Option.or_eq_some_iff] at read
  rcases read with bracket | ⟨unread, plain⟩
  · left
    have closed := bracketSplit_closed bracket
    have whole := bracketSplit_append bracket
    rw [whole, bracketSplit_append_right closed] at bracket
    obtain ⟨⟨h', rest'⟩, inner, same⟩ := Option.map_eq_some_iff.1 bracket
    obtain ⟨rfl, behind⟩ := Prod.mk.inj same
    have nothing : rest' = [] := List.append_left_eq_self.1 behind
    rw [inner, nothing]
  · right
    split at plain
    · cases plain
    · next some_host =>
        cases plain
        exact ⟨unread, some_host, fun c => List.mem_takeWhile_imp, dropWhile_cases hostChar s⟩

/-- A valid host is read again, whatever comes behind it, if nothing there goes on with it. -/
theorem hostSplit_again {rest' : Bytes} (read : hostSplit (host ++ rest) = some (host, rest))
    (valid : Enclosed host ∨ ∀ c ∈ host, Plain c)
    (apart : bracketSplit host ≠ none ∨ Stops hostChar rest') :
    hostSplit (host ++ rest') = some (host, rest') := by
  rcases hostSplit_cases read with bracket | ⟨unread, some_host, chars, -⟩
  · have closed := bracketSplit_closed bracket
    rw [hostSplit, bracketSplit_append_right closed, bracket]
    rfl
  · have still : bracketSplit (host ++ rest') = none ∧ bracketSplit host = none := by
      by_cases closed : 93 ∈ host
      · rw [bracketSplit_append_right closed] at unread ⊢
        exact ⟨by simpa using unread, by simpa using unread⟩
      · have head : host.head? ≠ some 91 := by
          intro first
          rcases valid with enclosed | plain
          · exact closed (List.mem_of_getLast? enclosed.2)
          · exact not_plain_bracket (plain 91 (List.mem_of_mem_head? first))
        refine ⟨bracketSplit_of_head ?_, bracketSplit_of_head head⟩
        rwa [List.head?_append_of_ne_nil _ some_host]
    have stops := apart.resolve_left (by simp [still.2])
    have taken := stops.takeWhile chars
    have left := stops.dropWhile chars
    rw [hostSplit, still.1, taken, left, if_neg some_host]
    rfl

/-! ## The port -/

theorem pathChar_of_isdigit {c : UInt8} (digit : isdigit c = true) : pathChar c = true := by
  simp only [pathChar, Bool.and_eq_true, bne_iff_ne]
  exact ⟨ne_of_isdigit digit rfl, ne_of_isdigit digit rfl⟩

theorem portSplit_of_none (unread : (portSplit s).1 = none) : portSplit s = (none, s) := by
  have whole := portSplit_append s
  rw [unread] at whole
  exact Prod.ext unread whole

/-- A port does not go on behind a path. -/
theorem portSplit_append_right {a b : Bytes} (stops : Stops pathChar b) :
    (portSplit (a ++ b)).1 = (portSplit a).1 := by
  have digits : Stops isdigit b := stops.of_imp fun c => pathChar_of_isdigit
  cases a with
  | nil =>
      obtain rfl | ⟨c, t, rfl, outside⟩ := stops
      · rfl
      · have other : c ≠ 58 := by
          rintro rfl
          cases outside
        rw [List.nil_append, portSplit_of_head (by simpa using other)]
        rfl
  | cons c t =>
      rw [List.cons_append]
      by_cases mark : c = 58
      · subst mark
        simp only [portSplit, digits.takeWhile_append]
        split <;> rfl
      · rw [portSplit_of_head (by simpa using mark), portSplit_of_head (by simpa using mark)]

theorem portSplit_digits {digits : Bytes} (some_digits : digits ≠ [])
    (chars : ∀ c ∈ digits, isdigit c = true) (stops : Stops isdigit s) :
    portSplit (58 :: digits ++ s) = (some digits, s) := by
  rw [List.cons_append, portSplit, stops.takeWhile chars, stops.dropWhile chars, if_neg some_digits]

/-! ## When the port is kept -/

/-- Host and path can stand side by side: the path does not begin like a port, nor does it go on
with the host. -/
def Apart (host path : Bytes) : Prop :=
  (portSplit path).1 = none ∧ (bracketSplit host ≠ none ∨ path.takeWhile hostChar = [])

/-- The port is not written, or it is printed again, or it is the default port and what stands
behind it is not taken for a port or for a part of the host. -/
def PortKept (p : Parts) : Prop :=
  p.port = none ∨ (p.portNumber ≠ 0 ∧ p.portNumber ≠ defaultPort p.protocol) ∨
    (p.portNumber = defaultPort p.protocol ∧ Apart p.host p.path)

instance (p : Parts) : Decidable (PortKept p) := by
  unfold PortKept Apart
  infer_instance

/-- With a path that is empty or begins with a slash, only the port 0 of a protocol that has a
default port is not kept. -/
theorem portKept_iff_of_slash (slash : p.path = [] ∨ p.path.head? = some 47) :
    PortKept p ↔ p.port = none ∨ p.portNumber ≠ 0 ∨ defaultPort p.protocol = 0 := by
  have apart : Apart p.host p.path := by
    rcases slash with empty | head
    · rw [empty]
      exact ⟨rfl, .inr rfl⟩
    · refine ⟨by rw [portSplit_of_head (by simp [head])], .inr ?_⟩
      obtain ⟨t, path⟩ := List.head?_eq_some_iff.1 head
      rw [path]
      rfl
  constructor
  · rintro (unwritten | ⟨nonzero, -⟩ | ⟨default, -⟩)
    · exact .inl unwritten
    · exact .inr (.inl nonzero)
    · by_cases zero : p.portNumber = 0
      · exact .inr (.inr (default.symm.trans zero))
      · exact .inr (.inl zero)
  · rintro (unwritten | nonzero | noDefault)
    · exact .inl unwritten
    · by_cases default : p.portNumber = defaultPort p.protocol
      · exact .inr (.inr ⟨default, apart⟩)
      · exact .inr (.inl ⟨nonzero, default⟩)
    · by_cases zero : p.portNumber = 0
      · exact .inr (.inr ⟨zero.trans noDefault.symm, apart⟩)
      · exact .inr (.inl ⟨zero, fun same => zero (same.trans noDefault)⟩)

/-- What is printed for the path. -/
theorem printed_path_cases (p : Parts) :
    p.path = [] ∧ (printed p).path = [47] ∨ p.path ≠ [] ∧ (printed p).path = p.path := by
  by_cases empty : p.path = []
  · exact .inl ⟨empty, by simp [printed, empty]⟩
  · exact .inr ⟨empty, by simp [printed, empty]⟩

theorem tailText_eq (p : Parts) :
    p.tailText = p.path ++ (marked 63 p.query ++ marked 35 p.fragment) :=
  List.append_assoc ..

theorem printed_path_ne_nil (p : Parts) : (printed p).path ≠ [] := by
  rcases printed_path_cases p with ⟨-, same⟩ | ⟨some_path, same⟩
  · simp [same]
  · rwa [same]

/-- The port is printed, and then it was written; or it is not, and then host and path are apart. -/
theorem printed_port_cases (readable : Readable p) (kept : PortKept p) :
    p.port ≠ none ∧ (printed p).port = some (to_string p.portNumber.toNat) ∨
      (printed p).port = none ∧ p.portNumber = defaultPort p.protocol ∧
        (portSplit (printed p).path).1 = none ∧
        (bracketSplit p.host ≠ none ∨ Stops hostChar (printed p).path) := by
  by_cases shown : p.portNumber ≠ 0 ∧ p.portNumber ≠ defaultPort p.protocol
  · refine .inl ⟨fun unwritten => shown.2 ?_, by rw [printed, if_pos shown]⟩
    rw [Parts.portNumber, unwritten]
  · right
    have hidden : (printed p).port = none := by rw [printed, if_neg shown]
    have slash : Stops hostChar [47] := .inr ⟨47, [], rfl, rfl⟩
    rcases kept with unwritten | shown' | ⟨same, unread, apart⟩
    · have default : p.portNumber = defaultPort p.protocol := by rw [Parts.portNumber, unwritten]
      have behind : marked 58 p.port ++ p.tailText = p.tailText := by rw [unwritten]; rfl
      have port := readable.port
      have host := readable.host
      rw [behind] at port host
      rcases printed_path_cases p with ⟨-, path⟩ | ⟨some_path, path⟩
      · exact ⟨hidden, default, by rw [path]; rfl, .inr (path ▸ slash)⟩
      · refine ⟨hidden, default, ?_, ?_⟩
        · rw [tailText_eq] at port
          rw [path, ← portSplit_append_right (stops_query p.query p.fragment), port, unwritten]
        · rcases hostSplit_cases host with bracket | ⟨-, -, -, stops⟩
          · exact .inl (by simp [bracket])
          · rw [tailText_eq] at stops
            exact .inr (path ▸ stops.append_left some_path)
    · exact absurd shown' shown
    · rcases printed_path_cases p with ⟨-, path⟩ | ⟨some_path, path⟩
      · exact ⟨hidden, same, by rw [path]; rfl, .inr (path ▸ slash)⟩
      · rw [← stops_iff_takeWhile, ← path] at apart
        exact ⟨hidden, same, path ▸ unread, apart⟩

theorem portSplit_printed (readable : Readable p) (kept : PortKept p) :
    portSplit (marked 58 (printed p).port ++ (printed p).tailText) =
      ((printed p).port, (printed p).tailText) := by
  have marks := stops_query (printed p).query (printed p).fragment
  rw [tailText_eq]
  rcases printed_port_cases readable kept with ⟨written, shown⟩ | ⟨hidden, -, unread, -⟩
  · rw [shown]
    refine portSplit_digits (to_string_ne_nil _) (to_string_digits _) ?_
    rcases printed_path_cases p with ⟨-, path⟩ | ⟨some_path', path⟩
    · rw [path]
      exact .inr ⟨47, _, rfl, rfl⟩
    · obtain ⟨digits, port⟩ := Option.ne_none_iff_exists'.1 written
      obtain ⟨-, -, stops⟩ := readable.port_digits port
      rw [tailText_eq] at stops
      rw [path]
      exact (stops.append_left some_path').append some_path' _
  · rw [hidden]
    exact portSplit_of_none ((portSplit_append_right marks).trans unread)

theorem hostSplit_printed (readable : Readable p) (kept : PortKept p)
    (valid : Enclosed p.host ∨ ∀ c ∈ p.host, Plain c) :
    hostSplit (printed p).hostText =
      some ((printed p).host, marked 58 (printed p).port ++ (printed p).tailText) := by
  have host := readable.host
  rw [Parts.hostText, List.append_assoc] at host ⊢
  refine hostSplit_again host valid ?_
  rcases printed_port_cases readable kept with ⟨-, shown⟩ | ⟨hidden, -, -, apart⟩
  · rw [shown]
    exact .inr (.inr ⟨58, _, rfl, rfl⟩)
  · rw [hidden, tailText_eq]
    exact apart.imp_right fun stops => stops.append (printed_path_ne_nil p) _

/-! ## No user where there was none -/

/-- Where there are no brackets, no host is read if none begins or no tail fits. -/
theorem hostParts_eq_none_iff (unread : bracketSplit s = none) :
    hostParts s = none ↔ Stops hostChar s ∨ clean s = false := by
  rw [hostParts, hostSplit, unread, Option.none_or, stops_iff_takeWhile,
    ← clean_dropWhile (fun c => queryChar_of_hostChar) s]
  by_cases empty : s.takeWhile hostChar = []
  · simp [empty]
  · simp [empty]

theorem hostParts_of_stops (stops : Stops hostChar s) : hostParts s = none := by
  have unread : bracketSplit s = none := by
    refine bracketSplit_of_head fun first => ?_
    obtain rfl | ⟨c, t, rfl, outside⟩ := stops
    · cases first
    · obtain rfl : c = 91 := by simpa using first
      cases outside
  exact (hostParts_eq_none_iff unread).2 (.inl stops)

/-- Where a tail fits, no host is read only if none begins. -/
theorem stops_of_hostParts (fits : clean s = true) (unread : hostParts s = none) :
    Stops hostChar s := by
  cases bracket : bracketSplit s with
  | none => exact ((hostParts_eq_none_iff bracket).1 unread).resolve_right (by simp [fits])
  | some read =>
      obtain ⟨h, rest⟩ := read
      rw [bracketSplit_append bracket] at fits
      rw [hostParts, hostSplit, bracket] at unread
      simp [clean_of_append fits] at unread

theorem clean_append_of {a b b' : Bytes} (fits : clean b = true)
    (ends : b'.all fragmentChar = true → b.all fragmentChar = true)
    (whole : clean (a ++ b') = true) : clean (a ++ b) = true := by
  induction a with
  | nil => exact fits
  | cons c a ih =>
      by_cases mark : c = 35
      · subst mark
        have all : ((35 :: a) ++ b').all fragmentChar = true := whole
        rw [List.all_append, Bool.and_eq_true] at all
        have all' : ((35 :: a) ++ b).all fragmentChar = true := by
          rw [List.all_append, all.1, ends all.2]
          rfl
        exact all'
      · rw [List.cons_append, clean_cons mark] at whole ⊢
        exact ih whole

/-- Behind a closed bracket it does not matter for the host which tail comes, if the one has ends
of lines where the other has some. -/
theorem hostParts_append_none {a b b' : Bytes} (closed : 93 ∈ a) (fits : clean b = true)
    (ends : b'.all fragmentChar = true → b.all fragmentChar = true)
    (unread : hostParts (a ++ b) = none) : hostParts (a ++ b') = none := by
  have some_a : a ≠ [] := List.ne_nil_of_mem closed
  have bracket := bracketSplit_append_right closed b
  have bracket' := bracketSplit_append_right closed b'
  cases read : bracketSplit a with
  | none =>
      rw [read] at bracket bracket'
      rw [hostParts_eq_none_iff bracket] at unread
      rw [hostParts_eq_none_iff bracket']
      refine unread.imp (fun stops => (stops.append_left some_a).append some_a b') fun unclean => ?_
      by_contra whole
      have whole : clean (a ++ b') = true := by simpa using whole
      rw [clean_append_of fits ends whole] at unclean
      cases unclean
  | some found =>
      obtain ⟨h, rest⟩ := found
      rw [read] at bracket bracket'
      rw [hostParts, hostSplit, bracket] at unread
      rw [hostParts, hostSplit, bracket']
      have unclean : ¬ clean (rest ++ b) = true := by simpa using unread
      have unclean' : ¬ clean (rest ++ b') = true :=
        fun whole => unclean (clean_append_of fits ends whole)
      simp [unclean']

/-- The first at sign of two texts stands in the first or in the second. -/
theorem first_append {a b front behind : Bytes} (same : a ++ b = front ++ 64 :: behind)
    (first : 64 ∉ front) :
    (∃ t, a = front ++ 64 :: t ∧ behind = t ++ b) ∨
      64 ∉ a ∧ ∃ t, front = a ++ t ∧ b = t ++ 64 :: behind := by
  rcases List.append_eq_append_iff.1 same with ⟨t, front_eq, b_eq⟩ | ⟨t, a_eq, behind_eq⟩
  · exact .inr ⟨fun member => first (front_eq ▸ List.mem_append_left t member), t, front_eq, b_eq⟩
  · cases t with
    | nil =>
        refine .inr ⟨?_, [], ?_, behind_eq.symm⟩
        · rw [a_eq, List.append_nil]
          exact first
        · rw [a_eq, List.append_nil, List.append_nil]
    | cons c t =>
        obtain ⟨rfl, rfl⟩ := List.cons.inj behind_eq
        exact .inl ⟨t, a_eq, rfl⟩

/-- A part is printed as it was, unless it was written and empty. -/
theorem unlessEmpty_cases (o : Option Bytes) :
    unlessEmpty (o.getD []) = o ∨ unlessEmpty (o.getD []) = none ∧ o = some [] := by
  rcases o with - | - | ⟨c, t⟩
  · exact .inl rfl
  · exact .inr ⟨rfl, rfl⟩
  · exact .inl rfl

/-- In a port there is no at sign. -/
theorem not_mem_port {port : Option Bytes}
    (digits : ∀ t, port = some t → ∀ c ∈ t, isdigit c = true) : 64 ∉ marked 58 port := by
  have chars : ∀ c ∈ marked 58 port, passwordChar c = true :=
    forall_mem_marked rfl fun t written c member =>
      passwordChar_iff.2 (ne_of_isdigit (digits t written c member) rfl)
  exact fun member => passwordChar_iff.1 (chars 64 member) rfl

theorem printed_port_digits (t : Bytes) (shown : (printed p).port = some t) :
    ∀ c ∈ t, isdigit c = true := by
  simp only [printed] at shown
  split at shown
  · cases shown
    exact to_string_digits _
  · cases shown

theorem hostChar_pathChar {c : UInt8} (inside : hostChar c = true) : pathChar c = true := by
  simp only [hostChar, Bool.and_eq_true] at inside
  simp only [pathChar, Bool.and_eq_true]
  exact ⟨inside.1.2, inside.2⟩

/-- A text that is replaced by one where a host can begin no better. -/
theorem stops_behind {t b b' : Bytes} (blocked : Stops hostChar b')
    (stops : Stops hostChar (t ++ b)) : Stops hostChar (t ++ b') := by
  cases t with
  | nil => exact blocked
  | cons c t => exact (stops.append_left (by simp)).append (by simp) b'

/-- Behind the host, the first at sign of the printed text is one of the text that was parsed, and
a host can begin behind the one if it can behind the other. -/
theorem printed_first (readable : Readable p) {front behind : Bytes}
    (same : marked 58 (printed p).port ++ (printed p).tailText = front ++ 64 :: behind)
    (first : 64 ∉ front) :
    ∃ front' behind', marked 58 p.port ++ p.tailText = front' ++ 64 :: behind' ∧ 64 ∉ front' ∧
      (Stops hostChar behind' → Stops hostChar behind) := by
  have noPort' : 64 ∉ marked 58 (printed p).port := not_mem_port printed_port_digits
  have noPort : 64 ∉ marked 58 p.port :=
    not_mem_port fun t written => (readable.port_digits written).2.1
  obtain ⟨t, inPort, -⟩ | ⟨-, t, rfl, tail⟩ := first_append same first
  · exact absurd (inPort ▸ by simp) noPort'
  rw [List.mem_append, not_or] at first
  rw [tailText_eq] at tail
  rw [tailText_eq]
  have slash : 64 ∉ ([47] : Bytes) := by decide
  obtain ⟨u, inPath, rfl⟩ | ⟨noPath', u, rfl, marks⟩ := first_append tail first.2
  · -- in the path, which is then as it was
    rcases printed_path_cases p with ⟨-, path⟩ | ⟨-, path⟩
    · exact absurd ((inPath.symm.trans path) ▸ by simp) slash
    · refine ⟨marked 58 p.port ++ t, u ++ (marked 63 p.query ++ marked 35 p.fragment), ?_, ?_, ?_⟩
      · rw [← path, inPath]
        simp
      · simp [noPort, first.2]
      · refine stops_behind ?_
        exact (stops_query _ _).of_imp fun c => hostChar_pathChar
  have noPath : 64 ∉ p.path := by
    rcases printed_path_cases p with ⟨path, -⟩ | ⟨-, path⟩
    · simp [path]
    · rwa [path] at noPath'
  have rest := first.2
  rw [List.mem_append, not_or] at rest
  obtain ⟨w, inQuery, rfl⟩ | ⟨noQuery', w, rfl, mark⟩ := first_append marks rest.2
  · -- in the query
    rcases unlessEmpty_cases p.query with query | ⟨query, -⟩
    · refine ⟨marked 58 p.port ++ p.path ++ u, w ++ marked 35 p.fragment, ?_, ?_, ?_⟩
      · have written : marked 63 (unlessEmpty (p.query.getD [])) = u ++ 64 :: w := inQuery
        rw [← query, written]
        simp
      · simp [noPort, noPath, rest.2]
      · refine stops_behind ?_
        exact (stops_fragment _).of_imp fun c => queryChar_of_hostChar
    · have empty : marked 63 (printed p).query = [] := congrArg (marked 63) query
      rw [empty] at inQuery
      simp at inQuery
  · -- in the fragment
    rw [List.mem_append, not_or] at rest
    have noQuery : 64 ∉ marked 63 p.query := by
      rcases unlessEmpty_cases p.query with query | ⟨-, query⟩
      · rwa [← query]
      · rw [query]
        decide
    rcases unlessEmpty_cases p.fragment with fragment | ⟨fragment, -⟩
    · refine ⟨marked 58 p.port ++ p.path ++ marked 63 p.query ++ w, behind, ?_, ?_, id⟩
      · have written : marked 35 (unlessEmpty (p.fragment.getD [])) = w ++ 64 :: behind := mark
        rw [← fragment, written]
        simp
      · simp [noPort, noPath, noQuery, rest.2.2]
    · have empty : marked 35 (printed p).fragment = [] := congrArg (marked 35) fragment
      rw [empty] at mark
      simp at mark

theorem fragmentChar_of_isdigit {c : UInt8} (digit : isdigit c = true) :
    fragmentChar c = true := by
  simp only [fragmentChar, Bool.and_eq_true, bne_iff_ne]
  exact ⟨ne_of_isdigit digit rfl, ne_of_isdigit digit rfl⟩

/-- No end of a line is lost. -/
theorem printed_ends (readable : Readable p)
    (all : (marked 58 (printed p).port ++ (printed p).tailText).all fragmentChar = true) :
    (marked 58 p.port ++ p.tailText).all fragmentChar = true := by
  simp only [tailText_eq, List.all_append, Bool.and_eq_true] at all ⊢
  obtain ⟨-, path, query, -⟩ := all
  refine ⟨?_, ?_, ?_, ?_⟩
  · refine List.all_eq_true.2 (forall_mem_marked rfl fun digits written c member => ?_)
    exact fragmentChar_of_isdigit ((readable.port_digits written).2.1 c member)
  · rcases printed_path_cases p with ⟨empty, -⟩ | ⟨-, same⟩
    · rw [empty]
      rfl
    · rwa [same] at path
  · rcases unlessEmpty_cases p.query with same | ⟨-, empty⟩
    · rwa [← same]
    · rw [empty]
      rfl
  · exact List.all_eq_true.2 (forall_mem_marked rfl readable.fragment)

theorem Readable.host_ne_nil (readable : Readable p) : p.host ≠ [] := by
  rcases hostSplit_cases readable.host with bracket | ⟨-, some_host, -, -⟩
  · exact List.ne_nil_of_mem (bracketSplit_closed bracket)
  · exact some_host

/-- **No user is read where there was none.** -/
theorem userFree_printed (readable : Readable p) (nobody : p.user = none)
    (valid : Enclosed p.host ∨ ∀ c ∈ p.host, Plain c) : UserFree (printed p).hostText := by
  have free := userFree_iff.1 (readable.unnamed nobody)
  have some_host := readable.host_ne_nil
  rw [userFree_iff]
  intro front behind same first some_front head
  have same' : p.host ++ (marked 58 (printed p).port ++ (printed p).tailText) =
      front ++ 64 :: behind := by
    rw [← same, Parts.hostText, List.append_assoc]
    rfl
  obtain ⟨t, inHost, rfl⟩ | ⟨-, t, rfl, rest⟩ := first_append same' first
  · -- the at sign stands in the address, which is as it was
    have closed : 93 ∈ t := by
      rcases valid with enclosed | plain
      · have last := enclosed.2
        rw [inHost, List.getLast?_append_of_ne_nil _ (by simp)] at last
        exact (List.mem_cons.1 (List.mem_of_getLast? last)).resolve_left (by decide)
      · exact absurd (plain 64 (inHost ▸ by simp)) not_plain_at
    refine hostParts_append_none closed readable.clean (printed_ends readable) ?_
    refine free front _ ?_ first some_front head
    rw [Parts.hostText, List.append_assoc, inHost]
    simp
  · -- it stands behind the host
    obtain ⟨front', behind', text, first', blocked⟩ :=
      printed_first readable rest (fun member => first (List.mem_append_right _ member))
    have fits := readable.clean
    rw [text] at fits
    have unread : hostParts behind' = none := by
      refine free (p.host ++ front') behind' ?_ ?_ (by simp [some_host]) ?_
      · rw [Parts.hostText, List.append_assoc, text, List.append_assoc]
      · rw [List.mem_append, not_or] at first ⊢
        exact ⟨first.1, first'⟩
      · rwa [List.head?_append_of_ne_nil _ some_host] at head ⊢
    have fits' : clean behind' = true :=
      clean_of_append (a := front' ++ [64]) (by simpa using fits)
    exact hostParts_of_stops (blocked (stops_of_hostParts fits' unread))

/-! ## Reading the printed text -/

theorem printed_path_chars (readable : Readable p) :
    ∀ c ∈ (printed p).path, pathChar c = true := by
  rcases printed_path_cases p with ⟨-, path⟩ | ⟨-, path⟩
  · rw [path]
    simp [pathChar]
  · exact path ▸ readable.path

/-- **The printed parts are read back**, if the port is kept. -/
theorem readable_printed (readable : Readable p) (kept : PortKept p)
    (valid : Enclosed p.host ∨ ∀ c ∈ p.host, Plain c) : Readable (printed p) where
  protocol := readable.protocol
  named := by
    intro name password same
    obtain ⟨⟨name', password'⟩, user, same⟩ := Option.map_eq_some_iff.1 same
    obtain ⟨rfl, rfl⟩ := Prod.mk.inj same
    obtain ⟨some_name, nameChars, passwordChars⟩ := readable.named name' password' user
    refine ⟨some_name, nameChars, fun t written => ?_⟩
    rcases unlessEmpty_cases password' with same | ⟨empty, -⟩
    · exact passwordChars t (same ▸ written)
    · rw [empty] at written
      cases written
  unnamed := by
    intro nobody
    exact userFree_printed readable (Option.map_eq_none_iff.1 nobody) valid
  host := hostSplit_printed readable kept valid
  port := portSplit_printed readable kept
  path := printed_path_chars readable
  query := by
    rcases unlessEmpty_cases p.query with same | ⟨empty, -⟩
    · exact fun t written => readable.query t (same ▸ written)
    · intro t written
      cases empty.symm.trans written
  fragment := by
    rcases unlessEmpty_cases p.fragment with same | ⟨empty, -⟩
    · exact fun t written => readable.fragment t (same ▸ written)
    · intro t written
      cases empty.symm.trans written

theorem getD_unlessEmpty (t : Bytes) : (unlessEmpty t).getD [] = t := by
  unfold unlessEmpty
  split
  · next empty => exact empty.symm
  · rfl

theorem portNumber_printed (readable : Readable p) (kept : PortKept p) :
    (printed p).portNumber = p.portNumber := by
  rcases printed_port_cases readable kept with ⟨-, shown⟩ | ⟨hidden, default, -, -⟩
  · rw [Parts.portNumber, shown]
    simp only [number_to_string]
    exact UInt16.ofNat_toNat
  · rw [Parts.portNumber, hidden]
    exact default.symm

/-- What is read back makes the same object. -/
theorem object_printed (readable : Readable p) (kept : PortKept p) :
    (printed p).object = p.object := by
  have port := portNumber_printed readable kept
  have path : (if (printed p).path = [] then [47] else (printed p).path) =
      if p.path = [] then [47] else p.path := if_neg (printed_path_ne_nil p)
  have query : (printed p).query.getD [] = p.query.getD [] := getD_unlessEmpty _
  have fragment : (printed p).fragment.getD [] = p.fragment.getD [] := getD_unlessEmpty _
  have username : (printed p).username = p.username := by
    cases user : p.user <;> simp [Parts.username, printed, user]
  have password : (printed p).password = p.password := by
    rcases user : p.user with - | ⟨name, - | - | ⟨c, t⟩⟩ <;>
      simp [Parts.password, printed, unlessEmpty, user]
  simp only [Parts.object, port, path, query, fragment, username, password]
  rfl

theorem password_eq {name : Bytes} {password : Option Bytes}
    (user : p.user = some (name, password)) : p.password = password.getD [] := by
  cases password <;> simp [Parts.password, user]

/-- The user of the printed text is the one that the object names. -/
theorem userText_of_object {q : Parts} (readable : Readable p) (readable' : Readable q)
    (username : q.username = p.username) (password : q.password = p.password) {a b : Bytes}
    (same : userText q.user ++ a = userText (printed p).user ++ b) : a = b := by
  cases user : p.user with
  | none =>
      cases user' : q.user with
      | none => simpa [user', printed, user, userText] using same
      | some named' =>
          obtain ⟨name', password'⟩ := named'
          refine absurd ?_ (readable'.named name' password' user').1
          simpa [Parts.username, user, user'] using username
  | some named =>
      obtain ⟨name, secret⟩ := named
      have some_name := (readable.named name secret user).1
      cases user' : q.user with
      | none => exact absurd (by simpa [Parts.username, user, user'] using username) some_name
      | some named' =>
          obtain ⟨name', secret'⟩ := named'
          obtain rfl : name' = name := by simpa [Parts.username, user, user'] using username
          have secrets : secret'.getD [] = secret.getD [] := by
            rw [← password_eq user', ← password_eq user, password]
          have text : marked 58 secret' ++ 64 :: a =
              marked 58 (unlessEmpty (secret.getD [])) ++ 64 :: b := by
            rw [user', show (printed p).user = some (name', unlessEmpty (secret.getD [])) by
              simp [printed, user]] at same
            simpa [userText] using same
          rw [← secrets] at text
          rcases unlessEmpty_cases secret' with kept | ⟨dropped, empty⟩
          · rw [kept] at text
            exact (List.cons.inj (List.append_cancel_left text)).2
          · rw [dropped, empty] at text
            cases (List.cons.inj text).1

/-- A text that is a path, or the default one for none, has no port in front of the path. -/
theorem no_port_in_front {port : Option Bytes} {path path' : Bytes}
    (whole : (if path = [] then [47] else path) = path')
    (front : marked 58 port ++ path = path') : port = none ∧ path = path' := by
  by_cases empty : path = []
  · rw [if_pos empty] at whole
    rw [empty, ← whole] at front
    cases written : port with
    | none => rw [written] at front; cases front
    | some digits => rw [written] at front; cases front
  · rw [if_neg empty] at whole
    rw [← whole] at front
    refine ⟨?_, whole⟩
    cases written : port with
    | none => rfl
    | some digits =>
        rw [written] at front
        have nothing := List.append_left_eq_self.1 front
        cases nothing

/-- **If the printed parts are read as the object was, the port is kept.** -/
theorem portKept_of_reparsed {q : Parts} (readable : Readable p) (readable' : Readable q)
    (text : q.text = (printed p).text) (object : q.object = p.object) : PortKept p := by
  have username : q.username = p.username := congrArg UrlObject.username object
  have password : q.password = p.password := congrArg UrlObject.password object
  have host : q.host = p.host := congrArg UrlObject.host object
  have number : q.portNumber = p.portNumber := congrArg UrlObject.port object
  have protocol : q.protocol = p.protocol := congrArg UrlObject.protocol object
  have path : (if q.path = [] then [47] else q.path) = (printed p).path :=
    congrArg UrlObject.path object
  by_cases shown : p.portNumber ≠ 0 ∧ p.portNumber ≠ defaultPort p.protocol
  · exact .inr (.inl shown)
  have hidden : (printed p).port = none := by rw [printed, if_neg shown]
  -- the texts agree from the host on
  have hostText : q.hostText = (printed p).hostText := by
    simp only [Parts.text, List.append_assoc, protocol] at text
    have authority : userText q.user ++ q.hostText =
        userText (printed p).user ++ (printed p).hostText :=
      List.append_cancel_left (List.append_cancel_left text)
    exact userText_of_object readable readable' username password authority
  have behind : marked 58 q.port ++ q.tailText = (printed p).tailText := by
    simp only [Parts.hostText, List.append_assoc, host, hidden] at hostText
    exact List.append_cancel_left hostText
  have front : marked 58 q.port ++ q.path = (printed p).path := by
    have chars : ∀ c ∈ marked 58 q.port ++ q.path, pathChar c = true := by
      intro c member
      rcases List.mem_append.1 member with inPort | inPath
      · refine forall_mem_marked rfl (fun digits written d inside => ?_) c inPort
        exact pathChar_of_isdigit ((readable'.port_digits written).2.1 d inside)
      · exact readable'.path c inPath
    have left := pathOf_tail q.query q.fragment chars
    have right := pathOf_tail (printed p).query (printed p).fragment (printed_path_chars readable)
    rw [← left, ← right]
    refine congrArg pathOf ?_
    simpa [Parts.tailText] using behind
  -- so there is no port in the text, and its path is the one that was printed
  obtain ⟨unwritten, same⟩ := no_port_in_front path front
  have default : p.portNumber = defaultPort p.protocol := by
    rw [← number, Parts.portNumber, unwritten, protocol]
  refine .inr (.inr ⟨default, ?_⟩)
  rcases printed_path_cases p with ⟨empty, -⟩ | ⟨some_path, path'⟩
  · rw [empty]
    exact ⟨rfl, .inr rfl⟩
  · rw [path'] at same
    have tail : marked 58 q.port ++ q.tailText =
        p.path ++ (marked 63 q.query ++ marked 35 q.fragment) := by
      rw [unwritten, tailText_eq, same]
      rfl
    have port := readable'.port
    have host' := readable'.host
    rw [tail] at port host'
    refine ⟨?_, ?_⟩
    · rw [← portSplit_append_right (stops_query q.query q.fragment), port, unwritten]
    · rw [← host, ← stops_iff_takeWhile]
      rcases hostSplit_cases host' with bracket | ⟨-, -, -, stops⟩
      · exact .inl (by simp [bracket])
      · exact .inr (stops.append_left some_path)

/-- **When a printed URL is parsed as it was**: exactly when the port was not written, is printed,
or is the default one and the path stands apart from the host without it. -/
theorem reparsed_iff {inet_pton : InetPton} {x y v : UrlObject} {url : Bytes}
    (read : parse inet_pton x url = some (true, v)) :
    parse inet_pton y (toString v) = some (true, v) ↔ ∀ p, split url = some p → PortKept p := by
  obtain ⟨p, splits, fits, valid, rfl⟩ := parse_eq_true_iff.1 read
  have readable := (split_eq_some_iff.1 splits).2
  have named : ∀ name password, p.user = some (name, password) → name ≠ [] :=
    fun name password user => (readable.named name password user).1
  rw [toString_eq named, parse_eq_true_iff]
  constructor
  · rintro ⟨q, splits', -, -, object⟩ p' splits''
    obtain rfl := Option.some.inj (splits.symm.trans splits'')
    obtain ⟨text, readable'⟩ := split_eq_some_iff.1 splits'
    exact portKept_of_reparsed readable readable' text object.symm
  · intro kept
    have kept := kept p splits
    have readable' := readable_printed readable kept (validate_host valid)
    refine ⟨printed p, readable'.split_text, ?_, valid, (object_printed readable kept).symm⟩
    intro digits shown
    simp only [printed] at shown
    split at shown
    · cases shown
      rw [number_to_string]
      have small := p.portNumber.toNat_lt
      omega
    · cases shown

/-- `http://a:8080/b` -/
def portedUrl : Bytes := [104, 116, 116, 112, 58, 47, 47, 97, 58, 56, 48, 56, 48, 47, 98]

/-- The object of `portedUrl`. -/
def portedObject : UrlObject :=
  { valid := true, protocol := [104, 116, 116, 112], host := [97], port := 8080, path := [47, 98] }

theorem portedUrl_reparsed :
    parse (fun _ => false) {} (toString portedObject) = some (true, portedObject) := by
  have read : parse (fun _ => false) {} portedUrl = some (true, portedObject) := by decide
  refine (reparsed_iff read).2 fun p splits => ?_
  have parts : split portedUrl = some
      { protocol := [104, 116, 116, 112], host := [97], port := some [56, 48, 56, 48],
        path := [47, 98], query := none, fragment := none } := by decide
  obtain rfl := Option.some.inj (parts.symm.trans splits)
  decide

/-- The object of `http://a:0/`. -/
def portZeroObject : UrlObject :=
  { valid := true, protocol := [104, 116, 116, 112], host := [97], port := 0, path := [47] }

/-- `http://a:0/` is printed as `http://a/`, and that has port 80. -/
theorem portZero_lost :
    parse (fun _ => false) {} [104, 116, 116, 112, 58, 47, 47, 97, 58, 48, 47] =
        some (true, portZeroObject) ∧
      parse (fun _ => false) {} (toString portZeroObject) =
        some (true, { portZeroObject with port := 80 }) := by
  decide

/-- `http://a:80:81/`: behind the default port stands a path that is taken for a port. -/
example : (split [104, 116, 116, 112, 58, 47, 47, 97, 58, 56, 48, 58, 56, 49, 47]).all
    fun p => ¬ PortKept p := by
  decide

/-- `http://a:80x`: behind the default port stands a path that goes on with the host. -/
example : (split [104, 116, 116, 112, 58, 47, 47, 97, 58, 56, 48, 120]).all
    fun p => ¬ PortKept p := by
  decide

end ChargerStack.Ocpp.Url
