/-
# Ocpp.UrlAuthority -- from which part of the text the host is read

The authority of a URL is the text behind `://` up to the first slash, question mark or hash.
The pattern of ocpp/tool/url/Url.cpp does not stop there: the classes of the user and of an
address in brackets go across slashes, and behind the port anything is a path.

* `authorityFits_of_read`: if the parts are read where they belong, the authority is a host and
  a port, and no at sign behind it is taken for one that ends a user.
* `read_of_authorityFits`: if it is so, the parts are read where they belong.
-/
import ChargerStack.Ocpp.UrlRoundTrip

namespace ChargerStack.Ocpp.Url

set_option autoImplicit false

/-! ## The authority -/

/-- No slash, question mark or hash. -/
def authorityChar (c : UInt8) : Bool := c != 47 && c != 63 && c != 35

/-- What stands behind the first `://`. -/
def behindProtocol : Bytes → Bytes
  | 58 :: 47 :: 47 :: rest => rest
  | _ :: t => behindProtocol t
  | [] => []

/-- The text between `://` and the first slash, question mark or hash. -/
def authority (url : Bytes) : Bytes := (behindProtocol url).takeWhile authorityChar

/-- The rest, from that character on. -/
def behindAuthority (url : Bytes) : Bytes := (behindProtocol url).dropWhile authorityChar

/-- The user, the password, the host and the port, as they are written. -/
def Parts.frontText (p : Parts) : Bytes := userText p.user ++ p.host ++ marked 58 p.port

/-- The object is filled from parts of which the user, the password, the host and the port stand
in the authority, and the path, the query and the fragment behind it. -/
def ReadFromAuthority (url : Bytes) (v : UrlObject) : Prop :=
  ∃ p, split url = some p ∧ v = p.object ∧
    p.frontText <+: authority url ∧ p.tailText <:+ behindAuthority url

/-- A host: an address in brackets, or a text without a colon that does not begin like one. -/
def HostShape (host : Bytes) : Prop :=
  (∃ t, host = 91 :: t ++ [93] ∧ t ≠ [] ∧ 93 ∉ t) ∨
    host ≠ [] ∧ 58 ∉ host ∧ (host.head? = some 91 → host.take 2 = [91, 93])

/-- A host, and behind it nothing or a colon and digits. -/
def HostAndPort (s : Bytes) : Prop :=
  ∃ host port, s = host ++ marked 58 port ∧ HostShape host ∧
    ∀ digits, port = some digits → digits ≠ [] ∧ ∀ c ∈ digits, isdigit c = true

/-- The authority is a user, an at sign and a host with its port; or it is such a host, and the
first at sign of the whole text has nothing behind it that could begin a host.  Behind the first
hash there is no end of a line. -/
def AuthorityFits (url : Bytes) : Prop :=
  clean (behindAuthority url) = true ∧
    ((∃ user hostPort, authority url = user ++ 64 :: hostPort ∧ 64 ∉ user ∧
        HostAndPort hostPort) ∨
      HostAndPort (authority url) ∧
        ∀ front behind, behindProtocol url = front ++ 64 :: behind → 64 ∉ front →
          behind.takeWhile hostChar = [])

/-! ## The text behind the protocol -/

variable {s host rest url : Bytes} {p : Parts}

theorem behindProtocol_append {protocol : Bytes} (free : 58 ∉ protocol) (rest : Bytes) :
    behindProtocol (protocol ++ [58, 47, 47] ++ rest) = rest := by
  induction protocol with
  | nil => rfl
  | cons c t ih =>
      rw [List.mem_cons, not_or] at free
      obtain ⟨other, free⟩ := free
      rw [List.cons_append, List.cons_append, behindProtocol]
      · exact ih free
      · rintro rest' rfl
        exact absurd rfl other

theorem Readable.colon_notMem_protocol (readable : Readable p) : 58 ∉ p.protocol := by
  obtain ⟨c, t, same, first, chars⟩ := readable.protocol
  rw [same]
  intro member
  rcases List.mem_cons.1 member with rfl | inside
  · cases first
  · cases chars 58 inside

theorem hostText_eq (p : Parts) : p.hostText = p.host ++ (marked 58 p.port ++ p.tailText) :=
  List.append_assoc ..

theorem text_eq (p : Parts) :
    p.text = p.protocol ++ [58, 47, 47] ++ (p.frontText ++ p.tailText) := by
  simp only [Parts.text, Parts.frontText, hostText_eq, List.append_assoc]

theorem behindProtocol_of_split (read : split url = some p) :
    behindProtocol url = p.frontText ++ p.tailText := by
  obtain ⟨rfl, readable⟩ := split_eq_some_iff.1 read
  rw [text_eq, behindProtocol_append readable.colon_notMem_protocol]

theorem authority_append (url : Bytes) : authority url ++ behindAuthority url = behindProtocol url :=
  List.takeWhile_append_dropWhile

theorem authority_chars (url : Bytes) : ∀ c ∈ authority url, authorityChar c = true :=
  fun _ => List.mem_takeWhile_imp

theorem stops_behindAuthority (url : Bytes) : Stops authorityChar (behindAuthority url) :=
  dropWhile_cases authorityChar _

/-- Two ways to cut a text are the same if each part of the one lies in a part of the other. -/
theorem cut_eq {a b a' b' : Bytes} (same : a ++ b = a' ++ b') (front : a <+: a')
    (behind : b <:+ b') : a = a' ∧ b = b' := by
  have length := congrArg List.length same
  simp only [List.length_append] at length
  have := front.length_le
  have := behind.length_le
  exact List.append_inj same (by omega)

/-! ## Reading a host and a port -/

theorem hostChar_of_authorityChar {c : UInt8} (inside : authorityChar c = true) (other : c ≠ 58) :
    hostChar c = true := by
  simp only [authorityChar, Bool.and_eq_true, bne_iff_ne] at inside
  simp [hostChar, inside, other]

theorem authorityChar_of_hostChar {c : UInt8} (inside : hostChar c = true) :
    authorityChar c = true := by
  simp only [hostChar, Bool.and_eq_true, bne_iff_ne] at inside
  simp [authorityChar, inside]

theorem authorityChar_of_isdigit {c : UInt8} (digit : isdigit c = true) :
    authorityChar c = true := by
  simp only [authorityChar, Bool.and_eq_true, bne_iff_ne]
  exact ⟨⟨ne_of_isdigit digit rfl, ne_of_isdigit digit rfl⟩, ne_of_isdigit digit rfl⟩

theorem bracketSplit_address {t : Bytes} (some_t : t ≠ []) (free : 93 ∉ t) (rest : Bytes) :
    bracketSplit (91 :: t ++ [93] ++ rest) = some (91 :: t ++ [93], rest) := by
  have chars : ∀ c ∈ t, addressChar c = true := by
    intro c member
    simp only [addressChar, bne_iff_ne]
    rintro rfl
    exact free member
  have stops : Stops addressChar (93 :: rest) := .inr ⟨93, rest, rfl, rfl⟩
  have text : 91 :: t ++ [93] ++ rest = 91 :: (t ++ 93 :: rest) := by simp
  rw [text, bracketSplit, stops.takeWhile chars, stops.dropWhile chars, if_neg some_t]
  rfl

/-- A host of the shape is read up to its end. -/
theorem hostSplit_shape (shape : HostShape host) (inside : ∀ c ∈ host, authorityChar c = true)
    (stops : Stops hostChar rest) : hostSplit (host ++ rest) = some (host, rest) := by
  rcases shape with ⟨t, rfl, some_t, free⟩ | ⟨some_host, free, unlike⟩
  · rw [hostSplit, bracketSplit_address some_t free]
    rfl
  · have chars : ∀ c ∈ host, hostChar c = true := by
      intro c member
      refine hostChar_of_authorityChar (inside c member) ?_
      rintro rfl
      exact free member
    have unread : bracketSplit (host ++ rest) = none := by
      by_cases head : host.head? = some 91
      · obtain ⟨u, rfl⟩ : ∃ u, host = 91 :: 93 :: u := by
          have whole := List.take_append_drop 2 host
          rw [unlike head] at whole
          exact ⟨host.drop 2, whole.symm⟩
        rfl
      · refine bracketSplit_of_head ?_
        rwa [List.head?_append_of_ne_nil _ some_host]
    rw [hostSplit, unread, stops.takeWhile chars, stops.dropWhile chars, if_neg some_host]
    rfl

theorem portSplit_text {port : Option Bytes}
    (digits : ∀ t, port = some t → t ≠ [] ∧ ∀ c ∈ t, isdigit c = true)
    (stops : Stops authorityChar s) : portSplit (marked 58 port ++ s) = (port, s) := by
  cases port with
  | none =>
      refine portSplit_of_head ?_
      obtain rfl | ⟨c, t, rfl, outside⟩ := stops
      · simp [marked]
      · have other : c ≠ 58 := by
          rintro rfl
          cases outside
        simpa [marked] using other
  | some t =>
      obtain ⟨some_t, chars⟩ := digits t rfl
      exact portSplit_digits some_t chars (stops.of_imp fun c => authorityChar_of_isdigit)

theorem stops_port {port : Option Bytes} (stops : Stops authorityChar s) :
    Stops hostChar (marked 58 port ++ s) := by
  cases port with
  | none => exact stops.of_imp fun c => authorityChar_of_hostChar
  | some t => exact .inr ⟨58, t ++ s, rfl, rfl⟩

/-- The parts of a host, its port and a tail, behind a protocol and a user. -/
theorem readable_hostAndPort (user : Option (Bytes × Option Bytes)) {port : Option Bytes}
    (shape : HostShape host) (inside : ∀ c ∈ host, authorityChar c = true)
    (digits : ∀ t, port = some t → t ≠ [] ∧ ∀ c ∈ t, isdigit c = true)
    (stops : Stops authorityChar s) (fits : clean s = true) (readable : Readable p)
    (named : ∀ name password, user = some (name, password) → name ≠ [] ∧
      (∀ c ∈ name, userChar c = true) ∧ ∀ t, password = some t → ∀ c ∈ t, passwordChar c = true)
    (unnamed : user = none → UserFree (host ++ (marked 58 port ++ s))) :
    ∃ q : Parts, Readable q ∧ q.protocol = p.protocol ∧ q.user = user ∧ q.host = host ∧
      q.port = port ∧ q.tailText = s := by
  have read : hostSplit (host ++ (marked 58 port ++ s)) = some (host, marked 58 port ++ s) :=
    hostSplit_shape shape inside (stops_port stops)
  have portRead := portSplit_text digits stops
  have fits' : clean (marked 58 port ++ s) = true := by
    rw [← portSplit_clean, portRead]
    exact fits
  refine ⟨_, readable_behind read fits' readable.protocol named unnamed, rfl, rfl, rfl, ?_, ?_⟩
  · simp only [partsBehind, portRead]
  · simp only [Parts.tailText, partsBehind, portRead]
    exact tail_append s

/-! ## What a valid host begins with -/

theorem Readable.userChar_head (readable : Readable p)
    (valid : Enclosed p.host ∨ ∀ c ∈ p.host, Plain c) :
    ∃ c t, p.frontText ++ p.tailText = c :: t ∧ userChar c = true := by
  cases user : p.user with
  | some named =>
      obtain ⟨name, password⟩ := named
      obtain ⟨some_name, chars, -⟩ := readable.named name password user
      obtain ⟨c, t, rfl⟩ := List.exists_cons_of_ne_nil some_name
      refine ⟨c, t ++ marked 58 password ++ [64] ++ p.host ++ marked 58 p.port ++ p.tailText, ?_,
        chars c List.mem_cons_self⟩
      simp only [Parts.frontText, user, userText, List.cons_append]
  | none =>
      obtain ⟨c, t, host⟩ := List.exists_cons_of_ne_nil readable.host_ne_nil
      refine ⟨c, t ++ marked 58 p.port ++ p.tailText, ?_, ?_⟩
      · simp only [Parts.frontText, user, userText, host, List.nil_append, List.cons_append]
      · rw [host] at valid
        rcases valid with enclosed | plain
        · obtain rfl : c = 91 := by simpa using enclosed.1
          rfl
        · rcases plain c List.mem_cons_self with alnum | rfl | rfl
          · rw [userChar_iff]
            constructor
            · rintro rfl
              cases alnum
            · rintro rfl
              cases alnum
          · rfl
          · rfl

/-! ## When the parts are read where they belong -/

theorem clean_append_of_authority {a : Bytes} (inside : ∀ c ∈ a, authorityChar c = true) :
    clean (a ++ s) = clean s := by
  induction a with
  | nil => rfl
  | cons c a ih =>
      have here := inside c List.mem_cons_self
      simp only [authorityChar, Bool.and_eq_true, bne_iff_ne] at here
      rw [List.cons_append, clean_cons here.2]
      exact ih fun d member => inside d (List.mem_cons_of_mem c member)

theorem Readable.clean_tail (readable : Readable p) : Url.clean p.tailText = true := by
  have whole := readable.clean
  rw [← portSplit_clean, readable.port] at whole
  exact whole

/-- Brackets that are closed and yet hold no address hold nothing. -/
theorem closed_at_once {t : Bytes} (closed : 93 ∈ t) (unread : bracketSplit (91 :: t) = none) :
    ∃ u, t = 93 :: u := by
  rw [bracketSplit] at unread
  split at unread
  · next empty =>
      obtain ⟨d, u, rfl⟩ := List.exists_cons_of_ne_nil (List.ne_nil_of_mem closed)
      obtain rfl : d = 93 := by simpa [addressChar] using empty
      exact ⟨u, rfl⟩
  · have left : t.dropWhile addressChar ≠ [] := by
      simp only [ne_eq, List.dropWhile_eq_nil_iff]
      exact fun all => absurd (all 93 closed) (by decide)
    obtain empty | ⟨d, u, same, outside⟩ := dropWhile_cases addressChar t
    · exact absurd empty left
    · obtain rfl : d = 93 := by simpa [addressChar] using outside
      rw [same] at unread
      cases unread

/-- The host of a text that was read is of the shape, if it is valid. -/
theorem Readable.hostShape (readable : Readable p)
    (valid : Enclosed p.host ∨ ∀ c ∈ p.host, Plain c) : HostShape p.host := by
  rcases hostSplit_cases readable.host with bracket | ⟨unread, some_host, chars, -⟩
  · left
    unfold bracketSplit at bracket
    split at bracket
    · next t same =>
        split at bracket
        · cases bracket
        · next some_t =>
            split at bracket
            · next rest left =>
                obtain ⟨text, -⟩ := Prod.mk.inj (Option.some.inj bracket)
                refine ⟨_, text.symm, some_t, fun member => ?_⟩
                have inside := List.mem_takeWhile_imp member
                cases inside
            · cases bracket
    · cases bracket
  · right
    refine ⟨some_host, fun member => ?_, fun head => ?_⟩
    · cases chars 58 member
    · rcases valid with enclosed | plain
      · rw [hostText_eq] at unread
        obtain ⟨t, host⟩ := List.head?_eq_some_iff.1 head
        have closed : 93 ∈ t := by
          have last := List.mem_of_getLast? enclosed.2
          rw [host] at last
          exact (List.mem_cons.1 last).resolve_left (by decide)
        have closed' : 93 ∈ p.host := host ▸ List.mem_cons_of_mem 91 closed
        rw [bracketSplit_append_right closed', Option.map_eq_none_iff, host] at unread
        obtain ⟨u, rfl⟩ := closed_at_once closed unread
        rw [host]
        rfl
      · exact absurd (plain 91 (List.mem_of_mem_head? head)) not_plain_bracket

theorem Readable.hostAndPort (readable : Readable p)
    (valid : Enclosed p.host ∨ ∀ c ∈ p.host, Plain c) :
    HostAndPort (p.host ++ marked 58 p.port) := by
  refine ⟨p.host, p.port, rfl, readable.hostShape valid, fun digits written => ?_⟩
  obtain ⟨some_digits, chars, -⟩ := readable.port_digits written
  exact ⟨some_digits, chars⟩

/-- **Parts that are read where they belong**: then the authority fits. -/
theorem authorityFits_of_read (read : split url = some p)
    (valid : Enclosed p.host ∨ ∀ c ∈ p.host, Plain c) (front : p.frontText = authority url)
    (tail : p.tailText = behindAuthority url) : AuthorityFits url := by
  obtain ⟨-, readable⟩ := split_eq_some_iff.1 read
  have hostAndPort := readable.hostAndPort valid
  have fits : clean (behindAuthority url) = true := tail ▸ readable.clean_tail
  refine ⟨fits, ?_⟩
  cases user : p.user with
  | some named =>
      left
      obtain ⟨name, password⟩ := named
      obtain ⟨-, nameChars, passwordChars⟩ := readable.named name password user
      refine ⟨name ++ marked 58 password, p.host ++ marked 58 p.port, ?_, ?_, hostAndPort⟩
      · rw [← front]
        simp [Parts.frontText, user, userText]
      · intro member
        rcases List.mem_append.1 member with inName | inPassword
        · exact (userChar_iff.1 (nameChars 64 inName)).2 rfl
        · have chars : ∀ c ∈ marked 58 password, passwordChar c = true :=
            forall_mem_marked rfl passwordChars
          exact passwordChar_iff.1 (chars 64 inPassword) rfl
  | none =>
      right
      have front' : authority url = p.host ++ marked 58 p.port := by
        rw [← front]
        simp [Parts.frontText, user, userText]
      refine ⟨front' ▸ hostAndPort, fun before behind same first => ?_⟩
      rw [← stops_iff_takeWhile]
      have free := userFree_iff.1 (readable.unnamed user)
      have text : p.hostText = before ++ 64 :: behind := by
        rw [← same, ← authority_append, front', ← tail, hostText_eq, List.append_assoc]
      obtain ⟨c, t, begins, char⟩ := readable.userChar_head valid
      have begins' : before ++ 64 :: behind = c :: t := by
        rw [← text, ← begins, hostText_eq]
        simp [Parts.frontText, user, userText]
      obtain ⟨notColon, notAt⟩ := userChar_iff.1 char
      have whole : clean (before ++ [64] ++ behind) = true := by
        rw [List.append_assoc, List.singleton_append, ← same, ← authority_append,
          clean_append_of_authority (authority_chars url)]
        exact fits
      cases before with
      | nil => exact absurd (List.cons.inj begins').1.symm notAt
      | cons d u =>
          obtain rfl : d = c := (List.cons.inj begins').1
          refine stops_of_hostParts (clean_of_append whole) (free _ behind text first ?_ ?_)
          · simp
          · simpa using notColon

/-- A user is read up to the at sign of the authority, and behind it the host and the port. -/
theorem readable_named {user : Bytes} (readable : Readable p)
    (valid : Enclosed p.host ∨ ∀ c ∈ p.host, Plain c)
    (whole : p.frontText ++ p.tailText = authority url ++ behindAuthority url)
    (fits : clean (behindAuthority url) = true)
    (named : authority url = user ++ 64 :: s) (free : 64 ∉ user) (hostPort : HostAndPort s) :
    ∃ q : Parts, Readable q ∧ q.protocol = p.protocol ∧ q.frontText = authority url ∧
      q.tailText = behindAuthority url := by
  obtain ⟨host, port, rfl, shape, digits⟩ := hostPort
  obtain ⟨c, t, begins, char⟩ := readable.userChar_head valid
  obtain ⟨notColon, notAt⟩ := userChar_iff.1 char
  have begins' : user ++ 64 :: (host ++ marked 58 port ++ behindAuthority url) = c :: t := by
    rw [← begins, whole, named, List.append_assoc user, List.cons_append]
  have some_user : user ≠ [] := by
    rintro rfl
    exact notAt (List.cons.inj begins').1.symm
  have head : user.head? ≠ some 58 := by
    cases user with
    | nil => simp
    | cons d u => simpa [(List.cons.inj begins').1] using notColon
  obtain ⟨⟨name, password⟩, userRead⟩ : ∃ found, userSplit (user ++ [64]) = some (found, []) :=
    userSplit_isSome_iff.2 ⟨user, rfl, free, some_user, head⟩
  have inside : ∀ c ∈ host, authorityChar c = true := by
    intro c member
    exact authority_chars url c (by simp [named, member])
  have chars : ∀ name' password', some (name, password) = some (name', password') → name' ≠ [] ∧
      (∀ c ∈ name', userChar c = true) ∧
        ∀ t, password' = some t → ∀ c ∈ t, passwordChar c = true := by
    rintro name' password' same
    cases same
    exact userSplit_chars userRead
  obtain ⟨q, readable', protocol, user', host', port', tail⟩ := readable_hostAndPort
    (some (name, password)) shape inside digits (stops_behindAuthority url) fits readable chars
    (by simp)
  refine ⟨q, readable', protocol, ?_, tail⟩
  have text : user ++ [64] = userText (some (name, password)) :=
    (userSplit_append userRead).trans (List.append_nil _)
  rw [Parts.frontText, user', host', port', ← text, named]
  simp

/-- Where behind the first at sign no host begins, the authority is the host and the port. -/
theorem readable_unnamed (readable : Readable p) (fits : clean (behindAuthority url) = true)
    (hostPort : HostAndPort (authority url))
    (blocked : ∀ front behind, behindProtocol url = front ++ 64 :: behind → 64 ∉ front →
      behind.takeWhile hostChar = []) :
    ∃ q : Parts, Readable q ∧ q.protocol = p.protocol ∧ q.frontText = authority url ∧
      q.tailText = behindAuthority url := by
  obtain ⟨host, port, unnamed, shape, digits⟩ := hostPort
  have inside : ∀ c ∈ host, authorityChar c = true := by
    intro c member
    exact authority_chars url c (by simp [unnamed, member])
  have userFree : UserFree (host ++ (marked 58 port ++ behindAuthority url)) := by
    rw [← List.append_assoc, ← unnamed, authority_append]
    refine userFree_iff.2 fun front behind same first _ _ => ?_
    exact hostParts_of_stops (stops_iff_takeWhile.2 (blocked front behind same first))
  obtain ⟨q, readable', protocol, user, host', port', tail⟩ := readable_hostAndPort none shape
    inside digits (stops_behindAuthority url) fits readable (by simp) fun _ => userFree
  refine ⟨q, readable', protocol, ?_, tail⟩
  rw [Parts.frontText, user, host', port', unnamed]
  rfl

/-- **An authority that fits**: then the parts are read where they belong. -/
theorem read_of_authorityFits (read : split url = some p)
    (valid : Enclosed p.host ∨ ∀ c ∈ p.host, Plain c) (fits : AuthorityFits url) :
    p.frontText = authority url ∧ p.tailText = behindAuthority url := by
  obtain ⟨text, readable⟩ := split_eq_some_iff.1 read
  have whole : p.frontText ++ p.tailText = authority url ++ behindAuthority url := by
    rw [authority_append, behindProtocol_of_split read]
  obtain ⟨q, readable', protocol, front, tail⟩ : ∃ q : Parts, Readable q ∧
      q.protocol = p.protocol ∧ q.frontText = authority url ∧ q.tailText = behindAuthority url := by
    obtain ⟨clean, ⟨user, hostPort, named, free, fits⟩ | ⟨fits, blocked⟩⟩ := fits
    · exact readable_named readable valid whole clean named free fits
    · exact readable_unnamed readable clean fits blocked
  -- these parts make up the text, so they are the ones that were read
  have text' : q.text = p.text := by
    rw [text_eq, text_eq, protocol, whole, front, tail]
  obtain rfl := Option.some.inj
    (read.symm.trans (split_eq_some_iff.2 ⟨text'.trans text, readable'⟩))
  exact ⟨front, tail⟩

/-- The authority alone is read as it is in front of its tail. -/
theorem split_authority (read : split url = some p)
    (valid : Enclosed p.host ∨ ∀ c ∈ p.host, Plain c) (fits : AuthorityFits url) :
    ∃ q, split (p.protocol ++ [58, 47, 47] ++ authority url) = some q ∧ q.protocol = p.protocol ∧
      q.user = p.user ∧ q.host = p.host ∧ q.port = p.port := by
  obtain ⟨-, readable⟩ := split_eq_some_iff.1 read
  obtain ⟨front, tail⟩ := read_of_authorityFits read valid fits
  have inside : ∀ c ∈ p.host, authorityChar c = true := by
    intro c member
    exact authority_chars url c (by simp [← front, Parts.frontText, member])
  have digits : ∀ t, p.port = some t → t ≠ [] ∧ ∀ c ∈ t, isdigit c = true := by
    intro t written
    obtain ⟨some_digits, chars, -⟩ := readable.port_digits written
    exact ⟨some_digits, chars⟩
  have userFree : p.user = none → UserFree (p.host ++ (marked 58 p.port ++ [])) := by
    intro nobody
    have free := userFree_iff.1 (readable.unnamed nobody)
    refine userFree_iff.2 fun a rest same first some_a head => ?_
    have whole : p.hostText = a ++ 64 :: (rest ++ p.tailText) := by
      rw [List.append_nil] at same
      rw [Parts.hostText, same, List.append_assoc, List.cons_append]
    have all : clean (a ++ [64] ++ (rest ++ p.tailText)) = true := by
      have authorityText : a ++ [64] ++ rest = authority url := by
        rw [List.append_nil] at same
        rw [← front, Parts.frontText, nobody, userText, List.nil_append, same]
        simp
      rw [← List.append_assoc, authorityText, clean_append_of_authority (authority_chars url)]
      exact readable.clean_tail
    have stops := stops_of_hostParts (clean_of_append all) (free a _ whole first some_a head)
    refine hostParts_of_stops ?_
    by_cases empty : rest = []
    · exact .inl empty
    · exact stops.append_left empty
  obtain ⟨q, readable', protocol, user, host, port, behind⟩ := readable_hostAndPort p.user
    (readable.hostShape valid) inside digits (.inl rfl) rfl readable readable.named userFree
  refine ⟨q, split_eq_some_iff.2 ⟨?_, readable'⟩, protocol, user, host, port⟩
  rw [text_eq, Parts.frontText, protocol, user, host, port, behind, ← front, Parts.frontText,
    List.append_nil]

/-- **No character behind the authority counts**: where both fit, two texts with one protocol and
one authority have the same user, password, host and port. -/
theorem authority_decides {inet_pton : InetPton} {x y v w : UrlObject} {url' : Bytes}
    (read : parse inet_pton x url = some (true, v)) (read' : parse inet_pton y url' = some (true, w))
    (fits : AuthorityFits url) (fits' : AuthorityFits url') (protocol : v.protocol = w.protocol)
    (same : authority url = authority url') :
    v.username = w.username ∧ v.password = w.password ∧ v.host = w.host ∧ v.port = w.port := by
  obtain ⟨p, splits, -, valid, rfl⟩ := parse_eq_true_iff.1 read
  obtain ⟨p', splits', -, valid', rfl⟩ := parse_eq_true_iff.1 read'
  obtain ⟨q, alone, -, user, host, port⟩ := split_authority splits (validate_host valid) fits
  obtain ⟨q', alone', -, user', host', port'⟩ :=
    split_authority splits' (validate_host valid') fits'
  have protocol : p.protocol = p'.protocol := protocol
  rw [protocol, same, alone'] at alone
  obtain rfl := Option.some.inj alone
  rw [user'] at user
  rw [port'] at port
  refine ⟨?_, ?_, host.symm.trans host', ?_⟩
  · simp only [Parts.object, Parts.username, user]
  · simp only [Parts.object, Parts.password, user]
  · simp only [Parts.object, Parts.portNumber, port, protocol]

/-- **From which part of the text the parts are read**: from the authority what belongs there, and
the others from behind it, exactly when the authority fits. -/
theorem readFromAuthority_iff {inet_pton : InetPton} {x v : UrlObject}
    (read : parse inet_pton x url = some (true, v)) :
    ReadFromAuthority url v ↔ AuthorityFits url := by
  obtain ⟨p, splits, -, valid, rfl⟩ := parse_eq_true_iff.1 read
  have valid := validate_host valid
  have whole : p.frontText ++ p.tailText = authority url ++ behindAuthority url := by
    rw [authority_append, behindProtocol_of_split splits]
  constructor
  · rintro ⟨q, splits', -, front, tail⟩
    obtain rfl := Option.some.inj (splits.symm.trans splits')
    obtain ⟨front, tail⟩ := cut_eq whole front tail
    exact authorityFits_of_read splits valid front tail
  · intro fits
    obtain ⟨front, tail⟩ := read_of_authorityFits splits valid fits
    exact ⟨p, splits, rfl, front ▸ List.prefix_rfl, tail ▸ List.suffix_rfl⟩

/-- The authority of `http://a:8080/b` is a host and a port. -/
theorem portedUrl_readFromAuthority : ReadFromAuthority portedUrl portedObject := by
  have read : parse (fun _ => false) {} portedUrl = some (true, portedObject) := by decide
  refine (readFromAuthority_iff read).2 ⟨by decide, .inr ⟨⟨[97], some [56, 48, 56, 48], by decide,
    .inr ⟨by decide, by decide, by decide⟩, ?_⟩, ?_⟩⟩
  · rintro digits ⟨⟩
    exact ⟨by simp, List.all_eq_true.1 rfl⟩
  · intro front behind same _
    have member : 64 ∈ behindProtocol portedUrl := same ▸ by simp
    exact absurd member (by decide)

/-- `http://a/@b/` -/
def crossedUrl : Bytes := [104, 116, 116, 112, 58, 47, 47, 97, 47, 64, 98, 47]

/-- The object of `crossedUrl`: the user is `a/` and the host `b`. -/
def crossedObject : UrlObject :=
  { valid := true, protocol := [104, 116, 116, 112], username := [97, 47], host := [98], port := 80,
    path := [47] }

/-- Behind the authority `a` stands an at sign, and behind that the host. -/
theorem crossedUrl_notRead : authority crossedUrl = [97] ∧
    parse (fun _ => false) {} crossedUrl = some (true, crossedObject) ∧
    ¬ ReadFromAuthority crossedUrl crossedObject := by
  refine ⟨by decide, by decide, ?_⟩
  rintro ⟨p, splits, -, front, -⟩
  have parts : split crossedUrl = some
      { protocol := [104, 116, 116, 112], user := some ([97, 47], none), host := [98], port := none,
        path := [47], query := none, fragment := none } := by decide
  obtain rfl := Option.some.inj (parts.symm.trans splits)
  exact absurd front.length_le (by decide)

end ChargerStack.Ocpp.Url
