/-
# Ocpp.UrlPattern -- how the pattern of ocpp/tool/url/Url.cpp reads a text

`Url::parse` matches one pattern of eight groups.  `split` reads a text in the same way from
left to right, with no search but one: a user is read up to the first at sign, and if what
stands behind it cannot begin with a host, the text is read again as one without a user.

* `regexMatch_urlRegex`: the match is `split`.
* `text_of_split`: the parts put together are the text.

Bytes are written as numbers: 35 is `#`, 45 `-`, 46 `.`, 47 `/`, 58 `:`, 63 `?`, 64 `@`,
91 `[` and 93 `]`.
-/
import ChargerStack.Lib.Regex
import ChargerStack.Ocpp.Url

namespace ChargerStack.Ocpp.Url

set_option autoImplicit false

open ChargerStack.Lib
open ChargerStack.Lib.Regex

abbrev Bytes := List UInt8

/-! ## The pattern -/

/-- `\d`. -/
def isdigit (c : UInt8) : Bool := decide (48 ≤ c ∧ c ≤ 57)

/-- `[a-zA-Z]`. -/
def isalpha (c : UInt8) : Bool := decide (65 ≤ c ∧ c ≤ 90) || decide (97 ≤ c ∧ c ≤ 122)

/-- `[a-zA-Z0-9+\-.]`. -/
def schemeChar (c : UInt8) : Bool := isalnum c || c == 43 || c == 45 || c == 46

/-- `[^:@]`. -/
def userChar (c : UInt8) : Bool := c != 58 && c != 64

/-- `[^@]`. -/
def passwordChar (c : UInt8) : Bool := c != 64

/-- `[^\]]`. -/
def addressChar (c : UInt8) : Bool := c != 93

/-- `[^:/?#]`. -/
def hostChar (c : UInt8) : Bool := c != 58 && c != 47 && c != 63 && c != 35

/-- `[^?#]`. -/
def pathChar (c : UInt8) : Bool := c != 63 && c != 35

/-- `[^#]`. -/
def queryChar (c : UInt8) : Bool := c != 35

/-- `.`, which does not match the ends of lines. -/
def fragmentChar (c : UInt8) : Bool := c != 10 && c != 13

/-- `([a-zA-Z][a-zA-Z0-9+\-.]*)://` -/
def protocolRegex : Regex UInt8 :=
  (group 1 ((chars isalpha).seq (star (chars schemeChar)))).seq (literal [58, 47, 47])

/-- `(?:([^:@]+)(?::([^@]*))?@)?` -/
def userRegex : Regex UInt8 :=
  opt ((group 2 (plus (chars userChar))).seq
    ((opt ((char 58).seq (group 3 (star (chars passwordChar))))).seq (char 64)))

/-- `(\[[^\]]+\]|[^:/?#]+)` -/
def hostRegex : Regex UInt8 :=
  group 4 (alt ((char 91).seq ((plus (chars addressChar)).seq (char 93))) (plus (chars hostChar)))

/-- `(?::(\d+))?` -/
def portRegex : Regex UInt8 := opt ((char 58).seq (group 5 (plus (chars isdigit))))

/-- `([^?#]*)` -/
def pathRegex : Regex UInt8 := group 6 (star (chars pathChar))

/-- `(?:\?([^#]*))?` -/
def queryRegex : Regex UInt8 := opt ((char 63).seq (group 7 (star (chars queryChar))))

/-- `(?:#(.*))?` -/
def fragmentRegex : Regex UInt8 := opt ((char 35).seq (group 8 (star (chars fragmentChar))))

/-- The pattern.  Its `^` and `$` say nothing more where the whole text has to match. -/
def urlRegex : Regex UInt8 :=
  protocolRegex.seq (userRegex.seq (hostRegex.seq (portRegex.seq (pathRegex.seq
    (queryRegex.seq fragmentRegex)))))

/-! ## The parts of a text -/

/-- The parts of a text, as it is written: a part that has a mark of its own may be left out. -/
structure Parts where
  protocol : Bytes := []
  user : Option (Bytes × Option Bytes) := none
  host : Bytes
  port : Option Bytes
  path : Bytes
  query : Option Bytes
  fragment : Option Bytes
  deriving DecidableEq, Repr

/-- A part that may be left out, behind its mark. -/
def marked (mark : UInt8) : Option Bytes → Bytes
  | none => []
  | some t => mark :: t

/-- The user and the password, up to the at sign. -/
def userText : Option (Bytes × Option Bytes) → Bytes
  | none => []
  | some (name, password) => name ++ marked 58 password ++ [64]

namespace Parts

/-- What stands behind the host and the port. -/
def tailText (p : Parts) : Bytes := p.path ++ marked 63 p.query ++ marked 35 p.fragment

def hostText (p : Parts) : Bytes := p.host ++ marked 58 p.port ++ p.tailText

def text (p : Parts) : Bytes := p.protocol ++ [58, 47, 47] ++ userText p.user ++ p.hostText

end Parts

/-- From the first `#` on there is no end of a line. -/
def clean (s : Bytes) : Bool := (s.dropWhile queryChar).all fragmentChar

def pathOf (s : Bytes) : Bytes := s.takeWhile pathChar

def queryOf (s : Bytes) : Option Bytes :=
  match s.dropWhile pathChar with
  | 63 :: t => some (t.takeWhile queryChar)
  | _ => none

def fragmentOf (s : Bytes) : Option Bytes :=
  match s.dropWhile queryChar with
  | _ :: t => some t
  | [] => none

/-- The port, if there is one, and what stands behind it. -/
def portSplit : Bytes → Option Bytes × Bytes
  | 58 :: t => if t.takeWhile isdigit = [] then (none, 58 :: t)
      else (some (t.takeWhile isdigit), t.dropWhile isdigit)
  | s => (none, s)

/-- An address in brackets, and what stands behind it. -/
def bracketSplit : Bytes → Option (Bytes × Bytes)
  | 91 :: t =>
      if t.takeWhile addressChar = [] then none
      else match t.dropWhile addressChar with
        | 93 :: rest => some (91 :: t.takeWhile addressChar ++ [93], rest)
        | _ => none
  | _ => none

/-- The host, and what stands behind it. -/
def hostSplit (s : Bytes) : Option (Bytes × Bytes) :=
  (bracketSplit s).or
    (if s.takeWhile hostChar = [] then none else some (s.takeWhile hostChar, s.dropWhile hostChar))

/-- The parts of what stands behind the host. -/
def partsBehind (host rest : Bytes) : Parts where
  host := host
  port := (portSplit rest).1
  path := pathOf (portSplit rest).2
  query := queryOf (portSplit rest).2
  fragment := fragmentOf (portSplit rest).2

/-- The parts from the host on. -/
def hostParts (s : Bytes) : Option Parts :=
  (hostSplit s).bind fun (host, rest) => if clean rest then some (partsBehind host rest) else none

/-- A user, with a password or without, and what stands behind the at sign. -/
def userSplit (s : Bytes) : Option ((Bytes × Option Bytes) × Bytes) :=
  if s.takeWhile userChar = [] then none
  else match s.dropWhile userChar with
    | 64 :: rest => some ((s.takeWhile userChar, none), rest)
    | 58 :: t =>
        match t.dropWhile passwordChar with
        | 64 :: rest => some ((s.takeWhile userChar, some (t.takeWhile passwordChar)), rest)
        | _ => none
    | _ => none

/-- The parts behind the protocol: with a user where the rest can then begin with a host. -/
def authorityParts (s : Bytes) : Option Parts :=
  ((userSplit s).bind fun (user, rest) =>
    (hostParts rest).map fun p => { p with user := some user }).or (hostParts s)

/-- The protocol, and what stands behind its slashes. -/
def protocolSplit : Bytes → Option (Bytes × Bytes)
  | c :: t =>
      if isalpha c then
        match t.dropWhile schemeChar with
        | 58 :: 47 :: 47 :: rest => some (c :: t.takeWhile schemeChar, rest)
        | _ => none
      else none
  | [] => none

/-- The parts of a text. -/
def split (s : Bytes) : Option Parts :=
  (protocolSplit s).bind fun (protocol, rest) =>
    (authorityParts rest).map fun p => { p with protocol := protocol }

/-! ## The match -/

/-- A group that took part or not. -/
def log (n : Nat) : Option Bytes → Captures UInt8
  | none => []
  | some t => [(n, t)]

def userCaptures : Option (Bytes × Option Bytes) → Captures UInt8
  | none => []
  | some (name, password) => log 3 password ++ [(2, name)]

namespace Parts

def hostCaptures (p : Parts) : Captures UInt8 :=
  log 8 p.fragment ++ log 7 p.query ++ [(6, p.path)] ++ log 5 p.port ++ [(4, p.host)]

/-- The groups of the pattern. -/
def captures (p : Parts) : Captures UInt8 :=
  p.hostCaptures ++ userCaptures p.user ++ [(1, p.protocol)]

end Parts

variable {s t : Bytes} {g : Captures UInt8} {c : UInt8}

theorem dropWhile_of_imp {p q : UInt8 → Bool} (wider : ∀ c, p c = true → q c = true)
    (s : Bytes) : (s.dropWhile p).dropWhile q = s.dropWhile q := by
  induction s with
  | nil => rfl
  | cons c s ih =>
      cases inside : p c with
      | true =>
          rw [List.dropWhile_cons_of_pos inside, List.dropWhile_cons_of_pos (wider c inside), ih]
      | false => rw [List.dropWhile_cons_of_neg (by simp [inside])]

/-- A dropped text is over, or goes on with a character outside the class. -/
theorem dropWhile_cases (p : UInt8 → Bool) (s : Bytes) :
    s.dropWhile p = [] ∨ ∃ c t, s.dropWhile p = c :: t ∧ p c = false := by
  cases left : s.dropWhile p with
  | nil => exact .inl rfl
  | cons c t =>
      refine .inr ⟨c, t, rfl, ?_⟩
      have head := List.head_dropWhile_not p (by simp [left] : s.dropWhile p ≠ [])
      simpa [left] using head

theorem run_fragment : run fragmentRegex s g finish =
    match s with
    | [] => some g
    | c :: t => if c = 35 ∧ t.all fragmentChar = true then some ((8, t) :: g) else none := by
  cases s with
  | nil => rfl
  | cons c t =>
      have unread : finish (c :: t) g = none := rfl
      rw [fragmentRegex, run_opt, run_seq, run_char_cons, unread, Option.or_none,
        run_group_star (spares_of_stuck fun c s g _ => rfl)]
      by_cases mark : c = 35
      · by_cases whole : t.all fragmentChar = true
        · have none_left : t.dropWhile fragmentChar = [] := by
            simpa using whole
          have all_taken : t.takeWhile fragmentChar = t := by
            simpa using whole
          simp [mark, whole, none_left, all_taken, finish]
        · have some_left : t.dropWhile fragmentChar ≠ [] := by
            simpa using whole
          simp [mark, whole, some_left, finish]
      · simp [mark]

theorem fragment_stuck (other : c ≠ 35) : run fragmentRegex (c :: t) g finish = none := by
  rw [run_fragment]
  simp [other]

/-- From a `#` or the end on. -/
theorem run_fragment_dropWhile (s : Bytes) : run fragmentRegex (s.dropWhile queryChar) g finish =
    if clean s then some (log 8 (fragmentOf s) ++ g) else none := by
  rw [run_fragment]
  unfold clean fragmentOf
  rcases dropWhile_cases queryChar s with left | ⟨c, t, left, other⟩
  · rw [left]
    rfl
  · obtain rfl : c = 35 := by simpa [queryChar] using other
    rw [left]
    simp [fragmentChar, log]

theorem run_query : (run queryRegex s g fun s g => run fragmentRegex s g finish) =
    match s with
    | 63 :: t => run fragmentRegex (t.dropWhile queryChar) ((7, t.takeWhile queryChar) :: g) finish
    | s => run fragmentRegex s g finish := by
  have stuck : Spares queryChar fun s g => run fragmentRegex s g finish :=
    spares_of_stuck fun c s g inside => fragment_stuck (by simpa [queryChar] using inside)
  rw [queryRegex, run_opt, run_seq]
  cases s with
  | nil => rfl
  | cons c t =>
      rw [run_char_cons, run_group_star stuck]
      split
      · next mark =>
          subst mark
          rw [fragment_stuck (by decide), Option.or_none]
          rfl
      · next other =>
          rw [Option.none_or]
          split
          · next same => exact absurd (List.cons.inj same).1 other
          · rfl

theorem query_stuck (inside : pathChar c = true) :
    (run queryRegex (c :: t) g fun s g => run fragmentRegex s g finish) = none := by
  simp only [pathChar, Bool.and_eq_true, bne_iff_ne] at inside
  rw [run_query]
  split
  · next same => exact absurd (List.cons.inj same).1 inside.1
  · exact fragment_stuck inside.2

/-- Behind the port. -/
theorem run_tail : run (pathRegex.seq (queryRegex.seq fragmentRegex)) s g finish =
    if clean s then
      some (log 8 (fragmentOf s) ++ (log 7 (queryOf s) ++ ((6, pathOf s) :: g)))
    else none := by
  have past : (s.dropWhile pathChar).dropWhile queryChar = s.dropWhile queryChar :=
    dropWhile_of_imp (by simp [pathChar, queryChar]) s
  simp only [run_seq]
  rw [pathRegex, run_group_star (spares_of_stuck fun c s g => query_stuck), run_query]
  split
  · next t left =>
      have written : queryOf s = some (t.takeWhile queryChar) := by
        rw [queryOf, left]
        rfl
      have skipped : t.dropWhile queryChar = s.dropWhile queryChar := by
        rw [← past, left]
        rfl
      rw [skipped, run_fragment_dropWhile, written]
      rfl
  · next other =>
      have unwritten : queryOf s = none := by
        unfold queryOf
        split
        · next left => exact absurd left (other _)
        · rfl
      have same : s.dropWhile pathChar = s.dropWhile queryChar := by
        rcases dropWhile_cases pathChar s with left | ⟨c, t, left, outside⟩
        · rw [← past, left]
          rfl
        · have mark : c = 35 := by
            by_contra away
            refine other t ?_
            have : c = 63 := by simpa [pathChar, away] using outside
            rw [left, this]
          rw [← past, left, mark]
          rfl
      rw [same, run_fragment_dropWhile, unwritten]
      rfl

theorem clean_cons (other : c ≠ 35) : clean (c :: t) = clean t := by
  unfold clean
  rw [List.dropWhile_cons_of_pos (by simpa [queryChar] using other)]

/-- What stands at the end of a text without ends of lines behind a `#` is such a text. -/
theorem clean_of_append {a b : Bytes} (whole : clean (a ++ b) = true) : clean b = true := by
  induction a with
  | nil => exact whole
  | cons c a ih =>
      by_cases mark : c = 35
      · subst mark
        have all : ((35 :: a) ++ b).all fragmentChar = true := whole
        rw [List.all_append, Bool.and_eq_true] at all
        refine List.all_eq_true.2 fun d member => List.all_eq_true.1 all.2 d ?_
        exact (List.dropWhile_suffix queryChar).mem member
      · rw [List.cons_append, clean_cons mark] at whole
        exact ih whole

theorem clean_dropWhile {p : UInt8 → Bool} (narrower : ∀ c, p c = true → queryChar c = true)
    (s : Bytes) : clean (s.dropWhile p) = clean s := by
  rw [clean, dropWhile_of_imp narrower]
  rfl

/-- A digit is no other character. -/
theorem ne_of_isdigit {c d : UInt8} (digit : isdigit c = true) (other : isdigit d = false) :
    c ≠ d := by
  rintro rfl
  rw [digit] at other
  cases other

theorem queryChar_of_isdigit {c : UInt8} (digit : isdigit c = true) : queryChar c = true := by
  simpa [queryChar] using ne_of_isdigit digit rfl

theorem queryChar_of_hostChar {c : UInt8} (inside : hostChar c = true) : queryChar c = true := by
  simp only [hostChar, Bool.and_eq_true] at inside
  exact inside.2

theorem portSplit_of_head (other : s.head? ≠ some 58) : portSplit s = (none, s) := by
  unfold portSplit
  split
  · exact absurd rfl other
  · rfl

theorem portSplit_clean (s : Bytes) : clean (portSplit s).2 = clean s := by
  unfold portSplit
  split
  · next t =>
      split
      · rfl
      · rw [clean_dropWhile fun c => queryChar_of_isdigit, clean_cons (by decide)]
  · rfl

theorem tail_spares {p : UInt8 → Bool} (narrower : ∀ c, p c = true → queryChar c = true) :
    Spares p fun s g => run (pathRegex.seq (queryRegex.seq fragmentRegex)) s g finish := by
  intro c s g g' inside failed
  have other : c ≠ 35 := by simpa [queryChar] using narrower c inside
  simp only [run_tail] at failed ⊢
  rw [clean_cons other]
  split at failed
  · cases failed
  · next unclean => rw [if_neg unclean]

/-- Behind the host. -/
theorem run_behind {host : Bytes} :
    run (portRegex.seq (pathRegex.seq (queryRegex.seq fragmentRegex))) s ((4, host) :: g) finish =
      if clean s then some ((partsBehind host s).hostCaptures ++ g) else none := by
  have spares := tail_spares fun c => queryChar_of_isdigit (c := c)
  have same := portSplit_clean s
  rw [run_seq, portRegex, run_opt, run_seq]
  cases s with
  | nil => rfl
  | cons c t =>
      by_cases mark : c = 58
      · subst mark
        rw [run_char_cons, if_pos rfl, run_group_plus spares, run_tail, run_tail,
          clean_dropWhile fun c => queryChar_of_isdigit, clean_cons (by decide)]
        simp only [Parts.hostCaptures, partsBehind, portSplit]
        split
        · split <;> simp [log]
        · split <;> simp [log]
      · have unread : portSplit (c :: t) = (none, c :: t) :=
          portSplit_of_head (by simpa using mark)
        rw [run_char_cons, if_neg mark, Option.none_or, run_tail]
        simp [Parts.hostCaptures, partsBehind, unread, log]

/-! ### The host -/

theorem bracketSplit_append {h rest : Bytes} (read : bracketSplit s = some (h, rest)) :
    s = h ++ rest := by
  unfold bracketSplit at read
  split at read
  · next t =>
      split at read
      · cases read
      · split at read
        · next rest' left =>
            cases read
            have whole := List.takeWhile_append_dropWhile (p := addressChar) (l := t)
            rw [left] at whole
            rw [List.append_assoc, List.cons_append, List.singleton_append, whole]
        · cases read
  · cases read

theorem run_bracket {k : Bytes → Captures UInt8 → Option (Captures UInt8)} :
    run ((char 91).seq ((plus (chars addressChar)).seq (char 93))) s g k =
      (bracketSplit s).bind fun read => k read.2 g := by
  have stuck : Spares addressChar fun s g => run (char 93) s g k := by
    refine spares_of_stuck fun c s g inside => ?_
    rw [run_char_cons, if_neg (by simpa [addressChar] using inside)]
  rw [run_seq]
  cases s with
  | nil => rfl
  | cons c t =>
      by_cases mark : c = 91
      · subst mark
        rw [run_char_cons, if_pos rfl, run_seq, run_plus_chars stuck]
        simp only [bracketSplit]
        split
        · rfl
        · rcases dropWhile_cases addressChar t with left | ⟨c, rest, left, outside⟩
          · rw [left]
            rfl
          · obtain rfl : c = 93 := by simpa [addressChar] using outside
            rw [left]
            rfl
      · rw [run_char_cons, if_neg mark]
        unfold bracketSplit
        split
        · next same => exact absurd (List.cons.inj same).1 mark
        · rfl

theorem hostSplit_append {h rest : Bytes} (read : hostSplit s = some (h, rest)) :
    s = h ++ rest := by
  rw [hostSplit, Option.or_eq_some_iff] at read
  rcases read with bracket | ⟨-, plain⟩
  · exact bracketSplit_append bracket
  · split at plain
    · cases plain
    · cases plain
      exact List.takeWhile_append_dropWhile.symm

/-- From the host on.  Where no tail fits behind an address in brackets, none fits behind the
shorter host of the other alternative: the end of a line that is in the way is in both tails. -/
theorem run_host :
    run (hostRegex.seq (portRegex.seq (pathRegex.seq (queryRegex.seq fragmentRegex)))) s g finish =
      (hostParts s).map fun p => p.hostCaptures ++ g := by
  have spares : Spares hostChar fun rest g =>
      run (portRegex.seq (pathRegex.seq (queryRegex.seq fragmentRegex))) rest
        ((4, s.take (s.length - rest.length)) :: g) finish := by
    intro c rest g g' inside failed
    simp only [run_behind] at failed ⊢
    have other : c ≠ 35 := by simpa [queryChar] using queryChar_of_hostChar inside
    rw [clean_cons other]
    split at failed
    · cases failed
    · next unclean => rw [if_neg unclean]
  rw [run_seq, hostRegex, run_group, run_alt, run_bracket, run_plus_chars spares, run_behind,
    take_sub_dropWhile, clean_dropWhile fun c => queryChar_of_hostChar, hostParts, hostSplit]
  cases read : bracketSplit s with
  | none =>
      rw [Option.bind_none, Option.none_or, Option.none_or]
      by_cases empty : s.takeWhile hostChar = []
      · rw [if_pos empty, if_pos empty]
        rfl
      · rw [if_neg empty, if_neg empty]
        simp only [Option.bind_some, clean_dropWhile fun c => queryChar_of_hostChar (c := c)]
        split <;> rfl
  | some read' =>
      obtain ⟨h, rest⟩ := read'
      have whole := bracketSplit_append read
      have taken : s.take (s.length - rest.length) = h := by
        rw [whole, List.length_append, Nat.add_sub_cancel, List.take_left]
      rw [Option.bind_some, Option.some_or, Option.bind_some, taken, run_behind]
      by_cases fits : clean rest = true
      · simp [fits]
      · have unclean : ¬ clean s = true := fun all => fits (clean_of_append (whole ▸ all))
        simp [fits, unclean]

/-! ### The user and the protocol -/

theorem userSplit_append {user : Bytes × Option Bytes} {rest : Bytes}
    (read : userSplit s = some (user, rest)) : s = userText (some user) ++ rest := by
  have whole := List.takeWhile_append_dropWhile (p := userChar) (l := s)
  unfold userSplit at read
  split at read
  · cases read
  · split at read
    · next left =>
        cases read
        rw [left] at whole
        simpa [userText, marked] using whole.symm
    · next t left =>
        have inner := List.takeWhile_append_dropWhile (p := passwordChar) (l := t)
        split at read
        · next left' =>
            cases read
            rw [left'] at inner
            rw [left, ← inner] at whole
            simpa [userText, marked] using whole.symm
        · cases read
    · cases read

/-- A user, and the rest of the pattern `k` behind the at sign. -/
theorem run_user {k : Bytes → Captures UInt8 → Option (Captures UInt8)} :
    run userRegex s g k =
      ((userSplit s).bind fun read => k read.2 (userCaptures (some read.1) ++ g)).or (k s g) := by
  have stuck : Spares passwordChar fun s g => run (char 64) s g k := by
    refine spares_of_stuck fun c s g inside => ?_
    rw [run_char_cons, if_neg (by simpa [passwordChar] using inside)]
  have spares : Spares userChar fun s g =>
      run ((opt ((char 58).seq (group 3 (star (chars passwordChar))))).seq (char 64)) s g k := by
    refine spares_of_stuck fun c s g inside => ?_
    simp only [userChar, Bool.and_eq_true, bne_iff_ne] at inside
    rw [run_seq, run_opt, run_seq, run_char_cons, if_neg inside.1, run_char_cons,
      if_neg inside.2]
    rfl
  rw [userRegex, run_opt, run_seq, run_group_plus spares]
  congr 1
  unfold userSplit
  split
  · rfl
  · rcases dropWhile_cases userChar s with left | ⟨c, t, left, outside⟩
    · rw [left]
      rfl
    · rw [left, run_seq, run_opt, run_seq, run_char_cons, run_group_star stuck, run_char_cons]
      by_cases mark : c = 64
      · subst mark
        simp [userCaptures, log]
      · obtain rfl : c = 58 := by simpa [userChar, mark] using outside
        rcases dropWhile_cases passwordChar t with left' | ⟨c, rest, left', outside'⟩
        · simp [left']
        · obtain rfl : c = 64 := by simpa [passwordChar] using outside'
          simp [left', userCaptures, log]

theorem protocolSplit_append {protocol rest : Bytes}
    (read : protocolSplit s = some (protocol, rest)) : s = protocol ++ [58, 47, 47] ++ rest := by
  unfold protocolSplit at read
  split at read
  · next c t =>
      split at read
      · split at read
        · next left =>
            cases read
            have whole := List.takeWhile_append_dropWhile (p := schemeChar) (l := t)
            rw [left] at whole
            simpa using whole.symm
        · cases read
      · cases read
  · cases read

theorem run_slashes {k : Bytes → Captures UInt8 → Option (Captures UInt8)} :
    run (literal [58, 47, 47]) s g k =
      match s with
      | 58 :: 47 :: 47 :: rest => k rest g
      | _ => none := by
  simp only [literal, List.foldr_cons, List.foldr_nil]
  split
  · rfl
  · next other =>
      rcases s with - | ⟨c, - | ⟨d, - | ⟨e, rest⟩⟩⟩
      · rfl
      · simp
      · simp
      · rw [run_seq, run_char_cons, run_seq, run_char_cons, run_seq, run_char_cons]
        by_cases slashes : c = 58 ∧ d = 47 ∧ e = 47
        · obtain ⟨rfl, rfl, rfl⟩ := slashes
          exact absurd rfl (other rest)
        · simp only [run_eps]
          split
          · split
            · split
              · simp_all
              · rfl
            · rfl
          · rfl

theorem run_protocol {k : Bytes → Captures UInt8 → Option (Captures UInt8)} :
    run protocolRegex s g k =
      (protocolSplit s).bind fun read => k read.2 ((1, read.1) :: g) := by
  rw [protocolRegex, run_seq, run_group, run_seq]
  cases s with
  | nil => rfl
  | cons c t =>
      have spares : Spares schemeChar fun rest g =>
          run (literal [58, 47, 47]) rest
            ((1, (c :: t).take ((c :: t).length - rest.length)) :: g) k := by
        refine spares_of_stuck fun d rest g inside => ?_
        rw [run_slashes]
        split
        · next same =>
            cases same
            cases inside
        · rfl
      have taken : (c :: t).take ((c :: t).length - (t.dropWhile schemeChar).length) =
          c :: t.takeWhile schemeChar := by
        have whole : c :: t = (c :: t.takeWhile schemeChar) ++ t.dropWhile schemeChar := by
          rw [List.cons_append, List.takeWhile_append_dropWhile]
        conv_lhs => rw [whole]
        rw [List.length_append, Nat.add_sub_cancel, List.take_left]
      rw [run_chars_cons, run_star_chars spares, taken, run_slashes, protocolSplit]
      split
      · split
        · next left => rw [left]; rfl
        · next other =>
            split
            · next left => exact absurd left (other _)
            · rfl
      · rfl

/-- What is read from the host on. -/
theorem hostParts_eq_some {p : Parts} (read : hostParts s = some p) : ∃ host rest,
    hostSplit s = some (host, rest) ∧ clean rest = true ∧ p = partsBehind host rest := by
  rw [hostParts, Option.bind_eq_some_iff] at read
  obtain ⟨⟨host, rest⟩, split, read⟩ := read
  dsimp only at read
  split at read
  · next fits => exact ⟨host, rest, split, fits, (Option.some.inj read).symm⟩
  · cases read

/-- **The pattern reads a text as `split` does.** -/
theorem regexMatch_urlRegex (s : Bytes) : regexMatch urlRegex s = (split s).map Parts.captures := by
  rw [regexMatch, urlRegex, run_seq, run_protocol, split, Option.map_bind]
  refine congrArg (Option.bind _) (funext fun (protocol, rest) => ?_)
  have nobody : (hostParts rest).map (fun p => p.hostCaptures ++ [(1, protocol)]) =
      (hostParts rest).map fun p => Parts.captures { p with protocol := protocol } := by
    refine Option.map_congr fun p read => ?_
    obtain ⟨host, behind, -, -, rfl⟩ := hostParts_eq_some read
    simp [Parts.captures, Parts.hostCaptures, partsBehind, userCaptures]
  simp only [run_seq, run_user, authorityParts, Function.comp_apply, Option.map_or,
    Option.map_bind, Option.map_map]
  simp only [← run_seq, run_host, nobody]
  congr 2
  funext read
  simp [Function.comp_def, Parts.captures, Parts.hostCaptures]

/-! ## The text of the parts -/

theorem portSplit_append (s : Bytes) : marked 58 (portSplit s).1 ++ (portSplit s).2 = s := by
  unfold portSplit
  split
  · split
    · rfl
    · simp [marked]
  · rfl

theorem tail_append (s : Bytes) :
    pathOf s ++ marked 63 (queryOf s) ++ marked 35 (fragmentOf s) = s := by
  have whole := List.takeWhile_append_dropWhile (p := pathChar) (l := s)
  have past : (s.dropWhile pathChar).dropWhile queryChar = s.dropWhile queryChar :=
    dropWhile_of_imp (by simp [pathChar, queryChar]) s
  have behind : marked 63 (queryOf s) ++ marked 35 (fragmentOf s) = s.dropWhile pathChar := by
    unfold queryOf fragmentOf
    rw [← past]
    rcases dropWhile_cases pathChar s with left | ⟨c, t, left, outside⟩
    · rw [left]
      rfl
    · rw [left]
      by_cases mark : c = 35
      · subst mark
        rfl
      · obtain rfl : c = 63 := by simpa [pathChar, mark] using outside
        have skipped : (63 :: t : Bytes).dropWhile queryChar = t.dropWhile queryChar := rfl
        rw [skipped]
        have inner := List.takeWhile_append_dropWhile (p := queryChar) (l := t)
        rcases dropWhile_cases queryChar t with left' | ⟨c, u, left', outside'⟩
        · rw [left'] at inner ⊢
          simpa [marked] using inner
        · obtain rfl : c = 35 := by simpa [queryChar] using outside'
          rw [left'] at inner ⊢
          simpa [marked] using inner
  rw [List.append_assoc, behind, pathOf, whole]

theorem hostText_partsBehind (host rest : Bytes) :
    (partsBehind host rest).hostText = host ++ rest := by
  have tail := tail_append (portSplit rest).2
  have port := portSplit_append rest
  simp only [Parts.hostText, Parts.tailText, partsBehind]
  rw [tail, List.append_assoc, port]

/-- The parts, put together, are the text. -/
theorem text_of_split {p : Parts} (read : split s = some p) : p.text = s := by
  rw [split, Option.bind_eq_some_iff] at read
  obtain ⟨⟨protocol, rest⟩, front, read⟩ := read
  rw [protocolSplit_append front]
  obtain ⟨q, inner, rfl⟩ := Option.map_eq_some_iff.1 read
  simp only [Parts.text, List.append_assoc]
  congr 2
  rw [authorityParts, Option.or_eq_some_iff, Option.bind_eq_some_iff] at inner
  rcases inner with ⟨⟨user, behind⟩, named, inner⟩ | ⟨-, inner⟩
  · obtain ⟨q', inner', rfl⟩ := Option.map_eq_some_iff.1 inner
    obtain ⟨host, rest', split, -, rfl⟩ := hostParts_eq_some inner'
    rw [userSplit_append named, hostSplit_append split, ← hostText_partsBehind host rest']
    rfl
  · obtain ⟨host, rest', split, -, rfl⟩ := hostParts_eq_some inner
    rw [hostSplit_append split, ← hostText_partsBehind host rest']
    rfl

end ChargerStack.Ocpp.Url
