/-
# Ocpp.UrlParts -- which parts are read back from their text

A text does not say where its parts end: `split` takes each as far as it goes.  The parts
that come back are the `Readable` ones, and these are what `split` finds.

* `split_eq_some_iff`: the parts of a text are the readable parts that make it up.
* `userFree_iff`: a text has no user if behind its first at sign no host can begin.
-/
import ChargerStack.Ocpp.UrlPattern

namespace ChargerStack.Ocpp.Url

set_option autoImplicit false

variable {s a b : Bytes} {p : UInt8 → Bool}

/-! ## Where a class stops -/

/-- The text is over, or goes on with a character outside the class. -/
def Stops (p : UInt8 → Bool) (s : Bytes) : Prop := s = [] ∨ ∃ c t, s = c :: t ∧ p c = false

theorem stops_iff_takeWhile : Stops p s ↔ s.takeWhile p = [] := by
  cases s with
  | nil => simp [Stops]
  | cons c t => cases inside : p c <;> simp [Stops, inside]

theorem Stops.of_imp {q : UInt8 → Bool} (stops : Stops p s)
    (narrower : ∀ c, q c = true → p c = true) : Stops q s := by
  obtain rfl | ⟨c, t, rfl, outside⟩ := stops
  · exact .inl rfl
  · refine .inr ⟨c, t, rfl, ?_⟩
    cases inside : q c with
    | false => rfl
    | true => exact (narrower c inside).symm.trans outside

/-- Where a text begins decides, if there is one. -/
theorem Stops.append_left (stops : Stops p (a ++ b)) (some_a : a ≠ []) : Stops p a := by
  cases a with
  | nil => exact absurd rfl some_a
  | cons c t =>
      obtain empty | ⟨d, u, same, outside⟩ := stops
      · cases empty
      · cases same
        exact .inr ⟨c, t, rfl, outside⟩

theorem Stops.append (stops : Stops p a) (some_a : a ≠ []) (b : Bytes) : Stops p (a ++ b) := by
  obtain rfl | ⟨c, t, rfl, outside⟩ := stops
  · exact absurd rfl some_a
  · exact .inr ⟨c, t ++ b, rfl, outside⟩

theorem Stops.takeWhile_append (stops : Stops p b) : (a ++ b).takeWhile p = a.takeWhile p := by
  induction a with
  | nil => exact stops_iff_takeWhile.1 stops
  | cons c a ih => cases inside : p c <;> simp [inside, ih]

theorem Stops.dropWhile_append (stops : Stops p b) :
    (a ++ b).dropWhile p = a.dropWhile p ++ b := by
  induction a with
  | nil =>
      obtain rfl | ⟨c, t, rfl, outside⟩ := stops
      · rfl
      · simp [outside]
  | cons c a ih => cases inside : p c <;> simp [inside, ih]

/-- A text is taken up to where the class stops. -/
theorem Stops.takeWhile (stops : Stops p b) (inside : ∀ c ∈ a, p c = true) :
    (a ++ b).takeWhile p = a :=
  stops.takeWhile_append.trans (List.takeWhile_eq_self_iff.2 inside)

theorem Stops.dropWhile (stops : Stops p b) (inside : ∀ c ∈ a, p c = true) :
    (a ++ b).dropWhile p = b := by
  rw [stops.dropWhile_append, List.dropWhile_eq_nil_iff.2 inside, List.nil_append]

/-! ## The tail -/

/-- What holds of the mark and of the characters of the part holds of its text. -/
theorem forall_mem_marked {mark : UInt8} {part : Option Bytes} (own : p mark = true)
    (inside : ∀ t, part = some t → ∀ c ∈ t, p c = true) : ∀ c ∈ marked mark part, p c = true := by
  intro c member
  cases part with
  | none => cases member
  | some t =>
      rcases List.mem_cons.1 member with rfl | behind
      · exact own
      · exact inside t rfl c behind

theorem stops_fragment (fragment : Option Bytes) : Stops queryChar (marked 35 fragment) := by
  cases fragment with
  | none => exact .inl rfl
  | some t => exact .inr ⟨35, t, rfl, rfl⟩

theorem stops_query (query fragment : Option Bytes) :
    Stops pathChar (marked 63 query ++ marked 35 fragment) := by
  cases query with
  | some t => exact .inr ⟨63, _, rfl, rfl⟩
  | none =>
      cases fragment with
      | none => exact .inl rfl
      | some t => exact .inr ⟨35, t, rfl, rfl⟩

theorem queryOf_chars {t : Bytes} (read : queryOf s = some t) : ∀ c ∈ t, queryChar c = true := by
  unfold queryOf at read
  split at read
  · cases read
    exact fun c => List.mem_takeWhile_imp
  · cases read

theorem fragmentOf_chars {t : Bytes} (fits : clean s = true) (read : fragmentOf s = some t) :
    ∀ c ∈ t, fragmentChar c = true := by
  unfold clean at fits
  unfold fragmentOf at read
  split at read
  · next left =>
      cases read
      rw [left] at fits
      exact fun c member => List.all_eq_true.1 fits c (List.mem_cons_of_mem _ member)
  · cases read

section Tail

variable {path : Bytes} (query fragment : Option Bytes)
  (pathChars : ∀ c ∈ path, pathChar c = true)
  (queryChars : ∀ t, query = some t → ∀ c ∈ t, queryChar c = true)

include pathChars in
theorem pathOf_tail : pathOf (path ++ marked 63 query ++ marked 35 fragment) = path := by
  rw [List.append_assoc]
  exact (stops_query query fragment).takeWhile pathChars

include pathChars queryChars in
theorem dropWhile_tail :
    (path ++ marked 63 query ++ marked 35 fragment).dropWhile queryChar = marked 35 fragment := by
  refine (stops_fragment fragment).dropWhile fun c member => ?_
  rcases List.mem_append.1 member with inPath | inQuery
  · have inside := pathChars c inPath
    simp only [pathChar, Bool.and_eq_true] at inside
    exact inside.2
  · exact forall_mem_marked rfl queryChars c inQuery

include pathChars queryChars in
theorem queryOf_tail : queryOf (path ++ marked 63 query ++ marked 35 fragment) = query := by
  have left : (path ++ marked 63 query ++ marked 35 fragment).dropWhile pathChar =
      marked 63 query ++ marked 35 fragment := by
    rw [List.append_assoc]
    exact (stops_query query fragment).dropWhile pathChars
  rw [queryOf, left]
  cases query with
  | none => cases fragment <;> rfl
  | some t =>
      have taken := (stops_fragment fragment).takeWhile (queryChars t rfl)
      exact congrArg some taken

include pathChars queryChars in
theorem fragmentOf_tail :
    fragmentOf (path ++ marked 63 query ++ marked 35 fragment) = fragment := by
  rw [fragmentOf, dropWhile_tail query fragment pathChars queryChars]
  cases fragment <;> rfl

include pathChars queryChars in
theorem clean_tail (fragmentChars : ∀ t, fragment = some t → ∀ c ∈ t, fragmentChar c = true) :
    clean (path ++ marked 63 query ++ marked 35 fragment) = true := by
  rw [clean, dropWhile_tail query fragment pathChars queryChars]
  exact List.all_eq_true.2 (forall_mem_marked rfl fragmentChars)

end Tail

/-! ## The user -/

/-- No user can be read off the text: where one could be, no host can begin behind it. -/
def UserFree (s : Bytes) : Prop :=
  ∀ user rest, userSplit s = some (user, rest) → hostParts rest = none

theorem userSplit_text {name : Bytes} {password : Option Bytes} (some_name : name ≠ [])
    (nameChars : ∀ c ∈ name, userChar c = true)
    (passwordChars : ∀ t, password = some t → ∀ c ∈ t, passwordChar c = true) (rest : Bytes) :
    userSplit (userText (some (name, password)) ++ rest) = some ((name, password), rest) := by
  have stops : Stops userChar (marked 58 password ++ [64] ++ rest) := by
    cases password with
    | none => exact .inr ⟨64, rest, rfl, rfl⟩
    | some t => exact .inr ⟨58, _, rfl, rfl⟩
  have taken := stops.takeWhile nameChars
  have left := stops.dropWhile nameChars
  simp only [userText, List.append_assoc] at taken left ⊢
  rw [userSplit, taken, left, if_neg some_name]
  cases password with
  | none => rfl
  | some t =>
      have behind : Stops passwordChar (64 :: rest) := .inr ⟨64, rest, rfl, rfl⟩
      have taken' := behind.takeWhile (passwordChars t rfl)
      have left' := behind.dropWhile (passwordChars t rfl)
      simp only [marked, List.cons_append, List.nil_append, taken', left']

theorem userSplit_chars {name rest : Bytes} {password : Option Bytes}
    (read : userSplit s = some ((name, password), rest)) :
    name ≠ [] ∧ (∀ c ∈ name, userChar c = true) ∧
      ∀ t, password = some t → ∀ c ∈ t, passwordChar c = true := by
  have nameChars : ∀ c ∈ s.takeWhile userChar, userChar c = true :=
    fun c => List.mem_takeWhile_imp
  unfold userSplit at read
  split at read
  · cases read
  · next some_name =>
      split at read
      · cases read
        exact ⟨some_name, nameChars, by simp⟩
      · next t left =>
          split at read
          · cases read
            refine ⟨some_name, nameChars, fun u same c member => ?_⟩
            cases same
            exact List.mem_takeWhile_imp member
          · cases read
      · cases read

theorem userChar_iff {c : UInt8} : userChar c = true ↔ c ≠ 58 ∧ c ≠ 64 := by simp [userChar]

theorem passwordChar_iff {c : UInt8} : passwordChar c = true ↔ c ≠ 64 := by simp [passwordChar]

/-- Only the text up to the first at sign matters. -/
theorem userSplit_isSome_iff {rest : Bytes} : (∃ user, userSplit s = some (user, rest)) ↔
    ∃ a, s = a ++ 64 :: rest ∧ 64 ∉ a ∧ a ≠ [] ∧ a.head? ≠ some 58 := by
  constructor
  · rintro ⟨⟨name, password⟩, read⟩
    obtain ⟨some_name, nameChars, passwordChars⟩ := userSplit_chars read
    refine ⟨name ++ marked 58 password, ?_, ?_, by simp [some_name], ?_⟩
    · rw [userSplit_append read]
      simp [userText]
    · intro member
      rcases List.mem_append.1 member with inName | inPassword
      · exact (userChar_iff.1 (nameChars 64 inName)).2 rfl
      · have chars : ∀ c ∈ marked 58 password, passwordChar c = true :=
          forall_mem_marked rfl passwordChars
        exact passwordChar_iff.1 (chars 64 inPassword) rfl
    · cases name with
      | nil => exact absurd rfl some_name
      | cons c t =>
          have first := (userChar_iff.1 (nameChars c List.mem_cons_self)).1
          simpa using first
  · rintro ⟨a, rfl, free, some_a, head⟩
    have whole := List.takeWhile_append_dropWhile (p := userChar) (l := a)
    have nameChars : ∀ c ∈ a.takeWhile userChar, userChar c = true :=
      fun c => List.mem_takeWhile_imp
    have some_name : a.takeWhile userChar ≠ [] := by
      cases a with
      | nil => exact absurd rfl some_a
      | cons c t =>
          have inside : userChar c = true := by
            refine userChar_iff.2 ⟨?_, ?_⟩
            · simpa using head
            · rintro rfl
              exact free List.mem_cons_self
          simp [inside]
    rcases dropWhile_cases userChar a with left | ⟨c, t, left, outside⟩
    · refine ⟨(a.takeWhile userChar, none), ?_⟩
      have secretless : ∀ t, (none : Option Bytes) = some t → ∀ c ∈ t, passwordChar c = true := by
        simp
      have read := userSplit_text some_name nameChars secretless rest
      rw [left, List.append_nil] at whole
      simpa [userText, marked, whole] using read
    · have inA : ∀ d ∈ c :: t, d ∈ a := by
        rw [← left]
        exact fun d member => (List.dropWhile_suffix userChar).mem member
      have mark : c = 58 := by
        by_contra other
        have inside : userChar c = true := by
          refine userChar_iff.2 ⟨other, ?_⟩
          rintro rfl
          exact free (inA 64 List.mem_cons_self)
        rw [inside] at outside
        cases outside
      have passwordChars : ∀ u, some t = some u → ∀ d ∈ u, passwordChar d = true := by
        rintro u same d member
        cases same
        refine passwordChar_iff.2 ?_
        rintro rfl
        exact free (inA 64 (List.mem_cons_of_mem c member))
      refine ⟨(a.takeWhile userChar, some t), ?_⟩
      have read := userSplit_text some_name nameChars passwordChars rest
      rw [left, mark] at whole
      have text : userText (some (a.takeWhile userChar, some t)) ++ rest = a ++ 64 :: rest := by
        conv_rhs => rw [← whole]
        simp [userText, marked]
      rwa [text] at read

theorem userFree_iff : UserFree s ↔ ∀ a rest, s = a ++ 64 :: rest → 64 ∉ a → a ≠ [] →
    a.head? ≠ some 58 → hostParts rest = none := by
  constructor
  · intro free a rest same first some_a head
    obtain ⟨user, read⟩ := userSplit_isSome_iff.2 ⟨a, same, first, some_a, head⟩
    exact free user rest read
  · intro unread user rest read
    obtain ⟨a, same, first, some_a, head⟩ := userSplit_isSome_iff.1 ⟨user, read⟩
    exact unread a rest same first some_a head

/-! ## Readable parts -/

/-- The parts end where `split` ends them. -/
structure Readable (p : Parts) : Prop where
  protocol : ∃ c t, p.protocol = c :: t ∧ isalpha c = true ∧ ∀ d ∈ t, schemeChar d = true
  named : ∀ name password, p.user = some (name, password) → name ≠ [] ∧
    (∀ c ∈ name, userChar c = true) ∧ ∀ t, password = some t → ∀ c ∈ t, passwordChar c = true
  unnamed : p.user = none → UserFree p.hostText
  host : hostSplit p.hostText = some (p.host, marked 58 p.port ++ p.tailText)
  port : portSplit (marked 58 p.port ++ p.tailText) = (p.port, p.tailText)
  path : ∀ c ∈ p.path, pathChar c = true
  query : ∀ t, p.query = some t → ∀ c ∈ t, queryChar c = true
  fragment : ∀ t, p.fragment = some t → ∀ c ∈ t, fragmentChar c = true

namespace Readable

variable {p : Parts} (readable : Readable p)

include readable

theorem clean : clean (marked 58 p.port ++ p.tailText) = true := by
  have tail := clean_tail p.query p.fragment readable.path readable.query readable.fragment
  rw [← portSplit_clean, readable.port]
  exact tail

/-- A port is written in digits, at least one, and ends where they do. -/
theorem port_digits {digits : Bytes} (written : p.port = some digits) :
    digits ≠ [] ∧ (∀ c ∈ digits, isdigit c = true) ∧ Stops isdigit p.tailText := by
  have port := readable.port
  rw [written] at port
  have text : marked 58 (some digits) ++ p.tailText = 58 :: (digits ++ p.tailText) := rfl
  rw [text, portSplit] at port
  split at port
  · cases port
  · next some_digits =>
      obtain ⟨same, behind⟩ := Prod.mk.inj port
      rw [Option.some.inj same] at some_digits
      refine ⟨some_digits, ?_, ?_⟩
      · rw [← Option.some.inj same]
        exact fun c => List.mem_takeWhile_imp
      · rw [← behind]
        exact dropWhile_cases isdigit _

theorem hostParts_text :
    hostParts p.hostText = some { p with user := none, protocol := [] } := by
  have path := pathOf_tail p.query p.fragment readable.path
  have query := queryOf_tail p.query p.fragment readable.path readable.query
  have fragment := fragmentOf_tail p.query p.fragment readable.path readable.query
  rw [hostParts, readable.host]
  simp only [Option.bind_some, readable.clean, if_true, partsBehind, readable.port]
  simp only [Parts.tailText, path, query, fragment]

theorem authorityParts_text :
    authorityParts (userText p.user ++ p.hostText) = some { p with protocol := [] } := by
  have inner := readable.hostParts_text
  unfold authorityParts
  cases user : p.user with
  | some named =>
      obtain ⟨name, password⟩ := named
      obtain ⟨some_name, nameChars, passwordChars⟩ := readable.named name password user
      rw [userSplit_text some_name nameChars passwordChars]
      simp [inner]
  | none =>
      rw [userText, List.nil_append]
      cases read : userSplit p.hostText with
      | none => exact inner
      | some found =>
          obtain ⟨user', rest⟩ := found
          have unread := readable.unnamed user user' rest read
          simp [unread, inner]

theorem split_text : split p.text = some p := by
  obtain ⟨c, t, same, first, chars⟩ := readable.protocol
  have stops : Stops schemeChar ([58, 47, 47] ++ userText p.user ++ p.hostText) :=
    .inr ⟨58, _, rfl, rfl⟩
  have taken := stops.takeWhile chars
  have left := stops.dropWhile chars
  have inner := readable.authorityParts_text
  simp only [Parts.text, same, List.append_assoc, List.cons_append] at taken left inner ⊢
  rw [split, protocolSplit, if_pos first, left, taken]
  simp only [List.nil_append, Option.bind_some, inner, Option.map_some, ← same]

end Readable

theorem readable_behind {host rest : Bytes} {user : Option (Bytes × Option Bytes)}
    {protocol : Bytes} (read : hostSplit s = some (host, rest)) (fits : clean rest = true)
    (protocolChars : ∃ c t, protocol = c :: t ∧ isalpha c = true ∧ ∀ d ∈ t, schemeChar d = true)
    (named : ∀ name password, user = some (name, password) → name ≠ [] ∧
      (∀ c ∈ name, userChar c = true) ∧ ∀ t, password = some t → ∀ c ∈ t, passwordChar c = true)
    (unnamed : user = none → UserFree s) :
    Readable { partsBehind host rest with user := user, protocol := protocol } := by
  have tail : (partsBehind host rest).tailText = (portSplit rest).2 := tail_append _
  have behind :
      marked 58 (partsBehind host rest).port ++ (partsBehind host rest).tailText = rest := by
    rw [tail]
    exact portSplit_append rest
  have whole : (partsBehind host rest).hostText = s := by
    rw [hostText_partsBehind, hostSplit_append read]
  have tailClean : clean (portSplit rest).2 = true := by rwa [portSplit_clean]
  exact
    { protocol := protocolChars
      named := named
      unnamed := fun nobody => whole.symm ▸ unnamed nobody
      host := by
        refine (congrArg hostSplit whole).trans (read.trans ?_)
        exact congrArg (fun r => some (host, r)) behind.symm
      port := by
        refine (congrArg portSplit behind).trans ?_
        exact Prod.ext rfl tail.symm
      path := fun c => List.mem_takeWhile_imp
      query := fun t => queryOf_chars
      fragment := fun t => fragmentOf_chars tailClean }

theorem protocolSplit_chars {protocol rest : Bytes}
    (read : protocolSplit s = some (protocol, rest)) :
    ∃ c t, protocol = c :: t ∧ isalpha c = true ∧ ∀ d ∈ t, schemeChar d = true := by
  unfold protocolSplit at read
  split at read
  · split at read
    · next first =>
        split at read
        · cases read
          exact ⟨_, _, rfl, first, fun d => List.mem_takeWhile_imp⟩
        · cases read
    · cases read
  · cases read

/-- **The parts of a text are the readable ones that make it up.** -/
theorem split_eq_some_iff {p : Parts} : split s = some p ↔ p.text = s ∧ Readable p := by
  refine ⟨fun read => ⟨text_of_split read, ?_⟩, fun ⟨same, readable⟩ => same ▸ readable.split_text⟩
  rw [split, Option.bind_eq_some_iff] at read
  obtain ⟨⟨protocol, rest⟩, front, read⟩ := read
  obtain ⟨q, inner, rfl⟩ := Option.map_eq_some_iff.1 read
  have protocolChars := protocolSplit_chars front
  rw [authorityParts, Option.or_eq_some_iff, Option.bind_eq_some_iff] at inner
  rcases inner with ⟨⟨user, behind⟩, userRead, inner⟩ | ⟨unread, inner⟩
  · obtain ⟨q', inner', rfl⟩ := Option.map_eq_some_iff.1 inner
    obtain ⟨host, rest', hostRead, fits, rfl⟩ := hostParts_eq_some inner'
    refine readable_behind hostRead fits protocolChars ?_ (by simp)
    rintro name password same
    cases same
    exact userSplit_chars userRead
  · obtain ⟨host, rest', hostRead, fits, rfl⟩ := hostParts_eq_some inner
    refine readable_behind hostRead fits protocolChars (by simp [partsBehind]) fun _ => ?_
    intro user rest'' userRead
    rw [Option.bind_eq_none_iff] at unread
    simpa using unread (user, rest'') userRead

end ChargerStack.Ocpp.Url
