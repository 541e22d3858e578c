/-
# Rapidjson.Grammar -- the texts the reader takes

* `DocumentText`: the texts of a value, as RFC 4627 has them, and which number a literal is;
* `parseInteger_eq`: the two loops with their bounds tell which integers fit 64 bits;
* `parse_iff`: a text is read as a value just when it is a text of that value, so that the reader
  takes no other texts, finds no other values, and never runs out of fuel.
-/
import ChargerStack.Rapidjson.Reader
import Mathlib.Tactic.Common

namespace ChargerStack.Rapidjson.Reader

open Cxx Lib Lib.Scanner

set_option autoImplicit false

/-! ## The language -/

inductive Hex4Text : Language Char Nat
  | mk {a b c d : Char} {digits : List Nat} (read : [a, b, c, d].mapM hexDigit? = some digits) :
      Hex4Text (hexValue digits) [a, b, c, d]

inductive CharText : Language Char Char
  | plain {c : Char} (printable : 0x20 ≤ c.toNat) (quote : c ≠ '"') (escape : c ≠ '\\') :
      CharText c [c]
  | escaped {e c : Char} (stands : escape? e = some c) : CharText c ['\\', e]
  | unicode {codepoint : Nat} {word : List Char} (hex : Hex4Text codepoint word)
      (scalar : codepoint < 0xD800 ∨ 0xDFFF < codepoint) :
      CharText (Char.ofNat codepoint) ('\\' :: 'u' :: word)
  | surrogates {high low : Nat} {word word' : List Char} (hex : Hex4Text high word)
      (hex' : Hex4Text low word') (leads : 0xD800 ≤ high ∧ high ≤ 0xDBFF)
      (trails : 0xDC00 ≤ low ∧ low ≤ 0xDFFF) :
      CharText (Char.ofNat (Reader.surrogates high low))
        ('\\' :: 'u' :: (word ++ '\\' :: 'u' :: word'))

inductive StringText : Language Char String
  | quoted {t : String} {word : List Char} (chars : Closed '"' CharText t.toList word) :
      StringText t ('"' :: word)

def Digits (ds : List Char) : Prop := ∀ d ∈ ds, d.isDigit = true

/-- `zero / ( digit1-9 *DIGIT )`. -/
inductive IntegerText : List Char → Prop
  | zero : IntegerText ['0']
  | digits {c : Char} {ds : List Char} (first : '1' ≤ c ∧ c ≤ '9') (digits : Digits ds) :
      IntegerText (c :: ds)

/-- `[ decimal-point 1*DIGIT ]`. -/
inductive FractionText : List Char → Prop
  | none : FractionText []
  | digits {ds : List Char} (one : ds ≠ []) (digits : Digits ds) : FractionText ('.' :: ds)

/-- `[ e [ minus / plus ] 1*DIGIT ]`. -/
inductive ExponentText : List Char → Prop
  | none : ExponentText []
  | digits {e : Char} {sign ds : List Char} (mark : e = 'e' ∨ e = 'E')
      (signed : sign = [] ∨ sign = ['+'] ∨ sign = ['-']) (one : ds ≠ []) (digits : Digits ds) :
      ExponentText (e :: (sign ++ ds))

def signText (minus : Bool) : List Char := if minus then ['-'] else []

def number (ds : List Char) : Nat := Nat.ofDigitChars 10 ds 0

/-- The greatest number of 64 bits, behind a minus or not. -/
def maximum (minus : Bool) : Nat := if minus then 2 ^ 63 else 2 ^ 64 - 1

inductive NumberText (strtod : List Char → Option Rat) : Language Char Value
  | int {minus : Bool} {ds : List Char} (integer : IntegerText ds) (fits : number ds ≤ maximum minus) :
      NumberText strtod (.int (if minus then -number ds else number ds)) (signText minus ++ ds)
  | double {minus : Bool} {ds frac exp : List Char} {d : Rat} (integer : IntegerText ds)
      (fraction : FractionText frac) (exponent : ExponentText exp)
      (other : frac = [] → exp = [] → maximum minus < number ds)
      (read : strtod (signText minus ++ (ds ++ (frac ++ exp))) = some d) :
      NumberText strtod (.double d) (signText minus ++ (ds ++ (frac ++ exp)))

inductive ValueText (strtod : List Char → Option Rat) : Value → List Char → Prop
  | null : ValueText strtod .null ['n', 'u', 'l', 'l']
  | yes : ValueText strtod (.bool true) ['t', 'r', 'u', 'e']
  | no : ValueText strtod (.bool false) ['f', 'a', 'l', 's', 'e']
  | number {v : Value} {word : List Char} (literal : NumberText strtod v word) :
      ValueText strtod v word
  | string {t : String} {word : List Char} (text : StringText t word) :
      ValueText strtod (.string t) word
  | array {xs : List Value} {words : List Char} (list : Listed elements (ValueText strtod) xs words) :
      ValueText strtod (.array xs) ('[' :: words)
  | object {ms : List (String × Value)} {words : List Char}
      (list : Listed members (Paired isSpace ':' StringText (ValueText strtod)) ms words) :
      ValueText strtod (.object ms) ('{' :: words)

/-- A value with blanks around it. -/
inductive DocumentText (strtod : List Char → Option Rat) : Language Char Value
  | mk {v : Value} {gap word gap' : List Char} (skip : Blank isSpace gap)
      (value : ValueText strtod v word) (skip' : Blank isSpace gap') :
      DocumentText strtod v (gap ++ (word ++ gap'))

/-! ## Strings are read -/

theorem parseHex4_eq_some {n : Nat} {s rest : List Char} :
    parseHex4 s = some (n, rest) ↔ ∃ word, s = word ++ rest ∧ Hex4Text n word := by
  constructor
  · intro taken
    unfold parseHex4 at taken
    split at taken
    · obtain ⟨digits, read, same⟩ := Option.map_eq_some_iff.1 taken
      obtain ⟨rfl, rfl⟩ := Prod.mk.inj same
      exact ⟨_, rfl, .mk read⟩
    · cases taken
  · rintro ⟨word, rfl, text⟩
    cases text with
    | mk read =>
        show Option.map _ _ = _
        rw [read]
        rfl

theorem parseUnicode_sound {c : Char} {s rest : List Char} (taken : parseUnicode s = some (c, rest)) :
    ∃ word, '\\' :: 'u' :: s = word ++ rest ∧ CharText c word := by
  obtain ⟨⟨codepoint, s₁⟩, first, behind⟩ := Option.bind_eq_some_iff.1 taken
  obtain ⟨word, rfl, hex⟩ := parseHex4_eq_some.1 first
  dsimp only at behind
  split at behind
  · rename_i surrogate
    split at behind
    · rename_i leads
      obtain ⟨s₂, slash, behind⟩ := Option.bind_eq_some_iff.1 behind
      obtain ⟨s₃, mark, behind⟩ := Option.bind_eq_some_iff.1 behind
      obtain ⟨⟨codepoint2, s₄⟩, second, last⟩ := Option.bind_eq_some_iff.1 behind
      obtain ⟨word', rfl, hex'⟩ := parseHex4_eq_some.1 second
      dsimp only at last
      split at last
      · cases last
      · rename_i trails
        obtain ⟨rfl, rfl⟩ := Prod.mk.inj (Option.some.inj last)
        refine ⟨_, ?_, .surrogates hex hex' ⟨surrogate.1, leads⟩ (by omega)⟩
        rw [consume_eq_some] at slash mark
        rw [slash, mark]
        simp
    · cases behind
  · rename_i scalar
    obtain ⟨rfl, rfl⟩ := Prod.mk.inj (Option.some.inj behind)
    exact ⟨_, rfl, .unicode hex (by omega)⟩

theorem parseEscape_sound {c : Char} {s rest : List Char} (taken : parseEscape s = some (c, rest)) :
    ∃ word, '\\' :: s = word ++ rest ∧ CharText c word := by
  cases s with
  | nil => cases taken
  | cons e s =>
      rw [parseEscape] at taken
      split at taken
      · rename_i c' stands
        obtain ⟨rfl, rfl⟩ := Prod.mk.inj (Option.some.inj taken)
        exact ⟨['\\', e], rfl, .escaped stands⟩
      · split at taken
        · rename_i mark
          subst mark
          exact parseUnicode_sound taken
        · cases taken

theorem parseChar_sound {c : Char} {s rest : List Char} (other : consume '"' s = none)
    (taken : parseChar s = some (c, rest)) : ∃ word, s = word ++ rest ∧ CharText c word := by
  cases s with
  | nil => cases taken
  | cons d s =>
      rw [parseChar] at taken
      split at taken
      · rename_i slash
        subst slash
        exact parseEscape_sound taken
      · rename_i escape
        split at taken
        · cases taken
        · rename_i printable
          obtain ⟨rfl, rfl⟩ := Prod.mk.inj (Option.some.inj taken)
          refine ⟨[d], rfl, .plain (by omega) ?_ escape⟩
          rintro rfl
          cases other

theorem parseChar_complete {c : Char} {word : List Char} (text : CharText c word) (rest : List Char) :
    parseChar (word ++ rest) = some (c, rest) := by
  cases text with
  | plain printable quote escape =>
      rw [List.cons_append, List.nil_append, parseChar, if_neg escape, if_neg (by omega)]
  | @escaped e c stands =>
      show parseEscape (e :: rest) = _
      rw [parseEscape, stands]
  | @unicode codepoint word hex scalar =>
      have read := parseHex4_eq_some.2 ⟨word, (rfl : word ++ rest = _), hex⟩
      show parseUnicode (word ++ rest) = _
      rw [parseUnicode, read]
      show (if _ then _ else _) = _
      rw [if_neg (by omega)]
  | @surrogates high low word word' hex hex' leads trails =>
      have joined : '\\' :: 'u' :: (word ++ '\\' :: 'u' :: word') ++ rest =
          '\\' :: 'u' :: (word ++ '\\' :: 'u' :: (word' ++ rest)) := by simp
      have read := parseHex4_eq_some.2
        ⟨word, (rfl : word ++ '\\' :: 'u' :: (word' ++ rest) = _), hex⟩
      have read' := parseHex4_eq_some.2 ⟨word', (rfl : word' ++ rest = _), hex'⟩
      rw [joined]
      show parseUnicode (word ++ '\\' :: 'u' :: (word' ++ rest)) = _
      rw [parseUnicode, read]
      show (if _ then (if _ then _ else _) else _) = _
      rw [if_pos (by omega), if_pos leads.2]
      simp only [consume_self, Option.bind_eq_bind, Option.bind_some, read']
      rw [if_neg (by omega)]

theorem parseString_sound (n : Nat) : Sound (parseString n) StringText := by
  intro s t rest taken
  obtain ⟨s₁, quote, behind⟩ := Option.bind_eq_some_iff.1 taken
  obtain ⟨⟨cs, s₂⟩, chars, last⟩ := Option.bind_eq_some_iff.1 behind
  obtain ⟨rfl, rfl⟩ := Prod.mk.inj (Option.some.inj last)
  rw [consume_eq_some] at quote
  subst quote
  obtain ⟨word, rfl, text⟩ :=
    closed_sound (fun s c rest other taken => parseChar_sound other taken) n _ _ _ chars
  exact ⟨'"' :: word, rfl, .quoted (by rwa [String.toList_ofList])⟩

theorem charText_begins (c : Char) (word : List Char) (text : CharText c word) :
    ∃ d t, word = d :: t ∧ d ≠ '"' := by
  cases text with
  | plain printable quote escape => exact ⟨c, [], rfl, quote⟩
  | escaped stands => exact ⟨'\\', _, rfl, by decide⟩
  | unicode hex scalar => exact ⟨'\\', _, rfl, by decide⟩
  | surrogates hex hex' leads trails => exact ⟨'\\', _, rfl, by decide⟩

theorem parseString_complete (n : Nat) :
    Complete (n + 1) (parseString n) StringText fun _ _ => True := by
  intro t word rest short text _
  cases text with
  | @quoted t word chars =>
      rw [List.length_cons] at short
      have read := closed_complete charText_begins
        (fun c word rest _ text _ => parseChar_complete text rest) _ word rest
        (Nat.lt_of_succ_lt_succ short) chars trivial
      simp only [List.cons_append, parseString, consume_self, Option.bind_eq_bind,
        Option.bind_some, read, String.ofList_toList]

/-! ## Numbers are read -/

section Numbers

variable {ds rest s : List Char} {n : Nat}

/-- No digit comes first. -/
def NoDigit (rest : List Char) : Prop := ∀ c t, rest = c :: t → c.isDigit = false

theorem dropWhile_of_noDigit (ends : NoDigit rest) : rest.dropWhile Char.isDigit = rest := by
  cases rest with
  | nil => rfl
  | cons c t => rw [List.dropWhile_cons, ends c t rfl, if_neg Bool.false_ne_true]

theorem dropWhile_digits (digits : Digits ds) (ends : NoDigit rest) :
    (ds ++ rest).dropWhile Char.isDigit = rest := by
  rw [List.dropWhile_append_of_pos digits, dropWhile_of_noDigit ends]

theorem takeWhile_digits (digits : Digits ds) (ends : NoDigit rest) :
    (ds ++ rest).takeWhile Char.isDigit = ds := by
  rw [List.takeWhile_append_of_pos digits]
  cases rest with
  | nil => simp
  | cons c t => rw [List.takeWhile_cons, ends c t rfl, if_neg Bool.false_ne_true, List.append_nil]

theorem digits_takeWhile (s : List Char) : Digits (s.takeWhile Char.isDigit) := fun _ inside =>
  List.mem_takeWhile_imp inside

theorem noDigit_dropWhile (s : List Char) : NoDigit (s.dropWhile Char.isDigit) := by
  intro c t same
  have stops := List.head?_dropWhile_not Char.isDigit s
  rw [same] at stops
  simpa using stops

theorem ofDigitChars_ge (ds : List Char) (i : Nat) : i ≤ Nat.ofDigitChars 10 ds i := by
  rw [Nat.ofDigitChars_eq_ofDigitChars_zero]
  have one : 1 ≤ 10 ^ ds.length := Nat.one_le_pow _ _ (by decide)
  calc i = 1 * i := (Nat.one_mul i).symm
    _ ≤ 10 ^ ds.length * i := Nat.mul_le_mul_right i one
    _ ≤ _ := Nat.le_add_right _ _

theorem isDigit_iff {c : Char} : c.isDigit = true ↔ 48 ≤ c.toNat ∧ c.toNat ≤ 57 := by
  simp [Char.isDigit, UInt32.le_iff_toNat_le]

/-- **A loop with its bound** takes all the digits, or leaves at one that would go beyond. -/
theorem accumulate_spec (limit : Nat) {last : Char} (digit : last.isDigit = true) (i : Nat)
    (low : i ≤ 10 * limit + (last.toNat - '0'.toNat)) (s : List Char) :
    ∃ ds t beyond, accumulate limit last i s = (Nat.ofDigitChars 10 ds i, beyond, t) ∧
      s = ds ++ t ∧ Digits ds ∧
      Nat.ofDigitChars 10 ds i ≤ 10 * limit + (last.toNat - '0'.toNat) ∧
      (beyond = false → NoDigit t) ∧
      (beyond = true → ∃ d u, t = d :: u ∧ d.isDigit = true ∧
        10 * limit + (last.toNat - '0'.toNat) < Nat.ofDigitChars 10 (ds ++ [d]) i) := by
  have zero : '0'.toNat = 48 := rfl
  have none : Digits [] := List.forall_mem_nil _
  induction s generalizing i with
  | nil =>
      refine ⟨[], [], false, rfl, rfl, none, low, ?_, nofun⟩
      intro _ c t no
      cases no
  | cons c s ih =>
      rw [accumulate]
      split
      · rename_i isDigit
        have range := isDigit_iff.1 isDigit
        have range' := isDigit_iff.1 digit
        have less : last < c ↔ last.toNat < c.toNat := Iff.rfl
        split
        · rename_i beyond
          refine ⟨[], c :: s, true, rfl, rfl, none, low, nofun, fun _ => ⟨c, s, rfl, isDigit, ?_⟩⟩
          rw [List.nil_append, Nat.ofDigitChars_cons, Nat.ofDigitChars_nil]
          rw [less] at beyond
          omega
        · rename_i within
          rw [less] at within
          obtain ⟨ds, t, beyond, ran, front, digits, bound, ends, leaves⟩ :=
            ih (10 * i + (c.toNat - '0'.toNat)) (by omega)
          refine ⟨c :: ds, t, beyond, ?_, ?_, ?_, ?_, ends, ?_⟩
          · rw [ran, Nat.ofDigitChars_cons]
          · rw [front, List.cons_append]
          · exact List.forall_mem_cons.2 ⟨isDigit, digits⟩
          · rwa [Nat.ofDigitChars_cons]
          · intro left
            obtain ⟨d, u, same, isDigit', more⟩ := leaves left
            refine ⟨d, u, same, isDigit', ?_⟩
            rwa [List.cons_append, Nat.ofDigitChars_cons]
      · rename_i other
        refine ⟨[], c :: s, false, rfl, rfl, none, low, ?_, nofun⟩
        intro _ d t same
        obtain ⟨rfl, rfl⟩ := List.cons.inj same
        simpa using other

theorem split_digits {ds ds' rest rest' : List Char} (same : ds ++ rest = ds' ++ rest')
    (digits : Digits ds) (ends : NoDigit rest) (digits' : Digits ds') (ends' : NoDigit rest') :
    ds = ds' ∧ rest = rest' := by
  constructor
  · rw [← takeWhile_digits digits ends, same, takeWhile_digits digits' ends']
  · rw [← dropWhile_digits digits ends, same, dropWhile_digits digits' ends']

theorem digits_append {ds ds' : List Char} (digits : Digits ds) (digits' : Digits ds') :
    Digits (ds ++ ds') := List.forall_mem_append.2 ⟨digits, digits'⟩

/-- **The two loops** find the number where it is not beyond the second bound. -/
theorem parseDigits_eq {limit32 limit64 i : Nat} {last32 last64 : Char}
    (digit32 : last32.isDigit = true) (digit64 : last64.isDigit = true)
    (low : i ≤ 10 * limit32 + (last32.toNat - '0'.toNat))
    (wider : 10 * limit32 + (last32.toNat - '0'.toNat) ≤ 10 * limit64 + (last64.toNat - '0'.toNat))
    (digits : Digits ds) (ends : NoDigit rest) :
    parseDigits limit32 last32 limit64 last64 i (ds ++ rest) =
      (if Nat.ofDigitChars 10 ds i ≤ 10 * limit64 + (last64.toNat - '0'.toNat) then
        some (Nat.ofDigitChars 10 ds i) else none, rest) := by
  obtain ⟨ds₁, t₁, beyond, ran, front, digits₁, bound, stops, -⟩ :=
    accumulate_spec limit32 digit32 i low (ds ++ rest)
  rw [parseDigits, ran]
  cases beyond with
  | false =>
      obtain ⟨rfl, rfl⟩ := split_digits front digits ends digits₁ (stops rfl)
      simp only [Bool.false_eq_true, if_false]
      rw [if_pos (Nat.le_trans bound wider)]
  | true =>
      obtain ⟨ds₂, t₂, beyond, ran', front', digits₂, bound', stops', leaves⟩ :=
        accumulate_spec limit64 digit64 _ (Nat.le_trans bound wider) t₁
      rw [front', ← List.append_assoc] at front
      rw [← Nat.ofDigitChars_append] at ran' bound'
      simp only [if_true, ran']
      cases beyond with
      | false =>
          obtain ⟨rfl, rfl⟩ :=
            split_digits front digits ends (digits_append digits₁ digits₂) (stops' rfl)
          simp only [Bool.false_eq_true, if_false]
          rw [if_pos bound']
      | true =>
          obtain ⟨d, u, rfl, isDigit, more⟩ := leaves rfl
          rw [← Nat.ofDigitChars_append, ← List.append_assoc] at more
          have all : ds₁ ++ ds₂ ++ d :: u =
              (ds₁ ++ ds₂ ++ [d] ++ u.takeWhile Char.isDigit) ++ u.dropWhile Char.isDigit := by
            simp [List.takeWhile_append_dropWhile]
          have one : Digits [d] := List.forall_mem_cons.2 ⟨isDigit, List.forall_mem_nil _⟩
          obtain ⟨rfl, rfl⟩ := split_digits (front.trans all) digits ends
            (digits_append (digits_append (digits_append digits₁ digits₂) one) (digits_takeWhile u))
            (noDigit_dropWhile u)
          have beyond := Nat.lt_of_lt_of_le more (ofDigitChars_ge (u.takeWhile Char.isDigit) _)
          rw [← Nat.ofDigitChars_append] at beyond
          rw [if_neg (Nat.not_le.2 beyond), if_pos rfl, List.dropWhile_cons, if_pos isDigit]

theorem digit_of_first {c : Char} (first : '1' ≤ c ∧ c ≤ '9') : c.isDigit = true := by
  rw [isDigit_iff]
  have low : '1'.toNat ≤ c.toNat := first.1
  have high : c.toNat ≤ '9'.toNat := first.2
  exact ⟨Nat.le_trans (by decide) low, high⟩

/-- **Which integers fit 64 bits.** -/
theorem parseInteger_eq {c : Char} (minus : Bool) (first : '1' ≤ c ∧ c ≤ '9') (digits : Digits ds)
    (ends : NoDigit rest) :
    parseInteger minus (c :: (ds ++ rest)) =
      some (if number (c :: ds) ≤ maximum minus then some (number (c :: ds)) else none, rest) := by
  have other : c ≠ '0' := by
    rintro rfl
    exact absurd first.1 (by decide)
  have range := isDigit_iff.1 (digit_of_first first)
  have zero : '0'.toNat = 48 := rfl
  have value : number (c :: ds) = Nat.ofDigitChars 10 ds (c.toNat - '0'.toNat) := by
    rw [number, Nat.ofDigitChars_cons, Nat.mul_zero, Nat.zero_add]
  rw [parseInteger, if_neg other, if_pos first, value]
  dsimp only
  cases minus with
  | true =>
      rw [if_pos rfl, parseDigits_eq rfl rfl (by omega) (by decide) digits ends]
      rfl
  | false =>
      rw [if_neg Bool.false_ne_true, parseDigits_eq rfl rfl (by omega) (by decide) digits ends]
      rfl

theorem parseInteger_sound {minus : Bool} {i : Option Nat}
    (taken : parseInteger minus s = some (i, rest)) :
    ∃ ds, s = ds ++ rest ∧ IntegerText ds ∧
      i = if number ds ≤ maximum minus then some (number ds) else none := by
  cases s with
  | nil => cases taken
  | cons c s =>
      by_cases zero : c = '0'
      · subst zero
        rw [parseInteger, if_pos rfl] at taken
        obtain ⟨rfl, rfl⟩ := Prod.mk.inj (Option.some.inj taken)
        exact ⟨['0'], rfl, .zero, (if_pos (Nat.zero_le _)).symm⟩
      · by_cases first : '1' ≤ c ∧ c ≤ '9'
        · have eq := parseInteger_eq minus first (digits_takeWhile s) (noDigit_dropWhile s)
          rw [List.takeWhile_append_dropWhile, taken] at eq
          obtain ⟨rfl, rfl⟩ := Prod.mk.inj (Option.some.inj eq)
          refine ⟨c :: s.takeWhile Char.isDigit, ?_, .digits first (digits_takeWhile s), rfl⟩
          rw [List.cons_append, List.takeWhile_append_dropWhile]
        · rw [parseInteger, if_neg zero, if_neg first] at taken
          cases taken

theorem parseInteger_complete (minus : Bool) (text : IntegerText ds) (ends : NoDigit rest) :
    parseInteger minus (ds ++ rest) =
      some (if number ds ≤ maximum minus then some (number ds) else none, rest) := by
  cases text with
  | zero =>
      rw [List.cons_append, parseInteger, if_pos rfl]
      rfl
  | digits first digits => exact parseInteger_eq minus first digits ends

theorem skipDigits_eq_some : skipDigits s = some rest ↔
    ∃ ds, s = ds ++ rest ∧ ds ≠ [] ∧ Digits ds ∧ NoDigit rest := by
  unfold skipDigits
  constructor
  · intro skipped
    split at skipped
    · cases skipped
    · rename_i one
      obtain rfl := Option.some.inj skipped
      exact ⟨_, List.takeWhile_append_dropWhile.symm, one, digits_takeWhile s, noDigit_dropWhile s⟩
  · rintro ⟨ds, rfl, one, digits, ends⟩
    rw [takeWhile_digits digits ends, dropWhile_digits digits ends, if_neg one]

/-- Nothing that a number goes on with comes first. -/
def Ends (rest : List Char) : Prop :=
  ∀ c t, rest = c :: t → c.isDigit = false ∧ c ≠ '.' ∧ c ≠ 'e' ∧ c ≠ 'E'

theorem Ends.noDigit (ends : Ends rest) : NoDigit rest := fun c t same => (ends c t same).1

theorem consume_eq_none {c : Char} (other : ∀ t, s ≠ c :: t) : consume c s = none := by
  cases s with
  | nil => rfl
  | cons d t =>
      apply consume_ne
      rintro rfl
      exact other t rfl

theorem parseFraction_sound {fraction : Bool} (taken : parseFraction s = some (fraction, rest)) :
    ∃ word, s = word ++ rest ∧ FractionText word ∧ (fraction = false ↔ word = []) := by
  unfold parseFraction at taken
  split at taken
  · obtain ⟨rfl, rfl⟩ := Prod.mk.inj (Option.some.inj taken)
    exact ⟨[], rfl, .none, iff_of_true rfl rfl⟩
  · rename_i s' point
    obtain ⟨t, skipped, same⟩ := Option.map_eq_some_iff.1 taken
    obtain ⟨rfl, rfl⟩ := Prod.mk.inj same
    obtain ⟨ds, rfl, one, digits, -⟩ := skipDigits_eq_some.1 skipped
    rw [consume_eq_some] at point
    refine ⟨'.' :: ds, point, .digits one digits, ?_⟩
    simp

theorem parseFraction_complete {word : List Char} (text : FractionText word) (ends : NoDigit rest)
    (point : word = [] → ∀ t, rest ≠ '.' :: t) :
    parseFraction (word ++ rest) = some (!word.isEmpty, rest) := by
  cases text with
  | none =>
      rw [List.nil_append, parseFraction, consume_eq_none (point rfl)]
      rfl
  | @digits ds one digits =>
      have skipped := skipDigits_eq_some.2 ⟨ds, (rfl : ds ++ rest = _), one, digits, ends⟩
      rw [List.cons_append, parseFraction, consume_self]
      simp [skipped]

theorem parseSign_sound (s : List Char) :
    ∃ sign, s = sign ++ parseSign s ∧ (sign = [] ∨ sign = ['+'] ∨ sign = ['-']) := by
  unfold parseSign
  split
  · rename_i plus
    exact ⟨['+'], consume_eq_some.1 plus, .inr (.inl rfl)⟩
  · cases minus : consume '-' s with
    | none => exact ⟨[], rfl, .inl rfl⟩
    | some t => exact ⟨['-'], consume_eq_some.1 minus, .inr (.inr rfl)⟩

theorem parseSign_complete {sign : List Char} (signed : sign = [] ∨ sign = ['+'] ∨ sign = ['-'])
    (one : ds ≠ []) (digits : Digits ds) : parseSign (sign ++ (ds ++ rest)) = ds ++ rest := by
  rcases signed with rfl | rfl | rfl
  · obtain ⟨d, ds, rfl⟩ := List.exists_cons_of_ne_nil one
    have digit := digits d List.mem_cons_self
    have plus : d ≠ '+' := by
      rintro rfl
      cases digit
    have minus : d ≠ '-' := by
      rintro rfl
      cases digit
    rw [List.nil_append, List.cons_append, parseSign, consume_ne plus, consume_ne minus]
    rfl
  · rfl
  · rfl

theorem parseExponent_sound {exponent : Bool} (taken : parseExponent s = some (exponent, rest)) :
    ∃ word, s = word ++ rest ∧ ExponentText word ∧ (exponent = false ↔ word = []) := by
  unfold parseExponent at taken
  split at taken
  · obtain ⟨rfl, rfl⟩ := Prod.mk.inj (Option.some.inj taken)
    exact ⟨[], rfl, .none, iff_of_true rfl rfl⟩
  · rename_i s' mark
    obtain ⟨t, skipped, same⟩ := Option.map_eq_some_iff.1 taken
    obtain ⟨rfl, rfl⟩ := Prod.mk.inj same
    obtain ⟨sign, front, signed⟩ := parseSign_sound s'
    obtain ⟨ds, behind, one, digits, -⟩ := skipDigits_eq_some.1 skipped
    obtain ⟨e, either, begin_⟩ : ∃ e, (e = 'e' ∨ e = 'E') ∧ s = e :: s' := by
      rcases Option.or_eq_some_iff.1 mark with small | ⟨-, large⟩
      · exact ⟨'e', .inl rfl, consume_eq_some.1 small⟩
      · exact ⟨'E', .inr rfl, consume_eq_some.1 large⟩
    refine ⟨e :: (sign ++ ds), ?_, .digits either signed one digits, ?_⟩
    · rw [begin_, front, behind]
      simp
    · simp

theorem parseExponent_complete {word : List Char} (text : ExponentText word) (ends : Ends rest) :
    parseExponent (word ++ rest) = some (!word.isEmpty, rest) := by
  cases text with
  | none =>
      have small : consume 'e' rest = none :=
        consume_eq_none fun t same => (ends _ t same).2.2.1 rfl
      have large : consume 'E' rest = none :=
        consume_eq_none fun t same => (ends _ t same).2.2.2 rfl
      rw [List.nil_append, parseExponent, small, large]
      rfl
  | @digits e sign ds mark signed one digits =>
      have skipped := skipDigits_eq_some.2 ⟨ds, (rfl : ds ++ rest = _), one, digits, ends.noDigit⟩
      have joined : e :: (sign ++ ds) ++ rest = e :: (sign ++ (ds ++ rest)) := by simp
      have marked : (consume 'e' (e :: (sign ++ (ds ++ rest)))).or
          (consume 'E' (e :: (sign ++ (ds ++ rest)))) = some (sign ++ (ds ++ rest)) := by
        rcases mark with rfl | rfl
        · rw [consume_self, Option.some_or]
        · rw [consume_ne (by decide), consume_self, Option.none_or]
      rw [joined, parseExponent, marked]
      simp [parseSign_complete signed one digits, skipped]

theorem sign_sound (s : List Char) :
    s = signText (consume '-' s).isSome ++ (consume '-' s).getD s := by
  cases minus : consume '-' s with
  | none => rfl
  | some t => exact consume_eq_some.1 minus

theorem integerText_begins (text : IntegerText ds) : ∃ d t, ds = d :: t ∧ d.isDigit = true := by
  cases text with
  | zero => exact ⟨'0', [], rfl, rfl⟩
  | digits first digits => exact ⟨_, _, rfl, digit_of_first first⟩

theorem sign_complete (minus : Bool) (text : IntegerText ds) :
    consume '-' (signText minus ++ (ds ++ rest)) = if minus then some (ds ++ rest) else none := by
  cases minus with
  | true => rfl
  | false =>
      obtain ⟨d, t, rfl, digit⟩ := integerText_begins text
      apply consume_ne
      rintro rfl
      cases digit

end Numbers

/-! ## Values are read -/

section Values

variable {strtod : List Char → Option Rat}

theorem parseNumber_sound (strtod : List Char → Option Rat) :
    Sound (parseNumber strtod) (NumberText strtod) := by
  intro s v rest taken
  obtain ⟨⟨i, t₁⟩, integer, behind⟩ := Option.bind_eq_some_iff.1 taken
  obtain ⟨⟨fraction, t₂⟩, point, behind'⟩ := Option.bind_eq_some_iff.1 behind
  obtain ⟨⟨exponent, t₃⟩, mark, last⟩ := Option.bind_eq_some_iff.1 behind'
  obtain ⟨ds, front, text, same⟩ := parseInteger_sound integer
  obtain ⟨frac, rfl, text', none'⟩ := parseFraction_sound point
  obtain ⟨exp, rfl, text'', none''⟩ := parseExponent_sound mark
  have whole : s = signText (consume '-' s).isSome ++ (ds ++ (frac ++ exp)) ++ t₃ := by
    conv_lhs => rw [sign_sound s, front]
    simp
  generalize (consume '-' s).isSome = minus at *
  dsimp only at last
  split at last
  · rename_i n neither
    obtain ⟨rfl, rfl⟩ := Prod.mk.inj (Option.some.inj last)
    rw [Bool.or_eq_false_iff] at neither
    obtain rfl := none'.1 neither.1
    obtain rfl := none''.1 neither.2
    rw [List.append_nil, List.append_nil] at whole
    have fits : number ds ≤ maximum minus ∧ number ds = n := by
      by_cases fits : number ds ≤ maximum minus
      · rw [if_pos fits, Option.some.injEq] at same
        exact ⟨fits, same.symm⟩
      · rw [if_neg fits] at same
        cases same
    obtain ⟨fits, rfl⟩ := fits
    exact ⟨_, whole, .int text fits⟩
  · rename_i not_int
    obtain ⟨d, read, result⟩ := Option.map_eq_some_iff.1 last
    obtain ⟨rfl, rfl⟩ := Prod.mk.inj result
    refine ⟨_, whole, .double text text' text'' ?_ ?_⟩
    · rintro rfl rfl
      by_contra fits
      rw [if_pos (Nat.not_lt.1 fits)] at same
      exact not_int _ same (by rw [none'.2 rfl, none''.2 rfl]; rfl)
    · have literal : s.take (s.length - t₃.length) =
          signText minus ++ (ds ++ (frac ++ exp)) := by
        conv_lhs => rw [whole, List.length_append, Nat.add_sub_cancel]
        exact List.take_left
      rwa [literal] at read

theorem noDigit_exponent {exp rest : List Char} (text : ExponentText exp) (ends : Ends rest) :
    NoDigit (exp ++ rest) ∧ ∀ t, exp ++ rest ≠ '.' :: t := by
  cases text with
  | none => exact ⟨ends.noDigit, fun t same => (ends _ t same).2.1 rfl⟩
  | @digits e sign ds mark signed one digits =>
      refine ⟨fun c t same => ?_, fun t same => ?_⟩
      · obtain ⟨rfl, -⟩ := List.cons.inj same
        rcases mark with rfl | rfl
        · rfl
        · rfl
      · obtain ⟨rfl, -⟩ := List.cons.inj same
        rcases mark with no | no
        · cases no
        · cases no

theorem noDigit_fraction {frac rest : List Char} (text : FractionText frac) (ends : NoDigit rest) :
    NoDigit (frac ++ rest) := by
  cases text with
  | none => exact ends
  | digits one digits =>
      intro c t same
      obtain ⟨rfl, -⟩ := List.cons.inj same
      rfl

/-- What is made of a literal. -/
theorem parseNumber_eq {minus : Bool} {ds frac exp rest : List Char} (integer : IntegerText ds)
    (fraction : FractionText frac) (exponent : ExponentText exp) (ends : Ends rest) :
    parseNumber strtod (signText minus ++ (ds ++ (frac ++ exp)) ++ rest) =
      if number ds ≤ maximum minus ∧ frac = [] ∧ exp = [] then
        some (.int (if minus then -number ds else number ds), rest)
      else
        (strtod (signText minus ++ (ds ++ (frac ++ exp)))).map fun d => (.double d, rest) := by
  obtain ⟨digitless, pointless⟩ := noDigit_exponent exponent ends
  have signed : consume '-' (signText minus ++ (ds ++ (frac ++ (exp ++ rest)))) = _ :=
    sign_complete minus integer
  have read := parseInteger_complete minus integer (noDigit_fraction fraction digitless)
  have point := parseFraction_complete fraction digitless fun _ => pointless
  have mark := parseExponent_complete exponent ends
  have whole : signText minus ++ (ds ++ (frac ++ exp)) ++ rest =
      signText minus ++ (ds ++ (frac ++ (exp ++ rest))) := by simp
  have some_ : (consume '-' (signText minus ++ (ds ++ (frac ++ exp)) ++ rest)).isSome = minus := by
    rw [whole, signed]
    cases minus <;> rfl
  have behind : (consume '-' (signText minus ++ (ds ++ (frac ++ exp)) ++ rest)).getD
      (signText minus ++ (ds ++ (frac ++ exp)) ++ rest) = ds ++ (frac ++ (exp ++ rest)) := by
    rw [whole, signed]
    cases minus <;> rfl
  have literal : (signText minus ++ (ds ++ (frac ++ exp)) ++ rest).take
      ((signText minus ++ (ds ++ (frac ++ exp)) ++ rest).length - rest.length) =
      signText minus ++ (ds ++ (frac ++ exp)) := by
    rw [List.length_append, Nat.add_sub_cancel]
    exact List.take_left
  rw [parseNumber, some_, behind, read]
  simp only [Option.bind_eq_bind, Option.bind_some, point, mark, literal]
  by_cases fits : number ds ≤ maximum minus
  · cases frac with
    | nil =>
        cases exp with
        | nil => simp [fits]
        | cons c exp => simp [fits]
    | cons c frac => simp [fits]
  · simp [fits]

theorem parseNumber_complete (n : Nat) :
    Complete n (parseNumber strtod) (NumberText strtod) fun _ rest => Ends rest := by
  intro v word rest _ text ends
  cases text with
  | @int minus ds integer fits =>
      have read := @parseNumber_eq strtod minus _ _ _ _ integer .none .none ends
      rw [List.append_nil, List.append_nil, if_pos ⟨fits, rfl, rfl⟩] at read
      exact read
  | @double minus ds frac exp d integer fraction exponent other literal =>
      rw [parseNumber_eq integer fraction exponent ends, if_neg, literal]
      · rfl
      · rintro ⟨fits, point, mark⟩
        exact absurd fits (Nat.not_le.2 (other point mark))

theorem numberText_begins {v : Value} {word : List Char} (text : NumberText strtod v word) :
    ∃ c t, word = c :: t ∧ (c = '-' ∨ c.isDigit = true) := by
  have begins : ∀ (minus : Bool) {ds : List Char}, IntegerText ds → ∀ rest,
      ∃ c t, signText minus ++ (ds ++ rest) = c :: t ∧ (c = '-' ∨ c.isDigit = true) := by
    intro minus ds integer rest
    cases minus with
    | true => exact ⟨'-', _, rfl, .inl rfl⟩
    | false =>
        obtain ⟨d, t, rfl, digit⟩ := integerText_begins integer
        exact ⟨d, _, rfl, .inr digit⟩
  cases text with
  | @int minus ds integer fits =>
      have first := begins minus integer []
      rwa [List.append_nil] at first
  | double integer fraction exponent other literal => exact begins _ integer _

theorem getType_of_numberText {v : Value} {word : List Char} (text : NumberText strtod v word) :
    v.getType = .number := by
  cases text with
  | int integer fits => rfl
  | double integer fraction exponent other literal => rfl

theorem parseValue_number {n : Nat} {c : Char} (s : List Char) (first : c = '-' ∨ c.isDigit = true) :
    parseValue strtod (n + 1) (c :: s) = parseNumber strtod (c :: s) := by
  have other : ∀ d : Char, d ≠ '-' → d.isDigit = false → c ≠ d := by
    rintro d minus digit rfl
    rcases first with same | same
    · exact minus same
    · rw [digit] at same
      cases same
  rw [parseValue, if_neg (other 'n' (by decide) rfl), if_neg (other 't' (by decide) rfl),
    if_neg (other 'f' (by decide) rfl), if_neg (other '"' (by decide) rfl),
    if_neg (other '\x7b' (by decide) rfl), if_neg (other '[' (by decide) rfl)]

/-- What may follow a value. -/
def Follows (v : Value) (rest : List Char) : Prop := v.getType = .number → Ends rest

theorem follows_of_mark {marks : Marks Char} (marked : marks = elements ∨ marks = members)
    (v : Value) (c : Char) (rest : List Char) (after : marks.After c) : Follows v (c :: rest) := by
  have blank : marks.blank = isSpace := by
    rcases marked with rfl | rfl
    · rfl
    · rfl
  have mark : isSpace c = true ∨ c = ',' ∨ c = ']' ∨ c = '}' := by
    rcases after with skip | sep | close
    · exact .inl (blank ▸ skip)
    · rcases marked with rfl | rfl
      · exact .inr (.inl sep)
      · exact .inr (.inl sep)
    · rcases marked with rfl | rfl
      · exact .inr (.inr (.inl close))
      · exact .inr (.inr (.inr close))
  intro _ d t same
  obtain ⟨rfl, -⟩ := List.cons.inj same
  rcases mark with skip | rfl | rfl | rfl
  · simp only [isSpace, Bool.or_eq_true, decide_eq_true_eq] at skip
    rcases skip with ((rfl | rfl) | rfl) | rfl
    all_goals decide
  all_goals decide

theorem valueText_begins {v : Value} {word : List Char} (text : ValueText strtod v word) :
    ∃ c t, word = c :: t ∧ isSpace c = false ∧ c ≠ ']' := by
  cases text with
  | null => exact ⟨'n', _, rfl, rfl, by decide⟩
  | yes => exact ⟨'t', _, rfl, rfl, by decide⟩
  | no => exact ⟨'f', _, rfl, rfl, by decide⟩
  | number literal =>
      obtain ⟨c, t, rfl, first⟩ := numberText_begins literal
      refine ⟨c, t, rfl, ?_, ?_⟩
      · rcases first with rfl | digit
        · rfl
        · by_contra space
          rw [Bool.not_eq_false] at space
          simp only [isSpace, Bool.or_eq_true, decide_eq_true_eq] at space
          rcases space with ((rfl | rfl) | rfl) | rfl
          all_goals cases digit
      · rintro rfl
        rcases first with no | no
        · cases no
        · cases no
  | string text =>
      cases text with
      | quoted chars => exact ⟨'"', _, rfl, rfl, by decide⟩
  | array list => exact ⟨'[', _, rfl, rfl, by decide⟩
  | object list => exact ⟨'{', _, rfl, rfl, by decide⟩

theorem memberText_begins : Begins members (Paired isSpace ':' StringText (ValueText strtod)) := by
  intro m word text
  cases text with
  | mk name skip skip' value =>
      cases name with
      | quoted chars => exact ⟨'"', _, rfl, rfl, by decide⟩

/-! ## ParseValue -/

theorem parseValue_sound (n : Nat) : Sound (parseValue strtod n) (ValueText strtod) := by
  induction n with
  | zero =>
      intro s v rest taken
      cases taken
  | succ n ih =>
      intro s v rest taken
      cases s with
      | nil => cases taken
      | cons c s =>
          rw [parseValue] at taken
          split at taken
          · rename_i first
            obtain ⟨rfl, rfl⟩ := expect_eq_some.1 taken
            exact ⟨['n', 'u', 'l', 'l'], by rw [first]; rfl, .null⟩
          split at taken
          · rename_i first
            obtain ⟨rfl, rfl⟩ := expect_eq_some.1 taken
            exact ⟨['t', 'r', 'u', 'e'], by rw [first]; rfl, .yes⟩
          split at taken
          · rename_i first
            obtain ⟨rfl, rfl⟩ := expect_eq_some.1 taken
            exact ⟨['f', 'a', 'l', 's', 'e'], by rw [first]; rfl, .no⟩
          split at taken
          · obtain ⟨⟨t, rest'⟩, read, same⟩ := Option.map_eq_some_iff.1 taken
            obtain ⟨rfl, rfl⟩ := Prod.mk.inj same
            obtain ⟨word, front, text⟩ := parseString_sound n _ _ _ read
            exact ⟨word, front, .string text⟩
          split at taken
          · rename_i first
            obtain ⟨⟨ms, rest'⟩, read, same⟩ := Option.map_eq_some_iff.1 taken
            obtain ⟨rfl, rfl⟩ := Prod.mk.inj same
            obtain ⟨word, rfl, text⟩ :=
              listed_sound (paired_sound (parseString_sound n) ih) n _ _ _ read
            exact ⟨_, by rw [first]; rfl, .object text⟩
          split at taken
          · rename_i first
            obtain ⟨⟨xs, rest'⟩, read, same⟩ := Option.map_eq_some_iff.1 taken
            obtain ⟨rfl, rfl⟩ := Prod.mk.inj same
            obtain ⟨word, rfl, text⟩ := listed_sound ih n _ _ _ read
            exact ⟨_, by rw [first]; rfl, .array text⟩
          · obtain ⟨word, front, text⟩ := parseNumber_sound strtod _ _ _ taken
            exact ⟨word, front, .number text⟩

theorem parseValue_complete (n : Nat) :
    Complete n (parseValue strtod n) (ValueText strtod) Follows := by
  induction n with
  | zero =>
      intro v word rest short
      cases short
  | succ n ih =>
      intro v word rest short text follows
      cases text with
      | null =>
          show expect Value.null ['u', 'l', 'l'] (['u', 'l', 'l'] ++ rest) = _
          exact expect_eq_some.2 ⟨rfl, rfl⟩
      | yes =>
          show expect (Value.bool true) ['r', 'u', 'e'] (['r', 'u', 'e'] ++ rest) = _
          exact expect_eq_some.2 ⟨rfl, rfl⟩
      | no =>
          show expect (Value.bool false) ['a', 'l', 's', 'e'] (['a', 'l', 's', 'e'] ++ rest) = _
          exact expect_eq_some.2 ⟨rfl, rfl⟩
      | number literal =>
          have read : parseNumber strtod (word ++ rest) = some (v, rest) :=
            parseNumber_complete (n + 1) v word rest short literal
              (follows (getType_of_numberText literal))
          obtain ⟨c, t, rfl, first⟩ := numberText_begins literal
          rw [← read]
          exact parseValue_number _ first
      | @string t word text =>
          have read := parseString_complete n t word rest short text trivial
          cases text with
          | @quoted t word chars =>
              show Option.map _ (parseString n ('"' :: word ++ rest)) = _
              rw [read]
              rfl
      | @array xs words list =>
          rw [List.length_cons] at short
          have read := listed_complete (fun v word text => valueText_begins text) ih
            (follows_of_mark (.inl rfl)) xs words rest (by omega) list
          show Option.map _ (listed _ _ _ (words ++ rest)) = _
          rw [read]
          rfl
      | @object ms words list =>
          rw [List.length_cons] at short
          have member : Complete n (paired isSpace ':' (parseString n) (parseValue strtod n))
              (Paired isSpace ':' StringText (ValueText strtod)) fun m rest => Follows m.2 rest := by
            apply paired_complete ((parseString_complete n).mono (Nat.le_succ n)) ih rfl
            · intro _ _ _ _
              trivial
            · intro v word text
              obtain ⟨c, t, same, solid, -⟩ := valueText_begins text
              exact ⟨c, t, same, solid⟩
          have read := listed_complete memberText_begins member
            (fun m => follows_of_mark (.inr rfl) m.2) ms words rest (by omega) list
          show Option.map _ (listed _ _ _ (words ++ rest)) = _
          rw [read]
          rfl

/-- **What the reader takes.** -/
theorem parse_iff (strtod : List Char → Option Rat) (text : String) (v : Value) :
    parse strtod text = some v ↔ DocumentText strtod v (cStr text).toList := by
  constructor
  · intro taken
    obtain ⟨⟨v', rest⟩, read, last⟩ := Option.bind_eq_some_iff.1 taken
    dsimp only at last
    split at last
    · rename_i skip'
      obtain rfl := Option.some.inj last
      obtain ⟨gap, skip, front⟩ := exists_gap isSpace (cStr text).toList
      obtain ⟨word, same, value⟩ := parseValue_sound _ _ _ _ read
      rw [front, same]
      exact .mk skip value (List.dropWhile_eq_nil_iff.1 skip')
    · cases last
  · intro document
    generalize whole : (cStr text).toList = s at document
    cases document with
    | @mk v gap word gap' skip value skip' =>
        obtain ⟨c, t, rfl, solid, -⟩ := valueText_begins value
        have follows : Follows v gap' := by
          cases gap' with
          | nil =>
              intro _ d u no
              cases no
          | cons d gap' =>
              exact follows_of_mark (.inl rfl) v d gap' (.inl (skip' d List.mem_cons_self))
        have read := parseValue_complete ((c :: t ++ gap').length + 1) v (c :: t) gap'
          (by simp only [List.length_append]; omega) value follows
        rw [parse, whole, List.cons_append, dropWhile_gap skip solid]
        rw [List.cons_append] at read
        simp only [read, Option.bind_eq_bind, Option.bind_some]
        rw [if_pos (List.dropWhile_eq_nil_iff.2 skip')]

end Values

end ChargerStack.Rapidjson.Reader
