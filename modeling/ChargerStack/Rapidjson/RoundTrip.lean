/-
# Rapidjson.RoundTrip -- what the writers put, the reader takes

* `Regular`: what a layout may put around values, as both do;
* `valueText_text`: what is put for a value is a text of it;
* `parse_write`: the reader finds the value again;
* `parse_torn`: and nothing in a part of its text, unless it is a number;
* `parse_front`: whoever wrote a text, a part of it is refused or read as the whole.

A value is `Readable` when its integers have 64 bits and the texts of its doubles are read as these
doubles, which is not so for all: the reader takes them in normal precision.
-/
import ChargerStack.Rapidjson.Grammar
import ChargerStack.Rapidjson.Writer

namespace ChargerStack.Rapidjson.RoundTrip

open Cxx Lib Lib.Scanner Value Reader
open Writer (Layout compact pretty text textElements textMembers writeString writeChar writeInt)

set_option autoImplicit false

/-! ## Values that can be read back -/

section Readable

variable (strtod : List Char → Option Rat) (dtoa : Rat → List Char)

mutual

def Readable : Value → Prop
  | .int i => -2 ^ 63 ≤ i ∧ i < 2 ^ 64
  | .double d => NumberText strtod (.double d) (dtoa d)
  | .array xs => ReadableElements xs
  | .object ms => ReadableMembers ms
  | _ => True

def ReadableElements : List Value → Prop
  | [] => True
  | x :: xs => Readable x ∧ ReadableElements xs

def ReadableMembers : Members → Prop
  | [] => True
  | (_, v) :: ms => Readable v ∧ ReadableMembers ms

end

variable {strtod dtoa}

theorem readable_array {xs : List Value} :
    Readable strtod dtoa (.array xs) ↔ ∀ x ∈ xs, Readable strtod dtoa x := by
  rw [Readable]
  induction xs with
  | nil => simp [ReadableElements]
  | cons x xs ih => rw [ReadableElements, ih, List.forall_mem_cons]

theorem readable_object {ms : Members} :
    Readable strtod dtoa (.object ms) ↔ ∀ m ∈ ms, Readable strtod dtoa m.2 := by
  rw [Readable]
  induction ms with
  | nil => simp [ReadableMembers]
  | cons m ms ih => rw [ReadableMembers, ih, List.forall_mem_cons]

end Readable

/-! ## Leaves -/

/-- The digits of a control character. -/
theorem hex_of_lt : ∀ n < 32, ∃ digits,
    ['0', '0', Writer.hexDigit (n >>> 4), Writer.hexDigit (n &&& 0xF)].mapM hexDigit? = some digits ∧
      hexValue digits = n := by
  have all : ∀ n < 32,
      (['0', '0', Writer.hexDigit (n >>> 4), Writer.hexDigit (n &&& 0xF)].mapM hexDigit?).map hexValue
        = some n := by decide
  intro n small
  exact Option.map_eq_some_iff.1 (all n small)

theorem charText_writeChar (c : Char) : CharText c (writeChar c) := by
  by_cases control : c.toNat < 0x20
  · have short : ∀ e, Writer.escape? c = some e → e ≠ 'u' → Reader.escape? e = some c →
        CharText c (writeChar c) := by
      intro e stands other back
      rw [writeChar, stands]
      dsimp only
      rw [if_neg other]
      exact .escaped back
    by_cases special : c = '\x08' ∨ c = '\t' ∨ c = '\n' ∨ c = '\x0c' ∨ c = '\r'
    · rcases special with rfl | rfl | rfl | rfl | rfl
      · exact short 'b' rfl (by decide) rfl
      · exact short 't' rfl (by decide) rfl
      · exact short 'n' rfl (by decide) rfl
      · exact short 'f' rfl (by decide) rfl
      · exact short 'r' rfl (by decide) rfl
    · have long : Writer.escape? c = some 'u' := by
        simp only [not_or] at special
        simp [Writer.escape?, special, control]
      obtain ⟨digits, read, value⟩ := hex_of_lt c.toNat control
      rw [writeChar, long]
      have text := CharText.unicode (.mk read) (.inl (by rw [value]; omega))
      rw [value, Char.ofNat_toNat] at text
      exact text
  · by_cases quote : c = '"'
    · subst quote
      exact .escaped rfl
    · by_cases slash : c = '\\'
      · subst slash
        exact .escaped rfl
      · have plain : Writer.escape? c = none := by
          have printable : ∀ d : Char, d.toNat < 0x20 → c ≠ d := by
            rintro d small rfl
            exact control small
          simp [Writer.escape?, control, quote, slash, printable]
        rw [writeChar, plain]
        exact .plain (by omega) quote slash

theorem stringText_writeString (s : String) : StringText s (writeString s) := by
  have chars : ∀ cs : List Char, Closed '"' CharText cs (cs.flatMap writeChar ++ ['"']) := by
    intro cs
    induction cs with
    | nil => exact .nil
    | cons c cs ih =>
        rw [List.flatMap_cons, List.append_assoc]
        exact .cons (charText_writeChar c) ih
  exact .quoted (chars s.toList)

theorem toDigits_first (n : Nat) (positive : 0 < n) :
    ∃ c ds, Nat.toDigits 10 n = c :: ds ∧ '1' ≤ c ∧ c ≤ '9' := by
  induction n using Nat.strongRecOn with
  | ind n ih =>
      rw [Nat.toDigits_eq_if (by decide)]
      split
      · rename_i one
        refine ⟨n.digitChar, [], rfl, ?_⟩
        have digits : ∀ d < 10, 0 < d → '1' ≤ Nat.digitChar d ∧ Nat.digitChar d ≤ '9' := by decide
        exact digits n one positive
      · obtain ⟨c, ds, front, first⟩ := ih (n / 10) (by omega) (by omega)
        exact ⟨c, ds ++ [(n % 10).digitChar], by rw [front]; rfl, first⟩

theorem integerText_toDigits (n : Nat) : IntegerText (Nat.toDigits 10 n) := by
  by_cases zero : n = 0
  · subst zero
    rw [Nat.toDigits_zero]
    exact .zero
  · obtain ⟨c, ds, front, first⟩ := toDigits_first n (by omega)
    have digits : Digits (Nat.toDigits 10 n) := fun c inside =>
      Nat.isDigit_of_mem_toDigits (by decide) (by decide) inside
    rw [front] at digits ⊢
    exact .digits first fun d inside => digits d (List.mem_cons_of_mem c inside)

theorem numberText_writeInt (strtod : List Char → Option Rat) {i : Int}
    (range : -2 ^ 63 ≤ i ∧ i < 2 ^ 64) : NumberText strtod (.int i) (writeInt i) := by
  have value : number (Nat.toDigits 10 i.natAbs) = i.natAbs := Nat.ofDigitChars_ten_toDigits
  have integer := integerText_toDigits i.natAbs
  by_cases negative : i < 0
  · have text := @NumberText.int strtod true _ integer
      (by rw [value, maximum, if_pos rfl]; omega)
    rw [value, if_pos rfl, show -(i.natAbs : Int) = i by omega] at text
    rw [writeInt, if_pos negative]
    exact text
  · have text := @NumberText.int strtod false _ integer
      (by rw [value, maximum, if_neg Bool.false_ne_true]; omega)
    rw [value, if_neg Bool.false_ne_true, show (i.natAbs : Int) = i by omega] at text
    rw [writeInt, if_neg negative]
    exact text

/-! ## Layouts -/

/-- A mark with blanks around it. -/
def Marked (mark : Char) (word : List Char) : Prop :=
  ∃ gap gap', word = gap ++ mark :: gap' ∧ Blank isSpace gap ∧ Blank isSpace gap'

/-- Blanks before the first value and at the end, and the mark that has its place elsewhere. -/
structure Regular (layout : Layout) : Prop where
  first : ∀ inArray size, Blank isSpace (layout.before ⟨0, inArray⟩ size)
  comma : ∀ count size, Marked ',' (layout.before ⟨count + 1, true⟩ size)
  comma' : ∀ count size, count % 2 = 1 → Marked ',' (layout.before ⟨count + 1, false⟩ size)
  colon : ∀ count size, count % 2 = 0 → Marked ':' (layout.before ⟨count + 1, false⟩ size)
  ending : ∀ level size, Blank isSpace (layout.ending level size)

theorem blank_nil : Blank isSpace [] := List.forall_mem_nil _

theorem regular_compact : Regular compact where
  first := fun _ _ => blank_nil
  comma := fun count size => ⟨[], [], by simp [compact], blank_nil, blank_nil⟩
  comma' := fun count size odd => by
    have even : (count + 1) % 2 = 0 := by omega
    exact ⟨[], [], by simp [compact, even], blank_nil, blank_nil⟩
  colon := fun count size even => by
    have odd : (count + 1) % 2 = 1 := by omega
    exact ⟨[], [], by simp [compact, odd], blank_nil, blank_nil⟩
  ending := fun _ _ => blank_nil

theorem blank_writeIndent (size : Nat) : Blank isSpace (Writer.writeIndent size) := by
  intro c inside
  rw [List.eq_of_mem_replicate inside]
  rfl

theorem blank_line (size : Nat) : Blank isSpace ('\n' :: Writer.writeIndent size) :=
  List.forall_mem_cons.2 ⟨rfl, blank_writeIndent size⟩

theorem regular_pretty : Regular pretty where
  first := fun inArray size => by
    cases inArray with
    | true => simpa [pretty] using blank_line size
    | false => simpa [pretty] using blank_line size
  comma := fun count size =>
    ⟨[], '\n' :: Writer.writeIndent size, by simp [pretty], blank_nil, blank_line size⟩
  comma' := fun count size odd => by
    have even : (count + 1) % 2 = 0 := by omega
    exact ⟨[], '\n' :: Writer.writeIndent size, by simp [pretty, even], blank_nil, blank_line size⟩
  colon := fun count size even => by
    have odd : (count + 1) % 2 = 1 := by omega
    refine ⟨[], [' '], by simp [pretty, odd], blank_nil, ?_⟩
    exact List.forall_mem_cons.2 ⟨rfl, blank_nil⟩
  ending := fun level size => by
    simp only [pretty]
    split
    · exact blank_nil
    · exact blank_line size

/-! ## The text of a value -/

section Texts

variable {strtod : List Char → Option Rat} {dtoa : Rat → List Char} {layout : Layout}

/-- The elements behind the first mark. -/
theorem separated_textElements (regular : Regular layout) (size : Nat) {end_ : List Char}
    (skip : Blank isSpace end_) (x : Value) (xs : List Value) (count : Nat)
    (each : ∀ y ∈ x :: xs, ValueText strtod y (text layout dtoa size y)) :
    ∃ words, textElements layout dtoa size count (x :: xs) ++ (end_ ++ [']']) =
        layout.before ⟨count, true⟩ size ++ words ∧
      Separated elements (ValueText strtod) (x :: xs) words := by
  induction xs generalizing x count with
  | nil =>
      refine ⟨text layout dtoa size x ++ (end_ ++ [']']), ?_, ?_⟩
      · simp [textElements]
      · exact .last (each x List.mem_cons_self) skip
  | cons y ys ih =>
      obtain ⟨words, front, separated⟩ := ih y (count + 1) fun z inside =>
        each z (List.mem_cons_of_mem x inside)
      obtain ⟨gap, gap', mark, skip', skip''⟩ := regular.comma count size
      refine ⟨text layout dtoa size x ++ (gap ++ ',' :: (gap' ++ words)), ?_, ?_⟩
      · rw [mark] at front
        rw [textElements, List.append_assoc, List.append_assoc, front]
        simp
      · exact .cons (each x List.mem_cons_self) skip' skip'' separated

theorem separated_textMembers (regular : Regular layout) (size : Nat) {end_ : List Char}
    (skip : Blank isSpace end_) (m : String × Value) (ms : Members) (count : Nat)
    (even : count % 2 = 0)
    (each : ∀ n ∈ m :: ms, ValueText strtod n.2 (text layout dtoa size n.2)) :
    ∃ words, textMembers layout dtoa size count (m :: ms) ++ (end_ ++ ['\x7d']) =
        layout.before ⟨count, false⟩ size ++ words ∧
      Separated members (Paired isSpace ':' StringText (ValueText strtod)) (m :: ms) words := by
  induction ms generalizing m count with
  | nil =>
      obtain ⟨gap, gap', mark, skip', skip''⟩ := regular.colon count size even
      have member : Paired isSpace ':' StringText (ValueText strtod) m _ :=
        .mk (stringText_writeString m.1) skip' skip'' (each m List.mem_cons_self)
      refine ⟨_, ?_, .last member skip⟩
      simp [textMembers, mark]
      rfl
  | cons n ns ih =>
      obtain ⟨words, front, separated⟩ := ih n (count + 2) (by omega) fun l inside =>
        each l (List.mem_cons_of_mem m inside)
      obtain ⟨gap, gap', mark, skip', skip''⟩ := regular.colon count size even
      obtain ⟨gap₁, gap₂, mark', skip₁, skip₂⟩ := regular.comma' (count + 1) size (by omega)
      have member : Paired isSpace ':' StringText (ValueText strtod) m _ :=
        .mk (stringText_writeString m.1) skip' skip'' (each m List.mem_cons_self)
      refine ⟨_, ?_, .cons member skip₁ skip₂ separated⟩
      rw [mark'] at front
      rw [textMembers, mark]
      simp only [List.append_assoc, List.cons_append] at front ⊢
      rw [front]
      rfl

/-- **What is put for a value is a text of it.** -/
theorem valueText_text (regular : Regular layout) (v : Value) (size : Nat)
    (readable : Readable strtod dtoa v) : ValueText strtod v (text layout dtoa size v) := by
  induction v using byParts generalizing size with
  | leaf v object array =>
      cases v with
      | null => exact .null
      | bool b =>
          cases b with
          | true => exact .yes
          | false => exact .no
      | int i => exact .number (numberText_writeInt strtod readable)
      | double d => exact .number readable
      | string s => exact .string (stringText_writeString s)
      | array xs => cases array
      | object ms => cases object
  | array xs ih =>
      rw [readable_array] at readable
      rw [text]
      apply ValueText.array
      cases xs with
      | nil => exact .nil (regular.ending _ _)
      | cons x xs =>
          obtain ⟨words, front, separated⟩ := separated_textElements regular (size + 1)
            (regular.ending ⟨(x :: xs).length, true⟩ size) x xs 0 fun y inside =>
              ih y inside (size + 1) (readable y inside)
          rw [front]
          exact .items (regular.first true _) separated
  | object ms ih =>
      rw [readable_object] at readable
      rw [text]
      apply ValueText.object
      cases ms with
      | nil => exact .nil (regular.ending _ _)
      | cons m ms =>
          obtain ⟨words, front, separated⟩ := separated_textMembers regular (size + 1)
            (regular.ending ⟨2 * (m :: ms).length, false⟩ size) m ms 0 rfl fun n inside =>
              ih n inside (size + 1) (readable n inside)
          rw [front]
          exact .items (regular.first false _) separated

/-! ## No NUL -/

theorem nul_notMem_blank {gap : List Char} (skip : Blank isSpace gap) : nul ∉ gap := by
  intro inside
  cases skip nul inside

theorem nul_notMem_marked {mark : Char} {word : List Char} (marked : Marked mark word)
    (other : nul ≠ mark) : nul ∉ word := by
  obtain ⟨gap, gap', rfl, skip, skip'⟩ := marked
  simp [nul_notMem_blank skip, nul_notMem_blank skip', other]

theorem nul_notMem_digits {ds : List Char} (digits : Digits ds) : nul ∉ ds := by
  intro inside
  cases digits nul inside

theorem nul_notMem_integer {ds : List Char} (text : IntegerText ds) : nul ∉ ds := by
  apply nul_notMem_digits
  cases text with
  | zero => exact List.forall_mem_cons.2 ⟨rfl, List.forall_mem_nil _⟩
  | digits first digits => exact List.forall_mem_cons.2 ⟨digit_of_first first, digits⟩

theorem nul_notMem_sign (minus : Bool) : nul ∉ signText minus := by
  cases minus <;> decide

theorem nul_notMem_number {v : Value} {word : List Char} (text : NumberText strtod v word) :
    nul ∉ word := by
  cases text with
  | @int minus ds integer fits =>
      simp [nul_notMem_sign minus, nul_notMem_integer integer]
  | @double minus ds frac exp d integer fraction exponent other read =>
      have point : nul ∉ frac := by
        cases fraction with
        | none => exact List.not_mem_nil
        | digits one digits =>
            rw [List.mem_cons, not_or]
            exact ⟨by decide, nul_notMem_digits digits⟩
      have mark : nul ∉ exp := by
        cases exponent with
        | none => exact List.not_mem_nil
        | digits either signed one digits =>
            rw [List.mem_cons, List.mem_append, not_or, not_or]
            refine ⟨?_, ?_, nul_notMem_digits digits⟩
            · rcases either with rfl | rfl
              all_goals decide
            · rcases signed with rfl | rfl | rfl
              all_goals decide
      simp [nul_notMem_sign minus, nul_notMem_integer integer, point, mark]

theorem hexDigit_ne_nul (n : Nat) : nul ≠ Writer.hexDigit n := by
  by_cases small : n < 16
  · have all : ∀ n < 16, nul ≠ Writer.hexDigit n := by decide
    exact all n small
  · rw [Writer.hexDigit, List.getD_eq_getElem?_getD, List.getElem?_eq_none (Nat.not_lt.1 small)]
    decide

theorem nul_notMem_writeChar (c : Char) : nul ∉ writeChar c := by
  unfold writeChar
  split
  · rename_i plain
    rw [List.mem_singleton]
    rintro rfl
    cases plain
  · rename_i e stands
    have printed : nul ≠ e := by
      rintro rfl
      unfold Writer.escape? at stands
      repeat' split at stands
      all_goals simp_all [nul]
    rw [List.mem_cons, List.mem_cons, not_or, not_or]
    refine ⟨by decide, printed, ?_⟩
    split
    · simp only [List.mem_cons, List.not_mem_nil, or_false, not_or]
      exact ⟨by decide, by decide, hexDigit_ne_nul _, hexDigit_ne_nul _⟩
    · exact List.not_mem_nil

theorem nul_notMem_writeString (s : String) : nul ∉ writeString s := by
  have quote : nul ≠ '"' := by decide
  simp [writeString, quote, nul_notMem_writeChar]

theorem nul_notMem_textElements (regular : Regular layout) (size : Nat) (xs : List Value)
    (count : Nat) (each : ∀ x ∈ xs, nul ∉ text layout dtoa size x) :
    nul ∉ textElements layout dtoa size count xs := by
  induction xs generalizing count with
  | nil => exact List.not_mem_nil
  | cons x xs ih =>
      have before : nul ∉ layout.before ⟨count, true⟩ size := by
        cases count with
        | zero => exact nul_notMem_blank (regular.first true size)
        | succ count => exact nul_notMem_marked (regular.comma count size) (by decide)
      have later := ih (count + 1) fun y inside => each y (List.mem_cons_of_mem x inside)
      simp [textElements, before, each x List.mem_cons_self, later]

theorem nul_notMem_textMembers (regular : Regular layout) (size : Nat) (ms : Members)
    (count : Nat) (even : count % 2 = 0) (each : ∀ m ∈ ms, nul ∉ text layout dtoa size m.2) :
    nul ∉ textMembers layout dtoa size count ms := by
  induction ms generalizing count with
  | nil => exact List.not_mem_nil
  | cons m ms ih =>
      have before : nul ∉ layout.before ⟨count, false⟩ size := by
        cases count with
        | zero => exact nul_notMem_blank (regular.first false size)
        | succ count => exact nul_notMem_marked (regular.comma' count size (by omega)) (by decide)
      have between := nul_notMem_marked (regular.colon count size even) (by decide)
      have later := ih (count + 2) (by omega) fun n inside => each n (List.mem_cons_of_mem m inside)
      simp [textMembers, before, between, nul_notMem_writeString, each m List.mem_cons_self, later]

theorem nul_notMem_text (regular : Regular layout) (v : Value) (size : Nat)
    (readable : Readable strtod dtoa v) : nul ∉ text layout dtoa size v := by
  induction v using byParts generalizing size with
  | leaf v object array =>
      cases v with
      | null =>
          rw [text]
          decide
      | bool b =>
          rw [text]
          cases b <;> decide
      | int i => exact nul_notMem_number (numberText_writeInt strtod readable)
      | double d => exact nul_notMem_number readable
      | string s => exact nul_notMem_writeString s
      | array xs => cases array
      | object ms => cases object
  | array xs ih =>
      rw [readable_array] at readable
      have inside := nul_notMem_textElements regular (size + 1) xs 0 fun x inside =>
        ih x inside (size + 1) (readable x inside)
      have ending := nul_notMem_blank (regular.ending ⟨xs.length, true⟩ size)
      have marks : nul ≠ '[' ∧ nul ≠ ']' := by decide
      simp [text, inside, ending, marks]
  | object ms ih =>
      rw [readable_object] at readable
      have inside := nul_notMem_textMembers regular (size + 1) ms 0 rfl fun m inside =>
        ih m inside (size + 1) (readable m inside)
      have ending := nul_notMem_blank (regular.ending ⟨2 * ms.length, false⟩ size)
      have marks : nul ≠ '\x7b' ∧ nul ≠ '\x7d' := by decide
      simp [text, inside, ending, marks]

/-! ## What is read -/

/-- Only numbers begin with a digit or a minus. -/
theorem numeric_iff {v : Value} {c : Char} {t : List Char} (value : ValueText strtod v (c :: t)) :
    (c = '-' ∨ c.isDigit = true) ↔ v.getType = .number := by
  generalize whole : c :: t = word at value
  cases value with
  | number literal =>
      obtain ⟨d, u, rfl, first⟩ := numberText_begins literal
      obtain ⟨rfl, rfl⟩ := List.cons.inj whole
      exact iff_of_true first (getType_of_numberText literal)
  | string text =>
      cases text with
      | quoted chars =>
          obtain ⟨rfl, -⟩ := List.cons.inj whole
          exact iff_of_false (by decide) nofun
  | _ =>
      obtain ⟨rfl, -⟩ := List.cons.inj whole
      exact iff_of_false (by decide) nofun

/-- Where a text holds a value, there is one way to take it, unless it is a number. -/
theorem valueText_front {v v' : Value} {word word' after after' : List Char}
    (value : ValueText strtod v word) (other : v.getType ≠ .number)
    (value' : ValueText strtod v' word') (same : word ++ after = word' ++ after') :
    v' = v ∧ after' = after := by
  obtain ⟨c, t, rfl, -, -⟩ := valueText_begins value
  obtain ⟨c', t', rfl, -, -⟩ := valueText_begins value'
  have follows : Follows v' after' := by
    intro number
    obtain ⟨rfl, -⟩ := List.cons.inj same
    exact absurd ((numeric_iff value).1 ((numeric_iff value').2 number)) other
  have read := parseValue_complete ((c :: t).length + (c' :: t').length + 1) v (c :: t) after
    (by omega) value fun number => absurd number other
  have read' := parseValue_complete ((c :: t).length + (c' :: t').length + 1) v' (c' :: t') after'
    (by omega) value' follows
  rw [same, read'] at read
  exact Prod.mk.inj (Option.some.inj read)

/-- A part of a text, unless it is one of a number, is not the beginning of a document. -/
theorem not_documentText_front {v v' : Value} {front rest : List Char}
    (value : ValueText strtod v (front ++ rest)) (other : v.getType ≠ .number) (more : rest ≠ []) :
    ¬ DocumentText strtod v' front := by
  intro document
  cases document with
  | @mk v' gap word gap' skip value' skip' =>
      obtain ⟨c, t, same, solid, -⟩ := valueText_begins value
      have flush : gap = [] := by
        cases gap with
        | nil => rfl
        | cons e gap =>
            obtain ⟨rfl, -⟩ := List.cons.inj same
            rw [skip e List.mem_cons_self] at solid
            cases solid
      subst flush
      have whole : [] ++ (word ++ gap') ++ rest ++ [] = word ++ (gap' ++ rest) := by simp
      obtain ⟨-, left⟩ := valueText_front value other value' whole
      exact more (List.append_eq_nil_iff.1 left).2

/-- A document that begins another one has the same value: the rest is blank. -/
theorem documentText_front {v v' : Value} {front rest : List Char}
    (whole : DocumentText strtod v (front ++ rest)) (other : v.getType ≠ .number)
    (document : DocumentText strtod v' front) : v' = v := by
  generalize text : front ++ rest = s at whole
  cases whole with
  | @mk v gap word gap₂ skip value skip₂ =>
      cases document with
      | @mk v' gap' word' gap₂' skip' value' skip₂' =>
          obtain ⟨c, t, rfl, solid, -⟩ := valueText_begins value
          obtain ⟨c', t', rfl, solid', -⟩ := valueText_begins value'
          have left : (gap ++ (c :: t ++ gap₂)).dropWhile isSpace = c :: t ++ gap₂ :=
            dropWhile_gap skip solid
          have right : (gap' ++ (c' :: t' ++ (gap₂' ++ rest))).dropWhile isSpace =
              c' :: t' ++ (gap₂' ++ rest) := dropWhile_gap skip' solid'
          have same : c :: t ++ gap₂ = c' :: t' ++ (gap₂' ++ rest) := by
            rw [← left, ← right, ← text]
            simp only [List.append_assoc]
          exact (valueText_front value other value' same).1

end Texts

/-- What is left of a C string when the text is cut. -/
theorem cStr_take (text : String) (n : Nat) : ∃ rest, (cStr text).toList =
    (cStr (String.ofList (text.toList.take n))).toList ++ rest := by
  have split : (text.toList.take n ++ text.toList.drop n).takeWhile (· ≠ nul) = _ :=
    List.takeWhile_append
  rw [List.take_append_drop] at split
  simp only [cStr, String.toList_ofList]
  rw [split]
  split_ifs with all
  · have front := (List.takeWhile_prefix (p := fun c => decide (c ≠ nul))).eq_of_length all
    exact ⟨_, by rw [front]⟩
  · exact ⟨[], (List.append_nil _).symm⟩

/-- **A text that is cut off is refused, or is read as it was**, unless it is that of a number. -/
theorem parse_front (strtod : List Char → Option Rat) (text : String) (v : Value)
    (read : parse strtod text = some v) (other : v.getType ≠ .number) (n : Nat) :
    parse strtod (String.ofList (text.toList.take n)) = none ∨
      parse strtod (String.ofList (text.toList.take n)) = some v := by
  cases part : parse strtod (String.ofList (text.toList.take n)) with
  | none => exact .inl rfl
  | some v' =>
      apply Or.inr
      rw [parse_iff] at read part
      obtain ⟨rest, whole⟩ := cStr_take text n
      rw [whole] at read
      rw [documentText_front read other part]

theorem parse_front_blank :
    let text := "[1, \x7b\x7d]  "
    parse (fun _ => none) text = some (.array [.int 1, .object []]) ∧
      (parse (fun _ => none) (String.ofList (text.toList.take 5)) = none ∨
        parse (fun _ => none) (String.ofList (text.toList.take 5)) =
          some (.array [.int 1, .object []])) := by
  have read : parse (fun _ => none) "[1, \x7b\x7d]  " = some (.array [.int 1, .object []]) := rfl
  exact ⟨read, parse_front _ _ _ read nofun 5⟩

/-- The layouts of the two writers. -/
theorem regular_of_mem {layout : Layout} (one : layout ∈ [compact, pretty]) : Regular layout := by
  rcases List.mem_pair.1 one with rfl | rfl
  · exact regular_compact
  · exact regular_pretty

/-- The texts of a value with 64-bit integers and doubles that are read as they are written, in
either layout. -/
theorem parse_text {strtod : List Char → Option Rat} {dtoa : Rat → List Char} {layout : Layout}
    (regular : Regular layout) {v : Value} (readable : Readable strtod dtoa v) :
    parse strtod (String.ofList (text layout dtoa 0 v)) = some v := by
  have free : nul ∉ text layout dtoa 0 v := nul_notMem_text regular v 0 readable
  rw [parse_iff, cStr_of_nulFree (nulFree_ofList free), String.toList_ofList]
  have document := DocumentText.mk blank_nil (valueText_text regular v 0 readable) blank_nil
  rwa [List.nil_append, List.append_nil] at document

theorem parse_text_front {strtod : List Char → Option Rat} {dtoa : Rat → List Char} {layout : Layout}
    (regular : Regular layout) {v : Value} (readable : Readable strtod dtoa v)
    (other : v.getType ≠ .number) {n : Nat} (short : n < (text layout dtoa 0 v).length) :
    parse strtod (String.ofList ((text layout dtoa 0 v).take n)) = none := by
  have free : nul ∉ (text layout dtoa 0 v).take n := fun inside =>
    nul_notMem_text regular v 0 readable (List.mem_of_mem_take inside)
  cases read : parse strtod (String.ofList ((text layout dtoa 0 v).take n)) with
  | none => rfl
  | some v' =>
      rw [parse_iff, cStr_of_nulFree (nulFree_ofList free), String.toList_ofList] at read
      have value := valueText_text regular v 0 readable
      rw [← List.take_append_drop n (text layout dtoa 0 v)] at value
      refine absurd read (not_documentText_front value other ?_)
      rw [ne_eq, List.drop_eq_nil_iff]
      omega

/-- **What either writer puts is read back.**  The events of a value run into no assertion, and the
reader finds in the text the value that was written. -/
theorem parse_write (strtod : List Char → Option Rat) (dtoa : Rat → List Char) (layout : Layout)
    (one : layout ∈ [compact, pretty]) (v : Value) (readable : Readable strtod dtoa v) :
    ∃ s, Writer.write layout dtoa v = .ok s ∧ parse strtod (String.ofList s) = some v :=
  ⟨_, Writer.write_eq layout dtoa v, parse_text (regular_of_mem one) readable⟩

/-- A value of every structure, with an escaped quote and an escaped line feed. -/
def sample : Value :=
  .object [("offsets", .array [.int (-7), .int 0]), ("label", .string "a\"b\n"), ("on", .bool true)]

theorem sample_readable : Readable (fun _ => none) (fun _ => []) sample := by
  simp [sample, Readable, ReadableElements, ReadableMembers]

theorem parse_write_sample :
    ∃ s, Writer.write pretty (fun _ => []) sample = .ok s ∧
      parse (fun _ => none) (String.ofList s) = some sample :=
  parse_write _ _ pretty (by simp) sample sample_readable

end ChargerStack.Rapidjson.RoundTrip
