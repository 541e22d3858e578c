/-
# Lib.Scanner -- scanners of texts and the languages they take

A scanner takes a front off a text and says what it stands for; a language says which words stand
for what.  A scanner is right for a language when it takes nothing but words of it (`Sound`), and
every word of it in front of whatever may follow (`Complete`).

* `closed`: items in a row up to a closing mark;
* `paired`: two items with a mark between them;
* `listed`: items with separators between them up to a closing mark, with blanks around them.

Every loop has fuel, which is enough for the words that are shorter.
-/
import Mathlib.Data.List.TakeWhile

namespace ChargerStack.Lib

set_option autoImplicit false

abbrev Scanner (σ α : Type) := List σ → Option (α × List σ)

abbrev Language (σ α : Type) := α → List σ → Prop

namespace Scanner

variable {σ α β : Type}

def Sound (scan : Scanner σ α) (L : Language σ α) : Prop :=
  ∀ s a rest, scan s = some (a, rest) → ∃ word, s = word ++ rest ∧ L a word

/-- Words of less than `n` letters are taken. -/
def Complete (n : Nat) (scan : Scanner σ α) (L : Language σ α) (Before : α → List σ → Prop) : Prop :=
  ∀ a word rest, word.length < n → L a word → Before a rest → scan (word ++ rest) = some (a, rest)

theorem Complete.mono {n m : Nat} {scan : Scanner σ α} {L : Language σ α}
    {Before : α → List σ → Prop} (complete : Complete n scan L Before) (le : m ≤ n) :
    Complete m scan L Before := fun a word rest short =>
  complete a word rest (Nat.lt_of_lt_of_le short le)

/-! ## Blanks and marks -/

def Blank (blank : σ → Bool) (gap : List σ) : Prop := ∀ c ∈ gap, blank c = true

theorem dropWhile_gap {blank : σ → Bool} {gap rest : List σ} {c : σ} (skip : Blank blank gap)
    (solid : blank c = false) : (gap ++ c :: rest).dropWhile blank = c :: rest := by
  induction gap with
  | nil => simp [solid]
  | cons d gap ih =>
      rw [List.cons_append, List.dropWhile_cons, if_pos (skip d List.mem_cons_self)]
      exact ih fun e inside => skip e (List.mem_cons_of_mem d inside)

theorem exists_gap (blank : σ → Bool) (s : List σ) :
    ∃ gap, Blank blank gap ∧ s = gap ++ s.dropWhile blank := by
  refine ⟨s.takeWhile blank, ?_, List.takeWhile_append_dropWhile.symm⟩
  intro c inside
  exact List.mem_takeWhile_imp inside

section Marks

variable [DecidableEq σ]

/-- Takes the expected letter. -/
def consume (expect : σ) : List σ → Option (List σ)
  | [] => none
  | c :: s => if c = expect then some s else none

@[simp] theorem consume_self (c : σ) (s : List σ) : consume c (c :: s) = some s := if_pos rfl

theorem consume_ne {c d : σ} (other : c ≠ d) (s : List σ) : consume d (c :: s) = none := if_neg other

theorem consume_eq_some {c : σ} {s rest : List σ} : consume c s = some rest ↔ s = c :: rest := by
  cases s with
  | nil => simp [consume]
  | cons d s =>
      by_cases same : d = c
      · simp [consume, same]
      · simp [consume, same]

/-- Takes a fixed word. -/
def expect (a : α) (word : List σ) : Scanner σ α := fun s =>
  (word.foldlM (fun s c => consume c s) s).map fun rest => (a, rest)

theorem foldlM_consume {word s rest : List σ} :
    word.foldlM (fun s c => consume c s) s = some rest ↔ s = word ++ rest := by
  induction word generalizing s with
  | nil => simp
  | cons c word ih =>
      rw [List.foldlM_cons, Option.bind_eq_bind, Option.bind_eq_some_iff]
      simp only [consume_eq_some, ih, List.cons_append]
      constructor
      · rintro ⟨t, rfl, rfl⟩
        rfl
      · rintro rfl
        exact ⟨_, rfl, rfl⟩

theorem expect_eq_some {a b : α} {word s rest : List σ} :
    expect a word s = some (b, rest) ↔ b = a ∧ s = word ++ rest := by
  rw [expect, Option.map_eq_some_iff]
  simp only [foldlM_consume, Prod.mk.injEq]
  constructor
  · rintro ⟨t, rfl, rfl, rfl⟩
    exact ⟨rfl, rfl⟩
  · rintro ⟨rfl, rfl⟩
    exact ⟨rest, rfl, rfl, rfl⟩

/-! ## Items in a row -/

def closed (close : σ) (item : Scanner σ α) : Nat → Scanner σ (List α)
  | 0, _ => none
  | n + 1, s =>
      match consume close s with
      | some rest => some ([], rest)
      | none => do
          let (a, s) ← item s
          let (as, rest) ← closed close item n s
          some (a :: as, rest)

inductive Closed (close : σ) (Item : Language σ α) : Language σ (List α)
  | nil : Closed close Item [] [close]
  | cons {a : α} {word : List σ} {as : List α} {words : List σ} (here : Item a word)
      (later : Closed close Item as words) : Closed close Item (a :: as) (word ++ words)

variable {close : σ} {item : Scanner σ α} {Item : Language σ α} {Before : α → List σ → Prop}
  {n : Nat}

/-- The items are looked at only where the closing mark is not. -/
theorem closed_sound (sound : ∀ s a rest, consume close s = none → item s = some (a, rest) →
    ∃ word, s = word ++ rest ∧ Item a word) (n : Nat) :
    Sound (closed close item n) (Closed close Item) := by
  induction n with
  | zero =>
      intro s as rest taken
      cases taken
  | succ n ih =>
      intro s as rest taken
      rw [closed] at taken
      split at taken
      · rename_i here
        obtain ⟨rfl, rfl⟩ := Prod.mk.inj (Option.some.inj taken)
        exact ⟨[close], consume_eq_some.1 here, .nil⟩
      · rename_i open_
        obtain ⟨⟨a, s'⟩, first, taken⟩ := Option.bind_eq_some_iff.1 taken
        obtain ⟨⟨as', rest'⟩, others, taken⟩ := Option.bind_eq_some_iff.1 taken
        obtain ⟨rfl, rfl⟩ := Prod.mk.inj (Option.some.inj taken)
        obtain ⟨word, rfl, here⟩ := sound _ _ _ open_ first
        obtain ⟨words, rfl, later⟩ := ih _ _ _ others
        exact ⟨word ++ words, (List.append_assoc ..).symm, .cons here later⟩

/-- An item does not begin with the closing mark, and may be followed by anything. -/
theorem closed_complete (begins : ∀ a word, Item a word → ∃ c t, word = c :: t ∧ c ≠ close)
    (complete : Complete n item Item fun _ _ => True) :
    Complete n (closed close item n) (Closed close Item) fun _ _ => True := by
  -- with fuel for the word alone
  have enough : ∀ as words, Closed close Item as words → words.length < n → ∀ m,
      words.length ≤ m → ∀ rest, closed close item m (words ++ rest) = some (as, rest) := by
    intro as words text
    induction text with
    | nil =>
        intro short m fuel rest
        obtain ⟨m, rfl⟩ := Nat.exists_eq_add_of_le' fuel
        simp [closed]
    | @cons a word as words here later ih =>
        intro short m fuel rest
        obtain ⟨c, t, rfl, other⟩ := begins a word here
        simp only [List.length_append, List.length_cons] at short fuel
        obtain ⟨m, rfl⟩ : ∃ k, m = k + 1 := ⟨m - 1, by omega⟩
        have first := complete a (c :: t) (words ++ rest) (by simp only [List.length_cons]; omega)
          here trivial
        have others := ih (by omega) m (by omega) rest
        simp only [List.cons_append, List.append_assoc] at first ⊢
        rw [closed, consume_ne other]
        simp [first, others]
  intro as words rest short text _
  exact enough as words text short n short.le rest

end Marks

/-! ## Items with marks between them -/

/-- Blanks, and the marks between and behind the items of a list. -/
structure Marks (σ : Type) where
  blank : σ → Bool
  sep : σ
  close : σ
  sep_solid : blank sep = false
  close_solid : blank close = false
  apart : close ≠ sep

/-- What may stand behind an item. -/
def Marks.After (marks : Marks σ) (c : σ) : Prop :=
  marks.blank c = true ∨ c = marks.sep ∨ c = marks.close

section Lists

variable [DecidableEq σ]

def paired (blank : σ → Bool) (mark : σ) (first : Scanner σ α) (second : Scanner σ β) :
    Scanner σ (α × β) := fun s => do
  let (a, s) ← first s
  let s ← consume mark (s.dropWhile blank)
  let (b, rest) ← second (s.dropWhile blank)
  some ((a, b), rest)

/-- The loop behind the first item of a list. -/
def separated (marks : Marks σ) (item : Scanner σ α) : Nat → Scanner σ (List α)
  | 0, _ => none
  | n + 1, s => do
      let (a, s) ← item s
      match consume marks.sep (s.dropWhile marks.blank) with
      | some s =>
          let (as, rest) ← separated marks item n (s.dropWhile marks.blank)
          some (a :: as, rest)
      | none =>
          let rest ← consume marks.close (s.dropWhile marks.blank)
          some ([a], rest)

def listed (marks : Marks σ) (item : Scanner σ α) (n : Nat) : Scanner σ (List α) := fun s =>
  match consume marks.close (s.dropWhile marks.blank) with
  | some rest => some ([], rest)
  | none => separated marks item n (s.dropWhile marks.blank)

end Lists

inductive Paired (blank : σ → Bool) (mark : σ) (First : Language σ α) (Second : Language σ β) :
    Language σ (α × β)
  | mk {a : α} {b : β} {word gap gap' word' : List σ} (first : First a word)
      (skip : Blank blank gap) (skip' : Blank blank gap') (second : Second b word') :
      Paired blank mark First Second (a, b) (word ++ (gap ++ mark :: (gap' ++ word')))

inductive Separated (marks : Marks σ) (Item : Language σ α) : Language σ (List α)
  | last {a : α} {word gap : List σ} (here : Item a word) (skip : Blank marks.blank gap) :
      Separated marks Item [a] (word ++ (gap ++ [marks.close]))
  | cons {a : α} {as : List α} {word gap gap' words : List σ} (here : Item a word)
      (skip : Blank marks.blank gap) (skip' : Blank marks.blank gap')
      (later : Separated marks Item as words) :
      Separated marks Item (a :: as) (word ++ (gap ++ marks.sep :: (gap' ++ words)))

inductive Listed (marks : Marks σ) (Item : Language σ α) : Language σ (List α)
  | nil {gap : List σ} (skip : Blank marks.blank gap) :
      Listed marks Item [] (gap ++ [marks.close])
  | items {as : List α} {gap words : List σ} (skip : Blank marks.blank gap)
      (separated : Separated marks Item as words) : Listed marks Item as (gap ++ words)

section Words

variable {marks : Marks σ} {Item : Language σ α} {Before : α → List σ → Prop}

/-- Items begin with a letter that is no blank, and no closing mark. -/
def Begins (marks : Marks σ) (Item : Language σ α) : Prop :=
  ∀ a word, Item a word → ∃ c t, word = c :: t ∧ marks.blank c = false ∧ c ≠ marks.close

theorem follows_gap {a : α} {gap rest : List σ} {c : σ}
    (before : ∀ a c rest, marks.After c → Before a (c :: rest)) (skip : Blank marks.blank gap)
    (mark : marks.After c) : Before a (gap ++ c :: rest) := by
  cases gap with
  | nil => exact before a c rest mark
  | cons d gap => exact before a d _ (.inl (skip d List.mem_cons_self))

theorem separated_begins {as : List α} {words : List σ} (begins : Begins marks Item)
    (text : Separated marks Item as words) :
    ∃ c t, words = c :: t ∧ marks.blank c = false ∧ c ≠ marks.close := by
  cases text with
  | @last a word gap here skip =>
      obtain ⟨c, t, rfl, solid, other⟩ := begins a word here
      exact ⟨c, _, List.cons_append, solid, other⟩
  | @cons a as word gap gap' words here skip skip' later =>
      obtain ⟨c, t, rfl, solid, other⟩ := begins a word here
      exact ⟨c, _, List.cons_append, solid, other⟩

end Words

section Rules

variable [DecidableEq σ] {marks : Marks σ} {blank : σ → Bool} {mark : σ} {first : Scanner σ α}
  {second : Scanner σ β} {First : Language σ α} {Second : Language σ β} {item : Scanner σ α}
  {Item : Language σ α} {Before : α → List σ → Prop} {After : β → List σ → Prop} {n : Nat}

theorem paired_sound (left : Sound first First) (right : Sound second Second) :
    Sound (paired blank mark first second) (Paired blank mark First Second) := by
  rintro s ⟨a, b⟩ rest taken
  obtain ⟨⟨a', s₁⟩, one, taken⟩ := Option.bind_eq_some_iff.1 taken
  obtain ⟨s₂, between, taken⟩ := Option.bind_eq_some_iff.1 taken
  obtain ⟨⟨b', rest'⟩, other, taken⟩ := Option.bind_eq_some_iff.1 taken
  simp only [Option.some.injEq, Prod.mk.injEq] at taken
  obtain ⟨⟨rfl, rfl⟩, rfl⟩ := taken
  obtain ⟨word, rfl, here⟩ := left _ _ _ one
  obtain ⟨gap, skip, front⟩ := exists_gap blank s₁
  obtain ⟨gap', skip', front'⟩ := exists_gap blank s₂
  obtain ⟨word', same, there⟩ := right _ _ _ other
  refine ⟨word ++ (gap ++ mark :: (gap' ++ word')), ?_, .mk here skip skip' there⟩
  rw [consume_eq_some] at between
  rw [front, between, front', same]
  simp

/-- The first item may be followed by a blank and by the mark, and the second begins with neither
a blank nor nothing. -/
theorem paired_complete (left : Complete n first First Before)
    (right : Complete n second Second After) (solid : blank mark = false)
    (before : ∀ a c rest, blank c = true ∨ c = mark → Before a (c :: rest))
    (begins : ∀ b word, Second b word → ∃ c t, word = c :: t ∧ blank c = false) :
    Complete n (paired blank mark first second) (Paired blank mark First Second)
      fun ab rest => After ab.2 rest := by
  intro ab w rest short text after
  cases text with
  | @mk a b word gap gap' word' here skip skip' there =>
      obtain ⟨c, t, rfl, starts⟩ := begins b word' there
      simp only [List.length_append, List.length_cons] at short
      have follows : Before a (gap ++ mark :: (gap' ++ c :: t) ++ rest) := by
        cases gap with
        | nil => exact before a mark _ (.inr rfl)
        | cons d gap => exact before a d _ (.inl (skip d List.mem_cons_self))
      have one := left a word _ (by omega) here follows
      have other := right b (c :: t) rest (by simp only [List.length_cons]; omega) there after
      simp only [List.append_assoc, List.cons_append] at one other ⊢
      simp only [paired, one, Option.bind_eq_bind, Option.bind_some, dropWhile_gap skip solid,
        consume_self, dropWhile_gap skip' starts, other]

theorem separated_sound (sound : Sound item Item) (n : Nat) :
    Sound (separated marks item n) (Separated marks Item) := by
  induction n with
  | zero =>
      intro s as rest taken
      cases taken
  | succ n ih =>
      intro s as rest taken
      obtain ⟨⟨a, s₁⟩, one, behind⟩ := Option.bind_eq_some_iff.1 taken
      obtain ⟨word, rfl, here⟩ := sound _ _ _ one
      obtain ⟨gap, skip, front⟩ := exists_gap marks.blank s₁
      dsimp only at behind
      split at behind
      · rename_i s₂ between
        obtain ⟨⟨as', rest'⟩, others, result⟩ := Option.bind_eq_some_iff.1 behind
        obtain ⟨rfl, rfl⟩ := Prod.mk.inj (Option.some.inj result)
        obtain ⟨gap', skip', front'⟩ := exists_gap marks.blank s₂
        obtain ⟨words, same, later⟩ := ih _ _ _ others
        refine ⟨_, ?_, .cons here skip skip' later⟩
        rw [consume_eq_some] at between
        rw [front, between, front', same]
        simp
      · obtain ⟨rest', ending, result⟩ := Option.bind_eq_some_iff.1 behind
        obtain ⟨rfl, rfl⟩ := Prod.mk.inj (Option.some.inj result)
        refine ⟨_, ?_, .last here skip⟩
        rw [consume_eq_some] at ending
        rw [front, ending]
        simp

theorem listed_sound (sound : Sound item Item) (n : Nat) :
    Sound (listed marks item n) (Listed marks Item) := by
  intro s as rest taken
  obtain ⟨gap, skip, front⟩ := exists_gap marks.blank s
  unfold listed at taken
  split at taken
  · rename_i behind
    obtain ⟨rfl, rfl⟩ := Prod.mk.inj (Option.some.inj taken)
    refine ⟨_, ?_, .nil skip⟩
    rw [consume_eq_some] at behind
    rw [front, behind]
    simp
  · obtain ⟨words, same, items⟩ := separated_sound sound n _ _ _ taken
    refine ⟨_, ?_, .items skip items⟩
    rw [front, same]
    simp

theorem separated_complete (begins : Begins marks Item) (complete : Complete n item Item Before)
    (before : ∀ a c rest, marks.After c → Before a (c :: rest)) {as : List α} {words : List σ}
    (text : Separated marks Item as words) (short : words.length ≤ n) :
    ∀ m, words.length ≤ m → ∀ rest, separated marks item m (words ++ rest) = some (as, rest) := by
  induction text with
  | @last a word gap here skip =>
      intro m fuel rest
      simp only [List.length_append, List.length_cons, List.length_nil] at short fuel
      obtain ⟨m, rfl⟩ : ∃ k, m = k + 1 := ⟨m - 1, by omega⟩
      have one := complete a word (gap ++ marks.close :: rest) (by omega) here
        (follows_gap before skip (.inr (.inr rfl)))
      simp only [List.append_assoc, List.cons_append, List.nil_append] at one ⊢
      simp only [separated, one, Option.bind_eq_bind, Option.bind_some,
        dropWhile_gap skip marks.close_solid, consume_ne marks.apart, consume_self]
  | @cons a as word gap gap' words here skip skip' later ih =>
      intro m fuel rest
      obtain ⟨c, t, rfl, solid, -⟩ := separated_begins begins later
      simp only [List.length_append, List.length_cons] at short fuel ih
      obtain ⟨m, rfl⟩ : ∃ k, m = k + 1 := ⟨m - 1, by omega⟩
      have one := complete a word (gap ++ marks.sep :: (gap' ++ c :: t ++ rest)) (by omega) here
        (follows_gap before skip (.inr (.inl rfl)))
      have others := ih (by omega) m (by omega) rest
      simp only [List.append_assoc, List.cons_append] at one others ⊢
      simp only [separated, one, Option.bind_eq_bind, Option.bind_some,
        dropWhile_gap skip marks.sep_solid, consume_self, dropWhile_gap skip' solid, others]

theorem listed_complete (begins : Begins marks Item) (complete : Complete n item Item Before)
    (before : ∀ a c rest, marks.After c → Before a (c :: rest)) :
    ∀ as words rest, words.length ≤ n → Listed marks Item as words →
      listed marks item n (words ++ rest) = some (as, rest) := by
  intro as words rest short text
  cases text with
  | nil skip =>
      simp only [listed, List.append_assoc, List.cons_append, List.nil_append,
        dropWhile_gap skip marks.close_solid, consume_self]
  | @items as gap words skip items =>
      obtain ⟨c, t, rfl, solid, other⟩ := separated_begins begins items
      simp only [List.length_append] at short
      have all := separated_complete begins complete before items (by omega) n (by omega) rest
      simp only [List.append_assoc, List.cons_append] at all ⊢
      simp only [listed, dropWhile_gap skip solid, consume_ne other, all]

end Rules

end Scanner

end ChargerStack.Lib
