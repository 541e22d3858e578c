/-
# Lib.Regex -- backtracking regular expressions, as a matcher runs them

`run` is the usual matcher with a continuation: an alternative is tried before the next
one, a repetition takes one more round before it stops, and the first way on which the
rest of the pattern succeeds is the match.  What a pattern means is in that order, so
the lemmas say which way is the first:

* `run_group_star`, `run_group_plus`: a repeated class takes all it can, provided the rest
  of the pattern cannot do with one character more what it cannot do without it.
* `run_within`: what a match runs over is made of the characters of the pattern's classes.
-/
import Mathlib.Data.List.TakeWhile

namespace ChargerStack.Lib

set_option autoImplicit false

variable {α β : Type}

/-- A pattern; a class is the predicate of its characters. -/
inductive Regex (α : Type) where
  | eps
  | chars (p : α → Bool)
  | seq (first next : Regex α)
  | alt (first next : Regex α)
  | star (r : Regex α)
  | group (n : Nat) (r : Regex α)

/-- The texts of the groups that took part, the last one first. -/
abbrev Captures (α : Type) := List (Nat × List α)

/-- The text of a group; that of a group that took no part is empty. -/
def Captures.str (m : Captures α) (n : Nat) : List α := (m.lookup n).getD []

namespace Regex

/-- `(r)?`. -/
def opt (r : Regex α) : Regex α := alt r eps

/-- `r+`. -/
def plus (r : Regex α) : Regex α := seq r (star r)

/-- `r{0,n}`. -/
def upTo (r : Regex α) : Nat → Regex α
  | 0 => eps
  | n + 1 => opt (seq r (upTo r n))

def char [DecidableEq α] (c : α) : Regex α := chars fun d => d = c

/-- One character after the other. -/
def literal [DecidableEq α] (cs : List α) : Regex α := cs.foldr (fun c r => seq (char c) r) eps

/-- Rounds of `step` while they get on, and the rest `k` from where they end; `fuel` is a bound
on the rounds that can still get on. -/
def rounds (step : List α → Captures α → (List α → Captures α → Option β) → Option β) :
    Nat → List α → Captures α → (List α → Captures α → Option β) → Option β
  | 0, s, g, k => k s g
  | fuel + 1, s, g, k =>
      (step s g fun s' g' => if s'.length < s.length then rounds step fuel s' g' k else none).or
        (k s g)

/-- The first way through the pattern from `s` on which `k` succeeds on what is left. -/
def run : Regex α → List α → Captures α → (List α → Captures α → Option β) → Option β
  | eps, s, g, k => k s g
  | chars _, [], _, _ => none
  | chars p, c :: s, g, k => if p c then k s g else none
  | seq first next, s, g, k => run first s g fun s' g' => run next s' g' k
  | alt first next, s, g, k => (run first s g k).or (run next s g k)
  | star r, s, g, k => rounds (run r) s.length s g k
  | group n r, s, g, k =>
      run r s g fun s' g' => k s' ((n, s.take (s.length - s'.length)) :: g')

/-- The end of a pattern that has to take the whole text. -/
def finish (s : List α) (g : Captures α) : Option (Captures α) := if s = [] then some g else none

/-- The groups of the first match of the whole text. -/
def regexMatch (r : Regex α) (s : List α) : Option (Captures α) := run r s [] finish

variable {r : Regex α} {s : List α} {g : Captures α} {k : List α → Captures α → Option β}

@[simp] theorem run_eps : run eps s g k = k s g := rfl

@[simp] theorem run_chars_nil {p : α → Bool} : run (chars p) [] g k = none := rfl

@[simp] theorem run_chars_cons {p : α → Bool} {c : α} :
    run (chars p) (c :: s) g k = if p c then k s g else none := rfl

@[simp] theorem run_seq {first next : Regex α} :
    run (seq first next) s g k = run first s g fun s' g' => run next s' g' k := rfl

@[simp] theorem run_alt {first next : Regex α} :
    run (alt first next) s g k = (run first s g k).or (run next s g k) := rfl

@[simp] theorem run_opt : run (opt r) s g k = (run r s g k).or (k s g) := rfl

@[simp] theorem run_group {n : Nat} : run (group n r) s g k =
    run r s g fun s' g' => k s' ((n, s.take (s.length - s'.length)) :: g') := rfl

theorem run_plus : run (plus r) s g k = run r s g fun s' g' => run (star r) s' g' k := rfl

@[simp] theorem run_char_nil [DecidableEq α] {c : α} : run (char c) [] g k = none := rfl

@[simp] theorem run_char_cons [DecidableEq α] {c d : α} :
    run (char c) (d :: s) g k = if d = c then k s g else none := by
  simp [char]

/-! ## A repeated class -/

/-- The rest of the pattern can do without a character of the class whatever it can do with it. -/
def Spares (p : α → Bool) (k : List α → Captures α → Option β) : Prop :=
  ∀ c s g g', p c = true → k s g = none → k (c :: s) g' = none

/-- The rest of the pattern cannot begin inside the class. -/
theorem spares_of_stuck {p : α → Bool} (stuck : ∀ c s g, p c = true → k (c :: s) g = none) :
    Spares p k :=
  fun c s _ g' inside _ => stuck c s g' inside

theorem Spares.dropWhile {p : α → Bool} (spares : Spares p k)
    (failed : k (s.dropWhile p) g = none) : k s g = none := by
  induction s with
  | nil => exact failed
  | cons c s ih =>
      cases inside : p c with
      | true =>
          rw [List.dropWhile_cons_of_pos inside] at failed
          exact spares c s g g inside (ih failed)
      | false => rwa [List.dropWhile_cons_of_neg (by simp [inside])] at failed

theorem rounds_chars {p : α → Bool} {fuel : Nat} (enough : s.length ≤ fuel) (spares : Spares p k) :
    rounds (run (chars p)) fuel s g k = k (s.dropWhile p) g := by
  induction fuel generalizing s with
  | zero =>
      obtain rfl : s = [] := List.length_eq_zero_iff.1 (Nat.le_zero.1 enough)
      rfl
  | succ fuel ih =>
      cases s with
      | nil => rfl
      | cons c s =>
          have shorter : s.length ≤ fuel := by
            rw [List.length_cons] at enough
            omega
          cases inside : p c with
          | false =>
              rw [List.dropWhile_cons_of_neg (by simp [inside])]
              simp [rounds, inside]
          | true =>
              rw [List.dropWhile_cons_of_pos inside]
              simp only [rounds, run_chars_cons, inside, if_true, List.length_cons,
                Nat.lt_succ_self, ih shorter]
              cases result : k (s.dropWhile p) g with
              | some b => rfl
              | none => exact spares c s g g inside (spares.dropWhile result)

/-- **A repeated class takes all it can.** -/
theorem run_star_chars {p : α → Bool} (spares : Spares p k) :
    run (star (chars p)) s g k = k (s.dropWhile p) g :=
  rounds_chars (Nat.le_refl s.length) spares

/-- The same where there has to be a character. -/
theorem run_plus_chars {p : α → Bool} (spares : Spares p k) :
    run (plus (chars p)) s g k =
      if s.takeWhile p = [] then none else k (s.dropWhile p) g := by
  rw [run_plus]
  cases s with
  | nil => rfl
  | cons c s =>
      cases inside : p c with
      | true => simp [inside, run_star_chars spares]
      | false => simp [inside]

/-- What a group over a repeated class has taken. -/
theorem take_sub_dropWhile (p : α → Bool) (s : List α) :
    s.take (s.length - (s.dropWhile p).length) = s.takeWhile p := by
  have whole : (s.takeWhile p).length + (s.dropWhile p).length = s.length := by
    rw [← List.length_append, List.takeWhile_append_dropWhile]
  rw [show s.length - (s.dropWhile p).length = (s.takeWhile p).length by omega]
  exact (List.prefix_iff_eq_take.1 (List.takeWhile_prefix p)).symm

theorem Spares.group {p : α → Bool} (spares : Spares p k) (n : Nat) (text : List α → List α) :
    Spares p fun s g => k s ((n, text s) :: g) :=
  fun c s g g' => spares c s ((n, text s) :: g) ((n, text (c :: s)) :: g')

theorem run_group_star {p : α → Bool} {n : Nat} (spares : Spares p k) :
    run (group n (star (chars p))) s g k = k (s.dropWhile p) ((n, s.takeWhile p) :: g) := by
  rw [run_group, run_star_chars (spares.group n _), take_sub_dropWhile]

theorem run_group_plus {p : α → Bool} {n : Nat} (spares : Spares p k) :
    run (group n (plus (chars p))) s g k =
      if s.takeWhile p = [] then none else k (s.dropWhile p) ((n, s.takeWhile p) :: g) := by
  rw [run_group, run_plus_chars (spares.group n _), take_sub_dropWhile]

/-! ## The characters of a match -/

/-- Every class of the pattern lies in `q`. -/
def Within (q : α → Prop) : Regex α → Prop
  | eps => True
  | chars p => ∀ c, p c = true → q c
  | seq first next => Within q first ∧ Within q next
  | alt first next => Within q first ∧ Within q next
  | star r => Within q r
  | group _ r => Within q r

theorem within_upTo {q : α → Prop} (within : Within q r) (n : Nat) : Within q (upTo r n) := by
  induction n with
  | zero => trivial
  | succ n ih => exact ⟨⟨within, ih⟩, trivial⟩

/-- What `step` runs over lies in `q`, whatever follows it. -/
private def RunsWithin (q : α → Prop)
    (step : List α → Captures α → (List α → Captures α → Option β) → Option β) : Prop :=
  ∀ s g k b, step s g k = some b →
    ∃ w s' g', s = w ++ s' ∧ (∀ c ∈ w, q c) ∧ k s' g' = some b

private theorem rounds_within {q : α → Prop}
    {step : List α → Captures α → (List α → Captures α → Option β) → Option β}
    (within : RunsWithin q step) (fuel : Nat) : RunsWithin q (rounds step fuel) := by
  induction fuel with
  | zero => exact fun s g k b ran => ⟨[], s, g, rfl, by simp, ran⟩
  | succ fuel ih =>
      intro s g k b ran
      rw [rounds, Option.or_eq_some_iff] at ran
      rcases ran with onward | ⟨-, stopped⟩
      · obtain ⟨w, s', g', rfl, inside, later⟩ := within _ _ _ _ onward
        split at later
        · obtain ⟨w', s'', g'', rfl, inside', rest⟩ := ih _ _ _ _ later
          refine ⟨w ++ w', s'', g'', (List.append_assoc ..).symm, ?_, rest⟩
          intro c member
          exact (List.mem_append.1 member).elim (inside c) (inside' c)
        · cases later
      · exact ⟨[], s, g, rfl, by simp, stopped⟩

/-- **A match runs over characters of its classes**, and the rest of the pattern succeeds
behind them. -/
theorem run_within {q : α → Prop} (within : Within q r) {b : β} (ran : run r s g k = some b) :
    ∃ w s' g', s = w ++ s' ∧ (∀ c ∈ w, q c) ∧ k s' g' = some b := by
  induction r generalizing s g k b with
  | eps => exact ⟨[], s, g, rfl, by simp, ran⟩
  | chars p =>
      cases s with
      | nil => cases ran
      | cons c s =>
          rw [run_chars_cons] at ran
          split at ran
          · next inside => exact ⟨[c], s, g, rfl, by simpa using within c inside, ran⟩
          · cases ran
  | seq first next ihFirst ihNext =>
      obtain ⟨w, s', g', rfl, inside, later⟩ := ihFirst within.1 ran
      obtain ⟨w', s'', g'', rfl, inside', rest⟩ := ihNext within.2 later
      refine ⟨w ++ w', s'', g'', (List.append_assoc ..).symm, ?_, rest⟩
      intro c member
      exact (List.mem_append.1 member).elim (inside c) (inside' c)
  | alt first next ihFirst ihNext =>
      rw [run_alt, Option.or_eq_some_iff] at ran
      rcases ran with taken | ⟨-, other⟩
      · exact ihFirst within.1 taken
      · exact ihNext within.2 other
  | star r ih => exact rounds_within (fun s g k b => ih within) s.length s g k b ran
  | group n r ih =>
      obtain ⟨w, s', g', rfl, inside, rest⟩ := ih within ran
      exact ⟨w, s', _, rfl, inside, rest⟩

theorem regexMatch_within {q : α → Prop} (within : Within q r)
    (matched : (regexMatch r s).isSome) : ∀ c ∈ s, q c := by
  obtain ⟨m, ran⟩ := Option.isSome_iff_exists.1 matched
  obtain ⟨w, s', g', rfl, inside, rest⟩ := run_within within ran
  unfold finish at rest
  split at rest
  · next empty =>
      rw [empty, List.append_nil]
      exact inside
  · cases rest

end Regex

end ChargerStack.Lib
