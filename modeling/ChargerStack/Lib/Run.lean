/-
# Lib.Run -- finite runs of a guarded step function

A concurrent component is a step function `step : σ → ℓ → Option σ`: the label
says which thread moves and what the environment chose for it, `none` says that
the move is not enabled.  A run is a list of labels, and an interleaving is
nothing more than an order of them.

* `exec` is the state after a run, `Along` a condition on every step of a run
  (read at the state before it), `observe` the list of what the steps showed;
* `exec_invariant` and `exec_invariant_along` are the two invariant rules, the
  second for invariants that only hold while every step meets a condition;
* `always_iff_along` says exactly which runs keep a property in every state;
* `exec_related` lifts what one step does to a reflexive and transitive relation
  between the ends of a run;
* `exec_simulation` matches a run with the run of another system;
* `exec_history` is the invariant rule for a property of the state together with
  what has been observed so far, `exec_induction` the one for a property of the
  state together with the labels so far;
* `Each` says of a history what every event in it owes to the events before it.
-/
import Mathlib.Data.List.Basic
import Mathlib.Data.List.Induction
import Mathlib.Order.Defs.Unbundled

namespace ChargerStack.Lib

set_option autoImplicit false

universe u v w

variable {σ : Type u} {ℓ : Type v} {ε : Type w} (step : σ → ℓ → Option σ)

/-- The state after the labels, in order; `none` as soon as one is not enabled. -/
def exec : σ → List ℓ → Option σ
  | s, [] => some s
  | s, l :: ls => (step s l).bind fun t => exec t ls

/-- Every step of the run meets `C`, read at the state before the step. -/
def Along (C : σ → ℓ → Prop) : σ → List ℓ → Prop
  | _, [] => True
  | s, l :: ls => C s l ∧ ∀ t, step s l = some t → Along C t ls

/-- `P` holds of every state the run goes through. -/
def Always (P : σ → Prop) : σ → List ℓ → Prop
  | s, [] => P s
  | s, l :: ls => P s ∧ ∀ t, step s l = some t → Always P t ls

/-- What the steps of the run showed, in order. -/
def observe (obs : σ → ℓ → Option ε) : σ → List ℓ → List ε
  | _, [] => []
  | s, l :: ls =>
      match step s l with
      | none => []
      | some t => (obs s l).toList ++ observe obs t ls

variable {step}

@[simp] theorem exec_nil (s : σ) : exec step s [] = some s := rfl

/-- A run of steps that are always enabled is a fold. -/
theorem exec_total (f : σ → ℓ → σ) (s : σ) (ls : List ℓ) :
    exec (fun s l => some (f s l)) s ls = some (ls.foldl f s) := by
  induction ls generalizing s with
  | nil => rfl
  | cons l ls ih => exact ih (f s l)

theorem exec_cons {s t : σ} {l : ℓ} {ls : List ℓ} :
    exec step s (l :: ls) = some t ↔ ∃ m, step s l = some m ∧ exec step m ls = some t := by
  simp only [exec, Option.bind_eq_some_iff]

theorem exec_append {s t : σ} {ls ks : List ℓ} :
    exec step s (ls ++ ks) = some t ↔ ∃ m, exec step s ls = some m ∧ exec step m ks = some t := by
  induction ls generalizing s with
  | nil => simp
  | cons l ls ih =>
      simp only [List.cons_append, exec_cons, ih]
      constructor
      · rintro ⟨m, moved, n, ran, rest⟩
        exact ⟨n, ⟨m, moved, ran⟩, rest⟩
      · rintro ⟨n, ⟨m, moved, ran⟩, rest⟩
        exact ⟨m, moved, n, ran, rest⟩

theorem exec_snoc {s t : σ} {ls : List ℓ} {l : ℓ} :
    exec step s (ls ++ [l]) = some t ↔ ∃ m, exec step s ls = some m ∧ step m l = some t := by
  simp only [exec_append, exec_cons, exec_nil, Option.some.injEq, exists_eq_right]

theorem along_cons {C : σ → ℓ → Prop} {s t : σ} {l : ℓ} {ls : List ℓ}
    (moved : step s l = some t) (now : C s l) (rest : Along step C t ls) :
    Along step C s (l :: ls) :=
  ⟨now, fun _ other => Option.some.inj (moved.symm.trans other) ▸ rest⟩

theorem along_append {C : σ → ℓ → Prop} {s t : σ} {ls ks : List ℓ}
    (ran : exec step s ls = some t) :
    Along step C s (ls ++ ks) ↔ Along step C s ls ∧ Along step C t ks := by
  induction ls generalizing s with
  | nil =>
      simp only [exec_nil, Option.some.injEq] at ran
      subst ran
      simp [Along]
  | cons l ls ih =>
      obtain ⟨m, moved, ran⟩ := exec_cons.1 ran
      simp only [List.cons_append, Along, moved, Option.some.injEq, forall_eq', ih ran, and_assoc]

/-- A condition that can be decided at every state can be decided along a run. -/
instance alongDecidable {C : σ → ℓ → Prop} [∀ s l, Decidable (C s l)] :
    ∀ (s : σ) (ls : List ℓ), Decidable (Along step C s ls)
  | _, [] => .isTrue trivial
  | s, l :: ls =>
      match moved : step s l with
      | none =>
          decidable_of_iff (C s l)
            ⟨fun now => ⟨now, fun _ other => nomatch moved.symm.trans other⟩, And.left⟩
      | some t =>
          have := alongDecidable (C := C) t ls
          decidable_of_iff (C s l ∧ Along step C t ls)
            ⟨fun along => along_cons moved along.1 along.2,
              fun along => ⟨along.1, along.2 t moved⟩⟩

/-- **The conditional invariant rule.**  A property kept by every step that meets
`C` holds at the end of a run whose steps all meet `C`. -/
theorem exec_invariant_along {C : σ → ℓ → Prop} {Inv : σ → Prop}
    (kept : ∀ s l t, C s l → Inv s → step s l = some t → Inv t) {s t : σ} {ls : List ℓ}
    (along : Along step C s ls) (inv : Inv s) (ran : exec step s ls = some t) : Inv t := by
  induction ls generalizing s with
  | nil =>
      simp only [exec_nil, Option.some.injEq] at ran
      exact ran ▸ inv
  | cons l ls ih =>
      obtain ⟨m, moved, ran⟩ := exec_cons.1 ran
      exact ih (along.2 m moved) (kept s l m along.1 inv moved) ran

/-- A condition every label of the run meets at any state. -/
theorem along_of_labels {C : σ → ℓ → Prop} {ls : List ℓ} (meets : ∀ l ∈ ls, ∀ s, C s l) (s : σ) :
    Along step C s ls := by
  induction ls generalizing s with
  | nil => trivial
  | cons l ls ih =>
      exact ⟨meets l List.mem_cons_self s,
        fun t _ => ih (fun k inside => meets k (List.mem_cons_of_mem l inside)) t⟩

theorem along_and {C D : σ → ℓ → Prop} {s : σ} {ls : List ℓ} (left : Along step C s ls)
    (right : Along step D s ls) : Along step (fun s l => C s l ∧ D s l) s ls := by
  induction ls generalizing s with
  | nil => trivial
  | cons l ls ih =>
      exact ⟨⟨left.1, right.1⟩, fun t moved => ih (left.2 t moved) (right.2 t moved)⟩

/-- The labels of a run that has an end are enabled. -/
theorem along_enabled {s t : σ} {ls : List ℓ} (ran : exec step s ls = some t) :
    Along step (fun s l => ∃ m, step s l = some m) s ls := by
  induction ls generalizing s with
  | nil => trivial
  | cons l ls ih =>
      obtain ⟨m, moved, ran⟩ := exec_cons.1 ran
      exact along_cons moved ⟨m, moved⟩ (ih ran)

/-- **The invariant rule.** -/
theorem exec_invariant {Inv : σ → Prop}
    (kept : ∀ s l t, Inv s → step s l = some t → Inv t) {s t : σ} {ls : List ℓ}
    (inv : Inv s) (ran : exec step s ls = some t) : Inv t :=
  exec_invariant_along (C := fun _ _ => True) (fun s l t _ => kept s l t)
    (along_of_labels (fun _ _ _ => trivial) s) inv ran

/-- Under an invariant that `C` keeps, every step meets what the invariant and
`C` give at the state before it. -/
theorem along_of_invariant {C D : σ → ℓ → Prop} {Inv : σ → Prop}
    (kept : ∀ s l t, C s l → Inv s → step s l = some t → Inv t)
    (gives : ∀ s l, C s l → Inv s → D s l) {s : σ} {ls : List ℓ}
    (along : Along step C s ls) (inv : Inv s) : Along step D s ls := by
  induction ls generalizing s with
  | nil => trivial
  | cons l ls ih =>
      exact ⟨gives s l along.1 inv,
        fun t moved => ih (along.2 t moved) (kept s l t along.1 inv moved)⟩

theorem Always.start {P : σ → Prop} {s : σ} {ls : List ℓ} (always : Always step P s ls) : P s := by
  cases ls with
  | nil => exact always
  | cons l ls => exact always.1

/-- What an invariant gives holds all along a run whose steps keep the invariant. -/
theorem always_of_along {C : σ → ℓ → Prop} {Inv P : σ → Prop} (holds : ∀ s, Inv s → P s)
    (kept : ∀ s l t, C s l → Inv s → step s l = some t → Inv t) {s : σ} {ls : List ℓ}
    (along : Along step C s ls) (inv : Inv s) : Always step P s ls := by
  induction ls generalizing s with
  | nil => exact holds s inv
  | cons l ls ih =>
      exact ⟨holds s inv, fun t moved => ih (along.2 t moved) (kept s l t along.1 inv moved)⟩

/-- When the property cannot be there after a step without `C`, and every step meets `B`, a
run that has the property all along meets `C`. -/
theorem along_of_always {B C : σ → ℓ → Prop} {Inv P : σ → Prop}
    (kept : ∀ s l t, B s l → C s l → Inv s → step s l = some t → Inv t)
    (needs : ∀ s l t, B s l → Inv s → step s l = some t → P t → C s l) {s t : σ} {ls : List ℓ}
    (met : Along step B s ls) (inv : Inv s) (ran : exec step s ls = some t)
    (always : Always step P s ls) : Along step C s ls := by
  induction ls generalizing s with
  | nil => trivial
  | cons l ls ih =>
      obtain ⟨m, moved, ran⟩ := exec_cons.1 ran
      have later := always.2 m moved
      have now : C s l := needs s l m met.1 inv moved later.start
      have next : Inv m := kept s l m met.1 now inv moved
      exact along_cons moved now (ih (met.2 m moved) next ran later)

/-- **Exactly when a property lasts.**  When `C` is what a step needs to keep the invariant,
and the property cannot be there after a step without it, the property holds all along a
run if and only if every step meets `C`. -/
theorem always_iff_along {C : σ → ℓ → Prop} {Inv P : σ → Prop} (holds : ∀ s, Inv s → P s)
    (kept : ∀ s l t, C s l → Inv s → step s l = some t → Inv t)
    (needs : ∀ s l t, Inv s → step s l = some t → P t → C s l) {s t : σ} {ls : List ℓ}
    (inv : Inv s) (ran : exec step s ls = some t) :
    Always step P s ls ↔ Along step C s ls := by
  constructor
  · intro always
    exact along_of_always (B := fun _ _ => True) (fun s l t _ => kept s l t)
      (fun s l t _ => needs s l t) (along_of_labels (fun _ _ _ => trivial) s) inv ran always
  · intro along
    exact always_of_along holds kept along inv

/-- What one step does to a reflexive, transitive relation, a run does. -/
theorem exec_related {R : σ → σ → Prop} (refl : ∀ s, R s s)
    (trans : ∀ s t u, R s t → R t u → R s u) (moves : ∀ s l t, step s l = some t → R s t)
    {s t : σ} {ls : List ℓ} (ran : exec step s ls = some t) : R s t := by
  induction ls generalizing s with
  | nil =>
      simp only [exec_nil, Option.some.injEq] at ran
      exact ran ▸ refl s
  | cons l ls ih =>
      obtain ⟨m, moved, ran⟩ := exec_cons.1 ran
      exact trans s m t (moves s l m moved) (ih ran)

/-- **The history rule.**  `H` relates what has been observed to the state; a step
that meets `C` extends both. -/
theorem exec_history {C : σ → ℓ → Prop} {obs : σ → ℓ → Option ε} {H : List ε → σ → Prop}
    (kept : ∀ h s l t, C s l → H h s → step s l = some t → H (h ++ (obs s l).toList) t)
    {h : List ε} {s t : σ} {ls : List ℓ} (along : Along step C s ls) (start : H h s)
    (ran : exec step s ls = some t) : H (h ++ observe step obs s ls) t := by
  induction ls generalizing s h with
  | nil =>
      simp only [exec_nil, Option.some.injEq] at ran
      simpa [observe, ran] using start
  | cons l ls ih =>
      obtain ⟨m, moved, ran⟩ := exec_cons.1 ran
      have next := ih (along.2 m moved) (kept h s l m along.1 start moved) ran
      simpa [observe, moved, List.append_assoc] using next

/-- What a run showed, and one step more. -/
theorem observe_snoc {obs : σ → ℓ → Option ε} {s t u : σ} {ls : List ℓ} {l : ℓ}
    (ran : exec step s ls = some t) (moved : step t l = some u) :
    observe step obs s (ls ++ [l]) = observe step obs s ls ++ (obs t l).toList := by
  induction ls generalizing s with
  | nil =>
      simp only [exec_nil, Option.some.injEq] at ran
      subst ran
      simp [observe, moved]
  | cons k ls ih =>
      obtain ⟨m, first, ran⟩ := exec_cons.1 ran
      simp [observe, first, ih ran, List.append_assoc]

/-- What a run showed was shown by one of its labels. -/
theorem mem_observe {obs : σ → ℓ → Option ε} {s : σ} {ls : List ℓ} {e : ε}
    (shown : e ∈ observe step obs s ls) : ∃ l ∈ ls, ∃ t, obs t l = some e := by
  induction ls generalizing s with
  | nil => cases shown
  | cons l ls ih =>
      unfold observe at shown
      split at shown
      · cases shown
      · rcases List.mem_append.1 shown with here | later
        · exact ⟨l, List.mem_cons_self, s, Option.mem_toList.1 here⟩
        · obtain ⟨k, inside, t, seen⟩ := ih later
          exact ⟨k, List.mem_cons_of_mem l inside, t, seen⟩

/-- Every event of a history meets what it owes to the events before it. -/
def Each (Owes : List ε → ε → Prop) (es : List ε) : Prop :=
  ∀ before e after, es = before ++ e :: after → Owes before e

theorem each_nil (Owes : List ε → ε → Prop) : Each Owes [] := by
  intro before e after split
  simp at split

theorem each_snoc {Owes : List ε → ε → Prop} {es : List ε} {e : ε} :
    Each Owes (es ++ [e]) ↔ Each Owes es ∧ Owes es e := by
  constructor
  · intro each
    refine ⟨fun before d after split => ?_, each es e [] rfl⟩
    exact each before d (after ++ [e]) (by rw [split, List.append_assoc, List.cons_append])
  · rintro ⟨each, now⟩ before d after split
    rcases List.eq_nil_or_concat after with rfl | ⟨rest, last, rfl⟩
    · obtain ⟨rfl, same⟩ := List.append_inj' split rfl
      obtain rfl := List.singleton_inj.1 same
      exact now
    · rw [List.concat_eq_append, ← List.cons_append, ← List.append_assoc] at split
      exact each before d rest (List.append_inj' split rfl).1

/-- **Induction along a run**, for a property of the labels so far and the state. -/
theorem exec_induction {P : List ℓ → σ → Prop} {s : σ} (start : P [] s)
    (next : ∀ ls l t u, exec step s ls = some t → P ls t → step t l = some u → P (ls ++ [l]) u)
    {t : σ} {ls : List ℓ} (ran : exec step s ls = some t) : P ls t := by
  induction ls using List.reverseRecOn generalizing t with
  | nil =>
      simp only [exec_nil, Option.some.injEq] at ran
      exact ran ▸ start
  | append_singleton ls l ih =>
      obtain ⟨m, ran, moved⟩ := exec_snoc.1 ran
      exact next ls l m t ran (ih ran) moved

/-- **Forward simulation.**  Every step that meets `C` is matched by the step of the other
system with the label `f l`, and shows the same. -/
theorem exec_simulation {σ' : Type*} {ℓ' : Type*} {step' : σ' → ℓ' → Option σ'} {f : ℓ → ℓ'}
    {R : σ → σ' → Prop} {C : σ → ℓ → Prop} {obs : σ → ℓ → Option ε} {obs' : σ' → ℓ' → Option ε}
    (matched : ∀ s s' l t, C s l → R s s' → step s l = some t →
      obs s l = obs' s' (f l) ∧ ∃ t', step' s' (f l) = some t' ∧ R t t')
    {s t : σ} {s' : σ'} {ls : List ℓ} (along : Along step C s ls) (related : R s s')
    (ran : exec step s ls = some t) :
    observe step obs s ls = observe step' obs' s' (ls.map f) ∧
      ∃ t', exec step' s' (ls.map f) = some t' ∧ R t t' := by
  induction ls generalizing s s' with
  | nil =>
      simp only [exec_nil, Option.some.injEq] at ran
      subst ran
      exact ⟨rfl, s', rfl, related⟩
  | cons l ls ih =>
      obtain ⟨m, moved, ran⟩ := exec_cons.1 ran
      obtain ⟨same, m', moved', next⟩ := matched s s' l m along.1 related moved
      obtain ⟨rest, t', ran', last⟩ := ih (along.2 m moved) next ran
      refine ⟨?_, t', exec_cons.2 ⟨m', moved', ran'⟩, last⟩
      simp only [observe, List.map_cons, moved, moved', same, rest]

end ChargerStack.Lib
