/-
# Rapidjson.Path -- nodes of a document by the names that lead to them

What a path of member names means, without the C strings and dotted texts the code
goes through: `resolve` follows the first member of each name.

* `Value.byMembers`, `Value.byParts`: induction over a document through the members that are found,
  and through all its nodes;
* `Distinct`, `CNames`, `CStrings`: no object on a path has a name twice, or a name
  with a NUL, and no path leads to a string with a NUL.
-/
import ChargerStack.Rapidjson.Value
import Mathlib.Data.List.Nodup

namespace ChargerStack.Rapidjson.Value

open Cxx

set_option autoImplicit false

/-! ## Members -/

abbrev Members := List (String × Value)

variable {ms : Members} {name : String} {v : Value}

theorem mem_of_findMember (found : findMember name ms = some v) : (name, v) ∈ ms := by
  induction ms with
  | nil => cases found
  | cons m rest ih =>
      by_cases here : m.1 = name
      · simp only [findMember, here, if_true, Option.some.injEq] at found
        subst here found
        exact List.mem_cons_self
      · simp only [findMember, here, if_false] at found
        exact List.mem_cons_of_mem m (ih found)

theorem findMember_eq_none : findMember name ms = none ↔ name ∉ ms.map Prod.fst := by
  induction ms with
  | nil => simp [findMember]
  | cons m rest ih =>
      by_cases here : m.1 = name
      · simp [findMember, here]
      · simp [findMember, here, ih, Ne.symm here]

theorem findMember_of_mem (nodup : (ms.map Prod.fst).Nodup) (member : (name, v) ∈ ms) :
    findMember name ms = some v := by
  induction ms with
  | nil => cases member
  | cons m rest ih =>
      rw [List.map_cons, List.nodup_cons] at nodup
      rcases List.mem_cons.1 member with rfl | later
      · simp [findMember]
      · have apart : m.1 ≠ name := fun same =>
          nodup.1 (same ▸ List.mem_map_of_mem later)
        simp only [findMember, apart, if_false]
        exact ih nodup.2 later

theorem findMember_append {ns : Members} :
    findMember name (ms ++ ns) = (findMember name ms).or (findMember name ns) := by
  induction ms with
  | nil => simp [findMember]
  | cons m rest ih =>
      by_cases here : m.1 = name
      · simp [findMember, here]
      · simp [findMember, here, ih]

theorem sizeOf_lt_of_findMember (found : findMember name ms = some v) :
    sizeOf v < sizeOf (Value.object ms) := by
  have inside := List.sizeOf_lt_of_mem (mem_of_findMember found)
  have pair : sizeOf (name, v) = 1 + sizeOf name + sizeOf v := rfl
  have object := Value.object.sizeOf_spec ms
  omega

/-- Induction through the members of the objects. -/
theorem byMembers {P : Value → Prop} (leaf : ∀ v, v.isObject = false → P v)
    (object : ∀ ms, (∀ name v, findMember name ms = some v → P v) → P (.object ms)) (v : Value) :
    P v := by
  cases v with
  | object ms => exact object ms fun name v found => byMembers leaf object v
  | null => exact leaf _ rfl
  | bool b => exact leaf _ rfl
  | int i => exact leaf _ rfl
  | double d => exact leaf _ rfl
  | string s => exact leaf _ rfl
  | array xs => exact leaf _ rfl
termination_by sizeOf v
decreasing_by exact sizeOf_lt_of_findMember found

/-- Induction through the elements of the arrays and all the members of the objects. -/
theorem byParts {P : Value → Prop}
    (leaf : ∀ v, v.isObject = false → v.isArray = false → P v)
    (array : ∀ xs, (∀ x ∈ xs, P x) → P (.array xs))
    (object : ∀ ms, (∀ m ∈ ms, P m.2) → P (.object ms)) (v : Value) : P v := by
  cases v with
  | object ms => exact object ms fun m inside => byParts leaf array object m.2
  | array xs => exact array xs fun x inside => byParts leaf array object x
  | null => exact leaf _ rfl rfl
  | bool b => exact leaf _ rfl rfl
  | int i => exact leaf _ rfl rfl
  | double d => exact leaf _ rfl rfl
  | string s => exact leaf _ rfl rfl
termination_by sizeOf v
decreasing_by
  · have inside := List.sizeOf_lt_of_mem inside
    simp only [Value.array.sizeOf_spec]
    omega
  · have inside := List.sizeOf_lt_of_mem inside
    have pair : sizeOf m = 1 + sizeOf m.1 + sizeOf m.2 := rfl
    simp only [Value.object.sizeOf_spec]
    omega

/-! ## Paths -/

/-- The node the names lead to. -/
def resolve : Value → List String → Option Value
  | v, [] => some v
  | .object ms, name :: path => (findMember name ms).bind fun v => resolve v path
  | _, _ :: _ => none

@[simp] theorem resolve_nil (v : Value) : resolve v [] = some v := by
  cases v <;> rfl

theorem resolve_cons {path : List String} {w : Value} :
    resolve v (name :: path) = some w ↔
      ∃ ms u, v = .object ms ∧ findMember name ms = some u ∧ resolve u path = some w := by
  cases v with
  | object ms =>
      simp only [resolve, Option.bind_eq_some_iff, Value.object.injEq]
      constructor
      · rintro ⟨u, found, below⟩
        exact ⟨ms, u, rfl, found, below⟩
      · rintro ⟨ms', u, rfl, found, below⟩
        exact ⟨u, found, below⟩
  | _ => simp [resolve]

theorem resolve_object {path : List String} :
    resolve (.object ms) (name :: path) = (findMember name ms).bind fun v => resolve v path := rfl

theorem resolve_append {p q : List String} :
    resolve v (p ++ q) = (resolve v p).bind fun u => resolve u q := by
  induction p generalizing v with
  | nil => simp
  | cons name p ih =>
      cases v with
      | object ms =>
          rw [List.cons_append, resolve_object, resolve_object, Option.bind_assoc]
          congr 1
          funext u
          exact ih
      | _ => rfl

/-- At no level two members of one name. -/
def Distinct (v : Value) : Prop :=
  ∀ path ms, resolve v path = some (.object ms) → (ms.map Prod.fst).Nodup

/-- At every level only names that are C strings. -/
def CNames (v : Value) : Prop :=
  ∀ path ms, resolve v path = some (.object ms) → ∀ name ∈ ms.map Prod.fst, NulFree name

/-- At every path only strings that are C strings. -/
def CStrings (v : Value) : Prop :=
  ∀ path s, resolve v path = some (.string s) → NulFree s

theorem Distinct.here (distinct : Distinct (.object ms)) : (ms.map Prod.fst).Nodup :=
  distinct [] ms rfl

theorem Distinct.below (distinct : Distinct (.object ms)) (found : findMember name ms = some v) :
    Distinct v := fun path ns there =>
  distinct (name :: path) ns (by rw [resolve_object, found]; exact there)

theorem CNames.here (names : CNames (.object ms)) : ∀ name ∈ ms.map Prod.fst, NulFree name :=
  names [] ms rfl

theorem CNames.below (names : CNames (.object ms)) (found : findMember name ms = some v) :
    CNames v := fun path ns there =>
  names (name :: path) ns (by rw [resolve_object, found]; exact there)

theorem CStrings.below (strings : CStrings (.object ms)) (found : findMember name ms = some v) :
    CStrings v := fun path s there =>
  strings (name :: path) s (by rw [resolve_object, found]; exact there)

/-- A property of every object of a document, level by level. -/
theorem forall_levels {P : Members → Prop} (here : P ms)
    (below : ∀ name v, findMember name ms = some v →
      ∀ path ns, resolve v path = some (.object ns) → P ns) :
    ∀ path ns, resolve (.object ms) path = some (.object ns) → P ns := by
  intro path ns there
  cases path with
  | nil =>
      cases there
      exact here
  | cons name path =>
      obtain ⟨ms', v, same, found, there⟩ := resolve_cons.1 there
      cases same
      exact below name v found path ns there

theorem no_levels (leaf : v.isObject = false) {path : List String} :
    resolve v path ≠ some (.object ms) := by
  cases path with
  | nil =>
      intro same
      rw [resolve_nil, Option.some.injEq] at same
      rw [same] at leaf
      cases leaf
  | cons name path =>
      intro there
      obtain ⟨ms', u, rfl, -⟩ := resolve_cons.1 there
      cases leaf

end ChargerStack.Rapidjson.Value
