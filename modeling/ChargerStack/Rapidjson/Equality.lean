/-
# Rapidjson.Equality -- when two documents say the same

Equality of JSON values as data: numbers by their value, arrays element by element,
objects as maps from names, in whatever order their members stand.  Where a name
repeats, the first member of it counts, as everywhere in this development.

* `same_object`: two objects are the same when every name leads to the same node;
* `sameNode_resolve`: and then every path does.
-/
import ChargerStack.Rapidjson.Path
import Mathlib.Data.Rat.Cast.Defs

namespace ChargerStack.Rapidjson.Value

open Cxx

set_option autoImplicit false

/-! ## Equality -/

/-- The value of a number. -/
def number? : Value → Option Rat
  | .int i => some i
  | .double d => some d
  | _ => none

mutual

def same : Value → Value → Bool
  | .null, .null => true
  | .bool b, .bool c => decide (b = c)
  | .int i, w => decide (w.number? = some (i : Rat))
  | .double d, w => decide (w.number? = some d)
  | .string s, .string t => decide (s = t)
  | .array xs, .array ys => sameElements xs ys
  | .object ms, .object ns => sameMembers [] ms ns
  | _, _ => false

def sameElements : List Value → List Value → Bool
  | [], [] => true
  | x :: xs, y :: ys => same x y && sameElements xs ys
  | _, _ => false

/-- The members not shadowed by `seen`. -/
def sameMembers (seen : List String) : Members → Members → Bool
  | [], ns => ns.all fun n => decide (n.1 ∈ seen)
  | (name, v) :: rest, ns =>
      if name ∈ seen then sameMembers seen rest ns
      else
        (match findMember name ns with
          | none => false
          | some w => same v w) && sameMembers (name :: seen) rest ns

end

/-- Two nodes that may be missing. -/
def sameNode : Option Value → Option Value → Bool
  | none, none => true
  | some v, some w => same v w
  | _, _ => false

variable {v w : Value} {ms ns : Members} {name : String}

theorem sameNode_some_iff {o : Option Value} :
    sameNode (some v) o = true ↔
      (match o with
        | none => false
        | some w => same v w) = true := by
  cases o <;> simp [sameNode]

theorem sameMembers_nil_iff {seen : List String} :
    sameMembers seen [] ns = true ↔
      ∀ name, name ∉ seen → sameNode none (findMember name ns) = true := by
  simp only [sameMembers, List.all_eq_true, decide_eq_true_eq]
  constructor
  · intro all name fresh
    have missing : findMember name ns = none := by
      rw [findMember_eq_none]
      intro inside
      obtain ⟨n, member, rfl⟩ := List.mem_map.1 inside
      exact fresh (all n member)
    rw [missing]
    rfl
  · intro all n member
    by_contra fresh
    have missing := all n.1 fresh
    cases found : findMember n.1 ns with
    | none => exact findMember_eq_none.1 found (List.mem_map_of_mem member)
    | some w =>
        rw [found] at missing
        cases missing

theorem sameMembers_iff {seen : List String} :
    sameMembers seen ms ns = true ↔
      ∀ name, name ∉ seen → sameNode (findMember name ms) (findMember name ns) = true := by
  induction ms generalizing seen with
  | nil => exact sameMembers_nil_iff
  | cons m rest ih =>
      obtain ⟨first, v⟩ := m
      simp only [sameMembers]
      by_cases shadowed : first ∈ seen
      · rw [if_pos shadowed, ih]
        refine forall_congr' fun name => forall_congr' fun fresh => ?_
        have apart : first ≠ name := fun same => fresh (same ▸ shadowed)
        simp only [findMember, apart, if_false]
      · rw [if_neg shadowed, Bool.and_eq_true, ih, ← sameNode_some_iff]
        constructor
        · rintro ⟨here, later⟩ name fresh
          by_cases same : first = name
          · subst same
            simpa only [findMember, if_true] using here
          · simp only [findMember, same, if_false]
            exact later name (by simp [fresh, Ne.symm same])
        · intro all
          constructor
          · simpa only [findMember, if_true] using all first shadowed
          · intro name fresh
            rw [List.mem_cons, not_or] at fresh
            have later := all name fresh.2
            simpa only [findMember, Ne.symm fresh.1, if_false] using later

/-- **Objects are the same as maps.** -/
theorem same_object :
    same (.object ms) (.object ns) = true ↔
      ∀ name, sameNode (findMember name ms) (findMember name ns) = true := by
  rw [same, sameMembers_iff]
  simp

theorem sameElements_self {xs : List Value} (each : ∀ x ∈ xs, same x x = true) :
    sameElements xs xs = true := by
  induction xs with
  | nil => rfl
  | cons x xs ih =>
      rw [sameElements, each x List.mem_cons_self, Bool.true_and]
      exact ih fun y inside => each y (List.mem_cons_of_mem x inside)

@[simp] theorem same_self (v : Value) : same v v = true := by
  cases v with
  | null => rfl
  | bool b => simp [same]
  | int i => simp [same, number?]
  | double d => simp [same, number?]
  | string s => simp [same]
  | array xs =>
      rw [same]
      exact sameElements_self fun x inside => same_self x
  | object ms =>
      rw [same_object]
      intro name
      cases found : findMember name ms with
      | none => rfl
      | some w => exact same_self w
termination_by sizeOf v
decreasing_by
  · have inside := List.sizeOf_lt_of_mem inside
    simp only [Value.array.sizeOf_spec]
    omega
  · exact sizeOf_lt_of_findMember found

@[simp] theorem sameNode_self (node : Option Value) : sameNode node node = true := by
  cases node with
  | none => rfl
  | some v => exact same_self v

theorem getType_of_same (equal : same v w = true) : v.getType = w.getType := by
  cases v <;> cases w <;> simp_all [same, number?, getType]

theorem isObject_iff_getType : v.isObject = true ↔ v.getType = .object := by
  cases v with
  | bool b => cases b <;> simp [isObject, getType]
  | _ => simp [isObject, getType]

/-! ## The same at every path -/

theorem resolve_of_leaf {path : List String} (leaf : v.isObject = false) :
    resolve v (name :: path) = none := by
  cases v with
  | object ms => cases leaf
  | _ => rfl

theorem sameNode_resolve {path : List String} (equal : same v w = true) :
    sameNode (resolve v path) (resolve w path) = true := by
  induction path generalizing v w with
  | nil => simpa [sameNode] using equal
  | cons name path ih =>
      have types := getType_of_same equal
      cases object : v.isObject with
      | false =>
          have object' : w.isObject = false := by
            rw [Bool.eq_false_iff, ne_eq, isObject_iff_getType] at object ⊢
            rwa [← types]
          rw [resolve_of_leaf object, resolve_of_leaf object']
          rfl
      | true =>
          obtain ⟨ms, rfl⟩ := isObject_iff.1 object
          obtain ⟨ns, rfl⟩ := isObject_iff.1 (isObject_iff_getType.2 types.symm)
          have members := same_object.1 equal name
          rw [resolve_object, resolve_object]
          cases found : findMember name ms with
          | none =>
              cases found' : findMember name ns with
              | none => rfl
              | some w => simp [found, found', sameNode] at members
          | some v =>
              cases found' : findMember name ns with
              | none => simp [found, found', sameNode] at members
              | some w =>
                  rw [found, found'] at members
                  exact ih members

end ChargerStack.Rapidjson.Value
