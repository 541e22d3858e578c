/-
# Ocpp.ConfigDiff -- the paths `diffJsonObjects` reports

`diffJsonObjects` walks two objects beside each other and returns the dotted paths at
which they differ; `setConfig` triggers the callbacks of these paths and no others.

* `diffJsonObjects_spec`: it returns exactly the texts of the nodes that both walks get
  to and that its comparison takes for changed;
* `isChanged_eq`: that comparison overlooks numbers of two representations and
  numbers beyond 32 bits, and takes every pair of arrays or nulls for changed;
* `diffJsonObjects_exact_iff`: so the paths are right exactly when such a number does
  not change alone, and no such pair is equal.
-/
import ChargerStack.Rapidjson.Equality
import ChargerStack.Ocpp.ConfigDefaults

namespace ChargerStack.Ocpp.Config

open Cxx Rapidjson Value

set_option autoImplicit false

/-! ## `diffJsonObjects` -/

/-- The `switch` on two values of one type that are not objects. -/
def isChanged (oldValue newValue : Value) : Except Failure Bool :=
  match newValue.getType with
  | .string => do
      let old ← oldValue.getString
      let new ← newValue.getString
      return decide (old ≠ new)
  | .number =>
      if oldValue.isInt && newValue.isInt then do
        let old ← oldValue.getInt
        let new ← newValue.getInt
        return decide (old ≠ new)
      else if oldValue.isUint && newValue.isUint then do
        let old ← oldValue.getUint
        let new ← newValue.getUint
        return decide (old ≠ new)
      else if oldValue.isDouble && newValue.isDouble then do
        let old ← oldValue.getDouble
        let new ← newValue.getDouble
        return decide (old ≠ new)
      else return false
  | .false | .true => do
      let old ← oldValue.getBool
      let new ← newValue.getBool
      return decide (old ≠ new)
  | _ => return true

/-- The second loop: the members of the old object that the new one lacks. -/
def removedPaths (parentPath : String) (newObj : Value) : Members → Except Failure (List String)
  | [] => .ok []
  | (name, _) :: rest => do
      let key := cStr name
      let found ← newObj.hasMember key
      let later ← removedPaths parentPath newObj rest
      return if !found then fullPath parentPath key :: later else later

mutual

def diffJsonObjects (parentPath : String) (oldObj : Value) : Value → Except Failure (List String)
  | .object news =>
      if !oldObj.isObject then .ok []
      else do
        let changed ← changedPaths parentPath oldObj news
        let removed ←
          match oldObj with
          | .object olds => removedPaths parentPath (.object news) olds
          | _ => .error .rapidjson
        return changed ++ removed
  | _ => .ok []

/-- The first loop, over the members of the new object. -/
def changedPaths (parentPath : String) (oldObj : Value) : Members → Except Failure (List String)
  | [] => .ok []
  | (name, newValue) :: rest => do
      let key := cStr name
      let path := fullPath parentPath key
      let found ← oldObj.hasMember key
      let here ←
        if !found then pure [path]
        else do
          let oldValue ← oldObj.member key
          if oldValue.getType ≠ newValue.getType then pure [path]
          else if newValue.isObject then diffJsonObjects path oldValue newValue
          else do
            let changed ← isChanged oldValue newValue
            pure (if changed then [path] else [])
      let later ← changedPaths parentPath oldObj rest
      return here ++ later

end

/-! ## The comparison -/

variable {v w old new : Value} {ms ns : Members} {name parentPath : String} {path : List String}

/-- Two numbers that none of the three comparisons is made for. -/
def Uncompared (v w : Value) : Prop :=
  v.getType = .number ∧ w.getType = .number ∧ ¬ (v.isInt && w.isInt) = true ∧
    ¬ (v.isUint && w.isUint) = true ∧ ¬ (v.isDouble && w.isDouble) = true

/-- A value taken for changed whatever it is. -/
def Unread (v : Value) : Prop := v.getType = .array ∨ v.getType = .null

instance (v w : Value) : Decidable (Uncompared v w) :=
  inferInstanceAs (Decidable (_ ∧ _ ∧ _ ∧ _ ∧ _))

instance (v : Value) : Decidable (Unread v) := inferInstanceAs (Decidable (_ ∨ _))

theorem isChanged_int {i j : Int} :
    isChanged (.int i) (.int j) =
      .ok (decide (i ≠ j ∧ ¬ Uncompared (.int i) (.int j))) := by
  simp only [isChanged, getType, Uncompared, isDouble, Bool.and_false, Bool.false_eq_true,
    not_false_eq_true, true_and, and_true, if_false]
  by_cases ints : (isInt (.int i) && isInt (.int j)) = true
  · rw [if_pos ints]
    obtain ⟨left, right⟩ := Bool.and_eq_true_iff.1 ints
    simp [getInt, left, right, bind, Except.bind, pure, Except.pure]
  · rw [if_neg ints]
    by_cases uints : (isUint (.int i) && isUint (.int j)) = true
    · rw [if_pos uints]
      obtain ⟨left, right⟩ := Bool.and_eq_true_iff.1 uints
      have naturals : i.toNat = j.toNat ↔ i = j := by
        simp only [isUint, decide_eq_true_eq] at left right
        omega
      simp [getUint, left, right, naturals, bind, Except.bind, pure, Except.pure]
    · rw [if_neg uints]
      simp [ints, uints, pure, Except.pure]

theorem isChanged_number (number : v.getType = .number) (number' : w.getType = .number) :
    isChanged v w = .ok (decide (same v w = false ∧ ¬ Uncompared v w)) := by
  have mixed : isChanged v w = .ok false → Uncompared v w → isChanged v w =
      .ok (decide (same v w = false ∧ ¬ Uncompared v w)) := by
    intro unseen uncompared
    rw [unseen, decide_eq_false fun seen => seen.2 uncompared]
  cases v with
  | int i =>
      cases w with
      | int j =>
          have values : same (.int i) (.int j) = false ↔ i ≠ j := by
            simp [same, number?, eq_comm]
          simp only [isChanged_int, values]
      | double d =>
          apply mixed
          · simp [isChanged, getType, isInt, isUint, isDouble, pure, Except.pure]
          · simp [Uncompared, getType, isInt, isUint, isDouble]
      | bool b => cases b <;> cases number'
      | _ => cases number'
  | double d =>
      cases w with
      | int j =>
          apply mixed
          · rfl
          · simp [Uncompared, getType, isInt, isUint, isDouble]
      | double e =>
          have values : same (.double d) (.double e) = false ↔ d ≠ e := by
            simp [same, number?, eq_comm]
          simp [values, isChanged, getType, Uncompared, isInt, isUint, isDouble, getDouble, bind, Except.bind,
            pure, Except.pure]
      | bool b => cases b <;> cases number'
      | _ => cases number'
  | bool b => cases b <;> cases number
  | _ => cases number

/-- **The comparison.**  It is right except on numbers it does not compare, and on the
types it does not read. -/
theorem isChanged_eq (types : v.getType = w.getType) (leaf : w.isObject = false)
    (clean : ∀ s, v = .string s → NulFree s) (clean' : ∀ s, w = .string s → NulFree s) :
    isChanged v w =
      .ok (decide ((same v w = false ∧ ¬ Uncompared v w) ∨ (same v w = true ∧ Unread v))) := by
  by_cases number : w.getType = .number
  · have read : ¬ Unread v := by
      simp [Unread, types, number]
    simp only [isChanged_number (types.trans number) number, read, and_false, or_false]
  have compared : ¬ Uncompared v w := fun uncompared => number uncompared.2.1
  have either : ∀ b : Bool, b = false ∨ b = true := by decide
  simp only [compared, not_false_eq_true, and_true]
  cases w with
  | null =>
      have unread : Unread v := .inr types
      simp only [unread, and_true, either, decide_true]
      rfl
  | bool c =>
      cases v with
      | bool b => cases b <;> cases c <;> rfl
      | _ => cases c <;> cases types
  | string t =>
      cases v with
      | string s =>
          simp [isChanged, getType, getString, cStr_of_nulFree (clean s rfl),
            cStr_of_nulFree (clean' t rfl), same, Unread, bind, Except.bind, pure, Except.pure]
      | bool b => cases b <;> cases types
      | _ => cases types
  | array ys =>
      have unread : Unread v := .inl types
      simp only [unread, and_true, either, decide_true]
      rfl
  | object ns => cases leaf
  | int i => exact absurd rfl number
  | double d => exact absurd rfl number

/-! ## The nodes it reports -/

/-- What the two loops take for changed, at one name. -/
def Noticed : Option Value → Option Value → Prop
  | none, none => False
  | some v, some w => v.getType ≠ w.getType ∨ (w.isObject = false ∧ isChanged v w = .ok true)
  | _, _ => True

/-- A node below two objects that is taken for changed. -/
def Reported (old new : Value) (path : List String) : Prop :=
  ∃ parent name ms ns, path = parent ++ [name] ∧ resolve old parent = some (.object ms) ∧
    resolve new parent = some (.object ns) ∧ Noticed (findMember name ms) (findMember name ns)

theorem not_reported_nil : ¬ Reported old new [] := by
  rintro ⟨parent, name, ms, ns, empty, -⟩
  simp at empty

theorem reported_cons :
    Reported (.object ms) (.object ns) (name :: path) ↔
      (path = [] ∧ Noticed (findMember name ms) (findMember name ns)) ∨
        ∃ v w, findMember name ms = some v ∧ findMember name ns = some w ∧ Reported v w path := by
  constructor
  · rintro ⟨parent, last, ms', ns', shape, there, there', noticed⟩
    cases parent with
    | nil =>
        cases there
        cases there'
        cases shape
        exact .inl ⟨rfl, noticed⟩
    | cons first parent =>
        obtain ⟨rfl, rfl⟩ := List.cons.inj shape
        obtain ⟨_, v, ⟨⟩, found, there⟩ := resolve_cons.1 there
        obtain ⟨_, w, ⟨⟩, found', there'⟩ := resolve_cons.1 there'
        exact .inr ⟨v, w, found, found', parent, last, ms', ns', rfl, there, there', noticed⟩
  · rintro (⟨rfl, noticed⟩ | ⟨v, w, found, found', parent, last, ms', ns', rfl, there, there', noticed⟩)
    · exact ⟨[], name, ms, ns, rfl, rfl, rfl, noticed⟩
    · refine ⟨name :: parent, last, ms', ns', rfl, ?_, ?_, noticed⟩
      · rw [resolve_object, found]
        exact there
      · rw [resolve_object, found']
        exact there'

theorem objects_of_reported (reported : Reported old new path) :
    old.isObject = true ∧ new.isObject = true := by
  obtain ⟨parent, name, ms, ns, -, there, there', -⟩ := reported
  constructor
  · by_contra leaf
    exact no_levels (Bool.eq_false_iff.2 leaf) there
  · by_contra leaf
    exact no_levels (Bool.eq_false_iff.2 leaf) there'

/-! ## The paths it returns -/

/-- The text of a path, below a parent of that text. -/
def dotted (parentPath : String) (path : List String) : String := path.foldl fullPath parentPath

/-- What the first loop reports at a member of the new object. -/
def MemberReported (node : Option Value) (w : Value) (path : List String) : Prop :=
  (path = [] ∧ Noticed node (some w)) ∨ ∃ v, node = some v ∧ Reported v w path

theorem memberReported_leaf (leaf : ¬ (v.isObject = true ∧ w.isObject = true)) :
    MemberReported (some v) w path ↔ path = [] ∧ Noticed (some v) (some w) := by
  constructor
  · rintro (here | ⟨u, same, reported⟩)
    · exact here
    · cases same
      exact absurd (objects_of_reported reported) leaf
  · exact .inl

/-- One node, reported under a condition. -/
theorem mem_ite_path {P : Prop} [Decidable P] {text : String} :
    text ∈ (if P then [parentPath] else []) ↔
      ∃ path, (path = [] ∧ P) ∧ dotted parentPath path = text := by
  by_cases holds : P
  · rw [if_pos holds, List.mem_singleton]
    constructor
    · rintro rfl
      exact ⟨[], ⟨rfl, holds⟩, rfl⟩
    · rintro ⟨path, ⟨rfl, -⟩, rfl⟩
      rfl
  · simp [holds]

theorem removedPaths_spec (parentPath : String) (ns : Members) {olds : Members}
    (clean : ∀ m ∈ olds, NulFree m.1) :
    ∃ paths, removedPaths parentPath (.object ns) olds = .ok paths ∧
      ∀ text, text ∈ paths ↔
        ∃ m ∈ olds, findMember m.1 ns = none ∧ fullPath parentPath m.1 = text := by
  induction olds with
  | nil => exact ⟨[], rfl, by simp⟩
  | cons m rest ih =>
      obtain ⟨later, returned, later_iff⟩ := ih fun m inside => clean m (List.mem_cons_of_mem _ inside)
      have key := cStr_of_nulFree (clean m List.mem_cons_self)
      cases found : findMember m.1 ns with
      | none =>
          refine ⟨fullPath parentPath m.1 :: later, ?_, ?_⟩
          · simp [removedPaths, key, hasMember, found, returned, bind, Except.bind, pure, Except.pure]
          · intro text
            simp [later_iff, found, eq_comm]
      | some w =>
          refine ⟨later, ?_, ?_⟩
          · simp [removedPaths, key, hasMember, found, returned, bind, Except.bind, pure, Except.pure]
          · intro text
            simp [later_iff, found]

/-- The loop body of the first loop. -/
theorem changedPaths_cons {w : Value} {rest : Members} {later : List String}
    (clean : NulFree name)
    (strings : ∀ v, findMember name ms = some v →
      (∀ s, v = .string s → NulFree s) ∧ ∀ s, w = .string s → NulFree s)
    (below : ∀ v, findMember name ms = some v → ∀ parentPath,
      ∃ paths, diffJsonObjects parentPath v w = .ok paths ∧
        ∀ text, text ∈ paths ↔ ∃ path, Reported v w path ∧ dotted parentPath path = text)
    (returned : changedPaths parentPath (.object ms) rest = .ok later) :
    ∃ here, changedPaths parentPath (.object ms) ((name, w) :: rest) = .ok (here ++ later) ∧
      ∀ text, text ∈ here ↔ ∃ path, MemberReported (findMember name ms) w path ∧
        dotted (fullPath parentPath name) path = text := by
  have key := cStr_of_nulFree clean
  cases found : findMember name ms with
  | none =>
      refine ⟨[fullPath parentPath name], ?_, ?_⟩
      · simp [changedPaths, key, hasMember, found, returned, bind, Except.bind, pure, Except.pure]
      · intro text
        simp [MemberReported, Noticed, dotted, eq_comm]
  | some v =>
      by_cases types : v.getType = w.getType
      · cases object : w.isObject with
        | true =>
            obtain ⟨here, body, here_iff⟩ := below v found (fullPath parentPath name)
            refine ⟨here, ?_, ?_⟩
            · simp only [changedPaths, key]
              simp [hasMember, member, found, returned, types, object, body, bind,
                Except.bind, pure, Except.pure]
            · intro text
              simp [MemberReported, Noticed, types, object, here_iff]
        | false =>
            have leaf : ¬ (v.isObject = true ∧ w.isObject = true) := by simp [object]
            obtain ⟨clean, clean'⟩ := strings v found
            have compared := isChanged_eq types object clean clean'
            refine ⟨if isChanged v w = .ok true then [fullPath parentPath name] else [], ?_, ?_⟩
            · simp only [changedPaths, key]
              simp [hasMember, member, found, returned, types, object, compared, bind,
                Except.bind, pure, Except.pure]
            · intro text
              rw [mem_ite_path]
              simp [memberReported_leaf leaf, Noticed, types, object]
      · refine ⟨[fullPath parentPath name], ?_, ?_⟩
        · simp [changedPaths, key, hasMember, member, found, returned, types, bind, Except.bind,
            pure, Except.pure]
        · have leaf : ¬ (v.isObject = true ∧ w.isObject = true) := by
            rw [isObject_iff_getType, isObject_iff_getType]
            exact fun both => types (both.1.trans both.2.symm)
          intro text
          rw [← if_pos types (t := [fullPath parentPath name]) (e := []), mem_ite_path]
          simp [memberReported_leaf leaf, Noticed, types]

theorem changedPaths_spec (parentPath : String) (ms : Members) {news : Members}
    (clean : ∀ m ∈ news, NulFree m.1)
    (strings : ∀ m ∈ news, ∀ v, findMember m.1 ms = some v →
      (∀ s, v = .string s → NulFree s) ∧ ∀ s, m.2 = .string s → NulFree s)
    (below : ∀ m ∈ news, ∀ v, findMember m.1 ms = some v → ∀ parentPath,
      ∃ paths, diffJsonObjects parentPath v m.2 = .ok paths ∧
        ∀ text, text ∈ paths ↔ ∃ path, Reported v m.2 path ∧ dotted parentPath path = text) :
    ∃ paths, changedPaths parentPath (.object ms) news = .ok paths ∧
      ∀ text, text ∈ paths ↔
        ∃ m ∈ news, ∃ path, MemberReported (findMember m.1 ms) m.2 path ∧
          dotted parentPath (m.1 :: path) = text := by
  induction news with
  | nil => exact ⟨[], rfl, by simp⟩
  | cons m rest ih =>
      obtain ⟨later, returned, later_iff⟩ := ih
        (fun m inside => clean m (List.mem_cons_of_mem _ inside))
        (fun m inside => strings m (List.mem_cons_of_mem _ inside))
        (fun m inside => below m (List.mem_cons_of_mem _ inside))
      obtain ⟨here, body, here_iff⟩ := changedPaths_cons (clean m List.mem_cons_self)
        (strings m List.mem_cons_self) (below m List.mem_cons_self) returned
      refine ⟨here ++ later, body, fun text => ?_⟩
      rw [List.mem_append, here_iff, later_iff, List.exists_mem_cons_iff]
      rfl

theorem diffJsonObjects_leaf (leaf : new.isObject = false) :
    diffJsonObjects parentPath old new = .ok [] := by
  cases new with
  | object ns => cases leaf
  | _ => rfl

/-- What the two documents are to be for the walk to see them as they are. -/
structure Tidy (v : Value) : Prop where
  distinct : Distinct v
  names : CNames v
  strings : CStrings v

theorem Tidy.below (tidy : Tidy (.object ms)) (found : findMember name ms = some v) : Tidy v :=
  ⟨tidy.distinct.below found, tidy.names.below found, tidy.strings.below found⟩

theorem Tidy.node (tidy : Tidy v) (there : resolve v path = some w) : Tidy w := by
  have above : ∀ below, resolve w below = resolve v (path ++ below) := by
    intro below
    rw [resolve_append, there]
    rfl
  exact ⟨fun below ms found => tidy.distinct (path ++ below) ms (above below ▸ found),
    fun below ms found => tidy.names (path ++ below) ms (above below ▸ found),
    fun below s found => tidy.strings (path ++ below) s (above below ▸ found)⟩

theorem Tidy.clean (tidy : Tidy (.object ms)) {m : String × Value} (member : m ∈ ms) :
    NulFree m.1 :=
  tidy.names.here m.1 (List.mem_map_of_mem member)

theorem Tidy.string {s : String} (tidy : Tidy v) (string : v = .string s) : NulFree s :=
  tidy.strings [] s (by rw [resolve_nil, string])

/-- Between them the two loops report the nodes of the two objects. -/
theorem loops_iff_reported {text : String} (found : ∀ m ∈ ns, findMember m.1 ns = some m.2) :
    ((∃ m ∈ ns, ∃ path, MemberReported (findMember m.1 ms) m.2 path ∧
        dotted parentPath (m.1 :: path) = text) ∨
      ∃ m ∈ ms, findMember m.1 ns = none ∧ fullPath parentPath m.1 = text) ↔
      ∃ path, Reported (.object ms) (.object ns) path ∧ dotted parentPath path = text := by
  constructor
  · rintro (⟨m, member, path, reported, rfl⟩ | ⟨m, member, missing, rfl⟩)
    · refine ⟨m.1 :: path, ?_, rfl⟩
      rw [reported_cons, found m member]
      rcases reported with here | ⟨v, there, reported⟩
      · exact .inl here
      · exact .inr ⟨v, m.2, there, rfl, reported⟩
    · refine ⟨[m.1], reported_cons.2 (.inl ⟨rfl, ?_⟩), rfl⟩
      cases there : findMember m.1 ms with
      | none => exact absurd (List.mem_map_of_mem member) (findMember_eq_none.1 there)
      | some v =>
          rw [missing]
          trivial
  · rintro ⟨path, reported, rfl⟩
    cases path with
    | nil => exact absurd reported not_reported_nil
    | cons name path =>
        rcases reported_cons.1 reported with ⟨rfl, noticed⟩ | ⟨v, w, there, there', reported⟩
        · cases there' : findMember name ns with
          | some w =>
              rw [there'] at noticed
              exact .inl ⟨(name, w), mem_of_findMember there', [], .inl ⟨rfl, noticed⟩, rfl⟩
          | none =>
              cases there : findMember name ms with
              | none =>
                  rw [there, there'] at noticed
                  cases noticed
              | some v => exact .inr ⟨(name, v), mem_of_findMember there, there', rfl⟩
        · exact .inl ⟨(name, w), mem_of_findMember there', path, .inr ⟨v, there, reported⟩, rfl⟩

/-- **The paths `diffJsonObjects` returns** are the texts of the nodes it reports. -/
theorem diffJsonObjects_spec (tidy : Tidy old) (tidy' : Tidy new) (parentPath : String) :
    ∃ paths, diffJsonObjects parentPath old new = .ok paths ∧
      ∀ text, text ∈ paths ↔ ∃ path, Reported old new path ∧ dotted parentPath path = text := by
  induction new using byMembers generalizing old parentPath with
  | leaf new leaf =>
      refine ⟨[], diffJsonObjects_leaf leaf, fun text => ?_⟩
      constructor
      · nofun
      · rintro ⟨path, reported, -⟩
        rw [(objects_of_reported reported).2] at leaf
        cases leaf
  | object ns ih =>
      cases object : old.isObject with
      | false =>
          refine ⟨[], by simp [diffJsonObjects, object], fun text => ?_⟩
          constructor
          · nofun
          · rintro ⟨path, reported, -⟩
            rw [(objects_of_reported reported).1] at object
            cases object
      | true =>
          obtain ⟨ms, rfl⟩ := isObject_iff.1 object
          have found : ∀ m ∈ ns, findMember m.1 ns = some m.2 := fun m member =>
            findMember_of_mem tidy'.distinct.here member
          obtain ⟨changed, returned, changed_iff⟩ := changedPaths_spec parentPath ms
            (fun m member => tidy'.clean member)
            (fun m member v there => ⟨fun s => (tidy.below there).string,
              fun s => (tidy'.below (found m member)).string⟩)
            (fun m member v there parentPath =>
              ih m.1 m.2 (found m member) (tidy.below there) (tidy'.below (found m member)) parentPath)
          obtain ⟨removed, returned', removed_iff⟩ := removedPaths_spec parentPath ns
            fun m member => tidy.clean member
          refine ⟨changed ++ removed, ?_, fun text => ?_⟩
          · simp [diffJsonObjects, Value.isObject, returned, returned', bind, Except.bind, pure,
              Except.pure]
          rw [List.mem_append, changed_iff, removed_iff]
          exact loops_iff_reported found

/-! ## Right paths -/

/-- The node at the path is not the same in the two documents. -/
def Differs (old new : Value) (path : List String) : Prop :=
  sameNode (resolve old path) (resolve new path) = false

/-- A relation of the two nodes at the path, where both are there. -/
def Both (P : Value → Value → Prop) : Option Value → Option Value → Prop
  | some v, some w => P v w
  | _, _ => False

theorem both_iff {P : Value → Value → Prop} {o n : Option Value} :
    Both P o n ↔ ∃ v w, o = some v ∧ n = some w ∧ P v w := by
  cases o <;> cases n <;> simp [Both]

/-- Two different numbers that are not compared. -/
def Missed (old new : Value) (path : List String) : Prop :=
  Both (fun v w => same v w = false ∧ Uncompared v w) (resolve old path) (resolve new path)

/-- Two equal arrays, or nulls. -/
def Spurious (old new : Value) (path : List String) : Prop :=
  Both (fun v w => same v w = true ∧ Unread v) (resolve old path) (resolve new path)

/-- The paths are empty exactly for equal objects, and each is the text of a node that
differs. -/
def Exact (old new : Value) : Prop :=
  ∃ paths, diffJsonObjects "" old new = .ok paths ∧ (paths = [] ↔ same old new = true) ∧
    ∀ text ∈ paths, ∃ path, dotted "" path = text ∧ Differs old new path

theorem resolve_concat {parent : List String} (there : resolve v (parent ++ [name]) = some w) :
    ∃ ms, resolve v parent = some (.object ms) ∧ findMember name ms = some w := by
  rw [resolve_append, Option.bind_eq_some_iff] at there
  obtain ⟨u, above, below⟩ := there
  obtain ⟨ms, w', rfl, found, here⟩ := resolve_cons.1 below
  rw [resolve_nil] at here
  exact ⟨ms, above, found.trans here⟩

theorem findMember_eq_resolve {parent : List String} (above : resolve v parent = some (.object ms)) :
    findMember name ms = resolve v (parent ++ [name]) := by
  rw [resolve_append, above, Option.bind_some, resolve_object]
  cases findMember name ms <;> simp

/-- The walk gets to the node: its parent is an object on both sides. -/
def Compared (old new : Value) (path : List String) : Prop :=
  ∃ parent name ms ns, path = parent ++ [name] ∧ resolve old parent = some (.object ms) ∧
    resolve new parent = some (.object ns)

/-- Two objects. -/
def Containers (old new : Value) (path : List String) : Prop :=
  Both (fun v w => v.isObject = true ∧ w.isObject = true) (resolve old path) (resolve new path)

theorem noticed_some (clean : ∀ s, v = .string s → NulFree s)
    (clean' : ∀ s, w = .string s → NulFree s) :
    Noticed (some v) (some w) ↔
      (same v w = false ∧ ¬ (v.isObject = true ∧ w.isObject = true) ∧ ¬ Uncompared v w) ∨
        (same v w = true ∧ Unread v) := by
  have types_of_objects : v.isObject = true ∧ w.isObject = true → v.getType = w.getType := by
    rw [isObject_iff_getType, isObject_iff_getType]
    exact fun both => both.1.trans both.2.symm
  by_cases types : v.getType = w.getType
  · cases object : w.isObject with
    | true =>
        have object' : v.isObject = true := by
          rw [isObject_iff_getType] at object ⊢
          exact types.trans object
        have read : ¬ Unread v := by simp [Unread, isObject_iff_getType.1 object']
        simp [Noticed, types, object, object', read]
    | false => simp [Noticed, types, object, isChanged_eq types object clean clean']
  · have different : same v w = false := by
      rw [Bool.eq_false_iff]
      exact fun equal => types (getType_of_same equal)
    have leaf : ¬ (v.isObject = true ∧ w.isObject = true) := fun both =>
      types (types_of_objects both)
    have compared : ¬ Uncompared v w := fun uncompared =>
      types (uncompared.1.trans uncompared.2.1.symm)
    simp [Noticed, types, different, leaf, compared]

/-- **What is reported.**  Of the nodes the walk gets to, those that differ and are
neither two objects nor two numbers it does not compare, and the equal arrays and
nulls. -/
theorem reported_iff (tidy : Tidy old) (tidy' : Tidy new) :
    Reported old new path ↔
      Compared old new path ∧
        ((Differs old new path ∧ ¬ Containers old new path ∧ ¬ Missed old new path) ∨
          Spurious old new path) := by
  have noticed : Noticed (resolve old path) (resolve new path) ↔
      (Differs old new path ∧ ¬ Containers old new path ∧ ¬ Missed old new path) ∨
        Spurious old new path := by
    unfold Differs Containers Missed Spurious
    have strings := tidy.strings path
    have strings' := tidy'.strings path
    cases o : resolve old path with
    | none => cases n : resolve new path <;> simp [Noticed, sameNode, Both]
    | some v =>
        cases n : resolve new path with
        | none => simp [Noticed, sameNode, Both]
        | some w =>
            rw [noticed_some (fun s string => strings s (string ▸ o))
              (fun s string => strings' s (string ▸ n))]
            simp only [sameNode, Both]
            grind
  rw [← noticed]
  constructor
  · rintro ⟨parent, name, ms, ns, rfl, there, there', here⟩
    rw [← findMember_eq_resolve there, ← findMember_eq_resolve there']
    exact ⟨⟨parent, name, ms, ns, rfl, there, there'⟩, here⟩
  · rintro ⟨⟨parent, name, ms, ns, rfl, there, there'⟩, here⟩
    rw [← findMember_eq_resolve there, ← findMember_eq_resolve there'] at here
    exact ⟨parent, name, ms, ns, rfl, there, there', here⟩

theorem differs_or_spurious (tidy : Tidy old) (tidy' : Tidy new)
    (reported : Reported old new path) : Differs old new path ∨ Spurious old new path :=
  ((reported_iff tidy tidy').1 reported).2.imp_left And.left

/-- The walk gets to every node that is on both sides. -/
theorem compared_of_both {P : Value → Value → Prop}
    (both : Both P (resolve old path) (resolve new path)) (inside : path ≠ []) :
    Compared old new path := by
  obtain ⟨parent, name, rfl⟩ := (List.eq_nil_or_concat' path).resolve_left inside
  obtain ⟨v, w, there, there', -⟩ := both_iff.1 both
  obtain ⟨ms, above, -⟩ := resolve_concat there
  obtain ⟨ns, above', -⟩ := resolve_concat there'
  exact ⟨parent, name, ms, ns, rfl, above, above'⟩

theorem reported_of_spurious (tidy : Tidy old) (tidy' : Tidy new) (object : old.isObject = true)
    (spurious : Spurious old new path) : Reported old new path := by
  refine (reported_iff tidy tidy').2 ⟨compared_of_both spurious ?_, .inr spurious⟩
  rintro rfl
  obtain ⟨ms, rfl⟩ := isObject_iff.1 object
  simp [Spurious, Both, Unread, getType] at spurious

/-- Two objects that differ differ at a node that is reported, or a number that is
missed. -/
theorem exists_difference (tidy : Tidy old) (tidy' : Tidy new) (object : old.isObject = true)
    (object' : new.isObject = true) (different : same old new = false) :
    ∃ path, Reported old new path ∨ Missed old new path := by
  induction old using byMembers generalizing new with
  | leaf old leaf =>
      rw [object] at leaf
      cases leaf
  | object ms ih =>
      obtain ⟨ns, rfl⟩ := isObject_iff.1 object'
      rw [Bool.eq_false_iff, ne_eq, same_object, not_forall] at different
      obtain ⟨name, different⟩ := different
      by_cases noticed : Noticed (findMember name ms) (findMember name ns)
      · exact ⟨[name], .inl (reported_cons.2 (.inl ⟨rfl, noticed⟩))⟩
      cases found : findMember name ms with
      | none =>
          cases found' : findMember name ns with
          | none => simp [found, found', sameNode] at different
          | some w => simp [found, found', Noticed] at noticed
      | some v =>
          cases found' : findMember name ns with
          | none => simp [found, found', Noticed] at noticed
          | some w =>
              rw [found, found'] at different noticed
              have different : same v w = false := Bool.eq_false_iff.2 different
              rw [noticed_some (fun s => (tidy.below found).string)
                (fun s => (tidy'.below found').string), not_or] at noticed
              by_cases uncompared : Uncompared v w
              · refine ⟨[name], .inr ?_⟩
                simp [Missed, Both, resolve_object, found, found', different, uncompared]
              · have objects : v.isObject = true ∧ w.isObject = true := by
                  by_contra leaf
                  exact noticed.1 ⟨different, leaf, uncompared⟩
                obtain ⟨path, reported | missed⟩ := ih name v found (tidy.below found)
                  (tidy'.below found') objects.1 objects.2 different
                · exact ⟨name :: path, .inl (reported_cons.2 (.inr ⟨v, w, found, found', reported⟩))⟩
                · refine ⟨name :: path, .inr ?_⟩
                  simpa [Missed, resolve_object, found, found'] using missed

theorem different_of_differs (differs : Differs old new path) : same old new = false := by
  rw [Bool.eq_false_iff]
  intro equal
  rw [Differs, sameNode_resolve equal] at differs
  cases differs

theorem differs_of_missed (missed : Missed old new path) : Differs old new path := by
  obtain ⟨v, w, there, there', different, -⟩ := both_iff.1 missed
  rw [Differs, there, there']
  exact different

theorem eq_nil_iff_unreported {paths : List String}
    (paths_iff : ∀ text, text ∈ paths ↔
      ∃ path, Reported old new path ∧ dotted parentPath path = text) :
    paths = [] ↔ ∀ path, ¬ Reported old new path := by
  rw [List.eq_nil_iff_forall_not_mem]
  constructor
  · intro none path reported
    exact none _ ((paths_iff _).2 ⟨path, reported, rfl⟩)
  · intro none text inside
    obtain ⟨path, reported, -⟩ := (paths_iff text).1 inside
    exact none path reported

/-- **When `diffJsonObjects` is right.**  An equal pair of arrays or nulls must share its
text with a node that differs, and a change of a number that is missed must come with
one that is seen. -/
theorem diffJsonObjects_exact_iff (object : old.isObject = true) (object' : new.isObject = true)
    (tidy : Tidy old) (tidy' : Tidy new) :
    Exact old new ↔
      (∀ path, Spurious old new path →
        ∃ other, dotted "" other = dotted "" path ∧ Differs old new other) ∧
      ((∃ path, Missed old new path) → ∃ path, Reported old new path) := by
  obtain ⟨paths, returned, paths_iff⟩ := diffJsonObjects_spec tidy tidy' ""
  have empty_iff := eq_nil_iff_unreported paths_iff
  constructor
  · rintro ⟨paths', returned', empty, right⟩
    rw [returned, Except.ok.injEq] at returned'
    subst returned'
    refine ⟨fun path spurious => ?_, ?_⟩
    · have reported := reported_of_spurious tidy tidy' object spurious
      exact right _ ((paths_iff _).2 ⟨path, reported, rfl⟩)
    · rintro ⟨path, missed⟩
      have different := different_of_differs (differs_of_missed missed)
      by_contra none
      rw [not_exists, ← empty_iff, empty, different] at none
      cases none
  · rintro ⟨covered, accompanied⟩
    refine ⟨paths, returned, ?_, ?_⟩
    · rw [empty_iff]
      constructor
      · intro none
        by_contra different
        obtain ⟨path, reported | missed⟩ := exists_difference tidy tidy' object object'
          (Bool.eq_false_iff.2 different)
        · exact none path reported
        · obtain ⟨path, reported⟩ := accompanied ⟨path, missed⟩
          exact none path reported
      · intro equal path reported
        obtain ⟨other, differs⟩ : ∃ other, Differs old new other := by
          rcases differs_or_spurious tidy tidy' reported with differs | spurious
          · exact ⟨path, differs⟩
          · obtain ⟨other, -, differs⟩ := covered path spurious
            exact ⟨other, differs⟩
        rw [different_of_differs differs] at equal
        cases equal
    · intro text inside
      obtain ⟨path, reported, rfl⟩ := (paths_iff text).1 inside
      rcases differs_or_spurious tidy tidy' reported with differs | spurious
      · exact ⟨path, rfl, differs⟩
      · exact covered path spurious

/-! ## Two configurations -/

theorem Tidy.leaf (leaf : v.isObject = false) (string : ∀ s, v = .string s → NulFree s) :
    Tidy v where
  distinct := fun path ms there => absurd there (no_levels leaf)
  names := fun path ms there => absurd there (no_levels leaf)
  strings := by
    intro path s there
    cases path with
    | nil =>
        rw [resolve_nil, Option.some.injEq] at there
        exact string s there
    | cons name path =>
        rw [resolve_of_leaf leaf] at there
        cases there

theorem Tidy.object (nodup : (ms.map Prod.fst).Nodup) (clean : ∀ m ∈ ms, NulFree m.1)
    (below : ∀ m ∈ ms, Tidy m.2) : Tidy (.object ms) where
  distinct := forall_levels nodup fun name v found =>
    (below (name, v) (mem_of_findMember found)).distinct
  names := forall_levels
    (fun name inside => by
      obtain ⟨m, member, rfl⟩ := List.mem_map.1 inside
      exact clean m member)
    fun name v found => (below (name, v) (mem_of_findMember found)).names
  strings := by
    intro path s there
    cases path with
    | nil => cases there
    | cons name path =>
        obtain ⟨_, v, ⟨⟩, found, there⟩ := resolve_cons.1 there
        exact (below (name, v) (mem_of_findMember found)).strings path s there

/-- A configuration of one leaf. -/
def single (v : Value) : Value := .object [("a", v)]

theorem tidy_single (leaf : v.isObject = false) (text : v.isString = false) : Tidy (single v) := by
  have clean : NulFree "a" := by decide
  apply Tidy.object
  · exact List.nodup_singleton _
  · intro m member
    rw [List.mem_singleton.1 member]
    exact clean
  · intro m member
    rw [List.mem_singleton.1 member]
    refine Tidy.leaf leaf fun s string => ?_
    rw [show v = .string s from string] at text
    cases text

theorem not_unread_single {i : Int} (there : resolve (single (.int i)) path = some v) :
    ¬ Unread v := by
  cases path with
  | nil =>
      cases there
      simp [single, Unread, getType]
  | cons name path =>
      obtain ⟨_, u, ⟨⟩, found, there⟩ := resolve_cons.1 there
      cases List.mem_singleton.1 (mem_of_findMember found)
      cases path with
      | nil =>
          cases there
          simp [Unread, getType]
      | cons name path => cases there

theorem diffJsonObjects_exact_int :
    diffJsonObjects "" (single (.int 5)) (single (.int 6)) = .ok ["a"] ∧
      Exact (single (.int 5)) (single (.int 6)) := by
  refine ⟨rfl, (diffJsonObjects_exact_iff rfl rfl (tidy_single rfl rfl)
    (tidy_single rfl rfl)).2 ⟨?_, ?_⟩⟩
  · intro path spurious
    obtain ⟨v, w, there, -, -, unread⟩ := both_iff.1 spurious
    exact absurd unread (not_unread_single there)
  · intro _
    exact ⟨["a"], reported_cons.2 (.inl ⟨rfl, .inr ⟨rfl, rfl⟩⟩)⟩

/-- A limit changes from 5 to 5.5 and no path says so; a list that stays is reported. -/
theorem number_change_is_missed :
    (Tidy (single (.int 5)) ∧ Tidy (single (.double (11 / 2))) ∧
      diffJsonObjects "" (single (.int 5)) (single (.double (11 / 2))) = .ok [] ∧
      same (single (.int 5)) (single (.double (11 / 2))) = false ∧
      ¬ Exact (single (.int 5)) (single (.double (11 / 2)))) ∧
    Tidy (single (.array [.int 1])) ∧
      diffJsonObjects "" (single (.array [.int 1])) (single (.array [.int 1])) = .ok ["a"] ∧
      ¬ Exact (single (.array [.int 1])) (single (.array [.int 1])) := by
  have missed : diffJsonObjects "" (single (.int 5)) (single (.double (11 / 2))) = .ok [] := rfl
  have different : same (single (.int 5)) (single (.double (11 / 2))) = false := by
    decide +kernel
  have reported :
      diffJsonObjects "" (single (.array [.int 1])) (single (.array [.int 1])) = .ok ["a"] := rfl
  refine ⟨⟨tidy_single rfl rfl, tidy_single rfl rfl, missed, different, ?_⟩, tidy_single rfl rfl,
    reported, ?_⟩
  · rintro ⟨paths, returned, empty, -⟩
    rw [missed, Except.ok.injEq] at returned
    subst returned
    rw [empty.1 rfl] at different
    cases different
  · rintro ⟨paths, returned, empty, -⟩
    rw [reported, Except.ok.injEq] at returned
    subst returned
    cases empty.2 (same_self _)

end ChargerStack.Ocpp.Config
