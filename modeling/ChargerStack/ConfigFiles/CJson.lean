/-
# ConfigFiles.CJson -- cJSON nodes, as the configuration code uses them

A cJSON node carries the fields of every kind at once; which of them mean something is
decided by its `type`.  The code that merges configurations writes them one by one, so a node
is modelled with all of them and not as a JSON value.

* `Value` says which nodes the parser and the constructors of cJSON build;
* `Same` is equality as JSON values: the members of an object come in any order, and fields
  that the kind does not use are not compared;
* `Throughout` carries a relation between two nodes down to the nodes at the same places
  below them, and `Node.of_child` is the induction over a node that goes with it.

The C strings of a node are `String`s, its double an arbitrary type.
-/
import Mathlib.Data.List.Forall2
import Mathlib.Data.List.Nodup
import Mathlib.Data.List.Perm.Basic

namespace ChargerStack.ConfigFiles.CJson

set_option autoImplicit false

/-- `type & 0xFF`. -/
inductive Kind where
  | false
  | true
  | null
  | number
  | string
  | array
  | object
  | raw
  /-- `cJSON_Invalid` and every other number. -/
  | invalid
  deriving DecidableEq, Repr

/-- `cJSON`: `string` is the name of the node in its object, `child` the list that `next`
links. -/
structure Node (D : Type) where
  kind : Kind
  valuestring : Option String
  valueint : Int
  valuedouble : D
  string : Option String
  child : List (Node D)
  deriving Repr

variable {D : Type}

@[simp]
theorem Node.eta (n : Node D) :
    (⟨n.kind, n.valuestring, n.valueint, n.valuedouble, n.string, n.child⟩ : Node D) = n := by
  cases n
  rfl

/-- Induction over a node from the nodes below it. -/
theorem Node.of_child {P : Node D → Prop} (step : ∀ n : Node D, (∀ c ∈ n.child, P c) → P n)
    (n : Node D) : P n := by
  refine @Node.rec D P (fun nodes => ∀ c ∈ nodes, P c) ?_ ?_ ?_ n
  · intro kind valuestring valueint valuedouble string child all
    exact step _ all
  · intro c member
    cases member
  · intro first rest holds all c member
    rcases List.mem_cons.1 member with rfl | later
    · exact holds
    · exact all c later

/-! ## The members of an object -/

/-- `cJSON_GetObjectItemCaseSensitive` over the children: the search ends at a child without
a name. -/
def findItem (name : String) : List (Node D) → Option (Node D)
  | [] => none
  | c :: rest =>
      match c.string with
      | none => none
      | some key => if key = name then some c else findItem name rest

/-- `cJSON_ReplaceItemViaPointer` of the item that `findItem` finds. -/
def replaceItem (name : String) (replacement : Node D) : List (Node D) → List (Node D)
  | [] => []
  | c :: rest =>
      match c.string with
      | none => c :: rest
      | some key =>
          if key = name then replacement :: rest else c :: replaceItem name replacement rest

/-- The children of an object: each has a name, and no two the same. -/
structure Named (nodes : List (Node D)) : Prop where
  named : ∀ c ∈ nodes, ∃ name, c.string = some name
  distinct : (nodes.map Node.string).Nodup

/-- The children of anything else. -/
def Unnamed (nodes : List (Node D)) : Prop := ∀ c ∈ nodes, c.string = none

theorem Named.tail {c : Node D} {rest : List (Node D)} (named : Named (c :: rest)) : Named rest :=
  ⟨fun d member => named.named d (List.mem_cons_of_mem c member),
    (List.nodup_cons.1 named.distinct).2⟩

theorem findItem_cons {c : Node D} {key : String} (named : c.string = some key) (name : String)
    (rest : List (Node D)) :
    findItem name (c :: rest) = if key = name then some c else findItem name rest := by
  rw [findItem, named]

theorem Named.of_names {xs ys : List (Node D)} (named : Named ys)
    (names : xs.map Node.string = ys.map Node.string) : Named xs := by
  refine ⟨fun c member => ?_, names ▸ named.distinct⟩
  have inside : c.string ∈ ys.map Node.string := names ▸ List.mem_map_of_mem member
  obtain ⟨d, hd, same⟩ := List.mem_map.1 inside
  exact same ▸ named.named d hd

theorem findItem_some {name : String} {nodes : List (Node D)} {c : Node D}
    (found : findItem name nodes = some c) : c ∈ nodes ∧ c.string = some name := by
  induction nodes with
  | nil => cases found
  | cons d rest ih =>
      rw [findItem] at found
      split at found
      · cases found
      · rename_i key hkey
        split at found
        · rename_i same
          cases found
          exact ⟨List.mem_cons_self, same ▸ hkey⟩
        · obtain ⟨member, hname⟩ := ih found
          exact ⟨List.mem_cons_of_mem d member, hname⟩

theorem Named.findItem_eq {nodes : List (Node D)} (named : Named nodes) {c : Node D}
    (member : c ∈ nodes) {name : String} (hname : c.string = some name) :
    findItem name nodes = some c := by
  induction nodes with
  | nil => cases member
  | cons d rest ih =>
      obtain ⟨key, hkey⟩ := named.named d List.mem_cons_self
      rw [findItem, hkey]
      rcases List.mem_cons.1 member with rfl | later
      · obtain rfl : key = name := by simpa [hkey] using hname
        simp
      · have apart : key ≠ name := by
          rintro rfl
          apply (List.nodup_cons.1 named.distinct).1
          rw [hkey, ← hname]
          exact List.mem_map_of_mem later
        simpa [apart] using ih named.tail later

theorem findItem_eq_none {name : String} {nodes : List (Node D)}
    (absent : some name ∉ nodes.map Node.string) : findItem name nodes = none := by
  cases found : findItem name nodes with
  | none => rfl
  | some c =>
      obtain ⟨member, hname⟩ := findItem_some found
      exact absurd (hname ▸ List.mem_map_of_mem member) absent

theorem Unnamed.findItem_none {nodes : List (Node D)} (unnamed : Unnamed nodes) (name : String) :
    findItem name nodes = none := by
  apply findItem_eq_none
  intro member
  obtain ⟨c, inside, hname⟩ := List.mem_map.1 member
  rw [unnamed c inside] at hname
  cases hname

theorem Named.findItem_of_mem {nodes : List (Node D)} (named : Named nodes) {name : String}
    (member : some name ∈ nodes.map Node.string) : ∃ c, findItem name nodes = some c := by
  obtain ⟨c, inside, hname⟩ := List.mem_map.1 member
  exact ⟨c, named.findItem_eq inside hname⟩

theorem Named.replaceItem_eq {nodes : List (Node D)} (named : Named nodes) (name : String)
    (replacement : Node D) :
    replaceItem name replacement nodes =
      nodes.map fun c => if c.string = some name then replacement else c := by
  induction nodes with
  | nil => rfl
  | cons c rest ih =>
      obtain ⟨key, hkey⟩ := named.named c List.mem_cons_self
      rw [replaceItem, hkey, List.map_cons]
      by_cases same : key = name
      · subst same
        have kept : (rest.map fun d => if d.string = some key then replacement else d) = rest := by
          conv_rhs => rw [← List.map_id rest]
          apply List.map_congr_left
          intro d later
          have apart : d.string ≠ some key := by
            intro same
            apply (List.nodup_cons.1 named.distinct).1
            rw [hkey, ← same]
            exact List.mem_map_of_mem later
          simp [apart]
        simp [hkey, kept]
      · simp [hkey, same, ih named.tail]

theorem Named.replaced {nodes : List (Node D)} (named : Named nodes) {name : String}
    {replacement : Node D} (kept : replacement.string = some name) :
    Named (replaceItem name replacement nodes) := by
  apply named.of_names
  rw [named.replaceItem_eq, List.map_map]
  apply List.map_congr_left
  intro c member
  by_cases same : c.string = some name
  · simp [same, kept]
  · simp [same]

/-! ## The nodes that are JSON values -/

/-- A node that the parser or a constructor of cJSON built: it carries what its kind needs and
nothing else, down to the last child. -/
inductive Value : Node D → Prop
  | mk {n : Node D} (valid : n.kind ≠ .invalid)
      (text : n.kind = .string ∨ n.kind = .raw ↔ ∃ text, n.valuestring = some text)
      (leaf : n.kind ≠ .array → n.kind ≠ .object → n.child = [])
      (items : n.kind ≠ .object → Unnamed n.child)
      (members : n.kind = .object → Named n.child)
      (child : ∀ c ∈ n.child, Value c) : Value n

theorem Value.valid {n : Node D} (value : Value n) : n.kind ≠ .invalid := by
  cases value; assumption

theorem Value.text {n : Node D} (value : Value n) :
    n.kind = .string ∨ n.kind = .raw ↔ ∃ text, n.valuestring = some text := by
  cases value; assumption

theorem Value.leaf {n : Node D} (value : Value n) (array : n.kind ≠ .array)
    (object : n.kind ≠ .object) : n.child = [] := by
  cases value with
  | mk valid text leaf items members child => exact leaf array object

theorem Value.items {n : Node D} (value : Value n) (object : n.kind ≠ .object) :
    Unnamed n.child := by
  cases value with
  | mk valid text leaf items members child => exact items object

theorem Value.members {n : Node D} (value : Value n) (object : n.kind = .object) :
    Named n.child := by
  cases value with
  | mk valid text leaf items members child => exact members object

theorem Value.child {n c : Node D} (value : Value n) (member : c ∈ n.child) : Value c := by
  cases value with
  | mk valid text leaf items members child => exact child c member

/-- Child lists as `Value`s have them. -/
def Listed (nodes : List (Node D)) : Prop := Named nodes ∨ Unnamed nodes

theorem Value.listed {n : Node D} (value : Value n) : Listed n.child := by
  by_cases object : n.kind = .object
  · exact .inl (value.members object)
  · exact .inr (value.items object)

theorem Listed.of_names {xs ys : List (Node D)} (listed : Listed ys)
    (names : xs.map Node.string = ys.map Node.string) : Listed xs := by
  rcases listed with named | unnamed
  · exact .inl (named.of_names names)
  · refine .inr fun c member => ?_
    have inside : c.string ∈ ys.map Node.string := names ▸ List.mem_map_of_mem member
    obtain ⟨d, hd, same⟩ := List.mem_map.1 inside
    exact same ▸ unnamed d hd

theorem Value.copyText {n : Node D} (value : Value n) (kind : n.kind = .string) :
    ∃ text, n.valuestring = some text :=
  value.text.1 (.inl kind)

/-- Two nodes at the same index of two child lists, the first an array. -/
def ItemPair (x y v w : Node D) : Prop :=
  x.kind = .array ∧ ∃ i : Nat, x.child[i]? = some v ∧ y.child[i]? = some w

/-- Two nodes under the same name, the first list that of an object. -/
def MemberPair (x y v w : Node D) : Prop :=
  x.kind = .object ∧ ∃ name, findItem name x.child = some v ∧ findItem name y.child = some w

def ChildPair (x y v w : Node D) : Prop := ItemPair x y v w ∨ MemberPair x y v w

/-- `here` holds of two nodes and of all pairs that `pair` leads to from them. -/
inductive Throughout (pair : Node D → Node D → Node D → Node D → Prop)
    (here : Node D → Node D → Prop) : Node D → Node D → Prop
  | mk {x y : Node D} (atRoot : here x y)
      (below : ∀ v w, pair x y v w → Throughout pair here v w) : Throughout pair here x y

theorem throughout_iff {pair : Node D → Node D → Node D → Node D → Prop}
    {here : Node D → Node D → Prop} {x y : Node D} :
    Throughout pair here x y ↔ here x y ∧ ∀ v w, pair x y v w → Throughout pair here v w := by
  constructor
  · rintro ⟨atRoot, below⟩
    exact ⟨atRoot, below⟩
  · rintro ⟨atRoot, below⟩
    exact ⟨atRoot, below⟩

/-- The same number, in both fields. -/
def SameNumber (x y : Node D) : Prop := x.valueint = y.valueint ∧ x.valuedouble = y.valuedouble

/-- The same names, in any order. -/
def SameNames (x y : Node D) : Prop := (x.child.map Node.string).Perm (y.child.map Node.string)

/-- Two nodes agree in what their kind uses, the children apart. -/
structure Alike (x y : Node D) : Prop where
  kind : x.kind = y.kind
  text : x.kind = .string ∨ x.kind = .raw → x.valuestring = y.valuestring
  number : x.kind = .number → SameNumber x y
  length : x.kind = .array → x.child.length = y.child.length
  names : x.kind = .object → SameNames x y

/-- Two nodes are the same JSON value. -/
def Same (x y : Node D) : Prop := Throughout ChildPair Alike x y

theorem ChildPair.mem {x y v w : Node D} (pair : ChildPair x y v w) :
    v ∈ x.child ∧ w ∈ y.child := by
  rcases pair with ⟨-, i, hv, hw⟩ | ⟨-, name, hv, hw⟩
  · exact ⟨List.mem_of_getElem? hv, List.mem_of_getElem? hw⟩
  · exact ⟨(findItem_some hv).1, (findItem_some hw).1⟩

theorem ChildPair.not_leaf {x y v w : Node D} (pair : ChildPair x y v w) :
    x.kind = .array ∨ x.kind = .object :=
  pair.imp And.left And.left

theorem ChildPair.member {x y v w : Node D} (pair : ChildPair x y v w) (kind : x.kind = .object) :
    ∃ name, findItem name x.child = some v ∧ findItem name y.child = some w := by
  rcases pair with ⟨array, -⟩ | ⟨-, found⟩
  · rw [kind] at array
    cases array
  · exact found

/-- At a leaf nothing is below. -/
theorem throughout_leaf {here : Node D → Node D → Prop} {x y : Node D} (array : x.kind ≠ .array)
    (object : x.kind ≠ .object) : Throughout ChildPair here x y ↔ here x y := by
  rw [throughout_iff, and_iff_left_iff_imp]
  intro _ v w pair
  exact absurd pair.not_leaf (not_or_intro array object)

theorem ChildPair.self {x v w : Node D} (pair : ChildPair x x v w) : v = w := by
  rcases pair with ⟨-, i, hv, hw⟩ | ⟨-, name, hv, hw⟩
  · exact Option.some.inj (hv.symm.trans hw)
  · exact Option.some.inj (hv.symm.trans hw)

theorem Alike.refl (x : Node D) : Alike x x :=
  ⟨rfl, fun _ => rfl, fun _ => ⟨rfl, rfl⟩, fun _ => rfl, fun _ => List.Perm.refl _⟩

theorem Same.refl (x : Node D) : Same x x := by
  induction x using Node.of_child with
  | step x ih =>
      refine ⟨Alike.refl x, fun v w pair => ?_⟩
      obtain rfl := pair.self
      exact ih v pair.mem.1

theorem Same.alike {x y : Node D} (same : Same x y) : Alike x y := (throughout_iff.1 same).1

/-- In two child lists with the same names in the same order, a name stands at one index. -/
theorem findItem_index {xs ys : List (Node D)} (named : Named ys)
    (names : xs.map Node.string = ys.map Node.string) {name : String} {v w : Node D}
    (hv : findItem name xs = some v) (hw : findItem name ys = some w) :
    ∃ i : Nat, xs[i]? = some v ∧ ys[i]? = some w := by
  obtain ⟨inside, vName⟩ := findItem_some hv
  obtain ⟨i, hi⟩ := List.mem_iff_getElem?.1 inside
  have key : (ys.map Node.string)[i]? = some (some name) := by
    rw [← names, List.getElem?_map, hi, Option.map_some, vName]
  rw [List.getElem?_map, Option.map_eq_some_iff] at key
  obtain ⟨u, hu, uName⟩ := key
  have found := named.findItem_eq (List.mem_of_getElem? hu) uName
  obtain rfl : u = w := Option.some.inj (found.symm.trans hw)
  exact ⟨i, hi, hu⟩

/-- Nodes that differ in their children only, and there not in the names, are the same value
exactly when the children at each index are. -/
theorem same_iff_aligned {x y : Node D} (value : Value y) (kind : x.kind = y.kind)
    (text : x.valuestring = y.valuestring) (number : SameNumber x y)
    (names : x.child.map Node.string = y.child.map Node.string) :
    Same x y ↔ ∀ (i : Nat) (v w : Node D), x.child[i]? = some v → y.child[i]? = some w →
      Same v w := by
  have length : x.child.length = y.child.length := by
    simpa using congrArg List.length names
  constructor
  · intro same i v w hv hw
    have below := (throughout_iff.1 same).2
    by_cases object : y.kind = .object
    · have named := value.members object
      have yName : w.string = v.string := by
        have both := congrArg (·[i]?) names
        simpa [List.getElem?_map, hv, hw, eq_comm] using both
      obtain ⟨name, wName⟩ := named.named w (List.mem_of_getElem? hw)
      have xNamed := named.of_names names
      refine below v w (.inr ⟨kind.trans object, name, ?_, ?_⟩)
      · exact xNamed.findItem_eq (List.mem_of_getElem? hv) (yName ▸ wName)
      · exact named.findItem_eq (List.mem_of_getElem? hw) wName
    · by_cases array : y.kind = .array
      · exact below v w (.inl ⟨kind.trans array, i, hv, hw⟩)
      · rw [value.leaf array object] at hw
        cases hw
  · intro all
    refine ⟨⟨kind, fun _ => text, fun _ => number, fun _ => length,
      fun _ => List.Perm.of_eq names⟩, ?_⟩
    rintro v w (⟨-, i, hv, hw⟩ | ⟨object, name, hv, hw⟩)
    · exact all i v w hv hw
    · obtain ⟨i, hi, hj⟩ := findItem_index (value.members (kind ▸ object)) names hv hw
      exact all i v w hi hj

end ChargerStack.ConfigFiles.CJson
