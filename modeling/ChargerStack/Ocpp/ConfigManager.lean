/-
# Ocpp.ConfigManager -- reading and writing the configuration document

`getConfig` and `setConfig` walk a dotted key through the object `m_currentDoc`.
`setConfig` first asks `CompareJsonTypeByPath` whether the key names a node of the
new value's type, so it never adds a path.

* `setConfig_of_settable`: on a key whose path is there with a value of the same, not
  object, type, it replaces that value; `setConfig_of_not_settable`: on any other key
  it changes nothing.

Subscriptions and the delayed save are not part of this module.
-/
import ChargerStack.Rapidjson.Value

namespace ChargerStack.Ocpp.Config

open Cxx Rapidjson

set_option autoImplicit false

/-! ## Paths -/

/-- The segments of a key, split at the dots. -/
def segments (key : String) : List String := (key.toList.splitOn '.').map String.ofList

/-- The walk of `findNode`, which stops at an empty segment. -/
def findPath : Value → List String → Option Value
  | v, [] => some v
  | .object ms, segment :: rest =>
      if segment = "" then none
      else
        match Value.findMember (cStr segment) ms with
        | none => none
        | some v => findPath v rest
  | _, _ :: _ => none

/-- The walk of `CompareJsonTypeByPath`, which does not. -/
def comparePath : Value → List String → Option Value
  | v, [] => some v
  | .object ms, k :: rest =>
      match Value.findMember (cStr k) ms with
      | none => none
      | some v => comparePath v rest
  | _, _ :: _ => none

/-- The first member of that name with another value. -/
def replaceMember (name : String) (v : Value) : List (String × Value) → List (String × Value)
  | [] => []
  | m :: rest => if m.1 = name then (m.1, v) :: rest else m :: replaceMember name v rest

/-- The walk of `findOrCreateParentNode` over all segments but the last: whether it
succeeded, and the node with the objects it added. -/
def createPath : Value → List String → Bool × Value
  | node, [] => (node.isObject, node)
  | .object ms, segment :: rest =>
      if segment = "" then (false, .object ms)
      else
        match Value.findMember (cStr segment) ms with
        | some v =>
            let below := createPath v rest
            (below.1, .object (replaceMember (cStr segment) below.2 ms))
        | none =>
            let below := createPath (.object []) rest
            (below.1, .object (ms ++ [(cStr segment, below.2)]))
  | node, _ :: _ => (false, node)

/-- The assignment through `(*parent)[lastKey]`, which asserts that the member is
there. -/
def assignPath (value : Value) : Value → List String → Except Failure Value
  | _, [] => .ok value
  | .object ms, k :: rest =>
      match Value.findMember (cStr k) ms with
      | none => .error .rapidjson
      | some v => do
          let w ← assignPath value v rest
          return .object (replaceMember (cStr k) w ms)
  | _, _ :: _ => .error .rapidjson

/-! ## `getConfig` and `setConfig` -/

def sameType (target current : Value) : Bool :=
  (target.isBool && current.isBool) || decide (target.getType = current.getType)

def compareJsonTypeByPath (keyPath : String) (doc target : Value) : Bool :=
  if keyPath = "" then decide (target.getType = .object)
  else
    match comparePath doc (segments keyPath) with
    | none => false
    | some current => sameType target current

def getConfig (doc : Value) (key : String) : Option Value :=
  if ¬ doc.isObject then none
  else if key = "" then some doc
  else findPath doc (segments key)

/-- `findOrCreateParentNode`, and the swap of the last key's value. -/
def replaceNode (doc : Value) (key : String) (value : Value) : Except Failure (Bool × Value) :=
  let created := createPath doc (segments key).dropLast
  if created.1 then do
    let changed ← assignPath value created.2 (segments key)
    return (true, changed)
  else .ok (false, created.2)

def setConfig (doc : Value) (key : String) (value : Value) : Except Failure (Bool × Value) :=
  if key = "" then
    if value.isObject then .ok (true, value) else .ok (false, doc)
  else if ¬ compareJsonTypeByPath key doc value then .ok (false, doc)
  else
    match findPath doc (segments key) with
    | some existNode =>
        if ¬ existNode.isObject then replaceNode doc key value
        else if value.isObject then replaceNode doc key value
        else .ok (false, doc)
    | none => if value.isObject then replaceNode doc key value else .ok (false, doc)

/-! ## Writing a leaf -/

theorem findMember_replaceMember {name : String} {v w : Value} {ms : List (String × Value)}
    (found : Value.findMember name ms = some v) :
    Value.findMember name (replaceMember name w ms) = some w := by
  induction ms with
  | nil => cases found
  | cons m rest ih =>
      by_cases here : m.1 = name
      · simp [replaceMember, Value.findMember, here]
      · simp only [Value.findMember, here, if_false] at found
        simp [replaceMember, Value.findMember, here, ih found]

theorem findMember_replaceMember_of_ne {name other : String} {w : Value}
    {ms : List (String × Value)} (apart : other ≠ name) :
    Value.findMember other (replaceMember name w ms) = Value.findMember other ms := by
  induction ms with
  | nil => rfl
  | cons m rest ih =>
      by_cases here : m.1 = name
      · simp [replaceMember, Value.findMember, here, Ne.symm apart]
      · simp only [replaceMember, here, if_false, Value.findMember, ih]

theorem replaceMember_self {name : String} {v : Value} {ms : List (String × Value)}
    (found : Value.findMember name ms = some v) : replaceMember name v ms = ms := by
  induction ms with
  | nil => cases found
  | cons m rest ih =>
      by_cases here : m.1 = name
      · simp only [Value.findMember, here, if_true, Option.some.injEq] at found
        subst here found
        simp [replaceMember]
      · simp only [Value.findMember, here, if_false] at found
        simp [replaceMember, here, ih found]

/-- One step down a path that `findNode` can walk. -/
theorem findPath_cons {doc v : Value} {segment : String} {rest : List String}
    (found : findPath doc (segment :: rest) = some v) :
    ∃ ms w, doc = .object ms ∧ segment ≠ "" ∧ Value.findMember (cStr segment) ms = some w ∧
      findPath w rest = some v := by
  cases doc with
  | object ms =>
      simp only [findPath] at found
      split at found
      · cases found
      · split at found
        · cases found
        · exact ⟨ms, _, rfl, ‹_›, ‹_›, found⟩
  | _ => cases found

theorem comparePath_eq_findPath {path : List String} (full : ∀ segment ∈ path, segment ≠ "") :
    ∀ doc, comparePath doc path = findPath doc path := by
  induction path with
  | nil => intro doc; cases doc <;> rfl
  | cons segment rest ih =>
      intro doc
      cases doc with
      | object ms =>
          simp only [comparePath, findPath, full segment List.mem_cons_self, if_false]
          split
          · rfl
          · exact ih (fun other inside => full other (List.mem_cons_of_mem _ inside)) _
      | _ => rfl

/-- Nothing is created along a path that is there. -/
theorem createPath_of_found {path : List String} (last : String) :
    ∀ {doc v : Value}, findPath doc (path ++ [last]) = some v → createPath doc path = (true, doc) := by
  induction path with
  | nil =>
      intro doc v found
      obtain ⟨ms, w, rfl, -⟩ := findPath_cons found
      rfl
  | cons segment rest ih =>
      intro doc v found
      obtain ⟨ms, w, rfl, full, member, below⟩ := findPath_cons found
      simp [createPath, full, member, ih below, replaceMember_self member]

theorem assignPath_of_found (value : Value) {path : List String} :
    ∀ {doc v : Value}, findPath doc path = some v →
      ∃ changed, assignPath value doc path = .ok changed ∧ findPath changed path = some value := by
  induction path with
  | nil =>
      intro doc v _
      exact ⟨value, by cases doc <;> rfl, by cases value <;> rfl⟩
  | cons segment rest ih =>
      intro doc v found
      obtain ⟨ms, w, rfl, full, member, below⟩ := findPath_cons found
      obtain ⟨changed, assigned, there⟩ := ih below
      refine ⟨.object (replaceMember (cStr segment) changed ms), ?_, ?_⟩
      · simp [assignPath, member, assigned, bind, Except.bind, pure, Except.pure]
      · simp [findPath, full, findMember_replaceMember member, there]

/-- The key names a node that a value of this type may replace. -/
def Settable (doc : Value) (key : String) (value : Value) : Prop :=
  ∃ node, findPath doc (segments key) = some node ∧ sameType value node = true

variable {doc value : Value} {key : String}

theorem compareJsonTypeByPath_iff (nonempty : key ≠ "")
    (full : ∀ segment ∈ segments key, segment ≠ "") :
    compareJsonTypeByPath key doc value = true ↔ Settable doc key value := by
  rw [compareJsonTypeByPath, if_neg nonempty, comparePath_eq_findPath full]
  unfold Settable
  cases findPath doc (segments key) <;> simp

theorem isObject_of_sameType {v w : Value} (same : sameType v w = true)
    (leaf : v.isObject = false) : w.isObject = false := by
  cases v with
  | bool b => cases w <;> cases b <;> simp_all [sameType, Value.getType, Value.isBool, Value.isObject]
  | object ms => cases leaf
  | _ => cases w <;> simp_all [sameType, Value.getType, Value.isBool, Value.isObject]

/-- **A write of a leaf succeeds when the key is settable**, and the key then reads
back the value. -/
theorem setConfig_of_settable (nonempty : key ≠ "")
    (full : ∀ segment ∈ segments key, segment ≠ "") (leaf : value.isObject = false)
    (settable : Settable doc key value) :
    ∃ changed, setConfig doc key value = .ok (true, changed) ∧
      getConfig changed key = some value := by
  have compared := (compareJsonTypeByPath_iff nonempty full).2 settable
  obtain ⟨node, found, same⟩ := settable
  obtain ⟨changed, assigned, there⟩ := assignPath_of_found value found
  have path : segments key ≠ [] := by
    intro empty
    simp [segments, List.splitOn_ne_nil] at empty
  have created : createPath doc (segments key).dropLast = (true, doc) := by
    refine createPath_of_found ((segments key).getLast path) (v := node) ?_
    rwa [List.dropLast_concat_getLast]
  obtain ⟨segment, rest, shape⟩ := List.exists_cons_of_ne_nil path
  refine ⟨changed, ?_, ?_⟩
  · simp [setConfig, nonempty, compared, found, isObject_of_sameType same leaf, replaceNode, created,
      assigned, bind, Except.bind, pure, Except.pure]
  · obtain ⟨ms, w, rfl, -⟩ := findPath_cons (shape ▸ there)
    rw [getConfig, if_neg (by simp [Value.isObject]), if_neg nonempty, there]

/-- ... and changes nothing when it is not. -/
theorem setConfig_of_not_settable (nonempty : key ≠ "")
    (full : ∀ segment ∈ segments key, segment ≠ "") (unset : ¬ Settable doc key value) :
    setConfig doc key value = .ok (false, doc) := by
  have compared : ¬ compareJsonTypeByPath key doc value = true :=
    fun compared => unset ((compareJsonTypeByPath_iff nonempty full).1 compared)
  simp [setConfig, nonempty, compared]

end ChargerStack.Ocpp.Config
