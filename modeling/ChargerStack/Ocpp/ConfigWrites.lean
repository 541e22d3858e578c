/-
# Ocpp.ConfigWrites -- what a write does to the rest of the document

Four walkers split a key at its dots: the type test, `findNode`,
`findOrCreateParentNode` and the final assignment.  They agree on every key, and on
keys without a NUL they agree with the names of the document.

* `setConfig_cases`: a write returns, and leaves the document alone unless it returns
  true;
* `setConfig_true`: one that returns true has assigned the value at its path;
* `setConfig_correct`: on a key of full segments without a NUL it returns true exactly
  when the path leads to a node of the value's type, and changes that node only.
-/
import ChargerStack.Rapidjson.Path
import ChargerStack.Ocpp.ConfigManager

namespace ChargerStack.Ocpp.Config

open Cxx Rapidjson Value

set_option autoImplicit false

variable {doc value v : Value} {key : String} {path : List String}

/-! ## The walkers agree -/

theorem comparePath_cons {segment : String} {rest : List String}
    (found : comparePath doc (segment :: rest) = some v) :
    ∃ ms w, doc = .object ms ∧ findMember (cStr segment) ms = some w ∧ comparePath w rest = some v := by
  cases doc with
  | object ms =>
      simp only [comparePath] at found
      split at found
      · cases found
      · exact ⟨ms, _, rfl, ‹_›, found⟩
  | _ => cases found

/-- Nothing is added along a path the type test walked. -/
theorem createPath_of_compared (last : String) :
    ∀ {doc v : Value}, comparePath doc (path ++ [last]) = some v → (createPath doc path).2 = doc := by
  induction path with
  | nil =>
      intro doc v _
      cases doc <;> rfl
  | cons segment rest ih =>
      intro doc v found
      obtain ⟨ms, w, rfl, member, below⟩ := comparePath_cons found
      by_cases empty : segment = ""
      · simp [createPath, empty]
      · simp [createPath, empty, member, ih below, replaceMember_self member]

/-- The assignment meets no assertion there. -/
theorem assignPath_of_compared (value : Value) :
    ∀ {doc v : Value}, comparePath doc path = some v →
      ∃ changed, assignPath value doc path = .ok changed := by
  induction path with
  | nil =>
      intro doc v _
      exact ⟨value, by cases doc <;> rfl⟩
  | cons segment rest ih =>
      intro doc v found
      obtain ⟨ms, w, rfl, member, below⟩ := comparePath_cons found
      obtain ⟨changed, assigned⟩ := ih below
      refine ⟨.object (replaceMember (cStr segment) changed ms), ?_⟩
      simp [assignPath, member, assigned, bind, Except.bind, pure, Except.pure]

theorem segments_ne_nil (key : String) : segments key ≠ [] := by
  intro empty
  simp [segments, List.splitOn_ne_nil] at empty

theorem createPath_segments (found : comparePath doc (segments key) = some v) :
    (createPath doc (segments key).dropLast).2 = doc := by
  refine createPath_of_compared ((segments key).getLast (segments_ne_nil key)) (v := v) ?_
  rwa [List.dropLast_concat_getLast]

theorem replaceNode_cases (found : comparePath doc (segments key) = some v) :
    (∃ changed, replaceNode doc key value = .ok (true, changed)) ∨
      replaceNode doc key value = .ok (false, doc) := by
  obtain ⟨changed, assigned⟩ := assignPath_of_compared value found
  unfold replaceNode
  simp only [createPath_segments found, assigned, bind, Except.bind, pure, Except.pure]
  split
  · exact .inl ⟨changed, rfl⟩
  · exact .inr rfl

/-- **A write returns, and one that returns false has changed nothing.** -/
theorem setConfig_cases (doc : Value) (key : String) (value : Value) :
    (∃ changed, setConfig doc key value = .ok (true, changed)) ∨
      setConfig doc key value = .ok (false, doc) := by
  unfold setConfig
  split
  · split
    · exact .inl ⟨value, rfl⟩
    · exact .inr rfl
  · rename_i nonempty
    split
    · exact .inr rfl
    · rename_i compared
      obtain ⟨v, found⟩ : ∃ v, comparePath doc (segments key) = some v := by
        rw [compareJsonTypeByPath, if_neg nonempty] at compared
        cases found : comparePath doc (segments key) with
        | none => simp [found] at compared
        | some v => exact ⟨v, rfl⟩
      split
      · split
        · exact replaceNode_cases found
        · split
          · exact replaceNode_cases found
          · exact .inr rfl
      · split
        · exact replaceNode_cases found
        · exact .inr rfl

/-! ## Keys as paths -/

/-- The path a key stands for; the empty key stands for the document. -/
def pathOf (key : String) : List String := if key = "" then [] else segments key

/-- Every segment is a C string. -/
def CKey (key : String) : Prop := ∀ segment ∈ segments key, NulFree segment

/-- Every segment has a text. -/
def FullKey (key : String) : Prop := ∀ segment ∈ segments key, segment ≠ ""

instance (key : String) : Decidable (CKey key) :=
  inferInstanceAs (Decidable (∀ segment ∈ segments key, NulFree segment))

instance (key : String) : Decidable (FullKey key) :=
  inferInstanceAs (Decidable (∀ segment ∈ segments key, segment ≠ ""))

theorem FullKey.nonempty (full : FullKey key) : key ≠ "" := by
  rintro rfl
  exact full "" (by decide) rfl

theorem findPath_eq_resolve (full : ∀ segment ∈ path, segment ≠ "")
    (clean : ∀ segment ∈ path, NulFree segment) (doc : Value) :
    findPath doc path = resolve doc path := by
  induction path generalizing doc with
  | nil => cases doc <;> rfl
  | cons segment rest ih =>
      cases doc with
      | object ms =>
          simp only [findPath, full segment List.mem_cons_self, if_false,
            cStr_of_nulFree (clean segment List.mem_cons_self), resolve_object]
          cases findMember segment ms with
          | none => rfl
          | some v =>
              exact ih (fun other inside => full other (List.mem_cons_of_mem _ inside))
                (fun other inside => clean other (List.mem_cons_of_mem _ inside)) v
      | _ => rfl

/-! ## What a write changes -/

/-- The write itself, on a key that names a node of the value's type. -/
theorem setConfig_assigns (full : FullKey key) (settable : Settable doc key value) :
    ∃ changed, setConfig doc key value = .ok (true, changed) ∧
      assignPath value doc (segments key) = .ok changed ∧
      findPath changed (segments key) = some value := by
  have compared := (compareJsonTypeByPath_iff full.nonempty full).2 settable
  obtain ⟨node, found, same⟩ := settable
  obtain ⟨changed, assigned, there⟩ := assignPath_of_found value found
  have created : createPath doc (segments key).dropLast = (true, doc) := by
    refine createPath_of_found ((segments key).getLast (segments_ne_nil key)) (v := node) ?_
    rwa [List.dropLast_concat_getLast]
  have replaced : replaceNode doc key value = .ok (true, changed) := by
    simp [replaceNode, created, assigned, bind, Except.bind, pure, Except.pure]
  refine ⟨changed, ?_, assigned, there⟩
  rw [setConfig, if_neg full.nonempty, compared, found]
  cases object : value.isObject with
  | false => simp [isObject_of_sameType same object, replaced]
  | true => simp [replaced]

/-- A node off the written path stays as it is. -/
theorem findPath_assignPath {other : List String} :
    ∀ {doc changed : Value}, assignPath value doc path = .ok changed →
      (∀ segment ∈ path, NulFree segment) → (∀ segment ∈ other, NulFree segment) →
      ¬ path <+: other → ¬ other <+: path → findPath changed other = findPath doc other := by
  induction path generalizing other with
  | nil =>
      intro doc changed _ _ _ apart
      exact absurd List.nil_prefix apart
  | cons segment rest ih =>
      intro doc changed assigned clean cleanOther apart apart'
      cases other with
      | nil => exact absurd List.nil_prefix apart'
      | cons first others =>
          cases doc with
          | object ms =>
              simp only [assignPath] at assigned
              split at assigned
              · cases assigned
              · rename_i v member
                obtain ⟨w, below, result⟩ := bind_ok assigned
                obtain rfl := Except.ok.inj result
                have here := cStr_of_nulFree (clean segment List.mem_cons_self)
                have there := cStr_of_nulFree (cleanOther first List.mem_cons_self)
                rw [here] at member ⊢
                by_cases same : first = segment
                · subst same
                  simp only [findPath, there, findMember_replaceMember member, member]
                  rw [ih below (fun s inside => clean s (List.mem_cons_of_mem _ inside))
                    (fun s inside => cleanOther s (List.mem_cons_of_mem _ inside))
                    (fun before => apart (List.cons_prefix_cons.2 ⟨rfl, before⟩))
                    (fun before => apart' (List.cons_prefix_cons.2 ⟨rfl, before⟩))]
                · simp only [findPath, there, findMember_replaceMember_of_ne same]
          | _ => cases assigned

theorem isObject_assignPath {segment : String} {rest : List String} {changed : Value}
    (assigned : assignPath value doc (segment :: rest) = .ok changed) :
    doc.isObject = true ∧ changed.isObject = true := by
  cases doc with
  | object ms =>
      simp only [assignPath] at assigned
      split at assigned
      · cases assigned
      · obtain ⟨w, -, result⟩ := bind_ok assigned
        obtain rfl := Except.ok.inj result
        exact ⟨rfl, rfl⟩
  | _ => cases assigned

/-- **A write to a key of full segments without a NUL.**  It returns true exactly when
the path leads to a node of the value's type; then the key reads the value and no key
off its path reads anything new; otherwise the document is as it was. -/
theorem setConfig_correct (full : FullKey key) (clean : CKey key) (doc value : Value) :
    ∃ returned changed, setConfig doc key value = .ok (returned, changed) ∧
      (returned = true ↔
        ∃ node, resolve doc (pathOf key) = some node ∧ sameType value node = true) ∧
      (returned = true → getConfig changed key = some value ∧
        ∀ k, CKey k → ¬ pathOf k <+: pathOf key → ¬ pathOf key <+: pathOf k →
          getConfig changed k = getConfig doc k) ∧
      (returned = false → changed = doc) := by
  have path : pathOf key = segments key := if_neg full.nonempty
  have settable_iff : Settable doc key value ↔
      ∃ node, resolve doc (pathOf key) = some node ∧ sameType value node = true := by
    rw [path, ← findPath_eq_resolve full clean]
    rfl
  rw [← settable_iff]
  by_cases settable : Settable doc key value
  · obtain ⟨changed, written, assigned, there⟩ := setConfig_assigns full settable
    obtain ⟨segment, rest, shape⟩ := List.exists_cons_of_ne_nil (segments_ne_nil key)
    obtain ⟨object, object'⟩ := isObject_assignPath (shape ▸ assigned)
    refine ⟨true, changed, written, by simp [settable], fun _ => ⟨?_, ?_⟩, by simp⟩
    · rw [getConfig, if_neg (by simp [object']), if_neg full.nonempty, there]
    · intro k cleanK apart apart'
      rw [path] at apart apart'
      have nonempty : k ≠ "" := by
        rintro rfl
        exact apart List.nil_prefix
      rw [pathOf, if_neg nonempty] at apart apart'
      simp only [getConfig, object, object', nonempty, not_true_eq_false, if_false]
      exact findPath_assignPath assigned clean cleanK apart' apart
  · refine ⟨false, doc, setConfig_of_not_settable full.nonempty full settable, by simp [settable],
      by simp, fun _ => rfl⟩

/-! ## Writes as paths -/

theorem comparePath_eq_resolve (clean : ∀ segment ∈ path, NulFree segment) (doc : Value) :
    comparePath doc path = resolve doc path := by
  induction path generalizing doc with
  | nil => cases doc <;> rfl
  | cons segment rest ih =>
      cases doc with
      | object ms =>
          simp only [comparePath, cStr_of_nulFree (clean segment List.mem_cons_self), resolve_object]
          cases findMember segment ms with
          | none => rfl
          | some v => exact ih (fun other inside => clean other (List.mem_cons_of_mem _ inside)) v
      | _ => rfl

theorem findPath_full (found : findPath doc path = some v) : ∀ segment ∈ path, segment ≠ "" := by
  induction path generalizing doc with
  | nil => nofun
  | cons segment rest ih =>
      obtain ⟨ms, w, rfl, full, -, below⟩ := findPath_cons found
      intro other inside
      rcases List.mem_cons.1 inside with rfl | later
      · exact full
      · exact ih below other later

theorem assignPath_of_replaced {changed : Value} (found : comparePath doc (segments key) = some v)
    (replaced : replaceNode doc key value = .ok (true, changed)) :
    assignPath value doc (segments key) = .ok changed := by
  unfold replaceNode at replaced
  simp only [createPath_segments found] at replaced
  split at replaced
  · obtain ⟨c, assigned, result⟩ := bind_ok replaced
    cases result
    exact assigned
  · cases replaced

@[simp] theorem assignPath_nil (value doc : Value) : assignPath value doc [] = .ok value := by
  cases doc <;> rfl

/-- What the code has checked when it returns true, and what it has done. -/
theorem setConfig_true {changed : Value} (wrote : setConfig doc key value = .ok (true, changed)) :
    ∃ node, comparePath doc (pathOf key) = some node ∧
      assignPath value doc (pathOf key) = .ok changed ∧
      ((key = "" ∧ value.isObject = true) ∨
        (key ≠ "" ∧ sameType value node = true ∧
          (findPath doc (segments key) = none → value.isObject = true))) := by
  unfold setConfig at wrote
  by_cases empty : key = ""
  · rw [if_pos empty] at wrote
    split at wrote
    · rename_i object
      cases wrote
      rw [pathOf, if_pos empty]
      exact ⟨doc, by cases doc <;> rfl, assignPath_nil value doc, .inl ⟨empty, object⟩⟩
    · cases wrote
  · rw [if_neg empty] at wrote
    rw [pathOf, if_neg empty]
    split at wrote
    · cases wrote
    rename_i compared
    rw [compareJsonTypeByPath, if_neg empty] at compared
    cases found : comparePath doc (segments key) with
    | none => simp [found] at compared
    | some node =>
        simp only [found, Decidable.not_not] at compared
        refine ⟨node, rfl, ?_⟩
        split at wrote
        · rename_i existNode there
          have replaced : replaceNode doc key value = .ok (true, changed) := by
            split at wrote
            · exact wrote
            · split at wrote
              · exact wrote
              · cases wrote
          exact ⟨assignPath_of_replaced found replaced, .inr ⟨empty, compared, by simp [there]⟩⟩
        · split at wrote
          · rename_i object
            exact ⟨assignPath_of_replaced found wrote, .inr ⟨empty, compared, fun _ => object⟩⟩
          · cases wrote

/-- The nodes above the written one, and the written one itself. -/
theorem assignPath_append {p r : List String} (clean : ∀ segment ∈ p, NulFree segment) :
    ∀ {doc changed : Value}, assignPath value doc (p ++ r) = .ok changed →
      ∃ d c, resolve doc p = some d ∧ resolve changed p = some c ∧ assignPath value d r = .ok c := by
  induction p with
  | nil =>
      intro doc changed assigned
      exact ⟨doc, changed, resolve_nil doc, resolve_nil changed, assigned⟩
  | cons segment p ih =>
      intro doc changed assigned
      cases doc with
      | object ms =>
          simp only [List.cons_append, assignPath, cStr_of_nulFree (clean segment List.mem_cons_self)]
            at assigned
          split at assigned
          · cases assigned
          · rename_i v member
            obtain ⟨w, below, result⟩ := bind_ok assigned
            obtain rfl := Except.ok.inj result
            obtain ⟨d, c, there, there', rest⟩ :=
              ih (fun other inside => clean other (List.mem_cons_of_mem _ inside)) below
            refine ⟨d, c, ?_, ?_, rest⟩
            · rw [resolve_object, member]
              exact there
            · rw [resolve_object, findMember_replaceMember member]
              exact there'
      | _ => cases assigned

def limits : Value := .object [("limits", .object [("current", .int 16), ("voltage", .int 230)])]

theorem setConfig_limits :
    ∃ changed, setConfig limits "limits.current" (.int 32) = .ok (true, changed) ∧
      getConfig changed "limits.current" = some (.int 32) ∧
      getConfig changed "limits.voltage" = getConfig limits "limits.voltage" := by
  obtain ⟨returned, changed, written, returned_iff, stored, -⟩ :=
    setConfig_correct (by decide : FullKey "limits.current") (by decide) limits (.int 32)
  have returned : returned = true := returned_iff.2 ⟨.int 16, rfl, rfl⟩
  subst returned
  obtain ⟨there, others⟩ := stored rfl
  exact ⟨changed, written, there, others "limits.voltage" (by decide) (by decide) (by decide)⟩

/-- A key with a NUL writes the node before it. -/
theorem nul_key_writes_another :
    FullKey "a\x00b" ∧ ∃ changed,
      setConfig (.object [("a", .int 1)]) "a\x00b" (.int 2) = .ok (true, changed) ∧
      resolve (.object [("a", .int 1)]) (pathOf "a\x00b") = none ∧
      getConfig changed "a" = some (.int 2) ∧ getConfig (.object [("a", .int 1)]) "a" = some (.int 1) :=
  ⟨by decide, _, rfl, rfl, rfl, rfl⟩

end ChargerStack.Ocpp.Config
