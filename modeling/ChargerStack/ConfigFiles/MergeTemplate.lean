/-
# ConfigFiles.MergeTemplate -- cJSON_MergeWithTemplate of config/config_cmp_key.c

`MergeNode` walks the template, the values `b` and the copy `a1` of the template at once and
writes into `a1`.  A member that `b` has is first replaced by a copy of `b`'s member; the
recursive call then merges onto that copy.

The recursion follows the template.  The two loops are described by what they leave of each
node (`mergeItems_iff`, `mergeMembers_iff`), and merging onto a copy of `b`, which is what
happens everywhere below an object, child by child (`merged_copy_iff`): it never crashes
(`merged_copy_isSome`) and done twice is done once (`merged_copy_again`).
-/
import ChargerStack.ConfigFiles.CJson

namespace ChargerStack.ConfigFiles.MergeTemplate

open ChargerStack.ConfigFiles.CJson

set_option autoImplicit false

variable {D : Type}

/-- `cJSON_SetValuestring`: the node written, `none` in place of NULL.  The outer `none` is
`strlen` of a NULL pointer, in either text. -/
def setValuestring (object : Node D) (valuestring : Option String) : Option (Option (Node D)) :=
  if object.kind ≠ .string then some none
  else
    match valuestring, object.valuestring with
    | some text, some _ => some (some { object with valuestring := some text })
    | _, _ => none

mutual

/-- `MergeNode`: its answer and `a1` as it leaves it; `none` is a crash. -/
def mergeNode : Node D → Node D → Node D → Option (Bool × Node D)
  | ⟨kind, _, _, _, _, child⟩, b, a1 =>
      match kind with
      | .false | .true | .null => some (true, { a1 with kind := b.kind })
      | .number =>
          some (true, { a1 with
            valuedouble := b.valuedouble, valueint := b.valueint, kind := .number })
      | .string | .raw =>
          match setValuestring a1 b.valuestring with
          | none => none
          | some none => some (false, a1)
          | some (some a1) => some (true, { a1 with kind := b.kind })
      | .object => (mergeMembers child b.child a1.child).map fun merged =>
          (true, { a1 with child := merged })
      | .array => (mergeItems child b.child a1.child).map fun merged =>
          (true, { a1 with child := merged })
      | .invalid => some (true, a1)
  termination_by structural a => a

/-- The loop over the members of the template.  A member that `b` has is put into `a1` as a
copy first, and the copy is then merged. -/
def mergeMembers : List (Node D) → List (Node D) → List (Node D) → Option (List (Node D))
  | [], _, a1 => some a1
  | aChild :: rest, b, a1 =>
      match aChild.string with
      | none => mergeMembers rest b a1
      | some name =>
          match findItem name b with
          | none => mergeMembers rest b a1
          | some bChild =>
              match findItem name a1 with
              | none => mergeMembers rest b a1
              | some _ =>
                  match mergeNode aChild bChild bChild with
                  | none => none
                  | some (_, item) => mergeMembers rest b (replaceItem name item a1)
  termination_by structural a => a

/-- The loop over the items of the template, as far as all three lists go. -/
def mergeItems : List (Node D) → List (Node D) → List (Node D) → Option (List (Node D))
  | aChild :: a, bChild :: b, a1Child :: a1 =>
      match mergeNode aChild bChild a1Child with
      | none => none
      | some (_, item) => (mergeItems a b a1).map (item :: ·)
  | _, _, a1 => some a1
  termination_by structural a => a

end

/-- `is_valid_cjson_type`. -/
def isValidCjsonType (kind : Kind) : Bool := kind ≠ .invalid

/-- `cJSON_MergeWithTemplate`, the outer `none` a crash and the inner one NULL. -/
def cJSONMergeWithTemplate : Option (Node D) → Option (Node D) → Option (Option (Node D))
  | some a, some b =>
      if isValidCjsonType a.kind = false ∨ isValidCjsonType b.kind = false then some none
      else (mergeNode a b a).map fun result => some result.2
  | _, _ => some none

/-! ## What merging does to one node -/

/-- `a1` as `MergeNode` leaves it. -/
def merged (a b a1 : Node D) : Option (Node D) := (mergeNode a b a1).map Prod.snd

section Kinds

variable {a : Node D} (b a1 : Node D)

theorem merged_plain (kind : a.kind = .false ∨ a.kind = .true ∨ a.kind = .null) :
    merged a b a1 = some { a1 with kind := b.kind } := by
  obtain ⟨kind', _, _, _, _, _⟩ := a
  rcases kind with rfl | rfl | rfl <;> rfl

theorem merged_number (kind : a.kind = .number) :
    merged a b a1 = some { a1 with
      valuedouble := b.valuedouble, valueint := b.valueint, kind := .number } := by
  obtain ⟨kind', _, _, _, _, _⟩ := a
  obtain rfl := kind
  rfl

theorem merged_text (kind : a.kind = .string ∨ a.kind = .raw) :
    merged a b a1 = (setValuestring a1 b.valuestring).map fun set =>
      match set with
      | none => a1
      | some a1 => { a1 with kind := b.kind } := by
  obtain ⟨kind', _, _, _, _, _⟩ := a
  rcases kind with rfl | rfl <;>
  · rw [merged, mergeNode]
    cases setValuestring a1 b.valuestring with
    | none => rfl
    | some set => cases set <;> rfl

theorem merged_object (kind : a.kind = .object) :
    merged a b a1 =
      (mergeMembers a.child b.child a1.child).map fun child => { a1 with child := child } := by
  obtain ⟨kind', _, _, _, _, _⟩ := a
  obtain rfl := kind
  rw [merged, mergeNode, Option.map_map]
  rfl

theorem merged_array (kind : a.kind = .array) :
    merged a b a1 =
      (mergeItems a.child b.child a1.child).map fun child => { a1 with child := child } := by
  obtain ⟨kind', _, _, _, _, _⟩ := a
  obtain rfl := kind
  rw [merged, mergeNode, Option.map_map]
  rfl

end Kinds

theorem setValuestring_some {object set : Node D} {valuestring : Option String}
    (ran : setValuestring object valuestring = some (some set)) :
    object.kind = .string ∧ ∃ text, valuestring = some text ∧
      set = { object with valuestring := some text } := by
  unfold setValuestring at ran
  split at ran
  · cases ran
  · rename_i kind
    cases valuestring with
    | none => cases ran
    | some text =>
        cases old : object.valuestring with
        | none => rw [old] at ran; cases ran
        | some before =>
            rw [old] at ran
            cases ran
            exact ⟨not_not.1 kind, text, rfl, rfl⟩

theorem setValuestring_other {object : Node D} (kind : object.kind ≠ .string)
    (valuestring : Option String) : setValuestring object valuestring = some none := by
  unfold setValuestring
  rw [if_pos kind]

theorem setValuestring_string {object : Node D} (kind : object.kind = .string) {old : String}
    (before : object.valuestring = some old) (text : String) :
    setValuestring object (some text) = some (some { object with valuestring := some text }) := by
  unfold setValuestring
  rw [if_neg (not_not.2 kind), before]

/-- The name of `a1` is not written. -/
theorem merged_string {a b a1 y : Node D} (ran : merged a b a1 = some y) :
    y.string = a1.string := by
  cases kind : a.kind with
  | false | true | null => rw [merged_plain b a1 (by simp [kind])] at ran; cases ran; rfl
  | number => rw [merged_number b a1 kind] at ran; cases ran; rfl
  | string | raw =>
      rw [merged_text b a1 (by simp [kind]), Option.map_eq_some_iff] at ran
      obtain ⟨set, hset, rfl⟩ := ran
      cases set with
      | none => rfl
      | some set =>
          obtain ⟨-, text, -, rfl⟩ := setValuestring_some hset
          rfl
  | object =>
      rw [merged_object b a1 kind, Option.map_eq_some_iff] at ran
      obtain ⟨child, -, rfl⟩ := ran
      rfl
  | array =>
      rw [merged_array b a1 kind, Option.map_eq_some_iff] at ran
      obtain ⟨child, -, rfl⟩ := ran
      rfl
  | invalid =>
      obtain ⟨_, _, _, _, _, _⟩ := a
      obtain rfl := kind
      rw [merged, mergeNode] at ran
      cases ran
      rfl

/-! ## The loop over the items -/

/-- What becomes of the node `x` of `a1` where the template and `b` have `v` and `w`. -/
def ItemMerged : Option (Node D) → Option (Node D) → Node D → Node D → Prop
  | some v, some w, x, y => merged v w x = some y
  | _, _, x, y => y = x

theorem mergeItems_cons (v w x : Node D) (a b a1 : List (Node D)) :
    mergeItems (v :: a) (w :: b) (x :: a1) =
      (merged v w x).bind fun item => (mergeItems a b a1).map (item :: ·) := by
  rw [mergeItems, merged]
  cases mergeNode v w x with
  | none => rfl
  | some result => rfl

theorem mergeItems_of_end {a b a1 : List (Node D)} (ended : a = [] ∨ b = [] ∨ a1 = []) :
    mergeItems a b a1 = some a1 := by
  rw [mergeItems]
  rintro v a' w b' x a1' rfl rfl rfl
  simp at ended

theorem unchanged_iff {a1 out : List (Node D)} :
    some a1 = some out ↔ out.length = a1.length ∧
      ∀ (i : Nat) (x y : Node D), a1[i]? = some x → out[i]? = some y → y = x := by
  constructor
  · rintro ⟨⟩
    exact ⟨rfl, fun i x y hx hy => Option.some.inj (hy.symm.trans hx)⟩
  · rintro ⟨length, each⟩
    congr 1
    apply List.ext_getElem length.symm
    intro i hi ho
    exact (each i _ _ (List.getElem?_eq_getElem hi) (List.getElem?_eq_getElem ho)).symm

/-- The loop leaves a list exactly when it leaves each node as `ItemMerged` says. -/
theorem mergeItems_iff {a b a1 out : List (Node D)} :
    mergeItems a b a1 = some out ↔ out.length = a1.length ∧
      ∀ (i : Nat) (x y : Node D), a1[i]? = some x → out[i]? = some y →
        ItemMerged a[i]? b[i]? x y := by
  induction a generalizing b a1 out with
  | nil =>
      rw [mergeItems_of_end (.inl rfl), unchanged_iff]
      simp [ItemMerged]
  | cons v a ih =>
      cases b with
      | nil =>
          rw [mergeItems_of_end (.inr (.inl rfl)), unchanged_iff]
          simp [ItemMerged]
      | cons w b =>
          cases a1 with
          | nil =>
              rw [mergeItems_of_end (.inr (.inr rfl)), unchanged_iff]
              simp
          | cons x a1 =>
              rw [mergeItems_cons, Option.bind_eq_some_iff]
              constructor
              · rintro ⟨item, hitem, ran⟩
                obtain ⟨rest, hrest, rfl⟩ := Option.map_eq_some_iff.1 ran
                obtain ⟨length, each⟩ := ih.1 hrest
                refine ⟨by simp [length], fun i x' y hx hy => ?_⟩
                cases i with
                | zero =>
                    cases hx
                    cases hy
                    exact hitem
                | succ i => exact each i x' y hx hy
              · rintro ⟨length, each⟩
                cases out with
                | nil => cases length
                | cons y out =>
                    refine ⟨y, each 0 x y rfl rfl, Option.map_eq_some_iff.2 ⟨out, ?_, rfl⟩⟩
                    exact ih.2 ⟨Nat.succ.inj length, fun i => each (i + 1)⟩

/-- It ends without a crash when each of its calls does. -/
theorem mergeItems_isSome {a b a1 : List (Node D)}
    (each : ∀ (i : Nat) (v w x : Node D), a[i]? = some v → b[i]? = some w → a1[i]? = some x →
      ∃ y, merged v w x = some y) : ∃ out, mergeItems a b a1 = some out := by
  induction a generalizing b a1 with
  | nil => exact ⟨a1, mergeItems_of_end (.inl rfl)⟩
  | cons v a ih =>
      cases b with
      | nil => exact ⟨a1, mergeItems_of_end (.inr (.inl rfl))⟩
      | cons w b =>
          cases a1 with
          | nil => exact ⟨[], mergeItems_of_end (.inr (.inr rfl))⟩
          | cons x a1 =>
              obtain ⟨y, hy⟩ := each 0 v w x rfl rfl rfl
              obtain ⟨out, hout⟩ := @ih b a1 fun i => each (i + 1)
              exact ⟨y :: out, by rw [mergeItems_cons, hy, hout]; rfl⟩

/-! ## The loop over the members -/

/-- What becomes of the member `x` of `a1`: where the template and `b` have members of its
name, it is replaced by what merging makes of the copy. -/
def MemberMerged (a b : List (Node D)) (x y : Node D) : Prop :=
  match x.string with
  | none => y = x
  | some name =>
      match findItem name a, findItem name b with
      | some v, some w => merged v w w = some y
      | _, _ => y = x

theorem mergeMembers_cons {v : Node D} {name : String} (named : v.string = some name)
    (a b a1 : List (Node D)) :
    mergeMembers (v :: a) b a1 =
      match findItem name b, findItem name a1 with
      | some w, some _ => (merged v w w).bind fun item => mergeMembers a b (replaceItem name item a1)
      | _, _ => mergeMembers a b a1 := by
  rw [mergeMembers, named]
  dsimp only
  cases findItem name b with
  | none => rfl
  | some w =>
      cases findItem name a1 with
      | none => rfl
      | some x =>
          dsimp only
          rw [merged]
          cases mergeNode v w w <;> rfl

theorem memberMerged_cons_of_ne {v x : Node D} {a : List (Node D)} {key : String}
    (named : v.string = some key) (apart : x.string ≠ some key) (b : List (Node D)) (y : Node D) :
    MemberMerged (v :: a) b x y ↔ MemberMerged a b x y := by
  unfold MemberMerged
  cases hx : x.string with
  | none => rfl
  | some name =>
      have other : key ≠ name := by
        rintro rfl
        exact apart hx
      simp only [findItem_cons named, if_neg other]

theorem forall₂_iff_getElem? {α β : Type} {R : α → β → Prop} {l : List α} {out : List β} :
    List.Forall₂ R l out ↔ out.length = l.length ∧
      ∀ (i : Nat) (x : α) (y : β), l[i]? = some x → out[i]? = some y → R x y := by
  rw [List.forall₂_iff_get, eq_comm]
  refine and_congr_right fun length => ⟨fun each i x y hx hy => ?_, fun each i hx hy => ?_⟩
  · obtain ⟨hi, rfl⟩ := List.getElem?_eq_some_iff.1 hx
    obtain ⟨ho, rfl⟩ := List.getElem?_eq_some_iff.1 hy
    exact each i hi ho
  · exact each i _ _ (List.getElem?_eq_getElem hx) (List.getElem?_eq_getElem hy)

theorem forall₂_congr_mem {α β : Type} {R S : α → β → Prop} {l : List α} {out : List β}
    (each : ∀ x ∈ l, ∀ y, R x y ↔ S x y) : List.Forall₂ R l out ↔ List.Forall₂ S l out := by
  induction l generalizing out with
  | nil => simp
  | cons x l ih =>
      cases out with
      | nil => simp
      | cons y out =>
          rw [List.forall₂_cons, List.forall₂_cons, each x List.mem_cons_self,
            ih fun x' member => each x' (List.mem_cons_of_mem x member)]

theorem memberMerged_some {a b : List (Node D)} {x : Node D} {name : String}
    (named : x.string = some name) (y : Node D) :
    MemberMerged a b x y ↔
      match findItem name a, findItem name b with
      | some v, some w => merged v w w = some y
      | _, _ => y = x := by
  rw [MemberMerged, named]

/-- The loop leaves a list exactly when it leaves each member as `MemberMerged` says. -/
theorem mergeMembers_iff {a b a1 out : List (Node D)} (named : Named a) (target : Named a1) :
    mergeMembers a b a1 = some out ↔ List.Forall₂ (MemberMerged a b) a1 out := by
  induction a generalizing a1 with
  | nil =>
      have each : ∀ x ∈ a1, ∀ y, MemberMerged [] b x y ↔ x = y := by
        intro x member y
        obtain ⟨name, hx⟩ := target.named x member
        rw [memberMerged_some hx, findItem]
        exact eq_comm
      rw [mergeMembers, forall₂_congr_mem each, List.forall₂_eq_eq_eq]
      exact Option.some_inj
  | cons v a ih =>
      obtain ⟨name, hv⟩ := named.named v List.mem_cons_self
      have absent : findItem name a = none := by
        apply findItem_eq_none
        rw [← hv]
        exact (List.nodup_cons.1 named.distinct).1
      rw [mergeMembers_cons hv]
      cases hb : findItem name b with
      | none =>
          dsimp only
          rw [ih named.tail target]
          apply forall₂_congr_mem
          intro x member y
          by_cases same : x.string = some name
          · simp [memberMerged_some same, absent, hb]
          · exact (memberMerged_cons_of_ne hv same b y).symm
      | some w =>
          cases ha1 : findItem name a1 with
          | none =>
              dsimp only
              rw [ih named.tail target]
              apply forall₂_congr_mem
              intro x member y
              refine (memberMerged_cons_of_ne hv (fun same => ?_) b y).symm
              rw [target.findItem_eq member same] at ha1
              cases ha1
          | some x₀ =>
              dsimp only
              -- at `name` the list holds the merged copy, at every other name it is as before
              have step : ∀ item, merged v w w = some item →
                  (mergeMembers a b (replaceItem name item a1) = some out ↔
                    List.Forall₂ (MemberMerged (v :: a) b) a1 out) := by
                intro item hitem
                have kept : item.string = some name :=
                  (merged_string hitem).trans (findItem_some hb).2
                rw [ih named.tail (target.replaced kept), target.replaceItem_eq,
                  List.forall₂_map_left_iff]
                apply forall₂_congr_mem
                intro x member y
                by_cases same : x.string = some name
                · rw [if_pos same, memberMerged_some kept, memberMerged_some same, absent, hb,
                    findItem_cons hv, if_pos rfl]
                  simp [hitem, eq_comm]
                · rw [if_neg same]
                  exact (memberMerged_cons_of_ne hv same b y).symm
              constructor
              · intro ran
                obtain ⟨item, hitem, ran⟩ := Option.bind_eq_some_iff.1 ran
                exact (step item hitem).1 ran
              · intro all
                obtain ⟨member, same⟩ := findItem_some ha1
                obtain ⟨i, hi⟩ := List.mem_iff_getElem?.1 member
                obtain ⟨length, each⟩ := forall₂_iff_getElem?.1 all
                obtain ⟨y, hy⟩ : ∃ y, out[i]? = some y := by
                  have bound := (List.getElem?_eq_some_iff.1 hi).1
                  exact ⟨_, List.getElem?_eq_getElem (length ▸ bound)⟩
                have becomes := each i x₀ y hi hy
                rw [memberMerged_some same, hb, findItem_cons hv, if_pos rfl] at becomes
                exact Option.bind_eq_some_iff.2 ⟨y, becomes, (step y becomes).2 all⟩

theorem mergeMembers_isSome {a b a1 : List (Node D)}
    (each : ∀ v ∈ a, ∀ name w, v.string = some name → findItem name b = some w →
      ∃ y, merged v w w = some y) : ∃ out, mergeMembers a b a1 = some out := by
  induction a generalizing a1 with
  | nil => exact ⟨a1, rfl⟩
  | cons v a ih =>
      have rest : ∀ a1, ∃ out, mergeMembers a b a1 = some out := fun a1 =>
        ih fun v' member => each v' (List.mem_cons_of_mem v member)
      cases hv : v.string with
      | none =>
          rw [mergeMembers, hv]
          exact rest a1
      | some name =>
          rw [mergeMembers_cons hv]
          split
          · rename_i w x hw hx
            obtain ⟨y, hy⟩ := each v List.mem_cons_self name w hv hw
            rw [hy]
            exact rest (replaceItem name y a1)
          · exact rest a1

theorem mergeMembers_unnamed {a b a1 : List (Node D)} (unnamed : Unnamed a1) :
    mergeMembers a b a1 = some a1 := by
  induction a with
  | nil => rfl
  | cons v a ih =>
      cases hv : v.string with
      | none =>
          rw [mergeMembers, hv]
          exact ih
      | some name =>
          rw [mergeMembers_cons hv, unnamed.findItem_none name]
          cases findItem name b <;> exact ih

/-! ## Merging onto a copy of `b`

This is what happens below the top of an object: the member of `a1` is already the copy. -/

/-- The node of the template that the node `w` at index `i` of a copy of `b` is merged with. -/
def template (a : Node D) (i : Nat) (w : Node D) : Option (Node D) :=
  match a.kind with
  | .array => a.child[i]?
  | .object => w.string.bind fun name => findItem name a.child
  | _ => none

def mergedCopy : Option (Node D) → Node D → Option (Node D)
  | some v, w => merged v w w
  | none, w => some w

theorem memberMerged_copy {a b : List (Node D)} (listed : Listed b) {w y : Node D}
    (member : w ∈ b) :
    MemberMerged a b w y ↔
      mergedCopy (w.string.bind fun name => findItem name a) w = some y := by
  cases hw : w.string with
  | none =>
      rw [MemberMerged, hw]
      simp [mergedCopy, eq_comm]
  | some name =>
      have named : Named b := by
        rcases listed with named | unnamed
        · exact named
        · rw [unnamed w member] at hw
          cases hw
      rw [memberMerged_some hw, named.findItem_eq member hw]
      cases hv : findItem name a with
      | none => simp [mergedCopy, hv, eq_comm]
      | some v => simp [mergedCopy, hv]

theorem wrap_eq_some {x y : Node D} {run : Option (List (Node D))} :
    (run.map fun child => { x with child := child }) = some y ↔
      y = { x with child := y.child } ∧ run = some y.child := by
  rw [Option.map_eq_some_iff]
  constructor
  · rintro ⟨child, ran, rfl⟩
    exact ⟨rfl, ran⟩
  · rintro ⟨same, ran⟩
    exact ⟨y.child, ran, same.symm⟩

/-- Merging an array or an object onto a copy of `b`, child by child. -/
theorem merged_copy_iff {a b y : Node D} (value : Value a) (listed : Listed b.child)
    (container : a.kind = .array ∨ a.kind = .object) :
    merged a b b = some y ↔ y = { b with child := y.child } ∧
      y.child.length = b.child.length ∧
      ∀ (i : Nat) (w y' : Node D), b.child[i]? = some w → y.child[i]? = some y' →
        mergedCopy (template a i w) w = some y' := by
  rcases container with kind | kind
  · rw [merged_array b b kind, wrap_eq_some, mergeItems_iff]
    refine and_congr_right fun _ => and_congr_right fun _ => ?_
    refine forall_congr' fun i => forall_congr' fun w => forall_congr' fun y' => ?_
    refine imp_congr_right fun hw => imp_congr_right fun _ => ?_
    rw [template, kind, hw]
    cases a.child[i]? with
    | none => simp [ItemMerged, mergedCopy, eq_comm]
    | some v => rfl
  · rw [merged_object b b kind, wrap_eq_some]
    refine and_congr_right fun _ => ?_
    have loop : mergeMembers a.child b.child b.child = some y.child ↔
        List.Forall₂ (MemberMerged a.child b.child) b.child y.child := by
      rcases listed with named | unnamed
      · exact mergeMembers_iff (value.members kind) named
      · rw [mergeMembers_unnamed unnamed]
        have each : ∀ w ∈ b.child, ∀ y', MemberMerged a.child b.child w y' ↔ w = y' := by
          intro w member y'
          rw [MemberMerged, unnamed w member]
          exact eq_comm
        rw [forall₂_congr_mem each, List.forall₂_eq_eq_eq]
        exact Option.some_inj
    rw [loop, forall₂_iff_getElem?]
    refine and_congr_right fun _ => ?_
    refine forall_congr' fun i => forall_congr' fun w => forall_congr' fun y' => ?_
    refine imp_congr_right fun hw => imp_congr_right fun _ => ?_
    rw [template, kind]
    exact memberMerged_copy listed (List.mem_of_getElem? hw)

theorem template_mem {a v w : Node D} {i : Nat} (found : template a i w = some v) :
    v ∈ a.child := by
  unfold template at found
  split at found
  · exact List.mem_of_getElem? found
  · obtain ⟨name, -, hv⟩ := Option.bind_eq_some_iff.1 found
    exact (findItem_some hv).1
  · cases found

theorem template_congr {a w y : Node D} {i : Nat} (string : y.string = w.string) :
    template a i y = template a i w := by
  rw [template, template, string]

theorem mergedCopy_string {t : Option (Node D)} {w y : Node D} (ran : mergedCopy t w = some y) :
    y.string = w.string := by
  cases t with
  | none => cases ran; rfl
  | some v => exact merged_string ran

/-- What is no number and has nothing below it leaves the copy alone. -/
theorem merged_copy_leaf {a b : Node D} (valid : a.kind ≠ .invalid) (number : a.kind ≠ .number)
    (array : a.kind ≠ .array) (object : a.kind ≠ .object)
    (text : b.kind = .string → ∃ text, b.valuestring = some text) :
    merged a b b = some b := by
  cases kind : a.kind with
  | false | true | null => rw [merged_plain b b (by simp [kind]), Node.eta]
  | string | raw =>
      rw [merged_text b b (by simp [kind])]
      by_cases isString : b.kind = .string
      · obtain ⟨text, htext⟩ := text isString
        rw [htext, setValuestring_string isString htext text, ← htext]
        simp
      · rw [setValuestring_other isString]
        rfl
  | number => exact absurd kind number
  | array => exact absurd kind array
  | object => exact absurd kind object
  | invalid => exact absurd kind valid

/-- The fields of the merged copy of an array or an object, and its children one by one. -/
structure CopyMerged (a b y : Node D) : Prop where
  fields : y = { b with child := y.child }
  names : y.child.map Node.string = b.child.map Node.string
  each : ∀ (i : Nat) (w y' : Node D), b.child[i]? = some w → y.child[i]? = some y' →
    mergedCopy (template a i w) w = some y'

theorem copyMerged {a b y : Node D} (value : Value a) (listed : Listed b.child)
    (container : a.kind = .array ∨ a.kind = .object) (ran : merged a b b = some y) :
    CopyMerged a b y := by
  obtain ⟨fields, length, each⟩ := (merged_copy_iff value listed container).1 ran
  refine ⟨fields, ?_, each⟩
  apply List.ext_getElem (by simpa using length)
  intro i hy hw
  simp only [List.getElem_map]
  rw [List.length_map] at hy hw
  exact mergedCopy_string
    (each i _ _ (List.getElem?_eq_getElem hw) (List.getElem?_eq_getElem hy))

theorem getElem?_of_names {xs ys : List (Node D)} {i : Nat} {x : Node D}
    (names : xs.map Node.string = ys.map Node.string) (hx : xs[i]? = some x) :
    ∃ y, ys[i]? = some y := by
  have bound := (List.getElem?_eq_some_iff.1 hx).1
  have length : xs.length = ys.length := by simpa using congrArg List.length names
  exact ⟨_, List.getElem?_eq_getElem (length ▸ bound)⟩

theorem kind_cases (a : Node D) : a.kind = .number ∨ (a.kind = .array ∨ a.kind = .object) ∨
    (a.kind ≠ .number ∧ a.kind ≠ .array ∧ a.kind ≠ .object) := by
  cases a.kind <;> simp

/-- Merging onto a copy does not crash. -/
theorem merged_copy_isSome {a : Node D} (va : Value a) {b : Node D} (vb : Value b) :
    ∃ y, merged a b b = some y := by
  induction a using Node.of_child generalizing b with
  | step a ih =>
      rcases kind_cases a with number | (array | object) | ⟨number, array, object⟩
      · exact ⟨_, merged_number b b number⟩
      · obtain ⟨out, ran⟩ : ∃ out, mergeItems a.child b.child b.child = some out := by
          apply mergeItems_isSome
          intro i v w x hv hw hx
          obtain rfl : w = x := Option.some.inj (hw.symm.trans hx)
          have inside := List.mem_of_getElem? hv
          exact ih v inside (va.child inside) (vb.child (List.mem_of_getElem? hw))
        exact ⟨_, by rw [merged_array b b array, ran]; rfl⟩
      · obtain ⟨out, ran⟩ : ∃ out, mergeMembers a.child b.child b.child = some out := by
          apply mergeMembers_isSome
          intro v inside name w _ hw
          exact ih v inside (va.child inside) (vb.child (findItem_some hw).1)
        exact ⟨_, by rw [merged_object b b object, ran]; rfl⟩
      · exact ⟨b, merged_copy_leaf va.valid number array object vb.copyText⟩

/-- Merging the merged copy once more changes nothing. -/
theorem merged_copy_again {a : Node D} (va : Value a) {b y : Node D} (vb : Value b)
    (ran : merged a b b = some y) : merged a y y = some y := by
  induction a using Node.of_child generalizing b y with
  | step a ih =>
      rcases kind_cases a with number | container | ⟨number, array, object⟩
      · rw [merged_number b b number] at ran
        cases ran
        rw [merged_number _ _ number]
      · have copy := copyMerged va vb.listed container ran
        have listed := Listed.of_names vb.listed copy.names
        refine (merged_copy_iff va listed container).2 ⟨(Node.eta _).symm, rfl, fun i w y' hw hy => ?_⟩
        obtain rfl : w = y' := Option.some.inj (hw.symm.trans hy)
        obtain ⟨w₀, hw₀⟩ := getElem?_of_names copy.names hw
        have becomes := copy.each i w₀ w hw₀ hw
        rw [template_congr (mergedCopy_string becomes)]
        cases found : template a i w₀ with
        | none => rfl
        | some v =>
            rw [found] at becomes
            have inside := template_mem found
            exact ih v inside (va.child inside) (vb.child (List.mem_of_getElem? hw₀)) becomes
      · rw [merged_copy_leaf va.valid number array object vb.copyText] at ran
        cases ran
        exact merged_copy_leaf va.valid number array object vb.copyText

/-- A template merged with itself. -/
theorem merged_self {a : Node D} (va : Value a) : merged a a a = some a := by
  induction a using Node.of_child with
  | step a ih =>
      rcases kind_cases a with number | container | ⟨number, array, object⟩
      · rw [merged_number a a number, ← number, Node.eta]
      · refine (merged_copy_iff va va.listed container).2 ⟨(Node.eta _).symm, rfl, fun i w y' hw hy => ?_⟩
        obtain rfl : w = y' := Option.some.inj (hw.symm.trans hy)
        have inside := List.mem_of_getElem? hw
        have own : template a i w = some w := by
          rcases container with kind | kind
          · rw [template, kind]
            exact hw
          · obtain ⟨name, hname⟩ := (va.members kind).named w inside
            rw [template, kind, hname]
            exact (va.members kind).findItem_eq inside hname
        rw [own]
        exact ih w inside (va.child inside)
      · exact merged_copy_leaf va.valid number array object va.copyText

end ChargerStack.ConfigFiles.MergeTemplate
