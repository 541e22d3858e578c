/-
# ConfigFiles.MergeResult -- when cJSON_MergeWithTemplate returns what it is for

A merge should leave the template with the values of `b` at its leaves (`Follows`).  It does
so for a flat object of the same types.  Below that it does not merge: the member of `a1` has
been replaced by a copy of `b`'s, and all that merging onto a copy can do is turn nodes into
numbers (`copy_same_iff`, `copy_same_template_iff`).  So a nested object must have the names of
the template's (`Fits`), and a leaf of another type is not put back.

At the top, and in the items of an array there, `a1` is the copy of the template and each kind
writes its own fields of it; `Takes` and `Keeps` say when the outcome is `b` or the template.

* `copy_follows_iff` is the condition below an object, `own_follows_iff` the one at the top;
* `merged_own_again`: whatever a merge returned, merging it again gives it back;
* `merge_with_template_iff` puts them together.
-/
import ChargerStack.ConfigFiles.MergeTemplate

namespace ChargerStack.ConfigFiles.MergeTemplate

open ChargerStack.ConfigFiles.CJson

set_option autoImplicit false

variable {D : Type}

/-! ## What the merged copy holds -/

/-- Wherever the template has a number, so has `b`. -/
def NumbersAgree (a b : Node D) : Prop :=
  Throughout ChildPair (fun a b => a.kind = .number → b.kind = .number) a b

/-- `b` is the template over again, except that in the place of a number it may have any node
whose number fields store it. -/
def Stores (a b : Node D) : Prop :=
  Throughout ChildPair
    (fun a b => (a.kind = .number → SameNumber b a) ∧ (a.kind ≠ .number → Alike b a)) a b

/-- The pairs of children, found from the side of `b`. -/
theorem childPair_iff {a b v w : Node D} (listed : Listed b.child) :
    ChildPair a b v w ↔ ∃ i : Nat, b.child[i]? = some w ∧ template a i w = some v := by
  constructor
  · rintro (⟨kind, i, hv, hw⟩ | ⟨kind, name, hv, hw⟩)
    · exact ⟨i, hw, by rw [template, kind]; exact hv⟩
    · obtain ⟨inside, hname⟩ := findItem_some hw
      obtain ⟨i, hi⟩ := List.mem_iff_getElem?.1 inside
      exact ⟨i, hi, by rw [template, kind, hname]; exact hv⟩
  · rintro ⟨i, hw, found⟩
    unfold template at found
    split at found
    · rename_i kind
      exact .inl ⟨kind, i, found, hw⟩
    · rename_i kind
      obtain ⟨name, hname, hv⟩ := Option.bind_eq_some_iff.1 found
      refine .inr ⟨kind, name, hv, ?_⟩
      rcases listed with named | unnamed
      · exact named.findItem_eq (List.mem_of_getElem? hw) hname
      · rw [unnamed w (List.mem_of_getElem? hw)] at hname
        cases hname
    · cases found

theorem CopyMerged.kind {a b y : Node D} (copy : CopyMerged a b y) : y.kind = b.kind := by
  rw [copy.fields]

theorem CopyMerged.length {a b y : Node D} (copy : CopyMerged a b y) :
    y.child.length = b.child.length := by
  simpa using congrArg List.length copy.names

/-- The merged copy is `b` exactly when no other kind was turned into a number. -/
theorem copy_same_iff {a : Node D} (va : Value a) {b y : Node D} (vb : Value b)
    (ran : merged a b b = some y) : Same y b ↔ NumbersAgree a b := by
  induction a using Node.of_child generalizing b y with
  | step a ih =>
      rcases kind_cases a with number | container | ⟨number, array, object⟩
      · rw [merged_number b b number] at ran
        cases ran
        rw [NumbersAgree, throughout_leaf (by simp [number]) (by simp [number])]
        constructor
        · intro same _
          exact same.alike.kind.symm
        · intro agree
          rw [← agree number, Node.eta]
          exact Same.refl b
      · have copy := copyMerged va vb.listed container ran
        have aligned := same_iff_aligned vb copy.kind (by rw [copy.fields])
          (by rw [copy.fields]; exact ⟨rfl, rfl⟩) copy.names
        rw [aligned, NumbersAgree, throughout_iff]
        constructor
        · intro all
          refine ⟨fun number => ?_, fun v w pair => ?_⟩
          · rw [number] at container
            simp at container
          · obtain ⟨i, hw, found⟩ := (childPair_iff vb.listed).1 pair
            obtain ⟨y', hy⟩ := getElem?_of_names copy.names.symm hw
            have becomes := copy.each i w y' hw hy
            rw [found] at becomes
            have inside := template_mem found
            exact (ih v inside (va.child inside) (vb.child pair.mem.2) becomes).1
              (all i y' w hy hw)
        · rintro ⟨-, all⟩ i y' w hy hw
          have becomes := copy.each i w y' hw hy
          cases found : template a i w with
          | none =>
              rw [found] at becomes
              cases becomes
              exact Same.refl _
          | some v =>
              rw [found] at becomes
              have inside := template_mem found
              have pair := (childPair_iff vb.listed).2 ⟨i, hw, found⟩
              exact (ih v inside (va.child inside) (vb.child pair.mem.2) becomes).2
                (all v w pair)
      · rw [merged_copy_leaf va.valid number array object vb.copyText] at ran
        cases ran
        rw [NumbersAgree, throughout_leaf array object]
        exact ⟨fun _ isNumber => absurd isNumber number, fun _ => Same.refl b⟩

/-- With the kinds of the template and of `b` the same, the merged copy has at each place of
the template what merging made of the node of `b` there. -/
theorem CopyMerged.pair {a b y : Node D} (copy : CopyMerged a b y) (vb : Value b)
    (kind : b.kind = a.kind) {v y' : Node D} (pair : ChildPair y a y' v) :
    ∃ w, ChildPair a b v w ∧ merged v w w = some y' := by
  have yKind := copy.kind.trans kind
  rcases pair with ⟨array, i, hy, hv⟩ | ⟨object, name, hy, hv⟩
  · have aKind := yKind.symm.trans array
    obtain ⟨w, hw⟩ := getElem?_of_names copy.names hy
    have becomes := copy.each i w y' hw hy
    have found : template a i w = some v := by rw [template, aKind]; exact hv
    rw [found] at becomes
    exact ⟨w, .inl ⟨aKind, i, hv, hw⟩, becomes⟩
  · have aKind := yKind.symm.trans object
    have named := vb.members (kind.trans aKind)
    obtain ⟨inside, hname⟩ := findItem_some hy
    obtain ⟨w, hw⟩ := named.findItem_of_mem
      (copy.names ▸ hname ▸ List.mem_map_of_mem (f := Node.string) inside)
    obtain ⟨i, hi, hj⟩ := findItem_index named copy.names hy hw
    have becomes := copy.each i w y' hj hi
    have found : template a i w = some v := by
      rw [template, aKind, (findItem_some hw).2]
      exact hv
    rw [found] at becomes
    exact ⟨w, .inr ⟨aKind, name, hv, hw⟩, becomes⟩

theorem CopyMerged.pair_of {a b y : Node D} (copy : CopyMerged a b y) (vb : Value b)
    (kind : b.kind = a.kind) {v w : Node D} (pair : ChildPair a b v w) :
    ∃ y', ChildPair y a y' v ∧ merged v w w = some y' := by
  have yKind := copy.kind.trans kind
  rcases pair with ⟨array, i, hv, hw⟩ | ⟨object, name, hv, hw⟩
  · obtain ⟨y', hy⟩ := getElem?_of_names copy.names.symm hw
    have becomes := copy.each i w y' hw hy
    have found : template a i w = some v := by rw [template, array]; exact hv
    rw [found] at becomes
    exact ⟨y', .inl ⟨yKind.trans array, i, hy, hv⟩, becomes⟩
  · have named := vb.members (kind.trans object)
    obtain ⟨inside, hname⟩ := findItem_some hw
    obtain ⟨y', hy⟩ := (named.of_names copy.names).findItem_of_mem
      (copy.names ▸ hname ▸ List.mem_map_of_mem (f := Node.string) inside)
    obtain ⟨i, hi, hj⟩ := findItem_index named copy.names hy hw
    have becomes := copy.each i w y' hj hi
    have found : template a i w = some v := by
      rw [template, object, hname]
      exact hv
    rw [found] at becomes
    exact ⟨y', .inr ⟨yKind.trans object, name, hy, hv⟩, becomes⟩

theorem CopyMerged.alike_iff {a b y : Node D} (copy : CopyMerged a b y) :
    Alike y a ↔ Alike b a := by
  have kind := copy.kind
  have text : y.valuestring = b.valuestring := by rw [copy.fields]
  have number : SameNumber y b := by rw [copy.fields]; exact ⟨rfl, rfl⟩
  constructor
  · rintro ⟨h₁, h₂, h₃, h₄, h₅⟩
    rw [SameNames, copy.names] at h₅
    rw [copy.length] at h₄
    rw [kind] at h₁ h₂ h₃ h₄ h₅
    exact ⟨h₁, fun h => text ▸ h₂ h, fun h => ⟨number.1 ▸ (h₃ h).1, number.2 ▸ (h₃ h).2⟩, h₄, h₅⟩
  · rintro ⟨h₁, h₂, h₃, h₄, h₅⟩
    rw [SameNames, ← copy.names] at h₅
    rw [← copy.length] at h₄
    rw [← kind] at h₁ h₂ h₃ h₄ h₅
    exact ⟨h₁, fun h => text.trans (h₂ h),
      fun h => ⟨number.1.trans (h₃ h).1, number.2.trans (h₃ h).2⟩, h₄, h₅⟩

/-- The merged copy is the template's own value exactly when `b` stores it. -/
theorem copy_same_template_iff {a : Node D} (va : Value a) {b y : Node D} (vb : Value b)
    (ran : merged a b b = some y) : Same y a ↔ Stores a b := by
  induction a using Node.of_child generalizing b y with
  | step a ih =>
      rcases kind_cases a with number | container | ⟨number, array, object⟩
      · rw [merged_number b b number] at ran
        cases ran
        rw [Same, Stores, throughout_leaf (by simp) (by simp),
          throughout_leaf (by simp [number]) (by simp [number])]
        constructor
        · intro alike
          exact ⟨fun _ => alike.number rfl, fun other => absurd number other⟩
        · rintro ⟨same, -⟩
          refine ⟨number.symm, ?_, fun _ => same number, ?_, ?_⟩ <;> simp
      · have notNumber : a.kind ≠ .number := by
          rcases container with kind | kind <;> simp [kind]
        have copy := copyMerged va vb.listed container ran
        rw [Same, Stores, throughout_iff, throughout_iff]
        constructor
        · rintro ⟨alike, all⟩
          rw [copy.alike_iff] at alike
          refine ⟨⟨fun isNumber => absurd isNumber notNumber, fun _ => alike⟩, fun v w pair => ?_⟩
          obtain ⟨y', hy, becomes⟩ := copy.pair_of vb alike.kind pair
          have inside := pair.mem.1
          exact (ih v inside (va.child inside) (vb.child pair.mem.2) becomes).1 (all y' v hy)
        · rintro ⟨⟨-, alike⟩, all⟩
          have alike := alike notNumber
          refine ⟨copy.alike_iff.2 alike, fun y' v pair => ?_⟩
          obtain ⟨w, hw, becomes⟩ := copy.pair vb alike.kind pair
          have inside := hw.mem.1
          exact (ih v inside (va.child inside) (vb.child hw.mem.2) becomes).2 (all v w hw)
      · rw [merged_copy_leaf va.valid number array object vb.copyText] at ran
        cases ran
        rw [Stores, throughout_leaf array object]
        constructor
        · intro same
          exact ⟨fun isNumber => absurd isNumber number, fun _ => same.alike⟩
        · rintro ⟨-, alike⟩
          have alike := alike number
          rw [Same, throughout_leaf (alike.kind ▸ array) (alike.kind ▸ object)]
          exact alike

/-! ## What a merge is for -/

/-- `true` and `false` are values of one type. -/
def jsonType : Kind → Kind
  | .false => .true
  | kind => kind

def SameType (x y : Node D) : Prop := jsonType x.kind = jsonType y.kind

/-- The value that `b` has under a name. -/
def member (name : String) (b : Node D) : Option (Node D) :=
  if b.kind = .object then findItem name b.child else none

/-- `r` has the members of the template `a`, and at each leaf the value that `b` has there if
it is of the leaf's type, else the template's own. -/
inductive Follows : Node D → Option (Node D) → Node D → Prop
  | object {a r : Node D} {b : Option (Node D)} (kind : a.kind = .object)
      (same : r.kind = .object) (names : SameNames r a)
      (members : ∀ name v y, findItem name a.child = some v → findItem name r.child = some y →
        Follows v (b.bind (member name)) y) : Follows a b r
  | leaf {a r : Node D} {b : Option (Node D)} (kind : a.kind ≠ .object)
      (taken : ∀ w, b = some w → SameType a w → Same r w)
      (kept : (∀ w, b = some w → ¬ SameType a w) → Same r a) : Follows a b r

theorem follows_object_iff {a r : Node D} {b : Option (Node D)} (kind : a.kind = .object) :
    Follows a b r ↔ r.kind = .object ∧ SameNames r a ∧
      ∀ name v y, findItem name a.child = some v → findItem name r.child = some y →
        Follows v (b.bind (member name)) y := by
  constructor
  · rintro (⟨-, same, names, members⟩ | ⟨other, -, -⟩)
    · exact ⟨same, names, members⟩
    · exact absurd kind other
  · rintro ⟨same, names, members⟩
    exact .object kind same names members

theorem follows_leaf_iff {a b r : Node D} (kind : a.kind ≠ .object) :
    Follows a (some b) r ↔ (SameType a b → Same r b) ∧ (¬ SameType a b → Same r a) := by
  constructor
  · rintro (⟨object, -, -, -⟩ | ⟨-, taken, kept⟩)
    · exact absurd object kind
    · refine ⟨taken b rfl, fun other => kept ?_⟩
      rintro w ⟨⟩
      exact other
  · rintro ⟨taken, kept⟩
    refine .leaf kind ?_ fun other => kept (other b rfl)
    rintro w ⟨⟩
    exact taken

/-- Where `b` has nothing, the template itself is right. -/
theorem follows_self (a : Node D) : Follows a none a := by
  induction a using Node.of_child with
  | step a ih =>
      by_cases kind : a.kind = .object
      · refine .object kind kind (List.Perm.refl _) fun name v y hv hy => ?_
        obtain rfl : v = y := Option.some.inj (hv.symm.trans hy)
        exact ih v (findItem_some hv).1
      · exact .leaf kind (fun w absent => by cases absent) fun _ => Same.refl a

/-- What `b` must have in the place of the template's `a`, inside an object. -/
def FitsHere (a b : Node D) : Prop :=
  match a.kind with
  | .number => b.kind = .number ∨ SameNumber b a
  | .array => b.kind = .array ∧ NumbersAgree a b
  | .object => b.kind = .object ∧ SameNames b a
  | _ => SameType a b

def Fits (a b : Node D) : Prop := Throughout MemberPair FitsHere a b

theorem fits_leaf {a b : Node D} (kind : a.kind ≠ .object) : Fits a b ↔ FitsHere a b := by
  rw [Fits, throughout_iff, and_iff_left_iff_imp]
  intro _ v w pair
  exact absurd pair.1 kind

theorem sameType_number {a b : Node D} (kind : a.kind = .number) :
    SameType a b ↔ b.kind = .number := by
  rw [SameType, kind]
  cases b.kind <;> simp [jsonType]

theorem sameType_array {a b : Node D} (kind : a.kind = .array) :
    SameType a b ↔ b.kind = .array := by
  rw [SameType, kind]
  cases b.kind <;> simp [jsonType]

theorem member_eq_of_pair {a b v w : Node D} (pair : MemberPair a b v w) (kind : b.kind = .object)
    {name : String} (hv : findItem name a.child = some v) : member name b = some w := by
  obtain ⟨-, name', hv', hw⟩ := pair
  have one := (findItem_some hv).2.symm.trans (findItem_some hv').2
  cases one
  rw [member, if_pos kind, hw]

/-- The merged copy is right exactly when `b` fits the template. -/
theorem copy_follows_iff {a : Node D} (va : Value a) {b y : Node D} (vb : Value b)
    (ran : merged a b b = some y) : Follows a (some b) y ↔ Fits a b := by
  induction a using Node.of_child generalizing b y with
  | step a ih =>
      rcases kind_cases a with number | (array | object) | ⟨number, array, object⟩
      · have leaf : a.kind ≠ .object := by simp [number]
        rw [follows_leaf_iff leaf, fits_leaf leaf, copy_same_iff va vb ran,
          copy_same_template_iff va vb ran, sameType_number number, FitsHere, number]
        rw [NumbersAgree, Stores, throughout_leaf (by simp [number]) leaf,
          throughout_leaf (by simp [number]) leaf]
        by_cases both : b.kind = .number <;> simp [number, both]
      · have leaf : a.kind ≠ .object := by simp [array]
        rw [follows_leaf_iff leaf, fits_leaf leaf, copy_same_iff va vb ran,
          sameType_array array, FitsHere, array]
        have copy := copyMerged va vb.listed (.inl array) ran
        have other : Same y a → b.kind = .array := fun same =>
          copy.kind.symm.trans (same.alike.kind.trans array)
        tauto
      · have copy := copyMerged va vb.listed (.inr object) ran
        have names : SameNames y a ↔ SameNames b a := by rw [SameNames, SameNames, copy.names]
        rw [follows_object_iff object, Fits, throughout_iff, FitsHere, object, copy.kind, names]
        constructor
        · rintro ⟨kind, same, members⟩
          refine ⟨⟨kind, same⟩, fun v w pair => ?_⟩
          obtain ⟨y', hy, becomes⟩ := copy.pair_of vb (kind.trans object.symm) (.inr pair)
          obtain ⟨name, hy, hv⟩ := hy.member (copy.kind.trans kind)
          have follows := members name v y' hv hy
          rw [Option.bind_some, member_eq_of_pair pair kind hv] at follows
          have inside := (findItem_some hv).1
          have below := (ChildPair.mem (.inr pair)).2
          exact (ih v inside (va.child inside) (vb.child below) becomes).1 follows
        · rintro ⟨⟨kind, same⟩, fits⟩
          refine ⟨kind, same, fun name v y' hv hy => ?_⟩
          obtain ⟨w, pair, becomes⟩ := copy.pair vb (kind.trans object.symm)
            (.inr ⟨copy.kind.trans kind, name, hy, hv⟩)
          have pair : MemberPair a b v w := ⟨object, pair.member object⟩
          rw [Option.bind_some, member_eq_of_pair pair kind hv]
          have inside := (findItem_some hv).1
          have below := (ChildPair.mem (.inr pair)).2
          exact (ih v inside (va.child inside) (vb.child below) becomes).2 (fits v w pair)
      · rw [merged_copy_leaf va.valid number array object vb.copyText] at ran
        cases ran
        rw [follows_leaf_iff object, fits_leaf object]
        have here : FitsHere a b ↔ SameType a b := by
          unfold FitsHere
          split
          · rename_i kind; exact absurd kind number
          · rename_i kind; exact absurd kind array
          · rename_i kind; exact absurd kind object
          · rfl
        rw [here]
        have other : Same b a → SameType a b := fun same => by rw [SameType, same.alike.kind]
        have own := Same.refl b
        tauto

/-! ## Merging the template itself

At the top, and in the items of an array there, `a1` is the copy of the template. -/

/-- What becomes of the member `v` of the template where `b` has `w`. -/
def mergedMember : Option (Node D) → Node D → Option (Node D)
  | some w, v => merged v w w
  | none, v => some v

structure OwnMembers (a b y : Node D) : Prop where
  fields : y = { a with child := y.child }
  names : y.child.map Node.string = a.child.map Node.string
  each : ∀ name v y', findItem name a.child = some v → findItem name y.child = some y' →
    mergedMember (findItem name b.child) v = some y'

theorem memberMerged_own {a b : List (Node D)} (named : Named a) {v y : Node D} (inside : v ∈ a)
    {name : String} (hv : v.string = some name) :
    MemberMerged a b v y ↔ mergedMember (findItem name b) v = some y := by
  rw [memberMerged_some hv, named.findItem_eq inside hv]
  cases findItem name b with
  | none => exact ⟨fun same => congrArg some same.symm, fun same => (Option.some.inj same).symm⟩
  | some w => rfl

theorem ownMembers {a b : Node D} (va : Value a) (kind : a.kind = .object) {y : Node D}
    (ran : merged a b a = some y) : OwnMembers a b y := by
  have named := va.members kind
  rw [merged_object b a kind, wrap_eq_some] at ran
  obtain ⟨fields, ran⟩ := ran
  rw [mergeMembers_iff named named, forall₂_iff_getElem?] at ran
  obtain ⟨length, each⟩ := ran
  have becomes : ∀ (i : Nat) v y', a.child[i]? = some v → y.child[i]? = some y' →
      ∃ name, v.string = some name ∧ mergedMember (findItem name b.child) v = some y' := by
    intro i v y' hv hy
    have inside := List.mem_of_getElem? hv
    obtain ⟨name, hname⟩ := named.named v inside
    exact ⟨name, hname, (memberMerged_own named inside hname).1 (each i v y' hv hy)⟩
  have names : y.child.map Node.string = a.child.map Node.string := by
    apply List.ext_getElem (by simpa using length)
    intro i hy ha
    simp only [List.getElem_map]
    rw [List.length_map] at hy ha
    obtain ⟨name, hname, ran⟩ :=
      becomes i _ _ (List.getElem?_eq_getElem ha) (List.getElem?_eq_getElem hy)
    cases found : findItem name b.child with
    | none =>
        rw [found] at ran
        rw [Option.some.inj ran]
    | some w =>
        rw [found] at ran
        rw [merged_string ran, (findItem_some found).2, hname]
  refine ⟨fields, names, fun name v y' hv hy => ?_⟩
  obtain ⟨i, hi, hj⟩ := findItem_index named names hy hv
  obtain ⟨name', hname, ran⟩ := becomes i v y' hj hi
  cases hname.symm.trans (findItem_some hv).2
  exact ran

theorem OwnMembers.kind {a b y : Node D} (own : OwnMembers a b y) : y.kind = a.kind := by
  rw [own.fields]

theorem merged_own_object_isSome {a b : Node D} (va : Value a) (vb : Value b)
    (kind : a.kind = .object) : ∃ y, merged a b a = some y := by
  obtain ⟨out, ran⟩ : ∃ out, mergeMembers a.child b.child a.child = some out := by
    apply mergeMembers_isSome
    intro v inside name w _ hw
    exact merged_copy_isSome (va.child inside) (vb.child (findItem_some hw).1)
  exact ⟨_, by rw [merged_object b a kind, ran]; rfl⟩

theorem Named.find_other {xs ys : List (Node D)} (named : Named xs)
    (names : xs.map Node.string = ys.map Node.string) {name : String} {w : Node D}
    (hw : findItem name ys = some w) : ∃ v, findItem name xs = some v := by
  obtain ⟨inside, hname⟩ := findItem_some hw
  apply named.findItem_of_mem
  rw [names, ← hname]
  exact List.mem_map_of_mem inside

/-- A value without children is compared at its root. -/
theorem same_of_no_child {x y : Node D} (empty : x.child = []) : Same x y ↔ Alike x y := by
  rw [Same, throughout_iff, and_iff_left_iff_imp]
  intro _ v w pair
  have inside := pair.mem.1
  rw [empty] at inside
  cases inside

/-- Of an object, the result is `b` exactly when the names are the same and the numbers
agree. -/
theorem own_object_same_iff {a b : Node D} (va : Value a) (vb : Value b) (kind : a.kind = .object)
    {y : Node D} (ran : merged a b a = some y) :
    Same y b ↔ b.kind = .object ∧ SameNames a b ∧ NumbersAgree a b := by
  have own := ownMembers va kind ran
  have named := va.members kind
  have yKind := own.kind.trans kind
  have names : SameNames y b ↔ SameNames a b := by rw [SameNames, SameNames, own.names]
  constructor
  · intro same
    refine ⟨same.alike.kind.symm.trans yKind, names.1 (same.alike.names yKind), ?_⟩
    refine ⟨fun number => absurd (kind.symm.trans number) (by simp), fun v w pair => ?_⟩
    obtain ⟨name, hv, hw⟩ := pair.member kind
    obtain ⟨y', hy⟩ := Named.find_other (named.of_names own.names) own.names hv
    have becomes := own.each name v y' hv hy
    rw [hw] at becomes
    have both := (throughout_iff.1 same).2 y' w (.inr ⟨yKind, name, hy, hw⟩)
    exact (copy_same_iff (va.child pair.mem.1) (vb.child pair.mem.2) becomes).1 both
  · rintro ⟨bKind, same, agree⟩
    have alike : Alike y b := by
      refine ⟨yKind.trans bKind.symm, ?_, ?_, ?_, fun _ => names.2 same⟩ <;> simp [yKind]
    refine ⟨alike, fun y' w pair => ?_⟩
    obtain ⟨name, hy, hw⟩ := pair.member yKind
    obtain ⟨v, hv⟩ := Named.find_other named own.names.symm hy
    have becomes := own.each name v y' hv hy
    rw [hw] at becomes
    have pair : ChildPair a b v w := .inr ⟨kind, name, hv, hw⟩
    exact (copy_same_iff (va.child pair.mem.1) (vb.child pair.mem.2) becomes).2
      ((throughout_iff.1 agree).2 v w pair)

/-- Of an object, the result is the template exactly when `b` stores it where it has
members. -/
theorem own_object_keeps_iff {a b : Node D} (va : Value a) (vb : Value b)
    (kind : a.kind = .object) {y : Node D} (ran : merged a b a = some y) :
    Same y a ↔ ∀ v w, MemberPair a b v w → Stores v w := by
  have own := ownMembers va kind ran
  have named := va.members kind
  have yKind := own.kind.trans kind
  constructor
  · rintro same v w ⟨-, name, hv, hw⟩
    obtain ⟨y', hy⟩ := Named.find_other (named.of_names own.names) own.names hv
    have becomes := own.each name v y' hv hy
    rw [hw] at becomes
    have both := (throughout_iff.1 same).2 y' v (.inr ⟨yKind, name, hy, hv⟩)
    exact (copy_same_template_iff (va.child (findItem_some hv).1)
      (vb.child (findItem_some hw).1) becomes).1 both
  · intro stores
    have alike : Alike y a := by
      refine ⟨own.kind, ?_, ?_, ?_, fun _ => List.Perm.of_eq own.names⟩ <;> simp [yKind]
    refine ⟨alike, fun y' v pair => ?_⟩
    obtain ⟨name, hy, hv⟩ := pair.member yKind
    have becomes := own.each name v y' hv hy
    cases hw : findItem name b.child with
    | none =>
        rw [hw] at becomes
        rw [← Option.some.inj becomes]
        exact Same.refl v
    | some w =>
        rw [hw] at becomes
        exact (copy_same_template_iff (va.child (findItem_some hv).1)
          (vb.child (findItem_some hw).1) becomes).2 (stores v w ⟨kind, name, hv, hw⟩)

theorem merged_own_string {a b : Node D} (va : Value a) (kind : a.kind = .string) :
    merged a b a =
      b.valuestring.map fun text => { a with valuestring := some text, kind := b.kind } := by
  obtain ⟨old, before⟩ := va.copyText kind
  rw [merged_text b a (.inl kind)]
  cases b.valuestring with
  | none =>
      unfold setValuestring
      rw [if_neg (not_not.2 kind)]
      rfl
  | some text => rw [setValuestring_string kind before]; rfl

theorem merged_own_raw {a b : Node D} (kind : a.kind = .raw) : merged a b a = some a := by
  rw [merged_text b a (.inr kind), setValuestring_other (by simp [kind])]
  rfl

/-- The items of an array, one by one. -/
theorem merged_own_array_iff {a b y : Node D} (kind : a.kind = .array) :
    merged a b a = some y ↔ y = { a with child := y.child } ∧
      y.child.length = a.child.length ∧
      ∀ (i : Nat) (v y' : Node D), a.child[i]? = some v → y.child[i]? = some y' →
        ItemMerged (some v) b.child[i]? v y' := by
  rw [merged_array b a kind, wrap_eq_some, mergeItems_iff]
  refine and_congr_right fun _ => and_congr_right fun _ => ?_
  refine forall_congr' fun i => forall_congr' fun v => forall_congr' fun y' => ?_
  refine imp_congr_right fun hv => ?_
  rw [hv]

/-! ## The templates and values for which the merge is right -/

/-- What `b` must have in the place of an item of the template array for the item to become
`b`'s. -/
def TakesHere (a b : Node D) : Prop :=
  match a.kind with
  | .false | .true | .null =>
      (b.kind = .false ∨ b.kind = .true ∨ b.kind = .null) ∨
        (b.kind = .number ∧ SameNumber a b) ∨
        ((b.kind = .array ∨ b.kind = .object) ∧ b.child = [])
  | .number => b.kind = .number
  | .string => b.kind = .string ∨ b.kind = .raw
  | .raw => b.kind = .raw ∧ a.valuestring = b.valuestring
  | .array => b.kind = .array ∧ a.child.length = b.child.length
  | .object => b.kind = .object ∧ SameNames a b ∧ NumbersAgree a b
  | .invalid => False

def Takes (a b : Node D) : Prop := Throughout ItemPair TakesHere a b

/-- What `b` must have in the place of an item of the template array for the item to stay. -/
def KeepsHere (a b : Node D) : Prop :=
  match a.kind with
  | .false | .true | .null => b.kind = a.kind
  | .number => SameNumber b a
  | .string => b.kind = .string ∧ b.valuestring = a.valuestring
  | .raw | .array => True
  | .object => ∀ v w, MemberPair a b v w → Stores v w
  | .invalid => False

def Keeps (a b : Node D) : Prop := Throughout ItemPair KeepsHere a b

theorem throughout_item_leaf {here : Node D → Node D → Prop} {x y : Node D}
    (array : x.kind ≠ .array) : Throughout ItemPair here x y ↔ here x y := by
  rw [throughout_iff, and_iff_left_iff_imp]
  intro _ v w pair
  exact absurd pair.1 array

theorem Value.plain {a : Node D} (va : Value a)
    (plain : a.kind = .false ∨ a.kind = .true ∨ a.kind = .null) :
    a.valuestring = none ∧ a.child = [] := by
  constructor
  · cases text : a.valuestring with
    | none => rfl
    | some t =>
        have := va.text.2 ⟨t, text⟩
        rcases plain with kind | kind | kind <;> simp [kind] at this
  · apply va.leaf <;> rcases plain with kind | kind | kind <;> simp [kind]

theorem takes_plain_iff {a b : Node D} (va : Value a) (vb : Value b)
    (plain : a.kind = .false ∨ a.kind = .true ∨ a.kind = .null) :
    Same { a with kind := b.kind } b ↔
      (b.kind = .false ∨ b.kind = .true ∨ b.kind = .null) ∨
        (b.kind = .number ∧ SameNumber a b) ∨
        ((b.kind = .array ∨ b.kind = .object) ∧ b.child = []) := by
  obtain ⟨text, empty⟩ := Value.plain va plain
  rw [same_of_no_child (x := { a with kind := b.kind }) empty]
  constructor
  · rintro ⟨-, sameText, number, length, names⟩
    cases kind : b.kind with
    | false | true | null => simp
    | number => exact .inr (.inl ⟨rfl, number kind⟩)
    | array =>
        have none := length kind
        rw [empty] at none
        exact .inr (.inr ⟨.inl rfl, List.eq_nil_of_length_eq_zero none.symm⟩)
    | object =>
        have none := (names kind).length_eq
        rw [empty] at none
        exact .inr (.inr ⟨.inr rfl, by simpa using none.symm⟩)
    | string | raw =>
        obtain ⟨t, has⟩ := vb.text.1 (by simp [kind])
        have := sameText (by simp [kind])
        rw [text, has] at this
        cases this
    | invalid => exact absurd kind vb.valid
  · intro cases
    refine ⟨rfl, fun kind => ?_, fun kind => ?_, fun kind => ?_, fun kind => ?_⟩ <;> dsimp only at kind
    · rcases kind with kind | kind <;> simp [kind] at cases
    · simp [kind] at cases
      exact cases
    · simp [kind] at cases
      simp [empty, cases]
    · simp [kind] at cases
      simp [SameNames, empty, cases]

theorem same_array_iff {x y : Node D} (kind : x.kind = .array) :
    Same x y ↔ y.kind = .array ∧ x.child.length = y.child.length ∧
      ∀ (i : Nat) (v w : Node D), x.child[i]? = some v → y.child[i]? = some w → Same v w := by
  rw [Same, throughout_iff]
  constructor
  · rintro ⟨alike, below⟩
    exact ⟨alike.kind.symm.trans kind, alike.length kind,
      fun i v w hv hw => below v w (.inl ⟨kind, i, hv, hw⟩)⟩
  · rintro ⟨yKind, length, all⟩
    have alike : Alike x y := by
      refine ⟨kind.trans yKind.symm, ?_, ?_, fun _ => length, ?_⟩ <;> simp [kind]
    refine ⟨alike, fun v w pair => ?_⟩
    rcases pair with ⟨-, i, hv, hw⟩ | ⟨object, -⟩
    · exact all i v w hv hw
    · rw [kind] at object
      cases object

/-- An array is merged when each of its items is, whatever else is asked of the items. -/
theorem own_array_collect {a b : Node D} (kind : a.kind = .array)
    (Q : Nat → Node D → Node D → Prop) :
    (∃ y, merged a b a = some y ∧ y.kind = .array ∧ y.child.length = a.child.length ∧
      ∀ (i : Nat) (v y' : Node D), a.child[i]? = some v → y.child[i]? = some y' → Q i v y') ↔
      ∀ (i : Nat) (v : Node D), a.child[i]? = some v →
        ∃ y', ItemMerged (some v) b.child[i]? v y' ∧ Q i v y' := by
  constructor
  · rintro ⟨y, ran, -, length, asked⟩ i v hv
    have bound := (List.getElem?_eq_some_iff.1 hv).1
    have hy := List.getElem?_eq_getElem (length.symm ▸ bound)
    obtain ⟨-, -, each⟩ := (merged_own_array_iff kind).1 ran
    exact ⟨_, each i v _ hv hy, asked i v _ hv hy⟩
  · intro all
    obtain ⟨out, ran⟩ : ∃ out, mergeItems a.child b.child a.child = some out := by
      apply mergeItems_isSome
      intro i v w x hv hw hx
      obtain rfl : v = x := Option.some.inj (hv.symm.trans hx)
      obtain ⟨y', becomes, -⟩ := all i v hv
      rw [hw] at becomes
      exact ⟨y', becomes⟩
    obtain ⟨length, each⟩ := mergeItems_iff.1 ran
    refine ⟨{ a with child := out }, by rw [merged_array b a kind, ran]; rfl, kind, length, ?_⟩
    intro i v y' hv hy
    obtain ⟨z, becomes, asked⟩ := all i v hv
    have here := each i v y' hv hy
    rw [hv] at here
    obtain rfl : y' = z := by
      cases hw : b.child[i]? with
      | none =>
          rw [hw] at here becomes
          exact here.trans becomes.symm
      | some w =>
          rw [hw] at here becomes
          exact Option.some.inj (here.symm.trans becomes)
    exact asked

/-- A merged array is the value `z` when `z` has as many items and each is the merged one. -/
theorem own_array_same_iff {a b z : Node D} (kind : a.kind = .array) :
    (∃ y, merged a b a = some y ∧ Same y z) ↔
      z.kind = .array ∧ a.child.length = z.child.length ∧
        ∀ (i : Nat) (v w : Node D), a.child[i]? = some v → z.child[i]? = some w →
          ∃ y', ItemMerged (some v) b.child[i]? v y' ∧ Same y' w := by
  have asked := own_array_collect (b := b) kind fun i _ y' => ∀ w, z.child[i]? = some w → Same y' w
  constructor
  · rintro ⟨y, ran, same⟩
    obtain ⟨fields, length, -⟩ := (merged_own_array_iff kind).1 ran
    have yKind : y.kind = .array := by rw [fields]; exact kind
    obtain ⟨zKind, zLength, below⟩ := (same_array_iff yKind).1 same
    refine ⟨zKind, length.symm.trans zLength, fun i v w hv hw => ?_⟩
    obtain ⟨y', becomes, here⟩ := asked.1
      ⟨y, ran, yKind, length, fun i _ y' _ hy w hw => below i y' w hy hw⟩ i v hv
    exact ⟨y', becomes, here w hw⟩
  · rintro ⟨zKind, zLength, all⟩
    obtain ⟨y, ran, yKind, length, below⟩ := asked.2 (by
      intro i v hv
      have bound := (List.getElem?_eq_some_iff.1 hv).1
      have hw := List.getElem?_eq_getElem (zLength ▸ bound)
      obtain ⟨y', becomes, same⟩ := all i v _ hv hw
      refine ⟨y', becomes, fun w hw' => ?_⟩
      rw [← Option.some.inj (hw.symm.trans hw')]
      exact same)
    refine ⟨y, ran, (same_array_iff yKind).2 ⟨zKind, length.trans zLength, ?_⟩⟩
    intro i y' w hy hw
    have bound := (List.getElem?_eq_some_iff.1 hy).1
    exact below i _ y' (List.getElem?_eq_getElem (length ▸ bound)) hy w hw

theorem same_number_iff {x y : Node D} (empty : x.child = []) (kind : x.kind = .number) :
    Same x y ↔ y.kind = .number ∧ SameNumber x y := by
  rw [same_of_no_child empty]
  constructor
  · intro alike
    exact ⟨alike.kind.symm.trans kind, alike.number kind⟩
  · rintro ⟨yKind, number⟩
    refine ⟨kind.trans yKind.symm, ?_, fun _ => number, ?_, ?_⟩ <;> simp [kind]

theorem same_text_iff {x y : Node D} (empty : x.child = [])
    (kind : x.kind = .string ∨ x.kind = .raw) :
    Same x y ↔ y.kind = x.kind ∧ x.valuestring = y.valuestring := by
  rw [same_of_no_child empty]
  constructor
  · intro alike
    exact ⟨alike.kind.symm, alike.text kind⟩
  · rintro ⟨yKind, text⟩
    refine ⟨yKind.symm, fun _ => text, ?_, ?_, ?_⟩ <;> rcases kind with kind | kind <;> simp [kind]

/-- An item of a template array becomes `b`'s exactly when `b` takes its place. -/
theorem takes_iff {a : Node D} (va : Value a) {b : Node D} (vb : Value b) :
    (∃ y, merged a b a = some y ∧ Same y b) ↔ Takes a b := by
  induction a using Node.of_child generalizing b with
  | step a ih =>
      cases kind : a.kind with
      | array =>
          rw [own_array_same_iff kind, Takes, throughout_iff, TakesHere, kind]
          constructor
          · rintro ⟨bKind, length, all⟩
            refine ⟨⟨bKind, length⟩, ?_⟩
            rintro v w ⟨-, i, hv, hw⟩
            have inside := List.mem_of_getElem? hv
            have taken := all i v w hv hw
            rw [hw] at taken
            exact (ih v inside (va.child inside) (vb.child (List.mem_of_getElem? hw))).1 taken
          · rintro ⟨⟨bKind, length⟩, all⟩
            refine ⟨bKind, length, fun i v w hv hw => ?_⟩
            have inside := List.mem_of_getElem? hv
            rw [hw]
            exact (ih v inside (va.child inside) (vb.child (List.mem_of_getElem? hw))).2
              (all v w ⟨kind, i, hv, hw⟩)
      | false | true | null =>
          have plain : a.kind = .false ∨ a.kind = .true ∨ a.kind = .null := by simp [kind]
          rw [Takes, throughout_item_leaf (by simp [kind]), TakesHere, kind, merged_plain b a plain]
          simpa using takes_plain_iff va vb plain
      | number =>
          have empty : a.child = [] := va.leaf (by simp [kind]) (by simp [kind])
          rw [Takes, throughout_item_leaf (by simp [kind]), TakesHere, kind,
            merged_number b a kind]
          simp [same_number_iff, empty, SameNumber]
      | string =>
          have empty : a.child = [] := va.leaf (by simp [kind]) (by simp [kind])
          rw [Takes, throughout_item_leaf (by simp [kind]), TakesHere, kind,
            merged_own_string va kind, vb.text]
          constructor
          · rintro ⟨y, ran, -⟩
            obtain ⟨text, has, -⟩ := Option.map_eq_some_iff.1 ran
            exact ⟨text, has⟩
          · rintro ⟨text, has⟩
            refine ⟨{ a with valuestring := some text, kind := b.kind }, by rw [has]; rfl, ?_⟩
            rw [same_of_no_child (x := { a with valuestring := some text, kind := b.kind }) empty]
            have isText := vb.text.2 ⟨text, has⟩
            refine ⟨rfl, fun _ => has.symm, ?_, ?_, ?_⟩ <;>
              rcases isText with kind | kind <;> simp [kind]
      | raw =>
          have empty : a.child = [] := va.leaf (by simp [kind]) (by simp [kind])
          rw [Takes, throughout_item_leaf (by simp [kind]), TakesHere, kind, merged_own_raw kind]
          simp [same_text_iff empty (.inr kind), kind]
      | object =>
          rw [Takes, throughout_item_leaf (by simp [kind]), TakesHere, kind]
          obtain ⟨y, ran⟩ := merged_own_object_isSome va vb kind
          rw [ran]
          simpa using own_object_same_iff va vb kind ran
      | invalid => exact absurd kind va.valid

/-- An item of a template array stays exactly when `b` keeps it. -/
theorem keeps_iff {a : Node D} (va : Value a) {b : Node D} (vb : Value b) :
    (∃ y, merged a b a = some y ∧ Same y a) ↔ Keeps a b := by
  induction a using Node.of_child generalizing b with
  | step a ih =>
      cases kind : a.kind with
      | array =>
          rw [own_array_same_iff kind, Keeps, throughout_iff, KeepsHere, kind]
          constructor
          · rintro ⟨-, -, all⟩
            refine ⟨trivial, ?_⟩
            rintro v w ⟨-, i, hv, hw⟩
            have inside := List.mem_of_getElem? hv
            have stays := all i v v hv hv
            rw [hw] at stays
            exact (ih v inside (va.child inside) (vb.child (List.mem_of_getElem? hw))).1 stays
          · rintro ⟨-, all⟩
            refine ⟨rfl, rfl, fun i v v' hv hv' => ?_⟩
            obtain rfl : v = v' := Option.some.inj (hv.symm.trans hv')
            cases hw : b.child[i]? with
            | none => exact ⟨v, rfl, Same.refl v⟩
            | some w =>
                have inside := List.mem_of_getElem? hv
                exact (ih v inside (va.child inside) (vb.child (List.mem_of_getElem? hw))).2
                  (all v w ⟨kind, i, hv, hw⟩)
      | false | true | null =>
          have plain : a.kind = .false ∨ a.kind = .true ∨ a.kind = .null := by simp [kind]
          obtain ⟨-, empty⟩ := Value.plain va plain
          rw [Keeps, throughout_item_leaf (by simp [kind]), KeepsHere, kind, merged_plain b a plain]
          constructor
          · rintro ⟨y, ⟨⟩, same⟩
            exact same.alike.kind.trans kind
          · intro same
            refine ⟨_, rfl, ?_⟩
            rw [same, ← kind, Node.eta]
            exact Same.refl a
      | number =>
          have empty : a.child = [] := va.leaf (by simp [kind]) (by simp [kind])
          rw [Keeps, throughout_item_leaf (by simp [kind]), KeepsHere, kind,
            merged_number b a kind]
          simp [same_number_iff, empty, SameNumber, kind]
      | string =>
          have empty : a.child = [] := va.leaf (by simp [kind]) (by simp [kind])
          rw [Keeps, throughout_item_leaf (by simp [kind]), KeepsHere, kind,
            merged_own_string va kind]
          constructor
          · rintro ⟨y, ran, same⟩
            obtain ⟨text, has, rfl⟩ := Option.map_eq_some_iff.1 ran
            have bKind := same.alike.kind.trans kind
            exact ⟨bKind, has.trans (same.alike.text (.inl bKind))⟩
          · rintro ⟨bKind, same⟩
            obtain ⟨text, has⟩ := va.copyText kind
            refine ⟨a, ?_, Same.refl a⟩
            rw [same, has, bKind, ← kind, Option.map_some, ← has, Node.eta]
      | raw =>
          rw [Keeps, throughout_item_leaf (by simp [kind]), KeepsHere, kind, merged_own_raw kind]
          simp [Same.refl]
      | object =>
          rw [Keeps, throughout_item_leaf (by simp [kind]), KeepsHere, kind]
          obtain ⟨y, ran⟩ := merged_own_object_isSome va vb kind
          rw [ran]
          simpa using own_object_keeps_iff va vb kind ran
      | invalid => exact absurd kind va.valid

/-- The pairs of template and values that a merge does justice to.  Under the names that an
object of the template shares with `b`, `b` must fit; any other template must be taken over or
kept as a whole. -/
def MergesRight (a b : Node D) : Prop :=
  if a.kind = .object then ∀ v w, MemberPair a b v w → Fits v w
  else (SameType a b → Takes a b) ∧ (¬ SameType a b → Keeps a b)

theorem own_object_follows_iff {a b : Node D} (va : Value a) (vb : Value b)
    (kind : a.kind = .object) {y : Node D} (ran : merged a b a = some y) :
    Follows a (some b) y ↔ ∀ v w, MemberPair a b v w → Fits v w := by
  have own := ownMembers va kind ran
  have named := va.members kind
  rw [follows_object_iff kind]
  constructor
  · rintro ⟨-, -, members⟩ v w ⟨-, name, hv, hw⟩
    have bKind : b.kind = .object := by
      by_contra other
      rw [(vb.items other).findItem_none name] at hw
      cases hw
    obtain ⟨y', hy⟩ := Named.find_other (named.of_names own.names) own.names hv
    have becomes := own.each name v y' hv hy
    rw [hw] at becomes
    have follows := members name v y' hv hy
    rw [Option.bind_some, member, if_pos bKind, hw] at follows
    exact (copy_follows_iff (va.child (findItem_some hv).1) (vb.child (findItem_some hw).1)
      becomes).1 follows
  · intro fits
    refine ⟨own.kind.trans kind, List.Perm.of_eq own.names, fun name v y' hv hy => ?_⟩
    have becomes := own.each name v y' hv hy
    rw [Option.bind_some]
    have same : member name b = findItem name b.child := by
      rw [member]
      split
      · rfl
      · rename_i other
        exact ((vb.items other).findItem_none name).symm
    rw [same]
    cases hw : findItem name b.child with
    | none =>
        rw [hw] at becomes
        rw [← Option.some.inj becomes]
        exact follows_self v
    | some w =>
        rw [hw] at becomes
        exact (copy_follows_iff (va.child (findItem_some hv).1) (vb.child (findItem_some hw).1)
          becomes).2 (fits v w ⟨kind, name, hv, hw⟩)

theorem own_follows_iff {a b : Node D} (va : Value a) (vb : Value b) :
    (∃ y, merged a b a = some y ∧ Follows a (some b) y) ↔ MergesRight a b := by
  rw [MergesRight]
  split
  · rename_i kind
    obtain ⟨y, ran⟩ := merged_own_object_isSome va vb kind
    rw [ran]
    simpa using own_object_follows_iff va vb kind ran
  · rename_i kind
    rw [← takes_iff va vb, ← keeps_iff va vb]
    by_cases same : SameType a b <;> simp [follows_leaf_iff kind, same]

/-- Merging the result again gives the result. -/
theorem merged_own_again {a : Node D} (va : Value a) {b y : Node D} (vb : Value b)
    (ran : merged a b a = some y) : merged a y a = some y := by
  induction a using Node.of_child generalizing b y with
  | step a ih =>
      cases kind : a.kind with
      | false | true | null =>
          have plain : a.kind = .false ∨ a.kind = .true ∨ a.kind = .null := by simp [kind]
          rw [merged_plain b a plain] at ran
          cases ran
          exact merged_plain _ a plain
      | number =>
          rw [merged_number b a kind] at ran
          cases ran
          exact merged_number _ a kind
      | string =>
          rw [merged_own_string va kind] at ran
          obtain ⟨text, -, rfl⟩ := Option.map_eq_some_iff.1 ran
          exact merged_own_string va kind
      | raw =>
          rw [merged_own_raw kind] at ran
          cases ran
          exact merged_own_raw kind
      | array =>
          obtain ⟨fields, length, each⟩ := (merged_own_array_iff kind).1 ran
          refine (merged_own_array_iff kind).2 ⟨fields, length, fun i v y' hv hy => ?_⟩
          have inside := List.mem_of_getElem? hv
          have becomes := each i v y' hv hy
          rw [hy]
          cases hw : b.child[i]? with
          | none =>
              rw [hw] at becomes
              obtain rfl : y' = v := becomes
              exact merged_self (va.child inside)
          | some w =>
              rw [hw] at becomes
              exact ih v inside (va.child inside) (vb.child (List.mem_of_getElem? hw)) becomes
      | object =>
          have own := ownMembers va kind ran
          have named := va.members kind
          rw [merged_object y a kind, wrap_eq_some, mergeMembers_iff named named,
            forall₂_iff_getElem?]
          refine ⟨own.fields, by simpa using congrArg List.length own.names, ?_⟩
          intro i v y' hv hy
          have inside := List.mem_of_getElem? hv
          obtain ⟨name, hname⟩ := named.named v inside
          have found := named.findItem_eq inside hname
          have same : y'.string = v.string := by
            simpa [hv, hy] using congrArg (·[i]?) own.names
          have yFound := (named.of_names own.names).findItem_eq (List.mem_of_getElem? hy)
            (same.trans hname)
          rw [memberMerged_own named inside hname, yFound]
          have becomes := own.each name v y' found yFound
          cases hw : findItem name b.child with
          | none =>
              rw [hw] at becomes
              obtain rfl : v = y' := Option.some.inj becomes
              exact merged_self (va.child inside)
          | some w =>
              rw [hw] at becomes
              exact merged_copy_again (va.child inside) (vb.child (findItem_some hw).1) becomes
      | invalid => exact absurd kind va.valid

theorem merged_own_valid {a b y : Node D} (va : Value a) (vb : Value b)
    (ran : merged a b a = some y) : y.kind ≠ .invalid := by
  cases kind : a.kind with
  | false | true | null =>
      rw [merged_plain b a (by simp [kind])] at ran
      cases ran
      exact vb.valid
  | number =>
      rw [merged_number b a kind] at ran
      cases ran
      simp
  | string =>
      rw [merged_own_string va kind] at ran
      obtain ⟨text, -, rfl⟩ := Option.map_eq_some_iff.1 ran
      exact vb.valid
  | raw =>
      rw [merged_own_raw kind] at ran
      cases ran
      exact va.valid
  | array =>
      rw [((merged_own_array_iff kind).1 ran).1]
      exact va.valid
  | object =>
      rw [(ownMembers va kind ran).fields]
      exact va.valid
  | invalid => exact absurd kind va.valid

theorem cJSONMergeWithTemplate_eq {a b : Node D} (va : a.kind ≠ .invalid) (vb : b.kind ≠ .invalid) :
    cJSONMergeWithTemplate (some a) (some b) = (merged a b a).map some := by
  rw [cJSONMergeWithTemplate, if_neg (by simp [isValidCjsonType, va, vb]), merged, Option.map_map]
  rfl

/-- What `cJSON_MergeWithTemplate` is for: it returns a value that follows the template, and
merging that value gives it back.  Only the copy `a1` is written, so `a` and `b` stay. -/
def Merges (a b : Node D) : Prop :=
  ∃ r, cJSONMergeWithTemplate (some a) (some b) = some (some r) ∧ Follows a (some b) r ∧
    cJSONMergeWithTemplate (some a) (some r) = some (some r)

theorem merges_iff {a b : Node D} (va : Value a) (vb : Value b) :
    Merges a b ↔ ∃ y, merged a b a = some y ∧ Follows a (some b) y := by
  rw [Merges, cJSONMergeWithTemplate_eq va.valid vb.valid]
  constructor
  · rintro ⟨r, ran, follows, -⟩
    obtain ⟨y, ran, same⟩ := Option.map_eq_some_iff.1 ran
    cases same
    exact ⟨r, ran, follows⟩
  · rintro ⟨y, ran, follows⟩
    refine ⟨y, by rw [ran]; rfl, follows, ?_⟩
    rw [cJSONMergeWithTemplate_eq va.valid (merged_own_valid va vb ran),
      merged_own_again va vb ran]
    rfl

/-- `cJSON_AddNumberToObject`. -/
def numberItem (name : String) (number : Int) : Node Int :=
  ⟨.number, none, number, number, some name, []⟩

/-- `cJSON_AddBoolToObject`. -/
def boolItem (name : String) (boolean : Bool) : Node Int :=
  ⟨if boolean then .true else .false, none, 0, 0, some name, []⟩

def objectItem (name : Option String) (child : List (Node Int)) : Node Int :=
  ⟨.object, none, 0, 0, name, child⟩

theorem value_numberItem (name : String) (number : Int) : Value (numberItem name number) := by
  refine ⟨?_, ?_, ?_, ?_, ?_, ?_⟩ <;> simp [numberItem, Unnamed]

theorem value_boolItem (name : String) (boolean : Bool) : Value (boolItem name boolean) := by
  refine ⟨?_, ?_, ?_, ?_, ?_, ?_⟩ <;> cases boolean <;> simp [boolItem, Unnamed]

theorem value_objectItem {name : Option String} {child : List (Node Int)} (named : Named child)
    (values : ∀ c ∈ child, Value c) : Value (objectItem name child) := by
  refine ⟨?_, ?_, ?_, ?_, fun _ => named, values⟩ <;> simp [objectItem]

/-- A part of the configuration that `test_config_cmp_key` merges. -/
def pcuTemplate : Node Int :=
  objectItem none [numberItem "pcu_id" 1, boolItem "spd_enable" true, numberItem "xxxx_id" 1]

def pcuValues : Node Int :=
  objectItem none [boolItem "spd_enable" false, numberItem "pcu_id" 3,
    numberItem "work_altitude" 1000]

theorem value_pcuTemplate : Value pcuTemplate := by
  refine value_objectItem ⟨?_, by decide⟩ ?_
  · simp [numberItem, boolItem]
  · simp [value_numberItem, value_boolItem]

theorem value_pcuValues : Value pcuValues := by
  refine value_objectItem ⟨?_, by decide⟩ ?_
  · simp [numberItem, boolItem]
  · simp [value_numberItem, value_boolItem]

/-- A template with an object in an object, and values that lack one of its members. -/
def nestedTemplate : Node Int :=
  objectItem none [objectItem (some "limits") [numberItem "vol" 750, numberItem "cur" 250]]

def nestedValues : Node Int :=
  objectItem none [objectItem (some "limits") [numberItem "vol" 500]]

theorem value_nestedTemplate : Value nestedTemplate := by
  refine value_objectItem ⟨?_, by decide⟩ ?_
  · simp [objectItem]
  · simp only [List.mem_singleton, forall_eq]
    refine value_objectItem ⟨?_, by decide⟩ ?_
    · simp [numberItem]
    · simp [value_numberItem]

theorem value_nestedValues : Value nestedValues := by
  refine value_objectItem ⟨?_, by decide⟩ ?_
  · simp [objectItem]
  · simp only [List.mem_singleton, forall_eq]
    refine value_objectItem ⟨?_, by decide⟩ ?_
    · simp [numberItem]
    · simp [value_numberItem]

end ChargerStack.ConfigFiles.MergeTemplate
