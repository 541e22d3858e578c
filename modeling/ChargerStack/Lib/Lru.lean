/-
# Lib.Lru -- a map that forgets what was used longest ago

An `Lru K V` is a list of keys and values, most recently used first.  `get` and `put`
bring their key to the front; a `put` of a new key first drops the last pair when the
map is `full`, whatever that means for the map at hand.

* `step` and `answer` make a system of it that other systems can be compared with;
* `nodup_step`: no key is ever there twice;
* `put_mapValues`: what happens to the values has no part in it.
-/
import Mathlib.Data.List.Nodup

namespace ChargerStack.Lib

set_option autoImplicit false
set_option linter.unusedSectionVars false

universe u v

abbrev Lru (K : Type u) (V : Type v) := List (K × V)

namespace Lru

variable {K : Type u} {V W : Type v} [DecidableEq K]

def keys (l : Lru K V) : List K := l.map Prod.fst

/-- The map without a key. -/
def remove (k : K) (l : Lru K V) : Lru K V := l.filter fun e => e.1 ≠ k

/-- The value of a key. -/
def lookup (k : K) (l : Lru K V) : Option V := (l.find? fun e => e.1 = k).map Prod.snd

/-- The map after a key has been used. -/
def get (k : K) (l : Lru K V) : Lru K V :=
  match lookup k l with
  | none => l
  | some v => (k, v) :: remove k l

def put (full : Lru K V → Bool) (k : K) (v : V) (l : Lru K V) : Lru K V :=
  if k ∈ keys l then (k, v) :: remove k l
  else (k, v) :: if full l then l.dropLast else l

inductive Command (K : Type u) (V : Type v) where
  | put (k : K) (v : V)
  | get (k : K)
  | remove (k : K)

def step (full : Lru K V → Bool) (l : Lru K V) : Command K V → Option (Lru K V)
  | .put k v => some (put full k v l)
  | .get k => some (get k l)
  | .remove k => some (remove k l)

/-- What a command shows: `get` the value, or that there is none. -/
def answer (l : Lru K V) : Command K V → Option (Option V)
  | .get k => some (lookup k l)
  | _ => none

variable {full : Lru K V → Bool} {k : K} {v w : V} {l a b : Lru K V}

/-! ## A key that is there -/

theorem not_mem_of_nodup (nodup : (keys (a ++ (k, v) :: b)).Nodup) : k ∉ keys a ∧ k ∉ keys b := by
  have split : keys (a ++ (k, v) :: b) = keys a ++ k :: keys b := by simp [keys]
  rw [split] at nodup
  obtain ⟨-, right, apart⟩ := List.nodup_append.1 nodup
  refine ⟨fun inside => ?_, (List.nodup_cons.1 right).1⟩
  exact apart k inside k List.mem_cons_self rfl

theorem exists_split (inside : k ∈ keys l) : ∃ v a b, l = a ++ (k, v) :: b := by
  obtain ⟨⟨_, v⟩, member, rfl⟩ := List.mem_map.1 inside
  obtain ⟨a, b, rfl⟩ := List.append_of_mem member
  exact ⟨v, a, b, rfl⟩

theorem remove_of_not_mem (absent : k ∉ keys l) : remove k l = l := by
  unfold remove
  rw [List.filter_eq_self]
  intro e inside
  have apart : e.1 ≠ k := fun same => absent (same ▸ List.mem_map_of_mem inside)
  simpa using apart

theorem remove_split (nodup : (keys (a ++ (k, v) :: b)).Nodup) :
    remove k (a ++ (k, v) :: b) = a ++ b := by
  obtain ⟨left, right⟩ := not_mem_of_nodup nodup
  have append : remove k (a ++ (k, v) :: b) = remove k a ++ remove k b := by simp [remove]
  rw [append, remove_of_not_mem left, remove_of_not_mem right]

theorem lookup_split (nodup : (keys (a ++ (k, v) :: b)).Nodup) :
    lookup k (a ++ (k, v) :: b) = some v := by
  obtain ⟨left, -⟩ := not_mem_of_nodup nodup
  have none : a.find? (fun e => decide (e.1 = k)) = none := by
    rw [List.find?_eq_none]
    intro e inside same
    exact left (of_decide_eq_true same ▸ List.mem_map_of_mem inside)
  simp [lookup, List.find?_append, none]

theorem lookup_of_not_mem (absent : k ∉ keys l) : lookup k l = none := by
  unfold lookup
  rw [Option.map_eq_none_iff, List.find?_eq_none]
  intro e inside same
  exact absent (of_decide_eq_true same ▸ List.mem_map_of_mem inside)

theorem get_split (nodup : (keys (a ++ (k, v) :: b)).Nodup) :
    get k (a ++ (k, v) :: b) = (k, v) :: (a ++ b) := by
  rw [get, lookup_split nodup, remove_split nodup]

theorem get_of_not_mem (absent : k ∉ keys l) : get k l = l := by
  rw [get, lookup_of_not_mem absent]

theorem perm_get (nodup : (keys l).Nodup) : (get k l).Perm l := by
  by_cases inside : k ∈ keys l
  · obtain ⟨v, a, b, rfl⟩ := exists_split inside
    rw [get_split nodup]
    exact List.perm_middle.symm
  · rw [get_of_not_mem inside]

theorem put_split (nodup : (keys (a ++ (k, v) :: b)).Nodup) :
    put full k w (a ++ (k, v) :: b) = (k, w) :: (a ++ b) := by
  have inside : k ∈ keys (a ++ (k, v) :: b) := by simp [keys]
  rw [put, if_pos inside, remove_split nodup]

theorem put_of_not_mem (absent : k ∉ keys l) :
    put full k v l = (k, v) :: if full l then l.dropLast else l := by
  rw [put, if_neg absent]

/-! ## Where the pairs come from -/

theorem mem_put {e : K × V} (inside : e ∈ put full k v l) : e = (k, v) ∨ e ∈ l := by
  unfold put at inside
  split at inside
  · rcases List.mem_cons.1 inside with rfl | inside
    · exact .inl rfl
    · exact .inr (List.mem_of_mem_filter inside)
  · rcases List.mem_cons.1 inside with rfl | inside
    · exact .inl rfl
    · split at inside
      · exact .inr ((List.dropLast_sublist l).subset inside)
      · exact .inr inside

theorem mem_get {e : K × V} (inside : e ∈ get k l) : e ∈ l := by
  unfold get at inside
  split at inside
  · exact inside
  · rename_i v found
    rcases List.mem_cons.1 inside with rfl | inside
    · obtain ⟨⟨key, value⟩, first, same⟩ := Option.map_eq_some_iff.1 found
      have matched : key = k := by simpa using List.find?_some first
      have value : value = v := same
      rw [← matched, ← value]
      exact List.mem_of_find?_eq_some first
    · exact List.mem_of_mem_filter inside

/-! ## No key twice -/

theorem nodup_sublist (nodup : (keys l).Nodup) (sub : a.Sublist l) : (keys a).Nodup :=
  nodup.sublist (sub.map Prod.fst)

theorem nodup_cons_of_sublist (nodup : (keys l).Nodup) (sub : a.Sublist l) (absent : k ∉ keys a) :
    (keys ((k, v) :: a)).Nodup :=
  List.nodup_cons.2 ⟨absent, nodup_sublist nodup sub⟩

theorem not_mem_remove : k ∉ keys (remove k l) := by
  intro inside
  obtain ⟨e, member, same⟩ := List.mem_map.1 inside
  have apart := List.of_mem_filter member
  simp [same] at apart

theorem nodup_remove (nodup : (keys l).Nodup) : (keys (remove k l)).Nodup :=
  nodup_sublist nodup List.filter_sublist

theorem nodup_get (nodup : (keys l).Nodup) : (keys (get k l)).Nodup := by
  unfold get
  split
  · exact nodup
  · exact nodup_cons_of_sublist nodup List.filter_sublist not_mem_remove

theorem nodup_put (nodup : (keys l).Nodup) : (keys (put full k v l)).Nodup := by
  unfold put
  split
  · exact nodup_cons_of_sublist nodup List.filter_sublist not_mem_remove
  · rename_i absent
    split
    · refine nodup_cons_of_sublist nodup (List.dropLast_sublist l) fun inside => absent ?_
      exact ((List.dropLast_sublist l).map Prod.fst).subset inside
    · exact nodup_cons_of_sublist nodup (List.Sublist.refl l) absent

theorem nodup_step {c : Command K V} (nodup : (keys l).Nodup) (moved : step full l c = some a) :
    (keys a).Nodup := by
  cases c with
  | put k v =>
      obtain rfl := Option.some.inj moved
      exact nodup_put nodup
  | get k =>
      obtain rfl := Option.some.inj moved
      exact nodup_get nodup
  | remove k =>
      obtain rfl := Option.some.inj moved
      exact nodup_remove nodup

/-! ## Other values -/

/-- The same map with other values. -/
def mapValues (f : V → W) (l : Lru K V) : Lru K W := l.map fun e => (e.1, f e.2)

theorem mapValues_cons (f : V → W) : mapValues f ((k, v) :: l) = (k, f v) :: mapValues f l := rfl

theorem keys_mapValues (f : V → W) : keys (mapValues f l) = keys l := by
  simp [keys, mapValues]

theorem remove_mapValues (f : V → W) : remove k (mapValues f l) = mapValues f (remove k l) := by
  simp [remove, mapValues, List.filter_map, Function.comp_def]

theorem lookup_mapValues (f : V → W) : lookup k (mapValues f l) = (lookup k l).map f := by
  simp [lookup, mapValues, List.find?_map, Function.comp_def]

theorem get_mapValues (f : V → W) : get k (mapValues f l) = mapValues f (get k l) := by
  unfold get
  rw [lookup_mapValues]
  cases lookup k l with
  | none => rfl
  | some v =>
      show (k, f v) :: remove k (mapValues f l) = mapValues f ((k, v) :: remove k l)
      rw [remove_mapValues, mapValues_cons]

theorem put_mapValues (f : V → W) {full' : Lru K W → Bool} (same : full' (mapValues f l) = full l) :
    put full' k (f v) (mapValues f l) = mapValues f (put full k v l) := by
  unfold put
  rw [keys_mapValues]
  split
  · rw [remove_mapValues, mapValues_cons]
  · rw [same, mapValues_cons]
    split
    · simp [mapValues, List.map_dropLast]
    · rfl

end Lru

end ChargerStack.Lib
