/-
# Lib.Fifo -- a bounded map that forgets its oldest entry

A `Fifo K V` is an association list, oldest entry first.  `put` overwrites the value of
a key that is there and leaves the entry in its place; a new key goes to the end, and
when there are more than `cap` entries the first one goes.

* `Valid`: no key twice and never more than `cap` entries;
* `age h k`: how many insertions ago, counting back through the history `h`, the key
  `k` was last inserted;
* `ByAge h q`: the entries stand in the order of their age, oldest first, so the entry
  that goes is the one inserted longest ago.
-/
import Mathlib.Data.List.Nodup

namespace ChargerStack.Lib

set_option autoImplicit false
set_option linter.unusedSectionVars false

universe u v

variable {K : Type u} {V : Type v} [DecidableEq K]

abbrev Fifo (K : Type u) (V : Type v) := List (K × V)

namespace Fifo

def keys (q : Fifo K V) : List K := q.map Prod.fst

/-- The value of a key that is there. -/
def overwrite (q : Fifo K V) (k : K) (v : V) : Fifo K V :=
  q.map fun e => if e.1 = k then (k, v) else e

/-- A new entry at the end; the first one goes when there are too many. -/
def push (cap : Nat) (q : Fifo K V) (k : K) (v : V) : Fifo K V :=
  let grown := q ++ [(k, v)]
  if cap < grown.length then grown.tail else grown

def put (cap : Nat) (q : Fifo K V) (k : K) (v : V) : Fifo K V :=
  if k ∈ keys q then overwrite q k v else push cap q k v

def erase (q : Fifo K V) (k : K) : Fifo K V := q.filter fun e => e.1 ≠ k

structure Valid (cap : Nat) (q : Fifo K V) : Prop where
  nodup : (keys q).Nodup
  length : q.length ≤ cap

/-- How many insertions ago the key was last inserted. -/
def age (h : List K) (k : K) : Nat := h.reverse.idxOf k

/-- The entries were inserted in their order. -/
structure ByAge (h : List K) (q : Fifo K V) : Prop where
  sorted : (keys q).Pairwise fun a b => age h b < age h a
  inserted : ∀ k ∈ keys q, k ∈ h

variable {cap : Nat} {q r : Fifo K V} {h : List K} {k : K} {v : V}

@[simp] theorem keys_nil : keys ([] : Fifo K V) = [] := rfl

@[simp] theorem keys_overwrite : keys (overwrite q k v) = keys q := by
  unfold keys overwrite
  rw [List.map_map]
  apply List.map_congr_left
  intro e _
  show (if e.1 = k then (k, v) else e).1 = e.1
  split
  · rename_i same
    exact same.symm
  · rfl

theorem keys_push : keys (push cap q k v) =
    if cap < q.length + 1 then (keys q ++ [k]).tail else keys q ++ [k] := by
  have grown : (q ++ [(k, v)]).length = q.length + 1 := by simp
  unfold push keys
  simp only [grown]
  split
  · rw [List.map_tail, List.map_append, List.map_singleton]
  · rw [List.map_append, List.map_singleton]

theorem keys_sublist (sub : r.Sublist q) : (keys r).Sublist (keys q) := sub.map _

theorem erase_sublist : (erase q k).Sublist q := List.filter_sublist

/-- An entry after a `put` is the one put, or an older one of another key. -/
theorem mem_put {e : K × V} (inside : e ∈ put cap q k v) :
    e = (k, v) ∨ e ∈ q ∧ e.1 ≠ k := by
  unfold put at inside
  split at inside
  · obtain ⟨old, member, rfl⟩ := List.mem_map.1 inside
    split
    · exact .inl rfl
    · rename_i apart
      exact .inr ⟨member, apart⟩
  · rename_i fresh
    have grown : e ∈ q ++ [(k, v)] := by
      unfold push at inside
      simp only at inside
      split at inside
      · exact List.mem_of_mem_tail inside
      · exact inside
    rcases List.mem_append.1 grown with member | last
    · refine .inr ⟨member, fun same => fresh ?_⟩
      rw [← same]
      exact List.mem_map_of_mem member
    · exact .inl (List.mem_singleton.1 last)

/-! ## Validity -/

theorem valid_nil : Valid cap ([] : Fifo K V) := ⟨List.nodup_nil, Nat.zero_le cap⟩

theorem Valid.sublist (valid : Valid cap q) (sub : r.Sublist q) : Valid cap r :=
  ⟨valid.nodup.sublist (keys_sublist sub), Nat.le_trans sub.length_le valid.length⟩

theorem Valid.put (valid : Valid cap q) : Valid cap (put cap q k v) := by
  unfold Fifo.put
  split
  · refine ⟨?_, ?_⟩
    · rw [keys_overwrite]
      exact valid.nodup
    · rw [overwrite, List.length_map]
      exact valid.length
  · rename_i fresh
    have nodup : (keys q ++ [k]).Nodup := by
      rw [List.nodup_append]
      refine ⟨valid.nodup, List.nodup_singleton k, fun a inside b last => ?_⟩
      rw [List.mem_singleton] at last
      intro same
      exact fresh (last ▸ same ▸ inside)
    refine ⟨?_, ?_⟩
    · rw [keys_push]
      split
      · exact nodup.sublist (List.tail_sublist _)
      · exact nodup
    · have length := valid.length
      unfold push
      simp only
      split
      · simp only [List.length_tail, List.length_append, List.length_singleton]
        omega
      · omega

/-! ## The order of insertion -/

theorem age_insert (h : List K) (k : K) : age (h ++ [k]) k = 0 := by
  simp [age, List.idxOf_cons_self]

theorem age_insert_of_ne {other : K} (apart : other ≠ k) :
    age (h ++ [k]) other = age h other + 1 := by
  unfold age
  rw [List.reverse_append, List.reverse_singleton, List.singleton_append,
    List.idxOf_cons_ne _ (Ne.symm apart)]

theorem byAge_nil (h : List K) : ByAge h ([] : Fifo K V) :=
  ⟨List.Pairwise.nil, by simp⟩

theorem ByAge.sublist (byAge : ByAge h q) (sub : (keys r).Sublist (keys q)) : ByAge h r :=
  ⟨byAge.sorted.sublist sub, fun k inside => byAge.inserted k (sub.subset inside)⟩

/-- A new key is the youngest. -/
theorem ByAge.push (byAge : ByAge h q) (fresh : k ∉ keys q) : ByAge (h ++ [k]) (push cap q k v) := by
  have all : (keys q ++ [k]).Pairwise (fun a b => age (h ++ [k]) b < age (h ++ [k]) a) := by
    rw [List.pairwise_append]
    refine ⟨?_, List.pairwise_singleton _ _, ?_⟩
    · refine byAge.sorted.imp_of_mem fun {a b} first second older => ?_
      rw [age_insert_of_ne (ne_of_mem_of_not_mem first fresh),
        age_insert_of_ne (ne_of_mem_of_not_mem second fresh)]
      omega
    · intro a inside b last
      obtain rfl := List.mem_singleton.1 last
      rw [age_insert, age_insert_of_ne (ne_of_mem_of_not_mem inside fresh)]
      omega
  have members : ∀ a ∈ keys q ++ [k], a ∈ h ++ [k] := by
    intro a inside
    rw [List.mem_append] at inside ⊢
    exact inside.imp_left (byAge.inserted a)
  have sub : (keys (Fifo.push cap q k v)).Sublist (keys q ++ [k]) := by
    rw [keys_push]
    split
    · exact List.tail_sublist _
    · exact List.Sublist.refl _
  exact ⟨all.sublist sub, fun a inside => members a (sub.subset inside)⟩

theorem ByAge.overwrite (byAge : ByAge h q) : ByAge h (overwrite q k v) :=
  byAge.sublist (by rw [keys_overwrite])

/-- **A full map forgets the key inserted longest ago.** -/
theorem push_full (byAge : ByAge h q) (full : q.length = cap) (positive : 0 < cap) :
    ∃ evicted rest, keys q = evicted :: rest ∧ keys (push cap q k v) = rest ++ [k] ∧
      ∀ other ∈ rest, age h other < age h evicted := by
  cases q with
  | nil =>
      rw [List.length_nil] at full
      omega
  | cons e q =>
      refine ⟨e.1, keys q, rfl, ?_, ?_⟩
      · rw [keys_push, if_pos (by omega)]
        rfl
      · exact (List.pairwise_cons.1 byAge.sorted).1

end Fifo

end ChargerStack.Lib
