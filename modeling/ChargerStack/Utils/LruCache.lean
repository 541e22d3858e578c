/-
# Utils.LruCache -- the cache of utils/cache/lru.c

A cached item hangs on a node of a doubly linked list, most recently used first, and the
list node and an element of a hash table point at each other.  The model keeps both
structures and the pointers between them; the list and the hash table themselves are
those of utlist and uthash.  `used_mem` is a counter that every operation adjusts by its
own formula, in the widths of the source.

* `Rep c l`: the two structures stand in bijection and hold the pairs `l`; the lemmas
  `Rep.moveToHead`, `Rep.deleteData`, `Rep.setItem` and `Rep.addEntry` say what each step
  makes of them;
* `Counted c l`: besides, the counter is the sum of the costs of the entries, and there
  are not more of them than allowed;
* `Counted.get`, `Counted.put` and `Counted.remove`: the operations are those of a map that
  forgets what was used longest ago, or a put fails for want of memory.
-/
import Mathlib.Algebra.BigOperators.Group.List.Basic
import Mathlib.Algebra.Ring.Int.Defs
import Mathlib.Logic.Function.Basic
import ChargerStack.Cxx.Basic
import ChargerStack.Lib.Lru
import ChargerStack.Lib.Run

namespace ChargerStack.Utils.LruCache

open ChargerStack.Cxx
open ChargerStack.Lib

set_option autoImplicit false

/-! ## The cache in memory -/

abbrev Bytes := List UInt8

/-- A C string, without its NUL. -/
abbrev Key := List UInt8

abbrev Address := Nat

/-- `UT_icd`: the size of an item and its callbacks. -/
structure Icd where
  sz : Nat
  init : Option Address
  copy : Option Address
  dtor : Option Address
  deriving DecidableEq, Repr

/-- `cache_item_t`. -/
structure CacheItem where
  icd : Icd
  data : Bytes
  deriving DecidableEq, Repr

/-- `lru_list_t`, without the links of utlist. -/
structure ListNode where
  hashNode : Address
  item : CacheItem
  deriving DecidableEq, Repr

/-- `lru_hash_t`, without the handle of uthash. -/
structure HashNode where
  key : Key
  keyLen : Int
  listNode : Address
  deriving DecidableEq, Repr

/-- `lru_cache_t` and the memory its nodes stand in.  `hash` are the elements of the table,
`list` the nodes of the list from its head on. -/
structure Cache where
  hash : List Address
  list : List Address
  hashNode : Address → HashNode
  listNode : Address → ListNode
  maxKeyNum : Int
  maxMem : Int
  usedMem : Int

/-- `sizeof(lru_list_t) + sizeof(lru_hash_t) + (key_len + 1) + sizeof(cache_item_t) + sz`. -/
def cost (keyLen : Int) (sz : Nat) : Int := 32 + 80 + (keyLen + 1) + 40 + sz

namespace Cache

variable (c : Cache)

/-- The hash element of a list node. -/
def hashOf (a : Address) : HashNode := c.hashNode (c.listNode a).hashNode

/-- The key and the item that a list node stands for. -/
def entry (a : Address) : Key × CacheItem := ((c.hashOf a).key, (c.listNode a).item)

/-- What the list holds. -/
def entries : Lru Key CacheItem := c.list.map c.entry

/-- The bytes allocated for the entries. -/
def bytes : Int :=
  (c.list.map fun a => cost (c.hashOf a).keyLen (c.listNode a).item.icd.sz).sum

/-- `HASH_FIND_STR`. -/
def find (key : Key) : Option Address := c.hash.find? fun h => (c.hashNode h).key = key

end Cache

/-! ## Allocation -/

/-- Which allocations of an operation succeed: those of `create_data` in their order, the
hash table's own, and those of the text in `print_cache`. -/
structure Mallocs where
  listElt : Bool
  hashElt : Bool
  keyCopy : Bool
  item : Bool
  data : Bool
  table : Bool
  text : Bool
  deriving DecidableEq, Repr

/-- What an operation finds: the outcome of its allocations, the addresses of the new nodes,
and the bytes that an `icd->copy` leaves in an item. -/
structure Env where
  mallocs : Mallocs
  listElt : Address
  hashElt : Address
  copied : Bytes
  deriving DecidableEq, Repr

/-- `malloc(size)` beside `live` allocated bytes.  No process has 2⁶³ bytes of memory. -/
def malloc (succeeds : Bool) (live size : Int) : Bool := succeeds && decide (live + size < 2 ^ 63)

/-! ## Operations -/

/-- The bytes of an item made from `src`. -/
def itemBytes (icd : Icd) (src copied : Bytes) : Bytes :=
  if icd.copy = none then src.take icd.sz else copied

/-- `move_to_head`. -/
def moveToHead (a : Address) (c : Cache) : Cache := { c with list := a :: c.list.filter (· ≠ a) }

/-- `is_full`. -/
def isFull (c : Cache) : Bool :=
  decide (c.maxMem ≤ c.usedMem) || decide (c.maxKeyNum ≤ int32 c.list.length)

/-- `delete_data`. -/
def deleteData (a : Address) (c : Cache) : Cache :=
  { c with
    list := c.list.filter (· ≠ a)
    hash := c.hash.filter (· ≠ (c.listNode a).hashNode)
    usedMem := int64 (c.usedMem - cost (c.hashOf a).keyLen (c.listNode a).item.icd.sz) }

/-- `delete_tail_data`.  The head of an empty list is null. -/
def deleteTailData (c : Cache) : Option Cache := c.list.getLast?.map fun tail => deleteData tail c

/-- `HASH_ADD_STR` and `DL_PREPEND` of two new nodes that point at each other. -/
def addEntry (env : Env) (key : Key) (keyLen : Int) (item : CacheItem) (usedMem : Int) (c : Cache) :
    Cache :=
  { c with
    hash := c.hash ++ [env.hashElt]
    list := env.listElt :: c.list
    hashNode := Function.update c.hashNode env.hashElt ⟨key, keyLen, env.listElt⟩
    listNode := Function.update c.listNode env.listElt ⟨env.hashElt, item⟩
    usedMem := usedMem }

/-- The allocations of `create_data`, one after the other: the list node, the hash element, the
copy of the key, and the item with its bytes. -/
def createMallocs (mallocs : Mallocs) (live keyLen : Int) (sz : Nat) : Bool :=
  malloc mallocs.listElt live 32 &&
    (malloc mallocs.hashElt (live + 32) 80 &&
    (malloc mallocs.keyCopy (live + 112) (keyLen + 1) &&
    (malloc mallocs.item (live + 112 + (keyLen + 1)) 40 &&
    malloc mallocs.data (live + 152 + (keyLen + 1)) sz)))

/-- `create_data`.  There is no result when the hash table finds no memory, which ends the
process, and none when `malloc` would return a node that is in use. -/
def createData (env : Env) (key : Key) (icd : Icd) (src : Bytes) (c : Cache) :
    Option (Cache × Bool) :=
  let keyLen := int32 key.length
  if env.listElt ∈ c.list ∨ env.hashElt ∈ c.hash then none
  else if createMallocs env.mallocs c.bytes keyLen icd.sz = false then
    -- what has been allocated is freed again
    some (c, false)
  else if env.mallocs.table = false then none
  else
    some (addEntry env key keyLen ⟨icd, itemBytes icd src env.copied⟩
      (int64 (c.usedMem + cost keyLen icd.sz)) c, true)

/-- The item of a list node is replaced. -/
def setItem (a : Address) (item : CacheItem) (c : Cache) : Cache :=
  { c with listNode := Function.update c.listNode a { c.listNode a with item := item } }

/-- `update_data`.  `charge` is an `int32_t`. -/
def updateData (env : Env) (a : Address) (icd : Icd) (src : Bytes) (c : Cache) : Cache × Bool :=
  let item := (c.listNode a).item
  if item.icd = icd ∧ item.data = src.take icd.sz then (c, true)
  else
    let charge := int32 ((icd.sz : Int) - item.icd.sz)
    if ¬ malloc env.mallocs.data c.bytes icd.sz then (c, false)
    else
      ({ setItem a ⟨icd, itemBytes icd src env.copied⟩ c with
        usedMem := int64 (c.usedMem + charge) }, true)

/-- `print_cache` builds a text, and its memory running out ends the process. -/
def printCache (env : Env) {α : Type} (result : α) : Option α :=
  if env.mallocs.text then some result else none

/-- `lru_cache_get`. -/
def lruCacheGet (env : Env) (key : Option Key) (c : Cache) : Option (Cache × Option CacheItem) :=
  match key with
  | none => some (c, none)
  | some key =>
      match c.find key with
      | none => some (c, none)
      | some elt =>
          let a := (c.hashNode elt).listNode
          printCache env (moveToHead a c, some (c.listNode a).item)

/-- `lru_cache_put`. -/
def lruCachePut (env : Env) (key : Option Key) (icd : Option Icd) (data : Option Bytes)
    (c : Cache) : Option (Cache × Bool) :=
  match key, icd, data with
  | some key, some icd, some data =>
      if icd.sz = 0 then some (c, false)
      else
        match c.find key with
        | some elt =>
            let a := (c.hashNode elt).listNode
            match updateData env a icd data c with
            | (c, false) => some (c, false)
            | (c, true) => some (moveToHead a c, true)
        | none =>
            (if isFull c then deleteTailData c else some c).bind fun c =>
              (createData env key icd data c).bind fun r => printCache env r
  | _, _, _ => some (c, false)

/-- An `icd` of this size without callbacks. -/
def plainIcd (sz : Nat) : Icd := ⟨sz, none, none, none⟩

/-- The bytes of an `int64_t` in memory, lowest first. -/
def int64Bytes (i : Int) : Bytes :=
  (List.range 8).map fun n => UInt8.ofNat (i % 2 ^ 64 / 2 ^ (8 * n) % 256).toNat

/-- An `int32_t` as a `size_t`. -/
def toSize (n : Int) : Nat := (n % 2 ^ 64).toNat

/-- `lru_cache_put_int64`. -/
def lruCachePutInt64 (env : Env) (key : Option Key) (i64 : Int) (c : Cache) :
    Option (Cache × Bool) :=
  lruCachePut env key (some (plainIcd 8)) (some (int64Bytes i64)) c

/-- `lru_cache_put_str`. -/
def lruCachePutStr (env : Env) (key : Option Key) (str : Bytes) (c : Cache) :
    Option (Cache × Bool) :=
  lruCachePut env key (some (plainIcd (toSize (int32 (int32 str.length + 1))))) (some (str ++ [0])) c

/-- `lru_cache_put_struct`. -/
def lruCachePutStruct (env : Env) (key : Option Key) (sz : Int) (data : Option Bytes) (c : Cache) :
    Option (Cache × Bool) :=
  lruCachePut env key (some (plainIcd (toSize sz))) data c

/-- `lru_cache_remove`. -/
def lruCacheRemove (env : Env) (key : Option Key) (c : Cache) : Option Cache :=
  match key with
  | none => some c
  | some key =>
      match c.find key with
      | none => some c
      | some elt => printCache env (deleteData (c.hashNode elt).listNode c)

/-- `new_lru_cache`. -/
def newLruCache (maxKeyNum maxMem : Int) : Option Cache :=
  if maxKeyNum ≤ 0 ∨ maxMem ≤ 0 then none
  else some ⟨[], [], fun _ => ⟨[], 0, 0⟩, fun _ => ⟨0, ⟨plainIcd 0, []⟩⟩, maxKeyNum, maxMem, 0⟩

/-! ## The two structures -/

/-- List and hash table stand in bijection and hold the pairs `l`. -/
structure Rep (c : Cache) (l : Lru Key CacheItem) : Prop where
  entries : c.entries = l
  listNodup : c.list.Nodup
  hashNodup : c.hash.Nodup
  forth : ∀ a ∈ c.list, (c.listNode a).hashNode ∈ c.hash ∧ (c.hashOf a).listNode = a
  back : ∀ h ∈ c.hash, (c.hashNode h).listNode ∈ c.list ∧
    (c.listNode (c.hashNode h).listNode).hashNode = h
  keyLen : ∀ h ∈ c.hash, (c.hashNode h).keyLen = (c.hashNode h).key.length
  nodup : (Lru.keys l).Nodup

/-- A key, its hash element and its list node, and where that stands. -/
structure Placed (c : Cache) (key : Key) (elt a : Address) (x y : List Address) : Prop where
  listNode : (c.hashNode elt).listNode = a
  hashNode : (c.listNode a).hashNode = elt
  list : c.list = x ++ a :: y
  key : (c.entry a).1 = key

variable {c c' : Cache} {l : Lru Key CacheItem} {key : Key} {elt a : Address} {x y : List Address}
  {icd : Icd} {src : Bytes} {env : Env} {item : CacheItem}

theorem Rep.hashOf_back (rep : Rep c l) {h : Address} (inside : h ∈ c.hash) :
    c.hashOf (c.hashNode h).listNode = c.hashNode h := by
  rw [Cache.hashOf, (rep.back h inside).2]

theorem Rep.mem_keys (rep : Rep c l) {h : Address} (inside : h ∈ c.hash) :
    (c.hashNode h).key ∈ Lru.keys l := by
  rw [← rep.entries]
  refine List.mem_map.2 ⟨c.entry (c.hashNode h).listNode, ?_, ?_⟩
  · exact List.mem_map_of_mem (rep.back h inside).1
  · rw [Cache.entry, rep.hashOf_back inside]

theorem Rep.find_none (rep : Rep c l) (absent : key ∉ Lru.keys l) : c.find key = none := by
  rw [Cache.find, List.find?_eq_none]
  intro h inside same
  exact absent (of_decide_eq_true same ▸ rep.mem_keys inside)

theorem Rep.find_some (rep : Rep c l) (inside : key ∈ Lru.keys l) :
    ∃ elt a x y, c.find key = some elt ∧ Placed c key elt a x y := by
  rw [← rep.entries] at inside
  obtain ⟨_, member, same⟩ := List.mem_map.1 inside
  obtain ⟨b, listed, rfl⟩ := List.mem_map.1 member
  obtain ⟨hashed, -⟩ := rep.forth b listed
  have some : (c.find key).isSome :=
    List.find?_isSome.2 ⟨(c.listNode b).hashNode, hashed, decide_eq_true same⟩
  obtain ⟨elt, found⟩ := Option.isSome_iff_exists.1 some
  have there := List.mem_of_find?_eq_some found
  have matched : (c.hashNode elt).key = key := by simpa using List.find?_some found
  obtain ⟨listed, hashNode⟩ := rep.back elt there
  obtain ⟨x, y, list⟩ := List.append_of_mem listed
  refine ⟨elt, _, x, y, found, rfl, hashNode, list, ?_⟩
  rw [Cache.entry, rep.hashOf_back there, matched]

theorem Rep.placed (rep : Rep c l) (list : c.list = x ++ a :: y) :
    Placed c (c.entry a).1 (c.listNode a).hashNode a x y := by
  have inside : a ∈ c.list := by simp [list]
  exact ⟨(rep.forth a inside).2, rfl, list, rfl⟩

theorem Placed.filter_list (placed : Placed c key elt a x y) (nodup : c.list.Nodup) :
    c.list.filter (· ≠ a) = x ++ y := by
  rw [placed.list] at nodup ⊢
  obtain ⟨-, right, apart⟩ := List.nodup_append.1 nodup
  have left : x.filter (· ≠ a) = x := by
    rw [List.filter_eq_self]
    intro b inside
    simpa using apart b inside a List.mem_cons_self
  have rest : y.filter (· ≠ a) = y := by
    rw [List.filter_eq_self]
    intro b inside
    have other : b ≠ a := fun same => (List.nodup_cons.1 right).1 (same ▸ inside)
    simpa using other
  rw [List.filter_append, left, List.filter_cons_of_neg (by simp), rest]

/-- The pairs around a key. -/
theorem Placed.entries (placed : Placed c key elt a x y) :
    c.entries = x.map c.entry ++ (key, (c.listNode a).item) :: y.map c.entry := by
  have self : c.entry a = (key, (c.listNode a).item) := Prod.ext placed.key rfl
  rw [Cache.entries, placed.list, List.map_append, List.map_cons, self]

/-- Nothing but the order of the list has changed. -/
theorem Rep.moveToHead (rep : Rep c l) (placed : Placed c key elt a x y) :
    Rep (moveToHead a c) ((key, (c.listNode a).item) :: (x ++ y).map c.entry) := by
  have perm : (LruCache.moveToHead a c).list.Perm c.list := by
    show (a :: c.list.filter (· ≠ a)).Perm c.list
    rw [placed.filter_list rep.listNodup, placed.list]
    exact List.perm_middle.symm
  have entries : (LruCache.moveToHead a c).entries =
      (key, (c.listNode a).item) :: (x ++ y).map c.entry := by
    show (a :: c.list.filter (· ≠ a)).map c.entry = _
    rw [placed.filter_list rep.listNodup, List.map_cons]
    exact congrArg (· :: _) (Prod.ext placed.key rfl)
  refine ⟨entries, perm.nodup_iff.2 rep.listNodup, rep.hashNodup, ?_, ?_, rep.keyLen, ?_⟩
  · exact fun b inside => rep.forth b (perm.mem_iff.1 inside)
  · exact fun h inside => ⟨perm.mem_iff.2 (rep.back h inside).1, (rep.back h inside).2⟩
  · have same : (Lru.keys (LruCache.moveToHead a c).entries).Perm (Lru.keys c.entries) :=
      (perm.map c.entry).map Prod.fst
    rw [← entries, same.nodup_iff, rep.entries]
    exact rep.nodup

theorem Rep.deleteData (rep : Rep c l) (placed : Placed c key elt a x y) :
    Rep (deleteData a c) ((x ++ y).map c.entry) := by
  have list : (LruCache.deleteData a c).list = x ++ y := placed.filter_list rep.listNodup
  have sub : (x ++ y).Sublist c.list := by
    rw [← list]
    exact List.filter_sublist
  have hash : (LruCache.deleteData a c).hash = c.hash.filter (· ≠ elt) := by
    rw [← placed.hashNode]
    rfl
  have absent : a ∉ x ++ y := by
    rw [← list]
    simp [LruCache.deleteData]
  refine ⟨?_, ?_, ?_, ?_, ?_, ?_, ?_⟩
  · show (LruCache.deleteData a c).list.map c.entry = _
    rw [list]
  · rw [list]
    exact rep.listNodup.sublist sub
  · rw [hash]
    exact rep.hashNodup.sublist List.filter_sublist
  · intro b inside
    rw [list] at inside
    obtain ⟨hashed, listNode⟩ := rep.forth b (sub.subset inside)
    refine ⟨?_, listNode⟩
    rw [hash, List.mem_filter]
    refine ⟨hashed, ?_⟩
    have apart : (c.listNode b).hashNode ≠ elt := by
      intro same
      rw [Cache.hashOf, same, placed.listNode] at listNode
      exact absent (listNode ▸ inside)
    exact decide_eq_true apart
  · intro h inside
    rw [hash, List.mem_filter] at inside
    have apart : h ≠ elt := by simpa using inside.2
    obtain ⟨listed, hashNode⟩ := rep.back h inside.1
    refine ⟨?_, hashNode⟩
    rw [list]
    rw [placed.list] at listed
    have other : (c.hashNode h).listNode ≠ a := by
      intro same
      rw [same, placed.hashNode] at hashNode
      exact apart hashNode.symm
    show (c.hashNode h).listNode ∈ x ++ y
    simpa [other] using listed
  · intro h inside
    rw [hash] at inside
    exact rep.keyLen h (List.mem_of_mem_filter inside)
  · have nodup := rep.nodup
    rw [← rep.entries] at nodup
    exact Lru.nodup_sublist nodup (sub.map c.entry)

theorem Rep.setItem (rep : Rep c l) (placed : Placed c key elt a x y) (item : CacheItem) :
    Rep (setItem a item c) (x.map c.entry ++ (key, item) :: y.map c.entry) ∧
      Placed (LruCache.setItem a item c) key elt a x y := by
  have hashNode : ∀ b,
      ((LruCache.setItem a item c).listNode b).hashNode = (c.listNode b).hashNode := by
    intro b
    by_cases same : b = a
    · simp [LruCache.setItem, same]
    · simp [LruCache.setItem, same]
  have hashOf : ∀ b, (LruCache.setItem a item c).hashOf b = c.hashOf b := by
    intro b
    rw [Cache.hashOf, hashNode]
    rfl
  have other : ∀ b, b ≠ a → (LruCache.setItem a item c).entry b = c.entry b := by
    intro b apart
    refine Prod.ext (congrArg HashNode.key (hashOf b)) ?_
    simp [Cache.entry, LruCache.setItem, apart]
  have self : (LruCache.setItem a item c).entry a = (key, item) := by
    refine Prod.ext ((congrArg HashNode.key (hashOf a)).trans placed.key) ?_
    simp [Cache.entry, LruCache.setItem]
  have nodup := rep.listNodup
  rw [placed.list] at nodup
  obtain ⟨-, right, apart⟩ := List.nodup_append.1 nodup
  have entries : (LruCache.setItem a item c).entries =
      x.map c.entry ++ (key, item) :: y.map c.entry := by
    show c.list.map (LruCache.setItem a item c).entry = _
    rw [placed.list, List.map_append, List.map_cons, self]
    congr 1
    · exact List.map_congr_left fun b inside => other b (apart b inside a List.mem_cons_self)
    · refine congrArg _ (List.map_congr_left fun b inside => other b fun same => ?_)
      exact (List.nodup_cons.1 right).1 (same ▸ inside)
  refine ⟨⟨entries, rep.listNodup, rep.hashNodup, ?_, ?_, rep.keyLen, ?_⟩, ?_⟩
  · intro b inside
    rw [hashNode, hashOf]
    exact rep.forth b inside
  · intro h inside
    rw [hashNode]
    exact rep.back h inside
  · have nodup := rep.nodup
    rw [← rep.entries, placed.entries] at nodup
    simpa [Lru.keys] using nodup
  · exact ⟨placed.listNode, (hashNode a).trans placed.hashNode, placed.list, by rw [self]⟩

theorem Rep.addEntry {usedMem : Int} (rep : Rep c l) (freshList : env.listElt ∉ c.list)
    (freshHash : env.hashElt ∉ c.hash) (absent : key ∉ Lru.keys l) :
    Rep (addEntry env key key.length item usedMem c) ((key, item) :: l) := by
  have listed : ∀ b ∈ c.list, (LruCache.addEntry env key key.length item usedMem c).listNode b =
      c.listNode b := by
    intro b inside
    have apart : b ≠ env.listElt := fun same => freshList (same ▸ inside)
    simp [LruCache.addEntry, apart]
  have hashed : ∀ h ∈ c.hash, (LruCache.addEntry env key key.length item usedMem c).hashNode h =
      c.hashNode h := by
    intro h inside
    have apart : h ≠ env.hashElt := fun same => freshHash (same ▸ inside)
    simp [LruCache.addEntry, apart]
  have hashOf : ∀ b ∈ c.list, (LruCache.addEntry env key key.length item usedMem c).hashOf b =
      c.hashOf b := by
    intro b inside
    rw [Cache.hashOf, listed b inside, hashed _ (rep.forth b inside).1]
    rfl
  have newList : (LruCache.addEntry env key key.length item usedMem c).listNode env.listElt =
      ⟨env.hashElt, item⟩ := by simp [LruCache.addEntry]
  have newHash : (LruCache.addEntry env key key.length item usedMem c).hashNode env.hashElt =
      ⟨key, key.length, env.listElt⟩ := by simp [LruCache.addEntry]
  refine ⟨?_, ?_, ?_, ?_, ?_, ?_, ?_⟩
  · show (env.listElt :: c.list).map _ = _
    rw [List.map_cons, ← rep.entries]
    congr 1
    · rw [Cache.entry, Cache.hashOf, newList, newHash]
    · refine List.map_congr_left fun b inside => ?_
      rw [Cache.entry, Cache.entry, hashOf b inside, listed b inside]
  · exact List.nodup_cons.2 ⟨freshList, rep.listNodup⟩
  · show (c.hash ++ [env.hashElt]).Nodup
    rw [List.nodup_append]
    refine ⟨rep.hashNodup, List.nodup_singleton _, fun h inside k last => ?_⟩
    rw [List.mem_singleton] at last
    exact fun same => freshHash (last ▸ same ▸ inside)
  · intro b inside
    rcases List.mem_cons.1 inside with rfl | inside
    · rw [Cache.hashOf, newList, newHash]
      exact ⟨by simp [LruCache.addEntry], rfl⟩
    · obtain ⟨there, same⟩ := rep.forth b inside
      rw [hashOf b inside, listed b inside]
      exact ⟨List.mem_append_left _ there, same⟩
  · intro h inside
    rcases List.mem_append.1 inside with inside | inside
    · obtain ⟨there, same⟩ := rep.back h inside
      rw [hashed h inside, listed _ there]
      exact ⟨List.mem_cons_of_mem _ there, same⟩
    · obtain rfl := List.mem_singleton.1 inside
      rw [newHash, newList]
      exact ⟨List.mem_cons_self, rfl⟩
  · intro h inside
    rcases List.mem_append.1 inside with inside | inside
    · rw [hashed h inside]
      exact rep.keyLen h inside
    · obtain rfl := List.mem_singleton.1 inside
      rw [newHash]
  · exact List.nodup_cons.2 ⟨absent, rep.nodup⟩

/-! ## The counter -/

/-- What an entry costs. -/
def costOf (e : Key × CacheItem) : Int := cost e.1.length e.2.icd.sz

/-- What the entries cost together. -/
def total (l : Lru Key CacheItem) : Int := (l.map costOf).sum

@[simp] theorem total_nil : total [] = 0 := rfl

@[simp] theorem total_cons (e : Key × CacheItem) (l : Lru Key CacheItem) :
    total (e :: l) = costOf e + total l := by simp [total]

@[simp] theorem total_append (l r : Lru Key CacheItem) : total (l ++ r) = total l + total r := by
  simp [total]

theorem costOf_pos (e : Key × CacheItem) : 0 < costOf e := by
  unfold costOf cost
  omega

theorem total_nonneg (l : Lru Key CacheItem) : 0 ≤ total l := by
  induction l with
  | nil => simp
  | cons e l ih =>
      rw [total_cons]
      have := costOf_pos e
      omega

theorem total_sublist {l r : Lru Key CacheItem} (sub : r.Sublist l) : total r ≤ total l := by
  induction sub with
  | slnil => exact Int.le_refl _
  | cons e _ ih =>
      rw [total_cons]
      have := costOf_pos e
      omega
  | cons_cons e _ ih =>
      rw [total_cons, total_cons]
      omega

theorem total_eq_zero {l : Lru Key CacheItem} : total l = 0 ↔ l = [] := by
  cases l with
  | nil => simp
  | cons e l =>
      have pos := costOf_pos e
      have rest := total_nonneg l
      rw [total_cons]
      refine iff_of_false (by omega) (by simp)

theorem Rep.bytes (rep : Rep c l) : c.bytes = total l := by
  rw [← rep.entries, Cache.bytes, Cache.entries, total, List.map_map]
  refine congrArg List.sum (List.map_congr_left fun a inside => ?_)
  have keyLen : (c.hashOf a).keyLen = (c.hashOf a).key.length :=
    rep.keyLen _ (rep.forth a inside).1
  rw [keyLen]
  rfl

/-- The cache is full: the entries cost too much, or there are as many as allowed. -/
def full (maxKeyNum maxMem : Int) (l : Lru Key CacheItem) : Bool :=
  decide (maxMem ≤ total l) || decide (maxKeyNum ≤ l.length)

/-- The limits given to `new_lru_cache`. -/
structure Limits (maxKeyNum maxMem : Int) : Prop where
  keyNum : 0 < maxKeyNum
  int32 : maxKeyNum < 2 ^ 31
  mem : 0 < maxMem

/-- The cache holds the pairs `l`, and the counter is what they cost. -/
structure Counted (maxKeyNum maxMem : Int) (c : Cache) (l : Lru Key CacheItem) : Prop
    extends Rep c l where
  keyNum : c.maxKeyNum = maxKeyNum
  mem : c.maxMem = maxMem
  used : c.usedMem = total l
  small : total l < 2 ^ 63
  few : (l.length : Int) ≤ maxKeyNum
  sizes : ∀ e ∈ l, e.2.icd.sz < 2 ^ 31 - 1

variable {maxKeyNum maxMem : Int}

theorem Counted.isFull (inv : Counted maxKeyNum maxMem c l) (limits : Limits maxKeyNum maxMem) :
    isFull c = full maxKeyNum maxMem l := by
  have length : c.list.length = l.length := by
    rw [← inv.entries, Cache.entries, List.length_map]
  have few := inv.few
  have below := limits.int32
  rw [LruCache.isFull, full, inv.mem, inv.used, inv.keyNum, length,
    int32_of_range (by omega) (by omega)]

/-! ## Every operation -/

theorem Placed.split (placed : Placed c key elt a x y) (rep : Rep c l) :
    l = x.map c.entry ++ (key, (c.listNode a).item) :: y.map c.entry := by
  rw [← rep.entries, placed.entries]

theorem Counted.moveToHead (inv : Counted maxKeyNum maxMem c l) (placed : Placed c key elt a x y) :
    Counted maxKeyNum maxMem (moveToHead a c) (Lru.get key l) := by
  have split := placed.split inv.toRep
  have nodup := inv.nodup
  rw [split] at nodup
  have after : Lru.get key l = (key, (c.listNode a).item) :: (x ++ y).map c.entry := by
    rw [split, Lru.get_split nodup, List.map_append]
  have perm : (Lru.get key l).Perm l := Lru.perm_get inv.nodup
  have same : total (Lru.get key l) = total l := (perm.map costOf).sum_eq
  refine ⟨?_, inv.keyNum, inv.mem, ?_, ?_, ?_, ?_⟩
  · rw [after]
    exact inv.toRep.moveToHead placed
  · rw [same]
    exact inv.used
  · rw [same]
    exact inv.small
  · rw [perm.length_eq]
    exact inv.few
  · exact fun e inside => inv.sizes e (perm.mem_iff.1 inside)

theorem Counted.deleteData (inv : Counted maxKeyNum maxMem c l) (placed : Placed c key elt a x y) :
    Counted maxKeyNum maxMem (deleteData a c) (Lru.remove key l) := by
  have split := placed.split inv.toRep
  have nodup := inv.nodup
  rw [split] at nodup
  have after : Lru.remove key l = (x ++ y).map c.entry := by
    rw [split, Lru.remove_split nodup, List.map_append]
  have sub : (Lru.remove key l).Sublist l := List.filter_sublist
  have spent : total l = total (Lru.remove key l) + costOf (key, (c.listNode a).item) := by
    rw [after, split, List.map_append, total_append, total_append, total_cons]
    omega
  have charged : cost (c.hashOf a).keyLen (c.listNode a).item.icd.sz =
      costOf (key, (c.listNode a).item) := by
    have inside : a ∈ c.list := by simp [placed.list]
    rw [Cache.hashOf, inv.keyLen _ (inv.forth a inside).1]
    show cost (c.entry a).1.length _ = _
    rw [placed.key]
    rfl
  have nonneg := total_nonneg (Lru.remove key l)
  have pos := costOf_pos (key, (c.listNode a).item)
  have small := inv.small
  refine ⟨?_, inv.keyNum, inv.mem, ?_, ?_, ?_, ?_⟩
  · rw [after]
    exact inv.toRep.deleteData placed
  · show int64 (c.usedMem - cost (c.hashOf a).keyLen (c.listNode a).item.icd.sz) = _
    rw [charged, inv.used, int64_of_range (by omega) (by omega)]
    omega
  · omega
  · have := sub.length_le
    have := inv.few
    omega
  · exact fun e inside => inv.sizes e (sub.subset inside)

/-- The last entry goes. -/
theorem Counted.deleteTailData (inv : Counted maxKeyNum maxMem c l) (nonempty : l ≠ []) :
    ∃ c', deleteTailData c = some c' ∧ Counted maxKeyNum maxMem c' l.dropLast ∧
      (∀ b, b ∉ c.list → b ∉ c'.list) ∧ ∀ h, h ∉ c.hash → h ∉ c'.hash := by
  have some : c.list ≠ [] := by
    rintro empty
    refine nonempty ?_
    rw [← inv.entries, Cache.entries, empty, List.map_nil]
  obtain ⟨x, tail, list⟩ : ∃ x tail, c.list = x ++ [tail] :=
    ⟨c.list.dropLast, c.list.getLast some, (List.dropLast_append_getLast some).symm⟩
  have placed := inv.toRep.placed list
  have split := placed.split inv.toRep
  have nodup := inv.nodup
  rw [split] at nodup
  have after : Lru.remove (c.entry tail).1 l = l.dropLast := by
    rw [split, Lru.remove_split nodup]
    simp
  refine ⟨LruCache.deleteData tail c, ?_, ?_, ?_, ?_⟩
  · rw [LruCache.deleteTailData, list, List.getLast?_concat]
    rfl
  · rw [← after]
    exact inv.deleteData placed
  · exact fun b fresh inside => fresh (List.mem_of_mem_filter inside)
  · exact fun h fresh inside => fresh (List.mem_of_mem_filter inside)

/-- An item made for this `icd` from these bytes. -/
structure MadeFrom (icd : Icd) (src : Bytes) (item : CacheItem) : Prop where
  kind : item.icd = icd
  bytes : icd.copy = none → item.data = src.take icd.sz

theorem madeFrom_itemBytes (icd : Icd) (src copied : Bytes) :
    MadeFrom icd src ⟨icd, itemBytes icd src copied⟩ :=
  ⟨rfl, fun plain => if_pos plain⟩

/-- The counter follows the size of an item that is replaced. -/
theorem Counted.setItem (inv : Counted maxKeyNum maxMem c l) (placed : Placed c key elt a x y)
    (item : CacheItem) (small : item.icd.sz < 2 ^ 31 - 1) (room : c.bytes + item.icd.sz < 2 ^ 63) :
    Counted maxKeyNum maxMem { setItem a item c with
        usedMem := int64 (c.usedMem + int32 ((item.icd.sz : Int) - (c.listNode a).item.icd.sz)) }
      (x.map c.entry ++ (key, item) :: y.map c.entry) := by
  have split := placed.split inv.toRep
  have inside : (key, (c.listNode a).item) ∈ l := by
    rw [split]
    simp
  have old : (c.listNode a).item.icd.sz < 2 ^ 31 - 1 := inv.sizes _ inside
  have spent : total l = total (x.map c.entry) + costOf (key, (c.listNode a).item) +
      total (y.map c.entry) := by
    rw [split, total_append, total_cons]
    omega
  have grown : total (x.map c.entry ++ (key, item) :: y.map c.entry) =
      total l - (c.listNode a).item.icd.sz + item.icd.sz := by
    rw [total_append, total_cons, spent]
    simp only [costOf, cost]
    omega
  rw [inv.bytes] at room
  have left := total_nonneg (x.map c.entry)
  have right := total_nonneg (y.map c.entry)
  have pos : 0 < costOf (key, (c.listNode a).item) - (c.listNode a).item.icd.sz := by
    simp only [costOf, cost]
    omega
  obtain ⟨rep, -⟩ := inv.toRep.setItem placed item
  refine ⟨⟨rep.entries, rep.listNodup, rep.hashNodup, rep.forth, rep.back, rep.keyLen, rep.nodup⟩,
    inv.keyNum, inv.mem, ?_, ?_, ?_, ?_⟩
  · show int64 (c.usedMem + int32 _) = _
    rw [int32_of_range (by omega) (by omega), inv.used, int64_of_range (by omega) (by omega), grown]
    omega
  · omega
  · have few := inv.few
    rw [split] at few
    simpa using few
  · intro e member
    have others : ∀ f ∈ x.map c.entry ++ y.map c.entry, f ∈ l := by
      intro f inside
      rw [split, List.mem_append, List.mem_cons]
      rcases List.mem_append.1 inside with before | behind
      · exact .inl before
      · exact .inr (.inr behind)
    rw [List.mem_append, List.mem_cons] at member
    rcases member with before | rfl | behind
    · exact inv.sizes e (others e (List.mem_append_left _ before))
    · exact small
    · exact inv.sizes e (others e (List.mem_append_right _ behind))

/-- A key that is there is given its new item and brought to the front, unless there is no
memory for it. -/
theorem Counted.putPresent {b : Bool} (inv : Counted maxKeyNum maxMem c l)
    (placed : Placed c key elt a x y) (small : icd.sz < 2 ^ 31 - 1)
    (ran : updateData env a icd src c = (c', b)) :
    b = false ∧ c' = c ∨ b = true ∧ ∃ item, MadeFrom icd src item ∧
      Counted maxKeyNum maxMem (LruCache.moveToHead a c')
        (Lru.put (full maxKeyNum maxMem) key item l) := by
  have split := placed.split inv.toRep
  have nodup := inv.nodup
  rw [split] at nodup
  have put : ∀ item, Lru.put (full maxKeyNum maxMem) key item l =
      (key, item) :: (x.map c.entry ++ y.map c.entry) := by
    intro item
    rw [split, Lru.put_split nodup]
  unfold updateData at ran
  dsimp only at ran
  split at ran
  · rename_i same
    obtain ⟨rfl, rfl⟩ := Prod.mk.inj ran
    refine .inr ⟨rfl, (c.listNode a).item, ⟨same.1, fun _ => same.2⟩, ?_⟩
    have moved := inv.moveToHead placed
    rw [split, Lru.get_split nodup] at moved
    rw [put]
    exact moved
  · split at ran
    · obtain ⟨rfl, rfl⟩ := Prod.mk.inj ran
      exact .inl ⟨rfl, rfl⟩
    · rename_i allocated
      obtain ⟨rfl, rfl⟩ := Prod.mk.inj ran
      have room : c.bytes + icd.sz < 2 ^ 63 := by
        simp only [malloc, Bool.and_eq_true, decide_eq_true_eq, not_not] at allocated
        exact allocated.2
      have made := madeFrom_itemBytes icd src env.copied
      refine .inr ⟨rfl, ⟨icd, itemBytes icd src env.copied⟩, made, ?_⟩
      have set := inv.setItem placed ⟨icd, itemBytes icd src env.copied⟩ small room
      obtain ⟨-, still⟩ := inv.toRep.setItem placed ⟨icd, itemBytes icd src env.copied⟩
      have moved := set.moveToHead ⟨still.listNode, still.hashNode, still.list, still.key⟩
      rw [Lru.get_split set.nodup] at moved
      rw [put]
      exact moved

/-- A new key is added at the front, unless there is no memory for it. -/
theorem Counted.createData {b : Bool} (inv : Counted maxKeyNum maxMem c l)
    (absent : key ∉ Lru.keys l) (keySmall : key.length < 2 ^ 31 - 1) (small : icd.sz < 2 ^ 31 - 1)
    (few : (l.length : Int) < maxKeyNum) (ran : createData env key icd src c = some (c', b)) :
    b = false ∧ c' = c ∨ b = true ∧
      Counted maxKeyNum maxMem c' ((key, ⟨icd, itemBytes icd src env.copied⟩) :: l) := by
  have keyLen : int32 (key.length : Int) = key.length :=
    int32_of_range (by omega) (by omega)
  unfold LruCache.createData at ran
  rw [keyLen] at ran
  dsimp only at ran
  split at ran
  · cases ran
  · rename_i fresh
    rw [not_or] at fresh
    split at ran
    · obtain ⟨rfl, rfl⟩ := Prod.mk.inj (Option.some.inj ran)
      exact .inl ⟨rfl, rfl⟩
    · rename_i allocated
      split at ran
      · cases ran
      · obtain ⟨rfl, rfl⟩ := Prod.mk.inj (Option.some.inj ran)
        have room : total l + cost key.length icd.sz < 2 ^ 63 := by
          simp only [createMallocs, malloc, Bool.not_eq_false, Bool.and_eq_true,
            decide_eq_true_eq, inv.bytes] at allocated
          simp only [cost]
          omega
        have nonneg := total_nonneg l
        have positive : 0 < cost key.length icd.sz := by
          simp only [cost]
          omega
        have grown : total ((key, ⟨icd, itemBytes icd src env.copied⟩) :: l) =
            total l + cost key.length icd.sz := by
          rw [total_cons, Int.add_comm]
          rfl
        refine .inr ⟨rfl, ?_⟩
        refine ⟨inv.toRep.addEntry fresh.1 fresh.2 absent, inv.keyNum, inv.mem, ?_, ?_, ?_, ?_⟩
        · show int64 (c.usedMem + cost key.length icd.sz) = _
          rw [inv.used, int64_of_range (by omega) (by omega), grown]
        · rw [grown]
          exact room
        · rw [List.length_cons]
          omega
        · intro e member
          rcases List.mem_cons.1 member with rfl | member
          · exact small
          · exact inv.sizes e member

/-- The entries that stay when a new key comes. -/
def evict (maxKeyNum maxMem : Int) (l : Lru Key CacheItem) : Lru Key CacheItem :=
  if full maxKeyNum maxMem l then l.dropLast else l

theorem evict_sublist (maxKeyNum maxMem : Int) (l : Lru Key CacheItem) :
    (evict maxKeyNum maxMem l).Sublist l := by
  unfold evict
  split
  · exact List.dropLast_sublist l
  · exact List.Sublist.refl l

/-- A cache that is full is not empty. -/
theorem Limits.nonempty (limits : Limits maxKeyNum maxMem) (isFull : full maxKeyNum maxMem l = true) :
    l ≠ [] := by
  rintro rfl
  have keyNum := limits.keyNum
  have mem := limits.mem
  rcases Bool.or_eq_true_iff.1 isFull with reached | reached
  · have none : maxMem ≤ 0 := of_decide_eq_true reached
    omega
  · have none : maxKeyNum ≤ 0 := of_decide_eq_true reached
    omega

theorem Limits.room (limits : Limits maxKeyNum maxMem) (few : (l.length : Int) ≤ maxKeyNum) :
    ((evict maxKeyNum maxMem l).length : Int) < maxKeyNum := by
  unfold evict
  split
  · rename_i isFull
    have pos := List.length_pos_iff.2 (limits.nonempty isFull)
    rw [List.length_dropLast]
    omega
  · rename_i notFull
    simp only [full, Bool.or_eq_true, decide_eq_true_eq, not_or] at notFull
    omega

/-- The eviction before a new key. -/
theorem Counted.evict (inv : Counted maxKeyNum maxMem c l) (limits : Limits maxKeyNum maxMem) :
    ∃ d, (if LruCache.isFull c then LruCache.deleteTailData c else some c) = some d ∧
      Counted maxKeyNum maxMem d (evict maxKeyNum maxMem l) ∧
      (∀ b, b ∉ c.list → b ∉ d.list) ∧ ∀ h, h ∉ c.hash → h ∉ d.hash := by
  rw [inv.isFull limits, LruCache.evict]
  split
  · rename_i isFull
    exact inv.deleteTailData (limits.nonempty isFull)
  · exact ⟨c, rfl, inv, fun _ fresh => fresh, fun _ fresh => fresh⟩

/-- A put of a key that is not there evicts, and then adds the key at the front unless there is
no memory for it. -/
theorem Counted.putAbsent {b : Bool} (inv : Counted maxKeyNum maxMem c l)
    (limits : Limits maxKeyNum maxMem) (keySmall : key.length < 2 ^ 31 - 1)
    (small : icd.sz < 2 ^ 31 - 1) (absent : key ∉ Lru.keys l) (some : icd.sz ≠ 0)
    (ran : lruCachePut env (.some key) (.some icd) (.some src) c = .some (c', b)) :
    b = false ∧ Counted maxKeyNum maxMem c' (LruCache.evict maxKeyNum maxMem l) ∨
      b = true ∧ Counted maxKeyNum maxMem c'
        ((key, ⟨icd, itemBytes icd src env.copied⟩) :: LruCache.evict maxKeyNum maxMem l) := by
  unfold lruCachePut at ran
  dsimp only at ran
  rw [if_neg some, inv.find_none absent] at ran
  dsimp only at ran
  obtain ⟨d, evicted, invD, -⟩ := inv.evict limits
  rw [evicted, Option.bind_some] at ran
  obtain ⟨⟨e, done⟩, created, printed⟩ := Option.bind_eq_some_iff.1 ran
  obtain ⟨rfl, rfl⟩ : e = c' ∧ done = b := by
    obtain ⟨-, same⟩ := Option.ite_none_right_eq_some.1 printed
    exact Prod.mk.inj (Option.some.inj same)
  have gone : key ∉ Lru.keys (LruCache.evict maxKeyNum maxMem l) := fun member =>
    absent (((evict_sublist maxKeyNum maxMem l).map Prod.fst).subset member)
  rcases invD.createData gone keySmall small (limits.room inv.few) created with
    ⟨rfl, rfl⟩ | ⟨rfl, put⟩
  · exact .inl ⟨rfl, invD⟩
  · exact .inr ⟨rfl, put⟩

/-- What a `put` that returns `b` makes of the entries. -/
def PutTo (maxKeyNum maxMem : Int) (key : Key) (icd : Icd) (src : Bytes) (b : Bool)
    (l l' : Lru Key CacheItem) : Prop :=
  b = true ∧ (∃ item, MadeFrom icd src item ∧ l' = Lru.put (full maxKeyNum maxMem) key item l) ∨
    b = false ∧ (l' = l ∨ l' = evict maxKeyNum maxMem l)

/-- **A put.**  It is the put of the map, or it fails, and then at most the last entry has
gone. -/
theorem Counted.put {b : Bool} (inv : Counted maxKeyNum maxMem c l) (limits : Limits maxKeyNum maxMem)
    (keySmall : key.length < 2 ^ 31 - 1) (small : icd.sz < 2 ^ 31 - 1)
    (ran : lruCachePut env (some key) (some icd) (some src) c = some (c', b)) :
    ∃ l', Counted maxKeyNum maxMem c' l' ∧ PutTo maxKeyNum maxMem key icd src b l l' := by
  by_cases empty : icd.sz = 0
  · simp only [lruCachePut, empty, if_true, Option.some.injEq, Prod.mk.injEq] at ran
    obtain ⟨rfl, rfl⟩ := ran
    exact ⟨l, inv, .inr ⟨rfl, .inl rfl⟩⟩
  · by_cases inside : key ∈ Lru.keys l
    · obtain ⟨elt, a, x, y, found, placed⟩ := inv.find_some inside
      simp only [lruCachePut, if_neg empty, found, placed.listNode] at ran
      cases updated : updateData env a icd src c with
      | mk d done =>
          rw [updated] at ran
          rcases inv.putPresent placed small updated with ⟨rfl, rfl⟩ | ⟨rfl, item, made, put⟩
          · obtain ⟨rfl, rfl⟩ := Prod.mk.inj (Option.some.inj ran)
            exact ⟨l, inv, .inr ⟨rfl, .inl rfl⟩⟩
          · obtain ⟨rfl, rfl⟩ := Prod.mk.inj (Option.some.inj ran)
            exact ⟨_, put, .inl ⟨rfl, item, made, rfl⟩⟩
    · rcases inv.putAbsent limits keySmall small inside empty ran with ⟨rfl, evicted⟩ | ⟨rfl, put⟩
      · exact ⟨_, evicted, .inr ⟨rfl, .inr rfl⟩⟩
      · refine ⟨_, put, .inl ⟨rfl, _, madeFrom_itemBytes icd src env.copied, ?_⟩⟩
        rw [Lru.put_of_not_mem inside]
        rfl

theorem Counted.get {answer : Option CacheItem} (inv : Counted maxKeyNum maxMem c l)
    (ran : lruCacheGet env (some key) c = some (c', answer)) :
    Counted maxKeyNum maxMem c' (Lru.get key l) ∧ answer = Lru.lookup key l := by
  unfold lruCacheGet at ran
  dsimp only at ran
  by_cases inside : key ∈ Lru.keys l
  · obtain ⟨elt, a, x, y, found, placed⟩ := inv.find_some inside
    rw [found] at ran
    dsimp only at ran
    rw [placed.listNode] at ran
    obtain ⟨-, same⟩ := Option.ite_none_right_eq_some.1 ran
    obtain ⟨rfl, rfl⟩ := Prod.mk.inj (Option.some.inj same)
    refine ⟨inv.moveToHead placed, ?_⟩
    have split := placed.split inv.toRep
    have nodup := inv.nodup
    rw [split] at nodup ⊢
    rw [Lru.lookup_split nodup]
  · rw [inv.find_none inside] at ran
    obtain ⟨rfl, rfl⟩ := Prod.mk.inj (Option.some.inj ran)
    rw [Lru.get_of_not_mem inside, Lru.lookup_of_not_mem inside]
    exact ⟨inv, rfl⟩

theorem Counted.remove (inv : Counted maxKeyNum maxMem c l)
    (ran : lruCacheRemove env (some key) c = some c') :
    Counted maxKeyNum maxMem c' (Lru.remove key l) := by
  unfold lruCacheRemove at ran
  dsimp only at ran
  by_cases inside : key ∈ Lru.keys l
  · obtain ⟨elt, a, x, y, found, placed⟩ := inv.find_some inside
    rw [found] at ran
    dsimp only at ran
    rw [placed.listNode] at ran
    obtain ⟨-, same⟩ := Option.ite_none_right_eq_some.1 ran
    obtain rfl := Option.some.inj same
    exact inv.deleteData placed
  · rw [inv.find_none inside] at ran
    obtain rfl := Option.some.inj ran
    rw [Lru.remove_of_not_mem inside]
    exact inv

end ChargerStack.Utils.LruCache
