/-
# Utils.LruRuns -- the cache over a whole run

Puts in all their forms, gets and removes, in any order, with any allocation failing.

* `lru_counted`: `used_mem` is what the entries cost, there are never more than
  `max_key_num` of them, and the tail of an empty list is never deleted;
* `lru_refines`: while allocations succeed, the cache is the map `Lru`, answer for answer;
* `lru_bounded_iff`: `max_mem` bounds the memory up to the most expensive entry exactly as
  long as no put needs more than it frees while the entries that stay have reached
  `max_mem`; a full cache makes room for one entry whatever the new one needs, and an
  entry that is replaced can grow without any test;
* `failed_put_unchanged_iff`: a put that fails changes nothing, unless it has evicted an
  entry before it found no memory for the new one.
-/
import Mathlib.Data.Int.Order.Basic
import ChargerStack.Utils.LruCache

namespace ChargerStack.Utils.LruCache

open ChargerStack.Cxx
open ChargerStack.Lib

set_option autoImplicit false

/-! ## Runs -/

inductive Op where
  | put (key : Key) (icd : Icd) (data : Bytes)
  | putInt64 (key : Key) (i64 : Int)
  | putStr (key : Key) (str : Bytes)
  | putStruct (key : Key) (sz : Int) (data : Bytes)
  | get (key : Key)
  | remove (key : Key)
  deriving DecidableEq, Repr

/-- What a put, in whatever form, hands to `lru_cache_put`. -/
def Op.args : Op → Option (Key × Icd × Bytes)
  | .put key icd data => some (key, icd, data)
  | .putInt64 key i64 => some (key, plainIcd 8, int64Bytes i64)
  | .putStr key str => some (key, plainIcd (toSize (int32 (int32 str.length + 1))), str ++ [0])
  | .putStruct key sz data => some (key, plainIcd (toSize sz), data)
  | .get _ => none
  | .remove _ => none

/-- The caller's data has the bytes that are copied. -/
def Op.Readable (op : Op) : Prop :=
  ∀ args ∈ op.args, args.2.1.sz ≤ args.2.2.length

instance (op : Op) : Decidable op.Readable :=
  inferInstanceAs (Decidable (∀ args ∈ op.args, args.2.1.sz ≤ args.2.2.length))

/-- What an operation returns. -/
inductive Reply where
  | stored (ok : Bool)
  | found (item : Option CacheItem)
  | removed
  deriving DecidableEq, Repr

def perform (env : Env) (c : Cache) : Op → Option (Cache × Reply)
  | .put key icd data =>
      (lruCachePut env (some key) (some icd) (some data) c).map fun r => (r.1, .stored r.2)
  | .putInt64 key i64 =>
      (lruCachePutInt64 env (some key) i64 c).map fun r => (r.1, .stored r.2)
  | .putStr key str => (lruCachePutStr env (some key) str c).map fun r => (r.1, .stored r.2)
  | .putStruct key sz data =>
      (lruCachePutStruct env (some key) sz (some data) c).map fun r => (r.1, .stored r.2)
  | .get key => (lruCacheGet env (some key) c).map fun r => (r.1, .found r.2)
  | .remove key => (lruCacheRemove env (some key) c).map fun r => (r, .removed)

/-- One operation with what it finds in its environment. -/
def step (c : Cache) (l : Env × Op) : Option Cache :=
  if l.2.Readable then (perform l.1 c l.2).map Prod.fst else none

/-- The answer of a `get`: the bytes of the item. -/
def shown (c : Cache) (l : Env × Op) : Option (Option Bytes) :=
  match perform l.1 c l.2 with
  | some (_, .found item) => some (item.map CacheItem.data)
  | _ => none

/-- The four forms of a put. -/
theorem Op.args_some {op : Op} {key : Key} {icd : Icd} {data : Bytes}
    (args : op.args = some (key, icd, data)) :
    op = .put key icd data ∨
      (∃ i64, op = .putInt64 key i64 ∧ icd = plainIcd 8 ∧ data = int64Bytes i64) ∨
      (∃ str, op = .putStr key str ∧
        icd = plainIcd (toSize (int32 (int32 str.length + 1))) ∧ data = str ++ [0]) ∨
      (∃ sz, op = .putStruct key sz data ∧ icd = plainIcd (toSize sz)) := by
  cases op with
  | put k i d =>
      obtain ⟨rfl, rfl, rfl⟩ : k = key ∧ i = icd ∧ d = data := by simpa [Op.args] using args
      exact .inl rfl
  | putInt64 k i =>
      obtain ⟨rfl, rfl, rfl⟩ : k = key ∧ plainIcd 8 = icd ∧ int64Bytes i = data := by
        simpa [Op.args] using args
      exact .inr (.inl ⟨i, rfl, rfl, rfl⟩)
  | putStr k str =>
      obtain ⟨rfl, rfl, rfl⟩ : k = key ∧ plainIcd (toSize (int32 (int32 str.length + 1))) = icd ∧
          str ++ [0] = data := by simpa [Op.args] using args
      exact .inr (.inr (.inl ⟨str, rfl, rfl, rfl⟩))
  | putStruct k sz d =>
      obtain ⟨rfl, rfl, rfl⟩ : k = key ∧ plainIcd (toSize sz) = icd ∧ d = data := by
        simpa [Op.args] using args
      exact .inr (.inr (.inr ⟨sz, rfl, rfl⟩))
  | get k => cases args
  | remove k => cases args

theorem Op.args_none {op : Op} (args : op.args = none) :
    (∃ key, op = .get key) ∨ ∃ key, op = .remove key := by
  cases op with
  | get key => exact .inl ⟨key, rfl⟩
  | remove key => exact .inr ⟨key, rfl⟩
  | put _ _ _ => cases args
  | putInt64 _ _ => cases args
  | putStr _ _ => cases args
  | putStruct _ _ _ => cases args

/-- A put in any form is one of `lru_cache_put`. -/
theorem perform_put {op : Op} {env : Env} {c : Cache} {key : Key} {icd : Icd} {data : Bytes}
    (args : op.args = some (key, icd, data)) :
    perform env c op =
      (lruCachePut env (some key) (some icd) (some data) c).map fun r => (r.1, .stored r.2) := by
  rcases Op.args_some args with rfl | ⟨i64, rfl, rfl, rfl⟩ | ⟨str, rfl, rfl, rfl⟩ | ⟨sz, rfl, rfl⟩
  · rfl
  · rfl
  · rfl
  · rfl

/-- Key lengths and item sizes below 2³¹ - 1. -/
def Op.Small : Op → Prop
  | .put key icd _ => key.length < 2 ^ 31 - 1 ∧ icd.sz < 2 ^ 31 - 1
  | .putInt64 key _ => key.length < 2 ^ 31 - 1
  | .putStr key str => key.length < 2 ^ 31 - 1 ∧ str.length + 1 < 2 ^ 31 - 1
  | .putStruct key sz _ => key.length < 2 ^ 31 - 1 ∧ 0 ≤ sz ∧ sz < 2 ^ 31 - 1
  | .get _ => True
  | .remove _ => True

theorem plainIcd_sz (sz : Nat) : (plainIcd sz).sz = sz := rfl

theorem toSize_of_nonneg {n : Int} (low : 0 ≤ n) (high : n < 2 ^ 64) : (toSize n : Int) = n := by
  unfold toSize
  omega

theorem toSize_str {n : Nat} (small : n + 1 < 2 ^ 31 - 1) :
    toSize (int32 (int32 n + 1)) = n + 1 := by
  have inner : int32 (n : Int) = n := int32_of_range (by omega) (by omega)
  have outer : int32 ((n : Int) + 1) = n + 1 := int32_of_range (by omega) (by omega)
  rw [inner, outer]
  unfold toSize
  omega

theorem Op.Small.args {op : Op} (small : op.Small) {key : Key} {icd : Icd} {data : Bytes}
    (args : op.args = some (key, icd, data)) : key.length < 2 ^ 31 - 1 ∧ icd.sz < 2 ^ 31 - 1 := by
  rcases Op.args_some args with rfl | ⟨i64, rfl, rfl, rfl⟩ | ⟨str, rfl, rfl, rfl⟩ | ⟨sz, rfl, rfl⟩
  · exact small
  · simp only [Op.Small] at small
    rw [plainIcd_sz]
    exact ⟨small, by omega⟩
  · simp only [Op.Small] at small
    rw [plainIcd_sz, toSize_str small.2]
    exact small
  · simp only [Op.Small] at small
    have size := toSize_of_nonneg small.2.1 (by omega)
    rw [plainIcd_sz]
    omega

/-! ## One step -/

variable {maxKeyNum maxMem : Int} {c c' : Cache} {l : Lru Key CacheItem} {lab : Env × Op}

/-- What a step makes of the entries. -/
def StepTo (maxKeyNum maxMem : Int) (reply : Reply) (op : Op) (l l' : Lru Key CacheItem) : Prop :=
  (∃ key icd data b, op.args = some (key, icd, data) ∧ reply = .stored b ∧
      PutTo maxKeyNum maxMem key icd data b l l') ∨
    (∃ key, op = .get key ∧ reply = .found (Lru.lookup key l) ∧ l' = Lru.get key l) ∨
    (∃ key, op = .remove key ∧ reply = .removed ∧ l' = Lru.remove key l)

/-- **Every step keeps list, hash table and counter together.** -/
theorem Counted.perform {reply : Reply} (inv : Counted maxKeyNum maxMem c l)
    (limits : Limits maxKeyNum maxMem) (small : lab.2.Small)
    (ran : perform lab.1 c lab.2 = some (c', reply)) :
    ∃ l', Counted maxKeyNum maxMem c' l' ∧ StepTo maxKeyNum maxMem reply lab.2 l l' := by
  cases args : lab.2.args with
  | some triple =>
      obtain ⟨key, icd, data⟩ := triple
      rw [perform_put args] at ran
      obtain ⟨⟨d, b⟩, returned, same⟩ := Option.map_eq_some_iff.1 ran
      obtain ⟨rfl, rfl⟩ := Prod.mk.inj same
      obtain ⟨keySmall, szSmall⟩ := small.args args
      obtain ⟨l', counted, put⟩ := inv.put limits keySmall szSmall returned
      exact ⟨l', counted, .inl ⟨key, icd, data, b, args, rfl, put⟩⟩
  | none =>
      rcases Op.args_none args with ⟨key, op⟩ | ⟨key, op⟩
      · rw [op] at ran
        obtain ⟨⟨d, answer⟩, returned, same⟩ := Option.map_eq_some_iff.1 ran
        obtain ⟨rfl, rfl⟩ := Prod.mk.inj same
        obtain ⟨counted, rfl⟩ := inv.get returned
        exact ⟨_, counted, .inr (.inl ⟨key, op, rfl, rfl⟩)⟩
      · rw [op] at ran
        obtain ⟨d, returned, same⟩ := Option.map_eq_some_iff.1 ran
        obtain ⟨rfl, rfl⟩ := Prod.mk.inj same
        exact ⟨_, inv.remove returned, .inr (.inr ⟨key, op, rfl, rfl⟩)⟩

theorem step_performed (moved : step c lab = some c') :
    lab.2.Readable ∧ ∃ reply, perform lab.1 c lab.2 = some (c', reply) := by
  obtain ⟨readable, moved⟩ := Option.ite_none_right_eq_some.1 moved
  obtain ⟨⟨d, reply⟩, ran, rfl⟩ := Option.map_eq_some_iff.1 moved
  exact ⟨readable, reply, ran⟩

/-- A cache with its entries, whatever they are. -/
def Sound (maxKeyNum maxMem : Int) (c : Cache) : Prop := ∃ l, Counted maxKeyNum maxMem c l

theorem step_sound (limits : Limits maxKeyNum maxMem) (small : lab.2.Small)
    (sound : Sound maxKeyNum maxMem c) (moved : step c lab = some c') :
    Sound maxKeyNum maxMem c' := by
  obtain ⟨l, inv⟩ := sound
  obtain ⟨-, reply, ran⟩ := step_performed moved
  obtain ⟨l', counted, -⟩ := inv.perform limits small ran
  exact ⟨l', counted⟩

theorem newLruCache_counted (limits : Limits maxKeyNum maxMem)
    (created : newLruCache maxKeyNum maxMem = some c) : Counted maxKeyNum maxMem c [] := by
  unfold newLruCache at created
  split at created
  · cases created
  · obtain rfl := Option.some.inj created
    have keyNum := limits.keyNum
    exact ⟨⟨rfl, List.nodup_nil, List.nodup_nil, by simp, by simp, by simp, List.nodup_nil⟩,
      rfl, rfl, rfl, by simp, by simpa using Int.le_of_lt keyNum, by simp⟩

/-! ## The counter over a run -/

/-- The operation calls `delete_tail_data`. -/
def DeletesTail (c : Cache) (lab : Env × Op) : Prop :=
  ∃ key icd data, lab.2.args = some (key, icd, data) ∧ icd.sz ≠ 0 ∧ c.find key = none ∧
    isFull c = true

/-- **The counter never drifts**, whatever allocation fails: it is what the entries cost, it is
0 exactly when there are none, there are never more entries than allowed, and the tail of
an empty list is never deleted. -/
theorem lru_counted (maxKeyNum maxMem : Int) (limits : Limits maxKeyNum maxMem) (new : Cache)
    (created : newLruCache maxKeyNum maxMem = some new) (labs : List (Env × Op)) (c : Cache)
    (small : ∀ lab ∈ labs, lab.2.Small) (ran : exec step new labs = some c) :
    c.usedMem = (c.list.map fun a =>
        32 + 80 + (((c.hashOf a).keyLen + 1)) + 40 + ((c.listNode a).item.icd.sz : Int)).sum ∧
      0 ≤ c.usedMem ∧ (c.usedMem = 0 ↔ c.list = []) ∧ (c.list.length : Int) ≤ maxKeyNum ∧
      Along step (fun c lab => DeletesTail c lab → c.list ≠ []) new labs := by
  have start : Sound maxKeyNum maxMem new := ⟨[], newLruCache_counted limits created⟩
  have meets : Along step (fun _ lab => lab.2.Small) new labs :=
    along_of_labels (fun lab inside _ => small lab inside) new
  have kept : ∀ (c : Cache) (lab : Env × Op) (d : Cache), lab.2.Small → Sound maxKeyNum maxMem c →
      step c lab = some d → Sound maxKeyNum maxMem d := fun _ _ _ small => step_sound limits small
  obtain ⟨l, inv⟩ := exec_invariant_along kept meets start ran
  have length : c.list.length = l.length := by
    rw [← inv.entries, Cache.entries, List.length_map]
  refine ⟨inv.used.trans inv.bytes.symm, ?_, ?_, ?_, ?_⟩
  · rw [inv.used]
    exact total_nonneg l
  · rw [inv.used, total_eq_zero, ← List.length_eq_zero_iff, ← length, List.length_eq_zero_iff]
  · rw [length]
    exact inv.few
  · refine along_of_invariant kept ?_ meets start
    rintro c lab - ⟨l, inv⟩ ⟨key, icd, data, -, -, -, isFull⟩ empty
    rw [inv.isFull limits] at isFull
    refine limits.nonempty isFull ?_
    rw [← inv.entries, Cache.entries, empty, List.map_nil]

/-- Every allocation succeeds, and both new nodes stand at `n`. -/
def finds (n : Address) : Env := ⟨⟨true, true, true, true, true, true, true⟩, n, n, []⟩

/-- The copy of the key finds no memory. -/
def findsNoKey (n : Address) : Env := ⟨⟨true, true, false, true, true, true, true⟩, n, n, []⟩

def shortOfMemory : List (Env × Op) :=
  [(finds 1, .putStr [97] []), (findsNoKey 2, .putStr [98] []), (finds 2, .putInt64 [97] 7)]

theorem shortOfMemory_counted :
    ∃ new c, newLruCache 2 160 = some new ∧ exec step new shortOfMemory = some c ∧
      c.usedMem = 162 ∧ c.list = [1] ∧ (c.list.length : Int) ≤ 2 ∧
      Along step (fun c lab => DeletesTail c lab → c.list ≠ []) new shortOfMemory := by
  have small : ∀ lab ∈ shortOfMemory, lab.2.Small := by
    simp [shortOfMemory, Op.Small]
  obtain ⟨-, -, -, few, tails⟩ :=
    lru_counted 2 160 ⟨by decide, by decide, by decide⟩ _ rfl shortOfMemory _ small rfl
  exact ⟨_, _, rfl, rfl, rfl, rfl, few, tails⟩

/-! ## While allocations succeed -/

/-- Every `malloc` of the operation finds memory. -/
def Succeeds (c : Cache) (lab : Env × Op) : Prop :=
  lab.1.mallocs = ⟨true, true, true, true, true, true, true⟩ ∧
    ∀ args ∈ lab.2.args, c.bytes + cost args.1.length args.2.1.sz < 2 ^ 63

instance (c : Cache) (lab : Env × Op) : Decidable (Succeeds c lab) :=
  inferInstanceAs (Decidable (_ ∧ ∀ args ∈ lab.2.args, _ < _))

/-- The nodes that `malloc` returns are not in use. -/
def Fresh (c : Cache) (env : Env) : Prop := env.listElt ∉ c.list ∧ env.hashElt ∉ c.hash

variable {env : Env} {key : Key} {icd : Icd} {data : Bytes} {a : Address}

theorem updateData_succeeds (a : Address) (data : Bytes)
    (ok : env.mallocs = ⟨true, true, true, true, true, true, true⟩)
    (room : c.bytes + icd.sz < 2 ^ 63) : (updateData env a icd data c).2 = true := by
  unfold updateData
  dsimp only
  split
  · rfl
  · have allocated : malloc env.mallocs.data c.bytes icd.sz = true := by
      rw [malloc, ok, Bool.true_and, decide_eq_true_eq]
      exact room
    rw [if_neg (not_not.2 allocated)]

theorem createData_succeeds (data : Bytes)
    (ok : env.mallocs = ⟨true, true, true, true, true, true, true⟩)
    (keySmall : key.length < 2 ^ 31 - 1) (room : c.bytes + cost key.length icd.sz < 2 ^ 63) :
    (∀ r, createData env key icd data c = some r → r.2 = true) ∧
      (Fresh c env → ∃ d, createData env key icd data c = some (d, true)) := by
  have keyLen : int32 (key.length : Int) = key.length := int32_of_range (by omega) (by omega)
  have allocated : createMallocs env.mallocs c.bytes key.length icd.sz = true := by
    simp only [cost] at room
    simp only [createMallocs, malloc, ok, Bool.true_and, Bool.and_eq_true, decide_eq_true_eq]
    omega
  have table : env.mallocs.table ≠ false := by simp [ok]
  unfold createData
  rw [keyLen]
  dsimp only
  rw [allocated, if_neg (by simp : ¬ (true = false)), if_neg table]
  constructor
  · intro r returned
    split at returned
    · cases returned
    · obtain rfl := Option.some.inj returned
      rfl
  · intro fresh
    rw [if_neg (not_or.2 fresh)]
    exact ⟨_, rfl⟩

/-- **A put that finds memory** returns `true`. -/
theorem Counted.put_succeeds (inv : Counted maxKeyNum maxMem c l) (data : Bytes)
    (limits : Limits maxKeyNum maxMem)
    (ok : env.mallocs = ⟨true, true, true, true, true, true, true⟩)
    (keySmall : key.length < 2 ^ 31 - 1) (positive : icd.sz ≠ 0)
    (room : c.bytes + cost key.length icd.sz < 2 ^ 63) :
    (∀ r, lruCachePut env (some key) (some icd) (some data) c = some r → r.2 = true) ∧
      (Fresh c env →
        ∃ d, lruCachePut env (some key) (some icd) (some data) c = some (d, true)) := by
  unfold lruCachePut
  dsimp only
  rw [if_neg positive]
  by_cases inside : key ∈ Lru.keys l
  · obtain ⟨elt, a, x, y, found, placed⟩ := inv.find_some inside
    have less : c.bytes + icd.sz < 2 ^ 63 := by
      simp only [cost] at room
      omega
    have updated := updateData_succeeds a data ok less
    rw [found]
    dsimp only
    rw [placed.listNode]
    generalize updateData env a icd data c = r at updated
    obtain ⟨d, done⟩ := r
    obtain rfl : done = true := updated
    exact ⟨fun r returned => by obtain rfl := Option.some.inj returned; rfl, fun _ => ⟨_, rfl⟩⟩
  · rw [inv.find_none inside]
    dsimp only
    obtain ⟨d, evicted, invD, freshList, freshHash⟩ := inv.evict limits
    have less : d.bytes + cost key.length icd.sz < 2 ^ 63 := by
      have smaller := total_sublist (evict_sublist maxKeyNum maxMem l)
      rw [inv.bytes] at room
      rw [invD.bytes]
      omega
    obtain ⟨only, some⟩ := createData_succeeds data ok keySmall less
    have text : ∀ r : Cache × Bool, printCache env r = Option.some r := by
      intro r
      simp [printCache, ok]
    rw [evicted, Option.bind_some]
    constructor
    · intro r returned
      obtain ⟨e, created, printed⟩ := Option.bind_eq_some_iff.1 returned
      rw [text] at printed
      obtain rfl := Option.some.inj printed
      exact only e created
    · intro fresh
      obtain ⟨e, created⟩ := some ⟨freshList _ fresh.1, freshHash _ fresh.2⟩
      exact ⟨e, by rw [created, Option.bind_some, text]⟩

theorem Counted.stored {b : Bool} (inv : Counted maxKeyNum maxMem c l)
    (limits : Limits maxKeyNum maxMem) (small : lab.2.Small) (succeeds : Succeeds c lab)
    (args : lab.2.args = some (key, icd, data)) (positive : icd.sz ≠ 0)
    (ran : LruCache.perform lab.1 c lab.2 = some (c', .stored b)) : b = true := by
  rw [perform_put args] at ran
  obtain ⟨r, returned, same⟩ := Option.map_eq_some_iff.1 ran
  obtain ⟨-, stored⟩ := Prod.mk.inj same
  obtain ⟨keySmall, -⟩ := small.args args
  have room := succeeds.2 _ args
  rw [← Reply.stored.inj stored]
  exact (inv.put_succeeds data limits succeeds.1 keySmall positive room).1 r returned

/-! ## The map behind the cache -/

/-- Items without callbacks, of at least one byte. -/
def Op.Plain : Op → Prop
  | .put _ icd _ => icd = plainIcd icd.sz ∧ 1 ≤ icd.sz
  | .putInt64 _ _ => True
  | .putStr _ _ => True
  | .putStruct _ sz _ => 1 ≤ sz
  | .get _ => True
  | .remove _ => True

/-- What the operation is for the map. -/
def Op.command : Op → Lru.Command Key Bytes
  | .put key icd data => .put key (data.take icd.sz)
  | .putInt64 key i64 => .put key (int64Bytes i64)
  | .putStr key str => .put key (str ++ [0])
  | .putStruct key sz data => .put key (data.take (toSize sz))
  | .get key => .get key
  | .remove key => .remove key

theorem Op.Plain.command {op : Op} (plain : op.Plain) (small : op.Small)
    (args : op.args = some (key, icd, data)) :
    icd = plainIcd icd.sz ∧ icd.sz ≠ 0 ∧ op.command = .put key (data.take icd.sz) := by
  rcases Op.args_some args with rfl | ⟨i64, rfl, rfl, rfl⟩ | ⟨str, rfl, rfl, rfl⟩ | ⟨sz, rfl, rfl⟩
  · exact ⟨plain.1, Nat.one_le_iff_ne_zero.1 plain.2, rfl⟩
  · exact ⟨rfl, by simp [plainIcd], rfl⟩
  · simp only [Op.Small] at small
    rw [plainIcd_sz, toSize_str small.2]
    refine ⟨rfl, by simp, ?_⟩
    rw [List.take_of_length_le (by simp)]
    rfl
  · simp only [Op.Small] at small
    simp only [Op.Plain] at plain
    have size := toSize_of_nonneg small.2.1 (by omega)
    rw [plainIcd_sz]
    exact ⟨rfl, by omega, rfl⟩

/-- What the pairs cost. -/
def costOfPairs (l : Lru Key Bytes) : Int := (l.map fun e => cost e.1.length e.2.length).sum

/-- `used_mem >= max_mem`, or `max_key_num` pairs. -/
def fullOfPairs (maxKeyNum maxMem : Int) (l : Lru Key Bytes) : Bool :=
  decide (maxMem ≤ costOfPairs l) || decide (maxKeyNum ≤ l.length)

/-- The pairs of the cache, most recently used first. -/
def pairs (c : Cache) : Lru Key Bytes := Lru.mapValues CacheItem.data c.entries

/-- The hash table has the keys of the list. -/
def SameKeys (c : Cache) : Prop :=
  (c.hash.map fun h => (c.hashNode h).key).Perm (Lru.keys c.entries)

theorem Rep.sameKeys (rep : Rep c l) : SameKeys c := by
  have nodup : (c.list.map fun a => (c.listNode a).hashNode).Nodup := by
    refine (List.nodup_map_iff_inj_on rep.listNodup).2 fun a insideA b insideB same => ?_
    have left := (rep.forth a insideA).2
    have right := (rep.forth b insideB).2
    rw [Cache.hashOf, same] at left
    exact left.symm.trans right
  have perm : c.hash.Perm (c.list.map fun a => (c.listNode a).hashNode) := by
    refine (List.perm_ext_iff_of_nodup rep.hashNodup nodup).2 fun h => ?_
    rw [List.mem_map]
    constructor
    · intro inside
      exact ⟨_, rep.back h inside⟩
    · rintro ⟨a, inside, rfl⟩
      exact (rep.forth a inside).1
  have keys : Lru.keys c.entries =
      (c.list.map fun a => (c.listNode a).hashNode).map fun h => (c.hashNode h).key := by
    rw [Lru.keys, Cache.entries, List.map_map, List.map_map]
    rfl
  rw [SameKeys, keys]
  exact perm.map _

/-- An item without callbacks, as large as it says. -/
def PlainItem (item : CacheItem) : Prop := item.icd = plainIcd item.data.length

/-- The cache holds plain items, and the map has their bytes. -/
structure Refines (maxKeyNum maxMem : Int) (c : Cache) (m : Lru Key Bytes) : Prop where
  counted : Counted maxKeyNum maxMem c c.entries
  plain : ∀ e ∈ c.entries, PlainItem e.2
  map : m = pairs c

theorem total_plain {l : Lru Key CacheItem} (plain : ∀ e ∈ l, PlainItem e.2) :
    costOfPairs (Lru.mapValues CacheItem.data l) = total l := by
  rw [costOfPairs, Lru.mapValues, List.map_map, total]
  refine congrArg List.sum (List.map_congr_left fun e inside => ?_)
  rw [costOf, plain e inside]
  rfl

theorem full_plain {l : Lru Key CacheItem} (plain : ∀ e ∈ l, PlainItem e.2) :
    fullOfPairs maxKeyNum maxMem (Lru.mapValues CacheItem.data l) = full maxKeyNum maxMem l := by
  rw [fullOfPairs, total_plain plain, Lru.mapValues, List.length_map]
  rfl

/-- The conditions of the refinement at one step. -/
structure Proper (c : Cache) (lab : Env × Op) : Prop where
  small : lab.2.Small
  plain : lab.2.Plain
  succeeds : Succeeds c lab

/-- **One step refines one command** of the map, with the same answer. -/
theorem Refines.step {m : Lru Key Bytes} (limits : Limits maxKeyNum maxMem) (proper : Proper c lab)
    (refines : Refines maxKeyNum maxMem c m) (moved : step c lab = some c') :
    shown c lab = Lru.answer m lab.2.command ∧
      ∃ m', Lru.step (fullOfPairs maxKeyNum maxMem) m lab.2.command = some m' ∧
        Refines maxKeyNum maxMem c' m' := by
  obtain ⟨counted, plain, rfl⟩ := refines
  obtain ⟨readable, reply, ran⟩ := step_performed moved
  obtain ⟨l', counted', stepped⟩ := counted.perform limits proper.small ran
  obtain rfl := counted'.entries
  rcases stepped with ⟨key, icd, data, b, args, rfl, put⟩ | ⟨key, op, rfl, after⟩ |
    ⟨key, op, rfl, after⟩
  · obtain ⟨isPlain, positive, command⟩ := proper.plain.command proper.small args
    obtain rfl := counted.stored limits proper.small proper.succeeds args positive ran
    obtain ⟨-, item, made, after⟩ | ⟨failed, -⟩ := put
    · have bytes : item.data = data.take icd.sz := made.bytes (by rw [isPlain]; rfl)
      have length : item.data.length = icd.sz := by
        rw [bytes, List.length_take]
        exact Nat.min_eq_left (readable _ args)
      rw [command]
      refine ⟨by simp [shown, ran, Lru.answer], _, rfl, ⟨counted', ?_, ?_⟩⟩
      · intro e inside
        rw [after] at inside
        rcases Lru.mem_put inside with rfl | inside
        · rw [PlainItem, length, made.kind]
          exact isPlain
        · exact plain e inside
      · rw [pairs, pairs, ← bytes, Lru.put_mapValues CacheItem.data (full_plain plain), after]
    · cases failed
  · rw [op]
    refine ⟨?_, _, rfl, ⟨counted', ?_, ?_⟩⟩
    · simp [shown, ran, Lru.answer, Op.command, pairs, Lru.lookup_mapValues]
    · intro e inside
      rw [after] at inside
      exact plain e (Lru.mem_get inside)
    · rw [pairs, pairs, Lru.get_mapValues, after]
  · rw [op]
    refine ⟨by simp [shown, ran, Lru.answer, Op.command], _, rfl, ⟨counted', ?_, ?_⟩⟩
    · intro e inside
      rw [after] at inside
      exact plain e (List.mem_of_mem_filter inside)
    · rw [pairs, pairs, Lru.remove_mapValues, after]

theorem newLruCache_refines (limits : Limits maxKeyNum maxMem)
    (created : newLruCache maxKeyNum maxMem = some c) : Refines maxKeyNum maxMem c [] := by
  have counted := newLruCache_counted limits created
  have empty : c.entries = [] := counted.entries
  refine ⟨by rw [empty]; exact counted, by simp [empty], ?_⟩
  rw [pairs, empty]
  rfl

/-- An operation that finds memory returns. -/
theorem Counted.returns {op : Op} (inv : Counted maxKeyNum maxMem c l)
    (limits : Limits maxKeyNum maxMem) (small : op.Small) (plain : op.Plain)
    (readable : op.Readable) (succeeds : Succeeds c (env, op)) (fresh : Fresh c env) :
    ∃ d, step c (env, op) = some d := by
  have ok : env.mallocs = ⟨true, true, true, true, true, true, true⟩ := succeeds.1
  have text : ∀ {α : Type} (r : α), printCache env r = some r := by
    intro α r
    simp [printCache, ok]
  have performed : ∃ r, LruCache.perform env c op = some r := by
    cases args : op.args with
    | some triple =>
        obtain ⟨key, icd, data⟩ := triple
        obtain ⟨-, positive, -⟩ := plain.command small args
        have room := succeeds.2 _ args
        obtain ⟨keySmall, -⟩ := small.args args
        obtain ⟨-, returns⟩ := inv.put_succeeds data limits ok keySmall positive room
        obtain ⟨d, returned⟩ := returns fresh
        exact ⟨_, by rw [perform_put args, returned, Option.map_some]⟩
    | none =>
        rcases Op.args_none args with ⟨key, rfl⟩ | ⟨key, rfl⟩
        · simp only [LruCache.perform, lruCacheGet]
          cases c.find key with
          | none => exact ⟨_, rfl⟩
          | some elt =>
              dsimp only
              rw [text]
              exact ⟨_, rfl⟩
        · simp only [LruCache.perform, lruCacheRemove]
          cases c.find key with
          | none => exact ⟨_, rfl⟩
          | some elt =>
              dsimp only
              rw [text]
              exact ⟨_, rfl⟩
  obtain ⟨r, performed⟩ := performed
  exact ⟨r.1, by rw [step, if_pos readable, performed, Option.map_some]⟩

/-- **The cache is a map that forgets what was used longest ago.**  For every run in which
allocations succeed, its pairs are those of the map after the same commands, `get` has
answered as the map does, and hash table and list hold the same keys; and the next
operation that finds memory returns. -/
theorem lru_refines (maxKeyNum maxMem : Int) (limits : Limits maxKeyNum maxMem) (new : Cache)
    (created : newLruCache maxKeyNum maxMem = some new) (labs : List (Env × Op)) (c : Cache)
    (small : ∀ lab ∈ labs, lab.2.Small ∧ lab.2.Plain) (succeed : Along step Succeeds new labs)
    (ran : exec step new labs = some c) :
    (∃ m, exec (Lru.step (fullOfPairs maxKeyNum maxMem)) [] (labs.map fun lab => lab.2.command) =
        some m ∧ pairs c = m ∧ (Lru.keys m).Nodup) ∧
      observe step shown new labs = observe (Lru.step (fullOfPairs maxKeyNum maxMem)) Lru.answer []
        (labs.map fun lab => lab.2.command) ∧
      SameKeys c ∧
      ∀ lab : Env × Op, lab.2.Small → lab.2.Plain → lab.2.Readable → Succeeds c lab →
        Fresh c lab.1 → ∃ c', step c lab = some c' := by
  have proper : Along step (fun c lab => (lab.2.Small ∧ lab.2.Plain) ∧ Succeeds c lab) new labs :=
    along_and (along_of_labels (fun lab inside _ => small lab inside) new) succeed
  have matched : ∀ (c : Cache) (m : Lru Key Bytes) (lab : Env × Op) (d : Cache),
      (lab.2.Small ∧ lab.2.Plain) ∧ Succeeds c lab → Refines maxKeyNum maxMem c m →
      step c lab = some d → shown c lab = Lru.answer m lab.2.command ∧
        ∃ m', Lru.step (fullOfPairs maxKeyNum maxMem) m lab.2.command = some m' ∧
          Refines maxKeyNum maxMem d m' := by
    rintro c m lab d ⟨⟨small, plain⟩, succeeds⟩ refines moved
    exact refines.step limits ⟨small, plain, succeeds⟩ moved
  obtain ⟨answers, m, ranMap, refines⟩ :=
    exec_simulation matched proper (newLruCache_refines limits created) ran
  have counted := refines.counted
  refine ⟨⟨m, ranMap, refines.map.symm, ?_⟩, answers, counted.sameKeys, ?_⟩
  · have empty : (Lru.keys ([] : Lru Key Bytes)).Nodup := List.nodup_nil
    exact exec_invariant (fun _ _ _ => Lru.nodup_step) empty ranMap
  · intro lab small plain readable succeeds fresh
    exact counted.returns limits small plain readable succeeds fresh

/-- The third key comes when two are there, and the one used longest ago goes. -/
def thirdKey : List (Env × Op) :=
  [(finds 1, .putStr [97] []), (finds 2, .putStruct [98] 1 [9]), (finds 3, .get [97]),
    (finds 3, .putInt64 [99] 7)]

theorem thirdKey_refines :
    ∃ new c, newLruCache 2 1000 = some new ∧ exec step new thirdKey = some c ∧
      pairs c = [([99], [7, 0, 0, 0, 0, 0, 0, 0]), ([97], [0])] ∧
      observe step shown new thirdKey = [some [0]] ∧ SameKeys c := by
  have small : ∀ lab ∈ thirdKey, lab.2.Small ∧ lab.2.Plain := by
    simp [thirdKey, Op.Small, Op.Plain]
  have succeed : Along step Succeeds ((newLruCache 2 1000).get rfl) thirdKey :=
    along_cons rfl (by decide) (along_cons rfl (by decide) (along_cons rfl (by decide)
      (along_cons rfl (by decide) trivial)))
  obtain ⟨⟨m, ran, same, -⟩, answers, sameKeys, -⟩ :=
    lru_refines 2 1000 ⟨by decide, by decide, by decide⟩ _ rfl thirdKey _ small succeed rfl
  have kept : m = [([99], [7, 0, 0, 0, 0, 0, 0, 0]), ([97], [0])] := (Option.some.inj ran).symm
  exact ⟨_, _, rfl, rfl, same.trans kept, answers, sameKeys⟩

/-! ## The bound on the memory -/

/-- The cache, and what the most expensive entry put so far costs. -/
structure Metered where
  cache : Cache
  dearest : Int

/-- What the entry that is put costs; a put of nothing is refused. -/
def putCost (op : Op) : Int :=
  match op.args with
  | some (key, icd, _) => if icd.sz = 0 then 0 else cost key.length icd.sz
  | none => 0

/-- One operation, with successful allocations. -/
def meteredStep (s : Metered) (lab : Env × Op) : Option Metered :=
  if Succeeds s.cache lab then
    (step s.cache lab).map fun c => ⟨c, max s.dearest (putCost lab.2)⟩
  else none

/-- `max_mem` bounds the memory up to one entry. -/
def Bounded (s : Metered) : Prop := s.cache.usedMem < s.cache.maxMem + s.dearest

/-- What a list node costs. -/
def nodeCost (c : Cache) (a : Address) : Int := cost (c.hashOf a).keyLen (c.listNode a).item.icd.sz

/-- What a put of this key frees: the entry it replaces, or the last entry of a full cache. -/
def freed (c : Cache) (key : Key) : Int :=
  match c.find key with
  | some elt => nodeCost c (c.hashNode elt).listNode
  | none => if isFull c then (c.list.getLast?.map (nodeCost c)).getD 0 else 0

/-- A put needs no more than it frees, or the entries that stay cost less than `max_mem`, or
they leave room for it below the bound there is already. -/
def Roomy (s : Metered) (lab : Env × Op) : Prop :=
  ∀ args ∈ lab.2.args, args.2.1.sz ≠ 0 →
    cost args.1.length args.2.1.sz ≤ freed s.cache args.1 ∨
      s.cache.usedMem - freed s.cache args.1 < s.cache.maxMem ∨
      s.cache.usedMem - freed s.cache args.1 + cost args.1.length args.2.1.sz <
        s.cache.maxMem + s.dearest

instance (s : Metered) (lab : Env × Op) : Decidable (Roomy s lab) :=
  inferInstanceAs (Decidable (∀ args ∈ lab.2.args, _ → _ ∨ _ ∨ _))

theorem Rep.nodeCost (rep : Rep c l) (inside : a ∈ c.list) :
    nodeCost c a = costOf (c.entry a) := by
  rw [LruCache.nodeCost, Cache.hashOf, rep.keyLen _ (rep.forth a inside).1]
  rfl

/-- **What a put does to the memory.** -/
theorem Counted.total_put (inv : Counted maxKeyNum maxMem c l) (limits : Limits maxKeyNum maxMem)
    (key : Key) (item : CacheItem) :
    total (Lru.put (full maxKeyNum maxMem) key item l) =
      total l - freed c key + costOf (key, item) := by
  by_cases inside : key ∈ Lru.keys l
  · obtain ⟨elt, a, x, y, found, placed⟩ := inv.find_some inside
    have split := placed.split inv.toRep
    have nodup := inv.nodup
    rw [split] at nodup
    have listed : a ∈ c.list := by simp [placed.list]
    have replaced : freed c key = costOf (key, (c.listNode a).item) := by
      rw [freed, found]
      dsimp only
      rw [placed.listNode, inv.toRep.nodeCost listed]
      exact congrArg costOf (Prod.ext placed.key rfl)
    rw [replaced, split, Lru.put_split nodup, total_cons, total_append, total_append, total_cons]
    omega
  · have evicted : total (LruCache.evict maxKeyNum maxMem l) = total l - freed c key := by
      rw [freed, inv.find_none inside, inv.isFull limits, LruCache.evict]
      dsimp only
      split
      · rename_i isFull
        have nonempty : c.list ≠ [] := by
          intro empty
          refine limits.nonempty isFull ?_
          rw [← inv.entries, Cache.entries, empty, List.map_nil]
        have last : c.list.getLast? = some (c.list.getLast nonempty) :=
          List.getLast?_eq_some_getLast nonempty
        have split : l = l.dropLast ++ [c.entry (c.list.getLast nonempty)] := by
          conv_lhs => rw [← inv.entries, Cache.entries, ← List.dropLast_append_getLast nonempty]
          rw [List.map_append, ← inv.entries, Cache.entries, List.map_dropLast]
          rfl
        have spent : total l = total l.dropLast + costOf (c.entry (c.list.getLast nonempty)) := by
          conv_lhs => rw [split]
          rw [total_append, total_cons, total_nil]
          omega
        rw [last, Option.map_some, Option.getD_some,
          inv.toRep.nodeCost (List.getLast_mem nonempty), spent]
        omega
      · omega
    rw [Lru.put_of_not_mem inside, total_cons]
    show costOf (key, item) + total (LruCache.evict maxKeyNum maxMem l) = _
    rw [evicted]
    omega

/-- What the bound is kept with. -/
structure MeteredInv (maxKeyNum maxMem : Int) (s : Metered) : Prop where
  sound : Sound maxKeyNum maxMem s.cache
  mem : s.cache.maxMem = maxMem
  dearest : 0 ≤ s.dearest

/-- What an operation does to the memory: a put frees and adds, nothing else adds. -/
def MemoryStep (s t : Metered) (op : Op) : Prop :=
  (∃ key icd data, op.args = some (key, icd, data) ∧ icd.sz ≠ 0 ∧
      t.dearest = max s.dearest (cost key.length icd.sz) ∧
      t.cache.usedMem = s.cache.usedMem - freed s.cache key + cost key.length icd.sz) ∨
    ((∀ args ∈ op.args, args.2.1.sz = 0) ∧ t.dearest = s.dearest ∧
      t.cache.usedMem ≤ s.cache.usedMem)

theorem meteredStep_performed {s t : Metered} (moved : meteredStep s lab = some t) :
    Succeeds s.cache lab ∧ ∃ reply, perform lab.1 s.cache lab.2 = some (t.cache, reply) ∧
      t.dearest = max s.dearest (putCost lab.2) := by
  obtain ⟨succeeds, moved⟩ := Option.ite_none_right_eq_some.1 moved
  obtain ⟨c, stepped, rfl⟩ := Option.map_eq_some_iff.1 moved
  obtain ⟨-, reply, ran⟩ := step_performed stepped
  exact ⟨succeeds, reply, ran, rfl⟩

/-- A put of nothing changes nothing. -/
theorem perform_put_empty {reply : Reply} (args : lab.2.args = some (key, icd, data))
    (empty : icd.sz = 0) (ran : perform lab.1 c lab.2 = some (c', reply)) : c' = c := by
  rw [perform_put args] at ran
  obtain ⟨r, returned, same⟩ := Option.map_eq_some_iff.1 ran
  simp only [lruCachePut, empty, if_true, Option.some.injEq] at returned
  subst returned
  exact (Prod.mk.inj same).1.symm

theorem Counted.memoryStep {s t : Metered} (inv : Counted maxKeyNum maxMem s.cache l)
    (limits : Limits maxKeyNum maxMem) (small : lab.2.Small) (dearest : 0 ≤ s.dearest)
    (moved : meteredStep s lab = some t) : MemoryStep s t lab.2 := by
  obtain ⟨succeeds, reply, ran, risen⟩ := meteredStep_performed moved
  obtain ⟨l', counted, stepped⟩ := inv.perform limits small ran
  have used := inv.used
  have used' := counted.used
  rcases stepped with ⟨key, icd, data, b, args, rfl, put⟩ | ⟨key, op, -, rfl⟩ |
    ⟨key, op, -, rfl⟩
  · by_cases empty : icd.sz = 0
    · have same : t.cache = s.cache := perform_put_empty args empty ran
      refine .inr ⟨?_, ?_, le_of_eq (congrArg Cache.usedMem same)⟩
      · intro other found
        obtain rfl := Option.some.inj (args.symm.trans found)
        exact empty
      · rw [risen, putCost, args]
        dsimp only
        rw [if_pos empty]
        exact max_eq_left dearest
    · have stored := inv.stored limits small succeeds args empty ran
      obtain ⟨-, item, made, rfl⟩ | ⟨failed, -⟩ := put
      · refine .inl ⟨key, icd, data, args, empty, ?_, ?_⟩
        · rw [risen, putCost, args]
          dsimp only
          rw [if_neg empty]
        · rw [used', used, inv.total_put limits, costOf, made.kind]
      · cases failed.symm.trans stored
  · refine .inr ⟨by simp [op, Op.args], ?_, ?_⟩
    · rw [risen, op]
      exact max_eq_left dearest
    · rw [used', used]
      exact le_of_eq ((Lru.perm_get inv.nodup).map costOf).sum_eq
  · refine .inr ⟨by simp [op, Op.args], ?_, ?_⟩
    · rw [risen, op]
      exact max_eq_left dearest
    · rw [used', used]
      exact total_sublist List.filter_sublist

theorem MeteredInv.step {s t : Metered} (inv : MeteredInv maxKeyNum maxMem s)
    (limits : Limits maxKeyNum maxMem) (small : lab.2.Small)
    (moved : meteredStep s lab = some t) :
    MeteredInv maxKeyNum maxMem t ∧ MemoryStep s t lab.2 := by
  obtain ⟨l, counted⟩ := inv.sound
  obtain ⟨-, reply, ran, risen⟩ := meteredStep_performed moved
  obtain ⟨l', counted', -⟩ := counted.perform limits small ran
  refine ⟨⟨⟨l', counted'⟩, counted'.mem, ?_⟩, counted.memoryStep limits small inv.dearest moved⟩
  rw [risen]
  exact le_trans inv.dearest (le_max_left _ _)

/-- **A step keeps the bound exactly when it is roomy.** -/
theorem MeteredInv.bounded_iff {s t : Metered} (inv : MeteredInv maxKeyNum maxMem s)
    (limits : Limits maxKeyNum maxMem) (small : lab.2.Small)
    (moved : meteredStep s lab = some t) (bounded : Bounded s) :
    Bounded t ↔ Roomy s lab := by
  obtain ⟨inv', memory⟩ := inv.step limits small moved
  have mem := inv.mem
  have mem' := inv'.mem
  unfold Bounded at bounded ⊢
  unfold Roomy
  rcases memory with ⟨key, icd, data, args, positive, risen, used⟩ | ⟨none, risen, used⟩
  · rw [args]
    constructor
    · intro after _ found _
      obtain rfl := Option.some.inj found
      dsimp only
      omega
    · intro roomy
      have room := roomy _ rfl positive
      dsimp only at room
      omega
  · constructor
    · intro _ args found positive
      exact absurd (none args found) positive
    · intro _
      omega

/-- **When `max_mem` bounds the memory up to one entry.**  It does in every state of a run
whose puts are roomy, and a run it bounds all along has roomy puts only. -/
theorem lru_bounded_iff (maxKeyNum maxMem : Int) (limits : Limits maxKeyNum maxMem) (new : Cache)
    (created : newLruCache maxKeyNum maxMem = some new) (labs : List (Env × Op)) (s : Metered)
    (small : ∀ lab ∈ labs, lab.2.Small) (ran : exec meteredStep ⟨new, 0⟩ labs = some s) :
    Always meteredStep Bounded ⟨new, 0⟩ labs ↔ Along meteredStep Roomy ⟨new, 0⟩ labs := by
  have counted := newLruCache_counted limits created
  have inv : MeteredInv maxKeyNum maxMem ⟨new, 0⟩ := ⟨⟨[], counted⟩, counted.mem, Int.le_refl 0⟩
  have bounded : Bounded ⟨new, 0⟩ := by
    have used := counted.used
    have mem := counted.mem
    have positive := limits.mem
    simp only [Bounded, used, mem, total_nil]
    omega
  have met : Along meteredStep (fun _ lab => lab.2.Small) ⟨new, 0⟩ labs :=
    along_of_labels (fun lab inside _ => small lab inside) _
  have kept : ∀ (s : Metered) (lab : Env × Op) (t : Metered), lab.2.Small → Roomy s lab →
      MeteredInv maxKeyNum maxMem s ∧ Bounded s → meteredStep s lab = some t →
      MeteredInv maxKeyNum maxMem t ∧ Bounded t := by
    rintro s lab t small roomy ⟨inv, bounded⟩ moved
    exact ⟨(inv.step limits small moved).1, (inv.bounded_iff limits small moved bounded).2 roomy⟩
  constructor
  · intro always
    refine along_of_always kept ?_ met ⟨inv, bounded⟩ ran always
    rintro s lab t small ⟨inv, bounded⟩ moved after
    exact (inv.bounded_iff limits small moved bounded).1 after
  · intro along
    have holds : ∀ s, MeteredInv maxKeyNum maxMem s ∧ Bounded s → Bounded s := fun _ both => both.2
    refine always_of_along holds ?_ (along_and met along) ⟨inv, bounded⟩
    rintro s lab t ⟨small, roomy⟩
    exact kept s lab t small roomy

/-- One key, put twice: the second item is larger, and nothing else is there. -/
def putTwice : List (Env × Op) := [(finds 1, .putStr [97] []), (finds 2, .putInt64 [97] 7)]

theorem putTwice_bounded :
    ∃ new s, newLruCache 8 160 = some new ∧ exec meteredStep ⟨new, 0⟩ putTwice = some s ∧
      Always meteredStep Bounded ⟨new, 0⟩ putTwice := by
  have small : ∀ lab ∈ putTwice, lab.2.Small := by
    simp [putTwice, Op.Small]
  have roomy : Along meteredStep Roomy ⟨(newLruCache 8 160).get rfl, 0⟩ putTwice :=
    along_cons rfl (by decide) (along_cons rfl (by decide) trivial)
  exact ⟨_, _, rfl, rfl, (lru_bounded_iff 8 160 ⟨by decide, by decide, by decide⟩ _ rfl putTwice _
    small rfl).2 roomy⟩

/-- Two small items, and then two larger ones under the same keys. -/
def putLarger : List (Env × Op) :=
  [(finds 1, .putStr [97] []), (finds 2, .putStr [98] []), (finds 3, .putInt64 [97] 7),
    (finds 3, .putInt64 [98] 7)]

/-- Each of the two entries costs 162 in the end, and a limit of 160 bytes lets both grow. -/
theorem putLarger_unbounded :
    ∃ new s, newLruCache 8 160 = some new ∧ exec meteredStep ⟨new, 0⟩ putLarger = some s ∧
      s.cache.usedMem = 324 ∧ s.cache.maxMem + s.dearest = 322 ∧ ¬ Bounded s := by
  refine ⟨_, _, rfl, rfl, rfl, rfl, ?_⟩
  unfold Bounded
  decide

/-! ## Puts that fail -/

/-- The keys, their values and their order, and the counter, are what they were. -/
structure Unchanged (c c' : Cache) : Prop where
  entries : c'.entries = c.entries
  keys : c'.hash.map (fun h => (c'.hashNode h).key) = c.hash.map fun h => (c.hashNode h).key
  usedMem : c'.usedMem = c.usedMem

/-- The five allocations of `create_data` succeed beside what an eviction leaves. -/
def FindsMemory (c : Cache) (lab : Env × Op) : Prop :=
  ∀ args ∈ lab.2.args, ∀ d ∈ deleteTailData c,
    createMallocs lab.1.mallocs d.bytes (int32 args.1.length) args.2.1.sz = true

theorem Unchanged.refl (c : Cache) : Unchanged c c := ⟨rfl, rfl, rfl⟩

/-- The entry that `delete_tail_data` takes is missing afterwards. -/
theorem not_unchanged_of_deleteTailData {d : Cache} (evicted : deleteTailData c = some d) :
    ¬ Unchanged c d := by
  intro unchanged
  obtain ⟨tail, last, rfl⟩ := Option.map_eq_some_iff.1 evicted
  have inside : tail ∈ c.list := List.mem_of_getLast? last
  have shorter : (c.list.filter (· ≠ tail)).length < c.list.length :=
    List.length_filter_lt_length_iff_exists.2 ⟨tail, inside, by simp⟩
  have lengths := congrArg List.length unchanged.entries
  simp only [Cache.entries, List.length_map] at lengths
  exact absurd lengths (Nat.ne_of_lt shorter)

/-- `create_data` fails for want of memory only, and then it has changed nothing. -/
theorem createData_answer {ok : Bool} (created : createData env key icd data c = some (c', ok)) :
    ok = createMallocs env.mallocs c.bytes (int32 key.length) icd.sz ∧ (ok = false → c' = c) := by
  unfold createData at created
  dsimp only at created
  split at created
  · cases created
  · split at created
    · rename_i short
      obtain ⟨rfl, rfl⟩ := Prod.mk.inj (Option.some.inj created)
      exact ⟨short.symm, fun _ => rfl⟩
    · rename_i enough
      split at created
      · cases created
      · obtain ⟨-, rfl⟩ := Prod.mk.inj (Option.some.inj created)
        exact ⟨(Bool.not_eq_false _ ▸ enough).symm, fun failed => by cases failed⟩

theorem updateData_failed (failed : (updateData env a icd data c).2 = false) :
    (updateData env a icd data c).1 = c := by
  unfold updateData at failed ⊢
  dsimp only at failed ⊢
  split at failed
  · cases failed
  · rename_i other
    rw [if_neg other]
    split at failed
    · rename_i short
      rw [if_pos short]
    · cases failed

/-- The three ways of a put that returns: it does not come to `create_data`, it does and evicts
nothing, or it evicts first. -/
theorem lruCachePut_cases {ok : Bool}
    (ran : lruCachePut env (some key) (some icd) (some data) c = some (c', ok)) :
    ((icd.sz = 0 ∨ c.find key ≠ none) ∧ (ok = false → c' = c)) ∨
      (icd.sz ≠ 0 ∧ c.find key = none ∧ isFull c = false ∧
        createData env key icd data c = some (c', ok)) ∨
      (icd.sz ≠ 0 ∧ c.find key = none ∧ isFull c = true ∧
        ∃ d, deleteTailData c = some d ∧ createData env key icd data d = some (c', ok)) := by
  unfold lruCachePut at ran
  dsimp only at ran
  split at ran
  · rename_i empty
    obtain ⟨rfl, rfl⟩ := Prod.mk.inj (Option.some.inj ran)
    exact .inl ⟨.inl empty, fun _ => rfl⟩
  · rename_i nonempty
    cases found : c.find key with
    | some elt =>
        rw [found] at ran
        dsimp only at ran
        refine .inl ⟨.inr (by simp), ?_⟩
        intro failed
        cases updated : updateData env (c.hashNode elt).listNode icd data c with
        | mk d done =>
            rw [updated] at ran
            cases done with
            | true =>
                obtain ⟨-, rfl⟩ := Prod.mk.inj (Option.some.inj ran)
                cases failed
            | false =>
                obtain ⟨rfl, -⟩ := Prod.mk.inj (Option.some.inj ran)
                have same := updateData_failed (congrArg Prod.snd updated)
                rwa [updated] at same
    | none =>
        rw [found] at ran
        dsimp only at ran
        obtain ⟨d, evicted, ran⟩ := Option.bind_eq_some_iff.1 ran
        obtain ⟨r, created, printed⟩ := Option.bind_eq_some_iff.1 ran
        obtain ⟨-, same⟩ := Option.ite_none_right_eq_some.1 printed
        obtain rfl := Option.some.inj same
        cases full : isFull c with
        | true =>
            rw [full, if_pos rfl] at evicted
            exact .inr (.inr ⟨nonempty, rfl, rfl, d, evicted, created⟩)
        | false =>
            rw [full, if_neg Bool.false_ne_true] at evicted
            obtain rfl := Option.some.inj evicted
            exact .inr (.inl ⟨nonempty, rfl, rfl, created⟩)

/-- **When a put that fails changes nothing.**  The tail goes before the new entry is allocated
for, so exactly a put that evicts and then finds no memory loses an entry. -/
theorem failed_put_unchanged_iff (c c' : Cache) (env : Env) (op : Op) (ok : Bool)
    (returned : perform env c op = some (c', .stored ok)) :
    (ok = false → Unchanged c c') ↔ (DeletesTail c (env, op) → FindsMemory c (env, op)) := by
  cases args : op.args with
  | none =>
      rcases Op.args_none args with ⟨key, rfl⟩ | ⟨key, rfl⟩
      · simp [perform] at returned
      · simp [perform] at returned
  | some triple =>
      obtain ⟨key, icd, data⟩ := triple
      rw [perform_put args] at returned
      obtain ⟨⟨d, b⟩, ran, same⟩ := Option.map_eq_some_iff.1 returned
      obtain ⟨rfl, stored⟩ := Prod.mk.inj same
      obtain rfl : b = ok := by simpa using stored
      have deletes : DeletesTail c (env, op) ↔
          icd.sz ≠ 0 ∧ c.find key = none ∧ isFull c = true := by
        simp [DeletesTail, args]
      have finds : FindsMemory c (env, op) ↔ ∀ d ∈ deleteTailData c,
          createMallocs env.mallocs d.bytes (int32 key.length) icd.sz = true := by
        simp [FindsMemory, args]
      rw [deletes, finds]
      rcases lruCachePut_cases ran with ⟨early, kept⟩ | ⟨-, absent, room, created⟩ |
        ⟨nonempty, absent, full, e, evicted, created⟩
      · constructor
        · rintro - ⟨nonempty, absent, -⟩
          exact absurd absent (early.resolve_left nonempty)
        · intro _ failed
          exact kept failed ▸ Unchanged.refl c
      · constructor
        · rintro - ⟨-, -, full⟩
          exact absurd full (by simp [room])
        · intro _ failed
          exact (createData_answer created).2 failed ▸ Unchanged.refl c
      · obtain ⟨answer, kept⟩ := createData_answer created
        simp only [evicted, Option.mem_def, Option.some.injEq, forall_eq', ← answer]
        constructor
        · rintro unchanged -
          cases b with
          | true => rfl
          | false => exact absurd (kept rfl ▸ unchanged rfl) (not_unchanged_of_deleteTailData evicted)
        · intro enough failed
          exact absurd (enough ⟨nonempty, absent, full⟩) (by simp [failed])

/-- The copy of the key finds no memory, and the cache has room. -/
theorem failed_put_in_a_cache_with_room :
    ∃ new c c', newLruCache 2 20000 = some new ∧
      exec step new [(finds 1, .putStr [97] [])] = some c ∧
      perform (findsNoKey 2) c (.putStr [98] []) = some (c', .stored false) ∧ Unchanged c c' := by
  refine ⟨_, _, _, rfl, rfl, rfl, ?_⟩
  refine (failed_put_unchanged_iff _ _ (findsNoKey 2) (.putStr [98] []) false rfl).2 ?_ rfl
  rintro ⟨key, icd, data, args, -, -, full⟩
  exact absurd full (by decide)

/-- One entry fills the cache, and the put of another key, whose copy finds no memory, leaves
it empty. -/
theorem failed_put_loses_the_tail :
    ∃ new c c', newLruCache 1 20000 = some new ∧
      exec step new [(finds 1, .putStr [97] [])] = some c ∧
      perform (findsNoKey 2) c (.putStr [98] []) = some (c', .stored false) ∧
      c.entries.map Prod.fst = [[97]] ∧ c'.entries = [] ∧ ¬ Unchanged c c' := by
  refine ⟨_, _, _, rfl, rfl, rfl, rfl, rfl, ?_⟩
  intro unchanged
  have entries := unchanged.entries
  cases entries

end ChargerStack.Utils.LruCache
