/-
# Database.PreparedStmt -- the statement cache of database/dao/prepared_stmt.c

A compiled statement is kept in an LRU cache under its SQL text; the cached item is the pointer to
it, and the destructor of the item finalizes the statement.  `prepared_stmt_get` looks the text
up or compiles it, and `prepared_stmt_put` resets the statement and removes it if it is still
busy.

A statement is known by a handle that no earlier statement had, so a pointer to a finalized
statement never points at a live one.  Whatever touches a statement that is not live is
recorded as misuse.

* `Consistent s l`: the cached pointers are those of live statements, each compiled from the
  key it is cached under;
* `Consistent.get` and `Consistent.put`: the two functions keep that, and what `get` returns is
  a live statement compiled from the text that was asked for.
-/
import ChargerStack.Utils.LruRuns

namespace ChargerStack.Database.PreparedStmt

open ChargerStack.Lib
open ChargerStack.Utils.LruCache

set_option autoImplicit false

/-! ## Statements -/

/-- A `sqlite3_stmt *`. -/
abbrev Handle := Nat

inductive StmtState where
  | unused
  /-- Compiled from this text, which is what `sqlite3_sql` returns. -/
  | live (sql : Key)
  | finalized
  deriving DecidableEq, Repr

/-- The cache and the statements of a `prepared_stmt_t`. -/
structure Store where
  cache : Cache
  stmts : Handle → StmtState
  misuse : Bool

/-- An operation on a statement: step, reset, bind, or a question about it. -/
def touch (h : Handle) (s : Store) : Store :=
  match s.stmts h with
  | .live _ => s
  | _ => { s with misuse := true }

/-- `sqlite3_finalize`. -/
def finalize (h : Handle) (s : Store) : Store :=
  match s.stmts h with
  | .live _ => { s with stmts := Function.update s.stmts h .finalized }
  | _ => { s with misuse := true }

/-- The bytes of a pointer. -/
def handleBytes (h : Handle) : Bytes := int64Bytes h

/-- The pointer that stands in these bytes, lowest first. -/
def handleOf (bytes : Bytes) : Nat := bytes.foldr (fun b rest => b.toNat + 256 * rest) 0

/-- `g_icd`: the addresses of `copy` and `dtor`. -/
def gIcd : Icd := ⟨8, none, some 1, some 2⟩

/-- An item is destroyed: `dtor` finalizes the statement it points at. -/
def destroy (item : CacheItem) (s : Store) : Store :=
  if item.icd.dtor = none then s else finalize (handleOf item.data) s

/-! ## What the cache destroys -/

/-- The item that `lru_cache_put` destroys: the one it replaces, or the one it evicts. -/
def putDestroys (env : Env) (key : Key) (icd : Icd) (data : Bytes) (c : Cache) : Option CacheItem :=
  match c.find key with
  | some elt =>
      let item := (c.listNode (c.hashNode elt).listNode).item
      if item.icd = icd ∧ item.data = data.take icd.sz then none
      else if malloc env.mallocs.data c.bytes icd.sz then some item
      else none
  | none => if isFull c then c.list.getLast?.map fun tail => (c.listNode tail).item else none

/-- The item that `lru_cache_remove` destroys. -/
def removeDestroys (key : Key) (c : Cache) : Option CacheItem :=
  (c.find key).map fun elt => (c.listNode (c.hashNode elt).listNode).item

/-- The cache as an operation leaves it, and the item it destroyed. -/
def settle (c : Cache) (destroyed : Option CacheItem) (s : Store) : Store :=
  match destroyed with
  | none => { s with cache := c }
  | some item => destroy item { s with cache := c }

/-! ## `prepared_stmt_get` and `prepared_stmt_put` -/

/-- What `prepared_stmt_get` finds: the memory for the two cache operations, the statement that
`sqlite3_prepare_v2` returns, if it does, and the first bytes of that object. -/
structure GetEnv where
  get : Env
  prepared : Option Handle
  put : Env
  object : Bytes
  deriving DecidableEq, Repr

/-- `SQLITE_MAX_SQL_LENGTH`: a longer text is not compiled. -/
def sqliteMaxSqlLength : Nat := 1000000000

/-- `new_pstmt`. -/
def newPstmt (prepared : Option Handle) (sql : Key) : Option Handle :=
  if sqliteMaxSqlLength < sql.length then none else prepared

/-- A handle that SQLite can return for a new statement. -/
def Fresh (s : Store) (h : Handle) : Prop := s.stmts h = .unused ∧ h < 2 ^ 64

instance (s : Store) (h : Handle) : Decidable (Fresh s h) := inferInstanceAs (Decidable (_ ∧ _))

/-- The store once the text is compiled. -/
def compiled (c : Cache) (h : Handle) (key : Key) (s : Store) : Store :=
  { s with cache := c, stmts := Function.update s.stmts h (.live key) }

/-- `prepared_stmt_get` behind its lock.  There is no result when a cache operation ends the
process, and none for a handle that SQLite cannot return. -/
def preparedStmtGet (env : GetEnv) (key : Key) (s : Store) : Option (Store × Option Handle) :=
  (lruCacheGet env.get (some key) s.cache).bind fun found =>
    match found.2 with
    | some item => some ({ s with cache := found.1 }, some (handleOf item.data))
    | none =>
        match newPstmt env.prepared key with
        | none => some ({ s with cache := found.1 }, none)
        | some h =>
            if Fresh s h then
              let put : Env := { env.put with copied := handleBytes h }
              (lruCachePut put (some key) (some gIcd) (some env.object) found.1).map fun r =>
                let stored := settle r.1 (putDestroys put key gIcd env.object found.1)
                  (compiled found.1 h key s)
                if r.2 then (stored, some h) else (finalize h stored, none)
            else none

/-- `prepared_stmt_put` before its unlock. -/
def preparedStmtPut (busy : Bool) (env : Env) (h : Handle) (s : Store) : Option Store :=
  let reset := touch h s
  if busy then
    match reset.stmts h with
    | .live sql =>
        (lruCacheRemove env (some sql) reset.cache).map fun c =>
          settle c (removeDestroys sql reset.cache) reset
    | _ => none
  else some reset

/-! ## The cached pointers -/

/-- `MAX_KEY_NUM` and `MAX_MEM`. -/
def maxKeyNum : Int := 100

def maxMem : Int := 20000

theorem limits : Limits maxKeyNum maxMem := ⟨by decide, by decide, by decide⟩

/-- A cached item is the pointer to a live statement that was compiled from its key. -/
def Cached (stmts : Handle → StmtState) (e : Key × CacheItem) : Prop :=
  e.2.icd = gIcd ∧ stmts (handleOf e.2.data) = .live e.1

/-- The cache holds the pairs `l`, and nothing has been misused. -/
structure Consistent (s : Store) (l : Lru Key CacheItem) : Prop where
  counted : Counted maxKeyNum maxMem s.cache l
  cached : ∀ e ∈ l, Cached s.stmts e
  sound : s.misuse = false

variable {s s' : Store} {l : Lru Key CacheItem} {h : Handle} {key sql : Key}

theorem byte_at (n h : Nat) :
    ((h : Int) % 2 ^ 64 / 2 ^ (8 * n) % 256).toNat = h % 2 ^ 64 / 2 ^ (8 * n) % 256 := by
  have cast : ((h : Int) % 2 ^ 64 / 2 ^ (8 * n) % 256) =
      ((h % 2 ^ 64 / 2 ^ (8 * n) % 256 : Nat) : Int) := by
    push_cast
    rfl
  rw [cast, Int.toNat_natCast]

theorem byte_above (n k : Nat) : n / 2 ^ k % 256 + 256 * (n / 2 ^ (k + 8)) = n / 2 ^ k := by
  rw [Nat.pow_add, ← Nat.div_div_eq_div_mul]
  exact Nat.mod_add_div (n / 2 ^ k) 256

theorem handleOf_handleBytes {n : Nat} (small : n < 2 ^ 64) : handleOf (handleBytes n) = n := by
  have top : n / 2 ^ 56 < 256 := Nat.div_lt_of_lt_mul (by simpa using small)
  simp only [handleOf, handleBytes, int64Bytes, List.range, List.range.loop, List.map_cons,
    List.map_nil, List.foldr_cons, List.foldr_nil, UInt8.toNat_ofNat', byte_at]
  simp only [Nat.reduceMul, Nat.mul_zero, Nat.add_zero, Nat.mod_mod, Nat.mod_eq_of_lt small]
  -- from the highest byte down, each with what is above it
  rw [Nat.mod_eq_of_lt top, byte_above n 48, byte_above n 40, byte_above n 32, byte_above n 24,
    byte_above n 16, byte_above n 8, byte_above n 0, Nat.pow_zero, Nat.div_one]

theorem touch_live (live : s.stmts h = .live sql) : touch h s = s := by
  unfold touch
  rw [live]

theorem finalize_live (live : s.stmts h = .live sql) :
    finalize h s = { s with stmts := Function.update s.stmts h .finalized } := by
  unfold finalize
  rw [live]

/-- The statements of other texts are other statements. -/
theorem Cached.other {e : Key × CacheItem} (cached : Cached s.stmts e) (state : StmtState)
    (apart : s.stmts h ≠ .live e.1) : Cached (Function.update s.stmts h state) e := by
  refine ⟨cached.1, ?_⟩
  have different : handleOf e.2.data ≠ h := fun same => apart (same ▸ cached.2)
  rw [Function.update_of_ne different]
  exact cached.2

/-- What `lru_cache_remove` destroys is what the cache has under the key. -/
theorem removeDestroys_eq {c : Cache} (counted : Counted maxKeyNum maxMem c l) :
    removeDestroys key c = Lru.lookup key l := by
  unfold removeDestroys
  by_cases inside : key ∈ Lru.keys l
  · obtain ⟨elt, a, x, y, found, placed⟩ := counted.find_some inside
    have split := placed.split counted.toRep
    have nodup := counted.nodup
    rw [split] at nodup
    rw [found, Option.map_some, placed.listNode, split, Lru.lookup_split nodup]
  · rw [counted.find_none inside, Lru.lookup_of_not_mem inside]
    rfl

/-- The last item of a full cache. -/
def lastIfFull (l : Lru Key CacheItem) : Option CacheItem :=
  if full maxKeyNum maxMem l then l.getLast?.map Prod.snd else none

/-- What `lru_cache_put` destroys for a new key is the last entry of a full cache. -/
theorem putDestroys_absent {c : Cache} (counted : Counted maxKeyNum maxMem c l)
    (absent : key ∉ Lru.keys l) (env : Env) (icd : Icd) (data : Bytes) :
    putDestroys env key icd data c = lastIfFull l := by
  unfold putDestroys lastIfFull
  rw [counted.find_none absent]
  dsimp only
  rw [counted.isFull limits, ← counted.entries, Cache.entries, List.getLast?_map, Option.map_map]
  rfl

/-- The eviction: the last statement is finalized, those of other texts stay. -/
theorem settle_evict {c : Cache} (nodup : (Lru.keys l).Nodup) (cached : ∀ e ∈ l, Cached s.stmts e)
    (sound : s.misuse = false) :
    (settle c (lastIfFull l) s).cache = c ∧
      (settle c (lastIfFull l) s).misuse = false ∧
      (∀ e ∈ evict maxKeyNum maxMem l,
        Cached (settle c (lastIfFull l) s).stmts e) ∧
      ∀ h sql, s.stmts h = .live sql → sql ∉ Lru.keys l →
        (settle c (lastIfFull l) s).stmts h =
          .live sql := by
  unfold evict lastIfFull
  split
  · rename_i isFull
    have nonempty : l ≠ [] := limits.nonempty isFull
    have split : l = l.dropLast ++ [l.getLast nonempty] := (List.dropLast_append_getLast nonempty).symm
    have last := cached _ (List.getLast_mem nonempty)
    rw [List.getLast?_eq_some_getLast nonempty, Option.map_some, settle, destroy, last.1,
      if_neg (show gIcd.dtor ≠ none by decide), finalize_live (s := { s with cache := c }) last.2]
    refine ⟨rfl, sound, ?_, ?_⟩
    · intro e member
      refine (cached e ((List.dropLast_sublist l).subset member)).other _ ?_
      rw [last.2]
      intro same
      have keys : (l.getLast nonempty).1 = e.1 := StmtState.live.inj same
      rw [split, Lru.keys, List.map_append, List.nodup_append] at nodup
      exact nodup.2.2 e.1 (List.mem_map_of_mem member) _ (List.mem_singleton.2 rfl) keys.symm
    · intro h sql live absent
      have different : h ≠ handleOf (l.getLast nonempty).2.data := by
        rintro rfl
        rw [last.2] at live
        refine absent ?_
        rw [← StmtState.live.inj live]
        exact List.mem_map_of_mem (List.getLast_mem nonempty)
      exact (Function.update_of_ne different ..).trans live
  · exact ⟨rfl, sound, cached, fun _ _ live _ => live⟩

/-- A new statement is cached, or it is finalized again. -/
theorem Consistent.compile {c c' : Cache} {put : Env} {object : Bytes} {ok : Bool}
    (inv : Consistent s l) (counted : Counted maxKeyNum maxMem c l) (absent : key ∉ Lru.keys l)
    (short : key.length ≤ sqliteMaxSqlLength) (fresh : Fresh s h) (copied : put.copied = handleBytes h)
    (ran : lruCachePut put (some key) (some gIcd) (some object) c = some (c', ok)) :
    (settle c' (lastIfFull l) (compiled c h key s)).stmts h = .live key ∧
      ∃ l', Consistent
        (if ok then settle c' (lastIfFull l) (compiled c h key s)
          else finalize h (settle c' (lastIfFull l) (compiled c h key s))) l' := by
  have keySmall : key.length < 2 ^ 31 - 1 := by
    unfold sqliteMaxSqlLength at short
    omega
  have cached : ∀ e ∈ l, Cached (compiled c h key s).stmts e := by
    intro e member
    refine (inv.cached e member).other _ ?_
    rw [fresh.1]
    exact StmtState.noConfusion
  have new : (compiled c h key s).stmts h = .live key := Function.update_self ..
  obtain ⟨cache, sound, kept, others⟩ := settle_evict (c := c') counted.nodup cached inv.sound
  have live := others h key new absent
  rcases counted.putAbsent limits keySmall (by decide) absent (by decide) ran with
    ⟨rfl, evicted⟩ | ⟨rfl, added⟩
  · refine ⟨live, evict maxKeyNum maxMem l, ?_⟩
    rw [if_neg Bool.false_ne_true, finalize_live live]
    refine ⟨cache.symm ▸ evicted, ?_, sound⟩
    intro e member
    refine (kept e member).other _ ?_
    rw [live]
    intro same
    refine absent ?_
    rw [StmtState.live.inj same]
    exact List.mem_map_of_mem ((evict_sublist maxKeyNum maxMem l).subset member)
  · refine ⟨live, (key, ⟨gIcd, itemBytes gIcd object put.copied⟩) :: evict maxKeyNum maxMem l, ?_⟩
    rw [if_pos rfl]
    refine ⟨cache.symm ▸ added, ?_, sound⟩
    intro e member
    rcases List.mem_cons.1 member with rfl | member
    · refine ⟨rfl, ?_⟩
      show _ = StmtState.live key
      rw [itemBytes, if_neg (show gIcd.copy ≠ none by decide), copied, handleOf_handleBytes fresh.2]
      exact live
    · exact kept e member

/-- **`prepared_stmt_get`** returns a live statement that was compiled from the text asked for. -/
theorem Consistent.get {env : GetEnv} {answer : Option Handle} (inv : Consistent s l)
    (ran : preparedStmtGet env key s = some (s', answer)) :
    (∃ l', Consistent s' l') ∧ ∀ h, answer = some h → s'.stmts h = .live key := by
  obtain ⟨⟨c, item⟩, got, ran⟩ := Option.bind_eq_some_iff.1 ran
  obtain ⟨counted, rfl⟩ := inv.counted.get got
  by_cases inside : key ∈ Lru.keys l
  · obtain ⟨item, x, y, split⟩ := Lru.exists_split inside
    have nodup := inv.counted.nodup
    have found : Lru.lookup key l = some item := by
      rw [split] at nodup ⊢
      exact Lru.lookup_split nodup
    rw [found] at ran
    obtain ⟨rfl, rfl⟩ := Prod.mk.inj (Option.some.inj ran)
    have member : (key, item) ∈ l := by simp [split]
    refine ⟨⟨_, counted, ?_, inv.sound⟩, ?_⟩
    · exact fun e inside => inv.cached e (Lru.mem_get inside)
    · intro h returned
      rw [← Option.some.inj returned]
      exact (inv.cached _ member).2
  · rw [Lru.get_of_not_mem inside] at counted
    rw [Lru.lookup_of_not_mem inside] at ran
    dsimp only at ran
    cases prepared : newPstmt env.prepared key with
    | none =>
        rw [prepared] at ran
        obtain ⟨rfl, rfl⟩ := Prod.mk.inj (Option.some.inj ran)
        exact ⟨⟨l, counted, inv.cached, inv.sound⟩, fun _ returned => by cases returned⟩
    | some h =>
        rw [prepared] at ran
        obtain ⟨fresh, ran⟩ := Option.ite_none_right_eq_some.1 ran
        obtain ⟨⟨c', ok⟩, put, same⟩ := Option.map_eq_some_iff.1 ran
        dsimp only at put same
        rw [putDestroys_absent counted inside] at same
        have short : key.length ≤ sqliteMaxSqlLength :=
          Nat.not_lt.1 (Option.ite_none_left_eq_some.1 prepared).1
        obtain ⟨live, l', consistent⟩ := inv.compile counted inside short fresh rfl put
        cases ok with
        | true =>
            obtain ⟨rfl, rfl⟩ := Prod.mk.inj same
            refine ⟨⟨l', consistent⟩, ?_⟩
            intro other returned
            rw [← Option.some.inj returned]
            exact live
        | false =>
            obtain ⟨rfl, rfl⟩ := Prod.mk.inj same
            exact ⟨⟨l', consistent⟩, fun _ returned => by cases returned⟩

/-- **`prepared_stmt_put`** finalizes nothing but the statement under the text. -/
theorem Consistent.put {busy : Bool} {env : Env} (inv : Consistent s l) (live : s.stmts h = .live sql)
    (ran : preparedStmtPut busy env h s = some s') : ∃ l', Consistent s' l' := by
  unfold preparedStmtPut at ran
  dsimp only at ran
  rw [touch_live live] at ran
  split at ran
  · rw [live] at ran
    obtain ⟨c, removed, rfl⟩ := Option.map_eq_some_iff.1 ran
    have counted := inv.counted.remove removed
    rw [removeDestroys_eq inv.counted]
    refine ⟨Lru.remove sql l, ?_⟩
    by_cases inside : sql ∈ Lru.keys l
    · obtain ⟨item, x, y, split⟩ := Lru.exists_split inside
      have nodup := inv.counted.nodup
      have found : Lru.lookup sql l = some item := by
        rw [split] at nodup ⊢
        exact Lru.lookup_split nodup
      have cached := inv.cached (sql, item) (by simp [split])
      have own : s.stmts (handleOf item.data) = .live sql := cached.2
      rw [found, settle, destroy, cached.1, if_neg (show gIcd.dtor ≠ none by decide),
        finalize_live (s := { s with cache := c }) own]
      refine ⟨counted, ?_, inv.sound⟩
      intro e member
      obtain ⟨member, other⟩ := List.mem_filter.1 member
      refine (inv.cached e member).other _ ?_
      rw [own]
      intro same
      exact of_decide_eq_true other (StmtState.live.inj same).symm
    · rw [Lru.lookup_of_not_mem inside]
      refine ⟨counted, ?_, inv.sound⟩
      exact fun e member => inv.cached e (List.mem_of_mem_filter member)
  · obtain rfl := Option.some.inj ran
    exact ⟨l, inv⟩

end ChargerStack.Database.PreparedStmt
