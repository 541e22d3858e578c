/-
# Utils.CanLog -- the double buffer of utils/my_candump.c

The thread that reads the bus fills one of two buffers of 20 messages and goes over to the other
when it is full; the thread that writes the file empties the buffer that is not being filled,
which it finds as `1 - cur_buf_index`.  Both hold the lock for a whole push or a whole
buffer.

* `Batches` is what the buffers are for: the messages pushed so far, cut into batches of 20,
  and the batches that have been written;
* `Represents.push` and `Represents.write`: the two buffers with their counters are such a
  log, step by step;
* `log_in_batches`: what is written is a sequence of whole batches in their order, and a batch
  is among them exactly if the writer ran between the switch away from its buffer and the
  switch back to it.
-/
import Mathlib.Logic.Function.Basic
import ChargerStack.Lib.Run

namespace ChargerStack.Utils.CanLog

open ChargerStack.Lib

set_option autoImplicit false

/-! ## The buffers -/

/-- `MAX_LOG_MSG_LEN`. -/
def maxLogMsgLen : Nat := 77

/-- `INIT_LOG_QUEUE_SIZE`. -/
def initLogQueueSize : Nat := 20

/-- A C string that fits into a place of a buffer with its NUL. -/
structure LogMsg where
  text : List UInt8
  short : text.length < maxLogMsgLen
  nulFree : 0 ∉ text

/-- `log_queue_t`: two buffers, which of them is filled, the place to fill next, and the number of
messages in each. -/
structure LogQueue where
  logMsgQueue : Nat → Nat → List UInt8
  curBufIndex : Nat
  writeIndex : Nat
  cnt : Nat → Nat

/-- A `log_queue_t` of zeros. -/
def zeroed : LogQueue := ⟨fun _ _ => List.replicate maxLogMsgLen 0, 0, 0, fun _ => 0⟩

/-- `strncpy` into `n` bytes, which pads with NULs. -/
def strncpy (src : List UInt8) (n : Nat) : List UInt8 :=
  src.take n ++ List.replicate (n - src.length) 0

/-- The bytes that `strlen` counts. -/
def cText (bytes : List UInt8) : List UInt8 := bytes.takeWhile (· ≠ 0)

/-- The message at a place of a buffer. -/
def LogQueue.text (q : LogQueue) (buffer i : Nat) : List UInt8 := cText (q.logMsgQueue buffer i)

/-- The switch of `double_buffer_push` to the other buffer. -/
def switchBuffer (q : LogQueue) : LogQueue :=
  { q with
    curBufIndex := 1 - q.curBufIndex
    cnt := Function.update q.cnt (1 - q.curBufIndex) 0
    writeIndex := 0 }

/-- The message is stored in the buffer that is filled. -/
def storeMsg (msg : List UInt8) (q : LogQueue) : LogQueue :=
  { q with
    logMsgQueue := Function.update q.logMsgQueue q.curBufIndex
      (Function.update (q.logMsgQueue q.curBufIndex) q.writeIndex (strncpy msg maxLogMsgLen))
    cnt := Function.update q.cnt q.curBufIndex (q.cnt q.curBufIndex + 1)
    writeIndex := (q.writeIndex + 1) % initLogQueueSize }

/-- `double_buffer_push`. -/
def doubleBufferPush (msg : List UInt8) (q : LogQueue) : LogQueue :=
  storeMsg msg (if initLogQueueSize ≤ q.cnt q.curBufIndex then switchBuffer q else q)

/-- One turn of the loop of `log_write_pthread`, which waits while there is nothing in the other
buffer: the queue, and the messages written to the file. -/
def logWritePthread (q : LogQueue) : Option (LogQueue × List (List UInt8)) :=
  let back := 1 - q.curBufIndex
  if q.cnt back = 0 then none
  else some ({ q with cnt := Function.update q.cnt back 0 }, (List.range (q.cnt back)).map (q.text back))

inductive Label where
  | push (msg : LogMsg)
  | write

def step (q : LogQueue) : Label → Option LogQueue
  | .push msg => some (doubleBufferPush msg.text q)
  | .write => (logWritePthread q).map Prod.fst

/-- The messages that a step writes. -/
def output (q : LogQueue) : Label → Option (List (List UInt8))
  | .push _ => none
  | .write => (logWritePthread q).map Prod.snd

/-! ## The log as batches -/

/-- The messages so far, and the batches of 20 of them that were written. -/
structure Batches where
  pushed : List (List UInt8)
  written : List Nat

/-- The messages of a batch. -/
def batch (pushed : List (List UInt8)) (k : Nat) : List (List UInt8) := (pushed.drop (20 * k)).take 20

/-- The batch that is being filled. -/
def Batches.current (a : Batches) : Nat := (a.pushed.length - 1) / 20

/-- A push goes to the end; the batch before the current one is written, if it has not been. -/
def batchStep (a : Batches) : Label → Option Batches
  | .push msg => some { a with pushed := a.pushed ++ [msg.text] }
  | .write =>
      if 0 < a.current ∧ a.current - 1 ∉ a.written then
        some { a with written := a.written ++ [a.current - 1] }
      else none

def batchOutput (a : Batches) : Label → Option (List (List UInt8))
  | .push _ => none
  | .write => some (batch a.pushed (a.current - 1))

/-- The buffer that is not filled holds nothing, or the batch before, which is still to be
written. -/
def BackHolds (q : LogQueue) (a : Batches) : Prop :=
  (q.cnt (1 - q.curBufIndex) = 0 ∧ (0 < a.current → a.current - 1 ∈ a.written)) ∨
    (q.cnt (1 - q.curBufIndex) = 20 ∧ 0 < a.current ∧ a.current - 1 ∉ a.written ∧
      ∀ i, i < 20 → a.pushed[20 * (a.current - 1) + i]? = some (q.text (1 - q.curBufIndex) i))

/-- The buffers hold the end of the log. -/
structure Represents (q : LogQueue) (a : Batches) : Prop where
  cur : q.curBufIndex = a.current % 2
  cnt : q.cnt q.curBufIndex = a.pushed.length - 20 * a.current
  index : q.writeIndex = (a.pushed.length - 20 * a.current) % 20
  front : ∀ i, 20 * a.current + i < a.pushed.length →
    a.pushed[20 * a.current + i]? = some (q.text q.curBufIndex i)
  back : BackHolds q a
  written : ∀ k ∈ a.written, k < a.current

variable {q : LogQueue} {a : Batches} {msg : LogMsg} {labs : List Label}

/-- A message is read back as it was stored. -/
theorem cText_strncpy (msg : LogMsg) : cText (strncpy msg.text maxLogMsgLen) = msg.text := by
  have short := msg.short
  have pad : maxLogMsgLen - msg.text.length = (maxLogMsgLen - msg.text.length - 1) + 1 := by omega
  have all : ∀ b ∈ msg.text, decide (b ≠ 0) = true := by
    intro b member
    exact decide_eq_true fun zero => msg.nulFree (zero ▸ member)
  rw [cText, strncpy, List.take_of_length_le (Nat.le_of_lt short), pad, List.replicate_succ,
    List.takeWhile_append_of_pos all]
  simp

@[simp] theorem storeMsg_curBufIndex (text : List UInt8) (q : LogQueue) :
    (storeMsg text q).curBufIndex = q.curBufIndex := rfl

theorem storeMsg_writeIndex (text : List UInt8) (q : LogQueue) :
    (storeMsg text q).writeIndex = (q.writeIndex + 1) % 20 := rfl

@[simp] theorem storeMsg_cnt (text : List UInt8) (q : LogQueue) :
    (storeMsg text q).cnt q.curBufIndex = q.cnt q.curBufIndex + 1 := Function.update_self ..

theorem storeMsg_cnt_other {buffer : Nat} (text : List UInt8) (other : buffer ≠ q.curBufIndex) :
    (storeMsg text q).cnt buffer = q.cnt buffer := Function.update_of_ne other ..

@[simp] theorem switchBuffer_curBufIndex (q : LogQueue) :
    (switchBuffer q).curBufIndex = 1 - q.curBufIndex := rfl

@[simp] theorem switchBuffer_writeIndex (q : LogQueue) : (switchBuffer q).writeIndex = 0 := rfl

@[simp] theorem switchBuffer_cnt (q : LogQueue) : (switchBuffer q).cnt (1 - q.curBufIndex) = 0 :=
  Function.update_self ..

theorem switchBuffer_cnt_other {buffer : Nat} (other : buffer ≠ 1 - q.curBufIndex) :
    (switchBuffer q).cnt buffer = q.cnt buffer := Function.update_of_ne other ..

@[simp] theorem switchBuffer_text (q : LogQueue) : (switchBuffer q).text = q.text := rfl

theorem text_storeMsg (buffer i : Nat) :
    (storeMsg msg.text q).text buffer i =
      if buffer = q.curBufIndex ∧ i = q.writeIndex then msg.text else q.text buffer i := by
  unfold LogQueue.text storeMsg
  dsimp only
  by_cases here : buffer = q.curBufIndex
  · subst here
    rw [Function.update_self]
    by_cases place : i = q.writeIndex
    · subst place
      rw [Function.update_self, if_pos ⟨rfl, rfl⟩, cText_strncpy]
    · rw [Function.update_of_ne place, if_neg (fun both => place both.2)]
  · rw [Function.update_of_ne here, if_neg (fun both => here both.1)]

/-- What is in the log stays there. -/
theorem getElem_append_log {pushed : List (List UInt8)} {i : Nat} {text : List UInt8}
    (inside : pushed[i]? = some text) (more : List (List UInt8)) :
    (pushed ++ more)[i]? = some text := by
  rw [List.getElem?_append_left (List.getElem?_eq_some_iff.1 inside).1]
  exact inside

theorem getElem_last_log (pushed : List (List UInt8)) (text : List UInt8) :
    (pushed ++ [text])[pushed.length]? = some text := by
  rw [List.getElem?_append_right (Nat.le_refl _), Nat.sub_self]
  rfl

theorem represents_zeroed : Represents zeroed ⟨[], []⟩ :=
  ⟨rfl, rfl, rfl, fun _ inside => absurd inside (Nat.not_lt_zero _),
    .inl ⟨rfl, fun none => absurd none (Nat.lt_irrefl 0)⟩, fun _ member => absurd member List.not_mem_nil⟩

theorem current_push (a : Batches) (text : List UInt8) :
    Batches.current { a with pushed := a.pushed ++ [text] } = a.pushed.length / 20 := by
  rw [Batches.current, List.length_append, List.length_singleton, Nat.add_sub_cancel]

/-- **A push into a buffer that is full** begins a batch in the other buffer, whatever is left
there. -/
theorem Represents.pushFull (rep : Represents q a) (full : 20 ≤ q.cnt q.curBufIndex) :
    Represents (storeMsg msg.text (switchBuffer q)) { a with pushed := a.pushed ++ [msg.text] } := by
  have cnt := rep.cnt
  have cur := rep.cur
  have place : a.current = (a.pushed.length - 1) / 20 := rfl
  have current := current_push a msg.text
  have length : a.pushed.length = 20 * a.current + 20 := by omega
  have next : Batches.current { a with pushed := a.pushed ++ [msg.text] } = a.current + 1 := by omega
  clear place current
  have other : 1 - (1 - q.curBufIndex) = q.curBufIndex := by omega
  have apart : q.curBufIndex ≠ 1 - q.curBufIndex := by omega
  have pushedLength : (a.pushed ++ [msg.text]).length = a.pushed.length + 1 := by simp
  have started : (storeMsg msg.text (switchBuffer q)).cnt (1 - q.curBufIndex) = 1 := by
    rw [← switchBuffer_curBufIndex, storeMsg_cnt, switchBuffer_curBufIndex, switchBuffer_cnt]
  have left : (storeMsg msg.text (switchBuffer q)).cnt q.curBufIndex = q.cnt q.curBufIndex := by
    rw [storeMsg_cnt_other _ apart, switchBuffer_cnt_other apart]
  refine ⟨?_, ?_, ?_, ?_, .inr ⟨?_, ?_, ?_, ?_⟩, ?_⟩
  · rw [storeMsg_curBufIndex, switchBuffer_curBufIndex]
    omega
  · rw [storeMsg_curBufIndex, switchBuffer_curBufIndex, started, next, pushedLength]
    omega
  · rw [storeMsg_writeIndex, switchBuffer_writeIndex, next, pushedLength]
    omega
  · intro i inside
    rw [next, pushedLength] at inside
    obtain rfl : i = 0 := by omega
    rw [next, text_storeMsg, if_pos ⟨rfl, rfl⟩, show 20 * (a.current + 1) + 0 = a.pushed.length by omega]
    exact getElem_last_log a.pushed msg.text
  · rw [storeMsg_curBufIndex, switchBuffer_curBufIndex, other, left]
    omega
  · omega
  · rw [next, Nat.add_sub_cancel]
    exact fun member => Nat.lt_irrefl _ (rep.written _ member)
  · intro i inside
    rw [next, Nat.add_sub_cancel, storeMsg_curBufIndex, switchBuffer_curBufIndex, other, text_storeMsg,
      switchBuffer_curBufIndex, if_neg (fun both => apart both.1), switchBuffer_text]
    exact getElem_append_log (rep.front i (by omega)) _
  · intro k member
    have less := rep.written k member
    omega

/-- **A push into a buffer with room** goes on with its batch. -/
theorem Represents.pushRoom (rep : Represents q a) (room : q.cnt q.curBufIndex < 20) :
    Represents (storeMsg msg.text q) { a with pushed := a.pushed ++ [msg.text] } := by
  have cnt := rep.cnt
  have cur := rep.cur
  have index := rep.index
  have place : a.current = (a.pushed.length - 1) / 20 := rfl
  have current := current_push a msg.text
  have next : Batches.current { a with pushed := a.pushed ++ [msg.text] } = a.current := by omega
  have started : 20 * a.current ≤ a.pushed.length := by omega
  clear place current
  have apart : 1 - q.curBufIndex ≠ q.curBufIndex := by omega
  have pushedLength : (a.pushed ++ [msg.text]).length = a.pushed.length + 1 := by simp
  refine ⟨?_, ?_, ?_, ?_, ?_, ?_⟩
  · rw [next]
    exact cur
  · rw [storeMsg_curBufIndex, storeMsg_cnt, next, pushedLength]
    omega
  · rw [storeMsg_writeIndex, next, pushedLength]
    omega
  · intro i inside
    rw [next, pushedLength] at inside
    rw [next, storeMsg_curBufIndex, text_storeMsg]
    by_cases last : i = q.writeIndex
    · rw [if_pos ⟨rfl, last⟩, show 20 * a.current + i = a.pushed.length by omega]
      exact getElem_last_log a.pushed msg.text
    · rw [if_neg (fun both => last both.2)]
      exact getElem_append_log (rep.front i (by omega)) _
  · unfold BackHolds
    rw [next, storeMsg_curBufIndex, storeMsg_cnt_other _ apart]
    rcases rep.back with empty | ⟨whole, some, unwritten, texts⟩
    · exact .inl empty
    · refine .inr ⟨whole, some, unwritten, ?_⟩
      intro i inside
      rw [text_storeMsg, if_neg (fun both => apart both.1)]
      exact getElem_append_log (texts i inside) _
  · rw [next]
    exact rep.written

theorem Represents.push (rep : Represents q a) (msg : LogMsg) :
    Represents (doubleBufferPush msg.text q) { a with pushed := a.pushed ++ [msg.text] } := by
  unfold doubleBufferPush
  split
  · rename_i full
    exact rep.pushFull full
  · rename_i room
    exact rep.pushRoom (Nat.not_le.1 room)

/-- Places that hold the messages of a batch, one after the other. -/
theorem batch_eq_texts {pushed : List (List UInt8)} {k : Nat} {text : Nat → List UInt8}
    (texts : ∀ i, i < 20 → pushed[20 * k + i]? = some (text i)) :
    (List.range 20).map text = batch pushed k := by
  refine List.ext_getElem? ?_
  intro i
  rw [batch, List.getElem?_take, List.getElem?_drop, List.getElem?_map]
  by_cases inside : i < 20
  · rw [if_pos inside, texts i inside, List.getElem?_range inside]
    rfl
  · rw [if_neg inside, List.getElem?_eq_none (by simpa using inside)]
    rfl

/-- **The writer** empties the other buffer: the batch before the current one, if it is still
there. -/
theorem Represents.write {q' : LogQueue} {texts : List (List UInt8)} (rep : Represents q a)
    (ran : logWritePthread q = some (q', texts)) :
    0 < a.current ∧ a.current - 1 ∉ a.written ∧ texts = batch a.pushed (a.current - 1) ∧
      Represents q' { a with written := a.written ++ [a.current - 1] } := by
  obtain ⟨nonempty, ran⟩ := Option.ite_none_left_eq_some.1 ran
  obtain ⟨rfl, rfl⟩ := Prod.mk.inj (Option.some.inj ran)
  obtain ⟨whole, some, unwritten, stored⟩ := rep.back.resolve_left fun empty => nonempty empty.1
  have cur := rep.cur
  have apart : q.curBufIndex ≠ 1 - q.curBufIndex := by omega
  refine ⟨some, unwritten, ?_, ⟨cur, ?_, rep.index, rep.front, .inl ⟨?_, ?_⟩, ?_⟩⟩
  · rw [whole]
    exact batch_eq_texts stored
  · exact (Function.update_of_ne apart ..).trans rep.cnt
  · exact Function.update_self ..
  · exact fun _ => List.mem_append_right _ (List.mem_singleton.2 rfl)
  · intro k member
    rcases List.mem_append.1 member with before | last
    · exact rep.written k before
    · rw [List.mem_singleton.1 last]
      exact Nat.sub_lt some Nat.one_pos

/-- The two buffers refine the log. -/
theorem Represents.step {q' : LogQueue} {lab : Label} (rep : Represents q a)
    (moved : step q lab = some q') :
    output q lab = batchOutput a lab ∧ ∃ a', batchStep a lab = some a' ∧ Represents q' a' := by
  cases lab with
  | push msg =>
      obtain rfl := Option.some.inj moved
      exact ⟨rfl, _, rfl, rep.push msg⟩
  | write =>
      obtain ⟨⟨next, texts⟩, ran, rfl⟩ := Option.map_eq_some_iff.1 moved
      obtain ⟨some, unwritten, rfl, rep'⟩ := rep.write ran
      have enabled : batchStep a .write = .some { a with written := a.written ++ [a.current - 1] } :=
        if_pos ⟨some, unwritten⟩
      refine ⟨?_, _, enabled, rep'⟩
      rw [output, ran]
      rfl

/-! ## Runs of the log -/

/-- The messages that a run pushes. -/
def pushedBy (labs : List Label) : List (List UInt8) :=
  labs.filterMap fun
    | .push msg => some msg.text
    | .write => none

/-- The writer ran after the push that switched away from the buffer of batch `k` and before the
push, 20 messages later, that switched back to it. -/
def WriterRan (labs : List Label) (k : Nat) : Prop :=
  ∃ before after, labs = before ++ .write :: after ∧
    20 * (k + 1) < (pushedBy before).length ∧ (pushedBy before).length ≤ 20 * (k + 2)

theorem pushedBy_snoc_push (labs : List Label) (msg : LogMsg) :
    pushedBy (labs ++ [.push msg]) = pushedBy labs ++ [msg.text] := by
  rw [pushedBy, List.filterMap_append]
  rfl

theorem pushedBy_snoc_write (labs : List Label) : pushedBy (labs ++ [.write]) = pushedBy labs := by
  rw [pushedBy, List.filterMap_append]
  exact List.append_nil _

/-- Where the writer can have run in a run with one step more. -/
theorem writerRan_snoc {lab : Label} {k : Nat} :
    WriterRan (labs ++ [lab]) k ↔ WriterRan labs k ∨
      (lab = .write ∧ 20 * (k + 1) < (pushedBy labs).length ∧ (pushedBy labs).length ≤ 20 * (k + 2)) := by
  constructor
  · rintro ⟨before, after, split, low, high⟩
    rcases List.eq_nil_or_concat after with rfl | ⟨rest, last, rfl⟩
    · obtain ⟨rfl, same⟩ := List.append_inj' split rfl
      exact .inr ⟨(List.cons.inj same).1, low, high⟩
    · rw [List.concat_eq_append, ← List.cons_append, ← List.append_assoc] at split
      obtain ⟨rfl, -⟩ := List.append_inj' split rfl
      exact .inl ⟨before, rest, rfl, low, high⟩
  · rintro (⟨before, after, rfl, low, high⟩ | ⟨rfl, low, high⟩)
    · exact ⟨before, after ++ [lab], by simp, low, high⟩
    · exact ⟨labs, [], rfl, low, high⟩

/-- A batch that is complete does not change. -/
theorem batch_append {pushed : List (List UInt8)} {k : Nat} (complete : 20 * (k + 1) ≤ pushed.length)
    (more : List (List UInt8)) : batch (pushed ++ more) k = batch pushed k := by
  rw [batch, batch, List.drop_append_of_le_length (by omega), List.take_append_of_le_length]
  rw [List.length_drop]
  omega

/-- What a run of the log has done. -/
structure InBatches (labs : List Label) (a : Batches) : Prop where
  pushed : a.pushed = pushedBy labs
  sorted : a.written.Pairwise (· < ·)
  complete : ∀ k ∈ a.written, k < a.current
  ran : ∀ k, k ∈ a.written ↔ WriterRan labs k
  output : observe batchStep batchOutput ⟨[], []⟩ labs = a.written.map (batch a.pushed)

theorem inBatches_run {a : Batches} (ran : exec batchStep ⟨[], []⟩ labs = some a) : InBatches labs a := by
  refine exec_induction ?_ ?_ ran
  · refine ⟨rfl, List.Pairwise.nil, fun k member => absurd member List.not_mem_nil, ?_, rfl⟩
    intro k
    constructor
    · intro member
      cases member
    · rintro ⟨before, after, split, -⟩
      simp at split
  · intro labs lab a a' ran inv moved
    have place : a.current = (a.pushed.length - 1) / 20 := rfl
    cases lab with
    | push msg =>
        obtain rfl := Option.some.inj moved
        have current := current_push a msg.text
        refine ⟨?_, inv.sorted, ?_, ?_, ?_⟩
        · rw [pushedBy_snoc_push, ← inv.pushed]
        · intro k member
          have less := inv.complete k member
          omega
        · intro k
          rw [writerRan_snoc, ← inv.ran k]
          simp
        · rw [observe_snoc ran moved, inv.output]
          refine (List.append_nil _).trans (List.map_congr_left ?_)
          intro k member
          have less := inv.complete k member
          exact (batch_append (by omega) _).symm
    | write =>
        obtain ⟨⟨some, unwritten⟩, same⟩ := Option.ite_none_right_eq_some.1 moved
        obtain rfl := Option.some.inj same
        refine ⟨?_, ?_, ?_, ?_, ?_⟩
        · rw [pushedBy_snoc_write, ← inv.pushed]
        · rw [List.pairwise_append]
          refine ⟨inv.sorted, List.pairwise_singleton _ _, ?_⟩
          intro k member l last
          have less := inv.complete k member
          have other : k ≠ a.current - 1 := fun same => unwritten (same ▸ member)
          rw [List.mem_singleton.1 last]
          omega
        · intro k member
          rcases List.mem_append.1 member with before | last
          · exact inv.complete k before
          · rw [List.mem_singleton.1 last]
            exact Nat.sub_lt some Nat.one_pos
        · intro k
          rw [writerRan_snoc, ← inv.ran k, ← inv.pushed]
          simp only [List.mem_append, List.mem_singleton, true_and]
          refine or_congr Iff.rfl ?_
          constructor
          · rintro rfl
            omega
          · intro window
            omega
        · rw [observe_snoc ran moved, inv.output, List.map_append]
          rfl

/-- **The log is written in batches.**  The writer writes whole batches of 20 consecutive
messages, in their order and none twice, and it writes exactly those batches for which it
runs between the push that switches away from their buffer and the push that switches back. -/
theorem log_in_batches (labs : List Label) (q : LogQueue) (ran : exec step zeroed labs = some q) :
    ∃ ks : List Nat, ks.Pairwise (· < ·) ∧
      (∀ k ∈ ks, 20 * (k + 1) ≤ (pushedBy labs).length ∧ (batch (pushedBy labs) k).length = 20) ∧
      (observe step output zeroed labs).flatten = ks.flatMap (batch (pushedBy labs)) ∧
      ∀ k, k ∈ ks ↔ WriterRan labs k := by
  have matched : ∀ q a lab q', True → Represents q a → step q lab = some q' →
      output q lab = batchOutput a (id lab) ∧
        ∃ a', batchStep a (id lab) = some a' ∧ Represents q' a' :=
    fun q a lab q' _ rep moved => rep.step moved
  obtain ⟨same, a, ran', -⟩ := exec_simulation (f := id) (C := fun _ _ => True) matched
    (along_of_labels (fun _ _ _ => trivial) zeroed) represents_zeroed ran
  rw [List.map_id] at same ran'
  have inv := inBatches_run ran'
  refine ⟨a.written, inv.sorted, ?_, ?_, inv.ran⟩
  · intro k member
    have less := inv.complete k member
    have place : a.current = ((pushedBy labs).length - 1) / 20 := by rw [← inv.pushed]; rfl
    have complete : 20 * (k + 1) ≤ (pushedBy labs).length := by omega
    refine ⟨complete, ?_⟩
    rw [batch, List.length_take, List.length_drop]
    omega
  · rw [same, inv.output, inv.pushed, List.flatMap_def]

/-- 21 pushes of one message, a turn of the writer, 20 pushes more and another turn. -/
def twoTurns : List Label :=
  let msg : LogMsg := ⟨[65], by decide, by decide⟩
  List.replicate 21 (.push msg) ++ .write :: (List.replicate 20 (.push msg) ++ [.write])

theorem twoTurns_in_batches :
    ∃ q ks, exec step zeroed twoTurns = some q ∧
      (observe step output zeroed twoTurns).flatten = List.replicate 40 [65] ∧
      (observe step output zeroed twoTurns).flatten = List.flatMap (batch (pushedBy twoTurns)) ks := by
  have enabled : (exec step zeroed twoTurns).isSome = true := by decide +kernel
  obtain ⟨q, ran⟩ := Option.isSome_iff_exists.1 enabled
  obtain ⟨ks, -, -, written, -⟩ := log_in_batches twoTurns q ran
  exact ⟨q, ks, ran, by decide +kernel, written⟩

end ChargerStack.Utils.CanLog
