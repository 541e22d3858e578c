/-
# Ocpp.Reassembly -- WebSocket messages out of receive events

`WebSocketClient::eventcb` gets a message in pieces: frames, each delivered in
one or more `LWS_CALLBACK_CLIENT_RECEIVE` events.  A message of one event goes
straight to the listener; any other is copied into a buffer that is allocated
once, on the first event, for that event's frame.

* `Message` is what libwebsockets delivers: nonempty frames of nonempty lists of
  chunks, and `Message.receives` the events it makes of them (`lws_is_first_fragment`
  on the first, `lws_is_final_fragment` on the last, `lws_remaining_packet_payload`
  the bytes of the current frame still to come);
* `Assembling` is the invariant of the buffer between two events of one message:
  it holds what has arrived, cut at the length of the first frame;
* `receiveAll_messages`: every message is handed over exactly once, as its *first
  frame* only;
* `reassembly_exact_iff`: so the listener gets the messages exactly when the
  frames after the first are all empty.
-/
import ChargerStack.Cxx.Basic

namespace ChargerStack.Ocpp.Reassembly

open Cxx

set_option autoImplicit false

/-! ## The receive path of `WebSocketClient` -/

/-- The members of `WebSocketClient` that the receive path reads and writes. -/
structure WebSocketClient where
  /-- `m_listener` is set. -/
  listener : Bool
  fragmentedFrame : Pointer
  fragmentedFrameSize : Nat
  fragmentedFrameIndex : Nat

/-- One `LWS_CALLBACK_CLIENT_RECEIVE`: the payload (`in`, `len`) and what the three
libwebsockets queries answer during it. -/
structure Receive where
  payload : List UInt8
  first : Bool
  final : Bool
  remaining : Nat

/-- The bytes of one `wsClientDataReceived(data, size)`. -/
abbrev Delivery := List Cell

namespace WebSocketClient

def releaseFragmentedFrame (c : WebSocketClient) : WebSocketClient :=
  { c with fragmentedFrame := none, fragmentedFrameSize := 0, fragmentedFrameIndex := 0 }

def beginFragmentedFrame (c : WebSocketClient) (frameSize : Nat) : WebSocketClient :=
  { c.releaseFragmentedFrame with
    fragmentedFrame := newBytes frameSize, fragmentedFrameSize := frameSize }

def appendFragmentedDate (c : WebSocketClient) (data : List UInt8) :
    Except Failure WebSocketClient := do
  let copyLen :=
    if c.fragmentedFrameSize ≤ sizeT (c.fragmentedFrameIndex + data.length) then
      sizeTSub c.fragmentedFrameSize c.fragmentedFrameIndex
    else data.length
  let frame ← memcpy c.fragmentedFrame c.fragmentedFrameIndex data copyLen
  return { c with
    fragmentedFrame := frame
    fragmentedFrameIndex := sizeT (c.fragmentedFrameIndex + copyLen) }

/-- The `LWS_CALLBACK_CLIENT_RECEIVE` case of `eventcb`, with the calls of
`wsClientDataReceived` it makes. -/
def receive (c : WebSocketClient) (e : Receive) :
    Except Failure (WebSocketClient × List Delivery) :=
  if c.listener then
    if e.first ∧ e.final then .ok (c, [e.payload.map some])
    else if e.first then do
      let c := c.beginFragmentedFrame (sizeT (e.payload.length + e.remaining))
      let c ← c.appendFragmentedDate e.payload
      return (c, [])
    else do
      let c ← c.appendFragmentedDate e.payload
      if e.final then
        return (c.releaseFragmentedFrame, [(c.fragmentedFrame.getD []).take c.fragmentedFrameSize])
      else return (c, [])
  else .ok (c, [])

/-- A run of receive events and everything it delivers, in order. -/
def receiveAll : WebSocketClient → List Receive → Except Failure (WebSocketClient × List Delivery)
  | c, [] => .ok (c, [])
  | c, e :: es => do
      let now ← c.receive e
      let later ← now.1.receiveAll es
      return (later.1, now.2 ++ later.2)

theorem receiveAll_cons_ok {c d : WebSocketClient} {e : Receive} {es : List Receive}
    {out : List Delivery} (ran : c.receive e = .ok (d, out)) :
    c.receiveAll (e :: es) = (d.receiveAll es).map fun r => (r.1, out ++ r.2) := by
  simp only [receiveAll, ran, bind, Except.bind, pure, Except.pure]
  cases d.receiveAll es <;> rfl

theorem receiveAll_append_ok {c d : WebSocketClient} {es fs : List Receive} {out : List Delivery}
    (ran : c.receiveAll es = .ok (d, out)) :
    c.receiveAll (es ++ fs) = (d.receiveAll fs).map fun r => (r.1, out ++ r.2) := by
  induction es generalizing c out with
  | nil =>
      simp only [receiveAll, Except.ok.injEq, Prod.mk.injEq] at ran
      obtain ⟨rfl, rfl⟩ := ran
      rw [List.nil_append]
      cases c.receiveAll fs <;> rfl
  | cons e es ih =>
      cases step : c.receive e with
      | error failure => simp [receiveAll, step, bind, Except.bind] at ran
      | ok now =>
          obtain ⟨m, first⟩ := now
          rw [receiveAll_cons_ok step] at ran
          cases rest : m.receiveAll es with
          | error failure => simp [rest, Except.map] at ran
          | ok later =>
              simp only [rest, Except.map, Except.ok.injEq, Prod.mk.injEq] at ran
              obtain ⟨rfl, rfl⟩ := ran
              rw [List.cons_append, receiveAll_cons_ok step, ih rest]
              cases later.1.receiveAll fs <;> simp [Except.map]

end WebSocketClient

/-! ## What libwebsockets delivers -/

/-- A frame and the chunks it arrives in.  The length field of a frame has 63
bits. -/
structure Frame where
  chunks : List (List UInt8)
  nonempty : chunks ≠ []
  fits : chunks.flatten.length < 2 ^ 63

def Frame.payload (f : Frame) : List UInt8 := f.chunks.flatten

/-- A message: a first frame and its continuation frames. -/
structure Message where
  head : Frame
  continuation : List Frame

/-- The chunks of a frame, each with the bytes of that frame still to come. -/
def pieces : List (List UInt8) → List (List UInt8 × Nat)
  | [] => []
  | chunk :: later => (chunk, later.flatten.length) :: pieces later

/-- The events of a list of pieces: `first` marks the first, the last is final. -/
def mark : Bool → List (List UInt8 × Nat) → List Receive
  | _, [] => []
  | first, [p] => [⟨p.1, first, true, p.2⟩]
  | first, p :: q :: rest => ⟨p.1, first, false, p.2⟩ :: mark false (q :: rest)

namespace Message

def payload (m : Message) : List UInt8 := m.head.payload ++ m.continuation.flatMap Frame.payload

def pieces (m : Message) : List (List UInt8 × Nat) :=
  Reassembly.pieces m.head.chunks ++ m.continuation.flatMap fun f => Reassembly.pieces f.chunks

def receives (m : Message) : List Receive := mark true m.pieces

end Message

theorem pieces_payload (chunks : List (List UInt8)) :
    (pieces chunks).flatMap Prod.fst = chunks.flatten := by
  induction chunks with
  | nil => rfl
  | cons chunk later ih => simp [pieces, ih]

theorem mem_pieces_length {chunks : List (List UInt8)} {p : List UInt8 × Nat}
    (member : p ∈ pieces chunks) : p.1.length ≤ chunks.flatten.length := by
  induction chunks with
  | nil => simp [pieces] at member
  | cons chunk later ih =>
      simp only [pieces, List.mem_cons] at member
      simp only [List.flatten_cons, List.length_append]
      rcases member with rfl | inLater
      · exact Nat.le_add_right _ _
      · exact Nat.le_trans (ih inLater) (Nat.le_add_left _ _)

theorem Message.pieces_payload (m : Message) : m.pieces.flatMap Prod.fst = m.payload := by
  have tail : ∀ fs : List Frame,
      (fs.flatMap fun f => Reassembly.pieces f.chunks).flatMap Prod.fst =
        fs.flatMap Frame.payload := by
    intro fs
    induction fs with
    | nil => rfl
    | cons f fs ih => simp [Reassembly.pieces_payload, ih, Frame.payload]
  simp [Message.pieces, Message.payload, Reassembly.pieces_payload, tail, Frame.payload]

theorem Message.mem_pieces_fits (m : Message) {p : List UInt8 × Nat} (member : p ∈ m.pieces) :
    p.1.length < 2 ^ 63 := by
  simp only [Message.pieces, List.mem_append, List.mem_flatMap] at member
  rcases member with inHead | ⟨f, -, inFrame⟩
  · exact Nat.lt_of_le_of_lt (mem_pieces_length inHead) m.head.fits
  · exact Nat.lt_of_le_of_lt (mem_pieces_length inFrame) f.fits

/-! ## The buffer between two events -/

/-- The buffer of a message whose first frame has `size` bytes, after `arrived`:
what arrived, cut at `size`, and the rest of the allocation still untouched. -/
structure Assembling (c : WebSocketClient) (size : Nat) (arrived : List UInt8) : Prop where
  listening : c.listener = true
  frame : c.fragmentedFrame =
    some ((arrived.take size).map some ++ List.replicate (size - arrived.length) none)
  frameSize : c.fragmentedFrameSize = size
  index : c.fragmentedFrameIndex = min arrived.length size

theorem assembling_begin {c : WebSocketClient} (listening : c.listener = true) (size : Nat) :
    Assembling (c.beginFragmentedFrame size) size [] :=
  ⟨listening, by simp [WebSocketClient.beginFragmentedFrame, newBytes], rfl, by
    simp [WebSocketClient.beginFragmentedFrame, WebSocketClient.releaseFragmentedFrame]⟩

/-- The number of bytes `appendFragmentedDate` copies: what fits. -/
theorem copyLen_eq {size index length : Nat} (le : index ≤ size) (small : size < 2 ^ 63)
    (fits : length < 2 ^ 63) :
    (if size ≤ sizeT (index + length) then sizeTSub size index else length) =
      min length (size - index) := by
  rw [sizeT_of_lt (by omega), sizeTSub_of_le le (by omega)]
  split <;> omega

/-- Copying what fits behind what is there. -/
theorem memcpy_assembling (arrived chunk : List UInt8) (size : Nat) :
    memcpy (some ((arrived.take size).map some ++ List.replicate (size - arrived.length) none))
        (min arrived.length size) chunk (min chunk.length (size - min arrived.length size)) =
      .ok (some (((arrived ++ chunk).take size).map some ++
        List.replicate (size - (arrived ++ chunk).length) none)) := by
  by_cases room : arrived.length < size
  · have before : min arrived.length size = arrived.length := by omega
    have whole : arrived.take size = arrived := List.take_of_length_le (by omega)
    rw [before, whole, List.take_append, whole, List.map_append, List.append_assoc]
    by_cases nothing : min chunk.length (size - arrived.length) = 0
    · have empty : chunk = [] := List.length_eq_zero_iff.1 (by omega)
      simp [memcpy, empty]
    · have inside : arrived.length + min chunk.length (size - arrived.length) ≤
          (arrived.map some ++ List.replicate (size - arrived.length) none : List Cell).length ∧
          min chunk.length (size - arrived.length) ≤ chunk.length := by
        simp only [List.length_append, List.length_map, List.length_replicate]
        omega
      have rest : size - arrived.length - min chunk.length (size - arrived.length) =
          size - (arrived ++ chunk).length := by
        simp only [List.length_append]
        omega
      simp only [memcpy, nothing, if_false, inside, and_self, if_true]
      rw [List.take_left' (by simp), List.drop_append, List.drop_of_length_le (by simp),
        List.length_map, Nat.add_sub_cancel_left, List.drop_replicate, rest, List.nil_append,
        ← List.append_assoc]
      congr 4
      rw [Nat.min_comm, ← List.take_take, List.take_length]
  · have full : min arrived.length size = size := by omega
    have same : (arrived ++ chunk).take size = arrived.take size :=
      List.take_append_of_le_length (by omega)
    have noRoom : size - arrived.length = 0 := by omega
    have noRoom' : size - (arrived.length + chunk.length) = 0 := by omega
    simp only [full, same, noRoom, noRoom', List.length_append, Nat.sub_self, Nat.min_zero, memcpy,
      if_true]

theorem Assembling.append {c : WebSocketClient} {size : Nat} {arrived : List UInt8}
    (assembling : Assembling c size arrived) (small : size < 2 ^ 63) (chunk : List UInt8)
    (fits : chunk.length < 2 ^ 63) :
    ∃ d, c.appendFragmentedDate chunk = .ok d ∧ Assembling d size (arrived ++ chunk) := by
  obtain ⟨listening, frame, frameSize, index⟩ := assembling
  have copied := memcpy_assembling arrived chunk size
  refine ⟨{ c with
    fragmentedFrame := _
    fragmentedFrameIndex := min (arrived ++ chunk).length size }, ?_, ⟨listening, rfl, frameSize, rfl⟩⟩
  simp only [WebSocketClient.appendFragmentedDate, frame, frameSize, index,
    copyLen_eq (Nat.min_le_right _ _) small fits, copied, bind, Except.bind, pure, Except.pure]
  congr 2
  rw [sizeT_of_lt (by omega)]
  simp only [List.length_append]
  omega

/-- The events of a message after its first: what is in the buffer in the end is
handed over once, and the buffer is released. -/
theorem receiveAll_mark {size : Nat} (small : size < 2 ^ 63) :
    ∀ (ps : List (List UInt8 × Nat)) (c : WebSocketClient) (arrived : List UInt8), ps ≠ [] →
      (∀ p ∈ ps, p.1.length < 2 ^ 63) → Assembling c size arrived →
      size ≤ (arrived ++ ps.flatMap Prod.fst).length →
      ∃ d, c.receiveAll (mark false ps) =
          .ok (d, [((arrived ++ ps.flatMap Prod.fst).take size).map some]) ∧ d.listener = true
  | [], _, _, nonempty, _, _, _ => absurd rfl nonempty
  | [p], c, arrived, _, fits, assembling, enough => by
      obtain ⟨d, appended, assembled⟩ := assembling.append small p.1 (fits p (by simp))
      have whole : size - (arrived.length + p.1.length) = 0 := by
        simp only [List.flatMap_singleton, List.length_append] at enough
        omega
      refine ⟨d.releaseFragmentedFrame, ?_, assembled.listening⟩
      have last : c.receive ⟨p.1, false, true, p.2⟩ =
          .ok (d.releaseFragmentedFrame, [((arrived ++ p.1).take size).map some]) := by
        simp [WebSocketClient.receive, assembling.listening, appended, bind, Except.bind, pure,
          Except.pure, assembled.frame, assembled.frameSize, whole, List.map_take, List.take_take]
      rw [mark, WebSocketClient.receiveAll_cons_ok last]
      simp [WebSocketClient.receiveAll, Except.map]
  | p :: q :: rest, c, arrived, _, fits, assembling, enough => by
      obtain ⟨d, appended, assembled⟩ := assembling.append small p.1 (fits p (by simp))
      have middle : c.receive ⟨p.1, false, false, p.2⟩ = .ok (d, []) := by
        simp [WebSocketClient.receive, assembling.listening, appended, bind, Except.bind, pure,
          Except.pure]
      obtain ⟨e, ran, listening⟩ := receiveAll_mark small (q :: rest) d (arrived ++ p.1) (by simp)
        (fun r inRest => fits r (List.mem_cons_of_mem _ inRest)) assembled
        (by simpa [List.append_assoc] using enough)
      refine ⟨e, ?_, listening⟩
      rw [mark, WebSocketClient.receiveAll_cons_ok middle, ran]
      simp [Except.map, List.append_assoc]

/-! ## Messages -/

/-- The first event of a message. -/
theorem Message.pieces_eq (m : Message) : ∃ chunk later rest, m.head.chunks = chunk :: later ∧
    m.pieces = (chunk, later.flatten.length) :: rest ∧ chunk ++ rest.flatMap Prod.fst = m.payload := by
  obtain ⟨chunk, later, shape⟩ := List.exists_cons_of_ne_nil m.head.nonempty
  have split : m.pieces = (chunk, later.flatten.length) :: (Reassembly.pieces later ++
      m.continuation.flatMap fun f => Reassembly.pieces f.chunks) := by
    rw [Message.pieces, shape]
    rfl
  refine ⟨chunk, later, _, shape, split, ?_⟩
  rw [← m.pieces_payload, split, List.flatMap_cons]

/-- A message of one event is its first frame, and that one chunk. -/
theorem Message.head_of_single {m : Message} {chunk : List UInt8} {later : List (List UInt8)}
    (shape : m.head.chunks = chunk :: later) (single : chunk = m.payload) :
    m.head.payload = chunk := by
  have head : m.head.payload = chunk ++ later.flatten := by
    rw [Frame.payload, shape, List.flatten_cons]
  have lengths := congrArg List.length single
  rw [Message.payload, head, List.length_append, List.length_append] at lengths
  have empty : later.flatten = [] := List.length_eq_zero_iff.1 (by omega)
  rw [head, empty, List.append_nil]

/-- **One message, one delivery, of its first frame.** -/
theorem receiveAll_message (m : Message) {c : WebSocketClient} (listening : c.listener = true) :
    ∃ d, c.receiveAll m.receives = .ok (d, [m.head.payload.map some]) ∧ d.listener = true := by
  obtain ⟨chunk, later, rest, shape, total, payload⟩ := m.pieces_eq
  have small : m.head.payload.length < 2 ^ 63 := m.head.fits
  have size : sizeT (chunk.length + later.flatten.length) = m.head.payload.length := by
    rw [Frame.payload, shape, List.flatten_cons, List.length_append, sizeT_of_lt]
    rw [Frame.payload, shape, List.flatten_cons, List.length_append] at small
    omega
  cases rest with
  | nil =>
      -- One event: it goes straight to the listener.
      rw [List.flatMap_nil, List.append_nil] at payload
      refine ⟨c, ?_, listening⟩
      rw [Message.receives, total, mark, Message.head_of_single shape payload]
      simp [WebSocketClient.receiveAll, WebSocketClient.receive, listening, bind, Except.bind, pure,
        Except.pure]
  | cons q qs =>
      have fits : ∀ p ∈ m.pieces, p.1.length < 2 ^ 63 := by
        intro p inside
        exact m.mem_pieces_fits inside
      rw [total] at fits
      obtain ⟨d, appended, assembled⟩ :=
        (assembling_begin listening m.head.payload.length).append small chunk
          (fits _ List.mem_cons_self)
      have first : c.receive ⟨chunk, true, false, later.flatten.length⟩ = .ok (d, []) := by
        simp only [WebSocketClient.receive, listening, if_true, Bool.false_eq_true, and_false,
          if_false, size, appended, bind, Except.bind, pure, Except.pure]
      have enough : m.head.payload.length ≤ ([] ++ chunk ++ (q :: qs).flatMap Prod.fst).length := by
        rw [List.nil_append, payload, Message.payload, List.length_append]
        omega
      obtain ⟨e, ran, still⟩ := receiveAll_mark small (q :: qs) d ([] ++ chunk) (by simp)
        (fun p inside => fits p (List.mem_cons_of_mem _ inside)) assembled enough
      refine ⟨e, ?_, still⟩
      rw [Message.receives, total, mark, WebSocketClient.receiveAll_cons_ok first, ran,
        List.nil_append, payload, Message.payload, List.take_left]
      rfl

/-- **Every message is handed over exactly once, and what is handed over is its
first frame.**  Nothing is assumed of the buffer the connection starts with. -/
theorem receiveAll_messages :
    ∀ (ms : List Message) {c : WebSocketClient}, c.listener = true →
      ∃ d, c.receiveAll (ms.flatMap Message.receives) =
        .ok (d, ms.map fun m => m.head.payload.map some)
  | [], c, _ => ⟨c, rfl⟩
  | m :: ms, c, listening => by
      obtain ⟨d, ran, still⟩ := receiveAll_message m listening
      obtain ⟨e, later⟩ := receiveAll_messages ms still
      refine ⟨e, ?_⟩
      rw [List.flatMap_cons, WebSocketClient.receiveAll_append_ok ran, later]
      rfl

/-- The deliveries of a connection's messages, from any state with a listener. -/
def deliveries (c : WebSocketClient) (ms : List Message) : Except Failure (List Delivery) :=
  (({ c with listener := true } : WebSocketClient).receiveAll (ms.flatMap Message.receives)).map
    Prod.snd

theorem head_eq_payload_iff (m : Message) :
    m.head.payload.map some = m.payload.map (some : UInt8 → Cell) ↔
      ∀ f ∈ m.continuation, f.payload = [] := by
  rw [List.map_inj_right fun _ _ => Option.some.inj, Message.payload]
  constructor
  · intro same
    have none_ : m.continuation.flatMap Frame.payload = [] := by
      have := congrArg List.length same
      rw [List.length_append] at this
      exact List.length_eq_zero_iff.1 (by omega)
    exact List.flatMap_eq_nil_iff.1 none_
  · intro empty
    rw [List.flatMap_eq_nil_iff.2 empty, List.append_nil]

/-- **Reassembly is exact iff nothing has to be reassembled across frames**: each
message is handed over once, as the concatenation of its event payloads, for
every message of the connection exactly when the frames after the first frame of
each of them are empty. -/
theorem reassembly_exact_iff (c : WebSocketClient) (ms : List Message) :
    deliveries c ms = .ok (ms.map fun m => m.payload.map some) ↔
      ∀ m ∈ ms, ∀ f ∈ m.continuation, f.payload = [] := by
  obtain ⟨d, ran⟩ := receiveAll_messages ms (c := { c with listener := true }) rfl
  rw [deliveries, ran]
  simp only [Except.map, Except.ok.injEq, List.map_inj_left, head_eq_payload_iff]

/-- The shortest message that loses a byte: one byte in each of two frames. -/
def oneByteFrames : Message :=
  ⟨⟨[[1]], by decide, by decide⟩, [⟨[[2]], by decide, by decide⟩]⟩

/-- The listener gets `[1]` for the message `[1, 2]`. -/
theorem reassembly_drops_second_frame :
    deliveries ⟨true, none, 0, 0⟩ [oneByteFrames] = .ok [[some 1]] ∧
      deliveries ⟨true, none, 0, 0⟩ [oneByteFrames] ≠
        .ok ([oneByteFrames].map fun m => m.payload.map some) := by
  have got : deliveries ⟨true, none, 0, 0⟩ [oneByteFrames] = .ok [[some 1]] := rfl
  refine ⟨got, ?_⟩
  rw [got]
  simp [oneByteFrames, Message.payload, Frame.payload]

end ChargerStack.Ocpp.Reassembly
