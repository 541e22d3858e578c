/-
# Ocpp.FragmentBuffer -- the buffer of the receive path, whatever the server sends

Flags and lengths of the receive events are the server's: a continuation can come without a
first event, a first event can interrupt a message, and the remaining length can be any
`size_t`, so that the size of the buffer wraps.

* `receiveEvent` is one event with what the memory answers to `new uint8_t[]`: nothing larger
  than `PTRDIFF_MAX` is ever allocated, and what is not allocated throws out of the callback;
* `Sound` is the invariant of the three members between two events, and
  `Sound.append` what a copy does under it;
* `fragments_inBuffer`: over any sequence of events the buffer has its size, the index stays
  within it, and so does every copy.
-/
import ChargerStack.Ocpp.Reassembly
import ChargerStack.Lib.Run

namespace ChargerStack.Ocpp.Reassembly

open ChargerStack.Cxx
open ChargerStack.Lib

set_option autoImplicit false

/-! ## Events in memory -/

/-- `PTRDIFF_MAX`: no object is larger. -/
def ptrdiffMax : Nat := 2 ^ 63 - 1

/-- A receive event.  Its payload is an object in memory; `room` says whether there is memory
for an allocation made during it. -/
structure Event extends Receive where
  inMemory : payload.length ≤ ptrdiffMax
  room : Bool

inductive Outcome where
  | returned (c : WebSocketClient) (out : List Delivery)
  /-- `new` has thrown, and nothing on the way out of the service thread catches. -/
  | threw (c : WebSocketClient)
  | failed (failure : Failure)

namespace WebSocketClient

/-- The client after its constructor and `registerListener`. -/
def constructed (listener : Bool) : WebSocketClient := ⟨listener, none, 0, 0⟩

/-- The `frame_size` that an event would begin. -/
def frameSize (e : Event) : Nat := sizeT (e.payload.length + e.remaining)

/-- What `new uint8_t[frame_size]` needs. -/
def Allocates (e : Event) : Prop := frameSize e ≤ ptrdiffMax ∧ e.room = true

instance (e : Event) : Decidable (Allocates e) := inferInstanceAs (Decidable (_ ∧ _))

/-- One event.  A buffer that cannot be allocated leaves the client with none. -/
def receiveEvent (c : WebSocketClient) (e : Event) : Outcome :=
  if c.listener = true ∧ e.first = true ∧ e.final = false ∧ ¬ Allocates e then
    .threw c.releaseFragmentedFrame
  else
    match c.receive e.toReceive with
    | .ok (d, out) => .returned d out
    | .error failure => .failed failure

/-- The client that `appendFragmentedDate` is called on, if the event calls it. -/
def appendsTo (c : WebSocketClient) (e : Event) : Option WebSocketClient :=
  if c.listener = false ∨ e.first = true ∧ e.final = true then none
  else if e.first = true then
    if Allocates e then some (c.beginFragmentedFrame (frameSize e)) else none
  else some c

/-- The `copy_len` of `appendFragmentedDate`. -/
def copyLen (c : WebSocketClient) (data : List UInt8) : Nat :=
  if c.fragmentedFrameSize ≤ sizeT (c.fragmentedFrameIndex + data.length) then
    sizeTSub c.fragmentedFrameSize c.fragmentedFrameIndex
  else data.length

/-- The bytes that `m_fragmented_frame` points to; none if it is null. -/
def frameLength (c : WebSocketClient) : Nat := (c.fragmentedFrame.getD []).length

end WebSocketClient

open WebSocketClient

/-- The client after an event that returned. -/
def step (c : WebSocketClient) (e : Event) : Option WebSocketClient :=
  match c.receiveEvent e with
  | .returned d _ => some d
  | _ => none

/-! ## What is promised -/

structure InBuffer (c : WebSocketClient) : Prop where
  index_le : c.fragmentedFrameIndex ≤ c.fragmentedFrameSize
  length_eq : c.frameLength = c.fragmentedFrameSize

/-- What an event does at a client: its copy, if it makes one, stays within the buffer and the
payload; it does not end in a bad access; and the client is in order before the copy, after it,
and at the end. -/
structure Harmless (c : WebSocketClient) (e : Event) : Prop where
  copy : ∀ d, c.appendsTo e = some d → InBuffer d ∧
    d.fragmentedFrameIndex + d.copyLen e.payload ≤ d.frameLength ∧
      d.copyLen e.payload ≤ e.payload.length ∧
        ∃ a, d.appendFragmentedDate e.payload = .ok a ∧ InBuffer a
  ended : ∀ failure, c.receiveEvent e ≠ .failed failure
  returned : ∀ d out, c.receiveEvent e = .returned d out → InBuffer d
  threw : ∀ d, c.receiveEvent e = .threw d → InBuffer d

/-! ## One event -/

/-- The invariant: what is promised, of a buffer that has been allocated. -/
structure Sound (c : WebSocketClient) : Prop extends InBuffer c where
  size_le : c.fragmentedFrameSize ≤ ptrdiffMax

variable {c d : WebSocketClient} {data : List UInt8} {e : Event}

theorem frameLength_newBytes (n : Nat) : ((newBytes n).getD []).length = n := by
  simp [newBytes]

theorem sound_release (c : WebSocketClient) : Sound c.releaseFragmentedFrame where
  index_le := Nat.le_refl 0
  length_eq := rfl
  size_le := Nat.zero_le _

theorem sound_begin (c : WebSocketClient) {size : Nat} (allocated : size ≤ ptrdiffMax) :
    Sound (c.beginFragmentedFrame size) where
  index_le := Nat.zero_le size
  length_eq := frameLength_newBytes size
  size_le := allocated

theorem appendFragmentedDate_eq (c : WebSocketClient) (data : List UInt8) :
    c.appendFragmentedDate data =
      (memcpy c.fragmentedFrame c.fragmentedFrameIndex data (c.copyLen data)).map fun frame =>
        { c with
          fragmentedFrame := frame
          fragmentedFrameIndex := sizeT (c.fragmentedFrameIndex + c.copyLen data) } := by
  unfold WebSocketClient.appendFragmentedDate
  cases copied : memcpy c.fragmentedFrame c.fragmentedFrameIndex data (c.copyLen data) <;>
    rw [copyLen] at copied <;> simp only [copied] <;> rfl

/-- A copy inside the buffer is made, and leaves a buffer of the same length. -/
theorem memcpy_inside {buffer : Pointer} {index n : Nat}
    (inside : index + n ≤ (buffer.getD []).length) (enough : n ≤ data.length) :
    ∃ frame, memcpy buffer index data n = .ok frame ∧
      (frame.getD []).length = (buffer.getD []).length := by
  unfold memcpy
  by_cases nothing : n = 0
  · exact ⟨buffer, if_pos nothing, rfl⟩
  rw [if_neg nothing]
  cases buffer with
  | none =>
      rw [Option.getD_none, List.length_nil] at inside
      omega
  | some cells =>
      rw [Option.getD_some] at inside ⊢
      refine ⟨_, if_pos ⟨inside, enough⟩, ?_⟩
      simp only [Option.getD_some, List.length_append, List.length_take, List.length_map,
        List.length_drop]
      omega

/-- **What is copied**: as much as fits. -/
theorem Sound.copyLen_eq (sound : Sound c) (inMemory : data.length ≤ ptrdiffMax) :
    c.copyLen data = min data.length (c.fragmentedFrameSize - c.fragmentedFrameIndex) := by
  have size := sound.size_le
  unfold ptrdiffMax at size inMemory
  exact Reassembly.copyLen_eq sound.index_le (by omega) (by omega)

theorem Sound.copy_inside (sound : Sound c) (inMemory : data.length ≤ ptrdiffMax) :
    c.fragmentedFrameIndex + c.copyLen data ≤ c.frameLength ∧ c.copyLen data ≤ data.length := by
  have index := sound.index_le
  rw [sound.copyLen_eq inMemory, sound.length_eq]
  omega

/-- **A copy keeps the invariant.** -/
theorem Sound.append (sound : Sound c) (inMemory : data.length ≤ ptrdiffMax) :
    ∃ d, c.appendFragmentedDate data = .ok d ∧ Sound d := by
  obtain ⟨inside, enough⟩ := sound.copy_inside inMemory
  obtain ⟨frame, copied, length⟩ := memcpy_inside inside enough
  rw [appendFragmentedDate_eq, copied]
  refine ⟨_, rfl, ⟨?_, length.trans sound.length_eq⟩, sound.size_le⟩
  rw [sound.length_eq] at inside
  exact Nat.le_trans (Nat.mod_le _ _) inside

/-- An event that appends does so to `appendsTo`. -/
theorem receive_of_appends (appends : c.appendsTo e = some d) :
    c.receive e.toReceive = (d.appendFragmentedDate e.payload).map fun a =>
      if e.first = false ∧ e.final = true then
        (a.releaseFragmentedFrame, [(a.fragmentedFrame.getD []).take a.fragmentedFrameSize])
      else (a, []) := by
  unfold WebSocketClient.appendsTo at appends
  split at appends
  · cases appends
  next some_append =>
    rw [not_or, Bool.not_eq_false] at some_append
    obtain ⟨listening, whole⟩ := some_append
    unfold WebSocketClient.receive
    rw [if_pos listening, if_neg whole]
    split at appends
    · next first =>
        split at appends
        · obtain rfl := Option.some.inj appends
          have continues : ¬ (e.first = false ∧ e.final = true) := by simp [first]
          simp only [if_pos first, if_neg continues]
          rfl
        · cases appends
    · next first =>
        obtain rfl := Option.some.inj appends
        rw [Bool.not_eq_true] at first
        rw [if_neg (by simp [first])]
        cases c.appendFragmentedDate e.payload with
        | error failure => rfl
        | ok a => cases final : e.final <;> simp [first, bind, Except.bind, pure, Except.pure, Except.map]

/-- Any other event that allocates nothing leaves the client as it is. -/
theorem receive_of_not_appends (none_ : c.appendsTo e = none)
    (allocated : ¬ (c.listener = true ∧ e.first = true ∧ e.final = false ∧ ¬ Allocates e)) :
    ∃ out, c.receive e.toReceive = .ok (c, out) := by
  unfold WebSocketClient.receive
  by_cases listening : c.listener = true
  · rw [if_pos listening]
    by_cases whole : e.first = true ∧ e.final = true
    · exact ⟨_, if_pos whole⟩
    exfalso
    unfold WebSocketClient.appendsTo at none_
    rw [if_neg (by simp [listening, whole])] at none_
    by_cases first : e.first = true
    · rw [if_pos first] at none_
      refine allocated ⟨listening, first, by simpa [first] using whole, fun allocates => ?_⟩
      rw [if_pos allocates] at none_
      cases none_
    · rw [if_neg first] at none_
      cases none_
  · exact ⟨[], if_neg listening⟩

/-- The client that is appended to keeps the invariant. -/
theorem Sound.appendsTo (sound : Sound c) (appends : c.appendsTo e = some d) : Sound d := by
  unfold WebSocketClient.appendsTo at appends
  split at appends
  · cases appends
  split at appends
  · split at appends
    · next allocates =>
        obtain rfl := Option.some.inj appends
        exact sound_begin c allocates.1
    · cases appends
  · obtain rfl := Option.some.inj appends
    exact sound

/-- **One event**: unless the buffer could not be allocated, it returns, and keeps the
invariant. -/
theorem Sound.receive (sound : Sound c)
    (allocated : ¬ (c.listener = true ∧ e.first = true ∧ e.final = false ∧ ¬ Allocates e)) :
    ∃ d out, c.receive e.toReceive = .ok (d, out) ∧ Sound d := by
  cases appends : c.appendsTo e with
  | none =>
      obtain ⟨out, received⟩ := receive_of_not_appends appends allocated
      exact ⟨c, out, received, sound⟩
  | some d =>
      obtain ⟨a, appended, kept⟩ := (sound.appendsTo appends).append e.inMemory
      rw [receive_of_appends appends, appended, Except.map]
      by_cases last : e.first = false ∧ e.final = true
      · exact ⟨_, _, congrArg Except.ok (if_pos last), sound_release a⟩
      · exact ⟨_, _, congrArg Except.ok (if_neg last), kept⟩

/-- How an event can end. -/
theorem Sound.receiveEvent (sound : Sound c) (e : Event) :
    c.receiveEvent e = .threw c.releaseFragmentedFrame ∨
      ∃ d out, c.receiveEvent e = .returned d out ∧ Sound d := by
  unfold WebSocketClient.receiveEvent
  by_cases thrown : c.listener = true ∧ e.first = true ∧ e.final = false ∧ ¬ Allocates e
  · exact .inl (if_pos thrown)
  · obtain ⟨d, out, received, kept⟩ := sound.receive thrown
    rw [if_neg thrown, received]
    exact .inr ⟨d, out, rfl, kept⟩

theorem Sound.harmless (sound : Sound c) (e : Event) : Harmless c e where
  copy d appends := by
    have sound := sound.appendsTo appends
    obtain ⟨inside, enough⟩ := sound.copy_inside e.inMemory
    obtain ⟨a, appended, kept⟩ := sound.append e.inMemory
    exact ⟨sound.toInBuffer, inside, enough, a, appended, kept.toInBuffer⟩
  ended failure failed := by
    rcases sound.receiveEvent e with threw | ⟨d, out, returned, -⟩
    · cases threw.symm.trans failed
    · cases returned.symm.trans failed
  returned d out ended := by
    rcases sound.receiveEvent e with threw | ⟨d', out', returned, kept⟩
    · cases threw.symm.trans ended
    · cases returned.symm.trans ended
      exact kept.toInBuffer
  threw d ended := by
    rcases sound.receiveEvent e with threw | ⟨d', out', returned, -⟩
    · cases threw.symm.trans ended
      exact (sound_release c).toInBuffer
    · cases returned.symm.trans ended

theorem Sound.step (sound : Sound c) (moved : step c e = some d) : Sound d := by
  unfold Reassembly.step at moved
  rcases sound.receiveEvent e with threw | ⟨d', out, returned, kept⟩
  · rw [threw] at moved
    cases moved
  · rw [returned] at moved
    cases moved
    exact kept

/-! ## Any sequence of events -/

theorem sound_constructed (listener : Bool) : Sound (constructed listener) where
  index_le := Nat.le_refl 0
  length_eq := rfl
  size_le := Nat.zero_le _

/-- **Whatever the server sends**: in every state the index is within the buffer and the buffer
has its size, and every event is harmless. -/
theorem fragments_inBuffer (listener : Bool) (es : List Event) :
    Always step InBuffer (constructed listener) es ∧
      Along step Harmless (constructed listener) es := by
  have any : Along step (fun _ _ => True) (constructed listener) es :=
    along_of_labels (fun _ _ _ => trivial) _
  constructor
  · exact always_of_along (fun _ sound => sound.toInBuffer)
      (fun _ _ _ _ sound moved => sound.step moved) any (sound_constructed listener)
  · exact along_of_invariant (fun _ _ _ _ sound moved => sound.step moved)
      (fun _ e _ sound => sound.harmless e) any (sound_constructed listener)

end ChargerStack.Ocpp.Reassembly
