import FlasherStub.Codec
import FlasherStub.Resync

/-! Reception without any discipline in the main loop: polls without releases, releases
without polls, in any number and order. A re-arm that finds no free buffer overwrites the
decoder's pointer with `NULL`, but never inside of a frame. -/

namespace FlasherStub

open ByteMemory

inductive ReceiverCall where
  | slipRecvByte (byte : UInt8)
  | slipRecvPoll
  | frameBufferReset

def ReceiverCall.perform (r : Receiver) : ReceiverCall → Receiver
  | .slipRecvByte byte => FlasherStub.slipRecvByte byte r
  | .slipRecvPoll => (FlasherStub.slipRecvPoll r).2
  | .frameBufferReset => recvRelease r

/-- The receiver after these calls, the first of them after `stub_transport_init`. -/
def receiverAfter (calls : List ReceiverCall) : Receiver :=
  calls.foldl ReceiverCall.perform (slipDoRearm .initial)

/-- The byte that `slip_recv_byte` passes to `rx_put`, where it calls it. -/
def rxPutByte (byte : UInt8) : SlipRxState → Option UInt8
  | .noFrame => none
  | .inFrame => if byte = Slip.endByte ∨ byte = Slip.escByte then none else some byte
  | .escaping =>
    if byte = Slip.escEnd then some Slip.endByte
    else if byte = Slip.escEsc then some Slip.escByte
    else none

/-- Where `slip_recv_byte` stores a byte: the pointer, which may be `NULL`, and the index. -/
def slipRecvByteStore (byte : UInt8) (r : Receiver) : Option (Option (Fin 2) × Nat) :=
  if (rxPutByte byte r.state).isSome ∧ r.rxLen < r.rxCap then some (r.rxBuf, r.rxLen) else none

theorem slipRecvByte_rxPut {byte put : UInt8} {r : Receiver}
    (puts : rxPutByte byte r.state = some put) :
    slipRecvByte byte r = rxPut put { r with state := .inFrame } := by
  obtain ⟨frames, state, rxBuf, rxLen, rxCap⟩ := r
  cases state with
  | noFrame => simp [rxPutByte] at puts
  | inFrame =>
    simp only [rxPutByte, Option.ite_none_left_eq_some, not_or, Option.some.injEq] at puts
    obtain ⟨⟨notEnd, notEsc⟩, rfl⟩ := puts
    simp [slipRecvByte, notEnd, notEsc]
  | escaping =>
    by_cases isEnd : byte = Slip.escEnd
    · obtain rfl : Slip.endByte = put := by simpa [rxPutByte, isEnd] using puts
      simp [slipRecvByte, isEnd]
    by_cases isEsc : byte = Slip.escEsc
    · obtain rfl : Slip.escByte = put := by simpa [rxPutByte, isEnd, isEsc] using puts
      simp [slipRecvByte, isEsc]
    · simp [rxPutByte, isEnd, isEsc] at puts

theorem slipRecvByte_noPut {byte : UInt8} {r : Receiver} (none : rxPutByte byte r.state = none)
    (i : Fin 2) :
    ((slipRecvByte byte r).frames.buffers i).buffer = (r.frames.buffers i).buffer := by
  cases state : r.state with
  | noFrame =>
    simp only [slipRecvByte, state]
    split_ifs <;> rfl
  | inFrame =>
    by_cases isEnd : byte = Slip.endByte
    · simp only [slipRecvByte, state, if_pos isEnd]
      split_ifs <;> simp
    · have isEsc : byte = Slip.escByte := by simpa [rxPutByte, state, isEnd] using none
      simp [slipRecvByte, state, isEsc]
  | escaping =>
    have notEnd : byte ≠ Slip.escEnd := by
      rintro rfl
      simp [rxPutByte, state] at none
    have notEsc : byte ≠ Slip.escEsc := by
      rintro rfl
      simp [rxPutByte, state] at none
    simp [slipRecvByte, state, notEnd, notEsc, abortFrame]

theorem slipRecvByteStore_of_changed {byte : UInt8} {r : Receiver} {i : Fin 2} {a : Nat}
    (changed : ((slipRecvByte byte r).frames.buffers i).buffer a ≠
      (r.frames.buffers i).buffer a) : slipRecvByteStore byte r = some (some i, a) := by
  cases puts : rxPutByte byte r.state with
  | none => exact absurd (by rw [slipRecvByte_noPut puts]) changed
  | some put =>
    rw [slipRecvByte_rxPut puts] at changed
    obtain ⟨buf, rfl, room⟩ := rxPut_writes changed
    rw [slipRecvByteStore, puts, if_pos ⟨rfl, room⟩, ← buf]

namespace FrameBuffers

variable {fb : FrameBuffers}

def Bounded (fb : FrameBuffers) : Prop := ∀ i, (fb.buffers i).frameLength ≤ frameBufferSize

theorem Bounded.set (bounded : fb.Bounded) (i : Fin 2) {f : FrameBuffer}
    (le : f.frameLength ≤ frameBufferSize) : (fb.set i f).Bounded := by
  intro j
  by_cases same : j = i
  · simpa [FrameBuffers.set, same] using le
  · simpa [FrameBuffers.set, same] using bounded j

theorem Bounded.markError (bounded : fb.Bounded) : (frameBufferMarkError fb).Bounded :=
  bounded.set _ (bounded _)

theorem Bounded.markComplete (bounded : fb.Bounded) (len : Nat) :
    (frameBufferMarkComplete len fb).Bounded := by
  unfold frameBufferMarkComplete
  split_ifs with long
  · exact bounded.set _ (bounded _)
  · exact bounded.set _ (Nat.le_of_not_lt long)

theorem Bounded.acquire (bounded : fb.Bounded) : (frameBufferAcquire fb).2.Bounded := by
  unfold frameBufferAcquire
  split_ifs
  · exact bounded
  · exact bounded.set _ (Nat.zero_le _)
  · exact bounded.set _ (Nat.zero_le _)

theorem Bounded.reset (bounded : fb.Bounded) : (frameBufferReset fb).Bounded :=
  bounded.set _ (Nat.zero_le _)

theorem getState_selects (fb : FrameBuffers) :
    ∃ i, (frameBufferGetState fb).2 = { fb with procIdx := i } := by
  unfold frameBufferGetState
  split_ifs <;> exact ⟨_, rfl⟩

end FrameBuffers

theorem rxPut_bounded {r : Receiver} (bounded : r.frames.Bounded) (byte : UInt8) :
    (rxPut byte r).frames.Bounded := by
  unfold rxPut
  split_ifs
  · cases r.rxBuf with
    | none => exact bounded
    | some i => exact bounded.set i (bounded i)
  · exact bounded.markError

theorem slipRecvByte_bounded {r : Receiver} (bounded : r.frames.Bounded) (byte : UInt8) :
    (slipRecvByte byte r).frames.Bounded := by
  cases state : r.state with
  | noFrame =>
    simp only [slipRecvByte, state]
    split_ifs <;> exact bounded
  | inFrame =>
    simp only [slipRecvByte, state]
    split_ifs
    · exact bounded.markComplete _
    · exact bounded
    · exact bounded
    · exact rxPut_bounded bounded byte
  | escaping =>
    simp only [slipRecvByte, state]
    split_ifs
    · exact rxPut_bounded (r := { r with state := .inFrame }) bounded _
    · exact rxPut_bounded (r := { r with state := .inFrame }) bounded _
    · exact bounded.markError

namespace Receiver

/-- What every call keeps: the pointer is the buffer under reception, free for it, or `NULL`
outside of a frame. -/
structure Sound (r : Receiver) : Prop where
  cap : r.rxCap = frameBufferSize
  len : r.rxLen ≤ r.rxCap
  bounded : r.frames.Bounded
  buf : r.rxBuf = some r.frames.rxIdx ∧ r.rxBuffer.Clear ∨ r.rxBuf = none ∧ r.state = .noFrame

variable {r : Receiver}

theorem sound_start : (slipDoRearm .initial).Sound :=
  have empty : FrameBuffers.Bounded .initial := fun _ => Nat.zero_le _
  ⟨rfl, Nat.zero_le _, empty.acquire, .inl ⟨rfl, rfl, rfl⟩⟩

theorem Sound.armed (sound : r.Sound) (buf : r.rxBuf = some r.frames.rxIdx)
    (clear : r.rxBuffer.Clear) : r.Armed := ⟨buf, sound.len, sound.cap.le, clear⟩

theorem Sound.slipRecvByte (sound : r.Sound) (byte : UInt8) : (slipRecvByte byte r).Sound := by
  have bounded := slipRecvByte_bounded sound.bounded byte
  obtain ⟨buf, clear⟩ | ⟨buf, outside⟩ := sound.buf
  · have received := (sound.armed buf clear).recvByte byte
    have cap := received.rxCap.trans sound.cap
    obtain ⟨-, armed⟩ | ⟨e, -, full⟩ := received.ready
    · exact ⟨cap, armed.len, bounded, .inl ⟨armed.buf, armed.clear⟩⟩
    · exact ⟨cap, cap ▸ full.len, bounded, .inr ⟨full.buf, full.state⟩⟩
  · rw [slipRecvByte_unarmed buf outside]
    exact sound

/-- `NULL` is acquired only where the buffer under reception is taken, and then no frame is
under way. -/
theorem Sound.slipDoRearm (sound : r.Sound) : (slipDoRearm r).Sound := by
  refine ⟨rfl, sound.len.trans sound.cap.le, sound.bounded.acquire, ?_⟩
  unfold FlasherStub.slipDoRearm slipRearm frameBufferAcquire
  by_cases taken : r.rxBuffer.frameComplete ∨ r.rxBuffer.frameError
  · obtain ⟨-, complete, error⟩ | ⟨-, outside⟩ := sound.buf
    · simp [complete, error] at taken
    · by_cases both : (r.frames.buffers r.frames.other).frameComplete ∨
          (r.frames.buffers r.frames.other).frameError
      · simp only [if_pos taken, if_pos both]
        exact .inr ⟨trivial, outside⟩
      · simp only [if_pos taken, if_neg both]
        exact .inl ⟨rfl, by simpa [FrameBuffers.set, rxBuffer, FrameBuffer.Clear] using both⟩
  · simp only [if_neg taken]
    exact .inl ⟨rfl, by simpa [FrameBuffers.set, rxBuffer, FrameBuffer.Clear] using taken⟩

theorem Sound.slipRecvPoll (sound : r.Sound) : (slipRecvPoll r).2.Sound := by
  obtain ⟨i, selected⟩ := FrameBuffers.getState_selects r.frames
  unfold FlasherStub.slipRecvPoll
  cases found : frameBufferGetState r.frames with
  | mk state frames =>
    obtain rfl : frames = { r.frames with procIdx := i } := by simpa [found] using selected
    have sound : Sound { r with frames := { r.frames with procIdx := i } } :=
      ⟨sound.cap, sound.len, sound.bounded, sound.buf⟩
    cases state with
    | idle => exact sound
    | error => exact sound.slipDoRearm
    | complete => exact sound.slipDoRearm

theorem Sound.recvRelease (sound : r.Sound) : (recvRelease r).Sound := by
  refine ⟨sound.cap, sound.len, sound.bounded.reset, ?_⟩
  obtain ⟨buf, clear⟩ | outside := sound.buf
  · refine .inl ⟨buf, ?_⟩
    by_cases same : r.frames.rxIdx = r.frames.procIdx
    · simp [FlasherStub.recvRelease, frameBufferReset, FrameBuffers.set, rxBuffer, same,
        FrameBuffer.Clear]
    · have kept : (FlasherStub.recvRelease r).rxBuffer = r.rxBuffer :=
        Function.update_of_ne same _ _
      exact kept ▸ clear
  · exact .inr outside

theorem Sound.perform (sound : r.Sound) (call : ReceiverCall) : (call.perform r).Sound := by
  cases call with
  | slipRecvByte byte => exact sound.slipRecvByte byte
  | slipRecvPoll => exact sound.slipRecvPoll
  | frameBufferReset => exact sound.recvRelease

theorem Sound.calls (sound : r.Sound) (calls : List ReceiverCall) :
    (calls.foldl ReceiverCall.perform r).Sound := by
  induction calls generalizing r with
  | nil => exact sound
  | cons call calls ih => exact ih (sound.perform call)

theorem Sound.inside (sound : r.Sound) (inside : r.state ≠ .noFrame) :
    r.rxBuf = some r.frames.rxIdx ∧ r.rxBuffer.Clear :=
  sound.buf.resolve_right fun outside => inside outside.2

theorem Sound.store (sound : r.Sound) {byte : UInt8} {buf : Option (Fin 2)} {a : Nat}
    (store : slipRecvByteStore byte r = some (buf, a)) :
    buf = some r.frames.rxIdx ∧ a < frameBufferSize := by
  unfold slipRecvByteStore at store
  split_ifs at store with stores
  obtain ⟨rfl, rfl⟩ : r.rxBuf = buf ∧ r.rxLen = a := by simpa using store
  have inside : r.state ≠ .noFrame := by
    intro outside
    simp [outside, rxPutByte] at stores
  exact ⟨(sound.inside inside).1, stores.2.trans_eq sound.cap⟩

end Receiver

/-- Whatever the main loop calls, the interrupt stores inside of the buffer under reception
only, and that buffer holds nothing that still waits for the main loop. -/
theorem receiver_confined (calls : List ReceiverCall) :
    let r := receiverAfter calls
    (r.state = .inFrame ∨ r.state = .escaping →
      r.rxBuf = some r.frames.rxIdx ∧ r.rxBuffer.frameComplete = false ∧
        r.rxBuffer.frameError = false) ∧
    r.rxLen ≤ r.rxCap ∧ r.rxCap = frameBufferSize ∧
    (∀ byte buf a, slipRecvByteStore byte r = some (buf, a) →
      buf = some r.frames.rxIdx ∧ a < frameBufferSize) ∧
    (∀ byte i a, ((slipRecvByte byte r).frames.buffers i).buffer a ≠
      (r.frames.buffers i).buffer a → slipRecvByteStore byte r = some (some i, a)) ∧
    ∀ i, (r.frames.buffers i).frameLength ≤ frameBufferSize := by
  have sound : (receiverAfter calls).Sound := Receiver.sound_start.calls calls
  refine ⟨fun inside => sound.inside fun outside => ?_, sound.len, sound.cap,
    fun byte buf a => sound.store, fun byte i a => slipRecvByteStore_of_changed, sound.bounded⟩
  obtain here | here := inside <;> simp [outside] at here

end FlasherStub
