import FlasherStub.FrameBuffer

/-! What the receive interrupt and each step of the main loop do to a receiver in order:
one buffer is armed, or full and waiting, and the other one is out of the interrupt's reach. -/

namespace FlasherStub

open ByteMemory
open Slip (Reception Phase)

namespace FrameBuffer

def Clear (f : FrameBuffer) : Prop := f.frameComplete = false ∧ f.frameError = false

def Holds (f : FrameBuffer) : Reception → Prop
  | .frame bytes => f.frameComplete = true ∧ f.frameError = false ∧
      f.frameLength = bytes.length ∧ f.buffer.read 0 bytes.length = bytes
  | .error => f.frameComplete = false ∧ f.frameError = true

end FrameBuffer

namespace Receiver

variable (r : Receiver)

abbrev rxBuffer : FrameBuffer := r.frames.buffers r.frames.rxIdx

def partialFrame : List UInt8 := r.rxBuffer.buffer.read 0 r.rxLen

def phase : Phase :=
  match r.state with
  | .noFrame => .idle
  | .inFrame => .inFrame r.partialFrame
  | .escaping => .escaping r.partialFrame

structure Armed : Prop where
  buf : r.rxBuf = some r.frames.rxIdx
  len : r.rxLen ≤ r.rxCap
  cap : r.rxCap ≤ frameBufferSize
  clear : r.rxBuffer.Clear

/-- Reception has stopped, with one frame or error for the main loop to take. -/
structure Full (e : Reception) : Prop where
  buf : r.rxBuf = none
  state : r.state = .noFrame
  len : r.rxLen ≤ frameBufferSize
  holds : r.rxBuffer.Holds e

def Ready (pending : List Reception) : Prop :=
  pending = [] ∧ r.Armed ∨ ∃ e, pending = [e] ∧ r.Full e

end Receiver

structure Marks (fb : FrameBuffers) (new : List Reception) (fb' : FrameBuffers) : Prop where
  marked : fb'.marked = fb.marked ++ new
  rxIdx : fb'.rxIdx = fb.rxIdx
  procIdx : fb'.procIdx = fb.procIdx
  spare : ∀ i, i ≠ fb.rxIdx → fb'.buffers i = fb.buffers i

structure Receives (fb : FrameBuffers) (cap : Nat) (next : Phase × List Reception)
    (r : Receiver) : Prop extends Marks fb next.2 r.frames where
  ready : r.Ready next.2
  phase : r.phase = next.1
  rxCap : r.rxCap = cap

namespace Receiver.Armed

variable {r : Receiver} (armed : r.Armed)

include armed

theorem abort : Receives r.frames r.rxCap (.idle, [.error]) (abortFrame r) where
  ready := .inr ⟨.error, rfl, rfl, rfl, armed.len.trans armed.cap, by
    simp [abortFrame, frameBufferMarkError, FrameBuffers.set, FrameBuffers.mark,
      rxBuffer, FrameBuffer.Holds, armed.clear.1]⟩
  phase := rfl
  marked := rfl
  rxCap := rfl
  rxIdx := rfl
  procIdx := rfl
  spare i other := Function.update_of_ne other _ _

theorem put (inside : r.state = .inFrame) (b : UInt8) :
    Receives r.frames r.rxCap (Slip.put r.rxCap r.partialFrame b) (rxPut b r) := by
  by_cases room : r.rxLen < r.rxCap
  · have short : r.partialFrame.length < r.rxCap := by simpa [partialFrame] using room
    have grown := Memory.read_write_append r.rxBuffer.buffer 0 r.rxLen [b]
    rw [Slip.put_room short]
    simp only [rxPut, if_pos room, armed.buf]
    exact {
      ready := .inl ⟨rfl, rfl, room, armed.cap, by
        simpa [FrameBuffers.set, rxBuffer, FrameBuffer.Clear] using armed.clear⟩
      phase := by simpa [phase, inside, partialFrame, rxBuffer, FrameBuffers.set] using grown
      marked := (List.append_nil _).symm
      rxCap := rfl
      rxIdx := rfl
      procIdx := rfl
      spare := fun i other => Function.update_of_ne other _ _ }
  · have long : r.rxCap ≤ r.partialFrame.length := by simpa [partialFrame] using room
    rw [Slip.put_full long, rxPut, if_neg room]
    exact armed.abort

theorem complete (_ : 0 < r.rxLen) :
    Receives r.frames r.rxCap (.idle, [.frame r.partialFrame])
      { r with frames := frameBufferMarkComplete r.rxLen r.frames,
               rxBuf := none, rxLen := 0, state := .noFrame } := by
  have fits : ¬frameBufferSize < r.rxLen := Nat.not_lt.mpr (armed.len.trans armed.cap)
  simp only [frameBufferMarkComplete, if_neg fits]
  exact {
    ready := .inr ⟨_, rfl, rfl, rfl, Nat.zero_le _, by
      simp [FrameBuffers.set, FrameBuffers.mark, rxBuffer, FrameBuffer.Holds, partialFrame,
        armed.clear.2]⟩
    phase := rfl
    marked := rfl
    rxCap := rfl
    rxIdx := rfl
    procIdx := rfl
    spare := fun i other => Function.update_of_ne other _ _ }

theorem quiet (r' : Receiver) (frames : r'.frames = r.frames) (buf : r'.rxBuf = r.rxBuf)
    (cap : r'.rxCap = r.rxCap) (len : r'.rxLen ≤ r.rxCap) :
    Receives r.frames r.rxCap (r'.phase, []) r' where
  ready := .inl ⟨rfl, by rw [buf, frames, armed.buf], cap ▸ len, cap ▸ armed.cap, by
    rw [rxBuffer, frames]
    exact armed.clear⟩
  phase := rfl
  marked := by rw [frames, List.append_nil]
  rxCap := cap
  rxIdx := by rw [frames]
  procIdx := by rw [frames]
  spare i _ := by rw [frames]

/-- While a buffer is armed the interrupt decodes SLIP, and touches that buffer only. -/
theorem recvByte (b : UInt8) :
    Receives r.frames r.rxCap (Slip.step r.rxCap r.phase b) (slipRecvByte b r) := by
  cases state : r.state with
  | noFrame =>
    have here : r.phase = .idle := by simp [phase, state]
    by_cases isEnd : b = Slip.endByte
    · have opened := armed.quiet { r with rxLen := 0, state := .inFrame }
        rfl rfl rfl (Nat.zero_le _)
      simpa [slipRecvByte, state, here, isEnd, armed.buf, phase, partialFrame] using opened
    · have same := armed.quiet r rfl rfl rfl armed.len
      simpa [slipRecvByte, state, here, isEnd] using same
  | inFrame =>
    have here : r.phase = .inFrame r.partialFrame := by simp [phase, state]
    by_cases isEnd : b = Slip.endByte
    · subst isEnd
      rw [here, Slip.step_inFrame_end]
      by_cases some : 0 < r.rxLen
      · have nonempty : r.partialFrame ≠ [] := by
          rw [← List.length_pos_iff]
          simpa [partialFrame] using some
        simpa [slipRecvByte, state, some, nonempty] using armed.complete some
      · have none : r.rxLen = 0 := by omega
        have closed := armed.quiet { r with rxLen := 0, state := .noFrame }
          rfl rfl rfl (Nat.zero_le _)
        simpa [slipRecvByte, state, none, phase, partialFrame] using closed
    by_cases isEsc : b = Slip.escByte
    · subst isEsc
      have escaped := armed.quiet { r with state := .escaping }
        rfl rfl rfl armed.len
      simp only [slipRecvByte, state, here, Slip.step_inFrame_esc, if_pos,
        if_neg Slip.escByte_ne_endByte]
      exact escaped
    · simpa [slipRecvByte, state, here, isEnd, isEsc] using armed.put state b
  | escaping =>
    have here : r.phase = .escaping r.partialFrame := by simp [phase, state]
    have inside : Armed { r with state := .inFrame } := ⟨armed.buf, armed.len, armed.cap, armed.clear⟩
    by_cases isEnd : b = Slip.escEnd
    · subst isEnd
      simp only [slipRecvByte, state, here, Slip.step_escaping_end, if_pos]
      exact inside.put rfl Slip.endByte
    by_cases isEsc : b = Slip.escEsc
    · subst isEsc
      simp only [slipRecvByte, state, here, Slip.step_escaping_esc, if_pos,
        if_neg Slip.escEsc_ne_escEnd]
      exact inside.put rfl Slip.escByte
    · simpa [slipRecvByte, state, here, isEnd, isEsc] using inside.abort

end Receiver.Armed

theorem slipRecvByte_unarmed {r : Receiver} (buf : r.rxBuf = none) (state : r.state = .noFrame)
    (b : UInt8) : slipRecvByte b r = r := by
  simp [slipRecvByte, state, buf]

theorem Marks.refl (fb : FrameBuffers) : Marks fb [] fb :=
  ⟨(List.append_nil _).symm, rfl, rfl, fun _ _ => rfl⟩

theorem Marks.other {fb fb' : FrameBuffers} {new : List Reception} (marks : Marks fb new fb') :
    fb'.other = fb.other := by
  rw [FrameBuffers.other, marks.rxIdx, FrameBuffers.other]

theorem Receiver.Ready.recvByte {r : Receiver} {pending : List Reception}
    (ready : r.Ready pending) (b : UInt8) :
    ∃ new, (slipRecvByte b r).Ready (pending ++ new) ∧
      Marks r.frames new (slipRecvByte b r).frames := by
  obtain ⟨rfl, armed⟩ | ⟨e, rfl, full⟩ := ready
  · have received := armed.recvByte b
    exact ⟨_, received.ready, received.toMarks⟩
  · rw [slipRecvByte_unarmed full.buf full.state]
    exact ⟨[], .inr ⟨e, rfl, full⟩, .refl _⟩

/-- What `frame_buffer_mark_complete` makes of `len` bytes. -/
def completion (fb : FrameBuffers) (len : Nat) : Reception :=
  if frameBufferSize < len then .error else .frame ((fb.buffers fb.rxIdx).buffer.read 0 len)

theorem markComplete_marks {fb : FrameBuffers} (clear : (fb.buffers fb.rxIdx).Clear) (len : Nat) :
    Marks fb [completion fb len] (frameBufferMarkComplete len fb) ∧
      ((frameBufferMarkComplete len fb).buffers fb.rxIdx).Holds (completion fb len) := by
  unfold frameBufferMarkComplete completion
  split_ifs
  · refine ⟨⟨rfl, rfl, rfl, fun i other => Function.update_of_ne other _ _⟩, ?_⟩
    simp [FrameBuffers.set, FrameBuffers.mark, FrameBuffer.Holds, clear.1]
  · refine ⟨⟨rfl, rfl, rfl, fun i other => Function.update_of_ne other _ _⟩, ?_⟩
    simp [FrameBuffers.set, FrameBuffers.mark, FrameBuffer.Holds, clear.2]

/-- What `frame_buffer_get_state` says of a reception. -/
def stateOf : Reception → FrameBufferState
  | .frame _ => .complete
  | .error => .error

namespace FrameBuffers

variable {fb : FrameBuffers}

theorem other_ne (fb : FrameBuffers) : fb.other ≠ fb.rxIdx := by
  unfold other
  generalize fb.rxIdx = i
  decide +revert

theorem eq_other {i : Fin 2} (h : i ≠ fb.rxIdx) : i = fb.other := by
  unfold other
  generalize fb.rxIdx = j at h ⊢
  decide +revert

theorem getState_clear (spare : (fb.buffers fb.other).Clear) (clear : (fb.buffers fb.rxIdx).Clear) :
    frameBufferGetState fb = (.idle, fb) := by
  simp [frameBufferGetState, spare.1, spare.2, clear.1, clear.2]

theorem getState_holds (spare : (fb.buffers fb.other).Clear) {e : Reception}
    (holds : (fb.buffers fb.rxIdx).Holds e) :
    frameBufferGetState fb = (stateOf e, { fb with procIdx := fb.rxIdx }) := by
  cases e with
  | frame bytes => simp [frameBufferGetState, stateOf, spare.1, spare.2, holds.1, holds.2.1]
  | error => simp [frameBufferGetState, stateOf, spare.2, holds.2]

theorem acquire_holds (spare : (fb.buffers fb.other).Clear) {e : Reception}
    (holds : (fb.buffers fb.rxIdx).Holds e) :
    frameBufferAcquire fb = (some fb.other, { fb with
      rxIdx := fb.other
      buffers := Function.update fb.buffers fb.other
        { fb.buffers fb.other with frameLength := 0 } }) := by
  cases e with
  | frame bytes => simp [frameBufferAcquire, spare.1, spare.2, holds.1, set]
  | error => simp [frameBufferAcquire, spare.1, spare.2, holds.2, set]

theorem getState_acquire (spare : (fb.buffers fb.other).Clear) {e : Reception}
    (holds : (fb.buffers fb.rxIdx).Holds e) :
    frameBufferAcquire { fb with procIdx := fb.rxIdx } = (some fb.other,
      { fb with
        rxIdx := fb.other
        procIdx := fb.rxIdx
        buffers := Function.update fb.buffers fb.other
          { fb.buffers fb.other with frameLength := 0 } }) :=
  acquire_holds spare holds

theorem acquire_clear (clear : (fb.buffers fb.rxIdx).Clear) :
    frameBufferAcquire fb = (some fb.rxIdx,
      fb.set fb.rxIdx { fb.buffers fb.rxIdx with frameLength := 0 }) := by
  simp [frameBufferAcquire, clear.1, clear.2]

@[simp] theorem getState_marked (fb : FrameBuffers) :
    (frameBufferGetState fb).2.marked = fb.marked := by
  unfold frameBufferGetState
  split_ifs <;> rfl

@[simp] theorem acquire_marked (fb : FrameBuffers) :
    (frameBufferAcquire fb).2.marked = fb.marked := by
  unfold frameBufferAcquire
  split_ifs <;> rfl

end FrameBuffers

structure Receiver.Keeps (kept : Fin 2 → Prop) (r r' : Receiver) : Prop where
  state : r'.state = r.state
  rxBuf : r'.rxBuf = r.rxBuf
  rxLen : r'.rxLen = r.rxLen
  rxCap : r'.rxCap = r.rxCap
  rxIdx : r'.frames.rxIdx = r.frames.rxIdx
  procIdx : r'.frames.procIdx = r.frames.procIdx
  marked : r'.frames.marked = r.frames.marked
  buffers : ∀ i, kept i → r'.frames.buffers i = r.frames.buffers i

theorem keeps_recvRelease (n : Nat) (r : Receiver) :
    r.Keeps (· ≠ r.frames.procIdx) (recvRelease^[n] r) := by
  induction n with
  | zero => exact ⟨rfl, rfl, rfl, rfl, rfl, rfl, rfl, fun _ _ => rfl⟩
  | succ n ih =>
    rw [Function.iterate_succ_apply']
    refine ⟨ih.state, ih.rxBuf, ih.rxLen, ih.rxCap, ih.rxIdx, ih.procIdx, ih.marked, ?_⟩
    intro i other
    have kept : i ≠ (recvRelease^[n] r).frames.procIdx := ih.procIdx ▸ other
    exact (Function.update_of_ne kept _ _).trans (ih.buffers i other)

theorem Receiver.Ready.release {r : Receiver} {pending : List Reception}
    (ready : r.Ready pending) (apart : r.frames.procIdx ≠ r.frames.rxIdx) :
    (recvRelease r).Ready pending := by
  have kept : (recvRelease r).rxBuffer = r.rxBuffer := Function.update_of_ne apart.symm _ _
  obtain ⟨rfl, armed⟩ | ⟨e, rfl, full⟩ := ready
  · exact .inl ⟨rfl, armed.buf, armed.len, armed.cap, kept ▸ armed.clear⟩
  · exact .inr ⟨e, rfl, full.buf, full.state, full.len, kept ▸ full.holds⟩

end FlasherStub
