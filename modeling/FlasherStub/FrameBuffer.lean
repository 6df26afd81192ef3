import FlasherStub.Lib.Memory
import FlasherStub.Lib.Slip
import Mathlib.Logic.Function.Basic

/-! The two frame buffers, the SLIP codec that fills one of them from the receive
interrupt while the main loop works on the other, and the SLIP transport. -/

namespace FlasherStub

open ByteMemory

abbrev frameBufferSize : Nat := 8 + 0x4000 + 0xFF

structure FrameBuffer where
  buffer : Memory
  frameLength : Nat
  frameComplete : Bool
  frameError : Bool

/-- The two buffers and their roles. A pointer to the data of a buffer is its index.
`marked` is a ghost: the frames and errors marked so far. -/
structure FrameBuffers where
  buffers : Fin 2 → FrameBuffer
  rxIdx : Fin 2
  procIdx : Fin 2
  marked : List Slip.Reception

inductive FrameBufferState where
  | idle
  | complete
  | error
deriving DecidableEq

namespace FrameBuffers

def initial : FrameBuffers := ⟨fun _ => ⟨fun _ => 0, 0, false, false⟩, 0, 0, []⟩

def other (fb : FrameBuffers) : Fin 2 := 1 - fb.rxIdx

def set (fb : FrameBuffers) (i : Fin 2) (f : FrameBuffer) : FrameBuffers :=
  { fb with buffers := Function.update fb.buffers i f }

def mark (fb : FrameBuffers) (e : Slip.Reception) : FrameBuffers :=
  { fb with marked := fb.marked ++ [e] }

end FrameBuffers

open FrameBuffers

def frameBufferMarkError (fb : FrameBuffers) : FrameBuffers :=
  (fb.set fb.rxIdx { fb.buffers fb.rxIdx with frameError := true }).mark .error

def frameBufferAcquire (fb : FrameBuffers) : Option (Fin 2) × FrameBuffers :=
  let take (fb : FrameBuffers) :=
    (some fb.rxIdx, fb.set fb.rxIdx { fb.buffers fb.rxIdx with frameLength := 0 })
  if (fb.buffers fb.rxIdx).frameComplete ∨ (fb.buffers fb.rxIdx).frameError then
    if (fb.buffers fb.other).frameComplete ∨ (fb.buffers fb.other).frameError then (none, fb)
    else take { fb with rxIdx := fb.other }
  else take fb

def frameBufferMarkComplete (len : Nat) (fb : FrameBuffers) : FrameBuffers :=
  let rxBuf := fb.buffers fb.rxIdx
  if frameBufferSize < len then (fb.set fb.rxIdx { rxBuf with frameError := true }).mark .error
  else (fb.set fb.rxIdx { rxBuf with frameLength := len, frameComplete := true }).mark
    (.frame (rxBuf.buffer.read 0 len))

def frameBufferGetState (fb : FrameBuffers) : FrameBufferState × FrameBuffers :=
  if (fb.buffers fb.other).frameError then (.error, { fb with procIdx := fb.other })
  else if (fb.buffers fb.rxIdx).frameError then (.error, { fb with procIdx := fb.rxIdx })
  else if (fb.buffers fb.other).frameComplete then (.complete, { fb with procIdx := fb.other })
  else if (fb.buffers fb.rxIdx).frameComplete then (.complete, { fb with procIdx := fb.rxIdx })
  else (.idle, fb)

def frameBufferGetData (fb : FrameBuffers) : Fin 2 × Nat :=
  (fb.procIdx, (fb.buffers fb.procIdx).frameLength)

def frameBufferReset (fb : FrameBuffers) : FrameBuffers :=
  fb.set fb.procIdx { fb.buffers fb.procIdx with
    frameLength := 0, frameComplete := false, frameError := false }

inductive SlipRxState where
  | noFrame
  | inFrame
  | escaping
deriving DecidableEq

/-- The decoder's variables and the frame buffers; `none` is `NULL`. -/
structure Receiver where
  frames : FrameBuffers
  state : SlipRxState
  rxBuf : Option (Fin 2)
  rxLen : Nat
  rxCap : Nat

def Receiver.initial : Receiver := ⟨.initial, .noFrame, none, 0, 0⟩

def sendEscapedByte (byte : UInt8) : List UInt8 :=
  if byte = Slip.endByte then [Slip.escByte, Slip.escEnd]
  else if byte = Slip.escByte then [Slip.escByte, Slip.escEsc]
  else [byte]

/-- The bytes that are sent, for data that is not `NULL`. -/
def slipSendFrame (data : List UInt8) : List UInt8 :=
  [Slip.endByte] ++ data.flatMap sendEscapedByte ++ [Slip.endByte]

def abortFrame (r : Receiver) : Receiver :=
  { r with frames := frameBufferMarkError r.frames, rxBuf := none, state := .noFrame }

def rxPut (byte : UInt8) (r : Receiver) : Receiver :=
  if r.rxLen < r.rxCap then
    match r.rxBuf with
    | some i =>
      let f := r.frames.buffers i
      { r with frames := r.frames.set i { f with buffer := f.buffer.write r.rxLen [byte] },
               rxLen := r.rxLen + 1 }
    -- a write through `NULL`; a frame is open only while a buffer is armed
    | none => { r with rxLen := r.rxLen + 1 }
  else abortFrame r

def slipRecvByte (byte : UInt8) (r : Receiver) : Receiver :=
  match r.state with
  | .noFrame =>
    if byte = Slip.endByte ∧ r.rxBuf.isSome then { r with rxLen := 0, state := .inFrame } else r
  | .inFrame =>
    if byte = Slip.endByte then
      let r := if 0 < r.rxLen then
        { r with frames := frameBufferMarkComplete r.rxLen r.frames, rxBuf := none } else r
      { r with rxLen := 0, state := .noFrame }
    else if byte = Slip.escByte then { r with state := .escaping }
    else rxPut byte r
  | .escaping =>
    let r := { r with state := .inFrame }
    if byte = Slip.escEnd then rxPut Slip.endByte r
    else if byte = Slip.escEsc then rxPut Slip.escByte r
    else abortFrame r

def slipRearm (buf : Option (Fin 2)) (cap : Nat) (r : Receiver) : Receiver :=
  { r with rxBuf := buf, rxCap := cap }

def slipDoRearm (r : Receiver) : Receiver :=
  let (buf, frames) := frameBufferAcquire r.frames
  slipRearm buf frameBufferSize { r with frames := frames }

/-- What `recv_poll` returns: `NULL`, `NULL` with the error flag, or a frame. -/
inductive PollResult where
  | idle
  | error
  | frame (data : Fin 2) (len : Nat)
deriving DecidableEq

def slipRecvPoll (r : Receiver) : PollResult × Receiver :=
  let (state, frames) := frameBufferGetState r.frames
  let r := { r with frames := frames }
  match state with
  | .idle => (.idle, r)
  | .error => (.error, slipDoRearm r)
  | .complete =>
    let r := slipDoRearm r
    let (data, len) := frameBufferGetData r.frames
    (.frame data len, r)

def recvRelease (r : Receiver) : Receiver := { r with frames := frameBufferReset r.frames }

@[simp] theorem slipSendFrame_eq : slipSendFrame = Slip.encode := rfl

end FlasherStub
