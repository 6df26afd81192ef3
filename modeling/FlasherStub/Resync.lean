import FlasherStub.Reception

/-! Reception in lock-step: the main loop polls and releases after each byte, so that a
buffer is armed before the next one. The stub then is the SLIP decoder, and is back in step
with the host after a disturbance exactly when the disturbance leaves no frame open. -/

namespace FlasherStub

open ByteMemory
open Slip (Reception Phase)

/-- One turn of the main loop: poll, take what there is, release. -/
def pollOnce (r : Receiver) : Receiver × List Reception :=
  match slipRecvPoll r with
  | (.idle, r) => (r, [])
  | (.error, r) => (recvRelease r, [.error])
  | (.frame data len, r) =>
    (recvRelease r, [.frame ((r.frames.buffers data).buffer.read 0 len)])

def receiveBytes (r : Receiver) : List UInt8 → Receiver × List Reception
  | [] => (r, [])
  | b :: bytes =>
    let polled := pollOnce (slipRecvByte b r)
    let rest := receiveBytes polled.1 bytes
    (rest.1, polled.2 ++ rest.2)

/-- A buffer is armed in full and the other one is free. -/
structure Receiver.InStep (r : Receiver) : Prop where
  armed : r.Armed
  rxCap : r.rxCap = frameBufferSize
  spare : (r.frames.buffers r.frames.other).Clear

theorem inStep_start : (slipDoRearm .initial).InStep :=
  ⟨⟨rfl, Nat.zero_le _, le_rfl, rfl, rfl⟩, rfl, rfl, rfl⟩

theorem phase_start : (slipDoRearm .initial).phase = .idle := rfl

namespace Receiver

variable {r : Receiver}

theorem pollOnce_armed (armed : r.Armed) (spare : (r.frames.buffers r.frames.other).Clear) :
    pollOnce r = (r, []) := by
  simp [pollOnce, slipRecvPoll, FrameBuffers.getState_clear spare armed.clear]

theorem rearm_full {e : Reception} (full : r.Full e)
    (spare : (r.frames.buffers r.frames.other).Clear) :
    let polled := slipDoRearm { r with frames := { r.frames with procIdx := r.frames.rxIdx } }
    (polled.frames.buffers polled.frames.procIdx).Holds e ∧
      (recvRelease polled).InStep ∧ (recvRelease polled).phase = .idle := by
  have acquired := FrameBuffers.getState_acquire spare full.holds
  have apart : 1 - r.frames.rxIdx ≠ r.frames.rxIdx := r.frames.other_ne
  have back : 1 - (1 - r.frames.rxIdx) = r.frames.rxIdx := by
    generalize r.frames.rxIdx = i
    decide +revert
  simp only [slipDoRearm, acquired, slipRearm]
  unfold FrameBuffers.other at spare ⊢
  refine ⟨?_, ⟨⟨rfl, full.len, le_rfl, ?_⟩, rfl, ?_⟩, ?_⟩
  · simp only [ne_eq, apart.symm, not_false_eq_true, Function.update_of_ne]
    exact full.holds
  · simpa [recvRelease, frameBufferReset, FrameBuffers.set, rxBuffer, apart,
      FrameBuffer.Clear] using spare
  · simp [recvRelease, frameBufferReset, FrameBuffers.set, FrameBuffers.other, back,
      FrameBuffer.Clear]
  · simp [phase, recvRelease, full.state]

theorem pollOnce_full {e : Reception} (full : r.Full e)
    (spare : (r.frames.buffers r.frames.other).Clear) :
    (pollOnce r).2 = [e] ∧ (pollOnce r).1.InStep ∧ (pollOnce r).1.phase = .idle := by
  have found := FrameBuffers.getState_holds spare full.holds
  obtain ⟨holds, rest⟩ := rearm_full full spare
  cases e with
  | error =>
    simp only [pollOnce, slipRecvPoll, found, stateOf]
    exact ⟨trivial, rest⟩
  | frame bytes =>
    have content := holds.2.2.2
    rw [← holds.2.2.1] at content
    simp only [pollOnce, slipRecvPoll, found, stateOf, frameBufferGetData]
    exact ⟨congrArg (fun bytes => [Reception.frame bytes]) content, rest⟩

theorem InStep.receiveByte (inStep : r.InStep) (b : UInt8) :
    let polled := pollOnce (slipRecvByte b r)
    polled.1.InStep ∧ (polled.1.phase, polled.2) = Slip.step frameBufferSize r.phase b := by
  have received := inStep.rxCap ▸ inStep.armed.recvByte b
  have spare : ((slipRecvByte b r).frames.buffers (slipRecvByte b r).frames.other).Clear := by
    rw [received.other, received.spare _ r.frames.other_ne]
    exact inStep.spare
  obtain ⟨none, armed⟩ | ⟨e, one, full⟩ := received.ready
  · rw [pollOnce_armed armed spare]
    exact ⟨⟨armed, received.rxCap, spare⟩, by rw [received.phase, ← none]⟩
  · obtain ⟨taken, after, idle⟩ := pollOnce_full full spare
    have phase : (slipRecvByte b r).phase = .idle := by simp [Receiver.phase, full.state]
    exact ⟨after, by rw [taken, ← one, idle, ← phase, received.phase]⟩

theorem InStep.receiveBytes (inStep : r.InStep) (bytes : List UInt8) :
    (receiveBytes r bytes).1.InStep ∧ ((receiveBytes r bytes).1.phase, (receiveBytes r bytes).2) =
      Slip.feed frameBufferSize r.phase bytes := by
  induction bytes generalizing r with
  | nil => exact ⟨inStep, rfl⟩
  | cons b bytes ih =>
    obtain ⟨next, step⟩ := inStep.receiveByte b
    obtain ⟨last, feed⟩ := ih next
    refine ⟨last, ?_⟩
    rw [Slip.feed, ← step, ← feed]
    rfl

end Receiver

/-- After the disturbance `g` and the first of the payloads, every other one is delivered. -/
def Resynchronises (g : List UInt8) : List (List UInt8) → Prop
  | [] => True
  | p :: rest =>
    (receiveBytes (receiveBytes (slipDoRearm .initial) (g ++ slipSendFrame p)).1
      (rest.flatMap slipSendFrame)).2 = rest.map .frame

/-- What the decoder delivers after bytes `g` from the start. -/
theorem delivered_after (g bytes : List UInt8) :
    (receiveBytes (receiveBytes (slipDoRearm .initial) g).1 bytes).2 =
      (Slip.feed frameBufferSize (Slip.feed frameBufferSize .idle g).1 bytes).2 := by
  obtain ⟨inStep, fed⟩ := inStep_start.receiveBytes g
  have next := (inStep.receiveBytes bytes).2
  rw [phase_start] at fed
  rw [← fed, ← next]

/-- The stub resynchronises exactly after bytes that leave no frame open: inside of an open
one the host's delimiters change their parts for good. -/
theorem resynchronises_iff (g : List UInt8) (payloads : List (List UInt8))
    (sizes : ∀ p ∈ payloads, 1 ≤ p.length ∧ p.length ≤ frameBufferSize) :
    Resynchronises g payloads ↔ payloads.length ≤ 1 ∨ Slip.Closed frameBufferSize g := by
  have fits : ∀ p ∈ payloads, p ≠ [] ∧ p.length ≤ frameBufferSize := fun p mem =>
    ⟨List.length_pos_iff.mp (sizes p mem).1, (sizes p mem).2⟩
  match payloads with
  | [] => simp [Resynchronises]
  | [p] => simp [Resynchronises, receiveBytes]
  | p :: q :: rest =>
    rw [Resynchronises, delivered_after, slipSendFrame_eq, Slip.feed_append]
    by_cases closed : Slip.Closed frameBufferSize g
    · obtain ⟨nonempty, le⟩ := fits p (by simp)
      have others := Slip.feed_encodes frameBufferSize
        fun p mem => fits p (List.mem_cons_of_mem _ mem)
      rw [closed.feed, Slip.feed_encode frameBufferSize nonempty le, others]
      simp [closed]
    · have inside : (Slip.feed frameBufferSize .idle g).1 ≠ .idle := fun idle =>
        closed (Slip.closed_of_idle g idle)
      rw [Slip.feed_encode_open frameBufferSize inside p,
        Slip.feed_encodes_open frameBufferSize (q :: rest)]
      simp [closed]

/-- After line noise and a stray pair of delimiters. -/
theorem resynchronises_after_noise : Resynchronises [0x55, 0xC0, 0xC0] [[1], [2], [3]] :=
  (resynchronises_iff _ _ (by decide)).mpr
    (.inr (.noise (by decide) (.frame (.delimiter 0 []) .nil)))

/-- A frame with a bad escape costs every frame after it. -/
theorem bad_escape_loses_all : ¬Resynchronises [0xC0, 0xDB, 0x00, 0xC0] [[1], [2]] := by
  rw [Resynchronises, delivered_after]
  decide

end FlasherStub
