import FlasherStub.Reception

/-! The SLIP codec is exact: between two delimiters the decoder takes what the encoder sends
for a payload that fits, and nothing else. -/

namespace FlasherStub

open ByteMemory
open Slip (Reception)

def recvBytes (r : Receiver) (bytes : List UInt8) : Receiver :=
  bytes.foldl (fun r b => slipRecvByte b r) r

@[simp] theorem recvBytes_cons (r : Receiver) (b : UInt8) (bytes : List UInt8) :
    recvBytes r (b :: bytes) = recvBytes (slipRecvByte b r) bytes := rfl

theorem recvBytes_unarmed {r : Receiver} (buf : r.rxBuf = none) (state : r.state = .noFrame)
    (bytes : List UInt8) : recvBytes r bytes = r := by
  induction bytes with
  | nil => rfl
  | cons b bytes ih => rw [recvBytes_cons, slipRecvByte_unarmed buf state, ih]

/-- Up to the first frame or error the receiver is the decoder; then it waits. -/
theorem Receiver.Armed.recvBytes {r : Receiver} (armed : r.Armed) (bytes : List UInt8) :
    (recvBytes r bytes).Ready ((Slip.feed r.rxCap r.phase bytes).2.take 1) ∧
      (recvBytes r bytes).frames.marked =
        r.frames.marked ++ (Slip.feed r.rxCap r.phase bytes).2.take 1 ∧
      (recvBytes r bytes).frames.rxIdx = r.frames.rxIdx := by
  induction bytes generalizing r with
  | nil => exact ⟨.inl ⟨rfl, armed⟩, by simp [FlasherStub.recvBytes], rfl⟩
  | cons b bytes ih =>
    have received := armed.recvByte b
    rw [recvBytes_cons, Slip.feed]
    obtain ⟨none, next⟩ | ⟨e, one, full⟩ := received.ready
    · obtain ⟨ready, marked, rxIdx⟩ := ih next
      rw [received.rxCap, received.phase] at ready marked
      rw [received.marked, none, List.append_nil] at marked
      exact ⟨by simpa [none] using ready, by simpa [none] using marked, rxIdx.trans received.rxIdx⟩
    · rw [recvBytes_unarmed full.buf full.state]
      exact ⟨by simpa [one] using .inr ⟨e, rfl, full⟩, by simp [received.marked, one],
        received.rxIdx⟩

@[simp] theorem markError_buffer (fb : FrameBuffers) (i : Fin 2) :
    ((frameBufferMarkError fb).buffers i).buffer = (fb.buffers i).buffer := by
  by_cases h : i = fb.rxIdx <;>
    simp [frameBufferMarkError, FrameBuffers.mark, FrameBuffers.set, h]

@[simp] theorem markComplete_buffer (len : Nat) (fb : FrameBuffers) (i : Fin 2) :
    ((frameBufferMarkComplete len fb).buffers i).buffer = (fb.buffers i).buffer := by
  unfold frameBufferMarkComplete
  split_ifs <;> by_cases h : i = fb.rxIdx <;>
    simp [FrameBuffers.mark, FrameBuffers.set, h]

theorem rxPut_writes {r : Receiver} {b : UInt8} {i : Fin 2} {a : Nat}
    (changed : ((rxPut b r).frames.buffers i).buffer a ≠ (r.frames.buffers i).buffer a) :
    r.rxBuf = some i ∧ a = r.rxLen ∧ a < r.rxCap := by
  unfold rxPut at changed
  split_ifs at changed with room
  · cases buf : r.rxBuf with
    | none => simp [buf] at changed
    | some j =>
      by_cases here : i = j
      · subst here
        have at_ : a = r.rxLen := by
          by_contra other
          refine changed ?_
          obtain less | more := Nat.lt_or_gt_of_ne other
          · simp [buf, FrameBuffers.set, Memory.write_below less]
          · simp [buf, FrameBuffers.set, Memory.write_above (show _ + [b].length ≤ _ from more)]
        exact ⟨rfl, at_, at_ ▸ room⟩
      · simp [buf, FrameBuffers.set, here] at changed
  · simp [abortFrame] at changed

theorem slipRecvByte_writes {r : Receiver} {b : UInt8} {i : Fin 2} {a : Nat}
    (changed : ((slipRecvByte b r).frames.buffers i).buffer a ≠ (r.frames.buffers i).buffer a) :
    r.rxBuf = some i ∧ a = r.rxLen ∧ a < r.rxCap := by
  unfold slipRecvByte at changed
  cases state : r.state with
  | noFrame =>
    simp only [state] at changed
    split_ifs at changed <;> simp at changed
  | inFrame =>
    simp only [state] at changed
    split_ifs at changed
    · simp at changed
    · simp at changed
    · simp at changed
    · exact rxPut_writes changed
  | escaping =>
    simp only [state] at changed
    split_ifs at changed
    · exact rxPut_writes (r := { r with state := .inFrame }) changed
    · exact rxPut_writes (r := { r with state := .inFrame }) changed
    · simp [abortFrame] at changed

theorem slipRecvByte_arms (b : UInt8) (r : Receiver) :
    ((slipRecvByte b r).rxBuf = r.rxBuf ∨ (slipRecvByte b r).rxBuf = none) ∧
      (slipRecvByte b r).rxCap = r.rxCap := by
  have put (b : UInt8) (r : Receiver) :
      ((rxPut b r).rxBuf = r.rxBuf ∨ (rxPut b r).rxBuf = none) ∧ (rxPut b r).rxCap = r.rxCap := by
    unfold rxPut abortFrame
    split_ifs
    · cases buf : r.rxBuf <;> simp
    · simp
  unfold slipRecvByte
  cases r.state <;> simp only <;> split_ifs <;> first | exact put _ _ | simp [abortFrame]

theorem recvBytes_confined (bytes : List UInt8) (r : Receiver) (i : Fin 2) (a : Nat)
    (outside : r.rxBuf ≠ some i ∨ r.rxCap ≤ a) :
    ((recvBytes r bytes).frames.buffers i).buffer a = (r.frames.buffers i).buffer a := by
  induction bytes generalizing r with
  | nil => rfl
  | cons b bytes ih =>
    obtain ⟨buf, cap⟩ := slipRecvByte_arms b r
    rw [recvBytes_cons, ih]
    · by_contra changed
      obtain ⟨armed, -, inside⟩ := slipRecvByte_writes changed
      obtain other | beyond := outside
      · exact other armed
      · omega
    · rw [cap]
      refine outside.imp_left fun other => ?_
      obtain same | none := buf
      · exact same ▸ other
      · simp [none]

/-- The frame `p` has been completed, and waits in its buffer. -/
def Completes (r r' : Receiver) (p : List UInt8) : Prop :=
  r'.frames.marked = r.frames.marked ++ [.frame p] ∧ r'.rxBuffer.Holds (.frame p)

def MarksError (r r' : Receiver) : Prop :=
  r'.frames.marked = r.frames.marked ++ [.error] ∧ r'.rxBuffer.Holds .error

theorem Completes.only {r r' : Receiver} {p : List UInt8} (completes : Completes r r' p)
    {out : List Reception} (marked : r'.frames.marked = r.frames.marked ++ out) :
    out = [.frame p] :=
  List.append_cancel_left (marked.symm.trans completes.1)

theorem received_frame {r : Receiver} (idle : r.state = .noFrame)
    (buf : r.rxBuf = some r.frames.rxIdx) (cap : r.rxCap ≤ frameBufferSize)
    (clear : r.rxBuffer.Clear) {w : List UInt8} {out : List Reception} (one : out.length ≤ 1)
    (fed : (Slip.feed r.rxCap (.inFrame []) (w ++ [Slip.endByte])).2 = out) :
    (recvBytes r (Slip.endByte :: w ++ [Slip.endByte])).Ready out ∧
      (recvBytes r (Slip.endByte :: w ++ [Slip.endByte])).frames.marked =
        r.frames.marked ++ out := by
  -- the length left by an earlier frame is forgotten at the opening delimiter
  have forget : slipRecvByte Slip.endByte r = slipRecvByte Slip.endByte { r with rxLen := 0 } := by
    simp [slipRecvByte, idle, buf]
  have armed : Receiver.Armed { r with rxLen := 0 } := ⟨buf, Nat.zero_le _, cap, clear⟩
  have here : Receiver.phase { r with rxLen := 0 } = .idle := by simp [Receiver.phase, idle]
  obtain ⟨ready, marked, -⟩ := armed.recvBytes (Slip.endByte :: w ++ [Slip.endByte])
  have same : (Slip.feed r.rxCap .idle (Slip.endByte :: w ++ [Slip.endByte])).2.take 1 = out := by
    simpa [Slip.feed, fed] using List.take_of_length_le one
  rw [here, same] at ready marked
  rw [List.cons_append, recvBytes_cons, forget]
  exact ⟨ready, marked⟩

theorem Receiver.Ready.holds {r : Receiver} {e : Reception} (ready : r.Ready [e]) :
    r.rxBuffer.Holds e := by
  obtain ⟨none, -⟩ | ⟨e', one, full⟩ := ready
  · cases none
  · cases one
    exact full.holds

/-- A frame that arrives in one piece is decoded exactly, up to the capacity of its buffer. -/
theorem slip_codec_exact (r : Receiver) (idle : r.state = .noFrame)
    (buf : r.rxBuf = some r.frames.rxIdx) (cap : r.rxCap ≤ frameBufferSize)
    (clear : r.rxBuffer.Clear) (w : List UInt8) (noEnd : Slip.endByte ∉ w) :
    let r' := recvBytes r (Slip.endByte :: w ++ [Slip.endByte])
    (∀ p, Completes r r' p ↔ slipSendFrame p = Slip.endByte :: w ++ [Slip.endByte] ∧
      1 ≤ p.length ∧ p.length ≤ r.rxCap) ∧
    (w ≠ [] → (∀ p, ¬ Completes r r' p) → MarksError r r') ∧
    ∀ n i a, r.rxBuf ≠ some i ∨ r.rxCap ≤ a →
      ((recvBytes r ((Slip.endByte :: w ++ [Slip.endByte]).take n)).frames.buffers i).buffer a =
        (r.frames.buffers i).buffer a := by
  have confined n i a := recvBytes_confined ((Slip.endByte :: w ++ [Slip.endByte]).take n) r i a
  obtain ⟨p, rfl, fits, fed⟩ | ⟨long, fed⟩ := Slip.feed_body_end noEnd [] (Nat.zero_le r.rxCap)
  · by_cases empty : p = []
    · subst empty
      obtain ⟨-, marked⟩ := received_frame idle buf cap clear (Nat.zero_le _) fed
      refine ⟨fun q => ⟨fun completes => ?_, fun ⟨same, nonempty, _⟩ => ?_⟩, by simp, confined⟩
      · cases completes.only marked
      · have none := Slip.encode_injective (p := q) (q := []) same
        simp [none] at nonempty
    · rw [List.nil_append, if_neg empty] at fed
      obtain ⟨ready, marked⟩ := received_frame idle buf cap clear le_rfl fed
      have completes : Completes r _ p := ⟨marked, ready.holds⟩
      refine ⟨fun q => ⟨fun completes' => ?_, fun ⟨same, _⟩ => ?_⟩, fun _ none => ?_, confined⟩
      · have same : p = q := by simpa using completes'.only marked
        exact same ▸ ⟨rfl, List.length_pos_iff.mpr empty, by simpa using fits⟩
      · exact Slip.encode_injective (p := q) (q := p) same ▸ completes
      · exact absurd completes (none p)
  · obtain ⟨ready, marked⟩ := received_frame idle buf cap clear le_rfl fed
    refine ⟨fun q => ⟨fun completes => ?_, fun ⟨same, _, short⟩ => ?_⟩,
      fun _ _ => ⟨marked, ready.holds⟩, confined⟩
    · cases completes.only marked
    · have body : w = q.flatMap Slip.escape := by
        simpa [Slip.encode, eq_comm] using same
      have := long q body
      simp at this
      omega

/-- An escaped delimiter, into a buffer of two bytes. -/
theorem slip_codec_exact_escaped :
    let r : Receiver := slipRearm (some 0) 2 .initial
    Completes r (recvBytes r [0xC0, 0xDB, 0xDC, 1, 0xC0]) [0xC0, 1] :=
  ((slip_codec_exact (slipRearm (some 0) 2 .initial) rfl rfl (by decide) ⟨rfl, rfl⟩
    [0xDB, 0xDC, 1] (by decide)).1 [0xC0, 1]).mpr ⟨by decide, by decide, by decide⟩

end FlasherStub
