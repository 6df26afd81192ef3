import FlasherStub.Reception

/-! Reception under interruption. Between any two calls that the main loop makes the
receive interrupt may take any number of bytes. -/

namespace FlasherStub

open ByteMemory
open Slip (Reception)

/-- How far the main loop is: outside of `slip_recv_poll`, inside after one of its calls, or
at work on what it returned. `polled` is whether any poll has returned something yet, and the
frame of `holding` is what was read from the buffer at the return, or `none` for an error. -/
inductive MainState where
  | between (polled : Bool)
  | selected (state : FrameBufferState)
  | acquired (state : FrameBufferState) (buf : Option (Fin 2))
  | rearmed (state : FrameBufferState)
  | holding (i : Fin 2) (frame : Option (List UInt8))
deriving DecidableEq

/-- `delivered` is what the polls have returned so far. -/
structure Link where
  receiver : Receiver
  main : MainState
  delivered : List Reception

def Link.start : Link := ⟨slipDoRearm .initial, .between false, []⟩

inductive LinkStep where
  | byte (b : UInt8)
  | getState
  | acquire
  | rearm
  | getData
  | release
deriving DecidableEq

/-- One step, where the main loop makes it. After an error `slip_recv_poll` returns
without a look at the data. -/
def LinkStep.perform : LinkStep → Link → Option Link
  | .byte b, l => some { l with receiver := slipRecvByte b l.receiver }
  | .getState, ⟨r, .between polled, delivered⟩ =>
    let (state, frames) := frameBufferGetState r.frames
    some ⟨{ r with frames := frames },
      if state = .idle then .between polled else .selected state, delivered⟩
  | .acquire, ⟨r, .selected state, delivered⟩ =>
    let (buf, frames) := frameBufferAcquire r.frames
    some ⟨{ r with frames := frames }, .acquired state buf, delivered⟩
  | .rearm, ⟨r, .acquired state buf, delivered⟩ =>
    some ⟨slipRearm buf frameBufferSize r, .rearmed state, delivered⟩
  | .getData, ⟨r, .rearmed state, delivered⟩ =>
    if state = .error then some ⟨r, .holding r.frames.procIdx none, delivered ++ [.error]⟩
    else
      let (data, len) := frameBufferGetData r.frames
      let bytes := (r.frames.buffers data).buffer.read 0 len
      some ⟨r, .holding data (some bytes), delivered ++ [.frame bytes]⟩
  | .release, ⟨r, .holding _ _, delivered⟩ => some ⟨recvRelease r, .between true, delivered⟩
  | .release, ⟨r, .between true, delivered⟩ => some ⟨recvRelease r, .between true, delivered⟩
  | _, _ => none

namespace LinkStep

variable (r : Receiver) (delivered : List Reception)

theorem perform_getState (polled : Bool) : getState.perform ⟨r, .between polled, delivered⟩ =
    some ⟨{ r with frames := (frameBufferGetState r.frames).2 },
      if (frameBufferGetState r.frames).1 = .idle then .between polled
      else .selected (frameBufferGetState r.frames).1, delivered⟩ := rfl

theorem perform_acquire (state : FrameBufferState) :
    acquire.perform ⟨r, .selected state, delivered⟩ =
      some ⟨{ r with frames := (frameBufferAcquire r.frames).2 },
        .acquired state (frameBufferAcquire r.frames).1, delivered⟩ := rfl

theorem perform_rearm (state : FrameBufferState) (buf : Option (Fin 2)) :
    rearm.perform ⟨r, .acquired state buf, delivered⟩ =
      some ⟨slipRearm buf frameBufferSize r, .rearmed state, delivered⟩ := rfl

theorem perform_getData (state : FrameBufferState) :
    getData.perform ⟨r, .rearmed state, delivered⟩ =
      if state = .error then some ⟨r, .holding r.frames.procIdx none, delivered ++ [.error]⟩
      else
        let (data, len) := frameBufferGetData r.frames
        let bytes := (r.frames.buffers data).buffer.read 0 len
        some ⟨r, .holding data (some bytes), delivered ++ [.frame bytes]⟩ := rfl

end LinkStep

def Link.run : List LinkStep → Link → Option Link
  | [], l => some l
  | step :: steps, l => (step.perform l).bind (run steps)

/-- What was marked but not delivered is in the two buffers, and a buffer that the main
loop works on is not the one under reception. -/
inductive Link.Ordered : Link → Prop where
  | between {r : Receiver} {polled : Bool} {delivered pending : List Reception}
      (ready : r.Ready pending) (log : r.frames.marked = delivered ++ pending)
      (spare : (r.frames.buffers r.frames.other).Clear)
      (apart : polled = true → r.frames.procIdx ≠ r.frames.rxIdx) :
      Ordered ⟨r, .between polled, delivered⟩
  | selected {r : Receiver} {delivered : List Reception} {e : Reception}
      (full : r.Full e) (log : r.frames.marked = delivered ++ [e])
      (spare : (r.frames.buffers r.frames.other).Clear)
      (same : r.frames.procIdx = r.frames.rxIdx) :
      Ordered ⟨r, .selected (stateOf e), delivered⟩
  | acquired {r : Receiver} {delivered : List Reception} {e : Reception}
      (buf : r.rxBuf = none) (state : r.state = .noFrame) (len : r.rxLen ≤ frameBufferSize)
      (clear : r.rxBuffer.Clear) (log : r.frames.marked = delivered ++ [e])
      (holds : (r.frames.buffers r.frames.procIdx).Holds e)
      (apart : r.frames.procIdx ≠ r.frames.rxIdx) :
      Ordered ⟨r, .acquired (stateOf e) (some r.frames.rxIdx), delivered⟩
  | rearmed {r : Receiver} {delivered pending : List Reception} {e : Reception}
      (ready : r.Ready pending) (log : r.frames.marked = delivered ++ e :: pending)
      (holds : (r.frames.buffers r.frames.procIdx).Holds e)
      (apart : r.frames.procIdx ≠ r.frames.rxIdx) :
      Ordered ⟨r, .rearmed (stateOf e), delivered⟩
  | holding {r : Receiver} {i : Fin 2} {frame : Option (List UInt8)}
      {delivered pending : List Reception}
      (ready : r.Ready pending) (log : r.frames.marked = delivered ++ pending)
      (same : r.frames.procIdx = i) (holds : (r.frames.buffers i).Holds (frame.elim .error .frame))
      (apart : i ≠ r.frames.rxIdx) :
      Ordered ⟨r, .holding i frame, delivered⟩

namespace Link.Ordered

theorem start : Ordered .start :=
  .between (.inl ⟨rfl, rfl, Nat.zero_le _, le_rfl, rfl, rfl⟩) rfl ⟨rfl, rfl⟩ nofun

variable {r : Receiver} {main : MainState} {delivered : List Reception}

theorem byte (inv : Ordered ⟨r, main, delivered⟩) (b : UInt8) :
    Ordered ⟨slipRecvByte b r, main, delivered⟩ := by
  cases inv with
  | between ready log spare apart =>
    obtain ⟨new, ready, marks⟩ := ready.recvByte b
    refine .between ready (by rw [marks.marked, log, List.append_assoc]) ?_ ?_
    · rw [marks.other, marks.spare _ r.frames.other_ne]
      exact spare
    · rw [marks.procIdx, marks.rxIdx]
      exact apart
  | selected full log spare same =>
    rw [slipRecvByte_unarmed full.buf full.state]
    exact .selected full log spare same
  | acquired buf state len clear log holds apart =>
    rw [slipRecvByte_unarmed buf state]
    exact .acquired buf state len clear log holds apart
  | rearmed ready log holds apart =>
    obtain ⟨new, ready, marks⟩ := ready.recvByte b
    refine .rearmed ready (by rw [marks.marked, log, List.append_assoc, List.cons_append]) ?_ ?_
    · rw [marks.procIdx, marks.spare _ apart]
      exact holds
    · rw [marks.procIdx, marks.rxIdx]
      exact apart
  | holding ready log same holds apart =>
    obtain ⟨new, ready, marks⟩ := ready.recvByte b
    refine .holding ready (by rw [marks.marked, log, List.append_assoc])
      (marks.procIdx.trans same) ?_ ?_
    · rw [marks.spare _ apart]
      exact holds
    · rw [marks.rxIdx]
      exact apart

theorem perform_full {polled : Bool} {e : Reception} (full : r.Full e)
    (spare : (r.frames.buffers r.frames.other).Clear) :
    LinkStep.getState.perform ⟨r, .between polled, delivered⟩ =
      some ⟨{ r with frames := { r.frames with procIdx := r.frames.rxIdx } },
        .selected (stateOf e), delivered⟩ := by
  have found := FrameBuffers.getState_holds spare full.holds
  have busy : stateOf e ≠ .idle := by cases e <;> simp [stateOf]
  simp only [LinkStep.perform_getState, found, if_neg busy]

theorem getState {polled : Bool} (inv : Ordered ⟨r, .between polled, delivered⟩) {l : Link}
    (step : LinkStep.getState.perform ⟨r, .between polled, delivered⟩ = some l) : Ordered l := by
  cases inv with
  | between ready log spare apart =>
    obtain ⟨rfl, armed⟩ | ⟨e, rfl, full⟩ := ready
    · have idle := FrameBuffers.getState_clear spare armed.clear
      simp only [LinkStep.perform_getState, idle, if_pos, Option.some.injEq] at step
      exact step ▸ .between (.inl ⟨rfl, armed⟩) log spare apart
    · rw [perform_full full spare] at step
      exact Option.some.inj step ▸
        .selected ⟨full.buf, full.state, full.len, full.holds⟩ log spare rfl

theorem acquire {state : FrameBufferState} (inv : Ordered ⟨r, .selected state, delivered⟩)
    {l : Link} (step : LinkStep.acquire.perform ⟨r, .selected state, delivered⟩ = some l) :
    Ordered l := by
  cases inv with
  | selected full log spare same =>
    have acquired := FrameBuffers.acquire_holds spare full.holds
    simp only [LinkStep.perform_acquire, acquired, Option.some.injEq] at step
    have apart : r.frames.procIdx ≠ r.frames.other := same ▸ r.frames.other_ne.symm
    refine step ▸ .acquired full.buf full.state full.len ?_ log ?_ apart
    · simpa [Receiver.rxBuffer, FrameBuffer.Clear] using spare
    · simpa [apart, same, r.frames.other_ne.symm] using full.holds

theorem rearm {state : FrameBufferState} {buf : Option (Fin 2)}
    (inv : Ordered ⟨r, .acquired state buf, delivered⟩) {l : Link}
    (step : LinkStep.rearm.perform ⟨r, .acquired state buf, delivered⟩ = some l) :
    Ordered l := by
  cases inv with
  | acquired _ _ len clear log holds apart =>
    exact Option.some.inj step ▸ .rearmed (.inl ⟨rfl, rfl, len, le_rfl, clear⟩) log holds apart

theorem getData {state : FrameBufferState} (inv : Ordered ⟨r, .rearmed state, delivered⟩)
    {l : Link} (step : LinkStep.getData.perform ⟨r, .rearmed state, delivered⟩ = some l) :
    Ordered l := by
  cases inv with
  | @rearmed _ _ pending e ready log holds apart =>
    cases e with
    | error =>
      simp only [LinkStep.perform_getData, stateOf, if_pos, Option.some.injEq] at step
      exact step ▸ .holding ready (by rw [log, List.append_assoc]; rfl) rfl holds apart
    | frame bytes =>
      obtain ⟨complete, noError, length, content⟩ := holds
      simp only [LinkStep.perform_getData, stateOf, reduceCtorEq, if_false, frameBufferGetData, length,
        content, Option.some.injEq] at step
      exact step ▸ .holding ready (by rw [log, List.append_assoc]; rfl) rfl
        ⟨complete, noError, length, content⟩ apart

theorem release (inv : Ordered ⟨r, main, delivered⟩) {l : Link}
    (step : LinkStep.release.perform ⟨r, main, delivered⟩ = some l) : Ordered l := by
  cases inv with
  | @between _ polled _ pending ready log spare apart =>
    cases polled with
    | false => cases step
    | true =>
      have proc : r.frames.procIdx = r.frames.other := FrameBuffers.eq_other (apart rfl)
      refine Option.some.inj step ▸ .between (ready.release (apart rfl)) log ?_ apart
      simp [recvRelease, frameBufferReset, FrameBuffers.set, FrameBuffers.other, proc,
        FrameBuffer.Clear]
  | holding ready log same holds apart =>
    subst same
    have proc : r.frames.procIdx = r.frames.other := FrameBuffers.eq_other apart
    refine Option.some.inj step ▸ .between (ready.release apart) log ?_ fun _ => apart
    simp [recvRelease, frameBufferReset, FrameBuffers.set, FrameBuffers.other, proc,
      FrameBuffer.Clear]
  | _ => cases step

theorem perform {l l' : Link} (inv : Ordered l) {s : LinkStep} (step : s.perform l = some l') :
    Ordered l' := by
  obtain ⟨r, main, delivered⟩ := l
  cases s with
  | byte b => exact Option.some.inj step ▸ inv.byte b
  | release => exact inv.release step
  | getState =>
    cases main with
    | between polled => exact inv.getState step
    | _ => cases step
  | acquire =>
    cases main with
    | selected state => exact inv.acquire step
    | _ => cases step
  | rearm =>
    cases main with
    | acquired state buf => exact inv.rearm step
    | _ => cases step
  | getData =>
    cases main with
    | rearmed state => exact inv.getData step
    | _ => cases step

theorem run {steps : List LinkStep} {l l' : Link} (inv : Ordered l)
    (run : l.run steps = some l') : Ordered l' := by
  induction steps generalizing l with
  | nil => exact Option.some.inj run ▸ inv
  | cons s steps ih =>
    obtain ⟨next, step, run⟩ := Option.bind_eq_some_iff.mp run
    exact ih (inv.perform step) run

end Link.Ordered

/-- The calls of an uninterrupted `slip_recv_poll` are its steps in this order. -/
theorem run_poll (r : Receiver) (polled : Bool) (delivered : List Reception) :
    match slipRecvPoll r with
    | (.idle, r') =>
      Link.run [.getState] ⟨r, .between polled, delivered⟩ = some ⟨r', .between polled, delivered⟩
    | (.error, r') =>
      Link.run [.getState, .acquire, .rearm, .getData] ⟨r, .between polled, delivered⟩ =
        some ⟨r', .holding r'.frames.procIdx none, delivered ++ [.error]⟩
    | (.frame data len, r') =>
      let bytes := (r'.frames.buffers data).buffer.read 0 len
      Link.run [.getState, .acquire, .rearm, .getData] ⟨r, .between polled, delivered⟩ =
        some ⟨r', .holding data (some bytes), delivered ++ [.frame bytes]⟩ := by
  unfold slipRecvPoll
  cases state : (frameBufferGetState r.frames).1 <;>
    simp [Link.run, LinkStep.perform_getState, LinkStep.perform_acquire, LinkStep.perform_rearm,
      LinkStep.perform_getData, state, slipDoRearm, slipRearm, frameBufferGetData]

namespace Link

def Outside (l : Link) : Prop := (∃ polled, l.main = .between polled) ∨ ∃ i f, l.main = .holding i f

def Unpolled (l : Link) (i : Fin 2) : Prop :=
  ((l.receiver.frames.buffers i).frameComplete ∨ (l.receiver.frames.buffers i).frameError) ∧
    ∀ frame, l.main ≠ .holding i frame

/-- All that was received has been delivered, and a buffer is armed for more. -/
def Caught (l : Link) : Prop :=
  l.receiver.Armed ∧ l.delivered = l.receiver.frames.marked

/-- The steps of the main loop alone deliver all that has been received so far. -/
def Drains (l : Link) : Prop :=
  ∃ steps : List LinkStep, (∀ b, .byte b ∉ steps) ∧ ∃ l', l.run steps = some l' ∧ l'.Caught ∧
    l'.receiver.frames.marked = l.receiver.frames.marked

theorem perform_marked {l l' : Link} {s : LinkStep} (main : ∀ b, s ≠ .byte b)
    (step : s.perform l = some l') :
    l'.receiver.frames.marked = l.receiver.frames.marked := by
  obtain ⟨r, at_, delivered⟩ := l
  cases s with
  | byte b => exact absurd rfl (main b)
  | getState =>
    cases at_ with
    | between polled => exact Option.some.inj step ▸ r.frames.getState_marked
    | _ => cases step
  | acquire =>
    cases at_ with
    | selected state => exact Option.some.inj step ▸ r.frames.acquire_marked
    | _ => cases step
  | rearm =>
    cases at_ with
    | acquired state buf => exact Option.some.inj step ▸ rfl
    | _ => cases step
  | getData =>
    cases at_ with
    | rearmed state =>
      rw [LinkStep.perform_getData] at step
      split_ifs at step <;> exact Option.some.inj step ▸ rfl
    | _ => cases step
  | release =>
    cases at_ with
    | between polled =>
      cases polled with
      | false => cases step
      | true => exact Option.some.inj step ▸ rfl
    | holding i frame => exact Option.some.inj step ▸ rfl
    | _ => cases step

theorem Drains.step {l l' : Link} {s : LinkStep} (main : ∀ b, s ≠ .byte b)
    (step : s.perform l = some l') (drains : l'.Drains) : l.Drains := by
  obtain ⟨steps, noBytes, last, run, caught, marked⟩ := drains
  refine ⟨s :: steps, fun b mem => ?_, last, by simp [Link.run, step, run], caught,
    marked.trans (perform_marked main step)⟩
  obtain eq | mem := List.mem_cons.mp mem
  · exact main b eq.symm
  · exact noBytes b mem

theorem Ordered.caught {l : Link} (inv : l.Ordered) (outside : l.Outside)
    (armed : l.receiver.rxBuf ≠ none) : l.Caught := by
  have settled {r : Receiver} {delivered pending : List Reception} (ready : r.Ready pending)
      (log : r.frames.marked = delivered ++ pending) (armed : r.rxBuf ≠ none) :
      r.Armed ∧ delivered = r.frames.marked := by
    obtain ⟨rfl, armed⟩ | ⟨_, _, full⟩ := ready
    · exact ⟨armed, by rw [log, List.append_nil]⟩
    · exact absurd full.buf armed
  cases inv with
  | between ready log => exact settled ready log armed
  | holding ready log => exact settled ready log armed
  | _ => simp [Outside] at outside

theorem Caught.drains {l : Link} (caught : l.Caught) : l.Drains :=
  ⟨[], by simp, l, rfl, caught, rfl⟩

section Drains

variable {r : Receiver} {delivered : List Reception}

theorem drains_rearmed {state : FrameBufferState} (inv : Ordered ⟨r, .rearmed state, delivered⟩)
    (next : ∀ i f d, Ordered ⟨r, .holding i f, d⟩ → Drains ⟨r, .holding i f, d⟩) :
    Drains ⟨r, .rearmed state, delivered⟩ := by
  cases state <;> exact .step (s := .getData) (by simp) rfl (next _ _ _ (inv.getData rfl))

theorem drains_acquired {state : FrameBufferState} {buf : Option (Fin 2)}
    (inv : Ordered ⟨r, .acquired state buf, delivered⟩) :
    Drains ⟨r, .acquired state buf, delivered⟩ := by
  have rearmed := inv.rearm rfl
  refine .step (s := .rearm) (by simp) rfl (drains_rearmed rearmed fun i f d held => ?_)
  cases inv with
  | acquired => exact (held.caught (.inr ⟨i, f, rfl⟩) (by simp [slipRearm])).drains

theorem drains_selected {state : FrameBufferState}
    (inv : Ordered ⟨r, .selected state, delivered⟩) : Drains ⟨r, .selected state, delivered⟩ :=
  .step (s := .acquire) (by simp) rfl (drains_acquired (inv.acquire rfl))

theorem drains_between {polled : Bool} (inv : Ordered ⟨r, .between polled, delivered⟩) :
    Drains ⟨r, .between polled, delivered⟩ := by
  by_cases armed : r.rxBuf = none
  · cases inv with
    | between ready log spare apart =>
      obtain ⟨rfl, here⟩ | ⟨e, rfl, full⟩ := ready
      · simp [here.buf] at armed
      · have step : LinkStep.getState.perform ⟨r, .between polled, delivered⟩ = _ :=
          Ordered.perform_full full spare
        exact .step (s := .getState) (by simp) step
          (drains_selected ((Ordered.between (.inr ⟨e, rfl, full⟩) log spare apart).getState step))
  · exact (inv.caught (.inl ⟨polled, rfl⟩) armed).drains

theorem drains_holding {i : Fin 2} {f : Option (List UInt8)}
    (inv : Ordered ⟨r, .holding i f, delivered⟩) : Drains ⟨r, .holding i f, delivered⟩ :=
  .step (s := .release) (by simp) rfl (drains_between (inv.release rfl))

end Drains

theorem Ordered.drains {l : Link} (inv : l.Ordered) : l.Drains := by
  obtain ⟨r, main, delivered⟩ := l
  cases main with
  | between polled => exact drains_between inv
  | selected state => exact drains_selected inv
  | acquired state buf => exact drains_acquired inv
  | rearmed state => exact drains_rearmed inv fun _ _ _ => drains_holding
  | holding i f => exact drains_holding inv

end Link

/-- What the link keeps up however the interrupt cuts in: a frame at work is intact, releases
touch neither the reception nor what waits for a poll, the polls return what was received in
order, and the link goes on. -/
structure Link.Safe (l : Link) : Prop where
  intact : ∀ i bytes, l.main = .holding i (some bytes) →
    (l.receiver.frames.buffers i).frameLength = bytes.length ∧
      (l.receiver.frames.buffers i).buffer.read 0 bytes.length = bytes
  released : (LinkStep.release.perform l).isSome → ∀ n, l.receiver.Keeps
    (fun i => l.receiver.rxBuf = some i ∨ l.Unpolled i) (recvRelease^[n] l.receiver)
  ordered : l.delivered <+: l.receiver.frames.marked
  drains : l.Drains
  alive : l.Outside → l.receiver.Armed ∨
    ∃ e, l.receiver.Full e ∧ l.receiver.frames.marked = l.delivered ++ [e]
  acquires : ∀ state buf, l.main = .acquired state buf → buf ≠ none

namespace Link.Ordered

variable {l : Link} (inv : l.Ordered)

include inv

theorem intact {i : Fin 2} {bytes : List UInt8} (held : l.main = .holding i (some bytes)) :
    (l.receiver.frames.buffers i).frameLength = bytes.length ∧
      (l.receiver.frames.buffers i).buffer.read 0 bytes.length = bytes := by
  cases inv with
  | holding ready log same holds apart =>
    injection held with at_ frame
    subst at_ frame
    exact holds.2.2
  | _ => cases held

theorem apart (release : (LinkStep.release.perform l).isSome) {i : Fin 2}
    (kept : l.receiver.rxBuf = some i ∨ l.Unpolled i) : i ≠ l.receiver.frames.procIdx := by
  have armed {r : Receiver} {pending : List Reception} (ready : r.Ready pending)
      (buf : r.rxBuf = some i) : i = r.frames.rxIdx := by
    obtain ⟨-, armed⟩ | ⟨_, -, full⟩ := ready
    · exact Option.some.inj (buf.symm.trans armed.buf)
    · simp [full.buf] at buf
  cases inv with
  | @between r polled _ pending ready log spare apart =>
    cases polled with
    | false => cases release
    | true =>
      obtain buf | waits := kept
      · exact armed ready buf ▸ (apart rfl).symm
      · rintro rfl
        have proc : r.frames.procIdx = r.frames.other := FrameBuffers.eq_other (apart rfl)
        have flagged := waits.1
        simp [proc, spare.1, spare.2] at flagged
  | holding ready log same holds apart =>
    subst same
    obtain buf | waits := kept
    · exact armed ready buf ▸ apart.symm
    · rintro rfl
      exact waits.2 _ rfl
  | _ => cases release

theorem in_order : l.delivered <+: l.receiver.frames.marked := by
  cases inv with
  | between _ log | selected _ log | acquired _ _ _ _ log | rearmed _ log | holding _ log =>
    exact log ▸ List.prefix_append _ _

theorem alive (outside : l.Outside) : l.receiver.Armed ∨
    ∃ e, l.receiver.Full e ∧ l.receiver.frames.marked = l.delivered ++ [e] := by
  cases inv with
  | between ready log | holding ready log =>
    obtain ⟨rfl, armed⟩ | ⟨e, rfl, full⟩ := ready
    · exact .inl armed
    · exact .inr ⟨e, full, log⟩
  | _ => simp [Outside] at outside

theorem safe : l.Safe where
  intact _ _ held := inv.intact held
  released release n := by
    have kept := keeps_recvRelease n l.receiver
    exact { kept with buffers := fun i h => kept.buffers i (inv.apart release h) }
  ordered := inv.in_order
  drains := inv.drains
  alive outside := inv.alive outside
  acquires state buf at_ := by
    cases inv with
    | acquired => injection at_ with _ buf; simp [← buf]
    | _ => cases at_

end Link.Ordered

/-- Double-buffered reception is safe in every state that any interleaving reaches. -/
theorem reception_safe (steps : List LinkStep) (l : Link) (run : Link.start.run steps = some l) :
    l.Safe :=
  (Link.Ordered.start.run run).safe

/-- A frame that arrives while another one is at work. -/
theorem reception_safe_two_frames :
    ∃ l : Link, l.Safe ∧ l.delivered = [.frame [1], .frame [2]] ∧ l.main = .holding 1 (some [2]) := by
  refine ⟨_, reception_safe [.byte 0xC0, .byte 1, .byte 0xC0, .getState, .acquire, .rearm,
    .getData, .byte 0xC0, .release, .byte 2, .release, .byte 0xC0, .release, .getState, .acquire,
    .rearm, .getData] _ rfl, ?_, ?_⟩ <;> decide

end FlasherStub
