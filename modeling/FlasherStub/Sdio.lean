import FlasherStub.Reception

/-! Reception over SDIO. The driver's DMA writes a whole frame into the armed buffer; that
the frame is there shows in the frame buffers only when the main loop polls. -/

namespace FlasherStub

open ByteMemory
open Slip (Reception)

/-- The receive side of the SDIO driver. A pending frame has the given length. -/
inductive SdioDriver where
  | disarmed
  | armed (buf : Fin 2)
  | pending (buf : Fin 2) (len : Nat)
deriving DecidableEq

/-- A call does nothing while armed, and fails while a frame is pending. -/
def stubLibSdioRearm (buf : Option (Fin 2)) : SdioDriver → SdioDriver
  | .disarmed => buf.elim .disarmed .armed
  | driver => driver

def stubLibSdioTakeRxFrame : SdioDriver → Option Nat × SdioDriver
  | .pending _ len => (some len, .disarmed)
  | driver => (none, driver)

structure SdioPort where
  frames : FrameBuffers
  driver : SdioDriver

def sdioArm (p : SdioPort) : SdioPort :=
  let (buf, frames) := frameBufferAcquire p.frames
  ⟨frames, stubLibSdioRearm buf p.driver⟩

def sdioReturn (state : FrameBufferState) (p : SdioPort) : PollResult × SdioPort :=
  if state = .error then (.error, p)
  else
    let (data, len) := frameBufferGetData p.frames
    (.frame data len, p)

def sdioRecvPoll (p : SdioPort) : PollResult × SdioPort :=
  let (state, frames) := frameBufferGetState p.frames
  let p := { p with frames := frames }
  if state = .idle then
    let (taken, driver) := stubLibSdioTakeRxFrame p.driver
    let p := { p with driver := driver }
    match taken with
    | none => (.idle, sdioArm p)
    | some n =>
      let (state, frames) := frameBufferGetState (frameBufferMarkComplete n p.frames)
      sdioReturn state (sdioArm { p with frames := frames })
  else sdioReturn state p

/-- The DMA of one frame into a buffer, as far as it has room. -/
def SdioPort.dma (p : SdioPort) (buf : Fin 2) (bytes : List UInt8) : SdioPort :=
  let f := p.frames.buffers buf
  { frames := p.frames.set buf
      { f with buffer := f.buffer.write 0 (bytes.take frameBufferSize) }
    driver := .pending buf bytes.length }

/-- What a poll gives to the main loop: the buffer and what it holds, or an error. -/
inductive SdioReturned where
  | error
  | frame (data : Fin 2) (bytes : List UInt8)
deriving DecidableEq

/-- The main loop between polls, or with a frame or an error it has not released yet.
`polled` is whether there was any before. -/
inductive SdioMain where
  | between (polled : Bool)
  | holding (returned : SdioReturned)
deriving DecidableEq

/-- `received` are the frames so far, each with the buffer it was written into, and
`returned` is what the polls have given. -/
structure SdioLink where
  port : SdioPort
  main : SdioMain
  received : List (Fin 2 × List UInt8)
  returned : List SdioReturned

def SdioLink.start : SdioLink := ⟨sdioArm ⟨.initial, .disarmed⟩, .between false, [], []⟩

inductive SdioStep where
  /-- the driver receives a frame -/
  | arrive (bytes : List UInt8)
  /-- the driver disarms by itself -/
  | disarm
  | poll
  | release
deriving DecidableEq

def SdioLink.polled (l : SdioLink) (polled : Bool) (port : SdioPort) : PollResult → SdioLink
  | .idle => { l with port := port, main := .between polled }
  | .error =>
    { l with port := port, main := .holding .error, returned := l.returned ++ [.error] }
  | .frame data len =>
    let frame : SdioReturned := .frame data ((port.frames.buffers data).buffer.read 0 len)
    { l with port := port, main := .holding frame, returned := l.returned ++ [frame] }

/-- One step, where it can happen. -/
def SdioStep.perform (step : SdioStep) (l : SdioLink) : Option SdioLink :=
  match step with
  | .arrive bytes =>
    match l.port.driver with
    | .armed buf =>
      some { l with port := l.port.dma buf bytes, received := l.received ++ [(buf, bytes)] }
    | _ => none
  | .disarm =>
    match l.port.driver with
    | .armed _ => some { l with port := { l.port with driver := .disarmed } }
    | _ => none
  | .poll =>
    match l.main with
    | .between polled => some (l.polled polled (sdioRecvPoll l.port).2 (sdioRecvPoll l.port).1)
    | .holding _ => none
  | .release =>
    if l.main = .between false then none
    else
      let port := { l.port with frames := frameBufferReset l.port.frames }
      some { l with port := port, main := .between true }

def SdioLink.run : List SdioStep → SdioLink → Option SdioLink
  | [], l => some l
  | step :: steps, l => (step.perform l).bind (run steps)

/-- How a received frame is to be returned. -/
def sdioOutcome (frame : Fin 2 × List UInt8) : SdioReturned :=
  if frame.2.length ≤ frameBufferSize then .frame frame.1 frame.2 else .error

def SdioPort.Linked (p : SdioPort) : List (Fin 2 × List UInt8) → Prop
  | [] => p.driver = .disarmed ∨ p.driver = .armed p.frames.rxIdx
  | [(buf, bytes)] => p.driver = .pending buf bytes.length ∧ buf = p.frames.rxIdx ∧
      (p.frames.buffers buf).buffer.read 0 (min frameBufferSize bytes.length) =
        bytes.take frameBufferSize
  | _ => False

def SdioReturned.Held (fb : FrameBuffers) : SdioReturned → Prop
  | .error => (fb.buffers fb.procIdx).Holds .error
  | .frame data bytes => data = fb.procIdx ∧ (fb.buffers fb.procIdx).Holds (.frame bytes)

inductive SdioLink.Ordered : SdioLink → Prop where
  | between {p : SdioPort} {polled : Bool} {received waiting : List (Fin 2 × List UInt8)}
      {returned : List SdioReturned} (linked : p.Linked waiting)
      (log : received.map sdioOutcome = returned ++ waiting.map sdioOutcome)
      (clear : (p.frames.buffers p.frames.rxIdx).Clear)
      (spare : (p.frames.buffers p.frames.other).Clear)
      (apart : polled = true → p.frames.procIdx ≠ p.frames.rxIdx) :
      Ordered ⟨p, .between polled, received, returned⟩
  | holding {p : SdioPort} {held : SdioReturned} {received waiting : List (Fin 2 × List UInt8)}
      {returned : List SdioReturned} (linked : p.Linked waiting)
      (log : received.map sdioOutcome = returned ++ waiting.map sdioOutcome)
      (clear : (p.frames.buffers p.frames.rxIdx).Clear)
      (holds : held.Held p.frames)
      (apart : p.frames.procIdx ≠ p.frames.rxIdx) :
      Ordered ⟨p, .holding held, received, returned⟩

theorem SdioPort.Linked.take_none {p : SdioPort} (linked : p.Linked []) :
    stubLibSdioTakeRxFrame p.driver = (none, p.driver) ∧
      stubLibSdioRearm (some p.frames.rxIdx) p.driver = .armed p.frames.rxIdx := by
  obtain disarmed | armed := linked
  · simp [disarmed, stubLibSdioTakeRxFrame, stubLibSdioRearm]
  · simp [armed, stubLibSdioTakeRxFrame, stubLibSdioRearm]

theorem sdioRecvPoll_none {p : SdioPort} (linked : p.Linked [])
    (clear : (p.frames.buffers p.frames.rxIdx).Clear)
    (spare : (p.frames.buffers p.frames.other).Clear) :
    sdioRecvPoll p = (.idle,
      { frames := p.frames.set p.frames.rxIdx
          { p.frames.buffers p.frames.rxIdx with frameLength := 0 }
        driver := .armed p.frames.rxIdx }) := by
  obtain ⟨take, rearm⟩ := linked.take_none
  simp [sdioRecvPoll, FrameBuffers.getState_clear spare clear, take, sdioArm,
    FrameBuffers.acquire_clear clear, rearm]

theorem completion_linked {p : SdioPort} {buf : Fin 2} {bytes : List UInt8}
    (linked : p.Linked [(buf, bytes)]) :
    completion p.frames bytes.length =
      if frameBufferSize < bytes.length then .error else .frame bytes := by
  obtain ⟨-, rfl, content⟩ := linked
  unfold completion
  split_ifs with long
  · rfl
  · rw [Nat.min_eq_right (by omega), List.take_of_length_le (by omega)] at content
    rw [content]

theorem sdioRecvPoll_some {p : SdioPort} {buf : Fin 2} {bytes : List UInt8}
    (linked : p.Linked [(buf, bytes)]) (clear : (p.frames.buffers p.frames.rxIdx).Clear)
    (spare : (p.frames.buffers p.frames.other).Clear) :
    ∃ frames : FrameBuffers,
      sdioRecvPoll p = (if frameBufferSize < bytes.length then .error else .frame buf bytes.length,
        ⟨frames, .armed frames.rxIdx⟩) ∧
      frames.procIdx = buf ∧ frames.procIdx ≠ frames.rxIdx ∧
      (frames.buffers frames.rxIdx).Clear ∧
      (frames.buffers frames.procIdx).Holds (completion p.frames bytes.length) := by
  obtain ⟨marks, holds⟩ := markComplete_marks clear bytes.length
  have is := completion_linked linked
  obtain ⟨driver, rfl, -⟩ := linked
  generalize marked : frameBufferMarkComplete bytes.length p.frames = fb at marks holds
  have spare' : (fb.buffers fb.other).Clear := by
    rw [marks.other, marks.spare _ p.frames.other_ne]
    exact spare
  rw [← marks.rxIdx] at holds
  have apart := fb.other_ne
  refine ⟨{ fb with
    rxIdx := fb.other
    procIdx := fb.rxIdx
    buffers := Function.update fb.buffers fb.other
      { fb.buffers fb.other with frameLength := 0 } }, ?_, marks.rxIdx, apart.symm, ?_, ?_⟩
  · have idle := FrameBuffers.getState_clear spare clear
    have found := FrameBuffers.getState_holds spare' holds
    have acquired := FrameBuffers.getState_acquire spare' holds
    simp only [sdioRecvPoll, idle, if_pos, driver, stubLibSdioTakeRxFrame, marked, found, sdioArm,
      acquired, stubLibSdioRearm, Option.elim_some]
    rw [is] at holds ⊢
    split_ifs at holds ⊢ with long
    · simp [sdioReturn, stateOf]
    · have length : (fb.buffers fb.rxIdx).frameLength = bytes.length := holds.2.2.1
      rw [marks.rxIdx] at apart length
      simp [sdioReturn, stateOf, frameBufferGetData, marks.rxIdx, apart.symm, length]
  · simpa [FrameBuffer.Clear] using spare'
  · simpa [apart.symm] using holds

namespace SdioPort.Linked

variable {p : SdioPort} {waiting : List (Fin 2 × List UInt8)}

theorem congr {q : SdioPort} (linked : p.Linked waiting) (driver : q.driver = p.driver)
    (rxIdx : q.frames.rxIdx = p.frames.rxIdx)
    (buffer : q.frames.buffers p.frames.rxIdx = p.frames.buffers p.frames.rxIdx) :
    q.Linked waiting := by
  match waiting with
  | [] => simpa [Linked, driver, rxIdx] using linked
  | [(buf, bytes)] =>
    obtain ⟨pending, rfl, content⟩ := linked
    exact ⟨driver.trans pending, rxIdx.symm, by rw [buffer, content]⟩
  | _ :: _ :: _ => exact linked.elim

theorem armed {buf : Fin 2} (linked : p.Linked waiting) (armed : p.driver = .armed buf) :
    waiting = [] ∧ buf = p.frames.rxIdx := by
  match waiting with
  | [] => simpa [Linked, armed] using linked
  | [(buf, bytes)] => cases linked.1.symm.trans armed
  | _ :: _ :: _ => exact linked.elim

theorem dma (p : SdioPort) (bytes : List UInt8) :
    (p.dma p.frames.rxIdx bytes).Linked [(p.frames.rxIdx, bytes)] := by
  refine ⟨rfl, rfl, ?_⟩
  have written := Memory.read_write_self (p.frames.buffers p.frames.rxIdx).buffer 0
    (bytes.take frameBufferSize)
  rw [List.length_take] at written
  simpa [SdioPort.dma, FrameBuffers.set] using written

end SdioPort.Linked

theorem dma_buffers (p : SdioPort) (bytes : List UInt8) {i : Fin 2} (other : i ≠ p.frames.rxIdx) :
    (p.dma p.frames.rxIdx bytes).frames.buffers i = p.frames.buffers i :=
  Function.update_of_ne other _ _

theorem dma_clear {p : SdioPort} (clear : (p.frames.buffers p.frames.rxIdx).Clear)
    (bytes : List UInt8) :
    ((p.dma p.frames.rxIdx bytes).frames.buffers p.frames.rxIdx).Clear := by
  simpa [SdioPort.dma, FrameBuffers.set, FrameBuffer.Clear] using clear

theorem reset_spare {fb : FrameBuffers} (apart : fb.procIdx ≠ fb.rxIdx) :
    (frameBufferReset fb).buffers fb.rxIdx = fb.buffers fb.rxIdx ∧
      ((frameBufferReset fb).buffers fb.other).Clear := by
  refine ⟨Function.update_of_ne apart.symm _ _, ?_⟩
  simp [frameBufferReset, FrameBuffers.set, FrameBuffers.eq_other apart, FrameBuffer.Clear]

theorem SdioReturned.Held.congr {fb fb' : FrameBuffers} {held : SdioReturned}
    (holds : held.Held fb) (procIdx : fb'.procIdx = fb.procIdx)
    (buffer : fb'.buffers fb.procIdx = fb.buffers fb.procIdx) : held.Held fb' := by
  cases held with
  | error => simpa [Held, procIdx, buffer] using holds
  | frame data bytes => simpa [Held, procIdx, buffer] using holds

namespace SdioLink.Ordered

theorem start : Ordered .start :=
  .between (show SdioPort.Linked _ [] from .inr rfl) rfl ⟨rfl, rfl⟩ ⟨rfl, rfl⟩ nofun

variable {l l' : SdioLink} (inv : l.Ordered)

include inv

theorem arrive {bytes : List UInt8} (step : (SdioStep.arrive bytes).perform l = some l') :
    l'.Ordered := by
  simp only [SdioStep.perform] at step
  split at step
  case h_2 => cases step
  case h_1 buf driver =>
    refine Option.some.inj step ▸ ?_
    cases inv with
    | @between p _ _ _ _ linked log clear spare apart =>
      obtain ⟨rfl, rfl⟩ := linked.armed driver
      refine .between (.dma p bytes) (by simp [log]) (dma_clear clear bytes) ?_ apart
      exact (dma_buffers p bytes p.frames.other_ne).symm ▸ spare
    | @holding p _ _ _ _ linked log clear holds apart =>
      obtain ⟨rfl, rfl⟩ := linked.armed driver
      exact .holding (.dma p bytes) (by simp [log]) (dma_clear clear bytes)
        (holds.congr rfl (dma_buffers p bytes apart)) apart

theorem disarm (step : SdioStep.disarm.perform l = some l') : l'.Ordered := by
  simp only [SdioStep.perform] at step
  split at step
  case h_2 => cases step
  case h_1 buf driver =>
    refine Option.some.inj step ▸ ?_
    cases inv with
    | between linked log clear spare apart =>
      obtain ⟨rfl, rfl⟩ := linked.armed driver
      exact .between (show SdioPort.Linked _ [] from .inl rfl) log clear spare apart
    | holding linked log clear holds apart =>
      obtain ⟨rfl, rfl⟩ := linked.armed driver
      exact .holding (show SdioPort.Linked _ [] from .inl rfl) log clear holds apart

theorem poll (step : SdioStep.poll.perform l = some l') : l'.Ordered := by
  simp only [SdioStep.perform] at step
  cases inv with
  | holding => cases step
  | @between p polled received waiting returned linked log clear spare apart =>
    refine Option.some.inj step ▸ ?_
    match waiting with
    | [] =>
      rw [sdioRecvPoll_none linked clear spare]
      refine .between (show SdioPort.Linked _ [] from .inr rfl) log ?_ ?_ apart
      · simpa [FrameBuffers.set, FrameBuffer.Clear] using clear
      · simpa [FrameBuffers.set, FrameBuffers.other, show 1 - p.frames.rxIdx ≠ p.frames.rxIdx from
          p.frames.other_ne] using spare
    | [(buf, bytes)] =>
      obtain ⟨frames, result, proc, apart', clear', holds⟩ := sdioRecvPoll_some linked clear spare
      rw [completion_linked linked] at holds
      rw [result]
      split_ifs at holds ⊢ with long
      · refine .holding (show SdioPort.Linked _ [] from .inr rfl) ?_ clear' holds apart'
        simpa [sdioOutcome, Nat.not_le.mpr long] using log
      · have content := holds.2.2.2
        refine .holding (show SdioPort.Linked _ [] from .inr rfl) ?_ clear' ⟨proc.symm, ?_⟩ apart'
        · simpa [sdioOutcome, Nat.not_lt.mp long, ← proc, content] using log
        · simp only [← proc, content]
          exact holds
    | _ :: _ :: _ => exact linked.elim

theorem release (step : SdioStep.release.perform l = some l') : l'.Ordered := by
  simp only [SdioStep.perform] at step
  split_ifs at step with first
  refine Option.some.inj step ▸ ?_
  cases inv with
  | @between p polled _ _ _ linked log clear spare apart =>
    have polled : polled = true := by simpa using first
    obtain ⟨kept, free⟩ := reset_spare (apart polled)
    exact .between (linked.congr rfl rfl kept) log (kept.symm ▸ clear) free fun _ => apart polled
  | holding linked log clear holds apart =>
    obtain ⟨kept, free⟩ := reset_spare apart
    exact .between (linked.congr rfl rfl kept) log (kept.symm ▸ clear) free fun _ => apart

theorem perform {s : SdioStep} (step : s.perform l = some l') : l'.Ordered := by
  cases s with
  | arrive bytes => exact inv.arrive step
  | disarm => exact inv.disarm step
  | poll => exact inv.poll step
  | release => exact inv.release step

theorem run {steps : List SdioStep} (run : l.run steps = some l') : l'.Ordered := by
  induction steps generalizing l with
  | nil => exact Option.some.inj run ▸ inv
  | cons s steps ih =>
    obtain ⟨next, step, run⟩ := Option.bind_eq_some_iff.mp run
    exact ih (inv.perform step) run

end SdioLink.Ordered

/-- The frames received so far have been returned, in order, but for one that may wait in the
driver; what the main loop holds is intact and out of the driver's reach; and each poll returns
what waits, and leaves the driver armed with a free buffer. -/
structure SdioLink.Safe (l : SdioLink) : Prop where
  exactly : (l.received.map sdioOutcome = l.returned ∧ ∀ buf n, l.port.driver ≠ .pending buf n) ∨
    ∃ buf bytes, l.port.driver = .pending buf bytes.length ∧
      l.received.map sdioOutcome = l.returned ++ [sdioOutcome (buf, bytes)]
  held : ∀ data bytes, l.main = .holding (.frame data bytes) →
    (l.port.frames.buffers data).frameLength = bytes.length ∧
      (l.port.frames.buffers data).buffer.read 0 bytes.length = bytes ∧
      l.port.driver ≠ .armed data ∧ ∀ n, l.port.driver ≠ .pending data n
  polled : ∀ l', SdioStep.poll.perform l = some l' →
    l'.returned = l'.received.map sdioOutcome ∧
    ∃ buf, l'.port.driver = .armed buf ∧ (l'.port.frames.buffers buf).Clear

theorem SdioPort.Linked.at_rx {p : SdioPort} {waiting : List (Fin 2 × List UInt8)}
    (linked : p.Linked waiting) {buf : Fin 2} (other : buf ≠ p.frames.rxIdx) :
    p.driver ≠ .armed buf ∧ ∀ n, p.driver ≠ .pending buf n := by
  match waiting with
  | [] =>
    obtain disarmed | armed := linked
    · simp [disarmed]
    · simp [armed, other.symm]
  | [(_, bytes)] =>
    obtain ⟨pending, rfl, -⟩ := linked
    simp [pending, other.symm]
  | _ :: _ :: _ => exact linked.elim

theorem SdioPort.Linked.exactly {p : SdioPort} {waiting received : List (Fin 2 × List UInt8)}
    {returned : List SdioReturned} (linked : p.Linked waiting)
    (log : received.map sdioOutcome = returned ++ waiting.map sdioOutcome) :
    (received.map sdioOutcome = returned ∧ ∀ buf n, p.driver ≠ .pending buf n) ∨
      ∃ buf bytes, p.driver = .pending buf bytes.length ∧
        received.map sdioOutcome = returned ++ [sdioOutcome (buf, bytes)] := by
  match waiting with
  | [] =>
    refine .inl ⟨by simpa using log, fun buf n => ?_⟩
    obtain disarmed | armed := linked
    · simp [disarmed]
    · simp [armed]
  | [(buf, bytes)] => exact .inr ⟨buf, bytes, linked.1, log⟩
  | _ :: _ :: _ => exact linked.elim

namespace SdioLink.Ordered

variable {l : SdioLink} (inv : l.Ordered)

include inv

theorem exactly : (l.received.map sdioOutcome = l.returned ∧
      ∀ buf n, l.port.driver ≠ .pending buf n) ∨
    ∃ buf bytes, l.port.driver = .pending buf bytes.length ∧
      l.received.map sdioOutcome = l.returned ++ [sdioOutcome (buf, bytes)] := by
  cases inv with
  | between linked log | holding linked log => exact linked.exactly log

theorem held {data : Fin 2} {bytes : List UInt8}
    (holding : l.main = .holding (.frame data bytes)) :
    (l.port.frames.buffers data).frameLength = bytes.length ∧
      (l.port.frames.buffers data).buffer.read 0 bytes.length = bytes ∧
      l.port.driver ≠ .armed data ∧ ∀ n, l.port.driver ≠ .pending data n := by
  cases inv with
  | between => cases holding
  | holding linked log clear holds apart =>
    cases holding
    obtain ⟨rfl, -, -, length, content⟩ := holds
    exact ⟨length, content, linked.at_rx apart⟩

theorem polled {l' : SdioLink} (step : SdioStep.poll.perform l = some l') :
    l'.returned = l'.received.map sdioOutcome ∧
      ∃ buf, l'.port.driver = .armed buf ∧ (l'.port.frames.buffers buf).Clear := by
  have armed : l'.port.driver = .armed l'.port.frames.rxIdx := by
    simp only [SdioStep.perform] at step
    cases inv with
    | holding => cases step
    | @between p polled received waiting returned linked log clear spare apart =>
      refine Option.some.inj step ▸ ?_
      match waiting with
      | [] => rw [sdioRecvPoll_none linked clear spare]; rfl
      | [(buf, bytes)] =>
        obtain ⟨frames, result, -⟩ := sdioRecvPoll_some linked clear spare
        rw [result]
        split_ifs <;> rfl
      | _ :: _ :: _ => exact linked.elim
  have inv' := inv.poll step
  refine ⟨?_, _, armed, ?_⟩
  · obtain ⟨all, -⟩ | ⟨buf, bytes, pending, -⟩ := inv'.exactly
    · exact all.symm
    · cases armed.symm.trans pending
  · cases inv' with
    | between _ _ clear | holding _ _ clear => exact clear

theorem safe : l.Safe := ⟨inv.exactly, fun _ _ => inv.held, fun _ => inv.polled⟩

end SdioLink.Ordered

/-- Reception over SDIO is safe in every state that the driver and the main loop reach. -/
theorem sdio_reception_safe (steps : List SdioStep) (l : SdioLink)
    (run : SdioLink.start.run steps = some l) : l.Safe :=
  (SdioLink.Ordered.start.run run).safe

/-- A disarm without a frame, and a frame that arrives while another one is at work. -/
theorem sdio_reception_safe_two_frames :
    ∃ l : SdioLink, l.Safe ∧ l.returned = [.frame 0 [7], .frame 1 [8, 9]] := by
  refine ⟨_, sdio_reception_safe [.disarm, .poll, .arrive [7], .poll, .arrive [8, 9], .release,
    .release, .poll] _ rfl, ?_⟩
  decide

end FlasherStub
