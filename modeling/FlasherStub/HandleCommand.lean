import FlasherStub.Dispatch

/-! What one call of `handle_command` can do: reject a frame, report a pending
error, or execute the command and then its post-process callback. -/

namespace FlasherStub

open ByteMemory Budget

variable {W D H S C : Type} (env : Platform W D H S C)

def StubState.afterSend (s : StubState W D S C) (frame : List UInt8) : StubState W D S C :=
  { s with world := env.transport.sendFrame frame s.world, sent := s.sent ++ [frame] }

def Frame.rejectCode (f : Frame) : Int :=
  if f.ctx.direction ≠ directionRequest then responseInvalidCommand else responseBadDataLen

def Frame.rejectFrame (f : Frame) : List UInt8 :=
  responseFrame f.ctx.command f.rejectCode none

@[simp] theorem returns_sendResponse (command : Nat) (code : Int) (resp : Option ResponseData)
    (s : StubState W D S C) (a : Unit) (t : StubState W D S C) :
    (sendResponse env command code resp).Returns s a t ↔
      t = s.afterSend env (responseFrame command code resp) :=
  Prog.returns_modify _ s a t

@[simp] theorem returns_setAccumulatedResult (code : Int) (s : StubState W D S C) (a : Unit)
    (t : StubState W D S C) :
    (setAccumulatedResult code).Returns s a t ↔ t = { s with accumulatedResult := code } :=
  Prog.returns_modify _ s a t

theorem handleCommand_reject {f : Frame} (bad : ¬ f.HeaderOk) :
    handleCommand (D := D) (S := S) env f.buffer f.size =
      sendResponse env f.ctx.command f.rejectCode none := by
  have whole : ¬ (f.ctx.direction = directionRequest ∧
    f.size = f.ctx.packetSize + headerSize) := bad
  unfold handleCommand Frame.rejectCode
  by_cases direction : f.ctx.direction = directionRequest
  · have size : f.size ≠ f.ctx.packetSize + headerSize := fun h => whole ⟨direction, h⟩
    simp only [Frame.ctx] at direction size ⊢
    simp only [direction, ne_eq, not_true, if_false, size, not_false_eq_true, if_true]
  · simp only [Frame.ctx] at direction ⊢
    simp only [ne_eq, direction, not_false_eq_true, if_true]

theorem handleCommand_ok {f : Frame} (ok : f.HeaderOk) :
    handleCommand (D := D) (S := S) env f.buffer f.size = (do
      let s ← .get
      if s.accumulatedResult ≠ responseSuccess then
        sendResponse env f.ctx.command s.accumulatedResult none
        setAccumulatedResult responseSuccess
      else execute env f.ctx) := by
  obtain ⟨direction, size⟩ := ok
  simp only [Frame.ctx] at direction size ⊢
  simp only [handleCommand, direction, size, ne_eq, not_true, if_false]

theorem returns_handleCommand_reject {f : Frame} (bad : ¬ f.HeaderOk) (s t : StubState W D S C) :
    (handleCommand env f.buffer f.size).Returns s () t ↔ t = s.afterSend env f.rejectFrame := by
  rw [handleCommand_reject env bad]
  exact returns_sendResponse env _ _ _ s () t

theorem returns_handleCommand_report {f : Frame} (ok : f.HeaderOk) {s : StubState W D S C}
    (pending : s.accumulatedResult ≠ responseSuccess) (t : StubState W D S C) :
    (handleCommand env f.buffer f.size).Returns s () t ↔
      t = { s.afterSend env (responseFrame f.ctx.command s.accumulatedResult none) with
        accumulatedResult := responseSuccess } := by
  rw [handleCommand_ok env ok]
  simp only [Prog.returns_bind, Prog.returns_get]
  constructor
  · rintro ⟨_, _, ⟨rfl, rfl⟩, h⟩
    rw [if_pos pending, Prog.returns_bind] at h
    obtain ⟨_, u, hu, h⟩ := h
    rw [(returns_sendResponse env _ _ _ _ _ _).mp hu] at h
    exact (returns_setAccumulatedResult _ _ _ _).mp h
  · rintro rfl
    refine ⟨s, s, ⟨rfl, rfl⟩, ?_⟩
    rw [if_pos pending, Prog.returns_bind]
    exact ⟨(), _, (returns_sendResponse env _ _ _ _ _ _).mpr rfl,
      (returns_setAccumulatedResult _ _ _ _).mpr rfl⟩

theorem run_handleCommand_execute {f : Frame} (ok : f.HeaderOk) {s : StubState W D S C}
    (clear : s.accumulatedResult = responseSuccess) (n : Nat) :
    (handleCommand env f.buffer f.size).run n s = (execute env f.ctx).run n s := by
  rw [handleCommand_ok env ok]
  change (if s.accumulatedResult ≠ responseSuccess then _ else _ : Stub W D S C Unit).run n s = _
  rw [if_neg (not_not.mpr clear)]

theorem returns_handleCommand_execute {f : Frame} (ok : f.HeaderOk) {s : StubState W D S C}
    (clear : s.accumulatedResult = responseSuccess) (t : StubState W D S C) :
    (handleCommand env f.buffer f.size).Returns s () t ↔ (execute env f.ctx).Returns s () t := by
  simp only [Prog.Returns, run_handleCommand_execute env ok clear]

theorem ensures_withEmptyResponse {handler : Stub W D S C Int} {s : StubState W D S C}
    {always : StubState W D S C → Prop} {Q : Int × CommandResponseData C → StubState W D S C → Prop}
    (h : handler.Ensures s always fun r => Q (r, {})) :
    (withEmptyResponse handler).Ensures s always Q :=
  Prog.Ensures.bind (h.post fun _ _ => Prog.Ensures.pure)

/-- The state after the handler left `s` with the result `r` and the answer went out. -/
def StubState.answered (s : StubState W D S C) (ctx : CmdCtx)
    (r : Int × CommandResponseData C) : StubState W D S C :=
  if r.1 = responseSuccess then
    { s.afterSend env (responseFrame ctx.command responseSuccess (some r.2.toResponseData)) with
      accumulatedResult := responseSuccess }
  else
    { s.afterSend env (responseFrame ctx.command r.1 none) with
      pendingPostProcess := none
      accumulatedResult := responseSuccess }

theorem ensures_answer {ctx : CmdCtx} {s : StubState W D S C} {always : StubState W D S C → Prop}
    {post : Unit → StubState W D S C → Prop}
    (h : (dispatch env ctx (Opcode.ofByte ctx.command)).Ensures s always
      fun r t => post () (t.answered env ctx r)) : (answer env ctx).Ensures s always post := by
  refine Prog.Ensures.bind (h.post fun r t answered => ?_)
  refine Prog.Ensures.bind (Prog.Ensures.modify (Prog.Ensures.bind ?_))
  unfold StubState.answered at answered
  unfold respond
  split_ifs at answered ⊢ with good
  · exact Prog.Ensures.modify (Prog.Ensures.modify answered)
  · exact Prog.Ensures.bind (Prog.Ensures.modify (Prog.Ensures.modify
      (Prog.Ensures.modify answered)))

theorem returns_answer {ctx : CmdCtx} {s u : StubState W D S C} {r : Int × CommandResponseData C}
    (h : (dispatch env ctx (Opcode.ofByte ctx.command)).Returns s r u) :
    (answer env ctx).Returns s () (u.answered env ctx r) := by
  have runs : (respond env ctx r.1 r.2 >>= fun _ => setAccumulatedResult responseSuccess).Returns
      { u with accumulatedResult := r.1 } () (u.answered env ctx r) := by
    unfold respond StubState.answered
    split_ifs with good
    · simp [Prog.returns_bind, StubState.afterSend]
    · simp [Prog.returns_bind, StubState.afterSend]
  exact (Prog.returns_bind _ _ _ _ _).mpr ⟨r, u, h, (Prog.returns_modify_bind _ _ _ _ _).mpr runs⟩

theorem answered_sent (s : StubState W D S C) (ctx : CmdCtx) (r : Int × CommandResponseData C) :
    ∃ resp, (s.answered env ctx r).sent = s.sent ++ [responseFrame ctx.command r.1 resp] := by
  unfold StubState.answered
  split_ifs with good
  · exact ⟨some r.2.toResponseData, by rw [good]; rfl⟩
  · exact ⟨none, rfl⟩

theorem answered_idle {s : StubState W D S C} (idle : s.pendingPostProcess = none) {ctx : CmdCtx}
    {r : Int × CommandResponseData C} : (s.answered env ctx r).pendingPostProcess = none := by
  unfold StubState.answered
  split_ifs
  · exact idle
  · rfl

theorem answered_accumulatedResult (s : StubState W D S C) (ctx : CmdCtx)
    (r : Int × CommandResponseData C) :
    (s.answered env ctx r).accumulatedResult = responseSuccess := by
  unfold StubState.answered
  split_ifs <;> rfl

theorem returns_execute {ctx : CmdCtx} (opcode : Opcode.ofByte ctx.command ≠ .runUserCode)
    {s t : StubState W D S C} (run : (execute env ctx).Returns s () t) :
    ∃ r u, (dispatch env ctx (Opcode.ofByte ctx.command)).Returns s r u ∧
      (postProcess env ctx).Returns (u.answered env ctx r) () t := by
  rw [execute, if_neg opcode, Prog.returns_bind] at run
  obtain ⟨_, v, answered, run⟩ := run
  have through : (answer env ctx).Ensures s (fun _ => True) fun _ v => ∃ r u,
      (dispatch env ctx (Opcode.ofByte ctx.command)).Returns s r u ∧ v = u.answered env ctx r :=
    ensures_answer env (Prog.Ensures.of_returns fun r u h => ⟨r, u, h, rfl⟩)
  obtain ⟨r, u, dispatched, rfl⟩ := through.2 () v answered
  exact ⟨r, u, dispatched, run⟩

theorem terminates_answer {ctx : CmdCtx} {s : StubState W D S C}
    (h : (dispatch env ctx (Opcode.ofByte ctx.command)).Terminates s) :
    (answer env ctx).Terminates s := by
  refine h.bind fun r u _ => (Prog.terminates_act _ u).bind fun _ v _ => ?_
  refine Prog.Terminates.bind ?_ fun _ w _ => Prog.terminates_act _ w
  unfold respond
  split_ifs
  · exact Prog.terminates_act _ v
  · exact (Prog.terminates_act _ v).bind fun _ w _ => Prog.terminates_act _ w

def StubState.afterCallback (s : StubState W D S C) (result : Int) : StubState W D S C :=
  { s with
    accumulatedResult := result
    pendingPostProcess := none
    trace := s.trace ++ [.postProcess result] }

theorem returns_postProcess_none {ctx : CmdCtx} {s : StubState W D S C}
    (idle : s.pendingPostProcess = none) (t : StubState W D S C) :
    (postProcess env ctx).Returns s () t ↔ t = s := by
  simp [postProcess, idle]

theorem returns_postProcess_some {ctx : CmdCtx} {s : StubState W D S C} {p : PostProcess C}
    (pending : s.pendingPostProcess = some p) (t : StubState W D S C) :
    (postProcess env ctx).Returns s () t ↔
      ∃ e u, (runPostProcess env ctx p).Returns s e u ∧ t = u.afterCallback e := by
  simp [postProcess, pending, StubState.afterCallback, Prog.returns_bind]

theorem returns_serve_append (frames frames' : List Frame) (s t : StubState W D S C) :
    (serve env (frames ++ frames')).Returns s () t ↔
      ∃ u, (serve env frames).Returns s () u ∧ (serve env frames').Returns u () t := by
  induction frames generalizing s with
  | nil => simp [serve]
  | cons g frames ih =>
    simp only [List.cons_append, serve, Prog.returns_bind, ih]
    constructor
    · rintro ⟨_, u, hu, v, hv, ht⟩
      exact ⟨v, ⟨(), u, hu, hv⟩, ht⟩
    · rintro ⟨v, ⟨_, u, hu, hv⟩, ht⟩
      exact ⟨(), u, hu, v, hv, ht⟩

theorem returns_serve_snoc (frames : List Frame) (f : Frame) (s t : StubState W D S C) :
    (serve env (frames ++ [f])).Returns s () t ↔
      ∃ u, (serve env frames).Returns s () u ∧
        (handleCommand env f.buffer f.size).Returns u () t := by
  have one (u : StubState W D S C) : (serve env [f]).Returns u () t ↔
      (handleCommand env f.buffer f.size).Returns u () t := by
    simp only [serve, Prog.returns_bind, Prog.returns_pure, true_and]
    constructor
    · rintro ⟨_, _, h, rfl⟩
      exact h
    · intro h
      exact ⟨(), t, h, rfl⟩
  simp only [returns_serve_append, one]

end FlasherStub
