import FlasherStub.Dispatcher
import FlasherStub.Lib.Lockstep

/-! What a command does not look at. A run is mirrored by the run from a state in which such
leftovers of earlier commands are different. -/

namespace FlasherStub

open ByteMemory Budget

variable {W D H S C : Type} (env : Platform W D H S C)

/-- Other values in the fields that the flash commands leave alone, and the frames and events
of the time before. -/
structure Residue (D S : Type) where
  memory : MemoryOperationState → MemoryOperationState := id
  compressedRemaining : Nat → Nat := id
  decompressor : D → D := id
  decompressedData : Memory → Memory := id
  decompressedDataPtr : Nat → Nat := id
  plugin : S → S := id
  sent : List (List UInt8)
  trace : List Event

def StubState.under (ρ : Residue D S) (s : StubState W D S C) : StubState W D S C :=
  { s with
    flash := { s.flash with
      compressedRemaining := ρ.compressedRemaining s.flash.compressedRemaining
      decompressor := ρ.decompressor s.flash.decompressor }
    memory := ρ.memory s.memory
    decompressedData := ρ.decompressedData s.decompressedData
    decompressedDataPtr := ρ.decompressedDataPtr s.decompressedDataPtr
    plugin := ρ.plugin s.plugin
    sent := ρ.sent ++ s.sent
    trace := ρ.trace ++ s.trace }

section Flash

variable (ρ : Residue D S)

theorem mirrors_log (e : Event) : (Stub.log e : Stub W D S C Unit).Mirrors (.under ρ) :=
  Prog.mirrors_modify fun s => by simp [StubState.under]

theorem mirrors_device (f : W → W) : (Stub.device f : Stub W D S C Unit).Mirrors (.under ρ) :=
  Prog.mirrors_modify fun _ => rfl

theorem mirrors_flashReadBuff (addr size : Nat) :
    (Stub.flashReadBuff env addr size : Stub W D S C _).Mirrors (.under ρ) :=
  Prog.mirrors_act fun s => by simp [StubState.under]

theorem mirrors_flashWriteBuff (addr : Nat) (data : List UInt8) (encrypt : Bool) :
    (Stub.flashWriteBuff env addr data encrypt : Stub W D S C _).Mirrors (.under ρ) := by
  refine Prog.mirrors_act fun s => ?_
  simp only [StubState.under, List.append_assoc]
  rfl

theorem mirrors_flashStartNextErase (addr remaining : Nat) :
    (Stub.flashStartNextErase env addr remaining : Stub W D S C _).Mirrors (.under ρ) :=
  Prog.mirrors_act fun s => by simp [StubState.under]

theorem mirrors_sectorIsBlank (addr sectorSize : Nat) :
    (sectorIsBlank env addr sectorSize : Stub W D S C _).Mirrors (.under ρ) := by
  refine Prog.mirrors_loop (fun off => Prog.mirrors_ite ?_ (Prog.mirrors_pure _)) _
  refine (mirrors_flashReadBuff env ρ _ _).bind fun read => ?_
  cases read with
  | none => exact Prog.mirrors_pure _
  | some bytes => exact Prog.mirrors_ite (Prog.mirrors_pure _) (Prog.mirrors_pure _)

theorem mirrors_startErase : (startErase env : Stub W D S C Int).Mirrors (.under ρ) := by
  refine Prog.mirrors_get_bind (fun _ => rfl) fun s => ?_
  refine (mirrors_flashStartNextErase env ρ _ _).bind fun next => ?_
  refine Prog.mirrors_modify_bind (fun _ => rfl) ?_
  exact Prog.mirrors_ite (Prog.mirrors_pure _) (Prog.mirrors_pure _)

theorem mirrors_conditionalEraseNext :
    (conditionalEraseNext env : Stub W D S C Int).Mirrors (.under ρ) := by
  refine Prog.mirrors_get_bind (fun _ => rfl) fun s => ?_
  refine Prog.mirrors_ite (Prog.mirrors_pure _) (Prog.mirrors_ite (mirrors_startErase env ρ) ?_)
  refine (mirrors_sectorIsBlank env ρ _ _).bind fun r => ?_
  refine Prog.mirrors_ite (Prog.mirrors_pure _) (Prog.mirrors_ite ?_ ?_)
  · exact Prog.mirrors_modify_bind (fun _ => rfl) (Prog.mirrors_pure _)
  · exact Prog.mirrors_modify_bind (fun _ => rfl) (mirrors_startErase env ρ)

theorem mirrors_ensureFlashErasedTo (target : Nat) :
    (ensureFlashErasedTo env target : Stub W D S C Int).Mirrors (.under ρ) := by
  refine Prog.mirrors_loop (fun _ => ?_) _
  refine Prog.mirrors_get_bind (fun _ => rfl) fun s => ?_
  refine Prog.mirrors_ite ((mirrors_conditionalEraseNext env ρ).bind fun r => ?_)
    (Prog.mirrors_pure _)
  exact Prog.mirrors_ite (Prog.mirrors_pure _) (Prog.mirrors_pure _)

theorem mirrors_writeFlashData (data : List UInt8) :
    (writeFlashData env data : Stub W D S C Int).Mirrors (.under ρ) := by
  refine Prog.mirrors_get_bind (fun _ => rfl) fun s => (mirrors_log ρ _).bind fun _ => ?_
  refine (mirrors_ensureFlashErasedTo env ρ _).bind fun r => ?_
  refine Prog.mirrors_ite (Prog.mirrors_pure _) ?_
  refine Prog.mirrors_get_bind (fun _ => rfl) fun s => ?_
  refine (mirrors_flashWriteBuff env ρ _ _ _).bind fun result => ?_
  exact Prog.mirrors_ite (Prog.mirrors_pure _)
    (Prog.mirrors_modify_bind (fun _ => rfl) (Prog.mirrors_pure _))

theorem mirrors_flashDataPostProcess (ctx : CmdCtx) :
    (flashDataPostProcess env ctx : Stub W D S C Int).Mirrors (.under ρ) :=
  Prog.mirrors_get_bind (fun _ => rfl) fun _ => mirrors_writeFlashData env ρ _

theorem mirrors_setPendingPostProcess (p : PostProcess C) :
    (setPendingPostProcess p : Stub W D S C Unit).Mirrors (.under ρ) :=
  Prog.mirrors_modify fun _ => rfl

theorem mirrors_flashData (ctx : CmdCtx) :
    (flashData ctx : Stub W D S C Int).Mirrors (.under ρ) := by
  refine Prog.mirrors_get_bind (fun _ => rfl) fun s => ?_
  refine Prog.mirrors_ite (Prog.mirrors_pure _) (Prog.mirrors_ite (Prog.mirrors_pure _)
    (Prog.mirrors_ite (Prog.mirrors_pure _) (Prog.mirrors_ite (Prog.mirrors_pure _) ?_)))
  exact (mirrors_setPendingPostProcess ρ _).bind fun _ => Prog.mirrors_pure _

theorem mirrors_flashDeflData (ctx : CmdCtx) :
    (flashDeflData ctx : Stub W D S C Int).Mirrors (.under ρ) := by
  refine Prog.mirrors_get_bind (fun _ => rfl) fun s => ?_
  refine Prog.mirrors_ite (Prog.mirrors_pure _) (Prog.mirrors_ite (Prog.mirrors_pure _)
    (Prog.mirrors_ite (Prog.mirrors_pure _) ?_))
  exact (mirrors_setPendingPostProcess ρ _).bind fun _ => Prog.mirrors_pure _

theorem mirrors_sendResponse (command : Nat) (code : Int) (resp : Option ResponseData) :
    (sendResponse env command code resp : Stub W D S C Unit).Mirrors (.under ρ) :=
  Prog.mirrors_modify fun s => by simp [StubState.under]

theorem mirrors_setAccumulatedResult (code : Int) :
    (setAccumulatedResult code : Stub W D S C Unit).Mirrors (.under ρ) :=
  Prog.mirrors_modify fun _ => rfl

theorem mirrors_respond (ctx : CmdCtx) (result : Int) (response : CommandResponseData C) :
    (respond env ctx result response : Stub W D S C Unit).Mirrors (.under ρ) :=
  Prog.mirrors_ite (mirrors_sendResponse env ρ _ _ _)
    ((mirrors_sendResponse env ρ _ _ _).bind fun _ => Prog.mirrors_modify fun _ => rfl)

end Flash

structure SameEffects (a b s t : StubState W D S C) : Prop where
  frames : ∃ frames, s.sent = a.sent ++ frames ∧ t.sent = b.sent ++ frames
  events : ∃ events, s.trace = a.trace ++ events ∧ t.trace = b.trace ++ events
  world : t.world = s.world

/-- A relation between two stubs that the dispatcher does not tell apart. -/
structure Respects (R : StubState W D S C → StubState W D S C → Prop) : Prop where
  accumulated : ∀ {s t}, R s t → t.accumulatedResult = s.accumulatedResult
  pending : ∀ {s t}, R s t → t.pendingPostProcess = s.pendingPostProcess
  send : ∀ {s t}, R s t → ∀ frame, R (s.afterSend env frame) (t.afterSend env frame)
  settle : ∀ {s t}, R s t → ∀ code,
    R { s with accumulatedResult := code } { t with accumulatedResult := code }
  drop : ∀ {s t}, R s t → R { s with pendingPostProcess := none } { t with pendingPostProcess := none }
  finish : ∀ {s t}, R s t → ∀ code, R (s.afterCallback code) (t.afterCallback code)

variable {env} {R Q E : StubState W D S C → StubState W D S C → Prop} {s t : StubState W D S C}

theorem Respects.answered (respects : Respects env R) (h : R s t) (ctx : CmdCtx)
    (r : Int × CommandResponseData C) : R (s.answered env ctx r) (t.answered env ctx r) := by
  unfold StubState.answered
  split_ifs with good
  · exact respects.settle (respects.send h _) responseSuccess
  · exact respects.settle (respects.drop (respects.send h _)) responseSuccess

theorem lockstep_answer {ctx : CmdCtx} {post : Unit → StubState W D S C → StubState W D S C → Prop}
    (h : (dispatch env ctx (Opcode.ofByte ctx.command)).Lockstep
      (dispatch env ctx (Opcode.ofByte ctx.command)) s t E
        fun r u v => post () (u.answered env ctx r) (v.answered env ctx r)) :
    (answer env ctx).Lockstep (answer env ctx) s t E post := by
  refine Prog.Lockstep.bind (h.post_mono fun r u v answered => ?_)
  refine Prog.Lockstep.modify_bind (Prog.Lockstep.bind ?_)
  unfold StubState.answered at answered
  unfold respond
  split_ifs at answered ⊢ with good
  · exact Prog.Lockstep.act rfl (Prog.Lockstep.act rfl answered)
  · exact Prog.Lockstep.modify_bind (Prog.Lockstep.act rfl (Prog.Lockstep.act rfl answered))

variable {f : Frame}

variable (env) in
/-- How two stubs stand to each other after the command `f`: as `Q` says if its callback has
run, as `R` says otherwise. -/
def Settled (f : Frame) (s : StubState W D S C) (R Q : StubState W D S C → StubState W D S C → Prop)
    (u v : StubState W D S C) : Prop :=
  u.pendingPostProcess = none ∧
    ((∃ p, Registers env f s p) ∧ Q u v ∨ (∀ p, ¬Registers env f s p) ∧ R u v)

theorem lockstep_execute (ok : f.HeaderOk) (clear : s.accumulatedResult = responseSuccess)
    (opcode : Opcode.ofByte f.ctx.command ≠ .runUserCode) (respects : Respects env R)
    (handler : (dispatch env f.ctx (Opcode.ofByte f.ctx.command)).Lockstep
      (dispatch env f.ctx (Opcode.ofByte f.ctx.command)) s t E fun _ => R)
    (callback : ∀ r u p, Handled env f s r u → r.1 = responseSuccess →
      u.pendingPostProcess = some p → ∀ v, R (u.answered env f.ctx r) v →
        (runPostProcess env f.ctx p).Lockstep (runPostProcess env f.ctx p) (u.answered env f.ctx r)
          v E fun e u v => Q (u.afterCallback e) (v.afterCallback e)) :
    (execute env f.ctx).Lockstep (execute env f.ctx) s t E
      fun _ => Settled env f s R Q := by
  rw [execute, if_neg opcode]
  have handled : (dispatch env f.ctx (Opcode.ofByte f.ctx.command)).Ensures s (fun _ => True)
      (Handled env f s) :=
    Prog.Ensures.of_returns fun r u returned => ⟨ok, clear, opcode, returned⟩
  refine Prog.Lockstep.bind (lockstep_answer ((handler.and_left handled).mono
    (fun u v h => h.1) fun r u v h => ?_))
  obtain ⟨related, handled⟩ := h
  have related := respects.answered related f.ctx r
  refine Prog.Lockstep.get_bind ?_
  rw [respects.pending related]
  cases pending : (u.answered env f.ctx r).pendingPostProcess with
  | none =>
    refine Prog.Lockstep.pure ⟨pending, .inr ⟨fun p h => ?_, related⟩⟩
    have left := (handled.pending_iff p).mpr h
    rw [pending] at left
    cases left
  | some p =>
    have registers : Registers env f s p := (handled.pending_iff p).mp pending
    obtain ⟨good, registered⟩ := (handled.registers_iff p).mp registers
    refine Prog.Lockstep.bind ((callback r u p handled good registered _ related).post_mono
      fun e u v h => ?_)
    exact Prog.Lockstep.act rfl ⟨rfl, .inl ⟨⟨p, registers⟩, h⟩⟩

theorem lockstep_handleCommand (f : Frame) (respects : Respects env R) (related : R s t)
    (idle : s.pendingPostProcess = none)
    (handler : f.HeaderOk → s.accumulatedResult = responseSuccess →
      (dispatch env f.ctx (Opcode.ofByte f.ctx.command)).Lockstep
        (dispatch env f.ctx (Opcode.ofByte f.ctx.command)) s t E fun _ => R)
    (callback : ∀ r u p, Handled env f s r u → r.1 = responseSuccess →
      u.pendingPostProcess = some p → ∀ v, R (u.answered env f.ctx r) v →
        (runPostProcess env f.ctx p).Lockstep (runPostProcess env f.ctx p) (u.answered env f.ctx r)
          v E fun e u v => Q (u.afterCallback e) (v.afterCallback e)) :
    (handleCommand env f.buffer f.size).Lockstep (handleCommand env f.buffer f.size) s t E
      fun _ => Settled env f s R Q := by
  by_cases ok : f.HeaderOk
  · rw [handleCommand_ok env ok]
    refine Prog.Lockstep.get_bind ?_
    rw [respects.accumulated related]
    by_cases clear : s.accumulatedResult = responseSuccess
    · rw [if_neg (not_not.mpr clear)]
      by_cases opcode : Opcode.ofByte f.ctx.command = .runUserCode
      · rw [execute, if_pos opcode]
        refine Prog.Lockstep.pure ⟨idle, .inr ⟨fun p registers => ?_, related⟩⟩
        obtain ⟨r, u, h, -⟩ := registers
        exact h.opcode opcode
      · exact lockstep_execute ok clear opcode respects (handler ok clear) callback
    · rw [if_pos clear]
      have quiet (p : PostProcess C) : ¬Registers env f s p :=
        fun h => not_succeeds_of_report clear h.succeeds
      refine Prog.Lockstep.modify_bind (Prog.Lockstep.act rfl ⟨idle, .inr ⟨quiet, ?_⟩⟩)
      exact respects.settle (respects.send related _) responseSuccess
  · rw [handleCommand_reject env ok]
    have quiet (p : PostProcess C) : ¬Registers env f s p :=
      fun h => not_succeeds_of_reject ok h.succeeds
    exact Prog.Lockstep.act rfl ⟨idle, .inr ⟨quiet, respects.send related _⟩⟩

theorem lockstep_quiet (ok : f.HeaderOk) (clear : s.accumulatedResult = responseSuccess)
    (clear' : t.accumulatedResult = responseSuccess)
    (opcode : Opcode.ofByte f.ctx.command ≠ .runUserCode) (respects : Respects env R)
    (handler : (dispatch env f.ctx (Opcode.ofByte f.ctx.command)).Lockstep
      (dispatch env f.ctx (Opcode.ofByte f.ctx.command)) s t E fun _ => R)
    (quiet : ∀ r u p, Handled env f s r u → r.1 = responseSuccess →
      u.pendingPostProcess ≠ some p) :
    (handleCommand env f.buffer f.size).Lockstep (handleCommand env f.buffer f.size) s t E
      fun _ u v => R u v ∧ u.pendingPostProcess = none := by
  rw [handleCommand_ok env ok]
  refine Prog.Lockstep.get_bind ?_
  rw [if_neg (not_not.mpr clear), if_neg (not_not.mpr clear')]
  refine (lockstep_execute (Q := R) ok clear opcode respects handler
    fun r u p handled good pending v _ => absurd pending (quiet r u p handled good)).post_mono
      fun _ u v h => ?_
  obtain ⟨idle, ⟨-, related⟩ | ⟨-, related⟩⟩ := h
  · exact ⟨related, idle⟩
  · exact ⟨related, idle⟩

theorem lockstep_serve {frames : List Frame} (step : ∀ g ∈ frames, ∀ s t, R s t →
    (handleCommand env g.buffer g.size).Lockstep (handleCommand env g.buffer g.size) s t E
      fun _ => R) (related : R s t) :
    (serve env frames).Lockstep (serve env frames) s t E fun _ => R := by
  induction frames generalizing s t with
  | nil => exact Prog.Lockstep.pure related
  | cons g frames ih =>
    refine Prog.Lockstep.bind ((step g (by simp) s t related).post_mono fun _ u v h => ?_)
    exact ih (fun g hg => step g (by simp [hg])) h

def Residue.history (a : StubState W D S C) : Residue D S where
  sent := a.sent
  trace := a.trace

/-- The stub with the frames and events forgotten. -/
def StubState.unseen (s : StubState W D S C) : StubState W D S C :=
  { s with sent := [], trace := [] }

theorem unseen_under_history {a : StubState W D S C} (s : StubState W D S C)
    (sent : s.sent = a.sent) (trace : s.trace = a.trace) : s.unseen.under (.history a) = s := by
  simp [StubState.unseen, StubState.under, Residue.history, ← sent, ← trace]

/-- Two runs that began in `a` and in `b` have come to one state, but for a residue in the second
that `L` admits beside the session and the window of that state. -/
def Alike (L : Residue D S → FlashOperationState D → Memory → Nat → Prop)
    (a b s t : StubState W D S C) : Prop :=
  ∃ (x : StubState W D S C) (ρ : Residue D S), s = x.under (.history a) ∧ t = x.under ρ ∧
    ρ.sent = b.sent ∧ ρ.trace = b.trace ∧ L ρ x.flash x.decompressedData x.decompressedDataPtr

section Alike

variable {L : Residue D S → FlashOperationState D → Memory → Nat → Prop}
  {a b x : StubState W D S C} {ρ : Residue D S}

theorem sameEffects_under (sent : ρ.sent = b.sent) (trace : ρ.trace = b.trace) :
    SameEffects a b (x.under (.history a)) (x.under ρ) where
  frames := ⟨x.sent, rfl, by rw [← sent]; rfl⟩
  events := ⟨x.trace, rfl, by rw [← trace]; rfl⟩
  world := rfl

theorem Alike.effects (h : Alike L a b s t) : SameEffects a b s t := by
  obtain ⟨x, ρ, rfl, rfl, sent, trace, -⟩ := h
  exact sameEffects_under sent trace

theorem Alike.imp {L' : Residue D S → FlashOperationState D → Memory → Nat → Prop}
    (h : Alike L a b s t) (imp : ∀ ρ flash w p, flash.inProgress = s.flash.inProgress →
      L ρ flash w p → L' ρ flash w p) : Alike L' a b s t := by
  obtain ⟨x, ρ, rfl, rfl, sent, trace, dead⟩ := h
  exact ⟨x, ρ, rfl, rfl, sent, trace, imp ρ _ _ _ rfl dead⟩

theorem under_afterSend (ρ : Residue D S) (x : StubState W D S C) (frame : List UInt8) :
    (x.under ρ).afterSend env frame = (x.afterSend env frame).under ρ := by
  simp [StubState.under, StubState.afterSend]

theorem under_afterCallback (ρ : Residue D S) (x : StubState W D S C) (code : Int) :
    (x.under ρ).afterCallback code = (x.afterCallback code).under ρ := by
  simp [StubState.under, StubState.afterCallback]

variable (env) in
theorem alike_respects (L : Residue D S → FlashOperationState D → Memory → Nat → Prop)
    (a b : StubState W D S C) : Respects env (Alike L a b) where
  accumulated := by
    rintro _ _ ⟨x, ρ, rfl, rfl, -⟩
    rfl
  pending := by
    rintro _ _ ⟨x, ρ, rfl, rfl, -⟩
    rfl
  send := by
    rintro _ _ ⟨x, ρ, rfl, rfl, dead⟩ frame
    exact ⟨x.afterSend env frame, ρ, under_afterSend _ x frame, under_afterSend ρ x frame, dead⟩
  settle := by
    rintro _ _ ⟨x, ρ, rfl, rfl, dead⟩ code
    exact ⟨{ x with accumulatedResult := code }, ρ, rfl, rfl, dead⟩
  drop := by
    rintro _ _ ⟨x, ρ, rfl, rfl, dead⟩
    exact ⟨{ x with pendingPostProcess := none }, ρ, rfl, rfl, dead⟩
  finish := by
    rintro _ _ ⟨x, ρ, rfl, rfl, dead⟩ code
    exact ⟨x.afterCallback code, ρ, under_afterCallback _ x code, under_afterCallback ρ x code, dead⟩

theorem lockstep_under {α : Type} {p : Stub W D S C α}
    (mirrors : ∀ ρ : Residue D S, p.Mirrors (.under ρ)) (sent : ρ.sent = b.sent)
    (trace : ρ.trace = b.trace) {always : StubState W D S C → Prop}
    {post : α → StubState W D S C → Prop} (run : p.Ensures x always post) :
    p.Lockstep p (x.under (.history a)) (x.under ρ) (SameEffects a b)
      fun r u v => ∃ y, post r y ∧ u = y.under (.history a) ∧ v = y.under ρ := by
  refine ((mirrors _).lockstep (mirrors ρ) run).mono (fun u v h => ?_) fun r u v h => h
  obtain ⟨y, -, rfl, rfl⟩ := h
  exact sameEffects_under sent trace

end Alike

end FlasherStub
