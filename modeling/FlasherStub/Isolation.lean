import FlasherStub.InflateWindow
import FlasherStub.NandIsolation
import FlasherStub.SimulatedDevice

/-! Sessions are isolated from what came before. Two stubs on equal devices run a session in
lockstep, whatever their earlier sessions have left in the statics. -/

namespace FlasherStub

open ByteMemory Budget

variable {W D H S C : Type} {env : Platform W D H S C} {a b s t : StubState W D S C} {f : Frame}

theorem mirrors_withEmptyResponse {φ : StubState W D S C → StubState W D S C}
    {handler : Stub W D S C Int} (h : handler.Mirrors φ) : (withEmptyResponse handler).Mirrors φ :=
  h.bind fun _ => Prog.mirrors_pure _

theorem lockstep_flashEnd {L : Residue D S → FlashOperationState D → Memory → Nat → Prop}
    (closed : ∀ ρ w p, L ρ { decompressor := env.tinfl.zero } w p) (alike : Alike L a b s t)
    (ctx : CmdCtx) : (withEmptyResponse (handleFlashEnd env ctx)).Lockstep
      (withEmptyResponse (handleFlashEnd env ctx)) s t (SameEffects a b) fun _ => Alike L a b := by
  obtain ⟨x, ρ, rfl, rfl, sent, trace, dead⟩ := alike
  have same : Alike L a b (x.under (.history a)) (x.under ρ) :=
    ⟨x, ρ, rfl, rfl, sent, trace, dead⟩
  refine Prog.Lockstep.bind (Prog.Lockstep.get_bind ?_)
  refine Prog.Lockstep.ite Iff.rfl (fun _ => Prog.Lockstep.pure (Prog.Lockstep.pure same)) fun _ => ?_
  refine Prog.Lockstep.ite Iff.rfl (fun _ => Prog.Lockstep.pure (Prog.Lockstep.pure same)) fun _ => ?_
  refine Prog.Lockstep.ite Iff.rfl (fun _ => Prog.Lockstep.pure (Prog.Lockstep.pure same)) fun _ => ?_
  refine Prog.Lockstep.modify_bind (Prog.Lockstep.pure (Prog.Lockstep.pure ?_))
  exact ⟨{ x with flash := { decompressor := env.tinfl.zero } },
    { ρ with compressedRemaining := id, decompressor := id }, rfl, rfl, sent, trace, closed _ _ _⟩

theorem Handled.registered {r : Int × CommandResponseData C} {u : StubState W D S C}
    {p : PostProcess C} (h : Handled env f s r u) (idle : s.pendingPostProcess = none)
    (builtIn : ∀ idx, Opcode.ofByte f.ctx.command ≠ .plugin idx) (good : r.1 = responseSuccess)
    (pending : u.pendingPostProcess = some p) :
    (Opcode.ofByte f.ctx.command).callback = some p := by
  have spec := (ensures_dispatch f.ctx s builtIn).2 r u h.returns
  rw [spec.pending, if_pos good, idle, Option.or_none] at pending
  exact pending

/-! Plain sessions. Between their frames everything that a residue can be is dead. -/

def anyResidue (_ : Residue D S) (_ : FlashOperationState D) (_ : Memory) (_ : Nat) : Prop := True

theorem Alike.mirrored {α : Type} {p : Stub W D S C α}
    (mirrors : ∀ ρ : Residue D S, p.Mirrors (.under ρ)) (alike : Alike anyResidue a b s t) :
    p.Lockstep p s t (SameEffects a b) fun _ => Alike anyResidue a b := by
  obtain ⟨x, ρ, rfl, rfl, sent, trace, -⟩ := alike
  refine (lockstep_under mirrors sent trace
    (Prog.Ensures.of_returns fun _ _ _ => trivial)).post_mono fun _ u v h => ?_
  obtain ⟨y, -, rfl, rfl⟩ := h
  exact ⟨y, ρ, rfl, rfl, sent, trace, trivial⟩

def AlikePlain (a b s t : StubState W D S C) : Prop :=
  Alike anyResidue a b s t ∧ s.pendingPostProcess = none

theorem lockstep_plain_frame
    (opcode : Opcode.ofByte f.ctx.command = .flashData ∨ Opcode.ofByte f.ctx.command = .flashEnd)
    (alike : AlikePlain a b s t) : (handleCommand env f.buffer f.size).Lockstep
      (handleCommand env f.buffer f.size) s t (SameEffects a b) fun _ => AlikePlain a b := by
  obtain ⟨alike, idle⟩ := alike
  have builtIn (idx : Nat) : Opcode.ofByte f.ctx.command ≠ .plugin idx := by
    obtain h | h := opcode <;> simp [h]
  have handler : (dispatch env f.ctx (Opcode.ofByte f.ctx.command)).Lockstep
      (dispatch env f.ctx (Opcode.ofByte f.ctx.command)) s t (SameEffects a b)
        fun _ => Alike anyResidue a b := by
    obtain h | h := opcode
    · rw [h]
      exact alike.mirrored fun ρ => mirrors_withEmptyResponse (mirrors_flashData ρ f.ctx)
    · rw [h]
      exact lockstep_flashEnd (fun _ _ _ => trivial) alike f.ctx
  refine (lockstep_handleCommand (Q := Alike anyResidue a b) f (alike_respects env _ a b) alike idle
    (fun _ _ => handler) fun r u p handled good pending v alike => ?_).post_mono fun _ u v h => ?_
  · have callback := handled.registered idle builtIn good pending
    obtain h | h := opcode
    · rw [h] at callback
      cases callback
      exact (alike.mirrored (mirrors_flashDataPostProcess env · f.ctx)).post_mono
        fun e u v h => (alike_respects env _ a b).finish h e
    · rw [h] at callback
      cases callback
  · obtain ⟨idle, ⟨-, alike⟩ | ⟨-, alike⟩⟩ := h
    · exact ⟨alike, idle⟩
    · exact ⟨alike, idle⟩

/-! Compressed sessions. The pointer into the window is started over by the block with the
number 0; up to then it may be left anywhere. -/

/-- A FLASH_DEFL_DATA that passes all checks, so that its block is inflated. -/
structure Frame.AcceptedBlock (f : Frame) (s : StubState W D S C) : Prop where
  ok : f.HeaderOk
  clear : s.accumulatedResult = responseSuccess
  opcode : Opcode.ofByte f.ctx.command = .flashDeflData
  size : ¬f.ctx.packetSize < flashDeflDataHeaderSize
  inProgress : checkFlashInProgress s = responseSuccess
  checksum : validateChecksum f.ctx.mem (f.ctx.data + flashDeflDataHeaderSize)
    (getLeToU32 f.ctx.mem f.ctx.data) f.ctx.checksum = responseSuccess

/-- Once a block has been accepted, the residue lies where the stream has not been. -/
def usedWindow (tinfl : Inflater D) (ρ : Residue D S) (flash : FlashOperationState D)
    (window : Memory) (ptr : Nat) : Prop :=
  flash.inProgress = true → OwnWindow tinfl ρ flash window ptr

/-- Before that the pointer may differ, and all of the window. -/
def freshWindow (tinfl : Inflater D) (ρ : Residue D S) (flash : FlashOperationState D)
    (window : Memory) (ptr : Nat) : Prop :=
  flash.inProgress = true → Restartable tinfl ρ flash window ptr

theorem Frame.AcceptedBlock.registers (h : f.AcceptedBlock s) :
    Registers env f s .flashDeflData := by
  refine ⟨(responseSuccess, {}), { s with pendingPostProcess := some .flashDeflData },
    ⟨h.ok, h.clear, by simp [h.opcode], ?_⟩, rfl, rfl⟩
  rw [h.opcode]
  refine (Prog.returns_bind _ _ _ _ _).mpr ⟨responseSuccess, _, ?_, (Prog.returns_pure _ _ _ _).mpr
    ⟨rfl, rfl⟩⟩
  rw [flashDeflData, Prog.returns_get_bind, if_neg h.size, if_neg (not_not.mpr h.inProgress)]
  dsimp only
  rw [if_neg (not_not.mpr h.checksum), setPendingPostProcess, Prog.returns_modify_bind,
    Prog.returns_pure]
  exact ⟨rfl, rfl⟩

theorem Registers.accepted {p : PostProcess C} (h : Registers env f s p)
    (opcode : Opcode.ofByte f.ctx.command = .flashDeflData) : f.AcceptedBlock s := by
  obtain ⟨r, u, handled, good, -⟩ := h
  have returns := handled.returns
  rw [opcode] at returns
  have ensures : (withEmptyResponse (flashDeflData f.ctx) : Stub W D S C _).Ensures s _ _ :=
    ensures_withEmptyResponse (Q := fun r _ => r.1 = responseSuccess → _)
      ((ensures_flashDeflData_accepts f.ctx s).post fun _ _ h => h.2.2.2)
  obtain ⟨size, inProgress, checksum⟩ := ensures.2 r u returns good
  exact ⟨handled.ok, handled.clear, opcode, size, inProgress, checksum⟩

theorem lockstep_defl_handler {L : Residue D S → FlashOperationState D → Memory → Nat → Prop}
    (closed : ∀ ρ w p, L ρ { decompressor := env.tinfl.zero } w p)
    (opcode : Opcode.ofByte f.ctx.command = .flashDeflData ∨
      Opcode.ofByte f.ctx.command = .flashDeflEnd) (alike : Alike L a b s t) :
    (dispatch env f.ctx (Opcode.ofByte f.ctx.command)).Lockstep
      (dispatch env f.ctx (Opcode.ofByte f.ctx.command)) s t (SameEffects a b)
        fun _ => Alike L a b := by
  obtain h | h := opcode
  · rw [h]
    obtain ⟨x, ρ, rfl, rfl, sent, trace, dead⟩ := alike
    refine Prog.Lockstep.bind ((lockstep_under (mirrors_flashDeflData · f.ctx) sent trace
      (ensures_flashDeflData_accepts f.ctx x)).post_mono fun r u v h => Prog.Lockstep.pure ?_)
    obtain ⟨y, ⟨flash, window, ptr, -⟩, rfl, rfl⟩ := h
    exact ⟨y, ρ, rfl, rfl, sent, trace, by rw [flash, window, ptr]; exact dead⟩
  · rw [h]
    exact lockstep_flashEnd closed alike f.ctx

/-- A frame of a compressed session, given what its callback does with the window. -/
theorem lockstep_defl_frame {L : Residue D S → FlashOperationState D → Memory → Nat → Prop}
    (closed : ∀ ρ w p, L ρ { decompressor := env.tinfl.zero } w p)
    (opcode : Opcode.ofByte f.ctx.command = .flashDeflData ∨
      Opcode.ofByte f.ctx.command = .flashDeflEnd)
    (alike : Alike L a b s t) (idle : s.pendingPostProcess = none)
    (block : f.AcceptedBlock s → ∀ u v, u.flash.inProgress = true → Alike L a b u v →
      (flashDeflDataPostProcess env f.ctx).Lockstep (flashDeflDataPostProcess env f.ctx) u v
        (SameEffects a b) fun _ => AlikeStream env.tinfl a b) :
    (handleCommand env f.buffer f.size).Lockstep (handleCommand env f.buffer f.size) s t
      (SameEffects a b) fun _ => Settled env f s (Alike L a b)
        (Alike (usedWindow env.tinfl) a b) := by
  have builtIn (idx : Nat) : Opcode.ofByte f.ctx.command ≠ .plugin idx := by
    obtain h | h := opcode <;> simp [h]
  refine lockstep_handleCommand f (alike_respects env _ a b) alike idle
    (fun _ _ => lockstep_defl_handler closed opcode alike) fun r u p handled good pending v alike => ?_
  have callback := handled.registered idle builtIn good pending
  obtain h | h := opcode
  · rw [h] at callback
    cases callback
    have accepted : f.AcceptedBlock s := Registers.accepted ⟨r, u, handled, good, pending⟩ h
    have inProgress : (u.answered env f.ctx r).flash.inProgress = true := by
      have returns := handled.returns
      rw [h] at returns
      have flash : u.flash = s.flash :=
        (ensures_withEmptyResponse (Q := fun _ u => u.flash = s.flash)
          ((ensures_flashDeflData_accepts f.ctx s).post fun _ _ h => h.1)).2 r u returns
      rw [answered_flash, flash]
      by_contra no
      have closed := accepted.inProgress
      rw [checkFlashInProgress, if_neg no] at closed
      cases closed
    refine (block accepted _ _ inProgress alike).post_mono fun e u v h => ?_
    have used : Alike (usedWindow env.tinfl) a b u v := h.imp fun _ _ _ _ _ own _ => own
    exact (alike_respects env _ a b).finish used e
  · rw [h] at callback
    cases callback

section

variable (reads : env.tinfl.ReadsOwn)

include reads

theorem lockstep_used_serve {frames : List Frame}
    (opcodes : ∀ g ∈ frames, Opcode.ofByte g.ctx.command = .flashDeflData ∨
      Opcode.ofByte g.ctx.command = .flashDeflEnd) (alike : Alike (usedWindow env.tinfl) a b s t)
    (idle : s.pendingPostProcess = none) :
    (serve env frames).Lockstep (serve env frames) s t (SameEffects a b)
      fun _ => SameEffects a b := by
  refine (lockstep_serve (R := fun s t => Alike (usedWindow env.tinfl) a b s t ∧
    s.pendingPostProcess = none) (fun g hg s t h => ?_) ⟨alike, idle⟩).post_mono
      fun _ u v h => h.1.effects
  refine (lockstep_defl_frame (fun _ _ _ => nofun) (opcodes g hg) h.1 h.2
    fun _ u v inProgress alike => lockstep_nextBlock reads g.ctx ?_).post_mono fun _ u v h => ?_
  · exact alike.imp fun ρ flash w p same own => own (same.trans inProgress)
  · obtain ⟨idle, ⟨-, alike⟩ | ⟨-, alike⟩⟩ := h
    · exact ⟨alike, idle⟩
    · exact ⟨alike, idle⟩

variable (env) in
/-- The first block that is accepted has the number 0. -/
def StartsWindow : List Frame → StubState W D S C → Prop
  | [], _ => True
  | f :: frames, s => (f.AcceptedBlock s → f.seq = 0) ∧ (¬f.AcceptedBlock s →
      ∀ t, (handleCommand env f.buffer f.size).Returns s () t → StartsWindow frames t)

theorem lockstep_fresh_serve {frames : List Frame}
    (opcodes : ∀ g ∈ frames, Opcode.ofByte g.ctx.command = .flashDeflData ∨
      Opcode.ofByte g.ctx.command = .flashDeflEnd) (starts : StartsWindow env frames s)
    (alike : Alike (freshWindow env.tinfl) a b s t) (idle : s.pendingPostProcess = none) :
    (serve env frames).Lockstep (serve env frames) s t (SameEffects a b)
      fun _ => SameEffects a b := by
  induction frames generalizing s t with
  | nil => exact Prog.Lockstep.pure alike.effects
  | cons g frames ih =>
    have first := lockstep_defl_frame (fun _ _ _ => nofun) (opcodes g (by simp)) alike idle
      fun accepted u v inProgress alike => lockstep_firstBlock reads (starts.1 accepted)
        (alike.imp fun ρ flash w p same own => own (same.trans inProgress))
    have returned : (handleCommand env g.buffer g.size).Ensures s (fun _ => True)
        fun _ u => (handleCommand env g.buffer g.size).Returns s () u :=
      Prog.Ensures.of_returns fun _ u h => h
    refine Prog.Lockstep.bind ((first.and_left returned).mono (fun _ _ h => h.1) fun _ u v h => ?_)
    have rest : ∀ g ∈ frames, _ := fun h hh => opcodes h (by simp [hh])
    obtain ⟨⟨idle, ⟨-, alike⟩ | ⟨quiet, alike⟩⟩, returned⟩ := h
    · exact lockstep_used_serve reads rest alike idle
    · exact ih rest (starts.2 (fun accepted => quiet _ accepted.registers) u returned) alike idle

end

/-! BEGIN sets all that the session is going to read. -/

structure SameDevice (s t : StubState W D S C) : Prop where
  world : t.world = s.world
  clear : s.accumulatedResult = responseSuccess
  clear' : t.accumulatedResult = responseSuccess
  idle : s.pendingPostProcess = none
  idle' : t.pendingPostProcess = none

def Residue.left (t : StubState W D S C) (isCompressed : Bool) : Residue D S where
  memory _ := t.memory
  compressedRemaining := if isCompressed then id else fun _ => t.flash.compressedRemaining
  decompressor := if isCompressed then id else fun _ => t.flash.decompressor
  decompressedData _ := t.decompressedData
  decompressedDataPtr _ := t.decompressedDataPtr
  plugin _ := t.plugin
  sent := t.sent
  trace := t.trace

theorem begin_under_left (resets : ∀ d d', env.tinfl.init d = env.tinfl.init d')
    (same : SameDevice s t) (ctx : CmdCtx) (isCompressed : Bool) :
    (beginErase env (beginSession env ctx isCompressed s)).unseen.under (.left t isCompressed) =
      beginErase env (beginSession env ctx isCompressed t) := by
  have acc : s.accumulatedResult = t.accumulatedResult := same.clear.trans same.clear'.symm
  have pending : s.pendingPostProcess = t.pendingPostProcess := same.idle.trans same.idle'.symm
  cases isCompressed with
  | false =>
    simp [StubState.under, StubState.unseen, Residue.left, beginErase, beginSession, same.world,
      acc, pending]
  | true =>
    simp [StubState.under, StubState.unseen, Residue.left, beginErase, beginSession, same.world,
      acc, pending, resets t.flash.decompressor s.flash.decompressor]

theorem lockstep_begin {L : Residue D S → FlashOperationState D → Memory → Nat → Prop}
    (resets : ∀ d d', env.tinfl.init d = env.tinfl.init d') (same : SameDevice s t)
    (isCompressed : Bool) (succeeds : Succeeds env f s)
    (opcode : Opcode.ofByte f.ctx.command = if isCompressed then .flashDeflBegin else .flashBegin)
    (dead : ∀ flash w p, flash.decompressor =
        (beginSession env f.ctx isCompressed s).flash.decompressor →
      L (.left t isCompressed) flash w p) :
    (handleCommand env f.buffer f.size).Lockstep (handleCommand env f.buffer f.size) s t
      (SameEffects s t) fun _ u v => Alike L s t u v ∧ u.pendingPostProcess = none := by
  obtain ⟨r, u, handled, good⟩ := succeeds
  have dispatched : dispatch env f.ctx (Opcode.ofByte f.ctx.command) =
      withEmptyResponse (initFlashOperation env f.ctx isCompressed) := by
    rw [opcode]
    cases isCompressed <;> rfl
  have right : ¬(f.ctx.packetSize ≠ flashBeginSize ∧ f.ctx.packetSize ≠ flashBeginEncSize) := by
    intro bad
    have returns := handled.returns
    rw [dispatched, initFlashOperation, if_pos bad, withEmptyResponse, Prog.returns_pure_bind,
      Prog.returns_pure] at returns
    rw [returns.1] at good
    exact badDataLen_ne_success good
  have handler : (dispatch env f.ctx (Opcode.ofByte f.ctx.command)).Lockstep
      (dispatch env f.ctx (Opcode.ofByte f.ctx.command)) s t (SameEffects s t)
        fun _ => Alike L s t := by
    rw [dispatched, initFlashOperation, if_neg right]
    refine Prog.Lockstep.bind (Prog.Lockstep.modify_bind (Prog.Lockstep.modify_bind ?_))
    rw [← begin_under_left resets same]
    have start := unseen_under_history (a := s)
      (beginErase env (beginSession env f.ctx isCompressed s)) rfl rfl
    nth_rewrite 1 [← start]
    refine (lockstep_under (mirrors_conditionalEraseNext env) rfl rfl
      (ensures_conditionalEraseNext env _)).post_mono fun r u v h => Prog.Lockstep.pure ?_
    obtain ⟨y, ahead, rfl, rfl⟩ := h
    exact ⟨y, _, rfl, rfl, rfl, rfl, dead _ _ _ ahead.sameStream.decompressor⟩
  have builtIn (idx : Nat) : Opcode.ofByte f.ctx.command ≠ .plugin idx := by
    rw [opcode]
    cases isCompressed <;> simp
  refine lockstep_quiet handled.ok same.clear same.clear' handled.opcode (alike_respects env L s t)
    handler fun r u p handled good pending => ?_
  have callback := handled.registered same.idle builtIn good pending
  rw [opcode] at callback
  cases isCompressed <;> cases callback

/-- The frames of a flash session after its BEGIN. -/
inductive FlashSession (env : Platform W D H S C) (f : Frame) (frames : List Frame)
    (s : StubState W D S C) : Prop where
  | plain (opcode : Opcode.ofByte f.ctx.command = .flashBegin)
    (rest : ∀ g ∈ frames, Opcode.ofByte g.ctx.command = .flashData ∨
      Opcode.ofByte g.ctx.command = .flashEnd)
  | compressed (opcode : Opcode.ofByte f.ctx.command = .flashDeflBegin)
    (rest : ∀ g ∈ frames, Opcode.ofByte g.ctx.command = .flashDeflData ∨
      Opcode.ofByte g.ctx.command = .flashDeflEnd)
    (starts : ∀ u, (handleCommand env f.buffer f.size).Returns s () u → StartsWindow env frames u)

theorem flash_session_isolated (resets : ∀ d d', env.tinfl.init d = env.tinfl.init d')
    (reads : env.tinfl.ReadsOwn) (same : SameDevice s t) {frames : List Frame}
    (succeeds : Succeeds env f s) (session : FlashSession env f frames s) :
    (serve env (f :: frames)).Lockstep (serve env (f :: frames)) s t (SameEffects s t)
      fun _ => SameEffects s t := by
  cases session with
  | plain opcode rest =>
    have first := lockstep_begin (L := anyResidue) resets same false succeeds
      opcode fun _ _ _ _ => trivial
    refine Prog.Lockstep.bind (first.post_mono fun _ u v alike => ?_)
    exact (lockstep_serve (fun g hg _ _ h => lockstep_plain_frame (rest g hg) h) alike).post_mono
      fun _ _ _ h => h.1.effects
  | compressed opcode rest starts =>
    have first := lockstep_begin (L := freshWindow env.tinfl) resets same true
      succeeds opcode fun flash w p reset _ => ⟨rfl, rfl, ∅, reset ▸ .init _, by simp⟩
    have returned : (handleCommand env f.buffer f.size).Ensures s (fun _ => True)
        fun _ u => (handleCommand env f.buffer f.size).Returns s () u :=
      Prog.Ensures.of_returns fun _ u h => h
    refine Prog.Lockstep.bind ((first.and_left returned).mono (fun _ _ h => h.1) fun _ u v h => ?_)
    obtain ⟨⟨alike, idle⟩, returned⟩ := h
    exact lockstep_fresh_serve reads rest (starts u returned) alike idle

section Nand

variable {D : Type} {env : Platform W D H NandState NandCallback} {driver : NandDriver W}
  {md5 : Md5 H} {transport : TransportOps W} {patched : Nat → Bool}
  {s t : StubState W D NandState NandCallback}

theorem lockstep_nand_begin (table : env.plugin = nandPlugin driver md5 transport patched)
    (same : SameDevice s t) (succeeds : Succeeds env f s)
    (opcode : Opcode.ofByte f.ctx.command = .plugin 4) :
    (handleCommand env f.buffer f.size).Lockstep (handleCommand env f.buffer f.size) s t
      (SameNandEffects s t) fun _ u v => AlikeNand s t u v ∧ u.pendingPostProcess = none := by
  obtain ⟨r, u, handled, good⟩ := succeeds
  have quiet := gives_envWriteSlot table (.inl rfl) f.ctx
  have handler : (dispatch env f.ctx (Opcode.ofByte f.ctx.command)).Lockstep
      (dispatch env f.ctx (Opcode.ofByte f.ctx.command)) s t (SameNandEffects s t)
        fun _ => AlikeNand s t := by
    have succeeds : (dispatch env f.ctx (.plugin 4)).Ensures s (fun _ => True)
        fun r _ => r.1 = responseSuccess := by
      refine Prog.Ensures.of_returns fun r' u' returns => ?_
      rw [← opcode] at returns
      rw [(returns.unique handled.returns).1, good]
    have begins : (callPlugin env 4 f.ctx).Lockstep (callPlugin env 4 f.ctx) s t
        (SameNandEffects s t) fun r u v => r.1 = responseSuccess → AlikeNand s t u v := by
      refine lockstep_callPlugin f.ctx quiet ?_
      rw [table]
      refine (lockstep_beginSlot md5 transport patched _ _ _ _ _ same.world).mono
        (fun _ _ => False.elim) fun r u v h good => ?_
      obtain ⟨world, plugin⟩ := h good
      exact ⟨⟨⟨[], by simp, by simp⟩, ⟨[], by simp, by simp⟩, world⟩,
        same.clear'.trans same.clear.symm, same.idle'.trans same.idle.symm, plugin⟩
    rw [opcode]
    exact (begins.and_left succeeds).mono (fun _ _ h => h.1) fun _ _ _ h => h.1 h.2
  refine lockstep_quiet handled.ok same.clear same.clear' handled.opcode (alikeNand_respects s t)
    handler fun r u p handled _ pending => ?_
  rw [handled.quiet table (.inl rfl) opcode same.idle] at pending
  cases pending

structure NandWriteFrames (f : Frame) (frames : List Frame) : Prop where
  opcode : Opcode.ofByte f.ctx.command = .plugin 4
  rest : ∀ g ∈ frames, Opcode.ofByte g.ctx.command = .plugin 5 ∨
    Opcode.ofByte g.ctx.command = .plugin 9

/-- On equal devices a session answers the same and asks the same of the flash and of the NAND,
whatever the sessions before it were and however they ended. -/
theorem sessions_isolated (table : env.plugin = nandPlugin driver md5 transport patched)
    (resets : ∀ d d', env.tinfl.init d = env.tinfl.init d') (reads : env.tinfl.ReadsOwn)
    (same : SameDevice s t) {frames : List Frame} (succeeds : Succeeds env f s) :
    (FlashSession env f frames s →
      (serve env (f :: frames)).Lockstep (serve env (f :: frames)) s t (SameEffects s t)
        fun _ => SameEffects s t) ∧
    (NandWriteFrames f frames →
      (serve env (f :: frames)).Lockstep (serve env (f :: frames)) s t (SameNandEffects s t)
        fun _ => SameNandEffects s t) := by
  refine ⟨flash_session_isolated resets reads same succeeds, fun session => ?_⟩
  refine Prog.Lockstep.bind ((lockstep_nand_begin table same succeeds session.opcode).post_mono
    fun _ u v alike => ?_)
  refine (lockstep_serve (R := fun u v => AlikeNand s t u v ∧ u.pendingPostProcess = none)
    (fun g hg u v h => ?_) alike).post_mono fun _ _ _ h => h.1.nandEffects
  obtain data | finish := session.rest g hg
  · exact lockstep_nand_frame table (.inl rfl) data h.1 h.2
  · exact lockstep_nand_frame table (.inr rfl) finish h.1 h.2

end Nand

def programmedSizes (trace : List Event) : List Nat := trace.filterMap fun
  | .program _ data _ _ => some data.length
  | _ => none

def twoByteStream : List SimInflate := [(.needsMoreInput, 1, [7]), (.done, 1, [8])]

theorem simTinfl_resets (script : List SimInflate) (d d' : List SimInflate) :
    (simTinfl script).init d = (simTinfl script).init d' := rfl

theorem simTinfl_readsOwn (script : List SimInflate) : (simTinfl script).ReadsOwn := by
  intro d A _ dict dict' _ input next outBytes flags
  cases d <;> rfl

def abandonedSession : List Frame :=
  [beginFrame espFlashDeflBegin 2 0, dataFrame espFlashDeflData 0 [1]]

/-- A compressed session whose block 0 has a wrong checksum. -/
def rejectedFirstBlock : List Frame :=
  [mkFrame espFlashDeflData 0 (setU32ToLe 2 ++ setU32ToLe 0 ++ List.replicate 8 0 ++ [1, 2]),
    dataFrame espFlashDeflData 1 [1, 2]]

theorem abandonedSession_left : ∃ t, (serve (simNandPlatform 4 twoByteStream)
    abandonedSession).Returns (simNandStart fun _ => 0xFF) () t ∧
      SameDevice (simNandStart fun _ => 0xFF) t ∧ programmedSizes t.trace = [] :=
  ⟨_, ⟨50, _, rfl⟩, ⟨rfl, rfl, rfl, rfl, rfl⟩, rfl⟩

theorem begin_succeeds : Succeeds (simNandPlatform 4 twoByteStream)
    (beginFrame espFlashDeflBegin 2 0) (simNandStart fun _ => 0xFF) :=
  ⟨_, _, ⟨by decide, rfl, by decide, ⟨50, _, rfl⟩⟩, rfl⟩

/-- Block 0 is rejected, so block 1 is appended to what the abandoned session has left. -/
theorem rejected_first_block_leaks : ∃ t u v,
    (serve (simNandPlatform 4 twoByteStream) abandonedSession).Returns
      (simNandStart fun _ => 0xFF) () t ∧
    SameDevice (simNandStart fun _ => 0xFF) t ∧
    Succeeds (simNandPlatform 4 twoByteStream) (beginFrame espFlashDeflBegin 2 0)
      (simNandStart fun _ => 0xFF) ∧
    (serve (simNandPlatform 4 twoByteStream)
      (beginFrame espFlashDeflBegin 2 0 :: rejectedFirstBlock)).Returns
        (simNandStart fun _ => 0xFF) () u ∧
    (serve (simNandPlatform 4 twoByteStream)
      (beginFrame espFlashDeflBegin 2 0 :: rejectedFirstBlock)).Returns t () v ∧
    ¬SameEffects (simNandStart fun _ => 0xFF) t u v := by
  obtain ⟨u, fresh, two⟩ : ∃ u, (serve (simNandPlatform 4 twoByteStream)
      (beginFrame espFlashDeflBegin 2 0 :: rejectedFirstBlock)).Returns
        (simNandStart fun _ => 0xFF) () u ∧ programmedSizes u.trace = [2] := ⟨_, ⟨90, _, rfl⟩, rfl⟩
  obtain ⟨v, whole, three⟩ : ∃ v, (serve (simNandPlatform 4 twoByteStream) (abandonedSession ++
      beginFrame espFlashDeflBegin 2 0 :: rejectedFirstBlock)).Returns
        (simNandStart fun _ => 0xFF) () v ∧ programmedSizes v.trace = [3] := ⟨_, ⟨90, _, rfl⟩, rfl⟩
  obtain ⟨t, left, run⟩ := (returns_serve_append _ _ _ _ _).mp whole
  obtain ⟨t', left', same, none_⟩ := abandonedSession_left
  obtain ⟨-, rfl⟩ := left.unique left'
  refine ⟨t, u, v, left, same, begin_succeeds, fresh, run, ?_⟩
  rintro ⟨-, ⟨events, first, second⟩, -⟩
  have sizes : programmedSizes v.trace = programmedSizes t.trace ++ programmedSizes events := by
    rw [second, programmedSizes, List.filterMap_append]
    rfl
  have events_ : u.trace = events := first
  rw [three, none_, ← events_, two] at sizes
  simp at sizes

/-- When block 0 is accepted, the abandoned session does not show. -/
theorem sessions_isolated_two_bytes : ∃ t,
    (serve (simNandPlatform 4 twoByteStream) abandonedSession).Returns
      (simNandStart fun _ => 0xFF) () t ∧
    (serve (simNandPlatform 4 twoByteStream) [beginFrame espFlashDeflBegin 2 0,
      dataFrame espFlashDeflData 0 [1, 2]]).Lockstep
        (serve (simNandPlatform 4 twoByteStream) [beginFrame espFlashDeflBegin 2 0,
          dataFrame espFlashDeflData 0 [1, 2]]) (simNandStart fun _ => 0xFF) t
            (SameEffects (simNandStart fun _ => 0xFF) t)
              fun _ => SameEffects (simNandStart fun _ => 0xFF) t := by
  obtain ⟨t, left, same, -⟩ := abandonedSession_left
  refine ⟨t, left, (sessions_isolated rfl (simTinfl_resets _) (simTinfl_readsOwn _) same
    begin_succeeds).1 (.compressed (by decide) (by decide) fun u _ => ⟨fun _ => rfl, ?_⟩)⟩
  exact fun _ _ _ => trivial

end FlasherStub
