import FlasherStub.Leftover
import FlasherStub.Nand

/-! A NAND write session does not depend on the sessions before it. The page buffer is not
cleared between sessions, but only the part that was filled since is written. -/

namespace FlasherStub

open ByteMemory Budget

variable {W D H : Type} {driver : NandDriver W}

/-- Two runs of the plugin, from `a` to `s` and from `b` to `t`, are in the same place of a write
session, and have made the same calls. -/
structure NandAlike (a b s t : NandState) : Prop where
  offset : t.write.offset = s.write.offset
  totalRemaining : t.write.totalRemaining = s.write.totalRemaining
  filled : t.write.pageBufFilled = s.write.pageBufFilled
  inProgress : t.write.inProgress = s.write.inProgress
  page : ∀ p < s.write.pageBufFilled, t.write.pageBuf p = s.write.pageBuf p
  calls : ∃ calls, s.calls = a.calls ++ calls ∧ t.calls = b.calls ++ calls

def NandAlike.OnDevice (a b : NandState) (s t : NandState × W) : Prop :=
  t.2 = s.2 ∧ NandAlike a b s.1 t.1

section Write

variable {a b : NandState} {s t : NandState × W}

abbrev NandLockstep {α : Type} (p : NandStub W α) (a b : NandState) (s t : NandState × W)
    (post : α → NandState × W → NandState × W → Prop) : Prop :=
  p.Lockstep p s t (NandAlike.OnDevice a b) post

theorem lockstep_eraseBlock (page : Nat) (h : NandAlike.OnDevice a b s t) :
    NandLockstep (NandStub.eraseBlock driver page) a b s t fun _ u v =>
      NandAlike.OnDevice a b u v ∧ u.1.write = s.1.write := by
  obtain ⟨world, alike⟩ := h
  obtain ⟨calls, first, second⟩ := alike.calls
  refine Prog.Lockstep.act (by rw [world]) ⟨⟨by rw [world], { alike with calls := ?_ }⟩, rfl⟩
  refine ⟨calls ++ [.eraseBlock page (driver.eraseBlock page s.2).1], ?_, ?_⟩
  · simp [first]
  · simp [second, world]

theorem lockstep_writePage (page : Nat) (data : List UInt8) (h : NandAlike.OnDevice a b s t) :
    NandLockstep (NandStub.writePage driver page data) a b s t fun _ u v =>
      NandAlike.OnDevice a b u v := by
  obtain ⟨world, alike⟩ := h
  obtain ⟨calls, first, second⟩ := alike.calls
  refine Prog.Lockstep.act (by rw [world]) ⟨by rw [world], { alike with calls := ?_ }⟩
  refine ⟨calls ++ [.writePage page data (driver.writePage page data s.2).1], ?_, ?_⟩
  · simp [first]
  · simp [second, world]

theorem NandAlike.OnDevice.emptied (h : NandAlike.OnDevice a b s t) {offset offset' : Nat}
    (same : offset' = offset) : NandAlike.OnDevice a b
      ({ s.1 with write := { s.1.write with offset := offset, pageBufFilled := 0 } }, s.2)
      ({ t.1 with write := { t.1.write with offset := offset', pageBufFilled := 0 } }, t.2) :=
  ⟨h.1, { h.2 with
    offset := same
    filled := rfl
    page := fun p lt => absurd lt (Nat.not_lt_zero p) }⟩

theorem lockstep_writeFullPage (page : Nat) (h : NandAlike.OnDevice a b s t)
    (full : nandPageSize ≤ s.1.write.pageBufFilled) :
    NandLockstep (nandWriteFullPage driver page) a b s t fun _ => NandAlike.OnDevice a b := by
  refine Prog.Lockstep.get_bind ?_
  have data : t.1.write.pageBuf.read 0 nandPageSize = s.1.write.pageBuf.read 0 nandPageSize :=
    Memory.read_congr fun p _ lt => h.2.page p (by omega)
  rw [data]
  refine Prog.Lockstep.bind ((lockstep_writePage page _ h).post_mono fun ret u v h => ?_)
  refine Prog.Lockstep.ite Iff.rfl (fun _ => Prog.Lockstep.pure h) fun _ => ?_
  refine Prog.Lockstep.modify_bind (Prog.Lockstep.pure ?_)
  exact h.emptied (by rw [h.2.offset])

theorem lockstep_writeFlushPage (h : NandAlike.OnDevice a b s t)
    (full : nandPageSize ≤ s.1.write.pageBufFilled) :
    NandLockstep (nandWriteFlushPage driver) a b s t fun _ => NandAlike.OnDevice a b := by
  refine Prog.Lockstep.get_bind ?_
  rw [h.2.offset]
  refine Prog.Lockstep.ite Iff.rfl (fun _ => ?_) fun _ => lockstep_writeFullPage _ h full
  refine Prog.Lockstep.bind ((lockstep_eraseBlock _ h).post_mono fun ret u v h => ?_)
  obtain ⟨h, kept⟩ := h
  refine Prog.Lockstep.ite Iff.rfl (fun _ => Prog.Lockstep.pure h) fun _ => ?_
  exact lockstep_writeFullPage _ h (by rw [kept]; exact full)

theorem NandAlike.OnDevice.appended (h : NandAlike.OnDevice a b s t) (bytes : List UInt8)
    {filled : Nat} (total total' : Nat) (le : filled ≤ s.1.write.pageBufFilled + bytes.length)
    (same : total' = total) : NandAlike.OnDevice a b
      ({ s.1 with write := { s.1.write with
          pageBuf := s.1.write.pageBuf.write s.1.write.pageBufFilled bytes
          pageBufFilled := filled
          totalRemaining := total } }, s.2)
      ({ t.1 with write := { t.1.write with
          pageBuf := t.1.write.pageBuf.write t.1.write.pageBufFilled bytes
          pageBufFilled := filled
          totalRemaining := total' } }, t.2) := by
  refine ⟨h.1, { h.2 with totalRemaining := same, filled := rfl, page := fun p lt => ?_ }⟩
  have filledSame := h.2.filled
  change p < filled at lt
  change t.1.write.pageBuf.write t.1.write.pageBufFilled bytes p =
    s.1.write.pageBuf.write s.1.write.pageBufFilled bytes p
  rw [filledSame]
  by_cases below : p < s.1.write.pageBufFilled
  · rw [Memory.write_below below, Memory.write_below below, h.2.page p below]
  · obtain ⟨i, rfl⟩ : ∃ i, p = s.1.write.pageBufFilled + i :=
      ⟨p - s.1.write.pageBufFilled, by omega⟩
    rw [Memory.write_at (by omega), Memory.write_at (by omega)]

theorem lockstep_fillChunk (mem : Memory) (l : NandCopy) (h : NandAlike.OnDevice a b s t) :
    NandLockstep (nandFillChunk mem l : NandStub W _) a b s t fun _ => NandAlike.OnDevice a b := by
  refine Prog.Lockstep.get_bind ?_
  rw [h.2.filled]
  dsimp only
  generalize (if l.toProcess < sub32 nandPageSize s.1.write.pageBufFilled then l.toProcess
    else sub32 nandPageSize s.1.write.pageBufFilled) = chunk
  refine Prog.Lockstep.modify_bind (Prog.Lockstep.pure ?_)
  have le : (s.1.write.pageBufFilled + chunk) % 2 ^ 32 ≤
      s.1.write.pageBufFilled + (mem.read l.src chunk).length := by
    rw [Memory.length_read]
    exact Nat.mod_le _ _
  have appended := h.appended (mem.read l.src chunk) (sub32 s.1.write.totalRemaining chunk)
    (sub32 t.1.write.totalRemaining chunk) le (by rw [h.2.totalRemaining])
  simpa only [h.2.filled] using appended

theorem lockstep_copyStep (mem : Memory) (l : NandCopy) (h : NandAlike.OnDevice a b s t) :
    NandLockstep (nandCopyStep driver mem l) a b s t fun _ => NandAlike.OnDevice a b := by
  refine Prog.Lockstep.ite Iff.rfl (fun _ => ?_) fun _ => Prog.Lockstep.pure h
  refine Prog.Lockstep.bind ((lockstep_fillChunk mem l h).post_mono fun next u v h => ?_)
  refine Prog.Lockstep.get_bind (Prog.Lockstep.ite ?_ (fun full => ?_) fun _ =>
    Prog.Lockstep.pure h)
  · rw [h.2.filled]
  · refine Prog.Lockstep.bind ((lockstep_writeFlushPage h full).post_mono fun ret u v h => ?_)
    refine Prog.Lockstep.ite Iff.rfl (fun _ => ?_) fun _ => Prog.Lockstep.pure h
    exact Prog.Lockstep.modify_bind (Prog.Lockstep.pure (h.emptied h.2.offset))

theorem lockstep_copyLoop (mem : Memory) (l : NandCopy) (h : NandAlike.OnDevice a b s t) :
    NandLockstep (.loop (nandCopyStep driver mem) l) a b s t fun _ => NandAlike.OnDevice a b := by
  refine Prog.Lockstep.loop (fun _ => NandAlike.OnDevice a b) (fun _ _ _ h => h)
    (fun l s t h => (lockstep_copyStep mem l h).post_mono fun r u v h => ?_) h
  cases r <;> exact h

theorem lockstep_writeFlashData_nand (mem : Memory) (data len : Nat) (resp : NandResponse)
    (h : NandAlike.OnDevice a b s t) :
    NandLockstep (nandPluginWriteFlashData driver mem data len resp) a b s t
      fun _ => NandAlike.OnDevice a b := by
  refine Prog.Lockstep.get_bind ?_
  dsimp only
  rw [h.2.inProgress, h.2.totalRemaining]
  refine Prog.Lockstep.ite Iff.rfl (fun _ => Prog.Lockstep.pure h) fun _ => ?_
  refine Prog.Lockstep.ite Iff.rfl (fun _ => Prog.Lockstep.pure h) fun _ => ?_
  refine Prog.Lockstep.ite Iff.rfl (fun _ => Prog.Lockstep.pure h) fun _ => ?_
  refine Prog.Lockstep.ite Iff.rfl (fun _ => Prog.Lockstep.pure h) fun _ => ?_
  refine Prog.Lockstep.ite Iff.rfl (fun _ => Prog.Lockstep.pure h) fun _ => ?_
  exact Prog.Lockstep.bind ((lockstep_copyLoop mem _ h).post_mono fun ret u v h =>
    Prog.Lockstep.pure h)

theorem lockstep_flushPadded (h : NandAlike.OnDevice a b s t) :
    NandLockstep (nandFlushPadded driver) a b s t fun _ => NandAlike.OnDevice a b := by
  refine Prog.Lockstep.modify_bind ?_
  have le : nandPageSize ≤ s.1.write.pageBufFilled +
      (List.replicate (nandPageSize - s.1.write.pageBufFilled) (0xFF : UInt8)).length := by
    rw [List.length_replicate]
    omega
  have padded := h.appended (List.replicate (nandPageSize - s.1.write.pageBufFilled) 0xFF)
    s.1.write.totalRemaining t.1.write.totalRemaining le h.2.totalRemaining
  refine Prog.Lockstep.bind ((lockstep_writeFlushPage (by simpa only [h.2.filled] using padded)
    le_rfl).post_mono fun ret u v h => ?_)
  refine Prog.Lockstep.ite Iff.rfl (fun _ => ?_) fun _ => Prog.Lockstep.pure h
  exact Prog.Lockstep.modify_bind (Prog.Lockstep.pure (h.emptied h.2.offset))

theorem lockstep_writeFlashEnd (len : Nat) (resp : NandResponse)
    (h : NandAlike.OnDevice a b s t) :
    NandLockstep (nandPluginWriteFlashEnd driver len resp) a b s t
      fun _ => NandAlike.OnDevice a b := by
  refine Prog.Lockstep.get_bind ?_
  rw [h.2.inProgress, h.2.totalRemaining, h.2.filled]
  refine Prog.Lockstep.ite Iff.rfl (fun _ => Prog.Lockstep.pure h) fun _ => ?_
  refine Prog.Lockstep.ite Iff.rfl (fun _ => Prog.Lockstep.pure h) fun _ => ?_
  refine Prog.Lockstep.ite Iff.rfl (fun _ => Prog.Lockstep.pure h) fun _ => ?_
  have ends (ret : Int) {u v : NandState × W} (h : NandAlike.OnDevice a b u v) :
      NandLockstep (if ret ≠ responseSuccess then pure (ret, resp)
        else NandStub.modifyWrite (fun _ => {}) >>= fun _ => pure (responseSuccess, resp)) a b u v
          fun _ => NandAlike.OnDevice a b := by
    refine Prog.Lockstep.ite Iff.rfl (fun _ => Prog.Lockstep.pure h) fun _ => ?_
    refine Prog.Lockstep.modify_bind (Prog.Lockstep.pure ⟨h.1, ?_⟩)
    exact ⟨rfl, rfl, rfl, rfl, fun _ _ => rfl, h.2.calls⟩
  refine Prog.Lockstep.ite Iff.rfl (fun _ => ?_) fun _ => ?_
  · exact Prog.Lockstep.bind ((lockstep_flushPadded h).post_mono fun ret u v h => ends ret h)
  · exact Prog.Lockstep.bind (Prog.Lockstep.pure (ends responseSuccess h))

theorem lockstep_writeFlashBegin (mem : Memory) (data len : Nat) (resp : NandResponse)
    (world : t.2 = s.2) :
    Prog.Lockstep (nandPluginWriteFlashBegin mem data len resp)
      (nandPluginWriteFlashBegin mem data len resp) s t (fun _ _ => False) fun r u v =>
        r.1 = responseSuccess → NandAlike.OnDevice s.1 t.1 u v := by
  refine Prog.Lockstep.ite Iff.rfl
    (fun _ => Prog.Lockstep.pure fun h => absurd h badDataLen_ne_success) fun _ => ?_
  refine Prog.Lockstep.ite Iff.rfl
    (fun _ => Prog.Lockstep.pure fun h => absurd h badDataLen_ne_success) fun _ => ?_
  refine Prog.Lockstep.modify_bind (Prog.Lockstep.pure fun _ => ⟨world, ?_⟩)
  exact ⟨rfl, rfl, rfl, rfl, fun p lt => absurd lt (Nat.not_lt_zero p), [], by simp, by simp⟩

end Write

/-! The handlers of a write session register no callback. -/

theorem gives_nandPluginWriteFlashBegin (mem : Memory) (data len : Nat) (resp : NandResponse) :
    (nandPluginWriteFlashBegin mem data len resp : NandStub W _).Gives fun r => r.2 = resp :=
  Prog.gives_ite (Prog.gives_pure rfl) (Prog.gives_ite (Prog.gives_pure rfl)
    (Prog.gives_bind fun _ => Prog.gives_pure rfl))

theorem gives_nandPluginWriteFlashData (mem : Memory) (data len : Nat) (resp : NandResponse) :
    (nandPluginWriteFlashData driver mem data len resp).Gives fun r => r.2 = resp := by
  refine Prog.gives_bind fun s => Prog.gives_ite (Prog.gives_pure rfl) (Prog.gives_ite
    (Prog.gives_pure rfl) (Prog.gives_ite (Prog.gives_pure rfl) (Prog.gives_ite
      (Prog.gives_pure rfl) (Prog.gives_ite (Prog.gives_pure rfl) ?_))))
  exact Prog.gives_bind fun _ => Prog.gives_pure rfl

theorem gives_nandPluginWriteFlashEnd (len : Nat) (resp : NandResponse) :
    (nandPluginWriteFlashEnd driver len resp).Gives fun r => r.2 = resp := by
  have ends (ret : Int) : (if ret ≠ responseSuccess then pure (ret, resp)
      else NandStub.modifyWrite (fun _ => {}) >>= fun _ => pure (responseSuccess, resp) :
        NandStub W _).Gives fun r => r.2 = resp :=
    Prog.gives_ite (Prog.gives_pure rfl) (Prog.gives_bind fun _ => Prog.gives_pure rfl)
  refine Prog.gives_bind fun s => Prog.gives_ite (Prog.gives_pure rfl) (Prog.gives_ite
    (Prog.gives_pure rfl) (Prog.gives_ite (Prog.gives_pure rfl) ?_))
  exact Prog.gives_ite (Prog.gives_bind fun ret => ends ret) (Prog.gives_bind fun ret => ends ret)

/-- The slots of a write session: BEGIN, DATA and END. -/
def IsWriteSlot (idx : Nat) : Prop := idx = 4 ∨ idx = 5 ∨ idx = 9

section Table

variable (md5 : Md5 H) (transport : TransportOps W) (patched : Nat → Bool)

theorem gives_writeSlot {idx : Nat} (slot : IsWriteSlot idx) (command : Nat) (mem : Memory)
    (data len : Nat) (resp : NandResponse) :
    ((nandPlugin driver md5 transport patched).table idx command mem data len resp).Gives
      fun r => r.2 = resp := by
  refine Prog.gives_ite ?_ (Prog.gives_pure rfl)
  obtain rfl | rfl | rfl := slot
  · exact gives_nandPluginWriteFlashBegin mem data len resp
  · exact gives_nandPluginWriteFlashData mem data len resp
  · exact gives_nandPluginWriteFlashEnd len resp

theorem lockstep_writeSlot {idx : Nat} (slot : idx = 5 ∨ idx = 9) (command : Nat) (mem : Memory)
    (data len : Nat) (resp : NandResponse) {a b : NandState} {s t : NandState × W}
    (h : NandAlike.OnDevice a b s t) :
    NandLockstep ((nandPlugin driver md5 transport patched).table idx command mem data len resp)
      a b s t fun _ => NandAlike.OnDevice a b := by
  refine Prog.Lockstep.ite Iff.rfl (fun _ => ?_) fun _ => Prog.Lockstep.pure h
  obtain rfl | rfl := slot
  · exact lockstep_writeFlashData_nand mem data len resp h
  · exact lockstep_writeFlashEnd len resp h

theorem lockstep_beginSlot (command : Nat) (mem : Memory) (data len : Nat) (resp : NandResponse)
    {s t : NandState × W} (world : t.2 = s.2) :
    ((nandPlugin driver md5 transport patched).table 4 command mem data len resp).Lockstep
      ((nandPlugin driver md5 transport patched).table 4 command mem data len resp) s t
        (fun _ _ => False) fun r u v => r.1 = responseSuccess →
          NandAlike.OnDevice s.1 t.1 u v := by
  refine Prog.Lockstep.ite Iff.rfl
    (fun _ => lockstep_writeFlashBegin mem data len resp world) fun _ => ?_
  have bad : responseCmdNotImplemented ≠ responseSuccess := by decide
  exact Prog.Lockstep.pure fun good => absurd good bad

end Table

/-! The same for whole commands. -/

section Stub

variable {D : Type} {env : Platform W D H NandState NandCallback}
  {a b s t u : StubState W D NandState NandCallback} {f : Frame} {idx : Nat}

def SameCalls (a b s t : StubState W D NandState NandCallback) : Prop :=
  ∃ calls, s.plugin.calls = a.plugin.calls ++ calls ∧ t.plugin.calls = b.plugin.calls ++ calls

/-- Two runs in the same place of a NAND session. All of the flash session may differ. -/
structure AlikeNand (a b s t : StubState W D NandState NandCallback) : Prop where
  effects : SameEffects a b s t
  accumulated : t.accumulatedResult = s.accumulatedResult
  pending : t.pendingPostProcess = s.pendingPostProcess
  plugin : NandAlike a.plugin b.plugin s.plugin t.plugin

theorem alikeNand_respects (a b : StubState W D NandState NandCallback) :
    Respects env (AlikeNand a b) where
  accumulated h := h.accumulated
  pending h := h.pending
  send := by
    intro s t h frame
    obtain ⟨frames, first, second⟩ := h.effects.frames
    have world := h.effects.world
    refine { h with effects := ⟨⟨frames ++ [frame], ?_, ?_⟩, h.effects.events, ?_⟩ }
    · simp [StubState.afterSend, first]
    · simp [StubState.afterSend, second]
    · simp [StubState.afterSend, world]
  settle h code := ⟨⟨h.effects.frames, h.effects.events, h.effects.world⟩, rfl, h.pending, h.plugin⟩
  drop h := ⟨⟨h.effects.frames, h.effects.events, h.effects.world⟩, h.accumulated, rfl, h.plugin⟩
  finish := by
    intro s t h code
    obtain ⟨events, first, second⟩ := h.effects.events
    refine ⟨⟨h.effects.frames, ⟨events ++ [.postProcess code], ?_, ?_⟩, h.effects.world⟩, rfl, rfl,
      h.plugin⟩
    · simp [StubState.afterCallback, first]
    · simp [StubState.afterCallback, second]

theorem ensures_callPlugin_quiet (ctx : CmdCtx) (s : StubState W D NandState NandCallback)
    (quiet : (env.plugin.table idx ctx.command ctx.mem ctx.data ctx.packetSize {}).Gives
      fun r => r.2 = {}) :
    (callPlugin env idx ctx).Ensures s (fun _ => True)
      fun _ u => u.pendingPostProcess = s.pendingPostProcess := by
  refine Prog.Ensures.bind (Prog.Ensures.focus ((quiet _).mono (fun _ _ => trivial)
    fun r u same => ?_))
  obtain ⟨code, response⟩ := r
  have same : response = {} := same
  rw [same]
  exact Prog.Ensures.pure rfl

theorem lockstep_callPlugin (ctx : CmdCtx)
    {E : StubState W D NandState NandCallback → StubState W D NandState NandCallback → Prop}
    {post : Int × NandResponse → StubState W D NandState NandCallback →
      StubState W D NandState NandCallback → Prop}
    (quiet : (env.plugin.table idx ctx.command ctx.mem ctx.data ctx.packetSize {}).Gives
      fun r => r.2 = {})
    (h : (env.plugin.table idx ctx.command ctx.mem ctx.data ctx.packetSize {}).Lockstep
      (env.plugin.table idx ctx.command ctx.mem ctx.data ctx.packetSize {})
      (s.plugin, s.world) (t.plugin, t.world)
      (fun u v => E { s with plugin := u.1, world := u.2 } { t with plugin := v.1, world := v.2 })
      fun r u v => post r { s with plugin := u.1, world := u.2 }
        { t with plugin := v.1, world := v.2 }) :
    (callPlugin env idx ctx).Lockstep (callPlugin env idx ctx) s t E post := by
  refine Prog.Lockstep.bind (Prog.Lockstep.focus ((h.and_left (quiet _)).mono
    (fun u v h => h.1) fun r u v h => ?_))
  obtain ⟨code, response⟩ := r
  obtain ⟨ends, same⟩ := h
  have same : response = {} := same
  subst same
  exact Prog.Lockstep.pure ends

variable {md5 : Md5 H} {transport : TransportOps W} {patched : Nat → Bool}
  (table : env.plugin = nandPlugin driver md5 transport patched)

include table

theorem gives_envWriteSlot (slot : IsWriteSlot idx) (ctx : CmdCtx) :
    (env.plugin.table idx ctx.command ctx.mem ctx.data ctx.packetSize {}).Gives
      fun r => r.2 = {} := by
  rw [table]
  exact gives_writeSlot md5 transport patched slot _ _ _ _ _

theorem Handled.quiet {r : Int × NandResponse} (h : Handled env f s r u) (slot : IsWriteSlot idx)
    (opcode : Opcode.ofByte f.ctx.command = .plugin idx) (idle : s.pendingPostProcess = none) :
    u.pendingPostProcess = none := by
  have returns := h.returns
  rw [opcode] at returns
  rw [← idle]
  exact (ensures_callPlugin_quiet f.ctx s (gives_envWriteSlot table slot f.ctx)).2 r u returns

def SameNandEffects (a b s t : StubState W D NandState NandCallback) : Prop :=
  SameEffects a b s t ∧ SameCalls a b s t

omit table in
theorem AlikeNand.nandEffects (h : AlikeNand a b s t) : SameNandEffects a b s t :=
  ⟨h.effects, h.plugin.calls⟩

omit table in
theorem AlikeNand.put (h : AlikeNand a b s t) {u v : NandState × W}
    (plugin : NandAlike.OnDevice a.plugin b.plugin u v) :
    AlikeNand a b { s with plugin := u.1, world := u.2 } { t with plugin := v.1, world := v.2 } :=
  ⟨⟨h.effects.frames, h.effects.events, plugin.1⟩, h.accumulated, h.pending, plugin.2⟩

theorem lockstep_nand_frame {opcode : Nat} (slot : opcode = 5 ∨ opcode = 9)
    (command : Opcode.ofByte f.ctx.command = .plugin opcode)
    (alike : AlikeNand a b s t) (idle : s.pendingPostProcess = none) :
    (handleCommand env f.buffer f.size).Lockstep (handleCommand env f.buffer f.size) s t
      (SameNandEffects a b) fun _ u v => AlikeNand a b u v ∧ u.pendingPostProcess = none := by
  have write : IsWriteSlot opcode := .inr slot
  have handler : (dispatch env f.ctx (Opcode.ofByte f.ctx.command)).Lockstep
      (dispatch env f.ctx (Opcode.ofByte f.ctx.command)) s t (SameNandEffects a b)
        fun _ => AlikeNand a b := by
    rw [command]
    refine lockstep_callPlugin f.ctx (gives_envWriteSlot table write f.ctx) ?_
    rw [table]
    exact (lockstep_writeSlot md5 transport patched slot _ _ _ _ _
      ⟨alike.effects.world, alike.plugin⟩).mono (fun u v h => (alike.put h).nandEffects)
        fun r u v h => alike.put h
  refine (lockstep_handleCommand (Q := AlikeNand a b) f (alikeNand_respects a b) alike idle
    (fun _ _ => handler) fun r u p handled _ pending v _ => ?_).post_mono fun _ u v h => ?_
  · rw [handled.quiet table write command idle] at pending
    cases pending
  · obtain ⟨idle, ⟨-, alike⟩ | ⟨-, alike⟩⟩ := h
    · exact ⟨alike, idle⟩
    · exact ⟨alike, idle⟩

end Stub

end FlasherStub
