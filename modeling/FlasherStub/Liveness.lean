import FlasherStub.EraseRegion
import FlasherStub.FlashLedger
import FlasherStub.FlashMd5
import FlasherStub.MainLoop
import FlasherStub.NandImage

/-! Which commands the stub brings to their end by itself. The read streams wait for the host, and a
compressed block may ask for more than was erased; all others return, whatever the run before them
was, and those of the NAND plugin too. -/

namespace FlasherStub

open ByteMemory Budget

variable {W D H S C : Type} (env : Platform W D H S C)

section Handlers

variable (ctx : CmdCtx)

theorem ends_sendSyncs (n : Nat) : (sendSyncs env n : Stub W D S C Unit).Ends := by
  induction n with
  | zero => exact Prog.ends_pure ()
  | succ n ih => exact (Prog.ends_modify _).bind fun _ => ih

theorem ends_writeRegEntries (i count : Nat) :
    (writeRegEntries env ctx i count : Stub W D S C Unit).Ends := by
  induction count generalizing i with
  | zero => exact Prog.ends_pure ()
  | succ count ih => exact (Prog.ends_modify _).bind fun _ => ih (i + 1)

/-- Also where the size of the chunk is computed as zero. -/
theorem Md5Locals.slice_pos {env : Platform W D H S C} (rounding : WordRounding env.lib)
    {l : Md5Locals H} (sane : l.Sane) (more : 0 < l.remaining) : 0 < l.slice env := by
  have offset := sane.offset
  have remaining := sane.remaining
  by_cases wraps : l.Wraps
  · have chunk := chunk_eq (l := l) rounding
    rw [wraps] at chunk
    have empty : l.chunk env = 0 := chunk
    unfold Md5Locals.Wraps at wraps
    rw [slice, empty, sub32]
    omega
  · obtain ⟨slice, inside⟩ := slice_eq rounding sane more wraps
    omega

theorem ends_spiFlashMd5 (rounding : WordRounding env.lib) :
    (spiFlashMd5 env ctx : Stub W D S C _).Ends := by
  intro s
  by_cases size : ctx.packetSize = spiFlashMd5Size
  · rw [spiFlashMd5_eq env size]
    refine Prog.Terminates.bind ?_ fun _ t _ => Prog.terminates_pure _ t
    refine Prog.terminates_loop (fun l _ => l.Sane) (fun l _ => l.remaining) (fun l t sane => ?_)
      (Md5Locals.start_sane rounding ctx)
    obtain ⟨r, u, step⟩ := terminates_md5Step env l t
    refine ⟨r, u, step, fun l' goes => ?_⟩
    have round := returns_md5Step env step
    subst goes
    cases round with
    | hashes more good =>
      have slice := Md5Locals.slice_pos rounding sane more
      refine ⟨l.next_sane _, ?_⟩
      rw [Md5Locals.next_remaining sane]
      omega
  · rw [spiFlashMd5, if_pos size]
    exact Prog.terminates_pure _ s

theorem ends_eraseRegion : (eraseRegion env ctx : Stub W D S C Int).Ends := by
  have loop (l : EraseLocals) : (Prog.loop (eraseRegionStep env) l : Stub W D S C Nat).Ends := by
    intro s
    obtain ⟨n, -, run, -⟩ := returns_eraseLoop env l.addr l.eraseSize l.timeoutUs s
    exact ⟨_, _, run⟩
  refine Prog.ends_ite (Prog.ends_pure _) (Prog.ends_get.bind fun s => ?_)
  refine Prog.ends_ite (Prog.ends_pure _) ((loop _).bind fun left => ?_)
  exact (Prog.ends_act _).bind fun _ => Prog.ends_ite (Prog.ends_pure _) (Prog.ends_pure _)

theorem ends_getSecurityInfo : (getSecurityInfo env ctx : Stub W D S C _).Ends := by
  refine Prog.ends_ite (Prog.ends_pure _) ((Prog.ends_act _).bind fun info => ?_)
  obtain ⟨ret, bytes⟩ := info
  cases ret <;> exact Prog.ends_pure _

variable {sector : Nat}

/-- The handler in this slot of the plugin table returns. -/
def Plugin.Ends (plugin : Plugin W S C) (idx : Nat) : Prop :=
  ∀ command mem data len, (plugin.table idx command mem data len {}).Ends

theorem ends_callPlugin {idx : Nat} (foreign : env.plugin.Ends idx) :
    (callPlugin env idx ctx).Ends := by
  refine Prog.Ends.bind (foreign ctx.command ctx.mem ctx.data ctx.packetSize).focus fun r => ?_
  obtain ⟨code, response⟩ := r
  dsimp only
  cases response.postProcess with
  | none => exact (Prog.ends_pure _).bind fun _ => Prog.ends_pure _
  | some callback => exact (Prog.ends_modify _).bind fun _ => Prog.ends_pure _

theorem ends_dispatch (contract : FlashContract env.lib sector) (rounding : WordRounding env.lib)
    {o : Opcode} (foreign : ∀ idx, o = .plugin idx → env.plugin.Ends idx) :
    (dispatch env ctx o).Ends := by
  have empty {handler : Stub W D S C Int} (h : handler.Ends) : (withEmptyResponse handler).Ends :=
    h.bind fun _ => Prog.ends_pure _
  have sectorLe (w : W) : (env.lib.flashGetConfig w).sectorSize ≤ 2 ^ 31 := by
    rw [contract.config]
    exact contract.le
  have begins (isCompressed : Bool) :
      (withEmptyResponse (initFlashOperation env ctx isCompressed)).Ends :=
    fun s => terminates_initFlashOperation sectorLe ctx isCompressed s
  have registers (p : PostProcess C) : (do
      setPendingPostProcess p
      pure responseSuccess : Stub W D S C Int).Ends :=
    (Prog.ends_modify _).bind fun _ => Prog.ends_pure _
  have ends : (handleFlashEnd env ctx : Stub W D S C Int).Ends :=
    Prog.ends_get.bind fun _ => Prog.ends_ite (Prog.ends_pure _) <|
      Prog.ends_ite (Prog.ends_pure _) <| Prog.ends_ite (Prog.ends_pure _) <|
      (Prog.ends_modify _).bind fun _ => Prog.ends_pure _
  have sized {c : Prop} [Decidable c] {code : Int} {p : Stub W D S C Int} (h : p.Ends) :
      (if c then pure code else p).Ends := Prog.ends_ite (Prog.ends_pure _) h
  cases o with
  | sync => exact empty (sized ((ends_sendSyncs env 7).bind fun _ => Prog.ends_pure _))
  | flashBegin => exact begins false
  | flashDeflBegin => exact begins true
  | flashEnd | flashDeflEnd => exact empty ends
  | flashData =>
    exact empty (Prog.ends_get.bind fun _ => sized (sized (sized (sized (registers _)))))
  | flashDeflData => exact empty (Prog.ends_get.bind fun _ => sized (sized (sized (registers _))))
  | memBegin => exact empty (sized ((Prog.ends_modify _).bind fun _ => Prog.ends_pure _))
  | memData =>
    exact empty (Prog.ends_get.bind fun _ => sized (sized (sized (sized
      ((Prog.ends_modify _).bind fun _ => Prog.ends_pure _)))))
  | memEnd =>
    exact empty (Prog.ends_get.bind fun _ => sized (sized
      ((Prog.ends_modify _).bind fun _ => registers _)))
  | writeReg =>
    exact empty (sized ((ends_writeRegEntries env ctx _ _).bind fun _ => Prog.ends_pure _))
  | readReg =>
    exact Prog.ends_ite (Prog.ends_pure _) ((Prog.ends_act _).bind fun _ => Prog.ends_pure _)
  | spiAttach => exact empty (sized ((Prog.ends_modify _).bind fun _ => Prog.ends_pure _))
  | spiSetParams => exact empty (sized ((Prog.ends_act _).bind fun _ => sized (Prog.ends_pure _)))
  | changeBaudrate | readFlash => exact empty (sized (registers _))
  | spiFlashMd5 => exact ends_spiFlashMd5 env ctx rounding
  | getSecurityInfo => exact ends_getSecurityInfo env ctx
  | eraseFlash => exact empty ((Prog.ends_act _).bind fun _ => sized (Prog.ends_pure _))
  | eraseRegion => exact empty (ends_eraseRegion env ctx)
  | plugin idx => exact ends_callPlugin env ctx (foreign idx rfl)
  | runUserCode | unknown => exact Prog.ends_pure _

end Handlers

structure Room (sector regionEnd : Nat) (s : StubState W D S C) : Prop where
  region : RegionInv sector regionEnd s
  inside : ∀ size ≤ s.flash.totalRemaining, (s.flash.offset + size) % 2 ^ 32 ≤ regionEnd

theorem Room.of_eq {sector regionEnd : Nat} {s t : StubState W D S C}
    (room : Room sector regionEnd s) (flash : t.flash = s.flash) : Room sector regionEnd t where
  region := room.region.of_eq (by rw [flash]) (by rw [flash])
  inside := by
    rw [flash]
    exact room.inside

/-- The commands that come to their end without help. -/
structure Opcode.Prompt (plugin : Plugin W S C) (o : Opcode) : Prop where
  readFlash : o ≠ .readFlash
  deflData : o ≠ .flashDeflData
  ends : ∀ idx, o = .plugin idx → plugin.Ends idx
  quiet : ∀ idx, o = .plugin idx → plugin.Quiet idx

theorem terminates_handleCommand_of_dispatch {f : Frame} {t : StubState W D S C}
    (returns : ∃ r v, (dispatch env f.ctx (Opcode.ofByte f.ctx.command)).Returns t r v ∧
      (postProcess env f.ctx).Terminates (v.answered env f.ctx r)) :
    (handleCommand env f.buffer f.size).Terminates t := by
  by_cases ok : f.HeaderOk
  · by_cases clear : t.accumulatedResult = responseSuccess
    · suffices executed : (execute env f.ctx).Terminates t by
        obtain ⟨_, u, run⟩ := executed
        exact ⟨(), u, (returns_handleCommand_execute env ok clear u).mpr run⟩
      rw [execute]
      split_ifs
      · exact Prog.terminates_pure _ t
      · obtain ⟨r, v, dispatched, _, u, processed⟩ := returns
        exact ⟨(), u, (Prog.returns_bind _ _ _ _ _).mpr
          ⟨(), _, returns_answer env dispatched, processed⟩⟩
    · exact ⟨(), _, (returns_handleCommand_report env ok clear _).mpr rfl⟩
  · exact ⟨(), _, (returns_handleCommand_reject env ok t _).mpr rfl⟩

section Command

variable {sector regionEnd : Nat} (contract : FlashContract env.lib sector)
  (advances : env.lib.EventuallyAdvances sector) {s : StubState W D S C}

include contract advances

theorem terminates_writeFlashData (room : Room sector regionEnd s) {data : List UInt8}
    (fits : data.length ≤ s.flash.totalRemaining) : (writeFlashData env data).Terminates s := by
  have inside := room.inside data.length fits
  have asked : RegionInv sector regionEnd (s.requested data) := room.region.of_eq rfl rfl
  have erases : (ensureFlashErasedTo env ((s.flash.offset + data.length) % 2 ^ 32)).Terminates
      (s.requested data) :=
    terminates_ensureFlashErasedTo env contract advances asked.1 (asked.2 ▸ inside)
  refine Prog.Terminates.act_bind (Prog.Terminates.act_bind (erases.bind fun r t _ => ?_))
  split_ifs
  · exact Prog.terminates_pure _ t
  · refine Prog.Terminates.act_bind (Prog.Terminates.act_bind ?_)
    split_ifs
    · exact Prog.terminates_pure _ _
    · exact Prog.Terminates.act_bind (Prog.terminates_pure _ _)

theorem terminates_flashDataPostProcess (ctx : CmdCtx) (room : Room sector regionEnd s) :
    (flashDataPostProcess env ctx).Terminates s := by
  refine Prog.Terminates.act_bind (terminates_writeFlashData env contract advances room ?_)
  rw [Memory.length_read]
  exact min_le_right _ _

theorem terminates_postProcess {f : Frame} {t v : StubState W D S C}
    (prompt : (Opcode.ofByte f.ctx.command).Prompt env.plugin) (idle : t.pendingPostProcess = none)
    (room : Opcode.ofByte f.ctx.command = .flashData → t.flash.inProgress = true →
      ∃ regionEnd, Room sector regionEnd t) {r : Int × CommandResponseData C}
    (dispatched : (dispatch env f.ctx (Opcode.ofByte f.ctx.command)).Returns t r v) :
    (postProcess env f.ctx).Terminates (v.answered env f.ctx r) := by
  cases pending : (v.answered env f.ctx r).pendingPostProcess with
  | none => exact ⟨(), _, (returns_postProcess_none env pending _).mpr rfl⟩
  | some p =>
    suffices callback : (runPostProcess env f.ctx p).Terminates (v.answered env f.ctx r) by
      obtain ⟨e, u, run⟩ := callback
      exact ⟨(), _, (returns_postProcess_some env pending _).mpr ⟨e, u, run, rfl⟩⟩
    obtain ⟨good, kept⟩ := answered_pending pending
    have left :=
      (ensures_dispatch_quiet env f.ctx prompt.readFlash prompt.quiet idle).2 r v dispatched
    cases p with
    | flashData =>
      obtain ⟨inProgress, opcode, -⟩ := dispatch_data idle dispatched good kept trivial
      obtain ⟨regionEnd, room⟩ := room (opcode rfl) inProgress
      have other : ¬ (Opcode.ofByte f.ctx.command).IsSession := by
        rw [opcode rfl]
        exact id
      have beside := (keepsBeside_dispatch env f.ctx other t).2 r v dispatched
      have same : (v.answered env f.ctx r).flash = t.flash :=
        (beside_answered env f.ctx v r).flash.trans beside.flash
      exact terminates_flashDataPostProcess env contract advances f.ctx (room.of_eq same)
    | flashDeflData =>
      have opcode := (dispatch_data idle dispatched good kept trivial).2.2 rfl
      exact absurd opcode prompt.deflData
    | memEnd =>
      refine Prog.ends_ite ?_ (Prog.ends_pure _) _
      exact (Prog.ends_modify _).bind fun _ => (Prog.ends_modify _).bind fun _ => Prog.ends_pure _
    | changeBaudrate => exact (Prog.ends_modify _).bind (fun _ => Prog.ends_pure _) _
    | readFlash | plugin => exact (left.2 _ kept).elim

theorem terminates_handleCommand (rounding : WordRounding env.lib) {f : Frame}
    {t : StubState W D S C} (prompt : f.HeaderOk → (Opcode.ofByte f.ctx.command).Prompt env.plugin)
    (idle : t.pendingPostProcess = none)
    (room : Opcode.ofByte f.ctx.command = .flashData → t.flash.inProgress = true →
      ∃ regionEnd, Room sector regionEnd t) :
    (handleCommand env f.buffer f.size).Terminates t := by
  by_cases ok : f.HeaderOk
  · obtain ⟨r, v, dispatched⟩ := ends_dispatch env f.ctx contract rounding (prompt ok).ends t
    exact terminates_handleCommand_of_dispatch env ⟨r, v, dispatched,
      terminates_postProcess env contract advances (prompt ok) idle room dispatched⟩
  · exact ⟨(), _, (returns_handleCommand_reject env ok t _).mpr rfl⟩

end Command

section Nand

variable (driver : NandDriver W)

theorem ends_nandWriteFullPage (page : Nat) : (nandWriteFullPage driver page).Ends :=
  Prog.ends_get.bind fun _ => (Prog.ends_act _).bind fun _ => Prog.ends_ite (Prog.ends_pure _)
    ((Prog.ends_modify _).bind fun _ => Prog.ends_pure _)

theorem ends_nandWriteFlushPage : (nandWriteFlushPage driver).Ends := by
  refine Prog.ends_get.bind fun s => Prog.ends_ite ?_ (ends_nandWriteFullPage driver _)
  exact (Prog.ends_act _).bind fun _ => Prog.ends_ite (Prog.ends_pure _)
    (ends_nandWriteFullPage driver _)

theorem ends_nandCopyStep (mem : Memory) (l : NandCopy) : (nandCopyStep driver mem l).Ends := by
  have fills : (nandFillChunk mem l : NandStub W NandCopy).Ends :=
    Prog.ends_get.bind fun _ => (Prog.ends_modify _).bind fun _ => Prog.ends_pure _
  refine Prog.ends_ite (fills.bind fun next => Prog.ends_get.bind fun s => ?_) (Prog.ends_pure _)
  refine Prog.ends_ite ((ends_nandWriteFlushPage driver).bind fun ret => ?_) (Prog.ends_pure _)
  exact Prog.ends_ite ((Prog.ends_modify _).bind fun _ => Prog.ends_pure _) (Prog.ends_pure _)

theorem nandCopyStep_goes {mem : Memory} {l next : NandCopy} (small : l.toProcess < 2 ^ 32)
    {s t : NandState × W} (run : (nandCopyStep driver mem l).Returns s (.inl next) t) :
    next.toProcess ≤ l.toProcess ∧ t.1.write.pageBufFilled ≠ nandPageSize ∧
      (next.toProcess = l.toProcess → s.1.write.pageBufFilled = nandPageSize) := by
  have page : nandPageSize = 2048 := rfl
  unfold nandCopyStep at run
  split_ifs at run with more
  · rw [Prog.returns_bind] at run
    obtain ⟨l', u, filling, run⟩ := run
    simp only [nandFillChunk, NandStub.modifyWrite, Prog.returns_get_bind,
      Prog.returns_modify_bind, Prog.returns_pure] at filling
    generalize hspace : sub32 nandPageSize s.1.write.pageBufFilled = space at filling
    generalize hchunk : (if l.toProcess < space then l.toProcess else space) = chunk at filling
    have le : chunk ≤ l.toProcess := by split_ifs at hchunk <;> omega
    have left : sub32 l.toProcess chunk = l.toProcess - chunk := sub32_of_le le small
    have empty : chunk = 0 → s.1.write.pageBufFilled = nandPageSize := by
      unfold sub32 at hspace
      split_ifs at hchunk <;> omega
    have after : l'.toProcess = l.toProcess - chunk := by rw [filling.1, left]
    have goes : l'.toProcess ≤ l.toProcess ∧
        (l'.toProcess = l.toProcess → s.1.write.pageBufFilled = nandPageSize) :=
      ⟨by omega, fun same => empty (by omega)⟩
    rw [Prog.returns_get_bind] at run
    split_ifs at run with full
    · rw [Prog.returns_bind] at run
      obtain ⟨ret, v, flush, run⟩ := run
      obtain ⟨cs, w, hv, outcome⟩ := nandWriteFlushPage_outcome driver flush
      split_ifs at run with error
      · rw [NandStub.modifyWrite, Prog.returns_modify_bind, Prog.returns_pure] at run
        cases run.1
      · obtain ⟨same, rfl⟩ := (Prog.returns_pure _ _ _ _).mp run
        obtain rfl := Sum.inl.inj same
        obtain ⟨-, -, -, rfl⟩ | ⟨bad, -⟩ := outcome
        · refine ⟨goes.1, ?_, goes.2⟩
          rw [hv, NandState.afterCalls, nextPage_pageBufFilled]
          decide
        · exact absurd (not_not.mp error) bad
    · obtain ⟨same, rfl⟩ := (Prog.returns_pure _ _ _ _).mp run
      obtain rfl := Sum.inl.inj same
      exact ⟨goes.1, by omega, goes.2⟩
  · rw [Prog.returns_pure] at run
    cases run.1

theorem terminates_nandCopy {mem : Memory} {l : NandCopy} (small : l.toProcess < 2 ^ 32)
    (s : NandState × W) : (Prog.loop (nandCopyStep driver mem) l).Terminates s := by
  refine Prog.terminates_loop (fun l _ => l.toProcess < 2 ^ 32)
    (fun l s => 2 * l.toProcess + if s.1.write.pageBufFilled = nandPageSize then 1 else 0)
    (fun l s small => ?_) small
  obtain ⟨r, t, run⟩ := ends_nandCopyStep driver mem l s
  refine ⟨r, t, run, fun next same => ?_⟩
  subst same
  obtain ⟨le, fresh, stands⟩ := nandCopyStep_goes driver small run
  refine ⟨by omega, ?_⟩
  rw [if_neg fresh]
  split_ifs with full
  · omega
  · have moved : next.toProcess ≠ l.toProcess := fun same => full (stands same)
    omega

theorem ends_nandPluginWriteFlashData (mem : Memory) (data len : Nat) (resp : NandResponse) :
    (nandPluginWriteFlashData driver mem data len resp).Ends := by
  intro s
  refine Prog.Terminates.act_bind ?_
  dsimp only
  split_ifs with short opened length
  · exact Prog.terminates_pure _ s
  · exact Prog.terminates_pure _ s
  · exact Prog.terminates_pure _ s
  · exact Prog.terminates_pure _ s
  · have bound : getLeToU32 mem data < 2 ^ 32 := getLeToU32_lt _ _
    refine (terminates_nandCopy driver ?_ s).bind fun _ t _ => Prog.terminates_pure _ t
    dsimp only
    omega
  · exact Prog.terminates_pure _ s

theorem ends_nandEraseBlocks (page count : Nat) : (nandEraseBlocks driver page count).Ends := by
  induction count generalizing page with
  | zero => exact Prog.ends_pure _
  | succ count ih =>
    exact (Prog.ends_act _).bind fun _ => Prog.ends_ite (Prog.ends_pure _) (ih _)

theorem nandPlugin_ends (md5 : Md5 H) (transport : TransportOps W) (patched : Nat → Bool)
    (idx : Nat) : (nandPlugin driver md5 transport patched).Ends idx := by
  have pure_ (r : Int × NandResponse) : (pure r : NandStub W _).Ends := Prog.ends_pure r
  intro command mem data len
  refine Prog.ends_ite ?_ (pure_ _)
  match idx with
  | 0 =>
    exact Prog.ends_ite (pure_ _) ((Prog.ends_act _).bind fun _ => Prog.ends_ite (pure_ _)
      ((Prog.ends_act _).bind fun _ => (Prog.ends_act _).bind fun _ =>
        (Prog.ends_act _).bind fun _ => pure_ _))
  | 1 =>
    refine Prog.ends_ite (pure_ _) ((Prog.ends_act _).bind fun read => ?_)
    cases read <;> exact pure_ _
  | 2 =>
    exact Prog.ends_ite (pure_ _) ((Prog.ends_act _).bind fun _ =>
      Prog.ends_ite (pure_ _) (pure_ _))
  | 3 =>
    exact Prog.ends_ite (pure_ _) (Prog.ends_get.bind fun _ => Prog.ends_ite (pure_ _)
      (Prog.ends_ite (pure_ _) ((Prog.ends_modify _).bind fun _ => pure_ _)))
  | 4 =>
    exact Prog.ends_ite (pure_ _) (Prog.ends_ite (pure_ _)
      ((Prog.ends_modify _).bind fun _ => pure_ _))
  | 5 => exact ends_nandPluginWriteFlashData driver mem data len {}
  | 6 => exact (ends_nandEraseBlocks driver 0 _).bind fun _ => pure_ _
  | 7 =>
    exact Prog.ends_ite (pure_ _) (Prog.ends_ite (pure_ _)
      ((ends_nandEraseBlocks driver _ _).bind fun _ => pure_ _))
  | 8 =>
    refine Prog.ends_ite (pure_ _) (Prog.ends_get.bind fun _ => Prog.ends_ite (pure_ _)
      ((Prog.ends_act _).bind fun read => ?_))
    cases read <;> exact pure_ _
  | 9 =>
    have flush : (nandFlushPadded driver).Ends := (Prog.ends_modify _).bind fun _ =>
      (ends_nandWriteFlushPage driver).bind fun _ =>
        Prog.ends_ite ((Prog.ends_modify _).bind fun _ => Prog.ends_pure _) (Prog.ends_pure _)
    have tail (ret : Int) : (do
        if ret ≠ responseSuccess then pure (ret, {})
        else
          NandStub.modifyWrite fun _ => {}
          pure (responseSuccess, {}) : NandStub W (Int × NandResponse)).Ends :=
      Prog.ends_ite (pure_ _) ((Prog.ends_modify _).bind fun _ => pure_ _)
    exact Prog.ends_get.bind fun _ => Prog.ends_ite (pure_ _) (Prog.ends_ite (pure_ _)
      (Prog.ends_ite (pure_ _) (Prog.ends_ite (flush.bind tail)
        ((Prog.ends_pure _).bind tail))))
  | _ + 10 => exact pure_ _

theorem nandPlugin_prompt (md5 : Md5 H) (transport : TransportOps W) (patched : Nat → Bool)
    {idx : Nat} (other : idx ≠ 3) :
    (Opcode.plugin idx).Prompt (nandPlugin driver md5 transport patched) := by
  refine ⟨by simp, by simp, ?_, ?_⟩
  · rintro _ ⟨⟩
    exact nandPlugin_ends driver md5 transport patched idx
  · rintro _ ⟨⟩
    exact nandPlugin_quiet driver md5 transport patched other

end Nand

/-- A BEGIN asks for sectors below 2^32 only. -/
def Frame.InChip (sector : Nat) (f : Frame) : Prop := f.Begins → f.ctx.regionEnd sector < 2 ^ 32

def FlashImage.regionEnd (sector : Nat) (i : FlashImage) : Nat :=
  (i.offset + i.total + (sector - 1)) / sector * sector

section Run

variable {env} {sector : Nat} {s₀ t : StubState W D S C} {frames : List Frame}
  {d : Option FlashImage}

theorem FlashRun.region (contract : FlashContract env.lib sector)
    (honest : InflaterContract env.tinfl) (idle : s₀.flash.inProgress = false)
    (quiet : s₀.pendingPostProcess = none) (window : s₀.decompressedDataPtr ≤ tinflLzDictSize)
    (run : FlashRun env s₀ frames d t) (inChip : ∀ g ∈ frames, g.InChip sector) :
    ∀ i ∈ d, t.flash.inProgress = true → RegionInv sector (i.regionEnd sector) t := by
  induction run with
  | start => simp
  | @next frames d t f d' u before step track ih =>
    have inv := before.inv honest idle quiet window
    have before_ := ih fun g mem => inChip g (List.mem_append_left _ mem)
    intro i mem inProgress
    cases flashStep_of_run honest (serve_pending quiet before.serve) step with
    | begun begins writes =>
      obtain ⟨-, new, writes⟩ := writes inv.window
      have below := inChip f (by simp) begins.toBegins
      obtain ⟨aligned, -, sum⟩ := begun_aligned env contract below t
      cases track with
      | begun =>
        obtain rfl := Option.some.inj mem
        exact writes.region sector _ contract ⟨aligned, sum⟩
      | other no => exact absurd begins no
    | ended no open_ all writes =>
      obtain ⟨-, new, writes⟩ := writes inv.window
      rw [writes.inProgress] at inProgress
      cases inProgress
    | other no open_ writes =>
      obtain ⟨-, new, writes⟩ := writes inv.window
      cases track with
      | begun begins => exact absurd begins no
      | other =>
        obtain ⟨last, here, rfl⟩ := Option.map_eq_some_iff.mp mem
        exact writes.region sector _ contract
          (before_ last here (writes.inProgress.symm.trans inProgress))

theorem FlashInv.room (inv : FlashInv s₀ d t) (pos : 0 < sector) {i : FlashImage} (mem : i ∈ d)
    (plain : i.Plain) (inProgress : t.flash.inProgress = true)
    (region : RegionInv sector (i.regionEnd sector) t) : Room sector (i.regionEnd sector) t := by
  refine ⟨region, fun size fits => ?_⟩
  obtain ⟨new, -, counted⟩ := inv.account i mem
  have offset := (counted inProgress).offset
  have total := (counted inProgress).exact plain
  have image : i.offset + i.total ≤ i.regionEnd sector := le_roundUp pos _
  omega

theorem FlashRun.room (contract : FlashContract env.lib sector)
    (honest : InflaterContract env.tinfl) (idle : s₀.flash.inProgress = false)
    (quiet : s₀.pendingPostProcess = none) (window : s₀.decompressedDataPtr ≤ tinflLzDictSize)
    (run : FlashRun env s₀ frames d t) (inChip : ∀ g ∈ frames, g.InChip sector)
    (plain : ∀ i ∈ d, i.Plain) (inProgress : t.flash.inProgress = true) :
    ∃ regionEnd, Room sector regionEnd t := by
  have inv := run.inv honest idle quiet window
  obtain _ | i := d
  · have closed := (inv.none rfl).2
    rw [inProgress] at closed
    cases closed
  · have region := run.region contract honest idle quiet window inChip i rfl inProgress
    exact ⟨_, inv.room contract.pos rfl (plain i rfl) inProgress region⟩

theorem FlashRun.plain (run : FlashRun env s₀ frames d t)
    (none : ∀ g ∈ frames, Opcode.ofByte g.ctx.command ≠ .flashDeflData) : ∀ i ∈ d, i.Plain := by
  induction run with
  | start => simp
  | @next frames d t f d' u before step track ih =>
    have before_ := ih fun g mem => none g (List.mem_append_left _ mem)
    intro i mem
    cases track with
    | begun =>
      obtain rfl := Option.some.inj mem
      exact fun g mem => absurd mem (List.not_mem_nil)
    | other =>
      obtain ⟨last, here, rfl⟩ := Option.map_eq_some_iff.mp mem
      intro g mem
      obtain mem | mem := List.mem_append.mp mem
      · exact before_ last here g mem
      · obtain rfl := List.mem_singleton.mp mem
        exact none g (by simp)

/-- However a run fails and whatever is mixed into it, the stub never hangs in a command that does
not read a stream out to the host or inflate. Only a block of FLASH_DATA asks for more: no
compressed block may have been sent in its session. -/
theorem stub_returns (contract : FlashContract env.lib sector)
    (advances : env.lib.EventuallyAdvances sector) (rounding : WordRounding env.lib)
    (honest : InflaterContract env.tinfl) (idle : s₀.flash.inProgress = false)
    (quiet : s₀.pendingPostProcess = none) (window : s₀.decompressedDataPtr ≤ tinflLzDictSize)
    (run : FlashRun env s₀ frames d t) (inChip : ∀ g ∈ frames, g.InChip sector) {f : Frame}
    (prompt : f.HeaderOk → (Opcode.ofByte f.ctx.command).Prompt env.plugin)
    (plain : Opcode.ofByte f.ctx.command = .flashData → ∀ i ∈ d, i.Plain) :
    (handleCommand env f.buffer f.size).Terminates t :=
  terminates_handleCommand env contract advances rounding prompt (serve_pending quiet run.serve)
    fun data => run.room contract honest idle quiet window inChip (plain data)

/-- A block of FLASH_DATA after a BEGIN of its size. -/
theorem stub_returns_block : ∃ d t, FlashRun (simPlatform 4 []) (simStart fun _ => 0)
    [beginFrame espFlashBegin 2 0] d t ∧
      (handleCommand (simPlatform 4 []) (dataFrame espFlashData 0 [1, 2]).buffer
        (dataFrame espFlashData 0 [1, 2]).size).Terminates t := by
  have served : ∃ t, (serve (simPlatform 4 []) [beginFrame espFlashBegin 2 0]).Returns
      (simStart fun _ => 0) () t := ⟨_, ⟨20, _, rfl⟩⟩
  obtain ⟨t, served⟩ := served
  obtain ⟨d, run⟩ := flashRun_of_serve served
  have prompt : (Opcode.ofByte (dataFrame espFlashData 0 [1, 2]).ctx.command).Prompt
      (simPlatform 4 []).plugin := by
    have opcode : Opcode.ofByte (dataFrame espFlashData 0 [1, 2]).ctx.command = .flashData := by
      decide
    rw [opcode]
    exact ⟨by decide, by decide, by simp, by simp⟩
  exact ⟨d, t, run, stub_returns (simLib_contract (k := 2) (by decide))
    (simLib_eventuallyAdvances (by decide)) (simLib_wordRounding 4) (simTinfl_honest []) rfl rfl
    (Nat.zero_le _) run (List.forall_mem_singleton.mpr fun _ => by decide) (fun _ => prompt)
    fun _ => run.plain (List.forall_mem_singleton.mpr (by decide))⟩

end Run

structure PromptRequest (sector : Nat) (p : List UInt8) : Prop where
  header : headerSize ≤ p.length
  prompt : (opcodeOf p).Prompt env.plugin
  inChip : ∀ f : Frame, f.bytes = p → f.InChip sector

section Conversation

variable {env} {sector : Nat}

theorem PromptRequest.opcode {f : Frame} (request : PromptRequest env sector f.bytes) :
    (Opcode.ofByte f.ctx.command).Prompt env.plugin := by
  have long : 1 < f.bytes.length := lt_of_lt_of_le (by decide) request.header
  exact opcodeOf_bytes long ▸ request.prompt

theorem returns_of_handleCommand {s₀ : StubState W D S C} {requests : List (List UInt8)}
    (ends : ∀ frames f t, (frames ++ [f]).map Frame.bytes <+: requests →
      (serve env frames).Returns s₀ () t → (handleCommand env f.buffer f.size).Terminates t) :
    (stubServer env).Returns Frame.bytes s₀ requests := by
  refine ⟨fun frames f t first serves => ?_, fun frames f t u first serves responds => ?_⟩
  · obtain ⟨_, v, run⟩ := ends frames f t first ((serves_iff env _ _ _).mp serves)
    obtain ⟨executed, u, responds, -⟩ := (returns_handleCommand_iff env f t v).mp run
    exact ⟨(executed, u), responds⟩
  · obtain ⟨_, v, run⟩ := ends frames f t first ((serves_iff env _ _ _).mp serves)
    obtain ⟨executed, w, responds', finishes⟩ := (returns_handleCommand_iff env f t v).mp run
    obtain ⟨rfl, rfl⟩ := responds.unique responds'
    exact ⟨v, finishes⟩

theorem returns_stubServer (contract : FlashContract env.lib sector)
    (advances : env.lib.EventuallyAdvances sector) (rounding : WordRounding env.lib)
    (honest : InflaterContract env.tinfl) {s₀ : StubState W D S C}
    (idle : s₀.flash.inProgress = false) (quiet : s₀.pendingPostProcess = none)
    (window : s₀.decompressedDataPtr ≤ tinflLzDictSize) {requests : List (List UInt8)}
    (prompt : ∀ p ∈ requests, PromptRequest env sector p) :
    (stubServer env).Returns Frame.bytes s₀ requests := by
  refine returns_of_handleCommand fun frames f t first serves => ?_
  have all (g : Frame) (mem : g ∈ frames ++ [f]) : PromptRequest env sector g.bytes :=
    prompt _ (first.subset (List.mem_map_of_mem mem))
  obtain ⟨d, run⟩ := flashRun_of_serve serves
  have plain := run.plain fun g mem => (all g (List.mem_append_left _ mem)).opcode.deflData
  refine terminates_handleCommand env contract advances rounding
    (fun _ => (all f (by simp)).opcode) (serve_pending quiet run.serve) fun _ => ?_
  exact run.room contract honest idle quiet window
    (fun g mem => (all g (List.mem_append_left _ mem)).inChip g rfl) plain

theorem SlipSession.allServed {requests : List (List UInt8)} (statics : S) (w : W)
    (returns : (stubServer env).Returns Frame.bytes (espMainStart env statics w) requests)
    (fits : ∀ p ∈ requests, Conversational env.plugin p) {n : Nat} {c : SlipSession W D S C}
    (run : Mailbox.Run slipLine (stubServer env) n (SlipSession.start env requests statics w) c)
    (stuck : ∀ d, ¬Mailbox.Works slipLine (stubServer env) c d) :
    AllServed env (espMainStart env statics w) requests c.stage := by
  obtain ⟨frames, sound⟩ := SlipSession.sound statics w fits run
  have never := sound.not_hangs SlipLine.carries_slipLine returns
  obtain complete | hangs := sound.stuck SlipLine.advances_slipLine stuck
  · exact worked_complete rfl complete
  · exact absurd hangs never

/-- Over SLIP a host that waits for its answers is always served to the end: in every interleaving
the conversation about requests that need no help has a bounded number of steps, apart from polls
that find nothing, and stops only where all of them have been handled. -/
theorem slip_conversation_completes (contract : FlashContract env.lib sector)
    (advances : env.lib.EventuallyAdvances sector) (rounding : WordRounding env.lib)
    (honest : InflaterContract env.tinfl) {requests : List (List UInt8)}
    (fits : ∀ p ∈ requests, Conversational env.plugin p)
    (prompt : ∀ p ∈ requests, PromptRequest env sector p) (statics : S) (w : W) {n : Nat}
    {c : SlipSession W D S C}
    (run : Mailbox.Run slipLine (stubServer env) n (SlipSession.start env requests statics w) c) :
    n ≤ (requests.map fun p => 20 * (slipSendFrame p).length + 1).sum ∧
      ((∀ d, ¬Mailbox.Works slipLine (stubServer env) c d) →
        AllServed env (espMainStart env statics w) requests c.stage) := by
  refine ⟨SlipSession.bounded statics w fits run, SlipSession.allServed statics w ?_ fits run⟩
  exact returns_stubServer contract advances rounding honest rfl rfl (Nat.zero_le _) prompt

theorem PromptRequest.of_other {p : List UInt8} (header : headerSize ≤ p.length)
    (prompt : (opcodeOf p).Prompt env.plugin)
    (other : opcodeOf p ≠ .flashBegin ∧ opcodeOf p ≠ .flashDeflBegin) :
    PromptRequest env sector p := by
  refine ⟨header, prompt, fun f same begins => ?_⟩
  have opcode := begins.opcode
  rw [begins.ok.opcode, same] at opcode
  exact absurd opcode (not_or.mpr other)

def nandEraseBlockRequest : List UInt8 := [0, 0xDC, 8, 0, 0, 0, 0, 0, 0, 0, 0, 0, 0, 0, 2, 0]

/-- A command of the stub, and one of the plugin. -/
theorem slip_conversation_completes_nand :
    ∃ (n : Nat) (c : SlipSession SimWorld (List SimInflate) NandState NandCallback),
      Mailbox.Run slipLine (stubServer (simNandPlatform 4 [])) n
        (SlipSession.start (simNandPlatform 4 []) [readRegRequest, nandEraseBlockRequest] {}
          ⟨fun _ => 0⟩) c ∧
      AllServed (simNandPlatform 4 []) (espMainStart (simNandPlatform 4 []) {} ⟨fun _ => 0⟩)
        [readRegRequest, nandEraseBlockRequest] c.stage := by
  have register : opcodeOf readRegRequest = .readReg := by decide
  have erase : opcodeOf nandEraseBlockRequest = .plugin 7 := by decide
  have erasePrompt : (opcodeOf nandEraseBlockRequest).Prompt (simNandPlatform 4 []).plugin := by
    rw [erase]
    exact nandPlugin_prompt _ _ _ _ (by decide)
  have fits : ∀ p ∈ [readRegRequest, nandEraseBlockRequest],
      Conversational (simNandPlatform 4 []).plugin p := by
    refine List.forall_mem_cons.mpr ⟨⟨by decide, ?_, ?_, ?_⟩,
      List.forall_mem_singleton.mpr ⟨by decide, ?_, erasePrompt.readFlash, erasePrompt.quiet⟩⟩
    · simp [register]
    · simp [register]
    · simp [register]
    · simp [erase]
  have prompt : ∀ p ∈ [readRegRequest, nandEraseBlockRequest],
      PromptRequest (simNandPlatform 4 []) 4 p := by
    refine List.forall_mem_cons.mpr ⟨.of_other (by decide) ?_ ?_,
      List.forall_mem_singleton.mpr (.of_other (by decide) erasePrompt ?_)⟩
    · rw [register]
      exact ⟨by decide, by decide, by simp, by simp⟩
    · simp [register]
    · simp [erase]
  obtain ⟨n, c, run, last⟩ := SlipSession.exists_run (simNandPlatform 4 []) {} ⟨fun _ => 0⟩ fits
  exact ⟨n, c, run, (slip_conversation_completes (simLib_contract (k := 2) (by decide))
    (simLib_eventuallyAdvances (by decide)) (simLib_wordRounding 4) (simTinfl_honest []) fits prompt
    {} ⟨fun _ => 0⟩ run).2 last⟩

end Conversation

end FlasherStub
