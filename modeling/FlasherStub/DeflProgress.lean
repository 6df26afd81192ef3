import FlasherStub.DeflSession

/-! Every packet of a compressed session comes to an end, as long as the inflater
emits no more than the declared total: each call takes input or fills the window,
and the window is written inside the erased region. -/

namespace FlasherStub

open ByteMemory Budget

variable {W D H S C : Type} {env : Platform W D H S C} {sector regionEnd start total : Nat}
  {base : List Event}

def Exceeds (base : List Event) (total : Nat) (s : StubState W D S C) : Prop :=
  ∃ tr, s.trace = base ++ tr ∧ total < (emitted tr).length

theorem Kept.holds {P : List Event → StubState W D S C → Prop} {s : StubState W D S C}
    (h : Kept base total P s) (within : ¬ Exceeds base total s) :
    ∃ tr, s.trace = base ++ tr ∧ (emitted tr).length ≤ total ∧ P tr s := by
  obtain ⟨tr, trace, holds⟩ := h
  have enough : (emitted tr).length ≤ total := not_lt.mp fun more => within ⟨tr, trace, more⟩
  exact ⟨tr, trace, enough, holds enough⟩

theorem terminatesOr_ensureFlashErasedTo (contract : FlashContract env.lib sector)
    (advances : env.lib.EventuallyAdvances sector) (inRegion : start + total ≤ regionEnd)
    (inChip : regionEnd < 2 ^ 32) {s : StubState W D S C}
    (inv : Kept base total (DeflInv sector regionEnd start total) s) :
    (ensureFlashErasedTo env ((s.flash.offset + s.window.length) % 2 ^ 32)).TerminatesOr
      (Exceeds base total) s := by
  by_cases exceeds : Exceeds base total s
  · exact .inr ⟨s, Prog.visits_loop_head _ _ s, exceeds⟩
  · obtain ⟨tr, -, enough, h⟩ := inv.holds exceeds
    refine (terminates_ensureFlashErasedTo env contract advances h.region.1 ?_).or _
    have fits := h.window_fits enough
    have here := h.image.offset
    have count := h.image.count
    rw [h.region.2, Nat.mod_eq_of_lt (by omega)]
    omega

theorem terminatesOr_flushWindow (contract : FlashContract env.lib sector)
    (advances : env.lib.EventuallyAdvances sector) (inRegion : start + total ≤ regionEnd)
    (inChip : regionEnd < 2 ^ 32) {s : StubState W D S C}
    (inv : Kept base total (DeflInv sector regionEnd start total) s) :
    (flushWindow env).TerminatesOr (Exceeds base total) s := by
  have asked : Kept base total (DeflInv sector regionEnd start total) (s.requested s.window) := by
    refine inv.step rfl fun tr h _ => h.extend (List.forall_mem_singleton.mpr ⟨id, id⟩) rfl rfl rfl ?_
    exact h.region.of_eq rfl rfl
  have write : (writeFlashData env s.window).TerminatesOr (Exceeds base total) s := by
    refine Prog.TerminatesOr.act_bind (Prog.TerminatesOr.act_bind ?_)
    refine (terminatesOr_ensureFlashErasedTo contract advances inRegion inChip asked).bind
      fun r t _ => ?_
    split_ifs
    · exact (Prog.terminates_pure _ t).or _
    · refine Prog.TerminatesOr.act_bind (Prog.TerminatesOr.act_bind ?_)
      split_ifs
      · exact (Prog.terminates_pure _ _).or _
      · exact Prog.TerminatesOr.act_bind ((Prog.terminates_pure _ _).or _)
  refine Prog.TerminatesOr.act_bind (write.bind fun r t _ => ?_)
  split_ifs
  · exact (Prog.terminates_pure _ t).or _
  · exact Prog.TerminatesOr.act_bind ((Prog.terminates_pure _ _).or _)

theorem ensures_inflate_progress (honest : InflaterContract env.tinfl) {input : List UInt8}
    (some : 0 < input.length) {space : Nat} (room : 0 < space) (flags : TinflFlags)
    (s : StubState W D S C) :
    (inflate env input space flags).Ensures s (fun _ => True) fun r t =>
      r.inBytes ≤ input.length ∧ t.trace = s.trace ++ [.inflate space r.out r.status] ∧
        (r.status.aboveDone = true → 0 < r.inBytes ∨ 0 < r.out.length) :=
  Prog.Ensures.act ⟨honest.consumes _ _ _ _ _ _, rfl,
    fun above => honest.progress _ _ _ _ _ _ above some room⟩

structure Gains (l l' : DeflLocals) (ext : List Event) : Prop where
  le : l'.compressedRemaining ≤ l.compressedRemaining
  above : l.status.aboveDone = true
  lower : l'.status.aboveDone = true →
    l'.compressedRemaining < l.compressedRemaining ∨ 0 < (emitted ext).length

theorem Gains.of_inflated {l : DeflLocals} (small : l.compressedRemaining < 2 ^ 32)
    (above : l.status.aboveDone = true) {r : TinflResult D}
    (consumed : r.inBytes ≤ l.compressedRemaining)
    (progress : r.status.aboveDone = true → 0 < r.inBytes ∨ 0 < r.out.length)
    (ext ext' : List Event) (space : Nat) :
    Gains l
      { compressedRemaining := sub32 l.compressedRemaining r.inBytes
        flags := ⟨false, false⟩
        status := r.status }
      (ext ++ [.inflate space r.out r.status] ++ ext') := by
  have left := sub32_of_le consumed small
  refine ⟨by dsimp only; omega, above, fun go => ?_⟩
  obtain taken | put := progress go
  · exact .inl (by dsimp only; omega)
  · refine .inr ?_
    simp only [emitted_append, emitted_inflate, List.length_append]
    omega

/-- How far a step of the loop gets. -/
theorem ensures_deflDataStep_progress (honest : InflaterContract env.tinfl) (ctx : CmdCtx)
    (dataSize : Nat) {l : DeflLocals} (small : l.compressedRemaining < 2 ^ 32)
    {s : StubState W D S C} (room : s.decompressedDataPtr < tinflLzDictSize) :
    (deflDataStep env ctx dataSize l).Ensures s (fun _ => True) fun r t => ∀ l', r = .inl l' →
      ∃ ext, t.trace = s.trace ++ ext ∧ Gains l l' ext := by
  rw [deflDataStep]
  split_ifs with more failed
  · have dict : tinflLzDictSize = 32768 := rfl
    have space : 0 < sub32 tinflLzDictSize s.decompressedDataPtr := by
      rw [sub32_of_le (by omega) (by omega)]
      omega
    refine Prog.Ensures.bind (Prog.Ensures.get ?_)
    refine Prog.Ensures.bind ((ensures_conditionalEraseNext env s).mono (fun _ _ => trivial)
      fun r u ahead => ?_)
    by_cases error : r ≠ responseSuccess
    · rw [if_pos error]
      exact Prog.Ensures.pure (by simp)
    rw [if_neg error]
    obtain ⟨_, _, _, _, ext, rfl, -⟩ := ahead
    refine Prog.Ensures.bind ((ensures_inflate_progress honest (by simpa using more.2) space _ _).post
      fun r v h => ?_)
    obtain ⟨consumed, trace, progress⟩ := h
    rw [Memory.length_read] at consumed
    have gains (ext' : List Event) := Gains.of_inflated small more.1 consumed progress ext ext'
      (sub32 tinflLzDictSize s.decompressedDataPtr)
    refine Prog.Ensures.bind (Prog.Ensures.get ?_)
    split_ifs
    · refine Prog.Ensures.bind ((keeps_flushWindow env v).mono (fun _ _ => trivial)
        fun r' w steps => ?_)
      obtain ⟨ext', grown⟩ := steps.trace
      split_ifs
      · exact Prog.Ensures.pure (by simp)
      · refine Prog.Ensures.pure fun l' same => ?_
        obtain rfl := Sum.inl.inj same
        exact ⟨_, by rw [grown, trace, StubState.erased]; simp, gains ext'⟩
    · refine Prog.Ensures.pure fun l' same => ?_
      obtain rfl := Sum.inl.inj same
      exact ⟨_, by rw [trace, StubState.erased]; simp, gains []⟩
  · exact Prog.Ensures.pure (by simp)
  · exact Prog.Ensures.pure (by simp)

theorem terminatesOr_deflDataStep (contract : FlashContract env.lib sector)
    (advances : env.lib.EventuallyAdvances sector) (honest : InflaterContract env.tinfl)
    (inRegion : start + total ≤ regionEnd) (inChip : regionEnd < 2 ^ 32) (ctx : CmdCtx)
    (dataSize : Nat) {l : DeflLocals} {s : StubState W D S C}
    (inv : PacketInv base sector regionEnd start total l s) :
    (deflDataStep env ctx dataSize l).TerminatesOr (Exceeds base total) s := by
  have sectorLe (w : W) : (env.lib.flashGetConfig w).sectorSize ≤ 2 ^ 31 := by
    rw [contract.config]
    exact contract.le
  obtain ⟨-, inv⟩ := inv
  rw [deflDataStep]
  split_ifs with more failed
  · refine Prog.TerminatesOr.act_bind ?_
    refine ((terminates_conditionalEraseNext env sectorLe s).or _).bind fun r u run => ?_
    have ahead := (ensures_conditionalEraseNext env s).2 r u run
    by_cases error : r ≠ responseSuccess
    · rw [if_pos error]
      exact (Prog.terminates_pure _ u).or _
    rw [if_neg error]
    have cleared := inv.ahead_idle contract ahead
    rw [← cleared.2]
    refine ((Prog.terminates_act _ u).or _).bind fun r v run => ?_
    have inflated := ((ensures_inflate honest cleared.1 _ _).2 r v run).2
    refine Prog.TerminatesOr.act_bind ?_
    split_ifs
    · refine (terminatesOr_flushWindow contract advances inRegion inChip
        (inflated.imp fun _ h => h.1)).bind fun r w _ => ?_
      split_ifs <;> exact (Prog.terminates_pure _ w).or _
    · exact (Prog.terminates_pure _ v).or _
  · exact (Prog.terminates_pure _ s).or _
  · exact (Prog.terminates_pure _ s).or _

/-- What is left to take in and to emit, and one step to see the end of the stream. -/
def packetRank (base : List Event) (total : Nat) (l : DeflLocals) (s : StubState W D S C) : Nat :=
  l.compressedRemaining + (total - (emitted (s.trace.drop base.length)).length) +
    if l.status.aboveDone then 1 else 0

theorem packetRank_lt {l l' : DeflLocals} {s t : StubState W D S C} {tr ext : List Event}
    (trace : s.trace = base ++ tr) (grown : t.trace = s.trace ++ ext)
    (within : (emitted (tr ++ ext)).length ≤ total) (gains : Gains l l' ext) :
    packetRank base total l' t < packetRank base total l s := by
  rw [emitted_append, List.length_append] at within
  unfold packetRank
  rw [grown, trace, List.append_assoc, List.drop_left, List.drop_left, if_pos gains.above,
    emitted_append, List.length_append]
  have le := gains.le
  split_ifs with go
  · obtain taken | put := gains.lower go <;> omega
  · omega

theorem terminatesOr_flashDeflDataPostProcess (contract : FlashContract env.lib sector)
    (succeeds : env.lib.Succeeds) (advances : env.lib.EventuallyAdvances sector)
    (honest : InflaterContract env.tinfl) (inRegion : start + total ≤ regionEnd)
    (inChip : regionEnd < 2 ^ 32) (ctx : CmdCtx) {s : StubState W D S C}
    (inv : Kept base total (DeflIdle sector regionEnd start total) (s.streamed ctx)) :
    (flashDeflDataPostProcess env ctx).TerminatesOr (Exceeds base total) s := by
  have loop (t : StubState W D S C) (inv : Kept base total (DeflIdle sector regionEnd start total) t)
      (flags : TinflFlags) : (Prog.loop (deflDataStep env ctx (getLeToU32 ctx.mem ctx.data))
        { compressedRemaining := getLeToU32 ctx.mem ctx.data, flags,
          status := .needsMoreInput }).TerminatesOr (Exceeds base total) t := by
    refine Prog.terminatesOr_loop (PacketInv base sector regionEnd start total)
      (packetRank base total) (fun l u inv within => ?_) ⟨getLeToU32_lt _ _, inv⟩
    refine ⟨terminatesOr_deflDataStep contract advances honest inRegion inChip ctx _ inv,
      fun l' v run => ⟨?_, fun within' => ?_⟩⟩
    · exact (ensures_deflDataStep contract succeeds honest (by omega) ctx _ inv).2 (.inl l') v run
    · obtain ⟨tr, trace, -, idle⟩ := inv.2.holds within
      obtain ⟨ext, grown, gains⟩ :=
        (ensures_deflDataStep_progress honest ctx _ inv.1 idle.room).2 _ v run l' rfl
      refine packetRank_lt trace grown (not_lt.mp fun more => within' ⟨tr ++ ext, ?_, more⟩) gains
      rw [grown, trace, List.append_assoc]
  rw [StubState.streamed] at inv
  rw [flashDeflDataPostProcess]
  split_ifs at inv ⊢ with first
  · exact Prog.TerminatesOr.act_bind (loop _ inv _)
  · exact loop _ inv _

theorem terminates_flashDeflData (ctx : CmdCtx) (s : StubState W D S C) :
    (withEmptyResponse (flashDeflData ctx)).Terminates s := by
  refine Prog.Terminates.bind ((Prog.terminates_act _ s).bind fun _ t _ => ?_)
    fun _ t _ => Prog.terminates_pure _ t
  dsimp only
  split_ifs
  · exact Prog.terminates_pure _ t
  · exact Prog.terminates_pure _ t
  · exact Prog.terminates_pure _ t
  · exact (Prog.terminates_act _ t).bind fun _ u _ => Prog.terminates_pure _ u

theorem terminates_initFlashOperation
    (sectorLe : ∀ w, (env.lib.flashGetConfig w).sectorSize ≤ 2 ^ 31) (ctx : CmdCtx)
    (isCompressed : Bool) (s : StubState W D S C) :
    (withEmptyResponse (initFlashOperation env ctx isCompressed)).Terminates s := by
  refine Prog.Terminates.bind ?_ fun _ t _ => Prog.terminates_pure _ t
  rw [initFlashOperation]
  split_ifs
  · exact Prog.terminates_pure _ s
  · exact (Prog.terminates_act _ s).bind fun _ t _ => (Prog.terminates_act _ t).bind
      fun _ u _ => terminates_conditionalEraseNext env sectorLe u

theorem terminates_begin (contract : FlashContract env.lib sector) {f : Frame}
    (begins : f.Begins) {s₀ : StubState W D S C} (clear : s₀.accumulatedResult = responseSuccess)
    (idle : s₀.pendingPostProcess = none) :
    (handleCommand env f.buffer f.size).Terminates s₀ := by
  have sectorLe (w : W) : (env.lib.flashGetConfig w).sectorSize ≤ 2 ^ 31 := by
    rw [contract.config]
    exact contract.le
  have dispatched : (dispatch env f.ctx (Opcode.ofByte f.ctx.command)).Terminates s₀ := by
    obtain opcode | opcode := begins.opcode
    · rw [opcode]
      exact terminates_initFlashOperation sectorLe f.ctx false s₀
    · rw [opcode]
      exact terminates_initFlashOperation sectorLe f.ctx true s₀
  have pending : (answer env f.ctx).Ensures s₀ (fun _ => True)
      fun _ v => v.pendingPostProcess = none := by
    refine ensures_answer env (ensures_dispatch_begin env begins
      ((ensures_conditionalEraseNext env _).mono (fun _ _ => trivial) fun r u ahead => ?_))
    refine answered_idle env ?_
    obtain ⟨_, _, _, _, _, rfl, -⟩ := ahead
    exact idle
  have executed : (execute env f.ctx).Terminates s₀ := by
    rw [execute, if_neg begins.opcode_ne]
    refine (terminates_answer env dispatched).bind fun _ v answered => ?_
    exact ⟨(), v, (returns_postProcess_none env (pending.2 () v answered) v).mpr rfl⟩
  obtain ⟨_, t, run⟩ := executed
  exact ⟨(), t, (returns_handleCommand_execute env begins.ok clear t).mpr run⟩

theorem simTinfl_honest (script : List SimInflate) : InflaterContract (simTinfl script) where
  consumes d input dict next outBytes flags := by
    cases d with
    | nil => exact Nat.zero_le _
    | cons call d => exact Nat.min_le_right _ _
  emits d input dict next outBytes flags := by
    cases d with
    | nil => exact Nat.zero_le _
    | cons call d => exact List.length_take_le _ _
  progress d input dict next outBytes flags above some room := by
    cases d with
    | nil => cases above
    | cons call d =>
      obtain ⟨status, inBytes, out⟩ := call
      simp only [simTinfl] at above ⊢
      split_ifs at above with idle
      · cases above
      · by_contra nothing
        exact idle ⟨above, by omega, by omega⟩

theorem simLib_succeeds (sector : Nat) : (simLib sector).Succeeds :=
  ⟨simLib_neverFails sector, fun _ _ _ _ => rfl⟩

end FlasherStub
