import FlasherStub.HandleCommand
import FlasherStub.Nand
import FlasherStub.FrameBuffer

/-! What a command reads of the receive buffer. Beyond its own frame there are bytes of earlier
frames, and behind the buffer other memory. -/

namespace FlasherStub

open ByteMemory Budget

variable {W D H S C : Type} (env : Platform W D H S C)

/-- The memory is the same up to the end of the payload. -/
def CmdCtx.Agrees (ctx : CmdCtx) (mem : Memory) : Prop :=
  ∀ a, a < ctx.data + ctx.packetSize → mem a = ctx.mem a

def CmdCtx.withMem (ctx : CmdCtx) (mem : Memory) : CmdCtx := { ctx with mem := mem }

theorem else_congr {α : Type} {c : Prop} [Decidable c] {a b b' : α} (h : ¬c → b = b') :
    (if c then a else b) = if c then a else b' := by
  split_ifs with hc
  · rfl
  · exact h hc

theorem sameRun_else {σ α : Type} {c : Prop} [Decidable c] {p q q' : Prog σ α} {s : σ}
    (h : ¬c → q.SameRun q' s) : (if c then p else q).SameRun (if c then p else q') s := by
  split_ifs with hc
  · exact .refl p s
  · exact h hc

theorem bind_congr_right {σ α β : Type} {p : Prog σ α} {f g : α → Prog σ β}
    (h : ∀ a, f a = g a) : (p >>= f) = (p >>= g) := by
  rw [show f = g from funext h]

theorem actualDataSize_le {ctx : CmdCtx} (long : 16 ≤ ctx.packetSize) :
    actualDataSize ctx ≤ ctx.packetSize - 16 := by
  unfold actualDataSize
  have header : flashDataHeaderSize = 16 := rfl
  omega

section Agrees

variable {ctx : CmdCtx} {mem : Memory} (agrees : ctx.Agrees mem)

include agrees

theorem CmdCtx.Agrees.word {k : Nat} (inside : k + 4 ≤ ctx.packetSize) :
    getLeToU32 mem (ctx.data + k) = getLeToU32 ctx.mem (ctx.data + k) :=
  getLeToU32_congr fun a _ _ => agrees a (by omega)

theorem CmdCtx.Agrees.head (inside : 4 ≤ ctx.packetSize) :
    getLeToU32 mem ctx.data = getLeToU32 ctx.mem ctx.data :=
  agrees.word (k := 0) (by omega)

theorem CmdCtx.Agrees.read {k n : Nat} (inside : k + n ≤ ctx.packetSize) :
    mem.read (ctx.data + k) n = ctx.mem.read (ctx.data + k) n :=
  Memory.read_congr fun a _ _ => agrees a (by omega)

theorem CmdCtx.Agrees.checksum {k n : Nat} (inside : k + n ≤ ctx.packetSize) (expected : Nat) :
    validateChecksum mem (ctx.data + k) n expected =
      validateChecksum ctx.mem (ctx.data + k) n expected := by
  unfold validateChecksum
  rw [agrees.read inside]

theorem beginSession_mem (size : ctx.packetSize = 16 ∨ ctx.packetSize = 20) (isCompressed : Bool)
    (s : StubState W D S C) :
    beginSession env (ctx.withMem mem) isCompressed s = beginSession env ctx isCompressed s := by
  have encrypt : (ctx.packetSize = 20 ∧ getLeToU32 mem (ctx.data + 16) ≠ 0) =
      (ctx.packetSize = 20 ∧ getLeToU32 ctx.mem (ctx.data + 16) ≠ 0) := by
    by_cases long : ctx.packetSize = 20
    · rw [agrees.word (by omega)]
    · simp [long]
  simp only [beginSession, CmdCtx.withMem, encrypt, agrees.head (by omega),
    agrees.word (k := 4) (by omega), agrees.word (k := 8) (by omega),
    agrees.word (k := 12) (by omega)]

theorem initFlashOperation_mem (isCompressed : Bool) :
    (initFlashOperation env (ctx.withMem mem) isCompressed : Stub W D S C Int) =
      initFlashOperation env ctx isCompressed := by
  refine else_congr fun bad => ?_
  have size : ctx.packetSize = 16 ∨ ctx.packetSize = 20 := by
    by_contra other
    exact bad (not_or.mp other)
  rw [show beginSession env (ctx.withMem mem) isCompressed = beginSession env ctx isCompressed
    from funext (beginSession_mem env agrees size isCompressed)]

theorem flashData_mem : (flashData (ctx.withMem mem) : Stub W D S C Int) = flashData ctx := by
  refine bind_congr_right fun s => else_congr fun short => else_congr fun _ => ?_
  have long : 16 ≤ ctx.packetSize := Nat.not_lt.mp short
  have size := actualDataSize_le long
  have word : getLeToU32 mem ctx.data = getLeToU32 ctx.mem ctx.data := agrees.head (by omega)
  have sum := agrees.checksum (k := 16) (n := actualDataSize ctx) (by omega) ctx.checksum
  change (if getLeToU32 mem ctx.data ≠ actualDataSize ctx then _
    else if validateChecksum mem (ctx.data + 16) (actualDataSize ctx) ctx.checksum ≠ _
      then pure (validateChecksum mem (ctx.data + 16) (actualDataSize ctx) ctx.checksum) else _) = _
  rw [word, sum]

theorem memBegin_mem : (memBegin (ctx.withMem mem) : Stub W D S C Int) = memBegin ctx := by
  refine else_congr fun size => ?_
  have size : ctx.packetSize = 16 := not_not.mp size
  simp only [CmdCtx.withMem, agrees.head (by omega), agrees.word (k := 4) (by omega),
    agrees.word (k := 8) (by omega), agrees.word (k := 12) (by omega)]

theorem memData_mem : (memData env (ctx.withMem mem) : Stub W D S C Int) = memData env ctx := by
  refine bind_congr_right fun s => else_congr fun short => else_congr fun _ => ?_
  have long : 16 ≤ ctx.packetSize := Nat.not_lt.mp short
  have size := actualDataSize_le long
  have word : getLeToU32 mem ctx.data = getLeToU32 ctx.mem ctx.data := agrees.head (by omega)
  have payload : mem.read (ctx.data + memDataHeaderSize) (actualDataSize (ctx.withMem mem)) =
      ctx.mem.read (ctx.data + memDataHeaderSize) (actualDataSize ctx) :=
    agrees.read (k := 16) (n := actualDataSize ctx) (by omega)
  change (if _ < getLeToU32 mem ctx.data then _
    else if getLeToU32 mem ctx.data ≠ actualDataSize ctx then _ else _) = _
  simp only [CmdCtx.withMem] at payload ⊢
  rw [word, payload]
  rfl

theorem writeRegEntries_mem (i count : Nat) (inside : (i + count) * 16 ≤ ctx.packetSize) :
    (writeRegEntries env (ctx.withMem mem) i count : Stub W D S C Unit) =
      writeRegEntries env ctx i count := by
  induction count generalizing i with
  | zero => rfl
  | succ count ih =>
    have next := ih (i + 1) (by omega)
    have entry (k : Nat) (small : k ≤ 12) :
        getLeToU32 mem (ctx.data + i * 16 + k) = getLeToU32 ctx.mem (ctx.data + i * 16 + k) := by
      rw [Nat.add_assoc]
      exact agrees.word (by omega)
    have first := entry 0 (by omega)
    rw [Nat.add_zero] at first
    simp only [writeRegEntries, next]
    simp only [CmdCtx.withMem, first, entry 4 (by omega), entry 8 (by omega), entry 12 (by omega)]

theorem writeReg_mem : (writeReg env (ctx.withMem mem) : Stub W D S C Int) = writeReg env ctx := by
  refine else_congr fun size => ?_
  have entries := writeRegEntries_mem (W := W) (D := D) (S := S) (C := C) env agrees 0
    (ctx.packetSize / 16) (by omega)
  exact congrArg (· >>= fun _ => pure responseSuccess) entries

theorem readReg_mem : (readReg env (ctx.withMem mem) : Stub W D S C _) = readReg env ctx := by
  refine else_congr fun size => ?_
  have size : ctx.packetSize = 4 := not_not.mp size
  simp only [CmdCtx.withMem, agrees.head (by omega)]

theorem spiAttach_mem :
    (spiAttach env (ctx.withMem mem) : Stub W D S C Int) = spiAttach env ctx := by
  refine else_congr fun size => ?_
  have size : ctx.packetSize = 4 := not_not.mp size
  simp only [CmdCtx.withMem, agrees.head (by omega)]

theorem spiSetParams_mem :
    (spiSetParams env (ctx.withMem mem) : Stub W D S C Int) = spiSetParams env ctx := by
  refine else_congr fun size => ?_
  have size : ctx.packetSize = 24 := not_not.mp size
  simp only [CmdCtx.withMem, agrees.head (by omega), agrees.word (k := 4) (by omega),
    agrees.word (k := 8) (by omega), agrees.word (k := 12) (by omega),
    agrees.word (k := 16) (by omega), agrees.word (k := 20) (by omega)]

theorem spiFlashMd5_mem :
    (spiFlashMd5 env (ctx.withMem mem) : Stub W D S C _) = spiFlashMd5 env ctx := by
  refine else_congr fun size => ?_
  have size : ctx.packetSize = 16 := not_not.mp size
  simp only [CmdCtx.withMem, agrees.head (by omega), agrees.word (k := 4) (by omega)]

theorem eraseRegion_mem :
    (eraseRegion env (ctx.withMem mem) : Stub W D S C Int) = eraseRegion env ctx := by
  refine else_congr fun size => ?_
  have size : ctx.packetSize = 8 := not_not.mp size
  simp only [CmdCtx.withMem, agrees.head (by omega), agrees.word (k := 4) (by omega)]

section Nand

variable (driver : NandDriver W) (resp : NandResponse)

theorem nandPluginAttach_mem :
    nandPluginAttach driver mem ctx.data ctx.packetSize resp =
      nandPluginAttach driver ctx.mem ctx.data ctx.packetSize resp := by
  refine else_congr fun size => ?_
  have size : ctx.packetSize = 4 := not_not.mp size
  rw [agrees.head (by omega)]

theorem nandPluginReadBbm_mem :
    nandPluginReadBbm driver mem ctx.data ctx.packetSize resp =
      nandPluginReadBbm driver ctx.mem ctx.data ctx.packetSize resp := by
  refine else_congr fun size => ?_
  have size : ctx.packetSize = 4 := not_not.mp size
  rw [agrees.head (by omega)]

theorem nandPluginWriteBbm_mem :
    nandPluginWriteBbm driver mem ctx.data ctx.packetSize resp =
      nandPluginWriteBbm driver ctx.mem ctx.data ctx.packetSize resp := by
  refine else_congr fun size => ?_
  have size : ctx.packetSize = 5 := not_not.mp size
  have isBad : mem (ctx.data + writeBbmIsBadOffset) = ctx.mem (ctx.data + writeBbmIsBadOffset) :=
    agrees _ (by rw [size]; exact Nat.lt_succ_self _)
  simp only [agrees.head (by omega), isBad]

theorem nandPluginReadFlash_mem :
    nandPluginReadFlash driver mem ctx.data ctx.packetSize resp =
      nandPluginReadFlash driver ctx.mem ctx.data ctx.packetSize resp := by
  refine else_congr fun size => ?_
  have size : ctx.packetSize = 16 := not_not.mp size
  simp only [agrees.head (by omega), agrees.word (k := 4) (by omega),
    agrees.word (k := 8) (by omega)]

theorem nandPluginWriteFlashBegin_mem :
    (nandPluginWriteFlashBegin mem ctx.data ctx.packetSize resp : NandStub W _) =
      nandPluginWriteFlashBegin ctx.mem ctx.data ctx.packetSize resp := by
  refine else_congr fun size => ?_
  have size : ctx.packetSize = 16 := not_not.mp size
  simp only [agrees.head (by omega), agrees.word (k := 4) (by omega)]

theorem nandPluginEraseRegion_mem :
    nandPluginEraseRegion driver mem ctx.data ctx.packetSize resp =
      nandPluginEraseRegion driver ctx.mem ctx.data ctx.packetSize resp := by
  refine else_congr fun size => ?_
  have size : ctx.packetSize = 8 := not_not.mp size
  simp only [agrees.head (by omega), agrees.word (k := 4) (by omega)]

theorem nandPluginReadPageDebug_mem :
    nandPluginReadPageDebug driver mem ctx.data ctx.packetSize resp =
      nandPluginReadPageDebug driver ctx.mem ctx.data ctx.packetSize resp := by
  refine else_congr fun size => ?_
  have size : ctx.packetSize = 4 := not_not.mp size
  simp only [agrees.head (by omega)]

def NandCopy.Inside (ctx : CmdCtx) (l : NandCopy) : Prop :=
  l.src + l.toProcess ≤ ctx.data + ctx.packetSize

theorem nandFillChunk_mem {l : NandCopy} (inside : l.Inside ctx) :
    (nandFillChunk mem l : NandStub W NandCopy) = nandFillChunk ctx.mem l := by
  refine bind_congr_right fun s => ?_
  have part (n : Nat) : (if l.toProcess < n then l.toProcess else n) ≤ l.toProcess := by
    split_ifs <;> omega
  have read (n : Nat) : mem.read l.src (if l.toProcess < n then l.toProcess else n) =
      ctx.mem.read l.src (if l.toProcess < n then l.toProcess else n) := by
    refine Memory.read_congr fun a _ ha => agrees a ?_
    have chunk := part n
    unfold NandCopy.Inside at inside
    omega
  simp only [read]

end Nand

end Agrees

section NandCopy

variable {ctx : CmdCtx} (driver : NandDriver W)

theorem gives_nandFillChunk (mem : Memory) {l : NandCopy} (inside : l.Inside ctx) :
    (nandFillChunk mem l : NandStub W NandCopy).Gives fun next => next.Inside ctx := by
  refine Prog.gives_bind fun s => Prog.gives_bind fun _ => Prog.gives_pure ?_
  have space := sub32_lt nandPageSize s.1.write.pageBufFilled
  unfold NandCopy.Inside at inside ⊢
  unfold sub32 at space ⊢
  dsimp only
  split_ifs <;> omega

theorem gives_nandCopyStep_inside (mem : Memory) {l : NandCopy} (inside : l.Inside ctx) :
    (nandCopyStep driver mem l).Gives (Sum.elim (fun next => next.Inside ctx) fun _ => True) := by
  refine Prog.gives_ite ((gives_nandFillChunk mem inside).bind fun next inside => ?_)
    (Prog.gives_pure trivial)
  refine Prog.gives_bind fun s => Prog.gives_ite (Prog.gives_bind fun ret => ?_)
    (Prog.gives_pure inside)
  exact Prog.gives_ite (Prog.gives_bind fun _ => Prog.gives_pure trivial)
    (Prog.gives_pure inside)

theorem sameRun_nandCopy {mem : Memory} (agrees : ctx.Agrees mem) {l : NandCopy}
    (inside : l.Inside ctx) (s : NandState × W) :
    (Prog.loop (nandCopyStep driver mem) l).SameRun (Prog.loop (nandCopyStep driver ctx.mem) l) s := by
  refine Prog.SameRun.loop (fun l _ => l.Inside ctx) (fun l s inside => ?_)
    (fun l s inside l' t next => ?_) inside
  · refine Prog.SameRun.of_eq ?_ s
    unfold nandCopyStep
    rw [nandFillChunk_mem agrees inside]
  · exact (gives_nandCopyStep_inside driver mem inside s).2 _ t next

theorem sameRun_nandPluginWriteFlashData {mem : Memory} (agrees : ctx.Agrees mem)
    (header : 4 ≤ ctx.data) (resp : NandResponse) (s : NandState × W) :
    (nandPluginWriteFlashData driver mem ctx.data ctx.packetSize resp).SameRun
      (nandPluginWriteFlashData driver ctx.mem ctx.data ctx.packetSize resp) s := by
  refine Prog.SameRun.act_bind (sameRun_else fun short => sameRun_else fun _ => ?_)
  have long : 16 ≤ ctx.packetSize := Nat.not_lt.mp short
  have stored : getLeToU32 mem (ctx.data - 4) = getLeToU32 ctx.mem (ctx.data - 4) :=
    getLeToU32_congr fun a _ _ => agrees a (by omega)
  have payload := agrees.read (k := spiNandWriteFlashDataHeaderSize)
    (n := ctx.packetSize - spiNandWriteFlashDataHeaderSize) (Nat.add_sub_of_le long).le
  dsimp only
  rw [agrees.head (by omega), stored, payload]
  refine sameRun_else fun _ => sameRun_else fun _ => sameRun_else fun _ => ?_
  refine Prog.SameRun.bind (sameRun_nandCopy driver agrees ?_ s) fun ret t _ => .refl _ t
  change ctx.data + 16 + min (ctx.packetSize - 16) _ ≤ _
  omega

theorem sameRun_nandHandler {mem : Memory} (agrees : ctx.Agrees mem) (header : 4 ≤ ctx.data)
    (idx : Nat) (resp : NandResponse) (s : NandState × W) :
    (nandHandler driver idx mem ctx.data ctx.packetSize resp).SameRun
      (nandHandler driver idx ctx.mem ctx.data ctx.packetSize resp) s := by
  unfold nandHandler
  split
  · exact .of_eq (nandPluginAttach_mem agrees driver resp) s
  · exact .of_eq (nandPluginReadBbm_mem agrees driver resp) s
  · exact .of_eq (nandPluginWriteBbm_mem agrees driver resp) s
  · exact .of_eq (nandPluginReadFlash_mem agrees driver resp) s
  · exact .of_eq (nandPluginWriteFlashBegin_mem agrees resp) s
  · exact sameRun_nandPluginWriteFlashData driver agrees header resp s
  · exact .refl _ s
  · exact .of_eq (nandPluginEraseRegion_mem agrees driver resp) s
  · exact .of_eq (nandPluginReadPageDebug_mem agrees driver resp) s
  · exact .refl _ s
  · exact .refl _ s

end NandCopy

end FlasherStub
