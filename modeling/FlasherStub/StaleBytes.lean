import FlasherStub.DeflProgress
import FlasherStub.Dispatcher
import FlasherStub.History
import FlasherStub.OwnFrame

/-! Stale bytes. What a command answers and does is a matter of its own frame, as long as the
frame has the bytes that the header checks look at and as long as a compressed block does not
announce more data than it brings. -/

namespace FlasherStub

open ByteMemory Budget

variable {W D H S C : Type} (env : Platform W D H S C)

/-- What a callback reads lies in the payload. -/
def PostProcess.Inside (ctx : CmdCtx) : PostProcess C → Prop
  | .flashData => 16 ≤ ctx.packetSize
  | .flashDeflData => 16 ≤ ctx.packetSize ∧ getLeToU32 ctx.mem ctx.data ≤ ctx.packetSize - 16
  | .memEnd | .changeBaudrate => ctx.packetSize = 8
  | .readFlash => ctx.packetSize = 16
  | .plugin _ => True

section Callbacks

variable {ctx : CmdCtx} {mem : Memory} (agrees : ctx.Agrees mem)

include agrees

theorem flashDataPostProcess_mem (long : 16 ≤ ctx.packetSize) :
    (flashDataPostProcess env (ctx.withMem mem) : Stub W D S C Int) =
      flashDataPostProcess env ctx := by
  refine bind_congr_right fun s => ?_
  have size := actualDataSize_le long
  have read := agrees.read (k := flashDataHeaderSize)
    (n := min (actualDataSize ctx) s.flash.totalRemaining)
    (by have header : flashDataHeaderSize = 16 := rfl; omega)
  exact congrArg (writeFlashData env) read

theorem memEndPostProcess_mem (size : ctx.packetSize = 8) :
    (memEndPostProcess env (ctx.withMem mem) : Stub W D S C Int) = memEndPostProcess env ctx := by
  simp only [memEndPostProcess, CmdCtx.withMem, agrees.head (by omega),
    agrees.word (k := 4) (by omega)]

theorem changeBaudratePostProcess_mem (size : ctx.packetSize = 8) :
    (changeBaudratePostProcess env (ctx.withMem mem) : Stub W D S C Int) =
      changeBaudratePostProcess env ctx := by
  simp only [changeBaudratePostProcess, CmdCtx.withMem, agrees.head (by omega)]

theorem readFlashPostProcess_mem (size : ctx.packetSize = 16) :
    (readFlashPostProcess env (ctx.withMem mem) : Stub W D S C Int) =
      readFlashPostProcess env ctx := by
  simp only [readFlashPostProcess, CmdCtx.withMem, agrees.head (by omega),
    agrees.word (k := 4) (by omega), agrees.word (k := 8) (by omega)]

theorem deflDataStep_mem {dataSize : Nat} (long : 16 ≤ ctx.packetSize)
    (fits : dataSize ≤ ctx.packetSize - 16) {l : DeflLocals}
    (left : l.compressedRemaining ≤ dataSize) :
    (deflDataStep env (ctx.withMem mem) dataSize l : Stub W D S C _) =
      deflDataStep env ctx dataSize l := by
  have read : mem.read (ctx.data + flashDeflDataHeaderSize + dataSize - l.compressedRemaining)
      l.compressedRemaining = ctx.mem.read
        (ctx.data + flashDeflDataHeaderSize + dataSize - l.compressedRemaining)
        l.compressedRemaining := by
    have header : flashDeflDataHeaderSize = 16 := rfl
    exact Memory.read_congr fun a _ _ => agrees a (by omega)
  simp only [deflDataStep, CmdCtx.withMem, read]

end Callbacks

theorem gives_inflate (inflater : InflaterContract env.tinfl) (input : List UInt8) (outBytes : Nat)
    (flags : TinflFlags) : (inflate env input outBytes flags : Stub W D S C _).Gives
      fun r => r.inBytes ≤ input.length :=
  fun _ => Prog.Ensures.act (inflater.consumes _ _ _ _ _ _)

theorem gives_deflDataStep_left (inflater : InflaterContract env.tinfl) (ctx : CmdCtx)
    {dataSize : Nat} (small : dataSize < 2 ^ 32) {l : DeflLocals}
    (left : l.compressedRemaining ≤ dataSize) :
    (deflDataStep env ctx dataSize l : Stub W D S C _).Gives
      (Sum.elim (fun next => next.compressedRemaining ≤ dataSize) fun _ => True) := by
  refine Prog.gives_ite (Prog.gives_bind fun s => Prog.gives_bind fun r => ?_)
    (Prog.gives_ite (Prog.gives_pure trivial) (Prog.gives_pure trivial))
  refine Prog.gives_ite (Prog.gives_pure trivial) ((gives_inflate env inflater _ _ _).bind
    fun r consumed => Prog.gives_bind fun u => ?_)
  rw [Memory.length_read] at consumed
  have next : sub32 l.compressedRemaining r.inBytes ≤ dataSize := by
    rw [sub32_of_le consumed (by omega)]
    omega
  refine Prog.gives_ite (Prog.gives_bind fun written => ?_) (Prog.gives_pure next)
  exact Prog.gives_ite (Prog.gives_pure trivial) (Prog.gives_pure next)

variable {env} {ctx : CmdCtx} {mem : Memory}

theorem sameRun_flashDeflDataPostProcess (inflater : InflaterContract env.tinfl)
    (agrees : ctx.Agrees mem) (long : 16 ≤ ctx.packetSize)
    (fits : getLeToU32 ctx.mem ctx.data ≤ ctx.packetSize - 16) (s : StubState W D S C) :
    (flashDeflDataPostProcess env (ctx.withMem mem)).SameRun (flashDeflDataPostProcess env ctx) s := by
  have loops (l : DeflLocals) (left : l.compressedRemaining ≤ getLeToU32 ctx.mem ctx.data)
      (t : StubState W D S C) :
      (Prog.loop (deflDataStep env (ctx.withMem mem) (getLeToU32 ctx.mem ctx.data)) l).SameRun
        (Prog.loop (deflDataStep env ctx (getLeToU32 ctx.mem ctx.data)) l) t :=
    Prog.SameRun.loop (fun l _ => l.compressedRemaining ≤ getLeToU32 ctx.mem ctx.data)
      (fun l t left => .of_eq (deflDataStep_mem env agrees long fits left) t)
      (fun l t left next u h => (gives_deflDataStep_left env inflater (ctx.withMem mem)
        (getLeToU32_lt ctx.mem ctx.data) left t).2 _ u h) left
  unfold flashDeflDataPostProcess
  simp only [CmdCtx.withMem, agrees.head (by omega), agrees.word (k := 4) (by omega)]
  simp only [CmdCtx.withMem] at loops
  split_ifs
  · exact Prog.SameRun.act_bind (loops _ le_rfl _)
  · exact loops _ le_rfl s

theorem inProgress_of_check {s : StubState W D S C}
    (h : ¬checkFlashInProgress s ≠ responseSuccess) : s.flash.inProgress = true := by
  by_contra idle
  have closed : checkFlashInProgress s = responseNotInFlashMode := by
    simp [checkFlashInProgress, idle]
  exact h (by rw [closed]; decide)

theorem xorSum_lt (bytes : List UInt8) {sum : Nat} (small : sum < 2 ^ 8) :
    bytes.foldl (fun checksum b => checksum ^^^ b.toNat) sum < 2 ^ 8 := by
  induction bytes generalizing sum with
  | nil => exact small
  | cons b bytes ih => exact ih (Nat.xor_lt_two_pow small b.toNat_lt)

/-- No block has a checksum that is not a byte. -/
theorem validateChecksum_wide {expected : Nat} (wide : 2 ^ 8 ≤ expected) (mem : Memory)
    (p size : Nat) : validateChecksum mem p size expected = responseBadDataChecksum := by
  have sum : (mem.read p size).foldl (fun checksum b => checksum ^^^ b.toNat) 0xEF < 2 ^ 8 :=
    xorSum_lt _ (by omega)
  rw [validateChecksum, if_pos (by omega)]

theorem sameRun_flashDeflData (agrees : ctx.Agrees mem) {s : StubState W D S C}
    (fits : 16 ≤ ctx.packetSize → s.flash.inProgress = true → ctx.checksum < 2 ^ 8 →
      getLeToU32 ctx.mem ctx.data ≤ ctx.packetSize - 16) :
    (flashDeflData (ctx.withMem mem)).SameRun (flashDeflData ctx) s := by
  refine Prog.SameRun.act_bind (sameRun_else fun short => sameRun_else fun closed => ?_)
  have long : 16 ≤ ctx.packetSize := Nat.not_lt.mp short
  have armed : s.flash.inProgress = true := inProgress_of_check closed
  have sums : validateChecksum mem (ctx.data + flashDeflDataHeaderSize)
      (getLeToU32 ctx.mem ctx.data) ctx.checksum =
        validateChecksum ctx.mem (ctx.data + flashDeflDataHeaderSize)
          (getLeToU32 ctx.mem ctx.data) ctx.checksum := by
    have header : flashDeflDataHeaderSize = 16 := rfl
    by_cases byte : ctx.checksum < 2 ^ 8
    · have inside := fits long armed byte
      exact agrees.checksum (by omega) ctx.checksum
    · rw [validateChecksum_wide (Nat.not_lt.mp byte), validateChecksum_wide (Nat.not_lt.mp byte)]
  simp only [CmdCtx.withMem, agrees.head (by omega), sums]
  exact .refl _ _

theorem checksum_byte {expected : Nat} {p size : Nat}
    (h : validateChecksum mem p size expected = responseSuccess) : expected < 2 ^ 8 := by
  by_contra wide
  rw [validateChecksum_wide (Nat.not_lt.mp wide)] at h
  exact absurd h (by decide)

section Nand

variable {W D H : Type} {env : Platform W D H NandState NandCallback} {driver : NandDriver W}
  {md5 : Md5 H} {transport : TransportOps W} {patched : Nat → Bool}
  {s : StubState W D NandState NandCallback}

theorem sameRun_dispatch (table : env.plugin = nandPlugin driver md5 transport patched)
    (agrees : ctx.Agrees mem) (header : 4 ≤ ctx.data) {o : Opcode}
    (fits : o = .flashDeflData → 16 ≤ ctx.packetSize → s.flash.inProgress = true →
      ctx.checksum < 2 ^ 8 → getLeToU32 ctx.mem ctx.data ≤ ctx.packetSize - 16) :
    (dispatch env (ctx.withMem mem) o).SameRun (dispatch env ctx o) s := by
  have same {handler handler' : Stub W D NandState NandCallback Int} (h : handler' = handler) :
      (withEmptyResponse handler').SameRun (withEmptyResponse handler) s := .of_eq (h ▸ rfl) s
  cases o with
  | flashBegin => exact same (initFlashOperation_mem env agrees false)
  | flashData => exact same (flashData_mem agrees)
  | memBegin => exact same (memBegin_mem agrees)
  | memData => exact same (memData_mem env agrees)
  | writeReg => exact same (writeReg_mem env agrees)
  | readReg => exact .of_eq (readReg_mem env agrees) s
  | spiAttach => exact same (spiAttach_mem env agrees)
  | spiSetParams => exact same (spiSetParams_mem env agrees)
  | flashDeflBegin => exact same (initFlashOperation_mem env agrees true)
  | flashDeflData =>
    exact (sameRun_flashDeflData agrees (fits rfl)).bind fun _ t _ => .refl _ t
  | spiFlashMd5 => exact .of_eq (spiFlashMd5_mem env agrees) s
  | eraseRegion => exact same (eraseRegion_mem env agrees)
  | plugin idx =>
    refine Prog.SameRun.bind (Prog.SameRun.focus ?_) fun _ t _ => .refl _ t
    rw [table]
    change (if patched idx then _ else _ : NandStub W _).SameRun (if patched idx then _ else _) _
    split_ifs
    · exact sameRun_nandHandler driver agrees header idx {} _
    · exact .refl _ _
  | sync | flashEnd | memEnd | changeBaudrate | flashDeflEnd | getSecurityInfo | readFlash |
      eraseFlash | runUserCode | unknown => exact .refl _ s

theorem sameRun_runPostProcess (table : env.plugin = nandPlugin driver md5 transport patched)
    (inflater : InflaterContract env.tinfl) (agrees : ctx.Agrees mem)
    {p : PostProcess NandCallback} (inside : p.Inside ctx) :
    (runPostProcess env (ctx.withMem mem) p).SameRun (runPostProcess env ctx p) s := by
  cases p with
  | flashData => exact .of_eq (flashDataPostProcess_mem env agrees inside) s
  | flashDeflData => exact sameRun_flashDeflDataPostProcess inflater agrees inside.1 inside.2 s
  | memEnd => exact .of_eq (memEndPostProcess_mem env agrees inside) s
  | changeBaudrate => exact .of_eq (changeBaudratePostProcess_mem env agrees inside) s
  | readFlash => exact .of_eq (readFlashPostProcess_mem env agrees inside) s
  | plugin callback =>
    refine Prog.SameRun.focus ?_
    rw [table]
    exact .refl _ _

theorem ensures_dispatch_inside (idle : s.pendingPostProcess = none) {o : Opcode}
    (fits : o = .flashDeflData → 16 ≤ ctx.packetSize → s.flash.inProgress = true →
      ctx.checksum < 2 ^ 8 → getLeToU32 ctx.mem ctx.data ≤ ctx.packetSize - 16) :
    (dispatch env ctx o).Ensures s (fun _ => True) fun r u => r.1 = responseSuccess →
      ∀ p, u.pendingPostProcess = some p → p.Inside ctx := by
  by_cases slot : ∃ idx, o = .plugin idx
  · obtain ⟨idx, rfl⟩ := slot
    refine Prog.Ensures.bind (Prog.Ensures.focus (Prog.Ensures.of_returns fun r u _ => ?_))
    dsimp only
    cases r.2.postProcess with
    | none =>
      refine Prog.Ensures.bind (Prog.Ensures.pure (Prog.Ensures.pure fun _ p pending => ?_))
      rw [idle] at pending
      cases pending
    | some callback =>
      refine Prog.Ensures.bind (Prog.Ensures.modify (Prog.Ensures.pure fun _ p pending => ?_))
      cases pending
      trivial
  have spec : (dispatch env ctx o).Ensures s (fun _ => True) fun r =>
      Spec env s o.early o.callback (o.Sized ctx) r.1 :=
    (ensures_dispatch ctx s (not_exists.mp slot)).mono (fun _ _ => trivial) fun _ _ h => h
  by_cases defl : o = .flashDeflData
  · subst defl
    have accepts : (dispatch env ctx .flashDeflData).Ensures s (fun _ => True) _ :=
      ensures_withEmptyResponse (Q := fun r _ => r.1 = responseSuccess → _)
        ((ensures_flashDeflData_accepts ctx s).post fun _ _ h => h.2.2.2)
    refine (spec.and accepts).mono (fun _ _ => trivial) fun r u h good p pending => ?_
    have registered := h.1.pending
    rw [if_pos good, pending] at registered
    cases registered
    obtain ⟨short, armed, sum⟩ := h.2 good
    have long : 16 ≤ ctx.packetSize := Nat.not_lt.mp short
    exact ⟨long, fits rfl long (inProgress_of_check (not_not.mpr armed)) (checksum_byte sum)⟩
  · refine spec.post fun r u h good p pending => ?_
    have registered := h.pending
    have sized := h.sized good
    rw [if_pos good, pending, idle, Option.or_none] at registered
    cases o with
    | flashData | memEnd | changeBaudrate | readFlash =>
      cases registered
      exact sized
    | flashDeflData => exact absurd rfl defl
    | _ => cases registered

/-- A compressed block in a session that announces more data than it brings. -/
structure Overreads (f : Frame) (s : StubState W D S C) : Prop where
  ok : f.HeaderOk
  clear : s.accumulatedResult = responseSuccess
  opcode : Opcode.ofByte f.ctx.command = .flashDeflData
  long : 16 ≤ f.ctx.packetSize
  armed : s.flash.inProgress = true
  byte : f.ctx.checksum < 2 ^ 8
  beyond : f.ctx.packetSize - 16 < getLeToU32 f.ctx.mem f.ctx.data

theorem sameRun_execute (table : env.plugin = nandPlugin driver md5 transport patched)
    (inflater : InflaterContract env.tinfl) (agrees : ctx.Agrees mem) (header : 4 ≤ ctx.data)
    (idle : s.pendingPostProcess = none)
    (fits : Opcode.ofByte ctx.command = .flashDeflData → 16 ≤ ctx.packetSize →
      s.flash.inProgress = true → ctx.checksum < 2 ^ 8 →
        getLeToU32 ctx.mem ctx.data ≤ ctx.packetSize - 16) :
    (execute env (ctx.withMem mem)).SameRun (execute env ctx) s := by
  refine sameRun_else fun _ => ?_
  have answers : (answer env (ctx.withMem mem)).SameRun (answer env ctx) s :=
    (sameRun_dispatch table agrees header fits).bind fun r t _ => .refl _ t
  have inside : (answer env ctx).Ensures s (fun _ => True) fun _ t =>
      ∀ p, t.pendingPostProcess = some p → p.Inside ctx := by
    refine ensures_answer env ((ensures_dispatch_inside idle fits).post fun r u h p pending => ?_)
    unfold StubState.answered at pending
    split_ifs at pending with good
    · exact h good p pending
  refine answers.bind fun _ t answered => Prog.SameRun.act_bind ?_
  dsimp only
  cases pending : t.pendingPostProcess with
  | none => exact .refl _ t
  | some p =>
    have reads := inside.2 () t (answers.returns answered) p pending
    exact (sameRun_runPostProcess table inflater agrees reads).bind fun _ u _ => .refl _ u

theorem parse_mem {buffer buffer' : Memory} (same : ∀ a, a < 8 → buffer' a = buffer a) :
    CmdCtx.parse buffer' = (CmdCtx.parse buffer).withMem buffer' := by
  have size : getLeToU16 buffer' 2 = getLeToU16 buffer 2 :=
    getLeToU16_congr fun a _ _ => same a (by omega)
  have checksum : getLeToU32 buffer' 4 = getLeToU32 buffer 4 :=
    getLeToU32_congr fun a _ _ => same a (by omega)
  simp only [CmdCtx.parse, CmdCtx.withMem, same 0 (by decide), same 1 (by decide), size, checksum]

theorem sameRun_handleCommand (table : env.plugin = nandPlugin driver md5 transport patched)
    (inflater : InflaterContract env.tinfl) (idle : s.pendingPostProcess = none) {f g : Frame}
    (size : g.size = f.size) (same : ∀ a, a < f.size → g.buffer a = f.buffer a)
    (addressed : 2 ≤ f.size) (inside : ¬Overreads f s) :
    (handleCommand env g.buffer g.size).SameRun (handleCommand env f.buffer f.size) s := by
  have direction : g.ctx.direction = f.ctx.direction := congrArg UInt8.toNat (same 0 (by omega))
  have command : g.ctx.command = f.ctx.command := congrArg UInt8.toNat (same 1 (by omega))
  by_cases ok : f.HeaderOk
  · have whole : f.size = f.ctx.packetSize + 8 := ok.2
    have parsed : g.ctx = f.ctx.withMem g.buffer := parse_mem fun a ha => same a (by omega)
    have ok' : g.HeaderOk := by
      refine ⟨direction.trans ok.1, ?_⟩
      rw [size, whole, parsed]
      rfl
    intro n
    by_cases clear : s.accumulatedResult = responseSuccess
    · rw [run_handleCommand_execute env ok' clear, run_handleCommand_execute env ok clear, parsed]
      have start : f.ctx.data = 8 := rfl
      have agrees : f.ctx.Agrees g.buffer := fun a ha => same a (by omega)
      refine sameRun_execute table inflater agrees (by omega) idle
        (fun opcode long armed byte => ?_) n
      by_contra beyond
      exact inside ⟨ok, clear, opcode, long, armed, byte, Nat.not_le.mp beyond⟩
    · rw [handleCommand_ok env ok', handleCommand_ok env ok]
      refine Prog.SameRun.act_bind ?_ n
      dsimp only
      rw [if_pos clear, if_pos clear, command]
      exact .refl _ s
  · have bad : ¬g.HeaderOk := by
      rintro ⟨requested, whole⟩
      have header : headerSize = 8 := rfl
      have parsed : g.ctx = f.ctx.withMem g.buffer := parse_mem fun a ha => same a (by omega)
      rw [size, parsed] at whole
      exact ok ⟨direction.symm.trans requested, whole⟩
    have code : g.rejectCode = f.rejectCode := by rw [Frame.rejectCode, Frame.rejectCode, direction]
    rw [handleCommand_reject env bad, handleCommand_reject env ok, code, command]
    exact .refl _ s

end Nand

variable {W D H S C : Type} {env : Platform W D H S C}

variable (env) in
/-- What earlier frames have left in the receive buffer behind `f` makes no difference. -/
def OwnFrameOnly (f : Frame) (s : StubState W D S C) : Prop :=
  ∀ buffer' : Memory, (∀ a, a < f.size ∨ frameBufferSize ≤ a → buffer' a = f.buffer a) →
    (handleCommand env buffer' f.size).SameRun (handleCommand env f.buffer f.size) s

def Frame.stale (f : Frame) (a : Nat) (b : UInt8) : Frame :=
  { f with buffer := Function.update f.buffer a b }

theorem OwnFrameOnly.stale {f : Frame} {s : StubState W D S C}
    (only : OwnFrameOnly env f s) {a : Nat} (behind : f.size ≤ a) (inside : a < frameBufferSize)
    (b : UInt8) : (handleCommand env (f.stale a b).buffer f.size).SameRun
      (handleCommand env f.buffer f.size) s := by
  refine only _ fun a' ha => ?_
  have other : a' ≠ a := by omega
  exact Function.update_of_ne other b f.buffer

theorem not_ownFrameOnly_short {f : Frame} (short : f.size < 2) (s : StubState W D S C) :
    ¬OwnFrameOnly env f s := by
  intro only
  have header : headerSize = 8 := rfl
  have bad (b : UInt8) : ¬(f.stale 1 b).HeaderOk := by
    rintro ⟨-, size⟩
    change f.size = _ at size
    omega
  have returned (b : UInt8) := (only.stale (a := 1) (by omega) (by decide) b).returns
    ((returns_handleCommand_reject env (bad b) s _).mpr rfl)
  have once := ((returned 0).unique (returned 1)).2
  have sent : (f.stale 1 0).rejectFrame = (f.stale 1 1).rejectFrame := by
    simpa [StubState.afterSend] using congrArg StubState.sent once
  have second : (f.stale 1 0).rejectFrame[1]? = (f.stale 1 1).rejectFrame[1]? := by rw [sent]
  rw [Frame.rejectFrame, Frame.rejectFrame, responseFrame_command, responseFrame_command] at second
  simp [Frame.stale] at second

theorem exists_xorSum (left right : List UInt8) {sum : Nat} (small : sum < 2 ^ 8) :
    ∃ b, (left ++ b :: right).foldl (fun checksum b => checksum ^^^ b.toNat) 0xEF = sum := by
  have shift (bytes : List UInt8) (a : Nat) :
      bytes.foldl (fun checksum b => checksum ^^^ b.toNat) a =
        a ^^^ bytes.foldl (fun checksum b => checksum ^^^ b.toNat) 0 := by
    induction bytes generalizing a with
    | nil => simp
    | cons b bytes ih =>
      rw [List.foldl_cons, List.foldl_cons, ih, ih (0 ^^^ b.toNat), Nat.zero_xor, Nat.xor_assoc]
  have before := xorSum_lt left (show 0xEF < 2 ^ 8 by omega)
  have after := xorSum_lt right (show 0 < 2 ^ 8 by omega)
  set l := left.foldl (fun checksum b => checksum ^^^ b.toNat) 0xEF
  set r := right.foldl (fun checksum b => checksum ^^^ b.toNat) 0
  have byte : l ^^^ (sum ^^^ r) < 2 ^ 8 :=
    Nat.xor_lt_two_pow before (Nat.xor_lt_two_pow small after)
  refine ⟨UInt8.ofNat (l ^^^ (sum ^^^ r)), ?_⟩
  rw [List.foldl_append, List.foldl_cons, shift, UInt8.toNat_ofNat_of_lt' byte]
  change l ^^^ (l ^^^ (sum ^^^ r)) ^^^ r = sum
  rw [← Nat.xor_assoc l l, Nat.xor_self, Nat.zero_xor, Nat.xor_assoc, Nat.xor_self, Nat.xor_zero]

section Overreads

variable {f : Frame} {s : StubState W D S C} (overread : Overreads f s)

include overread

theorem Overreads.size : f.size = f.ctx.packetSize + 8 := overread.ok.2

theorem Overreads.parse (b : UInt8) :
    (f.stale f.size b).ctx = f.ctx.withMem (Function.update f.buffer f.size b) := by
  have whole := overread.size
  refine parse_mem fun a ha => ?_
  have other : a ≠ f.size := by omega
  exact Function.update_of_ne other b f.buffer

theorem Overreads.ok_stale (b : UInt8) : (f.stale f.size b).HeaderOk := by
  rw [Frame.HeaderOk, overread.parse]
  exact overread.ok

theorem Overreads.opcode_stale (b : UInt8) :
    Opcode.ofByte (f.stale f.size b).ctx.command = .flashDeflData := by
  rw [overread.parse]
  exact overread.opcode

theorem Overreads.exists_sum {sum : Nat} (small : sum < 2 ^ 8) :
    ∃ b, ((f.stale f.size b).buffer.read (8 + 16) (getLeToU32 f.ctx.mem f.ctx.data)).foldl
      (fun checksum b => checksum ^^^ b.toNat) 0xEF = sum := by
  have whole := overread.size
  have long := overread.long
  have beyond := overread.beyond
  obtain ⟨b, hb⟩ := exists_xorSum (f.buffer.read 24 (f.ctx.packetSize - 16))
    (f.buffer.read (24 + (f.ctx.packetSize - 16) + 1)
      (getLeToU32 f.ctx.mem f.ctx.data - (f.ctx.packetSize - 16) - 1)) small
  refine ⟨b, ?_⟩
  have place : f.size = 24 + (f.ctx.packetSize - 16) := by omega
  have split : getLeToU32 f.ctx.mem f.ctx.data = f.ctx.packetSize - 16 +
      (1 + (getLeToU32 f.ctx.mem f.ctx.data - (f.ctx.packetSize - 16) - 1)) := by omega
  rw [Frame.stale, place, split, Memory.read_update]
  exact hb

theorem Overreads.returns_dispatch (b : UInt8) {code : Int}
    (sum : validateChecksum (f.stale f.size b).buffer (8 + 16) (getLeToU32 f.ctx.mem f.ctx.data)
      f.ctx.checksum = code) :
    (dispatch env (f.stale f.size b).ctx .flashDeflData).Returns s (code, {})
      (if code = responseSuccess then { s with pendingPostProcess := some .flashDeflData }
        else s) := by
  have long := overread.long
  have whole := overread.size
  have short : ¬f.ctx.packetSize < flashDeflDataHeaderSize := Nat.not_lt.mpr overread.long
  have armed : checkFlashInProgress s = responseSuccess := by
    simp [checkFlashInProgress, overread.armed]
  have agrees : f.ctx.Agrees (Function.update f.buffer f.size b) := fun a ha =>
    Function.update_of_ne (by have start : f.ctx.data = 8 := rfl; omega) b f.buffer
  have word : getLeToU32 (Function.update f.buffer f.size b) f.ctx.data =
      getLeToU32 f.ctx.mem f.ctx.data := agrees.head (by omega)
  have sum : validateChecksum (Function.update f.buffer f.size b)
      (f.ctx.data + flashDeflDataHeaderSize) (getLeToU32 f.ctx.mem f.ctx.data) f.ctx.checksum =
        code := sum
  rw [overread.parse, dispatch, withEmptyResponse, flashDeflData]
  by_cases good : code = responseSuccess
  · simp [Prog.returns_bind, CmdCtx.withMem, short, armed, word, sum, good, setPendingPostProcess]
  · simp [Prog.returns_bind, CmdCtx.withMem, short, armed, word, sum, good]

theorem Overreads.handled (b : UInt8) {code : Int}
    (sum : validateChecksum (f.stale f.size b).buffer (8 + 16) (getLeToU32 f.ctx.mem f.ctx.data)
      f.ctx.checksum = code) :
    Handled env (f.stale f.size b) s (code, {})
      (if code = responseSuccess then { s with pendingPostProcess := some .flashDeflData }
        else s) := by
  have opcode := overread.opcode_stale b
  refine ⟨overread.ok_stale b, overread.clear, by rw [opcode]; decide, ?_⟩
  rw [opcode]
  exact overread.returns_dispatch b sum

/-- Whether the block is accepted is a matter of the byte behind it. -/
theorem Overreads.leaks (unhistoric : env.plugin.Unhistoric) (room : f.size < frameBufferSize)
    (idle : s.pendingPostProcess = none) : ¬OwnFrameOnly env f s := by
  intro only
  have byte := overread.byte
  obtain ⟨b, good⟩ := overread.exists_sum byte
  obtain ⟨b', bad⟩ := overread.exists_sum (Nat.xor_lt_two_pow byte (show 1 < 2 ^ 8 by omega))
  have flipped : f.ctx.checksum ^^^ 1 ≠ f.ctx.checksum := by
    intro same
    have zero : f.ctx.checksum ^^^ (f.ctx.checksum ^^^ 1) = 0 := by rw [same, Nat.xor_self]
    rw [← Nat.xor_assoc, Nat.xor_self] at zero
    exact absurd zero (by decide)
  have accepted : Handled env (f.stale f.size b) s (responseSuccess, {})
      { s with pendingPostProcess := some .flashDeflData } :=
    overread.handled b (by rw [validateChecksum, good, if_neg (not_not.mpr rfl)])
  have refused : Handled env (f.stale f.size b') s (responseBadDataChecksum, {}) s :=
    overread.handled b' (by rw [validateChecksum, bad, if_pos flipped])
  have answered := (only.stale le_rfl room b').returns (refused.returns_idle idle)
  -- both frames are answered as `f` is, so the refusal is also how the accepted one ends
  obtain ⟨n, m, run⟩ := answered
  rw [← only.stale le_rfl room b n] at run
  have ended := (returns_handleCommand_execute env accepted.ok accepted.clear _).mp ⟨n, m, run⟩
  obtain ⟨r, u, dispatched, processed⟩ := returns_execute env accepted.opcode ended
  obtain ⟨rfl, rfl⟩ := dispatched.unique accepted.returns
  obtain ⟨e, w, called, last⟩ := (returns_postProcess_some env rfl _).mp processed
  obtain ⟨more, sent⟩ := sent_runPostProcess _ unhistoric called
  have frames :
      s.sent ++ [responseFrame (f.stale f.size b').ctx.command responseBadDataChecksum none] =
      s.sent ++ [responseFrame (f.stale f.size b).ctx.command responseSuccess (some _)] ++ more :=
    (congrArg StubState.sent last).trans sent
  rw [List.append_assoc, List.append_cancel_left_eq] at frames
  have same := (List.cons.inj frames).1
  have code : IsCode responseBadDataChecksum := by decide
  have status := (code.statusBytes_iff (f.stale f.size b').ctx.command none).mp
    (by rw [same, isCode_success.statusBytes_iff])
  exact absurd status (by decide)

end Overreads

/-- In every state, what is behind a frame makes no difference exactly if there is nothing behind
it in the buffer, or if the frame reaches to its opcode and is no block that announces more
than it brings. -/
theorem own_frame_only_iff {W D H : Type} {env : Platform W D H NandState NandCallback}
    {driver : NandDriver W} {md5 : Md5 H} {transport : TransportOps W} {patched : Nat → Bool}
    (table : env.plugin = nandPlugin driver md5 transport patched)
    (inflater : InflaterContract env.tinfl) (f : Frame) {s : StubState W D NandState NandCallback}
    (idle : s.pendingPostProcess = none) :
    OwnFrameOnly env f s ↔ frameBufferSize ≤ f.size ∨ 2 ≤ f.size ∧ ¬Overreads f s := by
  have unhistoric : env.plugin.Unhistoric := by
    rw [table]
    exact nandPlugin_unhistoric driver md5 transport patched
  constructor
  · intro only
    by_contra leaking
    obtain ⟨room, leaking⟩ := not_or.mp leaking
    by_cases short : f.size < 2
    · exact not_ownFrameOnly_short short s only
    · refine leaking ⟨Nat.not_lt.mp short, fun overread => ?_⟩
      exact overread.leaks unhistoric (Nat.not_le.mp room) idle only
  · rintro (full | ⟨addressed, inside⟩) buffer' same
    · have whole : buffer' = f.buffer := funext fun a => same a (by omega)
      rw [whole]
      exact .refl _ s
    · exact sameRun_handleCommand (g := ⟨buffer', f.size⟩) table inflater idle rfl
        (fun a ha => same a (.inl ha)) addressed inside

/-- An END, in a stub that has just been started. -/
theorem own_frame_only_end :
    OwnFrameOnly (simNandPlatform 4 []) (endFrame espFlashEnd) (simNandStart fun _ => 0) :=
  (own_frame_only_iff (show (simNandPlatform 4 []).plugin = _ from rfl) (simTinfl_honest []) _ rfl).mpr
    (.inr ⟨by decide, fun overread => absurd overread.opcode (by decide)⟩)

/-- A compressed block that announces two bytes and brings one. -/
def overlongBlock : Frame :=
  mkFrame espFlashDeflData (0xEF ^^^ 7) (setU32ToLe 2 ++ setU32ToLe 0 ++ List.replicate 8 0 ++ [7])

/-- In a session this block is accepted or refused for the byte behind it. -/
theorem overlong_block_leaks : ∃ s,
    (serve (simNandPlatform 4 []) [beginFrame espFlashDeflBegin 1 0]).Returns
      (simNandStart fun _ => 0) () s ∧ ¬OwnFrameOnly (simNandPlatform 4 []) overlongBlock s := by
  obtain ⟨s, run, armed, clear, idle⟩ : ∃ s, (serve (simNandPlatform 4 [])
      [beginFrame espFlashDeflBegin 1 0]).Returns (simNandStart fun _ => 0) () s ∧
        s.flash.inProgress = true ∧ s.accumulatedResult = responseSuccess ∧
          s.pendingPostProcess = none := ⟨_, ⟨20, _, rfl⟩, rfl, rfl, rfl⟩
  have overread : Overreads overlongBlock s :=
    { ok := by decide
      clear := clear
      opcode := by decide
      long := by decide
      armed := armed
      byte := by decide
      beyond := by decide }
  exact ⟨s, run, overread.leaks (nandPlugin_unhistoric _ _ _ _) (by decide) idle⟩

end FlasherStub
