import FlasherStub.NandCommands
import FlasherStub.NandReadHost
import FlasherStub.SessionImage

/-! Write and read. What a session has put on the chip, and a host then asks for, is what that
host gets: for the flash, plain or compressed, and for the NAND chip. -/

namespace FlasherStub

open ByteMemory Budget

section Flash

variable {W D H S C : Type} {env : Platform W D H S C} {content : W → Memory} {sector : Nat}
  {f r : Frame} {s t : StubState W D S C} {image : List UInt8}

/-- After a session, plain or compressed, a host that reads any part of the image gets that part,
cut into packets, and its digest. -/
theorem flash_session_read_back (on : OnChip env content sector f s)
    (h : WholeSession env f s t image) {chip : Nat} (contract : ReadContract env content chip)
    (hash : Incremental env.md5) {host : W → Acknowledging}
    (acking : AckingHost env.transport r.ctx.readSize host)
    (keepsRead : ∀ addr size w, host (env.lib.flashReadBuff addr size w).2 = host w)
    (ok : r.HeaderOk) (opcode : Opcode.ofByte r.ctx.command = .readFlash)
    (size : r.ctx.packetSize = readFlashSize)
    (nonzero : 0 < r.ctx.readPacketSize) (small : r.ctx.readPacketSize ≤ 4096) {i : Nat}
    (offset : r.ctx.readOffset = f.ctx.beginOffset + i)
    (inside : i + r.ctx.readSize ≤ f.ctx.beginTotal)
    (fits : f.ctx.beginOffset + f.ctx.beginTotal ≤ chip) {response : List UInt8}
    (answer : response = responseFrame r.ctx.command responseSuccess (some {}))
    (asked : (host (env.transport.sendFrame response t.world)).received = 0)
    (nothing : (host (env.transport.sendFrame response t.world)).owed = []) :
    ∃ u, (handleCommand env r.buffer r.size).Returns t () u ∧
      u.sent = t.sent ++ [response] ++
        Pages.cut r.ctx.readPacketSize ((image.drop i).take r.ctx.readSize) ++
        [env.md5.final (env.md5.update env.md5.init ((image.drop i).take r.ctx.readSize))] ∧
      (host u.world).owed = [] := by
  obtain ⟨accumulated, -⟩ := h.leaves on
  obtain ⟨v, world, before, callback⟩ :=
    exists_readFlashAnswered env ok opcode size accumulated answer
  rw [← world] at asked nothing
  obtain ⟨u, run, sent, owed⟩ := exists_readFlashPostProcess contract acking hash keepsRead nonzero
    small (by omega) asked nothing
  have part : (content v.world).read r.ctx.readOffset r.ctx.readSize =
      (image.drop i).take r.ctx.readSize := by
    rw [world, contract.keepsSend, offset]
    exact Memory.read_part (h.stored on) inside
  rw [part, before] at sent
  exact ⟨u.afterCallback responseSuccess, callback _ u run, sent, owed⟩

/-- The simulated chip with sectors of four bytes, read by a host. -/
def readBackPlatform (size late : Nat) :
    Platform (SimWorld × Acknowledging) (List SimInflate) Unit Unit Empty :=
  { ackPlatform size late with lib := (simLib 4).beside }

theorem readBackPlatform_readContract (size late : Nat) :
    ReadContract (readBackPlatform size late) (fun w => w.1.content) (2 ^ 32) where
  size := by decide
  alignDown := (ackPlatform_readContract size late).alignDown
  alignUp := (ackPlatform_readContract size late).alignUp
  read := (ackPlatform_readContract size late).read
  keepsRead := (ackPlatform_readContract size late).keepsRead
  keepsPoll := (ackPlatform_readContract size late).keepsPoll
  keepsRelease := (ackPlatform_readContract size late).keepsRelease
  keepsSend := (ackPlatform_readContract size late).keepsSend

theorem readBackPlatform_onChip (size late : Nat) {f : Frame}
    (inChip : f.ctx.regionEnd 4 < 2 ^ 32) (some : 0 < f.ctx.beginTotal)
    (plain : f.ctx.beginEncrypt = false) :
    OnChip (readBackPlatform size late) (fun w => w.1.content) 4 f (ackStart fun _ => 0) where
  contract :=
    { simLib_contract (k := 2) (by decide) with
      config := fun _ => rfl
      nextErase := fun addr remaining w => (simLib_contract (k := 2) (by decide)).nextErase addr
        remaining w.1 }
  nor :=
    { read := fun _ _ _ _ h => ⟨(Option.some.inj h).symm, rfl⟩
      erase := fun addr remaining w => (simPlatform_nor 4 []).erase addr remaining w.1
      program := fun _ _ _ _ => rfl
      sendFrame := (ackPlatform_readContract size late).keepsSend }
  four := by decide
  inChip := inChip
  some := some
  plain := plain
  code := isCode_success
  idle := rfl

/-- Two bytes are written, and the second one is read. -/
theorem flash_session_read_back_one_byte : ∃ t u,
    WholeSession (readBackPlatform 1 5) (beginFrame espFlashBegin 2 0) (ackStart fun _ => 0) t
      [1, 2] ∧
    (handleCommand (readBackPlatform 1 5) (readFlashFrame 1 1 1).buffer
      (readFlashFrame 1 1 1).size).Returns t () u ∧
    u.sent = t.sent ++ [responseFrame espReadFlash responseSuccess (some {})] ++ [[2]] ++
      [List.replicate 16 0] := by
  obtain ⟨t, run, host⟩ : ∃ t, AllSucceed (readBackPlatform 1 5) (beginFrame espFlashBegin 2 0 ::
      ([dataFrame espFlashData 0 [1, 2]] ++ [endFrame espFlashEnd])) (ackStart fun _ => 0) t ∧
        t.world.2 = ⟨0, [], 5⟩ :=
    ⟨_, ⟨_, ⟨20, _, rfl⟩, ⟨_, [], rfl, rfl⟩, _, ⟨20, _, rfl⟩, ⟨_, [], rfl, rfl⟩,
      _, ⟨20, _, rfl⟩, ⟨_, [], rfl, rfl⟩, rfl⟩, rfl⟩
  have session : WholeSession (readBackPlatform 1 5) (beginFrame espFlashBegin 2 0)
      (ackStart fun _ => 0) t [1, 2] := .plain rfl (List.forall_mem_singleton.mpr rfl) rfl run
  have waits : ((readBackPlatform 1 5).transport.sendFrame
      (responseFrame espReadFlash responseSuccess (some {})) t.world).2 = ⟨0, [], 5⟩ := host
  obtain ⟨u, next, sent, -⟩ := flash_session_read_back
    (readBackPlatform_onChip 1 5 (by decide) (by decide) (by decide)) session
    (readBackPlatform_readContract 1 5) simMd5_incremental (r := readFlashFrame 1 1 1)
    (ackTransport_acking 1 5) (fun _ _ _ => rfl) (by decide) (by decide) (by decide) (by decide)
    (by decide) (i := 1) (by decide) (by decide) (by decide) rfl
    (congrArg Acknowledging.received waits) (congrArg Acknowledging.owed waits)
  exact ⟨t, u, session, next, sent⟩

end Flash

section Nand

variable {W D H : Type} {env : Platform W D H NandState NandCallback} {driver : NandDriver W}
  {patched : Nat → Bool} {content : W → Memory} {f r : Frame}
  {s t : StubState W D NandState NandCallback} {image : List UInt8}

/-- A session that begins with a block, or that goes to blocks which ERASE_REGION has erased before,
with every command answered with success. -/
inductive NandFlashed (env : Platform W D H NandState NandCallback) (f : Frame)
    (s t : StubState W D NandState NandCallback) : List UInt8 → Prop where
  | whole {datas : List Frame} {g : Frame} (block : f.nandOffset % nandBlockSize = 0)
    (first : Opcode.ofByte f.ctx.command = .plugin 4)
    (data : ∀ d ∈ datas, Opcode.ofByte d.ctx.command = .plugin 5)
    (last : Opcode.ofByte g.ctx.command = .plugin 9)
    (run : AllSucceed env (f :: (datas ++ [g])) s t) :
    NandFlashed env f s t (datas.flatMap Frame.nandPayload)
  | erased {e : Frame} {datas : List Frame} {g : Frame}
    (erase : Opcode.ofByte e.ctx.command = .plugin 7) (start : e.nandOffset ≤ f.nandOffset)
    (stop : f.nandOffset + f.nandSize ≤ e.nandOffset + e.nandSize)
    (first : Opcode.ofByte f.ctx.command = .plugin 4)
    (data : ∀ d ∈ datas, Opcode.ofByte d.ctx.command = .plugin 5)
    (last : Opcode.ofByte g.ctx.command = .plugin 9)
    (run : AllSucceed env (e :: f :: (datas ++ [g])) s t) :
    NandFlashed env f s t (datas.flatMap Frame.nandPayload)

theorem nandErased (on : OnNand env driver patched content)
    (opcode : Opcode.ofByte f.ctx.command = .plugin 7) (code : IsCode s.accumulatedResult)
    (idle : s.pendingPostProcess = none)
    (run : (handleCommand env f.buffer f.size).Returns s () t) (success : AnsweredSuccess s t) :
    content t.world =
        (Nor.Op.erase f.nandOffset (f.nandOffset + f.nandSize)).apply (content s.world) ∧
      t.accumulatedResult = responseSuccess ∧ t.pendingPostProcess = none := by
  have served := success.nandServed on (.inr rfl) opcode code idle run
  obtain ⟨w, handled, kept⟩ := served.handled
  obtain ⟨ret, u, erases, done⟩ := exists_nandPluginEraseRegion driver on.contract f.ctx.mem
    f.ctx.data f.ctx.packetSize {} (s.plugin, s.world)
  obtain ⟨same, rfl⟩ := Prog.Returns.unique erases handled
  obtain rfl : ret = responseSuccess := congrArg Prod.fst same
  refine ⟨?_, served.accumulated, served.idle⟩
  split_ifs at done with whole
  · rw [kept]
    exact done.content rfl
  · exact absurd done.1 (by decide)

theorem le_blockUp (a : Nat) : a ≤ blockUp a := by
  change a ≤ (a + 131071) / 131072 * 131072
  omega

theorem blockUp_whole {a : Nat} (block : a % nandBlockSize = 0) : blockUp a = a := by
  have block : a % 131072 = 0 := block
  change (a + 131071) / 131072 * 131072 = a
  omega

theorem NandFlashed.stored (h : NandFlashed env f s t image)
    (on : OnNand env driver patched content) (fits : f.nandOffset + f.nandSize < 2 ^ 32)
    (code : IsCode s.accumulatedResult) (idle : s.pendingPostProcess = none) :
    (content t.world).read f.nandOffset f.nandSize = image ∧
      t.accumulatedResult = responseSuccess ∧ t.pendingPostProcess = none := by
  cases h with
  | whole block first data last run =>
    obtain ⟨aligned, length, -, calls, accumulated, quiet⟩ :=
      nandSession_run on first data last fits code idle run
    refine ⟨?_, accumulated, quiet⟩
    rw [← length] at calls ⊢
    rw [run_session aligned calls]
    exact Nor.Op.read_program_erase (blockUp_whole block).le (le_blockUp _) _
  | @erased e _ _ erase start stop first data last run =>
    obtain ⟨u, handled, success, rest⟩ := run
    obtain ⟨blank, clear, none⟩ := nandErased on erase code idle handled success
    obtain ⟨aligned, length, -, calls, accumulated, quiet⟩ :=
      nandSession_run on first data last fits (clear ▸ isCode_success) none rest
    refine ⟨?_, accumulated, quiet⟩
    rw [← length] at calls ⊢
    rw [run_session aligned calls]
    refine Nor.Op.read_program_blank fun i inside => Nor.Op.apply_blank id ?_
    have erased : (Nor.Op.erase e.nandOffset (e.nandOffset + e.nandSize)).Erases
        (f.nandOffset + i) := ⟨by omega, by omega⟩
    rw [blank]
    exact Nor.Op.apply_erases erased _

def Frame.nandPacketSize (f : Frame) : Nat := getLeToU32 f.ctx.mem (f.ctx.data + 8)

structure NandReadable (driver : NandDriver W) (patched : Nat → Bool) (r : Frame) (w : W) :
    Prop where
  ok : r.HeaderOk
  opcode : Opcode.ofByte r.ctx.command = .plugin 3
  loaded : patched 3 = true
  length : r.ctx.packetSize = spiNandReadFlashSize
  nonzero : 0 < r.nandPacketSize
  small : r.nandPacketSize ≤ nandPageSize * 2
  page : driver.getPageSize w = nandPageSize

theorem returns_nandPluginReadFlash {n : NandState} {w : W} (h : NandReadable driver patched r w) :
    (nandPluginReadFlash driver r.ctx.mem r.ctx.data r.ctx.packetSize {}).Returns (n, w)
      (responseSuccess, { postProcess := some .readFlash })
      ({ n with read := ⟨r.nandOffset, r.nandSize, r.nandPacketSize⟩ }, w) := by
  have page : ¬ (driver.getPageSize w = 0 ∨ driver.getPageSize w ≠ nandPageSize) := by
    rw [h.page]
    decide
  have packet : ¬ (r.nandPacketSize = 0 ∨ nandPageSize * 2 < r.nandPacketSize) :=
    not_or.mpr ⟨Nat.ne_of_gt h.nonzero, not_lt.mpr h.small⟩
  rw [nandPluginReadFlash, if_neg (not_not.mpr h.length), Prog.returns_get_bind]
  dsimp only
  rw [if_neg page]
  change (if r.nandPacketSize = 0 ∨ nandPageSize * 2 < r.nandPacketSize then _ else _ :
    NandStub W (Int × NandResponse)).Returns _ _ _
  rw [if_neg packet, Prog.returns_modify_bind]
  exact (Prog.returns_pure _ _ _ _).mpr ⟨rfl, rfl⟩

theorem exists_nandReadAnswered (on : OnNand env driver patched content)
    (request : NandReadable driver patched r s.world) (clear : s.accumulatedResult = responseSuccess)
    {response : List UInt8}
    (sends : response = responseFrame r.ctx.command responseSuccess (some {})) :
    ∃ io : PluginIo W NandState, io.world = env.transport.sendFrame response s.world ∧
      io.sent = s.sent ++ [response] ∧
      io.statics.read = ⟨r.nandOffset, r.nandSize, r.nandPacketSize⟩ ∧
      ∀ e t, (nandReadFlashPostProcess driver env.md5 env.transport).Returns io e t →
        ∃ u, (handleCommand env r.buffer r.size).Returns s () u ∧ u.sent = t.sent ∧
          u.world = t.world := by
  subst sends
  have called : (env.plugin.table 3 r.ctx.command r.ctx.mem r.ctx.data r.ctx.packetSize {}).Returns
      (s.plugin, s.world) (responseSuccess, { postProcess := some .readFlash })
      ({ s.plugin with read := ⟨r.nandOffset, r.nandSize, r.nandPacketSize⟩ }, s.world) := by
    rw [on.table]
    change (if patched 3 then _ else _ : NandStub W (Int × NandResponse)).Returns _ _ _
    rw [if_pos request.loaded]
    exact returns_nandPluginReadFlash request
  have dispatched : (dispatch env r.ctx (Opcode.ofByte r.ctx.command)).Returns s
      (responseSuccess, { postProcess := some .readFlash })
      { s with
        plugin := { s.plugin with read := ⟨r.nandOffset, r.nandSize, r.nandPacketSize⟩ }
        pendingPostProcess := some (.plugin .readFlash) } := by
    rw [request.opcode]
    refine (Prog.returns_bind _ _ _ _ _).mpr ⟨_, _, Prog.returns_focus.mpr ⟨_, called, rfl⟩, ?_⟩
    exact (Prog.returns_modify_bind _ _ _ _ _).mpr ((Prog.returns_pure _ _ _ _).mpr ⟨rfl, rfl⟩)
  obtain ⟨v, answered, pending, world, sent, read⟩ : ∃ v : StubState W D NandState NandCallback,
      (answer env r.ctx).Returns s () v ∧ v.pendingPostProcess = some (.plugin .readFlash) ∧
      v.world = env.transport.sendFrame (responseFrame r.ctx.command responseSuccess (some {}))
        s.world ∧
      v.sent = s.sent ++ [responseFrame r.ctx.command responseSuccess (some {})] ∧
      v.plugin.read = ⟨r.nandOffset, r.nandSize, r.nandPacketSize⟩ :=
    ⟨_, returns_answer env dispatched, rfl, rfl, rfl, rfl⟩
  refine ⟨⟨v.plugin, v.world, v.sent⟩, world, sent, read, fun e t run => ?_⟩
  have callback : (runPostProcess env r.ctx (.plugin .readFlash)).Returns v e
      { v with plugin := t.statics, world := t.world, sent := t.sent } := by
    refine Prog.returns_focus.mpr ⟨t, ?_, rfl⟩
    rw [on.table]
    exact run
  refine ⟨StubState.afterCallback { v with plugin := t.statics, world := t.world, sent := t.sent } e,
    ?_, rfl, rfl⟩
  rw [returns_handleCommand_execute env request.ok clear, execute,
    if_neg (by rw [request.opcode]; decide), Prog.returns_bind]
  exact ⟨(), v, answered, (returns_postProcess_some env pending _).mpr ⟨e, _, callback, rfl⟩⟩

/-- After either kind of session a host that reads any part of the image gets that part, cut into
packets, and its digest, if all pages can be read. -/
theorem nand_image_read_back (on : OnNand env driver patched content)
    (h : NandFlashed env f s t image) (fits : f.nandOffset + f.nandSize < 2 ^ 32)
    (code : IsCode s.accumulatedResult) (idle : s.pendingPostProcess = none)
    (contract : NandReadContract driver env.transport content) (hash : Incremental env.md5)
    (readable : Readable driver) {host : W → Acknowledging}
    (acking : AckingHost env.transport r.nandSize host)
    (keepsRead : ∀ page w, host (driver.readPage page nandPageSize w).2 = host w)
    (request : NandReadable driver patched r t.world) {i : Nat}
    (offset : r.nandOffset = f.nandOffset + i) (inside : i + r.nandSize ≤ f.nandSize)
    {response : List UInt8}
    (answer : response = responseFrame r.ctx.command responseSuccess (some {}))
    (asked : (host (env.transport.sendFrame response t.world)).received = 0)
    (nothing : (host (env.transport.sendFrame response t.world)).owed = []) :
    ∃ u, (handleCommand env r.buffer r.size).Returns t () u ∧
      u.sent = t.sent ++ [response] ++
        Pages.cut r.nandPacketSize ((image.drop i).take r.nandSize) ++
        [env.md5.final (env.md5.update env.md5.init ((image.drop i).take r.nandSize))] ∧
      (host u.world).owed = [] := by
  obtain ⟨stored, clear, -⟩ := h.stored on fits code idle
  obtain ⟨io, world, before, read, callback⟩ := exists_nandReadAnswered on request clear answer
  rw [← world] at asked nothing
  have nonzero := request.nonzero
  have reads : io.statics.read.offset = r.nandOffset ∧ io.statics.read.readSize = r.nandSize ∧
      io.statics.read.packetSize = r.nandPacketSize := by
    rw [read]
    exact ⟨rfl, rfl, rfl⟩
  obtain ⟨start, size, packet⟩ := reads
  rw [← size] at acking
  obtain ⟨good, bad, v, run, sent, data, -, length, -, lostPage, owed⟩ :=
    exists_nandStream driver env.md5 env.transport contract hash acking keepsRead (by omega)
      (by omega) asked nothing
  obtain rfl : bad = [] := by
    by_contra some
    obtain ⟨-, a, -, -, lost⟩ := lostPage some
    exact readable.not_loses _ _ _ lost
  obtain ⟨u, handled, same, device⟩ := callback _ v run
  have part : good = (image.drop i).take r.nandSize := by
    have all : good.length = r.nandSize := by simpa [size] using length
    rw [data, all, world, on.keepsSend, start, offset]
    exact Memory.read_part stored inside
  refine ⟨u, handled, ?_, by rw [device]; exact owed⟩
  rw [same, sent, before, packet, if_pos rfl, List.append_nil, part]

theorem nandPlatform_beside_onNand (size late : Nat) :
    OnNand (nandPlatform simNand.beside (ackTransport size late)) simNand.beside (fun _ => true)
      Prod.fst where
  table := rfl
  contract c regular w good := by
    have kept := simNand_contract c regular w.1
    cases c <;> exact kept good
  keepsSend := (simNand_beside_readContract size late).keepsSend

def nandEraseRequest (offset size : Nat) : Frame :=
  mkFrame 0xDC 0 (setU32ToLe offset ++ setU32ToLe size)

/-- One byte is written into a block that was erased before, and read. -/
theorem nand_image_read_back_one_byte : ∃ t u,
    AllSucceed (nandPlatform simNand.beside (ackTransport 1 5))
      (nandEraseRequest 0 nandBlockSize :: nandRequest 0xD9 2048 1 0 ::
        ([dataFrame 0xDA 0 [0x5A]] ++ [endFrame 0xDE])) (nandStart (fun _ => 0, ⟨0, [], 5⟩)) t ∧
    (handleCommand (nandPlatform simNand.beside (ackTransport 1 5)) (nandRequest 0xD8 2048 1 1).buffer
      (nandRequest 0xD8 2048 1 1).size).Returns t () u ∧
    u.sent = t.sent ++ [responseFrame 0xD8 responseSuccess (some {})] ++ [[0x5A]] ++
      [List.replicate 16 0] := by
  obtain ⟨t, run, waits⟩ : ∃ t, AllSucceed (nandPlatform simNand.beside (ackTransport 1 5))
      (nandEraseRequest 0 nandBlockSize :: nandRequest 0xD9 2048 1 0 ::
        ([dataFrame 0xDA 0 [0x5A]] ++ [endFrame 0xDE])) (nandStart (fun _ => 0, ⟨0, [], 5⟩)) t ∧
      t.world.2 = ⟨0, [], 5⟩ :=
    ⟨_, ⟨_, ⟨20, _, rfl⟩, ⟨_, [], rfl, rfl⟩, _, ⟨20, _, rfl⟩, ⟨_, [], rfl, rfl⟩,
      _, ⟨20, _, rfl⟩, ⟨_, [], rfl, rfl⟩, _, ⟨20, _, rfl⟩, ⟨_, [], rfl, rfl⟩, rfl⟩, rfl⟩
  have flashed : NandFlashed (nandPlatform simNand.beside (ackTransport 1 5))
      (nandRequest 0xD9 2048 1 0) (nandStart (fun _ => 0, ⟨0, [], 5⟩)) t [0x5A] :=
    .erased rfl (by decide) (by decide) rfl (List.forall_mem_singleton.mpr rfl) rfl run
  have same : ((ackTransport 1 5).sendFrame (responseFrame 0xD8 responseSuccess (some {}))
      t.world).2 = ⟨0, [], 5⟩ := waits
  obtain ⟨u, next, sent, -⟩ := nand_image_read_back (nandPlatform_beside_onNand 1 5) flashed
    (by decide) isCode_success rfl (simNand_beside_readContract 1 5) simMd5_incremental
    simNand_beside_readable (r := nandRequest 0xD8 2048 1 1)
    (ackTransport_acking 1 5) (fun _ _ => rfl)
    ⟨by decide, by decide, rfl, by decide, by decide, by decide, rfl⟩ (i := 0) (by decide)
    (by decide) rfl (congrArg Acknowledging.received same) (congrArg Acknowledging.owed same)
  exact ⟨t, u, run, next, sent⟩

end Nand

end FlasherStub
