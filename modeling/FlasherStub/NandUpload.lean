import FlasherStub.NandCommands
import FlasherStub.Upload

/-! The upload to a NAND chip. Where no call of the driver fails, every command of the plugin is
answered with success, and the chip holds the image. -/

namespace FlasherStub

open ByteMemory Budget

abbrev espSpiNandWriteFlashBegin : Nat := 0xD9
abbrev espSpiNandWriteFlashData : Nat := 0xDA
abbrev espSpiNandWriteFlashEnd : Nat := 0xDE

structure NandDriver.Succeeds {W : Type} (driver : NandDriver W) : Prop where
  erases : ∀ page w, (driver.eraseBlock page w).1 = .ok
  writes : ∀ page data w, (driver.writePage page data w).1 = .ok

section Handlers

variable {W : Type} {driver : NandDriver W}

theorem gives_nandPluginWriteFlashBegin_success {mem : Memory} {data len : Nat}
    {resp : NandResponse} (size : len = spiNandWriteFlashBeginSize)
    (aligned : getLeToU32 mem data % nandPageSize = 0) :
    (nandPluginWriteFlashBegin mem data len resp : NandStub W _).Gives
      fun r => r.1 = responseSuccess := by
  rw [nandPluginWriteFlashBegin, if_neg (not_not.mpr size)]
  dsimp only
  rw [if_neg (not_not.mpr aligned)]
  exact Prog.gives_bind fun _ => Prog.gives_pure rfl

variable (succeeds : driver.Succeeds)

include succeeds

theorem gives_nandWriteFullPage_success (page : Nat) :
    (nandWriteFullPage driver page).Gives (· = responseSuccess) := by
  have written (data : List UInt8) : (NandStub.writePage driver page data).Gives (· = .ok) :=
    fun s => Prog.Ensures.act (succeeds.writes page data s.2)
  refine Prog.gives_bind fun s => (written _).bind fun r ok => ?_
  rw [if_neg (not_not.mpr ok)]
  exact Prog.gives_bind fun _ => Prog.gives_pure rfl

theorem gives_nandWriteFlushPage_success :
    (nandWriteFlushPage driver).Gives (· = responseSuccess) := by
  have erased (page : Nat) : (NandStub.eraseBlock driver page).Gives (· = .ok) :=
    fun s => Prog.Ensures.act (succeeds.erases page s.2)
  refine Prog.gives_bind fun s => Prog.gives_ite ((erased _).bind fun r ok => ?_)
    (gives_nandWriteFullPage_success succeeds _)
  rw [if_neg (not_not.mpr ok)]
  exact gives_nandWriteFullPage_success succeeds _

theorem gives_nandCopy_success (mem : Memory) (l : NandCopy) :
    (Prog.loop (nandCopyStep driver mem) l).Gives (· = responseSuccess) := by
  refine Prog.gives_loop (Q := (· = responseSuccess)) (fun l => ?_) l
  refine Prog.gives_ite ?_ (Prog.gives_pure rfl)
  refine Prog.gives_bind fun next => Prog.gives_bind fun s =>
    Prog.gives_ite ?_ (Prog.gives_pure trivial)
  refine (gives_nandWriteFlushPage_success succeeds).bind fun r good => ?_
  rw [if_neg (not_not.mpr good)]
  exact Prog.gives_pure trivial

theorem gives_nandFlushPadded_success :
    (nandFlushPadded driver).Gives (· = responseSuccess) := by
  refine Prog.gives_bind fun _ => (gives_nandWriteFlushPage_success succeeds).bind fun r good => ?_
  rw [if_neg (not_not.mpr good)]
  exact Prog.gives_pure rfl

theorem ensures_nandPluginWriteFlashData_success {mem : Memory} {data len : Nat}
    {resp : NandResponse} {s : NandState × W} (long : spiNandWriteFlashDataHeaderSize ≤ len)
    (opened : s.1.write.inProgress = true)
    (length : getLeToU32 mem data = len - spiNandWriteFlashDataHeaderSize)
    (room : len - spiNandWriteFlashDataHeaderSize ≤ s.1.write.totalRemaining)
    (checksum : (nandPayload mem data len).foldl (fun checksum b => checksum ^^^ b.toNat)
      nandChecksumInit = getLeToU32 mem (data - 4)) :
    (nandPluginWriteFlashData driver mem data len resp).Ensures s (fun _ => True)
      fun r _ => r.1 = responseSuccess := by
  refine Prog.Ensures.bind (Prog.Ensures.get ?_)
  rw [nandPayload] at checksum
  rw [if_neg (not_lt.mpr long), if_neg (not_not.mpr opened)]
  dsimp only
  rw [if_neg (not_not.mpr length), if_neg (not_lt.mpr room), if_neg (not_not.mpr checksum)]
  exact (gives_nandCopy_success succeeds mem _).bind (fun r good => Prog.gives_pure good) s

theorem ensures_nandPluginWriteFlashEnd_success {len : Nat} {resp : NandResponse}
    {s : NandState × W} (size : len = spiNandWriteFlashEndSize)
    (opened : s.1.write.inProgress = true) (left : s.1.write.totalRemaining = 0) :
    (nandPluginWriteFlashEnd driver len resp).Ensures s (fun _ => True)
      fun r _ => r.1 = responseSuccess := by
  refine Prog.Ensures.bind (Prog.Ensures.get ?_)
  rw [if_neg (not_not.mpr size), if_neg (not_not.mpr opened), if_neg (not_not.mpr left)]
  have tail (r : Int) (good : r = responseSuccess) : (if r ≠ responseSuccess then pure (r, resp)
      else NandStub.modifyWrite (fun _ => {}) >>= fun _ => pure (responseSuccess, resp) :
        NandStub W _).Gives fun r => r.1 = responseSuccess := by
    rw [if_neg (not_not.mpr good)]
    exact Prog.gives_bind fun _ => Prog.gives_pure rfl
  exact Prog.gives_ite ((gives_nandFlushPadded_success succeeds).bind tail)
    ((Prog.gives_pure (Q := (· = responseSuccess)) rfl).bind tail) s

end Handlers

variable {W D H : Type}

section Brings

variable {f : Frame} {c seq : Nat} {block : List UInt8}

theorem Frame.Brings.nandPayload (h : f.Brings c seq block) : f.nandPayload = block := by
  rw [Frame.nandPayload, FlasherStub.nandPayload, h.size, Nat.add_sub_cancel_left]
  exact h.payload

theorem Frame.Brings.nandData (h : f.Brings espSpiNandWriteFlashData seq block) :
    Opcode.ofByte f.ctx.command = .plugin 5 := by
  rw [h.command]
  rfl

theorem BringAll.nandData {datas : List Frame} {blocks : List (List UInt8)}
    (h : BringAll espSpiNandWriteFlashData seq datas blocks) :
    ∀ d ∈ datas, Opcode.ofByte d.ctx.command = .plugin 5 := by
  induction h with
  | nil => simp
  | cons first _ ih => exact List.forall_mem_cons.mpr ⟨first.nandData, ih⟩

theorem BringAll.nandImage {datas : List Frame} {blocks : List (List UInt8)}
    (h : BringAll c seq datas blocks) : datas.flatMap Frame.nandPayload = blocks.flatten := by
  induction h with
  | nil => rfl
  | cons first _ ih => rw [List.flatMap_cons, List.flatten_cons, first.nandPayload, ih]

end Brings

section Commands

variable {env : Platform W D H NandState NandCallback} {driver : NandDriver W}
  {patched : Nat → Bool} {content : W → Memory} (on : OnNand env driver patched content)
  {s t : StubState W D NandState NandCallback} {f : Frame} {idx : Nat}

include on

theorem answeredSuccess_nand (slot : IsStoreSlot idx) (loaded : patched idx = true)
    (ok : f.HeaderOk) (opcode : Opcode.ofByte f.ctx.command = .plugin idx)
    (clear : s.accumulatedResult = responseSuccess) (idle : s.pendingPostProcess = none)
    (handler : (nandHandler driver idx f.ctx.mem f.ctx.data f.ctx.packetSize {}).Ensures
      (s.plugin, s.world) (fun _ => True) fun r _ => r.1 = responseSuccess)
    (run : (handleCommand env f.buffer f.size).Returns s () t) : AnsweredSuccess s t := by
  have called : (env.plugin.table idx f.ctx.command f.ctx.mem f.ctx.data f.ctx.packetSize
      {}).Ensures (s.plugin, s.world) (fun _ => True) fun r _ => r.1 = responseSuccess := by
    rw [on.table]
    change (if patched idx then _ else _ : NandStub W (Int × NandResponse)).Ensures _ _ _
    rwa [if_pos loaded]
  have result : (callPlugin env idx f.ctx).Ensures s (fun _ => True)
      fun r _ => r.1 = responseSuccess := by
    refine Prog.Ensures.bind (Prog.Ensures.focus (called.mono (fun _ _ => trivial) ?_))
    rintro ⟨code, response⟩ v good
    -- whatever callback the handler registers, its code is the result
    have answer : (pure (code, response) : Stub W D NandState NandCallback _).Gives
        fun r => r.1 = responseSuccess := Prog.gives_pure good
    dsimp only
    cases response.postProcess with
    | none => exact answer _
    | some callback => exact Prog.gives_bind (fun _ => answer) _
  refine (answeredSuccess_of_dispatch (Q := True) ok clear (by simp [opcode]) run
    (P := fun _ u => u.pendingPostProcess = none) ?_ fun r u good quiet processed => ?_).1
  · rw [opcode]
    exact (result.and (ensures_callPlugin_store on slot f.ctx s)).mono (fun _ _ => trivial)
      fun r u h => ⟨h.1, h.2.2.1, h.2.2.2.1.trans idle⟩
  · have none : (u.answered env f.ctx r).pendingPostProcess = none := answered_idle env quiet
    exact ⟨by rw [(returns_postProcess_none env none t).mp processed], trivial⟩

theorem terminates_nand (slot : IsStoreSlot idx)
    (opcode : Opcode.ofByte f.ctx.command = .plugin idx) (idle : s.pendingPostProcess = none) :
    (handleCommand env f.buffer f.size).Terminates s := by
  have foreign : env.plugin.Ends idx := by
    rw [on.table]
    exact nandPlugin_ends driver env.md5 env.transport patched idx
  obtain ⟨r, u, called⟩ := ends_callPlugin env f.ctx foreign s
  have quiet := ((ensures_callPlugin_store on slot f.ctx s).2 r u called).2.2.1
  have none : (u.answered env f.ctx r).pendingPostProcess = none :=
    answered_idle env (quiet.trans idle)
  exact terminates_handleCommand_of_dispatch env ⟨r, u, opcode ▸ called, (), _,
    (returns_postProcess_none env none _).mpr rfl⟩

variable {offset total seq : Nat} {image block : List UInt8} {datas : List Frame}
  {blocks : List (List UInt8)} {u : StubState W D NandState NandCallback}

theorem answeredSuccess_nandData (loaded : patched 5 = true) (succeeds : driver.Succeeds)
    (writing : NandWriting content offset total image s t)
    (brings : f.Brings espSpiNandWriteFlashData seq block)
    (fits : image.length + block.length ≤ total)
    (run : (handleCommand env f.buffer f.size).Returns t () u) : AnsweredSuccess t u := by
  obtain ⟨count, w, plugin, -, stream, -⟩ := writing.stream
  have here : t.plugin.write = w := by rw [plugin]; rfl
  have rest := stream.rest
  have actual : f.ctx.packetSize - spiNandWriteFlashDataHeaderSize = block.length := by
    rw [brings.size, Nat.add_sub_cancel_left]
  have room : f.ctx.packetSize - spiNandWriteFlashDataHeaderSize ≤
      t.plugin.write.totalRemaining := by
    rw [actual, here]
    omega
  refine answeredSuccess_nand on (.inl (.inr (.inl rfl))) loaded brings.ok brings.nandData
    writing.accumulated writing.idle (ensures_nandPluginWriteFlashData_success succeeds
      (brings.size ▸ Nat.le_add_right _ _) (here ▸ stream.opened) (brings.length.trans actual.symm)
      room ?_) run
  rw [← Frame.nandPayload, brings.nandPayload]
  by_contra differ
  have sum := brings.checksum
  rw [validateChecksum, brings.payload] at sum
  exact absurd (sum.symm.trans (if_pos differ)) (by decide)

theorem answeredSuccess_nandBlocks (loaded : patched 5 = true) (succeeds : driver.Succeeds)
    (small : offset + total < 2 ^ 32) (writing : NandWriting content offset total image s t)
    (brings : BringAll espSpiNandWriteFlashData seq datas blocks)
    (fits : image.length + blocks.flatten.length ≤ total)
    (run : (serve env datas).Returns t () u) :
    AllSucceed env datas t u ∧
      NandWriting content offset total (image ++ blocks.flatten) s u := by
  induction brings generalizing image t with
  | nil =>
    obtain ⟨-, rfl⟩ := (Prog.returns_pure _ _ _ _).mp run
    rw [List.flatten_nil, List.append_nil]
    exact ⟨rfl, writing⟩
  | @cons seq d datas block blocks first _ ih =>
    rw [List.flatten_cons, List.length_append] at fits
    obtain ⟨_, v, handled, rest⟩ := (Prog.returns_bind _ _ _ _ _).mp run
    have success := answeredSuccess_nandData on loaded succeeds writing first (by omega) handled
    have next := nandWriting_data on small writing first.nandData handled success
    rw [first.nandPayload] at next
    obtain ⟨all, last⟩ := ih next (by rw [List.length_append]; omega) rest
    rw [List.append_assoc, ← List.flatten_cons] at last
    exact ⟨⟨v, handled, success, all⟩, last⟩

end Commands

/-- What a host writes to the chip, from a page on, in blocks that fit a frame. -/
structure NandUpload where
  offset : Nat
  blocks : List (List UInt8)
  aligned : offset % nandPageSize = 0
  inChip : offset + blocks.flatten.length < 2 ^ 32
  fits : ∀ block ∈ blocks, block.length + 24 ≤ frameBufferSize

namespace NandUpload

variable (u : NandUpload)

def image : List UInt8 := u.blocks.flatten

def beginRequest : Frame := nandRequest espSpiNandWriteFlashBegin u.offset u.image.length 0

def requests : List (List UInt8) :=
  (u.beginRequest :: (dataFrames espSpiNandWriteFlashData 0 u.blocks ++
    [endFrame espSpiNandWriteFlashEnd])).map Frame.bytes

theorem request_slot {p : List UInt8} (mem : p ∈ u.requests) :
    FitsFrame p ∧ ∃ idx, IsWriteSlot idx ∧ opcodeOf p = .plugin idx := by
  obtain ⟨fits, ⟨-, opcode⟩ | opcode | opcode⟩ :=
    session_kind (by decide) (by decide) (by decide) rfl u.fits mem
  · exact ⟨fits, 4, .inl rfl, opcode⟩
  · exact ⟨fits, 5, .inr (.inl rfl), opcode⟩
  · exact ⟨fits, 9, .inr (.inr rfl), opcode⟩

structure Received (f : Frame) (datas : List Frame) (g : Frame) : Prop where
  ok : f.HeaderOk
  command : f.ctx.command = espSpiNandWriteFlashBegin
  size : f.ctx.packetSize = spiNandWriteFlashBeginSize
  offset : f.nandOffset = u.offset
  total : f.nandSize = u.image.length
  brings : BringAll espSpiNandWriteFlashData 0 datas u.blocks
  last : g.Closes espSpiNandWriteFlashEnd

theorem Received.first {u : NandUpload} {f g : Frame} {datas : List Frame}
    (h : u.Received f datas g) : Opcode.ofByte f.ctx.command = .plugin 4 := by
  rw [h.command]
  rfl

theorem Received.closing {u : NandUpload} {f g : Frame} {datas : List Frame}
    (h : u.Received f datas g) : Opcode.ofByte g.ctx.command = .plugin 9 := by
  rw [h.last.command]
  rfl

theorem Received.inRange {u : NandUpload} {f g : Frame} {datas : List Frame}
    (h : u.Received f datas g) : f.nandOffset + f.nandSize < 2 ^ 32 := by
  rw [h.offset, h.total]
  exact u.inChip

theorem received {frames : List Frame} (same : frames.map Frame.bytes = u.requests) :
    ∃ f datas g, frames = f :: (datas ++ [g]) ∧ u.Received f datas g := by
  have below := u.inChip
  obtain ⟨f, datas, g, rfl, first, brings, last⟩ :=
    session_of_bytes (by decide) (by decide) u.fits same
  have carries := f.carries_of_bytes (by decide) (by decide) (by simp [setU32ToLe]) first
  refine ⟨f, datas, g, rfl, carries.ok, carries.command, carries.size, ?_, ?_, brings, last⟩
  · refine (carries.word (k := 0) (by simp [setU32ToLe])).trans ?_
    have word := getLeToU32_setU32ToLe []
      (setU32ToLe u.image.length ++ setU32ToLe 0 ++ setU32ToLe 0) (by omega : u.offset < 2 ^ 32)
    simpa only [List.append_assoc, List.nil_append, List.length_nil] using word
  · refine (carries.word (k := 4) (by simp [setU32ToLe])).trans ?_
    have word := getLeToU32_setU32ToLe (setU32ToLe u.offset) (setU32ToLe 0 ++ setU32ToLe 0)
      (by unfold image; omega : u.image.length < 2 ^ 32)
    rwa [← List.append_assoc, ← List.append_assoc] at word

end NandUpload

section Conversation

variable {env : Platform W D H NandState NandCallback} {driver : NandDriver W}
  {patched : Nat → Bool} {content : W → Memory} (on : OnNand env driver patched content)
  {s t : StubState W D NandState NandCallback} {f g : Frame} {datas : List Frame} {u : NandUpload}

include on

theorem NandUpload.conversational (u : NandUpload) :
    ∀ p ∈ u.requests, Conversational env.plugin p := by
  intro p mem
  obtain ⟨fits, idx, slot, opcode⟩ := u.request_slot mem
  refine ⟨fits.isFrame, by simp [opcode], by simp [opcode], fun idx' other => ?_⟩
  obtain rfl : idx' = idx := Opcode.plugin.inj (other.symm.trans opcode)
  rw [on.table]
  refine nandPlugin_quiet driver env.md5 env.transport patched ?_
  obtain h | h | h := slot <;> simp [h]

theorem NandUpload.returns (u : NandUpload) (idle : s.pendingPostProcess = none) :
    (stubServer env).Returns Frame.bytes s u.requests := by
  refine returns_of_handleCommand fun frames f t first serves => ?_
  have mem : f.bytes ∈ u.requests := first.subset (by simp)
  obtain ⟨fits, idx, slot, opcode⟩ := u.request_slot mem
  have same := opcodeOf_bytes (lt_of_lt_of_le (by decide) fits.header : 1 < f.bytes.length)
  exact terminates_nand on (.inl slot) (same.trans opcode) (serve_pending idle serves)

theorem nandUpload_served (loaded : ∀ idx, IsWriteSlot idx → patched idx = true)
    (succeeds : driver.Succeeds) (received : u.Received f datas g)
    (clear : s.accumulatedResult = responseSuccess) (idle : s.pendingPostProcess = none)
    (run : (serve env (f :: (datas ++ [g]))).Returns s () t) :
    AllSucceed env (f :: (datas ++ [g])) s t ∧
      content t.world = (Nor.Op.program u.offset u.image).apply
        ((Nor.Op.erase (blockUp u.offset) (blockUp (u.offset + u.image.length))).apply
          (content s.world)) := by
  obtain ⟨s₁, v, begun, blocks, handled⟩ := returns_serve_session run
  have aligned : f.nandOffset % nandPageSize = 0 := received.offset ▸ u.aligned
  have success := answeredSuccess_nand on (.inl (.inl rfl)) (loaded 4 (.inl rfl)) received.ok
    received.first clear idle (gives_nandPluginWriteFlashBegin_success received.size aligned _) begun
  have writing :=
    (nandWriting_begin on received.first (clear ▸ isCode_success) idle begun success).2
  rw [received.offset, received.total] at writing
  obtain ⟨successes, whole⟩ := answeredSuccess_nandBlocks on (loaded 5 (.inr (.inl rfl))) succeeds
    u.inChip writing received.brings (Nat.le_of_eq (Nat.zero_add _)) blocks
  obtain ⟨count, w, plugin, -, stream, -⟩ := whole.stream
  have here : v.plugin.write = w := by rw [plugin]; rfl
  have left : v.plugin.write.totalRemaining = 0 :=
    here ▸ Nat.add_eq_left.mp stream.rest
  have last := answeredSuccess_nand on (.inl (.inr (.inr rfl))) (loaded 9 (.inr (.inr rfl)))
    received.last.ok received.closing whole.accumulated whole.idle
    (ensures_nandPluginWriteFlashEnd_success succeeds received.last.size (here ▸ stream.opened)
      left) handled
  obtain ⟨-, -, stored, -, -⟩ := nandWriting_end on whole received.closing handled last
  exact ⟨⟨s₁, begun, success, successes.append ⟨_, handled, last, rfl⟩⟩,
    run_session u.aligned stored⟩

end Conversation

/-- A NAND session that is answered with success throughout asks the driver for the pages of its
image in order, and leaves the image on the chip, with the rest of its last block blank. A block in
which the image only begins is not erased, and nothing else on the chip is changed. -/
theorem nand_session_leaves {env : Platform W D H NandState NandCallback} {driver : NandDriver W}
    {patched : Nat → Bool} {content : W → Memory} (on : OnNand env driver patched content)
    {s t : StubState W D NandState NandCallback} {f g : Frame} {datas : List Frame}
    (first : Opcode.ofByte f.ctx.command = .plugin 4)
    (data : ∀ d ∈ datas, Opcode.ofByte d.ctx.command = .plugin 5)
    (last : Opcode.ofByte g.ctx.command = .plugin 9) (fits : f.nandOffset + f.nandSize < 2 ^ 32)
    (code : IsCode s.accumulatedResult) (idle : s.pendingPostProcess = none)
    (run : AllSucceed env (f :: (datas ++ [g])) s t) :
    (datas.flatMap Frame.nandPayload).length = f.nandSize ∧
      t.plugin.calls = s.plugin.calls ++ streamCalls f.nandOffset
        (datas.flatMap Frame.nandPayload) (pageCount f.nandSize) ∧
      t.plugin.write = {} ∧
      content t.world = (Nor.Op.program f.nandOffset (datas.flatMap Frame.nandPayload)).apply
        ((Nor.Op.erase (blockUp f.nandOffset) (blockUp (f.nandOffset + f.nandSize))).apply
          (content s.world)) := by
  obtain ⟨aligned, length, plugin, stored, -, -⟩ :=
    nandSession_run on first data last fits code idle run
  refine ⟨length, by rw [plugin]; rfl, by rw [plugin]; rfl, ?_⟩
  rw [← length] at stored ⊢
  exact run_session aligned stored

/-- An image that begins with the last page of a block and goes on in the next one, in two blocks
of the host. -/
def nandTwoPages : NandUpload where
  offset := 129024
  blocks := [List.replicate 2000 0x5A, List.replicate 51 0x5A]
  aligned := by decide
  inChip := by decide +kernel
  fits := by decide +kernel

/-- Over zeros: the first block is not erased, so its page stays as it is. The second one is. -/
theorem nand_session_leaves_two_pages : ∃ frames t,
    frames.map Frame.bytes = nandTwoPages.requests ∧
    AllSucceed (nandPlatform simNand silentTransport) frames
      (espMainStart (nandPlatform simNand silentTransport) {} fun _ => 0) t ∧
    t.world 129024 = 0 ∧ t.world 131072 = 0x5A ∧ t.world 131075 = 0xFF := by
  obtain ⟨n, c, run, last⟩ := SlipSession.exists_run (nandPlatform simNand silentTransport) {}
    (fun _ => 0) (nandTwoPages.conversational nandPlatform_onNand)
  obtain ⟨frames, t, bytes, served, -⟩ := SlipSession.allServed {} (fun _ => 0)
    (nandTwoPages.returns nandPlatform_onNand rfl)
    (nandTwoPages.conversational nandPlatform_onNand) run last
  obtain ⟨f, datas, g, rfl, received⟩ := nandTwoPages.received bytes
  obtain ⟨all, -⟩ := nandUpload_served nandPlatform_onNand (fun _ _ => rfl)
    ⟨fun _ _ => rfl, fun _ _ _ => rfl⟩ received rfl rfl served
  obtain ⟨-, -, -, stored⟩ := nand_session_leaves nandPlatform_onNand received.first
    received.brings.nandData received.closing received.inRange isCode_success rfl all
  rw [received.offset, received.total, received.brings.nandImage] at stored
  refine ⟨_, t, bytes, all, (congrFun stored 129024).trans ?_, (congrFun stored 131072).trans ?_,
    (congrFun stored 131075).trans ?_⟩
  all_goals decide +kernel

section Slip

variable {env : Platform W D H NandState NandCallback} {driver : NandDriver W}
  {patched : Nat → Bool} {content : W → Memory}

/-- Over SLIP, where no call of the NAND driver fails, an upload to the NAND chip always arrives: in
every interleaving there is a bounded number of steps, apart from polls that find nothing, and it
stops only where every command has been answered with success and the chip holds the image. The
blocks that begin inside of it are erased first. -/
theorem slip_nand_upload_completes (on : OnNand env driver patched content)
    (loaded : ∀ idx, IsWriteSlot idx → patched idx = true) (succeeds : driver.Succeeds)
    (u : NandUpload) (statics : NandState) (w : W) {n : Nat}
    {c : SlipSession W D NandState NandCallback}
    (run : Mailbox.Run slipLine (stubServer env) n (SlipSession.start env u.requests statics w) c) :
    n ≤ (u.requests.map fun p => 20 * (slipSendFrame p).length + 1).sum ∧
      ((∀ d, ¬Mailbox.Works slipLine (stubServer env) c d) →
        ∃ frames t, frames.map Frame.bytes = u.requests ∧ c.stage = .listening t ∧
          AllSucceed env frames (espMainStart env statics w) t ∧
          content t.world = (Nor.Op.program u.offset u.image).apply
            ((Nor.Op.erase (blockUp u.offset) (blockUp (u.offset + u.image.length))).apply
              (content w))) := by
  refine ⟨SlipSession.bounded statics w (u.conversational on) run, fun stuck => ?_⟩
  obtain ⟨frames, t, bytes, served, stage⟩ :=
    SlipSession.allServed statics w (u.returns on rfl) (u.conversational on) run stuck
  obtain ⟨f, datas, g, rfl, received⟩ := u.received bytes
  obtain ⟨all, stored⟩ := nandUpload_served on loaded succeeds received rfl rfl served
  refine ⟨_, t, bytes, stage, all, stored.trans ?_⟩
  exact congrArg _ (congrArg _ (on.keepsSend greeting w))

/-- Three bytes for the second page of the first block, in two blocks of the host. -/
def nandThreeBytes : NandUpload where
  offset := 2048
  blocks := [[1, 2], [3]]
  aligned := by decide
  inChip := by decide
  fits := by decide

theorem slip_nand_upload_completes_three_bytes :
    ∃ (n : Nat) (c : SlipSession Memory (List SimInflate) NandState NandCallback)
      (t : StubState Memory (List SimInflate) NandState NandCallback),
      Mailbox.Run slipLine (stubServer (nandPlatform simNand silentTransport)) n
        (SlipSession.start (nandPlatform simNand silentTransport) nandThreeBytes.requests {}
          fun _ => 0xFF) c ∧
      c.stage = .listening t ∧ t.world.read 2048 3 = [1, 2, 3] := by
  obtain ⟨n, c, run, last⟩ := SlipSession.exists_run (nandPlatform simNand silentTransport) {}
    (fun _ => 0xFF) (nandThreeBytes.conversational nandPlatform_onNand)
  obtain ⟨frames, t, -, stage, -, stored⟩ := (slip_nand_upload_completes nandPlatform_onNand
    (fun _ _ => rfl) ⟨fun _ _ => rfl, fun _ _ _ => rfl⟩ nandThreeBytes {} (fun _ => 0xFF) run).2
    last
  refine ⟨n, c, t, run, stage, ?_⟩
  rw [id] at stored
  rw [stored]
  decide

end Slip

end FlasherStub
