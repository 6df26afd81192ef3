import FlasherStub.NandErase
import FlasherStub.NandIsolation
import FlasherStub.NandRead
import FlasherStub.PlainSession

/-! A NAND write session from BEGIN to END as the host sees it: every command answered with
success. It leaves on the chip what erasing the blocks that begin inside the image, and programming
the image at once, would have left. -/

namespace FlasherStub

open ByteMemory Budget

def blockUp (a : Nat) : Nat := (a + (nandBlockSize - 1)) / nandBlockSize * nandBlockSize

theorem blockUp_boundary {offset k : Nat} (aligned : offset % nandPageSize = 0)
    (boundary : (offset / nandPageSize + k) % nandPagesPerBlock = 0) :
    blockUp (offset + k * nandPageSize) = (offset / nandPageSize + k) * nandPageSize ∧
      blockUp (offset + (k + 1) * nandPageSize) =
        (offset / nandPageSize + k + nandPagesPerBlock) * nandPageSize := by
  have aligned : offset % 2048 = 0 := aligned
  have boundary : (offset / 2048 + k) % 64 = 0 := boundary
  constructor
  · change (offset + k * 2048 + 131071) / 131072 * 131072 = (offset / 2048 + k) * 2048
    omega
  · change (offset + (k + 1) * 2048 + 131071) / 131072 * 131072 = (offset / 2048 + k + 64) * 2048
    omega

theorem blockUp_inside {offset k : Nat} (aligned : offset % nandPageSize = 0)
    (inside : (offset / nandPageSize + k) % nandPagesPerBlock ≠ 0) :
    blockUp (offset + (k + 1) * nandPageSize) = blockUp (offset + k * nandPageSize) := by
  have aligned : offset % 2048 = 0 := aligned
  have inside : (offset / 2048 + k) % 64 ≠ 0 := inside
  change (offset + (k + 1) * 2048 + 131071) / 131072 * 131072 =
    (offset + k * 2048 + 131071) / 131072 * 131072
  omega

theorem blockUp_pages {offset : Nat} (aligned : offset % nandPageSize = 0) (length : Nat) :
    blockUp (offset + pageCount length * nandPageSize) = blockUp (offset + length) := by
  have aligned : offset % 2048 = 0 := aligned
  change (offset + (length + 2047) / 2048 * 2048 + 131071) / 131072 * 131072 =
    (offset + length + 131071) / 131072 * 131072
  omega

theorem blockUp_le (a : Nat) {b : Nat} (h : a ≤ b) : blockUp a ≤ blockUp b :=
  Nat.mul_le_mul_right _ (Nat.div_le_div_right (Nat.add_le_add_right h _))

/-- The first `count` pages of an image, one after the other. -/
def pageBytes (image : List UInt8) (count : Nat) : List UInt8 :=
  (List.range count).flatMap (pageSlice image)

theorem pageBytes_succ (image : List UInt8) (count : Nat) :
    pageBytes image (count + 1) = pageBytes image count ++ pageSlice image count := by
  simp [pageBytes, List.range_succ]

theorem length_pageBytes (image : List UInt8) (count : Nat) :
    (pageBytes image count).length = count * nandPageSize := by
  induction count with
  | zero => simp [pageBytes]
  | succ count ih => rw [pageBytes_succ, List.length_append, ih, length_pageSlice, Nat.succ_mul]

theorem pageBytes_whole {image : List UInt8} {count : Nat}
    (whole : count * nandPageSize ≤ image.length) :
    pageBytes image count = image.take (count * nandPageSize) := by
  induction count with
  | zero => simp [pageBytes]
  | succ count ih =>
    rw [Nat.succ_mul] at whole
    have full : (Pages.slice nandPageSize image count).length = nandPageSize := by
      rw [Pages.length_slice]
      exact min_eq_left (Nat.le_sub_of_add_le' whole)
    rw [pageBytes_succ, ih (le_trans (Nat.le_add_right _ _) whole), pageSlice,
      Pages.padded_full full, Pages.slice, Nat.succ_mul, List.take_add]

theorem pageBytes_all (image : List UInt8) : ∃ n,
    pageBytes image (pageCount image.length) = image ++ List.replicate n 0xFF := by
  have room := Nat.mod_lt image.length (show 0 < nandPageSize by decide)
  have length := Nat.div_add_mod' image.length nandPageSize
  generalize image.length / nandPageSize = count at length
  generalize image.length % nandPageSize = rest at length room
  obtain rfl | some := Nat.eq_zero_or_pos rest
  · refine ⟨0, ?_⟩
    rw [Nat.add_zero] at length
    rw [pageCount_whole length, pageBytes_whole length.le, List.take_of_length_le length.ge]
    simp
  · have last : image.length ≤ (count + 1) * nandPageSize := by
      rw [Nat.succ_mul, ← length]
      exact Nat.add_le_add_left room.le _
    refine ⟨nandPageSize - (image.drop (count * nandPageSize)).length, ?_⟩
    rw [pageCount_part length some room, pageBytes_succ, pageBytes_whole (Nat.le.intro length),
      pageSlice, Pages.slice_last last, Pages.padded, ← List.append_assoc, List.take_append_drop]

theorem run_streamCalls {offset : Nat} (aligned : offset % nandPageSize = 0) {image : List UInt8}
    {count : Nat} {m n : Memory}
    (run : Nor.Run m ((streamCalls offset image count).map NandCall.op) n) :
    n = (Nor.Op.program offset (pageBytes image count)).apply
      ((Nor.Op.erase (blockUp offset) (blockUp (offset + count * nandPageSize))).apply m) := by
  induction count generalizing n with
  | zero =>
    rw [pageBytes, List.range_zero, List.flatMap_nil, Nor.Op.program_nil, Nat.zero_mul, Nat.add_zero,
      Nor.Op.erase_empty]
    exact run
  | succ count ih =>
    rw [streamCalls_succ, List.map_append] at run
    obtain ⟨k, before, page⟩ := Nor.run_append.mp run
    have start : (offset / nandPageSize + count) * nandPageSize =
        offset + (pageBytes image count).length := by
      have aligned : offset % 2048 = 0 := aligned
      rw [length_pageBytes]
      change (offset / 2048 + count) * 2048 = offset + count * 2048
      omega
    have grown := Nor.Op.program_append offset (pageBytes image count) (pageSlice image count)
    rw [← pageBytes_succ] at grown
    rw [pageCalls] at page
    split_ifs at page with boundary
    · obtain ⟨reached, next⟩ := blockUp_boundary aligned boundary
      obtain ⟨-, -, rfl⟩ := page
      rw [ih before, reached, next, NandCall.op, NandCall.op, Nor.Op.erase_program start.ge,
        Nor.Op.erase_erase, start, grown]
      · rw [← reached]
        exact blockUp_le _ (Nat.le_add_right _ _)
      · exact Nat.mul_le_mul_right _ (Nat.le_add_right _ _)
    · obtain ⟨-, rfl⟩ := page
      rw [blockUp_inside aligned boundary, ih before, NandCall.op, start, grown]

/-! A session can be cut at any command: what is left in the page buffer starts another one. -/

theorem page_add (offset count : Nat) :
    (offset + count * nandPageSize) / nandPageSize = offset / nandPageSize + count :=
  Nat.add_mul_div_right _ _ (by decide)

theorem pageSlice_drop (image : List UInt8) (count k : Nat) :
    pageSlice (image.drop (count * nandPageSize)) k = pageSlice image (count + k) := by
  rw [pageSlice, pageSlice, Pages.slice, Pages.slice, List.drop_drop, ← Nat.add_mul]

theorem streamCalls_add (offset : Nat) (image : List UInt8) (count k : Nat) :
    streamCalls offset image (count + k) = streamCalls offset image count ++
      streamCalls (offset + count * nandPageSize) (image.drop (count * nandPageSize)) k := by
  rw [streamCalls, List.range_add, List.flatMap_append, List.flatMap_map]
  refine congrArg (streamCalls offset image count ++ ·) (List.flatMap_congr fun j _ => ?_)
  rw [page_add, pageSlice_drop, Nat.add_assoc]

namespace Stream

variable {offset total count k : Nat} {image : List UInt8} {w : NandWriteState}

theorem le_total (h : Stream offset total image count w) : image.length ≤ total :=
  Nat.le.intro h.rest

theorem cut (h : Stream offset total image count w) :
    Stream (offset + count * nandPageSize) (total - count * nandPageSize)
      (image.drop (count * nandPageSize)) 0 w where
  length := by
    have length := h.length
    rw [List.length_drop, Nat.zero_mul, Nat.zero_add]
    omega
  filled := h.filled
  buffered := by
    rw [Nat.zero_mul, List.drop_zero]
    exact h.buffered
  position := by
    rw [Nat.zero_mul, Nat.add_zero]
    exact h.position
  rest := by
    have rest := h.rest
    have whole := h.whole
    rw [List.length_drop]
    omega
  opened := h.opened

theorem join (whole : count * nandPageSize ≤ image.length) (fits : count * nandPageSize ≤ total)
    (h : Stream (offset + count * nandPageSize) (total - count * nandPageSize)
      (image.drop (count * nandPageSize)) k w) : Stream offset total image (count + k) w where
  length := by
    have length := h.length
    rw [List.length_drop] at length
    rw [Nat.add_mul, Nat.add_assoc, length, Nat.add_sub_cancel' whole]
  filled := h.filled
  buffered := by
    rw [h.buffered, List.drop_drop, ← Nat.add_mul]
  position := by
    rw [h.position, Nat.add_mul, Nat.add_assoc]
  rest := by
    have rest := h.rest
    rw [List.length_drop] at rest
    omega
  opened := h.opened

end Stream

theorem Stream.resumes {W : Type} (driver : NandDriver W) {offset total count : Nat}
    {image : List UInt8} {s : NandState × W} (h : Stream offset total image count s.1.write)
    (room : s.1.write.pageBufFilled < nandPageSize) :
    Streaming driver s (offset + count * nandPageSize) (total - count * nandPageSize)
      (image.drop (count * nandPageSize)) s :=
  ⟨0, s.1.write, ⟨by simp [NandState.afterCalls], rfl⟩, h.cut, room⟩

theorem pageCount_add {count total : Nat} (fits : count * nandPageSize ≤ total) :
    pageCount total = count + pageCount (total - count * nandPageSize) := by
  obtain ⟨rest, rfl⟩ := Nat.exists_eq_add_of_le fits
  rw [Nat.add_sub_cancel_left, pageCount, pageCount, Nat.add_assoc, Nat.add_comm,
    Nat.add_mul_div_right _ _ (show 0 < nandPageSize by decide), Nat.add_comm]

section Codes

variable {W : Type} (driver : NandDriver W)

theorem isCode_nandErrToResponse (r : NandResult) : IsCode (nandErrToResponse r) := by
  cases r <;> decide

theorem givesCode_nandWriteFullPage (page : Nat) : (nandWriteFullPage driver page).Gives IsCode :=
  Prog.gives_bind fun _ => Prog.gives_bind fun r =>
    Prog.gives_ite (Prog.gives_pure (isCode_nandErrToResponse r))
      (Prog.gives_bind fun _ => Prog.gives_pure isCode_success)

theorem givesCode_nandWriteFlushPage : (nandWriteFlushPage driver).Gives IsCode := by
  refine Prog.gives_bind fun s => Prog.gives_ite ?_ (givesCode_nandWriteFullPage driver _)
  exact Prog.gives_bind fun r => Prog.gives_ite (Prog.gives_pure (isCode_nandErrToResponse r))
    (givesCode_nandWriteFullPage driver _)

theorem givesCode_nandCopyLoop (mem : Memory) (l : NandCopy) :
    (Prog.loop (nandCopyStep driver mem) l).Gives IsCode := by
  refine Prog.gives_loop (fun l => ?_) l
  refine Prog.gives_ite ?_ (Prog.gives_pure isCode_success)
  refine Prog.gives_bind fun next => Prog.gives_bind fun s =>
    Prog.gives_ite ?_ (Prog.gives_pure trivial)
  exact (givesCode_nandWriteFlushPage driver).bind fun r code =>
    Prog.gives_ite (Prog.gives_bind fun _ => Prog.gives_pure code) (Prog.gives_pure trivial)

theorem givesCode_nandFlushPadded : (nandFlushPadded driver).Gives IsCode := by
  refine Prog.gives_bind fun _ => (givesCode_nandWriteFlushPage driver).bind fun r code => ?_
  exact Prog.gives_ite (Prog.gives_bind fun _ => Prog.gives_pure code)
    (Prog.gives_pure isCode_success)

theorem givesCode_nandEraseBlocks (page count : Nat) :
    (nandEraseBlocks driver page count).Gives IsCode := by
  induction count generalizing page with
  | zero => exact Prog.gives_pure isCode_success
  | succ count ih =>
    exact Prog.gives_bind fun r =>
      Prog.gives_ite (Prog.gives_pure (isCode_nandErrToResponse r)) (ih _)

def IsStoreSlot (idx : Nat) : Prop := IsWriteSlot idx ∨ idx = 7

variable (mem : Memory) (data len : Nat) (resp : NandResponse)

theorem gives_storeHandler {idx : Nat} (slot : IsStoreSlot idx) :
    (nandHandler driver idx mem data len resp).Gives fun r => IsCode r.1 ∧ r.2 = resp := by
  have code {c : Int} (h : IsCode c) : (pure (c, resp) : NandStub W (Int × NandResponse)).Gives
      fun r => IsCode r.1 ∧ r.2 = resp := Prog.gives_pure ⟨h, rfl⟩
  have bad : IsCode responseNotEnoughData ∧ IsCode responseNotInFlashMode ∧
      IsCode responseTooMuchData ∧ IsCode responseBadDataChecksum := by decide
  obtain ⟨short, closed, large, checksum⟩ := bad
  obtain (rfl | rfl | rfl) | rfl := slot
  · exact Prog.gives_ite (code isCode_badDataLen) (Prog.gives_ite (code isCode_badDataLen)
      (Prog.gives_bind fun _ => code isCode_success))
  · refine Prog.gives_bind fun s => Prog.gives_ite (code short) (Prog.gives_ite (code closed)
      (Prog.gives_ite (code large) (Prog.gives_ite (code large) (Prog.gives_ite (code checksum) ?_))))
    exact (givesCode_nandCopyLoop driver mem _).bind fun r => code
  · refine Prog.gives_bind fun s => Prog.gives_ite (code isCode_badDataLen)
      (Prog.gives_ite (code closed) (Prog.gives_ite (code isCode_badDataLen) ?_))
    have ends (r : Int) (h : IsCode r) : (if r ≠ responseSuccess then pure (r, resp)
        else NandStub.modifyWrite (fun _ => {}) >>= fun _ => pure (responseSuccess, resp) :
          NandStub W _).Gives fun r => IsCode r.1 ∧ r.2 = resp :=
      Prog.gives_ite (code h) (Prog.gives_bind fun _ => code isCode_success)
    exact Prog.gives_ite ((givesCode_nandFlushPadded driver).bind ends)
      ((Prog.gives_pure isCode_success).bind ends)
  · refine Prog.gives_ite (code isCode_badDataLen) (Prog.gives_ite (code isCode_badDataLen) ?_)
    exact (givesCode_nandEraseBlocks driver _ _).bind fun r => code

end Codes

variable {W D H : Type}

structure OnNand (env : Platform W D H NandState NandCallback) (driver : NandDriver W)
    (patched : Nat → Bool) (content : W → Memory) : Prop where
  table : env.plugin = nandPlugin driver env.md5 env.transport patched
  contract : NandContract driver content
  keepsSend : ∀ frame w, content (env.transport.sendFrame frame w) = content w

structure NandServed (driver : NandDriver W) (content : W → Memory) (f : Frame) (idx : Nat)
    (s t : StubState W D NandState NandCallback) : Prop where
  handled : ∃ w, (nandHandler driver idx f.ctx.mem f.ctx.data f.ctx.packetSize {}).Returns
    (s.plugin, s.world) (responseSuccess, {}) (t.plugin, w) ∧ content t.world = content w
  accumulated : t.accumulatedResult = responseSuccess
  idle : t.pendingPostProcess = none

section Commands

variable {env : Platform W D H NandState NandCallback} {driver : NandDriver W}
  {patched : Nat → Bool} {content : W → Memory} (on : OnNand env driver patched content)
  {s t : StubState W D NandState NandCallback} {f : Frame}

include on

theorem ensures_callPlugin_store {idx : Nat} (slot : IsStoreSlot idx) (ctx : CmdCtx)
    (s : StubState W D NandState NandCallback) :
    (callPlugin env idx ctx).Ensures s (fun _ => True) fun r u => IsCode r.1 ∧ u.sent = s.sent ∧
      u.pendingPostProcess = s.pendingPostProcess ∧ (r.1 = responseSuccess →
        (nandHandler driver idx ctx.mem ctx.data ctx.packetSize {}).Returns (s.plugin, s.world)
          (responseSuccess, {}) (u.plugin, u.world)) := by
  have called : (env.plugin.table idx ctx.command ctx.mem ctx.data ctx.packetSize {}).Ensures
      (s.plugin, s.world) (fun _ => True) fun r v => (IsCode r.1 ∧ r.2 = {}) ∧
        (r.1 = responseSuccess → (nandHandler driver idx ctx.mem ctx.data ctx.packetSize {}).Returns
          (s.plugin, s.world) (responseSuccess, {}) v) := by
    rw [on.table]
    refine Prog.Ensures.of_returns fun r v run => ?_
    change (if patched idx then _ else _ : NandStub W (Int × NandResponse)).Returns _ r v at run
    split_ifs at run with loaded
    · have spec := (gives_storeHandler driver ctx.mem ctx.data ctx.packetSize {} slot _).2 r v run
      refine ⟨spec, fun good => ?_⟩
      obtain rfl : r = (responseSuccess, {}) := Prod.ext good spec.2
      exact run
    · obtain ⟨rfl, -⟩ := (Prog.returns_pure _ _ _ _).mp run
      have unsupported : IsCode responseCmdNotImplemented ∧
          responseCmdNotImplemented ≠ responseSuccess := by decide
      exact ⟨⟨unsupported.1, rfl⟩, fun good => absurd good unsupported.2⟩
  refine Prog.Ensures.bind (Prog.Ensures.focus (called.mono (fun _ _ => trivial) ?_))
  rintro ⟨code, response⟩ v ⟨⟨small, quiet⟩, handled⟩
  have quiet : response = {} := quiet
  subst quiet
  exact Prog.Ensures.pure ⟨small, rfl, rfl, handled⟩

theorem AnsweredSuccess.nandServed {idx : Nat} (slot : IsStoreSlot idx)
    (opcode : Opcode.ofByte f.ctx.command = .plugin idx) (code : IsCode s.accumulatedResult)
    (idle : s.pendingPostProcess = none)
    (run : (handleCommand env f.buffer f.size).Returns s () t) (success : AnsweredSuccess s t) :
    NandServed driver content f idx s t := by
  have builtIn : Opcode.ofByte f.ctx.command ≠ .runUserCode := by simp [opcode]
  have handler : (dispatch env f.ctx (Opcode.ofByte f.ctx.command)).Ensures s (fun _ => True)
      fun r u => IsCode r.1 ∧ u.sent = s.sent ∧ u.pendingPostProcess = none ∧
        (r.1 = responseSuccess → (nandHandler driver idx f.ctx.mem f.ctx.data f.ctx.packetSize
          {}).Returns (s.plugin, s.world) (responseSuccess, {}) (u.plugin, u.world)) := by
    rw [opcode, ← idle]
    exact ensures_callPlugin_store on slot f.ctx s
  obtain ⟨-, -, r, u, good, ⟨pending, handled⟩, processed⟩ :=
    success.dispatched env code builtIn run handler fun r u quiet processed => by
      obtain rfl := (returns_postProcess_none env (answered_idle env quiet.1) t).mp processed
      exact ⟨[], (List.append_nil _).symm⟩
  obtain rfl := (returns_postProcess_none env (answered_idle env pending) t).mp processed
  refine ⟨⟨u.world, ?_, ?_⟩, answered_accumulatedResult env _ _ _, answered_idle env pending⟩
  · rw [StubState.answered, if_pos good]
    exact handled good
  · rw [StubState.answered, if_pos good]
    exact on.keepsSend _ _

omit on

/-- The session that `f` began in `s` has taken in `image`: its whole pages are on the chip, the
rest is in the page buffer. -/
structure NandWriting (content : W → Memory) (offset total : Nat) (image : List UInt8)
    (s t : StubState W D NandState NandCallback) : Prop where
  stream : ∃ count w, t.plugin = s.plugin.afterCalls (streamCalls offset image count) w ∧
    Nor.Run (content s.world) ((streamCalls offset image count).map NandCall.op) (content t.world) ∧
    Stream offset total image count w ∧ w.pageBufFilled < nandPageSize
  accumulated : t.accumulatedResult = responseSuccess
  idle : t.pendingPostProcess = none

def Frame.nandOffset (f : Frame) : Nat := getLeToU32 f.ctx.mem f.ctx.data

def Frame.nandSize (f : Frame) : Nat := getLeToU32 f.ctx.mem (f.ctx.data + 4)

def Frame.nandPayload (f : Frame) : List UInt8 :=
  FlasherStub.nandPayload f.ctx.mem f.ctx.data f.ctx.packetSize

include on

theorem nandWriting_begin (opcode : Opcode.ofByte f.ctx.command = .plugin 4)
    (code : IsCode s.accumulatedResult) (idle : s.pendingPostProcess = none)
    (run : (handleCommand env f.buffer f.size).Returns s () t) (success : AnsweredSuccess s t) :
    f.nandOffset % nandPageSize = 0 ∧ NandWriting content f.nandOffset f.nandSize [] s t := by
  have served := success.nandServed on (.inl (.inl rfl)) opcode code idle run
  obtain ⟨w, begun, kept⟩ := served.handled
  obtain ⟨aligned, count, ws, made, stream, room⟩ := nandPluginWriteFlashBegin_stream driver begun
  refine ⟨aligned, ⟨count, ws, made.1, ?_, stream, room⟩, served.accumulated, served.idle⟩
  rw [kept]
  exact made.2.content driver on.contract (regular_streamCalls _ _ _)

theorem nandWriting_data {offset total : Nat} (fits : offset + total < 2 ^ 32)
    {image : List UInt8} {u : StubState W D NandState NandCallback}
    (writing : NandWriting content offset total image s t)
    (opcode : Opcode.ofByte f.ctx.command = .plugin 5)
    (run : (handleCommand env f.buffer f.size).Returns t () u) (success : AnsweredSuccess t u) :
    NandWriting content offset total (image ++ f.nandPayload) s u := by
  have served := success.nandServed on (.inl (.inr (.inl rfl))) opcode
    (writing.accumulated ▸ isCode_success) writing.idle run
  obtain ⟨count, w, plugin, stored, stream, room⟩ := writing.stream
  obtain ⟨v, handled, kept⟩ := served.handled
  have whole := stream.whole
  have fill := stream.le_total
  -- the data goes to a session that begins with what is in the page buffer
  have here : t.plugin.write = w := by rw [plugin]; rfl
  have rest := Stream.resumes driver (s := (t.plugin, t.world)) (here ▸ stream) (here ▸ room)
  obtain ⟨k, w', made, next, room'⟩ :=
    nandPluginWriteFlashData_stream driver (by omega) rest handled
  rw [← List.drop_append_of_le_length whole] at made next
  have calls := streamCalls_add offset (image ++ f.nandPayload) count k
  rw [streamCalls_append whole] at calls
  refine ⟨⟨count + k, w', ?_, ?_, next.join ?_ (by omega), room'⟩, served.accumulated, served.idle⟩
  · rw [calls, ← afterCalls_append, ← plugin]
    exact made.1
  · rw [calls, List.map_append, Nor.run_append, kept]
    exact ⟨_, stored, made.2.content driver on.contract (regular_streamCalls _ _ _)⟩
  · rw [List.length_append]
    omega

theorem nandWriting_blocks {offset total : Nat} (fits : offset + total < 2 ^ 32)
    {image : List UInt8} {datas : List Frame} {u : StubState W D NandState NandCallback}
    (writing : NandWriting content offset total image s t)
    (data : ∀ d ∈ datas, Opcode.ofByte d.ctx.command = .plugin 5) (run : AllSucceed env datas t u) :
    NandWriting content offset total (image ++ datas.flatMap Frame.nandPayload) s u := by
  induction datas generalizing t image with
  | nil =>
    obtain rfl : u = t := run
    rwa [List.flatMap_nil, List.append_nil]
  | cons d datas ih =>
    obtain ⟨v, handled, success, rest⟩ := run
    rw [List.flatMap_cons, ← List.append_assoc]
    exact ih (nandWriting_data on fits writing (data d (by simp)) handled success)
      (fun d hd => data d (by simp [hd])) rest

theorem nandWriting_end {offset total : Nat} {image : List UInt8}
    {u : StubState W D NandState NandCallback}
    (writing : NandWriting content offset total image s t)
    (opcode : Opcode.ofByte f.ctx.command = .plugin 9)
    (run : (handleCommand env f.buffer f.size).Returns t () u) (success : AnsweredSuccess t u) :
    image.length = total ∧
      u.plugin = s.plugin.afterCalls (streamCalls offset image (pageCount total)) {} ∧
      Nor.Run (content s.world) ((streamCalls offset image (pageCount total)).map NandCall.op)
        (content u.world) ∧ u.accumulatedResult = responseSuccess ∧ u.pendingPostProcess = none := by
  have served := success.nandServed on (.inl (.inr (.inr rfl))) opcode
    (writing.accumulated ▸ isCode_success) writing.idle run
  obtain ⟨count, w, plugin, stored, stream, room⟩ := writing.stream
  obtain ⟨v, handled, kept⟩ := served.handled
  have whole := stream.whole
  have fill := stream.le_total
  have here : t.plugin.write = w := by rw [plugin]; rfl
  have rest := Stream.resumes driver (s := (t.plugin, t.world)) (here ▸ stream) (here ▸ room)
  obtain ⟨length, made⟩ := nandPluginWriteFlashEnd_stream driver rest handled
  have calls := streamCalls_add offset image count (pageCount (total - count * nandPageSize))
  rw [← pageCount_add (by omega)] at calls
  rw [List.length_drop] at length
  refine ⟨by omega, ?_, ?_, served.accumulated, served.idle⟩
  · rw [calls, ← afterCalls_append, ← plugin]
    exact made.1
  · rw [calls, List.map_append, Nor.run_append, kept]
    exact ⟨_, stored, made.2.content driver on.contract (regular_streamCalls _ _ _)⟩

/-- The calls of a whole session, with every command answered with success. -/
theorem nandSession_run {g : Frame} {datas : List Frame}
    (first : Opcode.ofByte f.ctx.command = .plugin 4)
    (data : ∀ d ∈ datas, Opcode.ofByte d.ctx.command = .plugin 5)
    (last : Opcode.ofByte g.ctx.command = .plugin 9) (fits : f.nandOffset + f.nandSize < 2 ^ 32)
    (code : IsCode s.accumulatedResult) (idle : s.pendingPostProcess = none)
    (run : AllSucceed env (f :: (datas ++ [g])) s t) :
    f.nandOffset % nandPageSize = 0 ∧ (datas.flatMap Frame.nandPayload).length = f.nandSize ∧
      t.plugin = s.plugin.afterCalls (streamCalls f.nandOffset (datas.flatMap Frame.nandPayload)
        (pageCount f.nandSize)) {} ∧
      Nor.Run (content s.world) ((streamCalls f.nandOffset (datas.flatMap Frame.nandPayload)
        (pageCount f.nandSize)).map NandCall.op) (content t.world) ∧
      t.accumulatedResult = responseSuccess ∧ t.pendingPostProcess = none := by
  obtain ⟨u, begun, success, rest⟩ := run
  obtain ⟨aligned, writing⟩ := nandWriting_begin on first code idle begun success
  obtain ⟨v, blocks, w, ended, success, rfl⟩ := allSucceed_append rest
  have filled := nandWriting_blocks on fits writing data blocks
  exact ⟨aligned, nandWriting_end on filled last ended success⟩

end Commands

theorem run_session {offset : Nat} (aligned : offset % nandPageSize = 0) {image : List UInt8}
    {m n : Memory}
    (run : Nor.Run m ((streamCalls offset image (pageCount image.length)).map NandCall.op) n) :
    n = (Nor.Op.program offset image).apply
      ((Nor.Op.erase (blockUp offset) (blockUp (offset + image.length))).apply m) := by
  obtain ⟨pad, pages⟩ := pageBytes_all image
  rw [run_streamCalls aligned run, blockUp_pages aligned, pages, ← Nor.Op.program_append,
    Nor.Op.program_blank]

def idleLib : StubLib W where
  alignDown a n := a / n * n
  alignUp a n := (a + (n - 1)) / n * n
  flashGetConfig _ := simFlashConfig 4096
  flashUpdateConfig _ w := (.ok, w)
  flashReadBuff _ _ w := (none, w)
  flashWriteBuff _ _ _ w := (.fail, w)
  flashStartNextErase addr remaining w := ({ result := .fail, addr, remaining }, w)
  flashEraseChip w := (.fail, w)
  flashWaitReady _ w := (.ok, w)
  flashAttach _ w := w
  securityInfoSize := 0
  getSecurityInfo w := ((.ok, []), w)
  delayUs _ w := w
  regRead _ w := (0, w)
  regWrite _ _ w := w
  memcpy _ _ w := w
  uartTxFlush w := w
  uartSetBaudrate _ w := w
  runUserRamCode _ w := w

def nandPlatform (driver : NandDriver W) (transport : TransportOps W) :
    Platform W (List SimInflate) Unit NandState NandCallback where
  lib := idleLib
  tinfl := simTinfl []
  md5 := simMd5
  transport := transport
  plugin := nandPlugin driver simMd5 transport fun _ => true

def nandStart (w : W) : StubState W (List SimInflate) NandState NandCallback where
  flash := { decompressor := [] }
  memory := {}
  dirtySeen := false
  pendingPostProcess := none
  accumulatedResult := responseSuccess
  decompressedData := fun _ => 0
  decompressedDataPtr := 0
  plugin := {}
  world := w
  sent := []
  trace := []

def nandRequest (command offset size packetSize : Nat) : Frame :=
  mkFrame command 0 (setU32ToLe offset ++ setU32ToLe size ++ setU32ToLe packetSize ++ setU32ToLe 0)

theorem nandPlatform_onNand : OnNand (nandPlatform simNand silentTransport) simNand
    (fun _ => true) id where
  table := rfl
  contract := simNand_contract
  keepsSend _ _ := rfl

end FlasherStub
