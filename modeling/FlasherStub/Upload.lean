import FlasherStub.Liveness
import FlasherStub.Request
import FlasherStub.SessionImage

/-! An image on its way from the host to the chip, from the first byte on the line to the last page.
Where no flash operation fails, nothing else can go wrong: every command of a well-formed session is
answered with success. -/

namespace FlasherStub

open ByteMemory Budget

variable {W D H S C : Type} (env : Platform W D H S C)

section Plain

variable {f : Frame} {c seq : Nat} {block : List UInt8}

theorem Frame.Brings.actual (h : f.Brings c seq block) : actualDataSize f.ctx = block.length := by
  have header : flashDataHeaderSize = 16 := rfl
  have small : f.ctx.packetSize < 2 ^ 16 := getLeToU16_lt f.buffer 2
  have size := h.size
  rw [actualDataSize, header]
  omega

theorem Frame.Brings.payload_eq (h : f.Brings c seq block) : f.payload = block := by
  have header : flashDataHeaderSize = 16 := rfl
  rw [Frame.payload, h.size, header, Nat.add_sub_cancel_left]
  exact h.payload

theorem BringAll.flatten {datas : List Frame} {blocks : List (List UInt8)}
    (h : BringAll c seq datas blocks) : datas.flatMap Frame.payload = blocks.flatten := by
  induction h with
  | nil => rfl
  | cons first _ ih => rw [List.flatMap_cons, List.flatten_cons, first.payload_eq, ih]

/-- An image as it is; its last block may be padded. -/
structure Upload.Plain {sector : Nat} (u : Upload sector) : Prop where
  kind : u.isCompressed = false
  enough : u.total ≤ u.blocks.flatten.length

namespace Upload.Plain

variable {sector : Nat} {u : Upload sector}

theorem beginCommand (h : u.Plain) : u.beginCommand = espFlashBegin := by
  rw [Upload.beginCommand, h.kind]
  rfl

theorem dataCommand (h : u.Plain) : u.dataCommand = espFlashData := by
  rw [Upload.dataCommand, h.kind]
  rfl

theorem endCommand (h : u.Plain) : u.endCommand = espFlashEnd := by
  rw [Upload.endCommand, h.kind]
  rfl

end Upload.Plain

end Plain

section Session

variable {env} {f : Frame} {s t : StubState W D S C}

theorem answeredSuccess_of_dispatch (ok : f.HeaderOk)
    (clear : s.accumulatedResult = responseSuccess)
    (opcode : Opcode.ofByte f.ctx.command ≠ .runUserCode)
    (run : (handleCommand env f.buffer f.size).Returns s () t)
    {P : Int × CommandResponseData C → StubState W D S C → Prop} {Q : Prop}
    (handler : (dispatch env f.ctx (Opcode.ofByte f.ctx.command)).Ensures s (fun _ => True)
      fun r u => r.1 = responseSuccess ∧ u.sent = s.sent ∧ P r u)
    (callback : ∀ r u, r.1 = responseSuccess → P r u →
      (postProcess env f.ctx).Returns (u.answered env f.ctx r) () t →
        t.sent = (u.answered env f.ctx r).sent ∧ Q) : AnsweredSuccess s t ∧ Q := by
  have executed := (returns_handleCommand_execute env ok clear t).mp run
  obtain ⟨r, u, dispatched, processed⟩ := returns_execute env opcode executed
  obtain ⟨good, sent, holds⟩ := handler.2 r u dispatched
  obtain ⟨same, after⟩ := callback r u good holds processed
  obtain ⟨resp, answered⟩ := answered_sent env u f.ctx r
  refine ⟨⟨_, [], by rw [same, answered, sent], ?_⟩, after⟩
  rw [statusBytes_responseFrame, good]
  rfl

/-- Between two commands of a session in which nothing went wrong. -/
structure Uploading (s : StubState W D S C) : Prop where
  clear : s.accumulatedResult = responseSuccess
  idle : s.pendingPostProcess = none
  inProgress : s.flash.inProgress = true

theorem EraseAhead.inProgress {lib : StubLib W} {ok : Prop} (h : EraseAhead lib ok s t) :
    t.flash.inProgress = s.flash.inProgress := by
  obtain ⟨_, _, _, _, _, rfl, -⟩ := h
  rfl

theorem WriteOutcome.inProgress {lib : StubLib W} {data : List UInt8} {r : Int}
    (h : WriteOutcome lib s data r t) : t.flash.inProgress = s.flash.inProgress := by
  cases h with
  | stopped _ ahead => exact ahead.inProgress
  | failed _ ahead => exact ahead.inProgress
  | written _ ahead => exact ahead.inProgress

theorem uploading_begin (never : env.lib.NeverFails) (begins : f.Begins)
    (clear : s.accumulatedResult = responseSuccess) (idle : s.pendingPostProcess = none)
    (run : (handleCommand env f.buffer f.size).Returns s () t) :
    AnsweredSuccess s t ∧ Uploading t := by
  refine answeredSuccess_of_dispatch begins.ok clear begins.opcode_ne run
    (P := fun _ u => EraseAhead env.lib True (f.begun env s) u)
    (ensures_dispatch_begin env begins (((ensures_conditionalEraseNext_success env never _).and
      (ensures_conditionalEraseNext env _)).mono (fun _ _ => trivial) fun r u h => ?_))
    fun r u good ahead processed => ?_
  · exact ⟨h.1, h.2.silent.sent, h.2.mono fun _ => h.1⟩
  · have none : (u.answered env f.ctx r).pendingPostProcess = none :=
      answered_idle env (ahead.silent.pending.trans idle)
    obtain rfl := (returns_postProcess_none env none t).mp processed
    refine ⟨rfl, answered_accumulatedResult env u f.ctx r, none, ?_⟩
    rw [answered_flash, ahead.inProgress]
    rfl

theorem ensures_flashData_success {c seq : Nat} {block : List UInt8} (brings : f.Brings c seq block)
    (open_ : s.flash.inProgress = true) :
    (flashData f.ctx).Ensures s (fun _ => True) fun r u => r = responseSuccess ∧
      u = { s with pendingPostProcess := some .flashData } := by
  have header : flashDataHeaderSize = 16 := rfl
  have long : ¬ f.ctx.packetSize < flashDataHeaderSize := by
    rw [brings.size]
    omega
  refine Prog.Ensures.bind (Prog.Ensures.get ?_)
  rw [if_neg long, if_neg (not_not.mpr ((checkFlashInProgress_eq s).mpr open_)),
    brings.actual, if_neg (not_not.mpr brings.length), header]
  dsimp only
  rw [if_neg (not_not.mpr brings.checksum)]
  exact Prog.Ensures.bind (Prog.Ensures.modify (Prog.Ensures.pure ⟨rfl, rfl⟩))

theorem uploading_data (succeeds : env.lib.Succeeds) {seq : Nat} {block : List UInt8}
    (brings : f.Brings espFlashData seq block) (session : Uploading s)
    (run : (handleCommand env f.buffer f.size).Returns s () t) :
    AnsweredSuccess s t ∧ Uploading t := by
  have opcode : Opcode.ofByte f.ctx.command = .flashData := by
    rw [brings.command]
    rfl
  refine answeredSuccess_of_dispatch brings.ok session.clear (by simp [opcode]) run
    (P := fun _ u => u = { s with pendingPostProcess := some .flashData }) ?_
    fun r u good registered processed => ?_
  · rw [opcode]
    refine ensures_withEmptyResponse
      ((ensures_flashData_success brings session.inProgress).post fun r u h => ?_)
    exact ⟨h.1, by rw [h.2], h.2⟩
  · have pending : (u.answered env f.ctx r).pendingPostProcess = some .flashData := by
      rw [registered, StubState.answered, if_pos good]
      rfl
    obtain ⟨e, v, returned, rfl⟩ := (returns_postProcess_some env pending t).mp processed
    have writes (data : List UInt8) :=
      (ensures_writeFlashData_success succeeds data (u.answered env f.ctx r)).and
        (ensures_writeFlashData env data (u.answered env f.ctx r))
    have callback : (flashDataPostProcess env f.ctx).Ensures (u.answered env f.ctx r)
        (fun _ => True) fun e v => e = responseSuccess ∧ ∃ data,
          WriteOutcome env.lib (u.answered env f.ctx r) data e v :=
      Prog.Ensures.bind (Prog.Ensures.get ((writes _).mono (fun _ _ => trivial)
        fun e v h => ⟨h.1, _, h.2⟩))
    obtain ⟨fine, data, outcome⟩ := callback.2 e v returned
    refine ⟨outcome.sent, fine, rfl, ?_⟩
    rw [StubState.afterCallback, outcome.inProgress, answered_flash, registered]
    exact session.inProgress

theorem answeredSuccess_end {c : Nat} (closes : f.Closes c) (end_ : (Opcode.ofByte c).IsFlashEnd)
    (session : Uploading s) (left : s.flash.totalRemaining = 0)
    (run : (handleCommand env f.buffer f.size).Returns s () t) : AnsweredSuccess s t := by
  have opcode : (Opcode.ofByte f.ctx.command).IsFlashEnd := closes.command ▸ end_
  have user : Opcode.ofByte f.ctx.command ≠ .runUserCode := by
    obtain h | h := opcode <;> simp [h]
  refine (answeredSuccess_of_dispatch (Q := True) closes.ok session.clear user run
    (P := fun _ u => u.pendingPostProcess = none) ?_ fun r u good idle processed => ?_).1
  · rw [opcode.dispatch]
    refine ensures_withEmptyResponse (Prog.Ensures.bind (Prog.Ensures.get ?_))
    rw [if_neg (not_not.mpr closes.size),
      if_neg (not_not.mpr ((checkFlashInProgress_eq s).mpr session.inProgress)),
      if_neg (not_not.mpr left)]
    exact Prog.Ensures.bind (Prog.Ensures.modify (Prog.Ensures.pure ⟨rfl, rfl, session.idle⟩))
  · have none : (u.answered env f.ctx r).pendingPostProcess = none := answered_idle env idle
    exact ⟨by rw [(returns_postProcess_none env none t).mp processed], trivial⟩

variable {content : W → Memory} {sector : Nat}

theorem uploading_blocks (succeeds : env.lib.Succeeds) {seq : Nat} {datas : List Frame}
    {blocks : List (List UInt8)} (brings : BringAll espFlashData seq datas blocks)
    (session : Uploading s) (run : (serve env datas).Returns s () t) :
    AllSucceed env datas s t ∧ Uploading t := by
  induction brings generalizing s with
  | nil =>
    obtain ⟨-, rfl⟩ := (Prog.returns_pure _ _ _ _).mp run
    exact ⟨rfl, session⟩
  | cons first _ ih =>
    obtain ⟨_, u, handled, rest⟩ := (Prog.returns_bind _ _ _ _ _).mp run
    obtain ⟨success, next⟩ := uploading_data succeeds first session handled
    obtain ⟨all, last⟩ := ih next rest
    exact ⟨⟨u, handled, success, all⟩, last⟩

theorem AllSucceed.append {xs ys : List Frame} {u : StubState W D S C}
    (first : AllSucceed env xs s u) (last : AllSucceed env ys u t) :
    AllSucceed env (xs ++ ys) s t := by
  induction xs generalizing s with
  | nil =>
    obtain rfl : u = s := first
    exact last
  | cons f xs ih =>
    obtain ⟨v, handled, success, rest⟩ := first
    exact ⟨v, handled, success, ih rest⟩

theorem returns_serve_session {f g : Frame} {datas : List Frame}
    (run : (serve env (f :: (datas ++ [g]))).Returns s () t) :
    ∃ u v, (handleCommand env f.buffer f.size).Returns s () u ∧ (serve env datas).Returns u () v ∧
      (handleCommand env g.buffer g.size).Returns v () t := by
  obtain ⟨_, u, begun, rest⟩ := (Prog.returns_bind _ _ _ _ _).mp run
  obtain ⟨v, blocks, ended⟩ := (returns_serve_append env _ _ _ _).mp rest
  obtain ⟨_, w, handled, done⟩ := (Prog.returns_bind _ _ _ _ _).mp ended
  obtain ⟨-, rfl⟩ := (Prog.returns_pure _ _ _ _).mp done
  exact ⟨u, v, begun, blocks, handled⟩

theorem Upload.Received.onChip {u : Upload sector} {f g : Frame} {datas : List Frame}
    (received : u.Received f datas g) (contract : FlashContract env.lib sector)
    (nor : NorContract env content sector) (four : 4 ≤ sector)
    (clear : s.accumulatedResult = responseSuccess) (idle : s.pendingPostProcess = none) :
    OnChip env content sector f s where
  contract := contract
  nor := nor
  four := four
  inChip := by
    rw [CmdCtx.regionEnd, received.first.offset, received.first.total]
    exact u.inChip
  some := received.first.total ▸ u.some
  plain := received.first.plain
  code := clear ▸ isCode_success
  idle := idle

theorem allSucceed_upload {u : Upload sector} (plain : u.Plain) {f g : Frame} {datas : List Frame}
    (received : u.Received f datas g) (on : OnChip env content sector f s)
    (succeeds : env.lib.Succeeds) (clear : s.accumulatedResult = responseSuccess)
    (run : (serve env (f :: (datas ++ [g]))).Returns s () t) :
    AllSucceed env (f :: (datas ++ [g])) s t := by
  have dvd : 4 ∣ sector := on.contract.four_dvd on.four
  have brings := received.brings
  rw [plain.dataCommand] at brings
  obtain ⟨s₁, v, begun, blocks, handled⟩ := returns_serve_session run
  obtain ⟨success₁, uploading₁⟩ := uploading_begin succeeds.1 received.first.begins clear on.idle
    begun
  obtain ⟨successes, uploading⟩ := uploading_blocks succeeds brings uploading₁ blocks
  have first : f.ctx.command = espFlashBegin := received.first.command.trans plain.beginCommand
  have session := plainSession_blocks_kept on.contract on.nor dvd on.inChip brings.commands
    (plainSession_begin on.contract on.nor dvd first on.plain on.inChip on.code on.idle begun
      success₁) successes
  have left : v.flash.totalRemaining = 0 := by
    obtain ⟨-, tr, -, inv⟩ := session.ongoing uploading.clear
    have count := inv.image.count
    have enough := plain.enough
    rw [inv.written, List.nil_append, brings.flatten, received.first.total,
      List.length_take] at count
    omega
  have last := answeredSuccess_end received.last u.ends uploading left handled
  exact ⟨s₁, begun, success₁, successes.append ⟨_, handled, last, rfl⟩⟩

theorem wholeSession_upload {u : Upload sector} (plain : u.Plain) {f g : Frame}
    {datas : List Frame} (received : u.Received f datas g)
    (all : AllSucceed env (f :: (datas ++ [g])) s t) :
    WholeSession env f s t (u.blocks.flatten.take u.total) := by
  have session := WholeSession.plain (received.first.command.trans plain.beginCommand)
    (plain.dataCommand ▸ received.brings.commands)
    (received.last.command.trans plain.endCommand) all
  rwa [received.brings.flatten, received.first.total] at session

end Session

section Conversation

variable {env} {sector : Nat}

theorem Upload.Plain.promptRequest {u : Upload sector} (plain : u.Plain) (pos : 0 < sector) :
    ∀ p ∈ u.requests, PromptRequest env sector p := by
  intro p mem
  obtain ⟨fits, kind⟩ := u.request_kind mem
  rw [plain.beginCommand, plain.dataCommand, plain.endCommand] at kind
  have kind : p = u.beginRequest.bytes ∧ opcodeOf p = .flashBegin ∨ opcodeOf p = .flashData ∨
      opcodeOf p = .flashEnd := kind
  have prompt : (opcodeOf p).Prompt env.plugin := by
    constructor
    all_goals obtain ⟨-, h⟩ | h | h := kind <;> simp [h]
  refine ⟨fits.header, prompt, fun f same begins => ?_⟩
  obtain ⟨rfl, -⟩ | other := kind
  · have asks := asksFor_of_bytes pos same
    rw [CmdCtx.regionEnd, asks.offset, asks.total]
    exact u.inChip
  · have opcode := begins.opcode
    rw [begins.ok.opcode, same] at opcode
    obtain h | h := other <;> simp [h] at opcode

theorem Upload.stored {content : W → Memory} {image : List UInt8} (u : Upload sector)
    (contract : FlashContract env.lib sector) (nor : NorContract env content sector)
    (four : 4 ≤ sector) (statics : S) (w : W)
    (returns : (stubServer env).Returns Frame.bytes (espMainStart env statics w) u.requests)
    (whole : ∀ {f datas g t}, u.Received f datas g →
      OnChip env content sector f (espMainStart env statics w) →
      (serve env (f :: (datas ++ [g]))).Returns (espMainStart env statics w) () t →
      AllSucceed env (f :: (datas ++ [g])) (espMainStart env statics w) t ∧
        WholeSession env f (espMainStart env statics w) t image)
    {n : Nat} {c : SlipSession W D S C}
    (run : Mailbox.Run slipLine (stubServer env) n (SlipSession.start env u.requests statics w) c)
    (stuck : ∀ d, ¬Mailbox.Works slipLine (stubServer env) c d) :
    ∃ frames t, frames.map Frame.bytes = u.requests ∧ c.stage = .listening t ∧
      AllSucceed env frames (espMainStart env statics w) t ∧
      content t.world = (Nor.Op.program u.offset image).apply
        ((Nor.Op.erase (u.offset / sector * sector)
          ((u.offset + u.total + (sector - 1)) / sector * sector)).apply (content w)) := by
  obtain ⟨frames, t, bytes, served, stage⟩ :=
    SlipSession.allServed statics w returns u.conversational run stuck
  obtain ⟨f, datas, g, rfl, received⟩ := u.received contract.pos bytes
  have on : OnChip env content sector f (espMainStart env statics w) :=
    received.onChip contract nor four rfl rfl
  obtain ⟨all, session⟩ := whole received on served
  obtain ⟨-, -, -, left⟩ := session.leaves on
  refine ⟨_, t, bytes, stage, all, ?_⟩
  rw [left, CmdCtx.regionStart, CmdCtx.regionEnd, received.first.offset, received.first.total]
  exact congrArg _ (congrArg _ (nor.sendFrame greeting w))

/-- Over SLIP, where no flash operation fails, an upload always arrives: in every interleaving
there is a bounded number of steps, apart from polls that find nothing, and it stops only where
every command has been answered with success and the chip holds the image, in sectors that are
blank around it. -/
theorem slip_upload_completes {content : W → Memory} (contract : FlashContract env.lib sector)
    (nor : NorContract env content sector) (four : 4 ≤ sector) (succeeds : env.lib.Succeeds)
    (advances : env.lib.EventuallyAdvances sector) (rounding : WordRounding env.lib)
    (honest : InflaterContract env.tinfl) {u : Upload sector} (plain : u.Plain) (statics : S)
    (w : W) {n : Nat} {c : SlipSession W D S C}
    (run : Mailbox.Run slipLine (stubServer env) n (SlipSession.start env u.requests statics w) c) :
    n ≤ (u.requests.map fun p => 20 * (slipSendFrame p).length + 1).sum ∧
      ((∀ d, ¬Mailbox.Works slipLine (stubServer env) c d) →
        ∃ frames t, frames.map Frame.bytes = u.requests ∧ c.stage = .listening t ∧
          AllSucceed env frames (espMainStart env statics w) t ∧
          content t.world = (Nor.Op.program u.offset (u.blocks.flatten.take u.total)).apply
            ((Nor.Op.erase (u.offset / sector * sector)
              ((u.offset + u.total + (sector - 1)) / sector * sector)).apply (content w))) := by
  refine ⟨SlipSession.bounded statics w u.conversational run, fun stuck => ?_⟩
  have returns : (stubServer env).Returns Frame.bytes (espMainStart env statics w) u.requests :=
    returns_stubServer contract advances rounding honest rfl rfl (Nat.zero_le _)
      (plain.promptRequest contract.pos)
  refine u.stored contract nor four statics w returns (fun received on served => ?_) run stuck
  have all := allSucceed_upload plain received on succeeds rfl served
  exact ⟨all, wholeSession_upload plain received all⟩

def twoByteUpload : Upload 4 where
  isCompressed := false
  offset := 0
  total := 2
  numBlocks := 1
  blockSize := 4
  blocks := [[1, 2, 255, 255]]
  some := by decide
  inChip := by decide
  fits := by decide

theorem slip_upload_completes_two_bytes :
    ∃ (n : Nat) (c : SlipSession SimWorld (List SimInflate) Unit Empty)
      (t : StubState SimWorld (List SimInflate) Unit Empty),
      Mailbox.Run slipLine (stubServer (simPlatform 4 [])) n
        (SlipSession.start (simPlatform 4 []) twoByteUpload.requests () ⟨fun _ => 0⟩) c ∧
      c.stage = .listening t ∧ t.world.content.read 0 2 = [1, 2] := by
  obtain ⟨n, c, run, last⟩ := SlipSession.exists_run (simPlatform 4 []) () ⟨fun _ => 0⟩
    twoByteUpload.conversational
  obtain ⟨frames, t, -, stage, -, stored⟩ := (slip_upload_completes
    (simLib_contract (k := 2) (by decide)) (simPlatform_nor 4 []) (by decide) (simLib_succeeds 4)
    (simLib_eventuallyAdvances (by decide)) (simLib_wordRounding 4) (simTinfl_honest [])
    (⟨rfl, by decide⟩ : twoByteUpload.Plain) () ⟨fun _ => 0⟩ run).2 last
  refine ⟨n, c, t, run, stage, ?_⟩
  rw [stored]
  decide

end Conversation

end FlasherStub
