import FlasherStub.DeflImage
import FlasherStub.FlashMd5

/-! What a session that was answered with success throughout has done. It does not matter whether
the image came compressed, and SPI_FLASH_MD5 tells the host that it has arrived. -/

namespace FlasherStub

open ByteMemory Budget

variable {W D H S C : Type} (env : Platform W D H S C)

/-- A session from BEGIN to END, with every answer a success, and the image that it brought. What
the inflater emits must not be longer than declared. -/
inductive WholeSession (f : Frame) (s t : StubState W D S C) : List UInt8 → Prop where
  | plain {datas : List Frame} {g : Frame} (first : f.ctx.command = espFlashBegin)
    (data : ∀ d ∈ datas, d.ctx.command = espFlashData) (last : g.ctx.command = espFlashEnd)
    (run : AllSucceed env (f :: (datas ++ [g])) s t) :
    WholeSession f s t ((datas.flatMap Frame.payload).take f.ctx.beginTotal)
  | compressed {d g : Frame} {rest : List Frame} {tr : List Event}
    (first : f.ctx.command = espFlashDeflBegin)
    (start : d.ctx.command = espFlashDeflData ∧ d.seq = 0)
    (later : ∀ g ∈ rest, g.ctx.command = espFlashDeflData ∧ g.seq ≠ 0)
    (last : g.ctx.command = espFlashDeflEnd) (run : AllSucceed env (f :: d :: rest ++ [g]) s t)
    (trace : t.trace = s.trace ++ tr) (fits : (emitted tr).length ≤ f.ctx.beginTotal) :
    WholeSession f s t (emitted tr)

/-- What a session is run on: a NOR chip, an image that lies in it and is not encrypted, and a stub
between two commands. -/
structure OnChip (content : W → Memory) (sector : Nat) (f : Frame) (s : StubState W D S C) :
    Prop where
  contract : FlashContract env.lib sector
  nor : NorContract env content sector
  four : 4 ≤ sector
  inChip : f.ctx.regionEnd sector < 2 ^ 32
  some : 0 < f.ctx.beginTotal
  plain : f.ctx.beginEncrypt = false
  code : IsCode s.accumulatedResult
  idle : s.pendingPostProcess = none

section Image

variable {env} {content : W → Memory} {sector : Nat} {f : Frame} {s₀ s t : StubState W D S C}
  {image : List UInt8}

theorem plainSession_blocks_kept (contract : FlashContract env.lib sector)
    (nor : NorContract env content sector) (four : 4 ∣ sector)
    (inChip : f.ctx.regionEnd sector < 2 ^ 32) {datas : List Frame}
    (data : ∀ d ∈ datas, d.ctx.command = espFlashData) {payloads : List UInt8}
    (session : PlainSession content sector f s₀ payloads s) (run : AllSucceed env datas s t) :
    PlainSession content sector f s₀ (payloads ++ datas.flatMap Frame.payload) t := by
  induction datas generalizing s payloads with
  | nil =>
    obtain rfl : t = s := run
    rwa [List.flatMap_nil, List.append_nil]
  | cons d datas ih =>
    obtain ⟨u, handled, success, rest⟩ := run
    rw [List.flatMap_cons, ← List.append_assoc]
    exact ih (fun d hd => data d (by simp [hd]))
      (plainSession_data contract nor four inChip (data d (by simp)) session handled success) rest

theorem plainSession_content (on : OnChip env content sector f s) {g : Frame} {datas : List Frame}
    (first : f.ctx.command = espFlashBegin) (data : ∀ d ∈ datas, d.ctx.command = espFlashData)
    (last : g.ctx.command = espFlashEnd) (run : AllSucceed env (f :: (datas ++ [g])) s t) :
    ∃ u tr, Ended content u t ∧ PlainInv sector f.ctx (datas.flatMap Frame.payload) tr u ∧
      content u.world = (Nor.Op.program f.ctx.beginOffset
        ((datas.flatMap Frame.payload).take f.ctx.beginTotal)).apply
          ((Nor.Op.erase (f.ctx.regionStart sector) (f.ctx.regionEnd sector)).apply
            (content s.world)) := by
  have dvd : 4 ∣ sector := on.contract.four_dvd on.four
  obtain ⟨s₁, begun, success₁, rest⟩ := run
  obtain ⟨u, blocks, v, handled, success, rfl⟩ := allSucceed_append rest
  have session := plainSession_blocks_kept on.contract on.nor dvd on.inChip data
    (plainSession_begin on.contract on.nor dvd first on.plain on.inChip on.code on.idle begun
      success₁) blocks
  have opcode : Opcode.ofByte g.ctx.command = .flashEnd := by
    rw [last]
    rfl
  have ended : Ended content u t :=
    ended_of_success on.nor (.inl opcode) session.code session.idle handled success
  obtain ⟨⟨ext, grown, chip⟩, tr, trace, inv⟩ := session.ongoing ended.clear
  obtain rfl : ext = tr := List.append_cancel_left (grown.symm.trans trace)
  have fine := NoProgramFailed.of_sound inv.sound
  have all : (written ext).length = f.ctx.beginTotal := by
    have count := inv.image.count
    have left := ended.left
    omega
  have next := inv.laid.complete (inv.discipline.frontiers fine) on.contract.pos inv.region on.some
    all
  have laid : LaidInv sector f.ctx.beginOffset (f.ctx.regionStart sector) ext u := by
    refine ⟨inv.aligned, inv.image.offset, inv.laid, ?_, ?_, inv.start_le⟩
    · intro addr data enc ok mem
      exact (inv.image.range addr data enc ok mem).1
    · rw [next]
      exact inv.within.1
  have whole := laid.content inv.discipline fine on.contract.pos (Nat.mul_mod_left _ _)
    (Nat.div_mul_le_self _ _) (chip inv.sound)
  rw [next, inv.written] at whole
  exact ⟨u, ext, ended, inv, whole⟩

theorem WholeSession.leaves (h : WholeSession env f s t image)
    (on : OnChip env content sector f s) :
    t.accumulatedResult = responseSuccess ∧ t.pendingPostProcess = none ∧
      image.length = f.ctx.beginTotal ∧
        content t.world = (Nor.Op.program f.ctx.beginOffset image).apply
          ((Nor.Op.erase (f.ctx.regionStart sector) (f.ctx.regionEnd sector)).apply
            (content s.world)) := by
  cases h with
  | plain first data last run =>
    obtain ⟨u, tr, ended, inv, stored⟩ := plainSession_content on first data last run
    have count := inv.image.count
    have left := ended.left
    exact ⟨ended.accumulated, ended.idle, by rw [← inv.written]; omega, ended.world.trans stored⟩
  | @compressed _ _ _ tr first start later last run trace fits =>
    obtain ⟨accumulated, idle, tr', trace', stored⟩ := deflSession_content on.contract on.nor
      on.four first on.plain start later last on.inChip on.code on.idle on.some run
    obtain rfl : tr = tr' := List.append_cancel_left (trace.symm.trans trace')
    exact ⟨accumulated, idle, stored fits⟩

theorem WholeSession.stored (h : WholeSession env f s t image)
    (on : OnChip env content sector f s) :
    (content t.world).read f.ctx.beginOffset f.ctx.beginTotal = image := by
  obtain ⟨-, -, length, stored⟩ := h.leaves on
  obtain ⟨startLe, endLe⟩ := f.ctx.image_in_region on.contract.pos
  rw [stored, ← length]
  exact Nor.Op.read_program_erase startLe (by omega) _

/-- Two sessions with the same image leave the same chip, whether the image came plain or
compressed, and however it was cut into frames. Each of them has done what erasing all sectors of
the image first and programming it at once would have done. -/
theorem flash_sessions_agree {W' D' H' S' C' : Type} {env' : Platform W' D' H' S' C'}
    {content' : W' → Memory} {f' : Frame} {s' t' : StubState W' D' S' C'}
    (on : OnChip env content sector f s) (on' : OnChip env' content' sector f' s')
    (h : WholeSession env f s t image) (h' : WholeSession env' f' s' t' image)
    (offset : f'.ctx.beginOffset = f.ctx.beginOffset)
    (before : content' s'.world = content s.world) :
    content' t'.world = content t.world ∧
      content t.world = (Nor.Op.program f.ctx.beginOffset image).apply
        ((Nor.Op.erase (f.ctx.regionStart sector) (f.ctx.regionEnd sector)).apply
          (content s.world)) := by
  obtain ⟨-, -, length, stored⟩ := h.leaves on
  obtain ⟨-, -, length', stored'⟩ := h'.leaves on'
  have total : f'.ctx.beginTotal = f.ctx.beginTotal := length'.symm.trans length
  refine ⟨?_, stored⟩
  rw [stored, stored', offset, before, CmdCtx.regionStart, CmdCtx.regionStart, CmdCtx.regionEnd,
    CmdCtx.regionEnd, offset, total]

theorem simPlatform_onChip (script : List SimInflate) {f : Frame}
    (inChip : f.ctx.regionEnd 4 < 2 ^ 32) (some : 0 < f.ctx.beginTotal)
    (plain : f.ctx.beginEncrypt = false) :
    OnChip (simPlatform 4 script) SimWorld.content 4 f (simStart fun _ => 0) :=
  ⟨simLib_contract (k := 2) (by decide), simPlatform_nor 4 script, by decide, inChip, some, plain,
    isCode_success, rfl⟩

theorem simPlatform_plainSession : ∃ t, WholeSession (simPlatform 4 [])
    (beginFrame espFlashBegin 2 0) (simStart fun _ => 0) t [1, 2] := by
  obtain ⟨t, run⟩ : ∃ t, AllSucceed (simPlatform 4 []) (beginFrame espFlashBegin 2 0 ::
      ([dataFrame espFlashData 0 [1, 2]] ++ [endFrame espFlashEnd])) (simStart fun _ => 0) t :=
    ⟨_, _, ⟨20, _, rfl⟩, ⟨_, [], rfl, rfl⟩, _, ⟨20, _, rfl⟩, ⟨_, [], rfl, rfl⟩,
      _, ⟨20, _, rfl⟩, ⟨_, [], rfl, rfl⟩, rfl⟩
  exact ⟨t, .plain rfl (List.forall_mem_singleton.mpr rfl) rfl run⟩

theorem simPlatform_compressedSession : ∃ t, WholeSession (simPlatform 4 [(.done, 1, [1, 2])])
    (beginFrame espFlashDeflBegin 2 0) (simStart fun _ => 0) t [1, 2] := by
  obtain ⟨t, run, shape⟩ : ∃ t, AllSucceed (simPlatform 4 [(.done, 1, [1, 2])])
      (beginFrame espFlashDeflBegin 2 0 :: dataFrame espFlashDeflData 0 [7] :: [] ++
        [endFrame espFlashDeflEnd]) (simStart fun _ => 0) t ∧ emitted t.trace = [1, 2] :=
    ⟨_, ⟨_, ⟨20, _, rfl⟩, ⟨_, [], rfl, rfl⟩, _, ⟨20, _, rfl⟩, ⟨_, [], rfl, rfl⟩,
      _, ⟨20, _, rfl⟩, ⟨_, [], rfl, rfl⟩, rfl⟩, rfl⟩
  have session := WholeSession.compressed rfl ⟨rfl, rfl⟩ (by simp) rfl run (List.nil_append _).symm
    (by rw [shape]; decide)
  exact ⟨t, shape ▸ session⟩

theorem flash_sessions_agree_two_bytes : ∃ t t',
    WholeSession (simPlatform 4 []) (beginFrame espFlashBegin 2 0) (simStart fun _ => 0) t [1, 2] ∧
    WholeSession (simPlatform 4 [(.done, 1, [1, 2])]) (beginFrame espFlashDeflBegin 2 0)
      (simStart fun _ => 0) t' [1, 2] ∧ t'.world.content = t.world.content := by
  obtain ⟨t, plain⟩ := simPlatform_plainSession
  obtain ⟨t', compressed⟩ := simPlatform_compressedSession
  exact ⟨t, t', plain, compressed, (flash_sessions_agree
    (simPlatform_onChip [] (by decide) (by decide) (by decide))
    (simPlatform_onChip [(.done, 1, [1, 2])] (by decide) (by decide) (by decide))
    plain compressed rfl rfl).1⟩

/-- The data that SPI_FLASH_MD5 answers with. -/
def md5Response (digest : List UInt8) : ResponseData where
  data := Memory.ofList digest
  dataSize := 16

theorem returns_spiFlashMd5 {chip : Nat} (contract : Md5Contract env content chip)
    (hash : Incremental env.md5) {ctx : CmdCtx} (fits : ctx.md5Addr + ctx.md5ReadSize ≤ chip)
    {r : Int × CommandResponseData C} (run : (spiFlashMd5 env ctx).Returns s r t)
    (good : r.1 = responseSuccess) :
    r.2.toResponseData = md5Response (env.md5.final (env.md5.update env.md5.init
      ((content s.world).read ctx.md5Addr ctx.md5ReadSize))) := by
  have size : ctx.packetSize = spiFlashMd5Size := by
    by_contra wrong
    rw [spiFlashMd5, if_pos wrong, Prog.returns_pure] at run
    rw [run.1] at good
    have bad : responseBadDataLen ≠ responseSuccess := by decide
    exact bad good
  rw [spiFlashMd5_eq env size, Prog.returns_bind] at run
  obtain ⟨result, u, loop, rest⟩ := run
  have whole : (Prog.loop (md5Step env) (.start env ctx)).Ensures s (fun _ => True)
      fun result _ => ∃ new, Md5Result env content ctx s new result := by
    apply Prog.Ensures.loop (fun l v => ∃ new, Md5Locals.Hashed env content chip ctx s new l v)
      (fun _ _ _ => trivial) ?_ ⟨[], .start contract hash ctx fits s⟩
    rintro l v ⟨new, hashed⟩
    apply Prog.Ensures.of_returns
    intro r w step
    have next := hashed.round contract hash fits (returns_md5Step env step)
    cases r with
    | inl l' => exact next.1
    | inr result =>
      obtain ⟨new', -, -, correct⟩ := next
      exact ⟨new', correct⟩
  obtain ⟨rfl, -⟩ := (Prog.returns_pure _ _ _ _).mp rest
  obtain ⟨new, correct⟩ := whole.2 result u loop
  cases correct with
  | failed =>
    have bad : responseFailedSpiOp ≠ responseSuccess := by decide
    exact absurd good bad
  | digest reads bytes =>
    rw [bytes]
    rfl

/-- After a session, plain or compressed, the host gets the digest of the image it meant to write,
if it asks for that region and gets an answer at all. -/
theorem flash_session_verifies (on : OnChip env content sector f s)
    (h : WholeSession env f s t image) {chip : Nat} (contract : Md5Contract env content chip)
    (hash : Incremental env.md5) {m : Frame}
    (opcode : Opcode.ofByte m.ctx.command = .spiFlashMd5)
    (addr : m.ctx.md5Addr = f.ctx.beginOffset) (readSize : m.ctx.md5ReadSize = f.ctx.beginTotal)
    (fits : f.ctx.beginOffset + f.ctx.beginTotal ≤ chip) {u : StubState W D S C}
    (run : (handleCommand env m.buffer m.size).Returns t () u) (success : AnsweredSuccess t u) :
    u.sent = t.sent ++ [responseFrame m.ctx.command responseSuccess
      (some (md5Response (env.md5.final (env.md5.update env.md5.init image))))] := by
  obtain ⟨accumulated, idle, -, -⟩ := h.leaves on
  obtain ⟨r, v, handled, good, processed⟩ := success.handled env (accumulated ▸ isCode_success)
    (builtIn_of_eq opcode (by simp)) (by simp [opcode]) run
  have spec := (ensures_dispatch m.ctx t (builtIn_of_eq opcode (by simp))).2 r v handled.returns
  have pending : v.pendingPostProcess = none := by
    have kept := spec.pending
    rw [if_pos good, opcode] at kept
    exact kept.trans idle
  have sent : v.sent = t.sent := by
    have kept := spec.sent
    rw [if_pos good, opcode] at kept
    exact kept.trans (List.append_nil _)
  obtain rfl := (returns_postProcess_none env (answered_idle env pending) u).mp processed
  have dispatched := handled.returns
  rw [opcode] at dispatched
  have digest := returns_spiFlashMd5 contract hash (by omega) dispatched good
  have region : (content t.world).read m.ctx.md5Addr m.ctx.md5ReadSize = image := by
    rw [addr, readSize]
    exact h.stored on
  rw [region] at digest
  rw [StubState.answered, if_pos good, digest]
  exact congrArg (· ++ _) sent

theorem simPlatform_md5 (sector : Nat) (script : List SimInflate) :
    Md5Contract (simPlatform sector script) SimWorld.content (2 ^ 32 - 4) where
  toWordRounding := simLib_wordRounding sector
  size := by decide
  read _ _ _ _ _ _ _ good := (Option.some.inj good).symm
  keepsRead _ _ _ := rfl

theorem flash_session_verifies_two_bytes : ∃ t u,
    WholeSession (simPlatform 4 []) (beginFrame espFlashBegin 2 0) (simStart fun _ => 0) t [1, 2] ∧
    (handleCommand (simPlatform 4 []) (md5Frame 0 2).buffer (md5Frame 0 2).size).Returns t () u ∧
    u.sent = t.sent ++ [responseFrame (md5Frame 0 2).ctx.command responseSuccess
      (some (md5Response (simMd5.final (simMd5.update simMd5.init [1, 2]))))] := by
  obtain ⟨t, u, run, next, success⟩ : ∃ t u, AllSucceed (simPlatform 4 [])
      (beginFrame espFlashBegin 2 0 ::
        ([dataFrame espFlashData 0 [1, 2]] ++ [endFrame espFlashEnd])) (simStart fun _ => 0) t ∧
      (handleCommand (simPlatform 4 []) (md5Frame 0 2).buffer (md5Frame 0 2).size).Returns t () u ∧
      AnsweredSuccess t u :=
    ⟨_, _, ⟨_, ⟨20, _, rfl⟩, ⟨_, [], rfl, rfl⟩, _, ⟨20, _, rfl⟩, ⟨_, [], rfl, rfl⟩,
      _, ⟨20, _, rfl⟩, ⟨_, [], rfl, rfl⟩, rfl⟩, ⟨20, _, rfl⟩, ⟨_, [], rfl, rfl⟩⟩
  have session : WholeSession (simPlatform 4 []) (beginFrame espFlashBegin 2 0)
      (simStart fun _ => 0) t [1, 2] := .plain rfl (List.forall_mem_singleton.mpr rfl) rfl run
  exact ⟨t, u, session, next, flash_session_verifies
    (simPlatform_onChip [] (by decide) (by decide) (by decide)) session (simPlatform_md5 4 [])
    simMd5_incremental (by decide) (by decide) (by decide) (by decide) next success⟩

end Image

end FlasherStub
