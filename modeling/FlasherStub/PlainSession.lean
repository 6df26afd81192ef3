import FlasherStub.Content
import FlasherStub.ResponseCode

/-! The uncompressed session from BEGIN to END. Each block is written after its
command was answered, so a failed write shows in a later answer; if all answers
are success, the chip holds the image and nothing around it has changed. -/

namespace FlasherStub

open ByteMemory Budget

variable {W D H S C : Type} (env : Platform W D H S C)

/-- The data of a FLASH_DATA frame, without its header. -/
def Frame.payload (f : Frame) : List UInt8 :=
  f.ctx.mem.read (f.ctx.data + flashDataHeaderSize) (f.ctx.packetSize - flashDataHeaderSize)

/-- The frames are handled one after the other and each is answered with success. -/
def AllSucceed : List Frame → StubState W D S C → StubState W D S C → Prop
  | [], s, t => t = s
  | f :: frames, s, t => ∃ u, (handleCommand env f.buffer f.size).Returns s () u ∧
      AnsweredSuccess s u ∧ AllSucceed frames u t

variable {env} in
theorem allSucceed_append {xs ys : List Frame} {s t : StubState W D S C}
    (run : AllSucceed env (xs ++ ys) s t) :
    ∃ u, AllSucceed env xs s u ∧ AllSucceed env ys u t := by
  induction xs generalizing s with
  | nil => exact ⟨s, rfl, run⟩
  | cons f xs ih =>
    obtain ⟨u, handled, success, rest⟩ := run
    obtain ⟨v, first, last⟩ := ih rest
    exact ⟨v, ⟨u, handled, success, first⟩, last⟩

/-- The flag of a BEGIN payload that asks for encrypted writes. -/
def CmdCtx.beginEncrypt (ctx : CmdCtx) : Bool :=
  ctx.packetSize = flashBeginEncSize ∧ getLeToU32 ctx.mem (ctx.data + 16) ≠ 0

theorem Event.sound_of_idle {e : Event} (program : ¬ e.IsProgram) (erase : ¬ e.IsEraseStep) :
    e.Sound := by
  cases e with
  | program => exact absurd trivial program
  | read | erase => exact absurd trivial erase
  | request | store | md5Update | inflate | postProcess => exact ⟨id, nofun⟩

theorem NoProgramFailed.of_sound {tr : List Event} (sound : ∀ e ∈ tr, e.Sound) :
    NoProgramFailed tr := fun _ _ _ mem => (sound _ mem).1 rfl

/-- The invariant of a plain session in which no operation failed: `payloads`
were received so far and `tr` are the events since BEGIN. -/
structure PlainInv (sector : Nat) (ctx : CmdCtx) (payloads : List UInt8) (tr : List Event)
    (s : StubState W D S C) : Prop where
  sound : ∀ e ∈ tr, e.Sound
  image : ImageInv ctx.beginOffset ctx.beginTotal tr s
  discipline : DisciplineInv sector (ctx.regionStart sector) tr s
  laid : Laid ctx.beginOffset tr
  within : Within (ctx.regionStart sector) (ctx.regionEnd sector) tr
  start_le : ctx.regionStart sector ≤ s.flash.nextEraseAddr
  region : s.flash.nextEraseAddr + s.flash.eraseRemaining = ctx.regionEnd sector
  written : written tr = payloads.take ctx.beginTotal
  encrypt : s.flash.encrypt = false

namespace PlainInv

variable {lib : StubLib W} {sector : Nat} {ctx : CmdCtx} {payloads : List UInt8}
  {tr ext : List Event} {s t : StubState W D S C}

theorem aligned (h : PlainInv sector ctx payloads tr s) : s.Aligned sector :=
  (h.discipline.frontiers (.of_sound h.sound)).aligned

theorem idle (h : PlainInv sector ctx payloads tr s)
    (quiet : ∀ e ∈ ext, ¬ e.IsProgram ∧ ¬ e.IsEraseStep) (flash : t.flash = s.flash) :
    PlainInv sector ctx payloads (tr ++ ext) t where
  sound := List.forall_mem_append.mpr
    ⟨h.sound, fun e he => Event.sound_of_idle (quiet e he).1 (quiet e he).2⟩
  image := h.image.extend (fun e he => (quiet e he).1) (by rw [flash]) (by rw [flash])
  discipline := h.discipline.idle quiet (by rw [flash]) (by rw [flash]) (by rw [flash])
  laid := h.laid.extend fun e he => (quiet e he).1
  within := by
    refine ⟨fun first next r mem => ?_, fun addr data enc ok mem => ?_⟩
    · obtain mem | mem := List.mem_append.mp mem
      · exact h.within.1 first next r mem
      · exact absurd trivial (quiet _ mem).2
    · obtain mem | mem := List.mem_append.mp mem
      · exact h.within.2 addr data enc ok mem
      · exact absurd trivial (quiet _ mem).1
  start_le := by
    rw [flash]
    exact h.start_le
  region := by
    rw [flash]
    exact h.region
  written := by
    rw [written_append, written_eq_nil fun e he => (quiet e he).1, List.append_nil, h.written]
  encrypt := by
    rw [flash]
    exact h.encrypt

theorem of_flash_eq (h : PlainInv sector ctx payloads tr s) (flash : t.flash = s.flash) :
    PlainInv sector ctx payloads tr t := by
  have same : PlainInv sector ctx payloads (tr ++ []) t := h.idle (by simp) flash
  rwa [List.append_nil] at same

theorem ahead (h : PlainInv sector ctx payloads tr s) (contract : FlashContract lib sector)
    (four : 4 ∣ sector) (ahead : EraseAhead lib True s t) (trace : t.trace = s.trace ++ ext) :
    PlainInv sector ctx payloads (tr ++ ext) t := by
  have discipline := h.discipline.ahead contract four ahead trace
  obtain ⟨n, r, d, w, ext', rfl, only, fine, advance⟩ := ahead
  obtain rfl : ext = ext' := (List.append_cancel_left trace).symm
  have moved := advance sector contract h.aligned
  have noProgram : ∀ e ∈ ext, ¬ e.IsProgram := fun e he => (only e he).not_program
  have := moved.sum
  have := moved.le
  have := h.start_le
  have := h.region
  refine ⟨?_, h.image.extend noProgram rfl rfl, discipline, h.laid.extend noProgram, ⟨?_, ?_⟩,
    ?_, ?_, ?_, h.encrypt⟩
  · refine List.forall_mem_append.mpr ⟨h.sound, fun e he => ⟨fine trivial e he, ?_⟩⟩
    rintro addr data ok rfl
    exact noProgram _ he trivial
  · intro first next result mem
    obtain mem | mem := List.mem_append.mp mem
    · exact h.within.1 first next result mem
    · have := moved.range first next result mem
      omega
  · intro addr data enc ok mem
    obtain mem | mem := List.mem_append.mp mem
    · exact h.within.2 addr data enc ok mem
    · exact absurd trivial (noProgram _ mem)
  · simp only [StubState.erased]
    omega
  · simp only [StubState.erased]
    omega
  · rw [written_append, written_eq_nil noProgram, List.append_nil, h.written]

end PlainInv

theorem CmdCtx.image_in_region (ctx : CmdCtx) {sector : Nat} (pos : 0 < sector) :
    ctx.regionStart sector ≤ ctx.beginOffset ∧
      ctx.beginOffset + ctx.beginTotal ≤ ctx.regionEnd sector :=
  ⟨Nat.div_mul_le_self _ _, le_roundUp pos _⟩

theorem PlainInv.programmed {sector : Nat} {ctx : CmdCtx} {payloads : List UInt8}
    {tr : List Event} {s : StubState W D S C} (h : PlainInv sector ctx payloads tr s)
    (pos : 0 < sector) (inChip : ctx.regionEnd sector < 2 ^ 32) (payload : List UInt8)
    (erased : s.flash.offset + (payload.take s.flash.totalRemaining).length ≤
      s.flash.nextEraseAddr) (w : W) :
    PlainInv sector ctx (payloads ++ payload)
      (tr ++ [.program s.flash.offset (payload.take s.flash.totalRemaining) s.flash.encrypt true])
      (s.programmed (payload.take s.flash.totalRemaining) w) := by
  obtain ⟨startLe, endLe⟩ := ctx.image_in_region pos
  have here := h.image.offset
  have count := h.image.count
  have fits : (payload.take s.flash.totalRemaining).length ≤ s.flash.totalRemaining := by simp
  have startMod : ctx.regionStart sector % sector = 0 := Nat.mul_mod_left _ _
  refine ⟨?_, h.image.programmed (by omega) fits w, ?_, h.laid.program here _ _, ⟨?_, ?_⟩,
    h.start_le, h.region, ?_, h.encrypt⟩
  · refine List.forall_mem_append.mpr ⟨h.sound, List.forall_mem_singleton.mpr ⟨nofun, ?_⟩⟩
    intro addr data ok same
    injection same with _ _ encrypt _
    exact absurd (encrypt.symm.trans h.encrypt) (by decide)
  · exact (h.discipline.program startMod (by omega)
      (by rw [Nat.mod_eq_of_lt (by omega)]; exact erased) w).2
  · intro first next r mem
    obtain mem | mem := List.mem_append.mp mem
    · exact h.within.1 first next r mem
    · cases List.mem_singleton.mp mem
  · intro addr data enc ok mem
    have := h.image.program_range fits mem
    omega
  · have left : s.flash.totalRemaining = ctx.beginTotal - payloads.length := by
      rw [h.written, List.length_take] at count
      omega
    rw [written_append, written_program, if_pos rfl, h.written, List.take_append, left]

theorem PlainInv.write {lib : StubLib W} {sector : Nat} {ctx : CmdCtx} {payloads : List UInt8}
    {tr : List Event} {s t : StubState W D S C} (h : PlainInv sector ctx payloads tr s)
    (contract : FlashContract lib sector) (four : 4 ∣ sector)
    (inChip : ctx.regionEnd sector < 2 ^ 32) {payload : List UInt8} {r : Int}
    (outcome : WriteOutcome lib s (payload.take s.flash.totalRemaining) r t)
    (good : r = responseSuccess) :
    ∃ ext, t.trace = s.trace ++ ext ∧ PlainInv sector ctx (payloads ++ payload) (tr ++ ext) t := by
  cases outcome with
  | stopped error => exact absurd good error
  | failed => exact absurd good (by decide)
  | @written u w ahead erased =>
    have asked : PlainInv sector ctx payloads
        (tr ++ [.request s.flash.offset (payload.take s.flash.totalRemaining).length
          s.flash.totalRemaining])
        (s.requested (payload.take s.flash.totalRemaining)) :=
      h.idle (List.forall_mem_singleton.mpr ⟨id, id⟩) rfl
    obtain ⟨n, rem, d, w', ext, hu, -⟩ := id ahead
    have cleared := asked.ahead contract four ahead (by rw [hu, StubState.erased])
    have same : u.flash.offset = s.flash.offset ∧
        u.flash.totalRemaining = s.flash.totalRemaining := by
      rw [hu]
      exact ⟨rfl, rfl⟩
    have fits : (payload.take s.flash.totalRemaining).length ≤ s.flash.totalRemaining := by simp
    obtain ⟨startLe, endLe⟩ := ctx.image_in_region contract.pos
    have here := h.image.offset
    have count := h.image.count
    rw [Nat.mod_eq_of_lt (by omega), ← same.1, ← same.2] at erased
    have programmed := cleared.programmed contract.pos inChip payload erased w
    rw [same.2] at programmed
    refine ⟨_, ?_, by rwa [List.append_assoc, List.append_assoc] at programmed⟩
    rw [StubState.programmed, hu]
    simp [StubState.erased, StubState.requested]

/-- What is kept from one command to the next of a plain session that `f` began
in `s₀`. With an error pending nothing is known: the next answer reports it. -/
structure PlainSession (content : W → Memory) (sector : Nat) (f : Frame)
    (s₀ : StubState W D S C) (payloads : List UInt8) (s : StubState W D S C) : Prop where
  code : IsCode s.accumulatedResult
  idle : s.pendingPostProcess = none
  ongoing : s.accumulatedResult = responseSuccess → Follows content s₀ s ∧
    ∃ tr, s.trace = s₀.trace ++ tr ∧ PlainInv sector f.ctx payloads tr s

variable {env} {content : W → Memory} {sector : Nat}

theorem follows_answered (nor : NorContract env content sector) (s : StubState W D S C)
    (ctx : CmdCtx) (r : Int × CommandResponseData C) : Follows content s (s.answered env ctx r) := by
  refine Follows.of_eq (answered_trace env s ctx r) ?_
  unfold StubState.answered
  split_ifs <;> exact nor.sendFrame _ _

theorem ensures_dispatch_plain_begin (contract : FlashContract env.lib sector)
    (nor : NorContract env content sector) {f : Frame} (ok : f.HeaderOk)
    (opcode : Opcode.ofByte f.ctx.command = .flashBegin)
    (inChip : f.ctx.regionEnd sector < 2 ^ 32) {s₀ : StubState W D S C}
    (idle : s₀.pendingPostProcess = none) :
    (dispatch env f.ctx (Opcode.ofByte f.ctx.command)).Ensures s₀ (fun _ => True) fun r u =>
      IsCode r.1 ∧ u.sent = s₀.sent ∧ u.pendingPostProcess = none ∧
        (r.1 = responseSuccess →
          EraseAhead env.lib True (f.begun env s₀) u ∧ Follows content (f.begun env s₀) u) := by
  by_cases size : f.ctx.packetSize = flashBeginSize ∨ f.ctx.packetSize = flashBeginEncSize
  · have begins : f.Begins := ⟨ok, .inl opcode, size⟩
    have begun := begun_aligned env contract inChip s₀
    have erased := ((gives_conditionalEraseNext env _).and
      (follows_conditionalEraseNext nor begun.1)).and
      (ensures_conditionalEraseNext env (f.begun env s₀))
    refine ensures_dispatch_begin env begins (erased.mono (fun _ _ => trivial) fun r u h => ?_)
    obtain ⟨⟨code, follows⟩, ahead⟩ := h
    refine ⟨code.isCode, ?_, ?_, fun good => ⟨ahead.mono fun _ => good, follows⟩⟩
    · obtain ⟨_, _, _, _, _, rfl, -⟩ := ahead
      rfl
    · obtain ⟨_, _, _, _, _, rfl, -⟩ := ahead
      exact idle
  · have wrong : f.ctx.packetSize ≠ flashBeginSize ∧ f.ctx.packetSize ≠ flashBeginEncSize :=
      not_or.mp size
    rw [opcode]
    refine ensures_withEmptyResponse ?_
    rw [flashBegin, initFlashOperation, if_pos wrong]
    refine Prog.Ensures.pure ⟨isCode_badDataLen, rfl, idle, fun good => ?_⟩
    exact absurd good (by decide : responseBadDataLen ≠ responseSuccess)

theorem plainSession_begin (contract : FlashContract env.lib sector)
    (nor : NorContract env content sector) (four : 4 ∣ sector) {f : Frame}
    (command : f.ctx.command = espFlashBegin) (plain : f.ctx.beginEncrypt = false)
    (inChip : f.ctx.regionEnd sector < 2 ^ 32) {s₀ t : StubState W D S C}
    (code : IsCode s₀.accumulatedResult) (idle : s₀.pendingPostProcess = none)
    (run : (handleCommand env f.buffer f.size).Returns s₀ () t) (success : AnsweredSuccess s₀ t) :
    PlainSession content sector f s₀ [] t := by
  have opcode : Opcode.ofByte f.ctx.command = .flashBegin := by
    rw [command]
    rfl
  have ok := (success.executed env code run).1
  obtain ⟨-, -, r, u, good, ⟨pending, begun⟩, processed⟩ := success.dispatched env code
    (by simp [opcode]) run (ensures_dispatch_plain_begin contract nor ok opcode inChip idle)
    fun r u h processed => ⟨[], by
      rw [(returns_postProcess_none env (answered_idle env h.1) t).mp processed, List.append_nil]⟩
  obtain ⟨ahead, follows⟩ := begun good
  have none : (u.answered env f.ctx r).pendingPostProcess = none := answered_idle env pending
  obtain rfl := (returns_postProcess_none env none t).mp processed
  obtain ⟨aligned, start, region⟩ := begun_aligned env contract inChip s₀
  have inv : PlainInv sector f.ctx [] [] (f.begun env s₀) := by
    refine ⟨by simp, ⟨rfl, Nat.zero_add _, by simp⟩, ⟨?_, fun _ => ⟨aligned, ?_, by simp, ?_⟩⟩,
      fun i b h => by simp at h, ⟨by simp, by simp⟩, start.ge, region, by simp, plain⟩
    · intro pre e post split _
      simp at split
    · exact (f.ctx.image_in_region contract.pos).1
    · intro b _ le lt
      omega
  obtain ⟨n, rem, d, w, ext, hu, -⟩ := id ahead
  have trace : u.trace = s₀.trace ++ ext := by
    rw [hu]
    rfl
  have erased := inv.ahead contract four ahead trace
  refine ⟨?_, none, fun _ => ⟨?_, ext, by rw [answered_trace, trace], ?_⟩⟩
  · rw [answered_accumulatedResult]
    exact isCode_success
  · exact (Follows.of_eq rfl rfl).trans (follows.trans (follows_answered nor u f.ctx r))
  · exact erased.of_flash_eq (answered_flash env u f.ctx r)

theorem ensures_flashData_session (ctx : CmdCtx) (s : StubState W D S C) :
    (flashData ctx).Ensures s (fun _ => True) fun r u => IsCode r ∧ u.sent = s.sent ∧
      ((u = s ∧ r ≠ responseSuccess) ∨ (u = { s with pendingPostProcess := some .flashData } ∧
        flashDataHeaderSize ≤ ctx.packetSize)) := by
  refine Prog.Ensures.bind (Prog.Ensures.get ?_)
  dsimp only
  split_ifs with short closed long sum
  · exact Prog.Ensures.pure ⟨by decide, rfl, .inl ⟨rfl, by decide⟩⟩
  · exact Prog.Ensures.pure ⟨isCode_checkFlashInProgress s, rfl, .inl ⟨rfl, closed⟩⟩
  · exact Prog.Ensures.pure ⟨by decide, rfl, .inl ⟨rfl, by decide⟩⟩
  · exact Prog.Ensures.pure ⟨isCode_validateChecksum _ _ _ _, rfl, .inl ⟨rfl, sum⟩⟩
  · exact Prog.Ensures.bind (Prog.Ensures.modify (Prog.Ensures.pure
      ⟨by decide, rfl, .inr ⟨rfl, not_lt.mp short⟩⟩))

theorem WriteOutcome.sent {lib : StubLib W} {s t : StubState W D S C} {data : List UInt8} {r : Int}
    (h : WriteOutcome lib s data r t) : t.sent = s.sent := by
  cases h with
  | stopped _ ahead =>
    obtain ⟨_, _, _, _, _, rfl, -⟩ := ahead
    rfl
  | failed _ ahead =>
    obtain ⟨_, _, _, _, _, rfl, -⟩ := ahead
    rfl
  | written _ ahead =>
    obtain ⟨_, _, _, _, _, rfl, -⟩ := ahead
    rfl

theorem ensures_plain_callback (contract : FlashContract env.lib sector)
    (nor : NorContract env content sector) {f : Frame}
    (size : flashDataHeaderSize ≤ f.ctx.packetSize) {s : StubState W D S C}
    (aligned : s.Aligned sector) :
    (flashDataPostProcess env f.ctx).Ensures s (fun _ => True) fun r t => IsCode r ∧
      WriteOutcome env.lib s (f.payload.take s.flash.totalRemaining) r t ∧ Follows content s t := by
  refine Prog.Ensures.bind (Prog.Ensures.get ?_)
  have small := getLeToU16_lt f.buffer 2
  have actual : actualDataSize f.ctx = f.ctx.packetSize - flashDataHeaderSize := by
    have : f.ctx.packetSize < 2 ^ 16 := small
    unfold actualDataSize
    omega
  have block : f.ctx.mem.read (f.ctx.data + flashDataHeaderSize)
      (min (actualDataSize f.ctx) s.flash.totalRemaining) =
        f.payload.take s.flash.totalRemaining := by
    rw [actual, min_comm, Frame.payload, Memory.take_read]
  dsimp only
  rw [block]
  exact ((gives_writeFlashData env _ s).and ((ensures_writeFlashData env _ s).and
    (follows_writeFlashData contract nor _ aligned))).mono (fun _ _ => trivial)
      fun r t h => ⟨h.1.isCode, h.2.1, h.2.2⟩

theorem PlainInv.called (contract : FlashContract env.lib sector)
    (nor : NorContract env content sector) {f g : Frame} {payloads : List UInt8} {tr : List Event}
    {s t : StubState W D S C} (inv : PlainInv sector f.ctx payloads tr s)
    {r : Int × CommandResponseData C} (good : r.1 = responseSuccess)
    (size : flashDataHeaderSize ≤ g.ctx.packetSize) {w : StubState W D S C}
    (hw : w = ({ s with pendingPostProcess := some .flashData } : StubState W D S C).answered
      env g.ctx r) (processed : (postProcess env g.ctx).Returns w () t) :
    PlainInv sector f.ctx payloads tr w ∧ ∃ e v, IsCode e ∧
      WriteOutcome env.lib w (g.payload.take w.flash.totalRemaining) e v ∧ Follows content w v ∧
        t = v.afterCallback e := by
  have pending : w.pendingPostProcess = some .flashData := by
    rw [hw, StubState.answered, if_pos good]
    rfl
  have here : PlainInv sector f.ctx payloads tr w := inv.of_flash_eq (by rw [hw, answered_flash])
  obtain ⟨e, v, returned, rfl⟩ := (returns_postProcess_some env pending t).mp processed
  obtain ⟨code, outcome, next⟩ :=
    (ensures_plain_callback contract nor size here.aligned).2 e v returned
  exact ⟨here, e, v, code, outcome, next, rfl⟩

/-- An accepted block is answered and written, and nothing else comes between. -/
theorem follows_block (nor : NorContract env content sector) {g : Frame} {s v : StubState W D S C}
    (r : Int × CommandResponseData C) (e : Int)
    (written : Follows content
      (({ s with pendingPostProcess := some .flashData } : StubState W D S C).answered env g.ctx r)
      v) : Follows content s (v.afterCallback e) := by
  have registered : Follows content s
      ({ s with pendingPostProcess := some .flashData } : StubState W D S C) :=
    Follows.of_eq rfl rfl
  have last : Follows content v (v.afterCallback e) :=
    Follows.silent (e := .postProcess e) rfl rfl rfl
  have answered := registered.trans (follows_answered nor _ g.ctx r)
  exact answered.trans (written.trans last)

theorem plainSession_data (contract : FlashContract env.lib sector)
    (nor : NorContract env content sector) (four : 4 ∣ sector) {f g : Frame}
    (inChip : f.ctx.regionEnd sector < 2 ^ 32) (command : g.ctx.command = espFlashData)
    {s₀ s t : StubState W D S C} {payloads : List UInt8}
    (session : PlainSession content sector f s₀ payloads s)
    (run : (handleCommand env g.buffer g.size).Returns s () t) (success : AnsweredSuccess s t) :
    PlainSession content sector f s₀ (payloads ++ g.payload) t := by
  have opcode : Opcode.ofByte g.ctx.command = .flashData := by
    rw [command]
    rfl
  obtain ⟨-, clear, -⟩ := success.executed env session.code run
  obtain ⟨follows, tr, trace, inv⟩ := session.ongoing clear
  obtain ⟨-, -, r, u, good, handled, processed⟩ := success.dispatched env session.code
    (by simp [opcode]) run (P := fun r u => (u = s ∧ r.1 ≠ responseSuccess) ∨
      (u = { s with pendingPostProcess := some .flashData } ∧
        flashDataHeaderSize ≤ g.ctx.packetSize))
    (by
      rw [opcode]
      exact ensures_withEmptyResponse (ensures_flashData_session g.ctx s))
    (by
      intro r u handled processed
      by_cases good : r.1 = responseSuccess
      · obtain ⟨-, error⟩ | ⟨rfl, size⟩ := handled
        · exact absurd good error
        · obtain ⟨-, e, v, -, outcome, -, rfl⟩ := inv.called contract nor good size rfl processed
          exact ⟨[], by rw [List.append_nil]; exact outcome.sent⟩
      · have none : (u.answered env g.ctx r).pendingPostProcess = none := by
          rw [StubState.answered, if_neg good]
        rw [(returns_postProcess_none env none t).mp processed]
        exact ⟨[], (List.append_nil _).symm⟩)
  obtain ⟨-, error⟩ | ⟨rfl, size⟩ := handled
  · exact absurd good error
  · obtain ⟨here, e, v, code, outcome, next, rfl⟩ := inv.called contract nor good size rfl processed
    refine ⟨code, rfl, fun written => ?_⟩
    obtain ⟨ext, grown, after⟩ := here.write contract four inChip outcome written
    rw [answered_trace] at grown
    refine ⟨follows.trans (follows_block nor r e next), tr ++ ext ++ [.postProcess e], ?_, ?_⟩
    · rw [StubState.afterCallback, grown, trace]
      simp
    · exact after.idle (List.forall_mem_singleton.mpr ⟨id, id⟩) rfl

theorem ensures_flashEnd (ctx : CmdCtx) (s : StubState W D S C) :
    (flashEnd env ctx).Ensures s (fun _ => True) fun r u => IsCode r ∧ u.sent = s.sent ∧
      u.pendingPostProcess = s.pendingPostProcess ∧ u.trace = s.trace ∧ u.world = s.world ∧
        (r = responseSuccess → s.flash.totalRemaining = 0) := by
  refine Prog.Ensures.bind (Prog.Ensures.get ?_)
  split_ifs with size closed left
  · exact Prog.Ensures.pure ⟨isCode_badDataLen, rfl, rfl, rfl, rfl, fun h => absurd h (by decide)⟩
  · exact Prog.Ensures.pure
      ⟨isCode_checkFlashInProgress s, rfl, rfl, rfl, rfl, fun h => absurd h closed⟩
  · exact Prog.Ensures.pure ⟨isCode_badDataLen, rfl, rfl, rfl, rfl, fun h => absurd h (by decide)⟩
  · exact Prog.Ensures.bind (Prog.Ensures.modify (Prog.Ensures.pure
      ⟨isCode_success, rfl, rfl, rfl, rfl, fun _ => not_not.mp left⟩))

theorem plainSession_end {f g : Frame} (nor : NorContract env content sector)
    (command : g.ctx.command = espFlashEnd) {s₀ s t : StubState W D S C} {payloads : List UInt8}
    (session : PlainSession content sector f s₀ payloads s)
    (run : (handleCommand env g.buffer g.size).Returns s () t) (success : AnsweredSuccess s t) :
    Follows content s₀ t ∧ ∃ tr, t.trace = s₀.trace ++ tr ∧ PlainInv sector f.ctx payloads tr s ∧
      s.flash.totalRemaining = 0 := by
  have opcode : Opcode.ofByte g.ctx.command = .flashEnd := by
    rw [command]
    rfl
  obtain ⟨-, clear, r, u, good, ⟨pending, trace, world, left⟩, processed⟩ :=
    success.dispatched env session.code (by simp [opcode]) run
    (P := fun r u => u.pendingPostProcess = s.pendingPostProcess ∧ u.trace = s.trace ∧
      u.world = s.world ∧ (r.1 = responseSuccess → s.flash.totalRemaining = 0))
    (by
      rw [opcode]
      exact ensures_withEmptyResponse (ensures_flashEnd g.ctx s))
    (fun r u h processed => ⟨[], by
      rw [(returns_postProcess_none env (answered_idle env (h.1.trans session.idle)) t).mp processed,
        List.append_nil]⟩)
  obtain ⟨follows, tr, before, inv⟩ := session.ongoing clear
  obtain rfl := (returns_postProcess_none env
    (answered_idle env (pending.trans session.idle)) t).mp processed
  have closed : Follows content s u := Follows.of_eq trace (by rw [world])
  exact ⟨follows.trans (closed.trans (follows_answered nor u g.ctx r)), tr,
    by rw [answered_trace, trace, before], inv, left good⟩

theorem plainSession_blocks (contract : FlashContract env.lib sector)
    (nor : NorContract env content sector) (four : 4 ∣ sector) {f g : Frame}
    (inChip : f.ctx.regionEnd sector < 2 ^ 32) (last : g.ctx.command = espFlashEnd)
    {datas : List Frame} (data : ∀ d ∈ datas, d.ctx.command = espFlashData)
    {s₀ s t : StubState W D S C} {payloads : List UInt8}
    (session : PlainSession content sector f s₀ payloads s)
    (run : AllSucceed env (datas ++ [g]) s t) :
    Follows content s₀ t ∧ ∃ tr, ∃ u : StubState W D S C, t.trace = s₀.trace ++ tr ∧
      PlainInv sector f.ctx (payloads ++ datas.flatMap Frame.payload) tr u ∧
        u.flash.totalRemaining = 0 := by
  induction datas generalizing s payloads with
  | nil =>
    obtain ⟨u, handled, success, rfl⟩ := run
    obtain ⟨follows, tr, trace, inv, left⟩ := plainSession_end nor last session handled success
    refine ⟨follows, tr, s, trace, ?_, left⟩
    rwa [List.flatMap_nil, List.append_nil]
  | cons d datas ih =>
    obtain ⟨u, handled, success, rest⟩ := run
    have next := plainSession_data contract nor four inChip (data d (by simp)) session handled
      success
    rw [List.flatMap_cons, ← List.append_assoc]
    exact ih (fun d hd => data d (by simp [hd])) next rest

variable (env) in
/-- If BEGIN, all blocks and END are answered with success, the blocks hold the
image, the chip holds it too, nothing outside of its sectors has changed and no
flash operation has failed. -/
theorem plain_session_end_to_end (contract : FlashContract env.lib sector)
    (nor : NorContract env content sector) (four : 4 ≤ sector) {f g : Frame} {datas : List Frame}
    (first : f.ctx.command = espFlashBegin) (plain : f.ctx.beginEncrypt = false)
    (data : ∀ d ∈ datas, d.ctx.command = espFlashData) (last : g.ctx.command = espFlashEnd)
    (inChip : f.ctx.regionEnd sector < 2 ^ 32) {s₀ t : StubState W D S C}
    (code : IsCode s₀.accumulatedResult) (idle : s₀.pendingPostProcess = none)
    (run : AllSucceed env (f :: (datas ++ [g])) s₀ t) :
    f.ctx.beginTotal ≤ (datas.flatMap Frame.payload).length ∧
      (content t.world).read f.ctx.beginOffset f.ctx.beginTotal =
        (datas.flatMap Frame.payload).take f.ctx.beginTotal ∧
      (∀ a, a < f.ctx.regionStart sector ∨ f.ctx.regionEnd sector ≤ a →
        content t.world a = content s₀.world a) ∧
      ∃ tr, t.trace = s₀.trace ++ tr ∧ ∀ e ∈ tr, ¬ e.Failed := by
  have dvd : 4 ∣ sector := contract.four_dvd four
  obtain ⟨s₁, begun, success, rest⟩ := run
  have session := plainSession_begin contract nor dvd first plain inChip code idle begun success
  obtain ⟨follows, tr, u, trace, inv, left⟩ :=
    plainSession_blocks contract nor dvd inChip last data session rest
  rw [List.nil_append] at inv
  have count := inv.image.count
  rw [left, inv.written, List.length_take] at count
  have run : Nor.Run (content s₀.world) (tr.filterMap Event.op) (content t.world) := by
    obtain ⟨tr', trace', run⟩ := follows
    rw [trace, List.append_cancel_left_eq] at trace'
    subst trace'
    exact run inv.sound
  have stored := inv.discipline.disciplined.content (.of_sound inv.sound) contract.pos inv.laid run
  rw [inv.written, List.length_take, min_eq_left (by omega)] at stored
  exact ⟨by omega, stored, fun a outside => inv.within.content run outside, tr, trace,
    fun e he => (inv.sound e he).1⟩

theorem plain_session_two_bytes :
    ∃ t, AllSucceed (simPlatform 4 []) [beginFrame espFlashBegin 2 0,
        dataFrame espFlashData 0 [1, 2], endFrame espFlashEnd] (simStart fun _ => 0) t ∧
      t.world.content.read 0 2 = [1, 2] := by
  obtain ⟨t, run⟩ : ∃ t, AllSucceed (simPlatform 4 []) (beginFrame espFlashBegin 2 0 ::
      ([dataFrame espFlashData 0 [1, 2]] ++ [endFrame espFlashEnd])) (simStart fun _ => 0) t :=
    ⟨_, _, ⟨20, _, rfl⟩, ⟨_, [], rfl, rfl⟩, _, ⟨20, _, rfl⟩, ⟨_, [], rfl, rfl⟩,
      _, ⟨20, _, rfl⟩, ⟨_, [], rfl, rfl⟩, rfl⟩
  obtain ⟨-, stored, -⟩ := plain_session_end_to_end (simPlatform 4 [])
    (simLib_contract (k := 2) (by decide)) (simPlatform_nor 4 []) (by decide)
    rfl (by decide)
    (List.forall_mem_singleton.mpr rfl) rfl (by decide) isCode_success rfl run
  exact ⟨t, run, stored⟩

end FlasherStub
