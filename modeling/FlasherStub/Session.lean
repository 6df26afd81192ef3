import FlasherStub.EraseAhead
import FlasherStub.HandleCommand
import Mathlib.Logic.Relation

/-! A flash session as a transition system. Between BEGIN and END the data
commands move the session by three kinds of steps: erasing ahead, writing a
block, and steps that leave the flash counters and the flash alone. -/

namespace FlasherStub

open ByteMemory Budget

variable {W D H S C : Type} (env : Platform W D H S C)

def StubState.requested (s : StubState W D S C) (data : List UInt8) : StubState W D S C :=
  { s with trace :=
      s.trace ++ [.request s.flash.offset data.length s.flash.totalRemaining] }

def StubState.programFailed (s : StubState W D S C) (data : List UInt8) (w : W) :
    StubState W D S C :=
  { s with
    world := w
    trace := s.trace ++ [.program s.flash.offset data s.flash.encrypt false] }

def StubState.programmed (s : StubState W D S C) (data : List UInt8) (w : W) :
    StubState W D S C :=
  { s with
    flash := { s.flash with
      totalRemaining := sub32 s.flash.totalRemaining data.length
      offset := (s.flash.offset + data.length) % 2 ^ 32 }
    world := w
    trace := s.trace ++ [.program s.flash.offset data s.flash.encrypt true] }

@[simp] theorem programmed_nextEraseAddr (s : StubState W D S C) (data : List UInt8) (w : W) :
    (s.programmed data w).flash.nextEraseAddr = s.flash.nextEraseAddr := rfl

@[simp] theorem programmed_eraseRemaining (s : StubState W D S C) (data : List UInt8) (w : W) :
    (s.programmed data w).flash.eraseRemaining = s.flash.eraseRemaining := rfl

/-- How a call of `s_write_flash_data` can end, or where it can stand. -/
inductive WriteOutcome (lib : StubLib W) (s : StubState W D S C) (data : List UInt8) :
    Int → StubState W D S C → Prop where
  /-- on the way to, or without, the erased sectors it needs -/
  | stopped {r t} (error : r ≠ responseSuccess)
      (ahead : EraseAhead lib False (s.requested data) t) : WriteOutcome lib s data r t
  | failed {u} (w : W) (ahead : EraseAhead lib True (s.requested data) u)
      (erased : (s.flash.offset + data.length) % 2 ^ 32 ≤ u.flash.nextEraseAddr) :
      WriteOutcome lib s data responseFailedSpiOp (u.programFailed data w)
  | written {u} (w : W) (ahead : EraseAhead lib True (s.requested data) u)
      (erased : (s.flash.offset + data.length) % 2 ^ 32 ≤ u.flash.nextEraseAddr) :
      WriteOutcome lib s data responseSuccess (u.programmed data w)

theorem EraseAhead.offset {lib : StubLib W} {ok : Prop} {s t : StubState W D S C}
    (h : EraseAhead lib ok s t) : t.flash.offset = s.flash.offset := by
  obtain ⟨_, _, _, _, _, rfl, -⟩ := h
  rfl

theorem ensures_writeFlashData (data : List UInt8) (s : StubState W D S C) :
    (writeFlashData env data).Ensures s (EraseAhead env.lib False (s.requested data))
      (WriteOutcome env.lib s data) := by
  refine Prog.Ensures.bind (Prog.Ensures.get (Prog.Ensures.bind (Prog.Ensures.modify ?_)))
  refine Prog.Ensures.bind ((ensures_ensureFlashErasedTo env _ _).post fun r t h => ?_)
  obtain ⟨ahead, reached⟩ := h
  split_ifs with error
  · exact Prog.Ensures.pure (.stopped error (ahead.mono False.elim))
  · have good : r = responseSuccess := not_not.mp error
    have ahead := ahead.mono fun _ : True => good
    refine Prog.Ensures.bind (Prog.Ensures.get (Prog.Ensures.bind (Prog.Ensures.act ?_)))
    generalize hwrite : env.lib.flashWriteBuff t.flash.offset data t.flash.encrypt t.world = written
    obtain ⟨result, w⟩ := written
    dsimp only
    split_ifs with refused
    · refine Prog.Ensures.pure ?_
      rw [decide_eq_false refused]
      exact .failed w ahead (reached good)
    · refine Prog.Ensures.bind (Prog.Ensures.modify (Prog.Ensures.pure ?_))
      rw [decide_eq_true (not_not.mp refused)]
      exact .written w ahead (reached good)

/-- Events that are no flash operations. -/
def Event.IsQuiet : Event → Prop
  | .inflate _ _ _ | .postProcess _ => True
  | _ => False

structure QuietStep (s t : StubState W D S C) : Prop where
  offset : t.flash.offset = s.flash.offset
  totalRemaining : t.flash.totalRemaining = s.flash.totalRemaining
  nextEraseAddr : t.flash.nextEraseAddr = s.flash.nextEraseAddr
  eraseRemaining : t.flash.eraseRemaining = s.flash.eraseRemaining
  trace : ∃ tr, t.trace = s.trace ++ tr ∧ ∀ e ∈ tr, e.IsQuiet

theorem QuietStep.of_eq {s t : StubState W D S C} (flash : t.flash = s.flash)
    (trace : t.trace = s.trace) : QuietStep s t := by
  refine ⟨?_, ?_, ?_, ?_, [], ?_, by simp⟩
  · rw [flash]
  · rw [flash]
  · rw [flash]
  · rw [flash]
  · rw [trace, List.append_nil]

inductive SessionStep (lib : StubLib W) (s : StubState W D S C) : StubState W D S C → Prop where
  | quiet {t} (h : QuietStep s t) : SessionStep lib s t
  | erase {t} (h : EraseAhead lib False s t) : SessionStep lib s t
  | write {data r t} (h : WriteOutcome lib s data r t) : SessionStep lib s t

abbrev SessionSteps (lib : StubLib W) : StubState W D S C → StubState W D S C → Prop :=
  Relation.ReflTransGen (SessionStep lib)

theorem SessionStep.steps {lib : StubLib W} {s t : StubState W D S C}
    (h : SessionStep lib s t) : SessionSteps lib s t := .single h

theorem SessionSteps.of_eq {lib : StubLib W} {s t : StubState W D S C} (flash : t.flash = s.flash)
    (trace : t.trace = s.trace) : SessionSteps lib s t :=
  (SessionStep.quiet (.of_eq flash trace)).steps

theorem SessionSteps.invariant {lib : StubLib W} {inv : StubState W D S C → Prop}
    {s t : StubState W D S C} (run : SessionSteps lib s t) (start : inv s)
    (step : ∀ s t, inv s → SessionStep lib s t → inv t) : inv t := by
  induction run with
  | refl => exact start
  | tail _ next ih => exact step _ _ ih next

theorem EraseAhead.trace {lib : StubLib W} {ok : Prop} {s t : StubState W D S C}
    (h : EraseAhead lib ok s t) : ∃ ext, t.trace = s.trace ++ ext := by
  obtain ⟨_, _, _, _, ext, rfl, -⟩ := h
  exact ⟨ext, rfl⟩

theorem WriteOutcome.trace {lib : StubLib W} {s t : StubState W D S C} {data : List UInt8} {r : Int}
    (h : WriteOutcome lib s data r t) : ∃ ext, t.trace = s.trace ++ ext := by
  cases h with
  | stopped _ ahead | failed _ ahead | written _ ahead =>
    obtain ⟨ext, grown⟩ := ahead.trace
    simp only [StubState.programFailed, StubState.programmed, grown, StubState.requested,
      List.append_assoc]
    exact ⟨_, rfl⟩

theorem SessionSteps.trace {lib : StubLib W} {s t : StubState W D S C} (run : SessionSteps lib s t) :
    ∃ ext, t.trace = s.trace ++ ext := by
  induction run with
  | refl => exact ⟨[], (List.append_nil _).symm⟩
  | @tail u v _ step ih =>
    obtain ⟨ext, before⟩ := ih
    have next : ∃ more, v.trace = u.trace ++ more := by
      cases step with
      | quiet quiet =>
        obtain ⟨more, grown, -⟩ := quiet.trace
        exact ⟨more, grown⟩
      | erase ahead => exact ahead.trace
      | write outcome => exact outcome.trace
    obtain ⟨more, grown⟩ := next
    exact ⟨ext ++ more, by rw [grown, before, List.append_assoc]⟩

theorem keeps_quiet {α : Type} {lib : StubLib W} {f : StubState W D S C → α × StubState W D S C}
    (h : ∀ s, QuietStep s (f s).2) : (Prog.act f).Keeps (SessionSteps lib) :=
  Prog.keeps_act fun s => (SessionStep.quiet (h s)).steps

theorem keeps_sendResponse (command : Nat) (code : Int) (resp : Option ResponseData) :
    (sendResponse env command code resp : Stub W D S C Unit).Keeps (SessionSteps env.lib) :=
  keeps_quiet fun _ => .of_eq rfl rfl

theorem keeps_setAccumulatedResult {lib : StubLib W} (code : Int) :
    (setAccumulatedResult code : Stub W D S C Unit).Keeps (SessionSteps lib) :=
  keeps_quiet fun _ => .of_eq rfl rfl

theorem keeps_writeFlashData (data : List UInt8) :
    (writeFlashData env data : Stub W D S C Int).Keeps (SessionSteps env.lib) := fun s =>
  (ensures_writeFlashData env data s).mono
    (fun _ h =>
      (SessionStep.write (.stopped (by decide : responseFailedSpiOp ≠ responseSuccess) h)).steps)
    fun _ _ h => (SessionStep.write h).steps

theorem keeps_conditionalEraseNext :
    (conditionalEraseNext env : Stub W D S C Int).Keeps (SessionSteps env.lib) := fun s =>
  (ensures_conditionalEraseNext env s).mono (fun _ h => (SessionStep.erase h).steps)
    fun _ _ h => (SessionStep.erase (h.mono False.elim)).steps

theorem keeps_flashDataPostProcess (ctx : CmdCtx) :
    (flashDataPostProcess env ctx : Stub W D S C Int).Keeps (SessionSteps env.lib) :=
  Prog.keeps_get.bind fun _ => keeps_writeFlashData env _

theorem QuietStep.of_inflated (s : StubState W D S C) (window : Memory) (ptr : Nat) (d : D)
    (left : Nat) {e : Event} (quiet : e.IsQuiet) :
    QuietStep s { s with
      decompressedData := window
      decompressedDataPtr := ptr
      flash := { s.flash with decompressor := d, compressedRemaining := left }
      trace := s.trace ++ [e] } :=
  ⟨rfl, rfl, rfl, rfl, [e], rfl, List.forall_mem_singleton.mpr quiet⟩

theorem keeps_inflate (input : List UInt8) (outBytes : Nat) (flags : TinflFlags) :
    (inflate env input outBytes flags : Stub W D S C (TinflResult D)).Keeps
      (SessionSteps env.lib) :=
  keeps_quiet fun s => .of_inflated s _ _ _ _ trivial

theorem keeps_flushWindow : (flushWindow env : Stub W D S C Int).Keeps (SessionSteps env.lib) := by
  refine Prog.keeps_get.bind fun s => (keeps_writeFlashData env _).bind fun r => ?_
  refine Prog.keeps_ite (Prog.keeps_pure r) ?_
  exact (keeps_quiet fun _ => .of_eq rfl rfl).bind fun _ => Prog.keeps_pure _

theorem keeps_deflDataStep (ctx : CmdCtx) (dataSize : Nat) (l : DeflLocals) :
    (deflDataStep env ctx dataSize l : Stub W D S C (DeflLocals ⊕ Int)).Keeps
      (SessionSteps env.lib) := by
  refine Prog.keeps_ite ?_ (Prog.keeps_ite (Prog.keeps_pure _) (Prog.keeps_pure _))
  refine Prog.keeps_get.bind fun s => (keeps_conditionalEraseNext env).bind fun r => ?_
  refine Prog.keeps_ite (Prog.keeps_pure _) ?_
  refine (keeps_inflate env _ _ _).bind fun inflated => Prog.keeps_get.bind fun s => ?_
  refine Prog.keeps_ite ?_ (Prog.keeps_pure _)
  exact (keeps_flushWindow env).bind fun r => Prog.keeps_ite (Prog.keeps_pure _) (Prog.keeps_pure _)

theorem keeps_flashDeflDataPostProcess (ctx : CmdCtx) :
    (flashDeflDataPostProcess env ctx : Stub W D S C Int).Keeps (SessionSteps env.lib) := by
  unfold flashDeflDataPostProcess
  dsimp only
  split_ifs
  · exact (keeps_quiet fun _ => .of_eq rfl rfl).bind fun _ =>
      Prog.keeps_loop (keeps_deflDataStep env ctx _) _
  · exact Prog.keeps_loop (keeps_deflDataStep env ctx _) _

/-- The frame carries FLASH_DATA or FLASH_DEFL_DATA. -/
def Frame.IsData (f : Frame) : Prop :=
  Opcode.ofByte f.ctx.command = .flashData ∨ Opcode.ofByte f.ctx.command = .flashDeflData

def PostProcess.IsData : PostProcess C → Prop
  | .flashData | .flashDeflData => True
  | _ => False

/-- A handler registers the callback `p` or fails. -/
def Registered (p : PostProcess C) (s : StubState W D S C) (r : Int) (t : StubState W D S C) :
    Prop :=
  (r ≠ responseSuccess ∧ t = s) ∨ t = { s with pendingPostProcess := some p }

theorem registered_flashData (ctx : CmdCtx) (s : StubState W D S C)
    {always : StubState W D S C → Prop} :
    (flashData ctx).Ensures s always (Registered .flashData s) := by
  refine Prog.Ensures.bind (Prog.Ensures.get ?_)
  dsimp only
  split_ifs with short closed long sum
  · exact Prog.Ensures.pure (.inl ⟨by decide, rfl⟩)
  · exact Prog.Ensures.pure (.inl ⟨closed, rfl⟩)
  · exact Prog.Ensures.pure (.inl ⟨by decide, rfl⟩)
  · exact Prog.Ensures.pure (.inl ⟨sum, rfl⟩)
  · exact Prog.Ensures.bind (Prog.Ensures.modify (Prog.Ensures.pure (.inr rfl)))

theorem registered_flashDeflData (ctx : CmdCtx) (s : StubState W D S C)
    {always : StubState W D S C → Prop} :
    (flashDeflData ctx).Ensures s always (Registered .flashDeflData s) := by
  refine Prog.Ensures.bind (Prog.Ensures.get ?_)
  dsimp only
  split_ifs with short closed sum
  · exact Prog.Ensures.pure (.inl ⟨by decide, rfl⟩)
  · exact Prog.Ensures.pure (.inl ⟨closed, rfl⟩)
  · exact Prog.Ensures.pure (.inl ⟨sum, rfl⟩)
  · exact Prog.Ensures.bind (Prog.Ensures.modify (Prog.Ensures.pure (.inr rfl)))

theorem ensures_dispatch_data {f : Frame} (data : f.IsData) (s : StubState W D S C)
    {always : StubState W D S C → Prop} :
    (dispatch env f.ctx (Opcode.ofByte f.ctx.command)).Ensures s always
      fun r t => ∃ p : PostProcess C, p.IsData ∧ Registered p s r.1 t := by
  obtain opcode | opcode := data
  · rw [opcode]
    exact ensures_withEmptyResponse ((registered_flashData f.ctx s).post
      fun r t h => ⟨.flashData, trivial, h⟩)
  · rw [opcode]
    exact ensures_withEmptyResponse ((registered_flashDeflData f.ctx s).post
      fun r t h => ⟨.flashDeflData, trivial, h⟩)

theorem ensures_answer_data {f : Frame} (data : f.IsData) (s : StubState W D S C)
    {always : StubState W D S C → Prop} :
    (answer env f.ctx).Ensures s always fun _ t =>
      SessionSteps env.lib s t ∧ ∀ p, t.pendingPostProcess = some p → p.IsData := by
  refine ensures_answer env ((ensures_dispatch_data env data s).post fun r t registered => ?_)
  unfold StubState.answered
  obtain ⟨p, hp, ⟨error, rfl⟩ | rfl⟩ := registered
  · rw [if_neg error]
    exact ⟨.of_eq rfl rfl, by simp⟩
  · split_ifs
    · refine ⟨.of_eq rfl rfl, fun q hq => ?_⟩
      obtain rfl := Option.some.inj hq
      exact hp
    · exact ⟨.of_eq rfl rfl, by simp⟩

theorem keeps_runPostProcess (ctx : CmdCtx) {p : PostProcess C} (data : p.IsData) :
    (runPostProcess env ctx p : Stub W D S C Int).Keeps (SessionSteps env.lib) := by
  cases p with
  | flashData => exact keeps_flashDataPostProcess env ctx
  | flashDeflData => exact keeps_flashDeflDataPostProcess env ctx
  | memEnd | changeBaudrate | readFlash | plugin => exact data.elim

theorem ensures_postProcess_data (ctx : CmdCtx) (s : StubState W D S C)
    (data : ∀ p, s.pendingPostProcess = some p → p.IsData) :
    (postProcess env ctx).Ensures s (SessionSteps env.lib s) fun _ => SessionSteps env.lib s := by
  refine Prog.Ensures.bind (Prog.Ensures.get ?_)
  cases pending : s.pendingPostProcess with
  | none => exact Prog.Ensures.pure .refl
  | some p =>
    refine Prog.Ensures.bind ((keeps_runPostProcess env ctx (data p pending) s).post
      fun r t steps => Prog.Ensures.modify (steps.tail (.quiet ?_)))
    exact ⟨rfl, rfl, rfl, rfl, _, rfl, by simp [Event.IsQuiet]⟩

theorem keeps_handleCommand_data {f : Frame} (data : f.IsData) :
    (handleCommand env f.buffer f.size : Stub W D S C Unit).Keeps (SessionSteps env.lib) := by
  by_cases ok : f.HeaderOk
  · rw [handleCommand_ok env ok]
    refine Prog.keeps_get.bind fun s => Prog.keeps_ite ?_ ?_
    · exact (keeps_sendResponse env _ _ _).bind fun _ => keeps_setAccumulatedResult _
    · have opcode : Opcode.ofByte f.ctx.command ≠ .runUserCode := by
        obtain h | h := data <;> simp [h]
      rw [execute, if_neg opcode]
      intro s
      refine Prog.Ensures.bind ((ensures_answer_data env data s).post fun _ t h => ?_)
      exact (ensures_postProcess_data env f.ctx t h.2).mono (fun _ steps => h.1.trans steps)
        fun _ _ steps => h.1.trans steps
  · rw [handleCommand_reject env ok]
    exact keeps_sendResponse env _ _ _

theorem keeps_serve_data {frames : List Frame} (data : ∀ f ∈ frames, f.IsData) :
    (serve env frames : Stub W D S C Unit).Keeps (SessionSteps env.lib) := by
  induction frames with
  | nil => exact Prog.keeps_pure ()
  | cons f frames ih =>
    exact (keeps_handleCommand_data env (data f (by simp))).bind fun _ =>
      ih fun g hg => data g (by simp [hg])

def CmdCtx.beginTotal (ctx : CmdCtx) : Nat := getLeToU32 ctx.mem ctx.data

def CmdCtx.beginOffset (ctx : CmdCtx) : Nat := getLeToU32 ctx.mem (ctx.data + 12)

/-- The frame asks for a session with a payload of the right size. -/
structure Frame.Begins (f : Frame) : Prop where
  ok : f.HeaderOk
  opcode : Opcode.ofByte f.ctx.command = .flashBegin ∨ Opcode.ofByte f.ctx.command = .flashDeflBegin
  size : f.ctx.packetSize = flashBeginSize ∨ f.ctx.packetSize = flashBeginEncSize

structure Begun (lib : StubLib W) (ctx : CmdCtx) (s₀ s₁ : StubState W D S C) : Prop where
  offset : s₁.flash.offset = ctx.beginOffset
  totalRemaining : s₁.flash.totalRemaining = ctx.beginTotal
  nextEraseAddr : s₁.flash.nextEraseAddr =
    lib.alignDown ctx.beginOffset (lib.flashGetConfig s₀.world).sectorSize
  eraseRemaining : s₁.flash.eraseRemaining =
    sub32 (lib.alignUp ((ctx.beginOffset + ctx.beginTotal) % 2 ^ 32)
        (lib.flashGetConfig s₀.world).sectorSize)
      (lib.alignDown ctx.beginOffset (lib.flashGetConfig s₀.world).sectorSize)
  encrypt : s₁.flash.encrypt =
    decide (ctx.packetSize = flashBeginEncSize ∧ getLeToU32 ctx.mem (ctx.data + 16) ≠ 0)
  inProgress : s₁.flash.inProgress = true
  world : s₁.world = s₀.world
  trace : s₁.trace = s₀.trace
  sent : s₁.sent = s₀.sent
  pendingPostProcess : s₁.pendingPostProcess = s₀.pendingPostProcess

theorem begun_begin (ctx : CmdCtx) (isCompressed : Bool) (s₀ : StubState W D S C) :
    Begun env.lib ctx s₀ (beginErase env (beginSession env ctx isCompressed s₀)) :=
  ⟨rfl, rfl, rfl, rfl, rfl, rfl, rfl, rfl, rfl, rfl⟩

def Frame.begun (f : Frame) (s₀ : StubState W D S C) : StubState W D S C :=
  beginErase env (beginSession env f.ctx (Opcode.ofByte f.ctx.command = .flashDeflBegin) s₀)

theorem ensures_dispatch_begin {f : Frame} (begins : f.Begins) {s₀ : StubState W D S C}
    {always : StubState W D S C → Prop} {post : Int × CommandResponseData C → StubState W D S C → Prop}
    (h : (conditionalEraseNext env).Ensures (f.begun env s₀) always fun r => post (r, {})) :
    (dispatch env f.ctx (Opcode.ofByte f.ctx.command)).Ensures s₀ always post := by
  have right : ¬ (f.ctx.packetSize ≠ flashBeginSize ∧ f.ctx.packetSize ≠ flashBeginEncSize) :=
    fun h => begins.size.elim h.1 h.2
  have init (isCompressed : Bool)
      (kind : isCompressed = decide (Opcode.ofByte f.ctx.command = .flashDeflBegin)) :
      (withEmptyResponse (initFlashOperation env f.ctx isCompressed)).Ensures s₀ always post := by
    rw [initFlashOperation, if_neg right, kind]
    refine Prog.Ensures.bind (Prog.Ensures.bind (Prog.Ensures.modify (Prog.Ensures.bind
      (Prog.Ensures.modify ?_))))
    exact h.post fun r u hu => Prog.Ensures.pure hu
  obtain opcode | opcode := begins.opcode
  · have begin_ := init false (by rw [opcode]; rfl)
    rw [opcode]
    exact begin_
  · have begin_ := init true (by rw [opcode]; rfl)
    rw [opcode]
    exact begin_

theorem Frame.Begins.opcode_ne {f : Frame} (begins : f.Begins) :
    Opcode.ofByte f.ctx.command ≠ .runUserCode := by
  obtain h | h := begins.opcode <;> simp [h]

theorem ensures_handleCommand_begin {f : Frame} (begins : f.Begins) {s₀ : StubState W D S C}
    (clear : s₀.accumulatedResult = responseSuccess) (idle : s₀.pendingPostProcess = none) :
    (handleCommand env f.buffer f.size).Ensures s₀ (EraseAhead env.lib False (f.begun env s₀))
      fun _ t => ∃ r u, EraseAhead env.lib (r = responseSuccess) (f.begun env s₀) u ∧
        t = u.answered env f.ctx (r, {}) := by
  rw [handleCommand_ok env begins.ok]
  refine Prog.Ensures.bind (Prog.Ensures.get ?_)
  rw [if_neg (not_not.mpr clear), execute, if_neg begins.opcode_ne]
  refine Prog.Ensures.bind (ensures_answer env (ensures_dispatch_begin env begins ?_))
  refine (ensures_conditionalEraseNext env _).post fun r u ahead => ?_
  have pending : u.pendingPostProcess = none := by
    obtain ⟨_, _, _, _, _, rfl, -⟩ := ahead
    exact idle
  refine Prog.Ensures.bind (Prog.Ensures.get ?_)
  rw [answered_idle env pending]
  exact Prog.Ensures.pure ⟨r, u, ahead, rfl⟩

theorem answered_flash (s : StubState W D S C) (ctx : CmdCtx) (r : Int × CommandResponseData C) :
    (s.answered env ctx r).flash = s.flash := by
  unfold StubState.answered
  split_ifs <;> rfl

theorem answered_trace (s : StubState W D S C) (ctx : CmdCtx) (r : Int × CommandResponseData C) :
    (s.answered env ctx r).trace = s.trace := by
  unfold StubState.answered
  split_ifs <;> rfl

/-- Every state that a session passes through is reached by session steps from
its begin. -/
theorem session_steps {f : Frame} (begins : f.Begins) {frames : List Frame}
    (data : ∀ g ∈ frames, g.IsData) {s₀ t : StubState W D S C}
    (clear : s₀.accumulatedResult = responseSuccess) (idle : s₀.pendingPostProcess = none)
    (run : (serve env (f :: frames)).Reaches s₀ t) :
    SessionSteps env.lib (f.begun env s₀) t := by
  have ensures : (serve env (f :: frames)).Ensures s₀ (SessionSteps env.lib (f.begun env s₀))
      fun _ => SessionSteps env.lib (f.begun env s₀) := by
    refine Prog.Ensures.bind ((ensures_handleCommand_begin env begins clear idle).mono
      (fun u h => (SessionStep.erase h).steps) fun _ u h => ?_)
    obtain ⟨r, v, ahead, rfl⟩ := h
    have answered : SessionSteps env.lib (f.begun env s₀) (v.answered env f.ctx (r, {})) :=
      (SessionStep.erase (ahead.mono False.elim)).steps.trans
        (SessionSteps.of_eq (answered_flash env v _ _) (answered_trace env v _ _))
    exact (keeps_serve_data env data).ensures answered
  exact ensures.reaches (fun _ _ h => h) run

/-- Where the sectors of the declared image begin and end. -/
def CmdCtx.regionStart (ctx : CmdCtx) (sector : Nat) : Nat := ctx.beginOffset / sector * sector

def CmdCtx.regionEnd (ctx : CmdCtx) (sector : Nat) : Nat :=
  (ctx.beginOffset + ctx.beginTotal + (sector - 1)) / sector * sector

theorem le_roundUp {sector : Nat} (pos : 0 < sector) (n : Nat) :
    n ≤ (n + (sector - 1)) / sector * sector := by
  have := Nat.div_add_mod' (n + (sector - 1)) sector
  have := Nat.mod_lt (n + (sector - 1)) pos
  omega

theorem FlashContract.two_pow_mod {lib : StubLib W} {sector : Nat}
    (contract : FlashContract lib sector) : 2 ^ 32 % sector = 0 := by
  obtain ⟨k, hk, rfl⟩ := contract.power
  exact Nat.mod_eq_zero_of_dvd (Nat.pow_dvd_pow 2 (by omega))

theorem begun_aligned {f : Frame} {sector : Nat} (contract : FlashContract env.lib sector)
    (inChip : f.ctx.regionEnd sector < 2 ^ 32) (s₀ : StubState W D S C) :
    (f.begun env s₀).Aligned sector ∧
      (f.begun env s₀).flash.nextEraseAddr = f.ctx.regionStart sector ∧
      (f.begun env s₀).flash.nextEraseAddr + (f.begun env s₀).flash.eraseRemaining =
        f.ctx.regionEnd sector := by
  have begun := begun_begin env f.ctx (Opcode.ofByte f.ctx.command = .flashDeflBegin) s₀
  have pos := contract.pos
  have endMod : f.ctx.regionEnd sector % sector = 0 := Nat.mul_mod_left _ _
  have startMod : f.ctx.regionStart sector % sector = 0 := Nat.mul_mod_left _ _
  have room := add_sector_le endMod contract.two_pow_mod inChip
  have image : f.ctx.beginOffset + f.ctx.beginTotal ≤ f.ctx.regionEnd sector := le_roundUp pos _
  have start : f.ctx.regionStart sector ≤ f.ctx.beginOffset := Nat.div_mul_le_self _ _
  have next : (f.begun env s₀).flash.nextEraseAddr = f.ctx.regionStart sector := by
    rw [Frame.begun, begun.nextEraseAddr, contract.config, contract.alignDown]
    rfl
  have remaining : (f.begun env s₀).flash.eraseRemaining =
      f.ctx.regionEnd sector - f.ctx.regionStart sector := by
    have whole : (f.ctx.beginOffset + f.ctx.beginTotal) % 2 ^ 32 =
        f.ctx.beginOffset + f.ctx.beginTotal := Nat.mod_eq_of_lt (by omega)
    rw [Frame.begun, begun.eraseRemaining, contract.config, contract.alignDown, whole,
      contract.alignUp _ (by omega)]
    change sub32 (f.ctx.regionEnd sector) (f.ctx.regionStart sector) = _
    exact sub32_of_le (by omega) inChip
  refine ⟨⟨by rw [next]; exact startMod, ?_, by omega⟩, next, by omega⟩
  rw [remaining]
  exact Nat.mod_eq_zero_of_dvd
    (Nat.dvd_sub (Nat.dvd_of_mod_eq_zero endMod) (Nat.dvd_of_mod_eq_zero startMod))

end FlasherStub
