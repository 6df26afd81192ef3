import FlasherStub.EraseAhead
import FlasherStub.ResponseCode

/-! One specification for each command handler: its code fits the result field, it sends nothing
of its own, it registers at most its own callback, and a request that it refuses leaves
no trace. -/

namespace FlasherStub

open ByteMemory Budget

variable {W D H S C : Type} (env : Platform W D H S C)

/-- The codes that answer a malformed, corrupted or untimely request. -/
def IsValidation (r : Int) : Prop :=
  r = responseBadDataLen ∨ r = responseBadDataChecksum ∨ r = responseNotEnoughData ∨
    r = responseTooMuchData ∨ r = responseNotInFlashMode ∨ r = responseInvalidCommand ∨
    r = responseCmdNotImplemented

instance (r : Int) : Decidable (IsValidation r) :=
  inferInstanceAs (Decidable (_ ∨ _))

theorem IsFlashCode.not_validation {r : Int} (h : IsFlashCode r) : ¬IsValidation r := by
  obtain rfl | rfl := h <;> decide

/-- Nothing sent, and nothing left for the dispatcher. -/
structure Silent (s t : StubState W D S C) : Prop where
  sent : t.sent = s.sent
  pending : t.pendingPostProcess = s.pendingPostProcess
  accumulated : t.accumulatedResult = s.accumulatedResult

instance : Std.Refl (Silent (W := W) (D := D) (S := S) (C := C)) := ⟨fun _ => ⟨rfl, rfl, rfl⟩⟩

instance : IsTrans (StubState W D S C) Silent :=
  ⟨fun _ _ _ h h' => ⟨h'.sent.trans h.sent, h'.pending.trans h.pending,
    h'.accumulated.trans h.accumulated⟩⟩

theorem Silent.rfl {s : StubState W D S C} : Silent s s := Std.Refl.refl s

def Queried (s t : StubState W D S C) : Prop :=
  t = s ∨ t = { s with world := (env.lib.getSecurityInfo s.world).2 }

/-- SYNC sends it seven times before its answer, which is the same. -/
def syncFrame : List UInt8 := responseFrame espSync responseSuccess none

/-- What a built-in handler sends before its answer. -/
def Opcode.early : Opcode → List (List UInt8)
  | .sync => List.replicate 7 syncFrame
  | _ => []

def Opcode.callback : Opcode → Option (PostProcess C)
  | .flashData => some .flashData
  | .flashDeflData => some .flashDeflData
  | .memEnd => some .memEnd
  | .changeBaudrate => some .changeBaudrate
  | .readFlash => some .readFlash
  | _ => none

def Opcode.Sized (ctx : CmdCtx) : Opcode → Prop
  | .flashData | .flashDeflData => 16 ≤ ctx.packetSize
  | .memEnd | .changeBaudrate => ctx.packetSize = 8
  | .readFlash => ctx.packetSize = 16
  | _ => True

/-- How a handler with the given callback ends. On success it has sent the frames `early`, and
the request was of the size that `sized` says. -/
structure Spec (s : StubState W D S C) (early : List (List UInt8)) (callback : Option (PostProcess C))
    (sized : Prop) (r : Int) (t : StubState W D S C) : Prop where
  code : IsCode r
  accumulated : t.accumulatedResult = s.accumulatedResult
  sent : t.sent = s.sent ++ if r = responseSuccess then early else []
  pending : t.pendingPostProcess =
    if r = responseSuccess then callback.or s.pendingPostProcess else s.pendingPostProcess
  sized : r = responseSuccess → sized
  rejects : IsValidation r → Queried env s t

variable {env} {s t : StubState W D S C} {early : List (List UInt8)}
  {callback : Option (PostProcess C)} {sized : Prop} {r : Int}

theorem Spec.reject (code : IsCode r) (bad : r ≠ responseSuccess) :
    Spec env s early callback sized r s where
  code := code
  accumulated := rfl
  sent := by rw [if_neg bad, List.append_nil]
  pending := by rw [if_neg bad]
  sized h := absurd h bad
  rejects _ := .inl rfl

theorem Spec.silent (silent : Silent s t) (code : IsFlashCode r) (size : sized) :
    Spec env s [] none sized r t where
  code := code.isCode
  accumulated := silent.accumulated
  sent := by simp [silent.sent]
  pending := by simp [silent.pending]
  sized _ := size
  rejects h := absurd h code.not_validation

theorem Spec.registers (p : PostProcess C) (silent : Silent s t) (size : sized) :
    Spec env s [] (some p) sized responseSuccess { t with pendingPostProcess := some p } where
  code := by decide
  accumulated := silent.accumulated
  sent := by simp [silent.sent]
  pending := rfl
  sized _ := size
  rejects h := absurd h (by decide)

theorem ensures_size {α : Type} (code : α → Int) {c : Prop} [Decidable c] {a : α}
    {p : Stub W D S C α} (small : IsCode (code a)) (bad : code a ≠ responseSuccess)
    (h : ¬c → p.Ensures s (Silent s) fun r => Spec env s early callback sized (code r)) :
    (if c then pure a else p).Ensures s (Silent s)
      fun r => Spec env s early callback sized (code r) := by
  split_ifs with hc
  · exact Prog.Ensures.pure (.reject small bad)
  · exact h hc

theorem badDataLen_ne_success : responseBadDataLen ≠ responseSuccess := by decide

theorem EraseAhead.silent {lib : StubLib W} {ok : Prop} (h : EraseAhead lib ok s t) :
    Silent s t := by
  obtain ⟨_, _, _, _, _, rfl, -⟩ := h
  exact ⟨rfl, rfl, rfl⟩

section Loops

variable (env)

theorem keeps_md5Step (l : Md5Locals H) :
    (md5Step env l : Stub W D S C _).Keeps Silent := by
  refine Prog.keeps_ite (Prog.Keeps.bind (Prog.keeps_act fun s => ⟨rfl, rfl, rfl⟩)
    fun read => ?_) (Prog.keeps_pure _)
  cases read with
  | none => exact Prog.keeps_pure _
  | some data =>
    exact (Prog.keeps_modify fun s => ⟨rfl, rfl, rfl⟩).bind fun _ => Prog.keeps_pure _

theorem gives_md5Step (l : Md5Locals H) : (md5Step env l : Stub W D S C _).Gives
    (Sum.elim (fun _ => True) fun r => IsFlashCode r.1) := by
  refine Prog.gives_ite (Prog.gives_bind fun read => ?_) (Prog.gives_pure isFlashCode_success)
  cases read with
  | none => exact Prog.gives_pure isFlashCode_failedSpiOp
  | some data => exact Prog.gives_bind fun _ => Prog.gives_pure trivial

theorem keeps_eraseRegionStep (l : EraseLocals) :
    (eraseRegionStep env l : Stub W D S C _).Keeps Silent := by
  refine Prog.keeps_ite (Prog.Keeps.bind (Prog.keeps_act fun s => ⟨rfl, rfl, rfl⟩)
    fun next => ?_) (Prog.keeps_pure _)
  exact (Prog.keeps_modify fun s => ⟨rfl, rfl, rfl⟩).bind fun _ => Prog.keeps_pure _

theorem keeps_writeRegEntries (ctx : CmdCtx) (i count : Nat) :
    (writeRegEntries env ctx i count : Stub W D S C Unit).Keeps Silent := by
  induction count generalizing i with
  | zero => exact Prog.keeps_pure _
  | succ count ih =>
    refine Prog.Keeps.bind (Prog.keeps_modify fun s => ?_) fun _ => ih (i + 1)
    split_ifs
    · exact ⟨rfl, rfl, rfl⟩
    · exact ⟨rfl, rfl, rfl⟩

end Loops

/-! The handlers that talk to the flash, or to the device only. -/

section Handlers

variable (env) (ctx : CmdCtx) (s)

theorem ensures_initFlashOperation (isCompressed : Bool) :
    (initFlashOperation env ctx isCompressed).Ensures s (Silent s) (Spec env s [] none True) := by
  refine ensures_size (fun r => r) isCode_badDataLen badDataLen_ne_success fun _ => ?_
  refine Prog.Ensures.bind (Prog.Ensures.modify (Prog.Ensures.bind (Prog.Ensures.modify ?_)))
  have start : Silent s (beginErase env (beginSession env ctx isCompressed s)) := ⟨rfl, rfl, rfl⟩
  refine ((ensures_conditionalEraseNext env _).and (gives_conditionalEraseNext env _)).mono
    (fun t h => ?_) fun r t h => ?_
  · exact IsTrans.trans _ _ _ start h.1.silent
  · exact .silent (IsTrans.trans _ _ _ start h.1.silent) h.2 trivial

theorem ensures_handleFlashEnd :
    (handleFlashEnd env ctx).Ensures s (Silent s) (Spec env s [] none True) := by
  refine Prog.Ensures.bind (Prog.Ensures.get
    (ensures_size (fun r => r) (by decide) (by decide) fun _ => ?_))
  split_ifs with closed left
  · exact Prog.Ensures.pure (.reject (isCode_checkFlashInProgress s) closed)
  · exact Prog.Ensures.pure (.reject (by decide) (by decide))
  · refine Prog.Ensures.bind (Prog.Ensures.modify (Prog.Ensures.pure ?_))
    exact .silent ⟨rfl, rfl, rfl⟩ isFlashCode_success trivial

theorem ensures_sendSyncs (n : Nat) : (sendSyncs env n).Ensures s (Silent s) fun _ t =>
    t.sent = s.sent ++ List.replicate n syncFrame ∧
      t.pendingPostProcess = s.pendingPostProcess ∧
      t.accumulatedResult = s.accumulatedResult := by
  suffices sends : ∀ always : StubState W D S C → Prop,
      (sendSyncs env n).Ensures s always fun _ t =>
        t.sent = s.sent ++ List.replicate n syncFrame ∧
          t.pendingPostProcess = s.pendingPostProcess ∧
          t.accumulatedResult = s.accumulatedResult from sends _
  induction n generalizing s with
  | zero => exact fun _ => Prog.Ensures.pure ⟨by simp, rfl, rfl⟩
  | succ n ih =>
    refine fun always => Prog.Ensures.bind (Prog.Ensures.modify ?_)
    refine (ih (s.afterSend env syncFrame) always).post fun _ t h => ?_
    exact ⟨by simp [h.1, StubState.afterSend, List.replicate_succ], h.2⟩

theorem ensures_sync : (sync env ctx).Ensures s (Silent s)
    (Spec env s (List.replicate 7 syncFrame) none True) := by
  refine ensures_size (fun r => r) isCode_badDataLen badDataLen_ne_success fun _ => ?_
  refine Prog.Ensures.bind ((ensures_sendSyncs env s 7).post fun _ t h => Prog.Ensures.pure ?_)
  exact
    { code := isCode_success
      accumulated := h.2.2
      sent := by rw [if_pos rfl, h.1]
      pending := h.2.1
      sized _ := trivial
      rejects h := absurd h (by decide) }

theorem ensures_flashData : (flashData ctx).Ensures s (Silent s)
    (Spec env s [] (some .flashData) (16 ≤ ctx.packetSize)) := by
  refine Prog.Ensures.bind (Prog.Ensures.get
    (ensures_size (fun r => r) (by decide) (by decide) fun short => ?_))
  dsimp only
  split_ifs with closed length sum
  · exact Prog.Ensures.pure (.reject (isCode_checkFlashInProgress s) closed)
  · exact Prog.Ensures.pure (.reject (by decide) (by decide))
  · exact Prog.Ensures.pure (.reject (isCode_validateChecksum _ _ _ _) sum)
  · refine Prog.Ensures.bind (Prog.Ensures.modify (Prog.Ensures.pure ?_))
    exact .registers .flashData .rfl (Nat.not_lt.mp short)

theorem ensures_flashDeflData : (flashDeflData ctx).Ensures s (Silent s)
    (Spec env s [] (some .flashDeflData) (16 ≤ ctx.packetSize)) := by
  refine Prog.Ensures.bind (Prog.Ensures.get
    (ensures_size (fun r => r) (by decide) (by decide) fun short => ?_))
  dsimp only
  split_ifs with closed sum
  · exact Prog.Ensures.pure (.reject (isCode_checkFlashInProgress s) closed)
  · exact Prog.Ensures.pure (.reject (isCode_validateChecksum _ _ _ _) sum)
  · refine Prog.Ensures.bind (Prog.Ensures.modify (Prog.Ensures.pure ?_))
    exact .registers .flashDeflData .rfl (Nat.not_lt.mp short)

theorem ensures_flashDeflData_accepts (ctx : CmdCtx) (s : StubState W D S C) :
    (flashDeflData ctx).Ensures s (fun _ => True) fun r t => t.flash = s.flash ∧
      t.decompressedData = s.decompressedData ∧ t.decompressedDataPtr = s.decompressedDataPtr ∧
      (r = responseSuccess → ¬ctx.packetSize < flashDeflDataHeaderSize ∧
        checkFlashInProgress s = responseSuccess ∧
        validateChecksum ctx.mem (ctx.data + flashDeflDataHeaderSize)
          (getLeToU32 ctx.mem ctx.data) ctx.checksum = responseSuccess) := by
  refine Prog.Ensures.bind (Prog.Ensures.get ?_)
  dsimp only
  split_ifs with short closed sum
  · exact Prog.Ensures.pure ⟨rfl, rfl, rfl, fun h => absurd h badDataLen_ne_success⟩
  · exact Prog.Ensures.pure ⟨rfl, rfl, rfl, fun h => absurd h closed⟩
  · exact Prog.Ensures.pure ⟨rfl, rfl, rfl, fun h => absurd h sum⟩
  · exact Prog.Ensures.bind (Prog.Ensures.modify (Prog.Ensures.pure ⟨rfl, rfl, rfl, fun _ =>
      ⟨short, not_not.mp closed, not_not.mp sum⟩⟩))

theorem isCode_checkMemoryInProgress : IsCode (checkMemoryInProgress s) := by
  unfold checkMemoryInProgress
  split_ifs <;> decide

theorem ensures_memBegin : (memBegin ctx).Ensures s (Silent s) (Spec env s [] none True) := by
  refine ensures_size (fun r => r) isCode_badDataLen badDataLen_ne_success fun _ => ?_
  refine Prog.Ensures.bind (Prog.Ensures.modify (Prog.Ensures.pure ?_))
  exact .silent ⟨rfl, rfl, rfl⟩ isFlashCode_success trivial

theorem ensures_memData : (memData env ctx).Ensures s (Silent s) (Spec env s [] none True) := by
  refine Prog.Ensures.bind (Prog.Ensures.get
    (ensures_size (fun r => r) (by decide) (by decide) fun _ => ?_))
  split_ifs with closed much length
  · exact Prog.Ensures.pure (.reject (isCode_checkMemoryInProgress s) closed)
  · exact Prog.Ensures.pure (.reject (by decide) (by decide))
  · exact Prog.Ensures.pure (.reject (by decide) (by decide))
  · refine Prog.Ensures.bind (Prog.Ensures.modify (Prog.Ensures.pure ?_))
    exact .silent ⟨rfl, rfl, rfl⟩ isFlashCode_success trivial

theorem ensures_memEnd : (memEnd ctx).Ensures s (Silent s)
    (Spec env s [] (some .memEnd) (ctx.packetSize = 8)) := by
  refine Prog.Ensures.bind (Prog.Ensures.get
    (ensures_size (fun r => r) (by decide) (by decide) fun size => ?_))
  split_ifs with closed
  · exact Prog.Ensures.pure (.reject (isCode_checkMemoryInProgress s) closed)
  · refine Prog.Ensures.bind (Prog.Ensures.modify
      (Prog.Ensures.bind (Prog.Ensures.modify (Prog.Ensures.pure ?_))))
    exact .registers (t := { s with memory := {} }) .memEnd ⟨rfl, rfl, rfl⟩ (not_not.mp size)

theorem ensures_writeReg : (writeReg env ctx).Ensures s (Silent s) (Spec env s [] none True) := by
  refine ensures_size (fun r => r) (by decide) (by decide) fun _ => ?_
  refine Prog.Ensures.bind ((keeps_writeRegEntries env ctx 0 _ s).post fun _ t silent => ?_)
  exact Prog.Ensures.pure (.silent silent isFlashCode_success trivial)

theorem ensures_readReg : (readReg env ctx).Ensures s (Silent s)
    fun r => Spec env s [] none True r.1 := by
  refine ensures_size Prod.fst isCode_badDataLen badDataLen_ne_success fun _ => ?_
  exact Prog.Ensures.bind (Prog.Ensures.act (Prog.Ensures.pure
    (.silent ⟨rfl, rfl, rfl⟩ isFlashCode_success trivial)))

theorem ensures_spiAttach : (spiAttach env ctx).Ensures s (Silent s) (Spec env s [] none True) := by
  refine ensures_size (fun r => r) isCode_badDataLen badDataLen_ne_success fun _ => ?_
  refine Prog.Ensures.bind (Prog.Ensures.modify (Prog.Ensures.pure ?_))
  exact .silent ⟨rfl, rfl, rfl⟩ isFlashCode_success trivial

theorem ensures_flashCode {c : Prop} [Decidable c] (silent : Silent s t) :
    (if c then pure responseFailedSpiOp else pure responseSuccess : Stub W D S C Int).Ensures t
      (Silent s) (Spec env s [] none True) := by
  split_ifs
  · exact Prog.Ensures.pure (.silent silent isFlashCode_failedSpiOp trivial)
  · exact Prog.Ensures.pure (.silent silent isFlashCode_success trivial)

theorem ensures_spiSetParams :
    (spiSetParams env ctx).Ensures s (Silent s) (Spec env s [] none True) := by
  refine ensures_size (fun r => r) isCode_badDataLen badDataLen_ne_success fun _ => ?_
  exact Prog.Ensures.bind (Prog.Ensures.act (ensures_flashCode env s ⟨rfl, rfl, rfl⟩))

theorem ensures_changeBaudrate : (changeBaudrate ctx).Ensures s (Silent s)
    (Spec env s [] (some .changeBaudrate) (ctx.packetSize = 8)) := by
  refine ensures_size (fun r => r) isCode_badDataLen badDataLen_ne_success fun size => ?_
  refine Prog.Ensures.bind (Prog.Ensures.modify (Prog.Ensures.pure ?_))
  exact .registers .changeBaudrate .rfl (not_not.mp size)

theorem ensures_readFlash : (readFlash ctx).Ensures s (Silent s)
    (Spec env s [] (some .readFlash) (ctx.packetSize = 16)) := by
  refine ensures_size (fun r => r) isCode_badDataLen badDataLen_ne_success fun size => ?_
  refine Prog.Ensures.bind (Prog.Ensures.modify (Prog.Ensures.pure ?_))
  exact .registers .readFlash .rfl (not_not.mp size)

theorem ensures_spiFlashMd5 : (spiFlashMd5 env ctx).Ensures s (Silent s)
    fun r => Spec env s [] none True r.1 := by
  refine ensures_size Prod.fst isCode_badDataLen badDataLen_ne_success fun _ => ?_
  have hashes (l : Md5Locals H) :=
    (Prog.keeps_loop (keeps_md5Step env) l s).and (Prog.gives_loop (gives_md5Step env) l s)
  refine Prog.Ensures.bind ((hashes _).mono (fun _ h => h.1) fun r t h => ?_)
  exact Prog.Ensures.pure (.silent h.1 h.2 trivial)

theorem ensures_getSecurityInfo : (getSecurityInfo env ctx).Ensures s (Silent s)
    fun r => Spec env s [] none True r.1 := by
  refine ensures_size Prod.fst isCode_badDataLen badDataLen_ne_success fun _ => ?_
  refine Prog.Ensures.bind (Prog.Ensures.act ?_)
  have failed {code : Int} (small : IsCode code) (bad : code ≠ responseSuccess) :
      Spec env s [] none True code { s with world := (env.lib.getSecurityInfo s.world).2 } :=
    { code := small
      accumulated := rfl
      sent := by simp
      pending := by simp
      sized _ := trivial
      rejects _ := .inr rfl }
  dsimp only
  cases (env.lib.getSecurityInfo s.world).1.1 with
  | ok => exact Prog.Ensures.pure (.silent ⟨rfl, rfl, rfl⟩ isFlashCode_success trivial)
  | errNotSupported =>
    have code : IsCode responseCmdNotImplemented := by decide
    have bad : responseCmdNotImplemented ≠ responseSuccess := by decide
    exact Prog.Ensures.pure (failed code bad)
  | errInvalidArg | fail | errTimeout =>
    exact Prog.Ensures.pure (failed isCode_badDataLen badDataLen_ne_success)

theorem ensures_eraseFlash :
    (eraseFlash env).Ensures s (Silent s) (Spec env s [] none True) :=
  Prog.Ensures.bind (Prog.Ensures.act (ensures_flashCode env s ⟨rfl, rfl, rfl⟩))

theorem ensures_eraseRegion :
    (eraseRegion env ctx).Ensures s (Silent s) (Spec env s [] none True) := by
  refine ensures_size (fun r => r) isCode_badDataLen badDataLen_ne_success fun _ => ?_
  refine Prog.Ensures.bind (Prog.Ensures.get ?_)
  refine ensures_size (fun r => r) isCode_badDataLen badDataLen_ne_success fun _ => ?_
  refine Prog.Ensures.bind ((Prog.keeps_loop (keeps_eraseRegionStep env) _ s).post
    fun left t silent => ?_)
  refine Prog.Ensures.bind (Prog.Ensures.act (ensures_flashCode env s ?_))
  exact IsTrans.trans _ _ _ silent ⟨rfl, rfl, rfl⟩

end Handlers

/-- Every built-in handler meets its specification. -/
theorem ensures_dispatch (ctx : CmdCtx) (s : StubState W D S C) {o : Opcode}
    (builtIn : ∀ idx, o ≠ .plugin idx) : (dispatch env ctx o).Ensures s (Silent s)
      fun r => Spec env s o.early o.callback (o.Sized ctx) r.1 := by
  have none_ {handler : Stub W D S C Int} {early : List (List UInt8)}
      {callback : Option (PostProcess C)} {sized : Prop}
      (h : handler.Ensures s (Silent s) (Spec env s early callback sized)) :
      (withEmptyResponse handler).Ensures s (Silent s)
        fun r => Spec env s early callback sized r.1 := ensures_withEmptyResponse h
  cases o with
  | sync => exact none_ (ensures_sync env s ctx)
  | flashBegin => exact none_ (ensures_initFlashOperation env s ctx false)
  | flashData => exact none_ (ensures_flashData env s ctx)
  | flashEnd => exact none_ (ensures_handleFlashEnd env s ctx)
  | memBegin => exact none_ (ensures_memBegin env s ctx)
  | memData => exact none_ (ensures_memData env s ctx)
  | memEnd => exact none_ (ensures_memEnd env s ctx)
  | writeReg => exact none_ (ensures_writeReg env s ctx)
  | readReg => exact ensures_readReg env s ctx
  | spiAttach => exact none_ (ensures_spiAttach env s ctx)
  | spiSetParams => exact none_ (ensures_spiSetParams env s ctx)
  | changeBaudrate => exact none_ (ensures_changeBaudrate env s ctx)
  | flashDeflBegin => exact none_ (ensures_initFlashOperation env s ctx true)
  | flashDeflData => exact none_ (ensures_flashDeflData env s ctx)
  | flashDeflEnd => exact none_ (ensures_handleFlashEnd env s ctx)
  | spiFlashMd5 => exact ensures_spiFlashMd5 env s ctx
  | getSecurityInfo => exact ensures_getSecurityInfo env s ctx
  | readFlash => exact none_ (ensures_readFlash env s ctx)
  | eraseFlash => exact none_ (ensures_eraseFlash env s)
  | eraseRegion => exact none_ (ensures_eraseRegion env s ctx)
  | plugin idx => exact absurd rfl (builtIn idx)
  | runUserCode | unknown =>
    have invalid : IsCode responseInvalidCommand := by decide
    have bad : responseInvalidCommand ≠ responseSuccess := by decide
    exact Prog.Ensures.pure (.reject invalid bad)

end FlasherStub
