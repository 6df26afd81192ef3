import FlasherStub.Dispatcher

/-! What is not RAM download. Of all handlers and callbacks only those of MEM_BEGIN, MEM_DATA and
MEM_END touch the state of a download, and only MEM_DATA stores to an address of the host's. -/

namespace FlasherStub

open ByteMemory Budget

variable {W D H S C : Type} (env : Platform W D H S C)

def Event.IsStore : Event → Prop
  | .store _ _ => True
  | _ => False

structure RamKept (s t : StubState W D S C) : Prop where
  memory : t.memory = s.memory
  logs : s.Logs (fun e => ¬ e.IsStore) t

namespace RamKept

variable {s t : StubState W D S C}

theorem of_eq (memory : t.memory = s.memory) (trace : t.trace = s.trace) : RamKept s t :=
  ⟨memory, .of_eq trace⟩

theorem event (memory : t.memory = s.memory) {e : Event} (trace : t.trace = s.trace ++ [e])
    (other : ¬ e.IsStore) : RamKept s t := ⟨memory, [e], trace, by simpa using other⟩

instance : Std.Refl (RamKept (W := W) (D := D) (S := S) (C := C)) := ⟨fun _ => of_eq rfl rfl⟩

instance : IsTrans (StubState W D S C) RamKept :=
  ⟨fun _ _ _ h h' => ⟨h'.memory.trans h.memory, h.logs.trans h'.logs⟩⟩

end RamKept

theorem EraseAhead.ramKept {lib : StubLib W} {ok : Prop} {s t : StubState W D S C}
    (h : EraseAhead lib ok s t) : RamKept s t := by
  obtain ⟨_, _, _, _, tr, rfl, only, -⟩ := h
  refine ⟨rfl, tr, rfl, fun e mem store => ?_⟩
  have step := only e mem
  cases e <;> first | exact step | exact store

section Pieces

variable {α : Type}

theorem keeps_ram {f : StubState W D S C → α × StubState W D S C}
    (memory : ∀ s, (f s).2.memory = s.memory) (trace : ∀ s, (f s).2.trace = s.trace) :
    (Prog.act f).Keeps RamKept := Prog.keeps_act fun s => .of_eq (memory s) (trace s)

theorem keepsRam_device (f : W → W) : (Stub.device f : Stub W D S C Unit).Keeps RamKept :=
  keeps_ram (fun _ => rfl) fun _ => rfl

theorem keepsRam_sendFrame (frame : List UInt8) :
    (Stub.sendFrame env frame : Stub W D S C Unit).Keeps RamKept :=
  keeps_ram (fun _ => rfl) fun _ => rfl

theorem keepsRam_setPending (p : PostProcess C) :
    (setPendingPostProcess p : Stub W D S C Unit).Keeps RamKept :=
  keeps_ram (fun _ => rfl) fun _ => rfl

theorem keepsRam_flashReadBuff (addr size : Nat) :
    (Stub.flashReadBuff env addr size : Stub W D S C _).Keeps RamKept :=
  Prog.keeps_act fun _ => .event rfl rfl id

theorem keepsRam_focus {τ : Type} {view : StubState W D S C → τ}
    {put : StubState W D S C → τ → StubState W D S C} (memory : ∀ s u, (put s u).memory = s.memory)
    (trace : ∀ s u, (put s u).trace = s.trace) (p : Prog τ α) :
    (Prog.focus view put p).Keeps RamKept := fun s => Prog.Ensures.focus
  ⟨fun u _ => .of_eq (memory s u) (trace s u), fun _ u _ => .of_eq (memory s u) (trace s u)⟩

theorem keepsRam_conditionalEraseNext :
    (conditionalEraseNext env : Stub W D S C Int).Keeps RamKept := fun s =>
  (ensures_conditionalEraseNext env s).mono (fun _ h => h.ramKept) fun _ _ h => h.ramKept

theorem keepsRam_writeFlashData (data : List UInt8) :
    (writeFlashData env data : Stub W D S C Int).Keeps RamKept := by
  intro s
  have requested : RamKept s (s.requested data) := .event rfl rfl id
  refine (ensures_writeFlashData env data s).mono
    (fun _ h => IsTrans.trans _ _ _ requested h.ramKept) fun r t h => ?_
  cases h with
  | stopped error ahead => exact IsTrans.trans _ _ _ requested ahead.ramKept
  | failed w ahead erased | written w ahead erased =>
    exact IsTrans.trans _ _ _ (IsTrans.trans _ _ _ requested ahead.ramKept) (.event rfl rfl id)

end Pieces

section Handlers

variable (ctx : CmdCtx)

theorem keepsRam_sendSyncs (n : Nat) : (sendSyncs env n : Stub W D S C Unit).Keeps RamKept := by
  induction n with
  | zero => exact Prog.keeps_pure _
  | succ n ih => exact (keepsRam_sendFrame env _).bind fun _ => ih

theorem keepsRam_initFlashOperation (isCompressed : Bool) :
    (initFlashOperation env ctx isCompressed : Stub W D S C Int).Keeps RamKept := by
  refine Prog.keeps_ite (Prog.keeps_pure _) ?_
  exact (keeps_ram (fun _ => rfl) fun _ => rfl).bind fun _ =>
    (keeps_ram (fun _ => rfl) fun _ => rfl).bind fun _ => keepsRam_conditionalEraseNext env

theorem keepsRam_handleFlashEnd : (handleFlashEnd env ctx : Stub W D S C Int).Keeps RamKept := by
  refine Prog.keeps_get.bind fun s => Prog.keeps_ite (Prog.keeps_pure _) ?_
  refine Prog.keeps_ite (Prog.keeps_pure _) (Prog.keeps_ite (Prog.keeps_pure _) ?_)
  exact (keeps_ram (fun _ => rfl) fun _ => rfl).bind fun _ => Prog.keeps_pure _

theorem keepsRam_registers (p : PostProcess C) : (do
    setPendingPostProcess p
    pure responseSuccess : Stub W D S C Int).Keeps RamKept :=
  (keepsRam_setPending p).bind fun _ => Prog.keeps_pure _

theorem keepsRam_flashData : (flashData ctx : Stub W D S C Int).Keeps RamKept :=
  Prog.keeps_get.bind fun _ => Prog.keeps_ite (Prog.keeps_pure _) <|
    Prog.keeps_ite (Prog.keeps_pure _) <| Prog.keeps_ite (Prog.keeps_pure _) <|
    Prog.keeps_ite (Prog.keeps_pure _) (keepsRam_registers _)

theorem keepsRam_flashDeflData : (flashDeflData ctx : Stub W D S C Int).Keeps RamKept :=
  Prog.keeps_get.bind fun _ => Prog.keeps_ite (Prog.keeps_pure _) <|
    Prog.keeps_ite (Prog.keeps_pure _) <| Prog.keeps_ite (Prog.keeps_pure _) (keepsRam_registers _)

theorem keepsRam_writeRegEntries (i count : Nat) :
    (writeRegEntries env ctx i count : Stub W D S C Unit).Keeps RamKept := by
  induction count generalizing i with
  | zero => exact Prog.keeps_pure _
  | succ count ih =>
    refine Prog.Keeps.bind (Prog.keeps_modify fun s => ?_) fun _ => ih (i + 1)
    split_ifs
    · exact .of_eq rfl rfl
    · exact .of_eq rfl rfl

theorem keepsRam_md5Step (l : Md5Locals H) : (md5Step env l : Stub W D S C _).Keeps RamKept := by
  refine Prog.keeps_ite ((keepsRam_flashReadBuff env _ _).bind fun read => ?_) (Prog.keeps_pure _)
  cases read with
  | none => exact Prog.keeps_pure _
  | some data =>
    exact (Prog.keeps_modify fun _ => .event rfl rfl id).bind fun _ => Prog.keeps_pure _

theorem keepsRam_getSecurityInfo : (getSecurityInfo env ctx : Stub W D S C _).Keeps RamKept := by
  refine Prog.keeps_ite (Prog.keeps_pure _) ?_
  refine (keeps_ram (fun _ => rfl) fun _ => rfl).bind fun info => ?_
  obtain ⟨ret, bytes⟩ := info
  cases ret <;> exact Prog.keeps_pure _

theorem keepsRam_eraseRegion : (eraseRegion env ctx : Stub W D S C Int).Keeps RamKept := by
  have step (l : EraseLocals) : (eraseRegionStep env l : Stub W D S C _).Keeps RamKept :=
    Prog.keeps_ite ((Prog.keeps_act fun _ => .event rfl rfl id).bind fun _ =>
      (keepsRam_device _).bind fun _ => Prog.keeps_pure _) (Prog.keeps_pure _)
  refine Prog.keeps_ite (Prog.keeps_pure _) (Prog.keeps_get.bind fun _ => ?_)
  refine Prog.keeps_ite (Prog.keeps_pure _) ((Prog.keeps_loop step _).bind fun left => ?_)
  exact (keeps_ram (fun _ => rfl) fun _ => rfl).bind fun _ =>
    Prog.keeps_ite (Prog.keeps_pure _) (Prog.keeps_pure _)

theorem keepsRam_callPlugin (idx : Nat) : (callPlugin env idx ctx).Keeps RamKept := by
  refine Prog.Keeps.bind (keepsRam_focus (fun s t => ?_) (fun s t => ?_) _) fun r => ?_
  · rfl
  · rfl
  obtain ⟨code, response⟩ := r
  dsimp only
  cases response.postProcess with
  | none => exact (Prog.keeps_pure _).bind fun _ => Prog.keeps_pure _
  | some callback => exact (keepsRam_setPending _).bind fun _ => Prog.keeps_pure _

def Opcode.IsMem : Opcode → Prop
  | .memBegin | .memData | .memEnd => True
  | _ => False

theorem keepsRam_dispatch {o : Opcode} (other : ¬ o.IsMem) :
    (dispatch env ctx o).Keeps RamKept := by
  have none_ {handler : Stub W D S C Int} (h : handler.Keeps RamKept) :
      (withEmptyResponse handler).Keeps RamKept := h.bind fun _ => Prog.keeps_pure _
  have act {α β : Type} {g : StubState W D S C → β × StubState W D S C} {k : β → Stub W D S C α}
      {p : Prop} [Decidable p] {a : α} (memory : ∀ s, (g s).2.memory = s.memory)
      (trace : ∀ s, (g s).2.trace = s.trace) (hk : ∀ b, (k b).Keeps RamKept) :
      (if p then pure a else Prog.act g >>= k).Keeps RamKept :=
    Prog.keeps_ite (Prog.keeps_pure a) ((keeps_ram memory trace).bind hk)
  cases o with
  | sync =>
    exact none_ (Prog.keeps_ite (Prog.keeps_pure _)
      ((keepsRam_sendSyncs env 7).bind fun _ => Prog.keeps_pure _))
  | flashBegin => exact none_ (keepsRam_initFlashOperation env ctx false)
  | flashData => exact none_ (keepsRam_flashData ctx)
  | flashEnd => exact none_ (keepsRam_handleFlashEnd env ctx)
  | memBegin | memData | memEnd => exact absurd trivial other
  | writeReg =>
    exact none_ (Prog.keeps_ite (Prog.keeps_pure _)
      ((keepsRam_writeRegEntries env ctx _ _).bind fun _ => Prog.keeps_pure _))
  | readReg => exact act (fun _ => rfl) (fun _ => rfl) fun _ => Prog.keeps_pure _
  | spiAttach => exact none_ (act (fun _ => rfl) (fun _ => rfl) fun _ => Prog.keeps_pure _)
  | spiSetParams =>
    exact none_ (act (fun _ => rfl) (fun _ => rfl) fun _ =>
      Prog.keeps_ite (Prog.keeps_pure _) (Prog.keeps_pure _))
  | changeBaudrate => exact none_ (Prog.keeps_ite (Prog.keeps_pure _) (keepsRam_registers _))
  | flashDeflBegin => exact none_ (keepsRam_initFlashOperation env ctx true)
  | flashDeflData => exact none_ (keepsRam_flashDeflData ctx)
  | flashDeflEnd => exact none_ (keepsRam_handleFlashEnd env ctx)
  | spiFlashMd5 =>
    exact Prog.keeps_ite (Prog.keeps_pure _)
      ((Prog.keeps_loop (keepsRam_md5Step env) _).bind fun _ => Prog.keeps_pure _)
  | getSecurityInfo => exact keepsRam_getSecurityInfo env ctx
  | readFlash => exact none_ (Prog.keeps_ite (Prog.keeps_pure _) (keepsRam_registers _))
  | eraseFlash =>
    exact none_ ((keeps_ram (fun _ => rfl) fun _ => rfl).bind fun _ =>
      Prog.keeps_ite (Prog.keeps_pure _) (Prog.keeps_pure _))
  | eraseRegion => exact none_ (keepsRam_eraseRegion env ctx)
  | plugin idx => exact keepsRam_callPlugin env ctx idx
  | runUserCode | unknown => exact Prog.keeps_pure _

end Handlers

section Callbacks

variable (ctx : CmdCtx)

theorem keepsRam_deflDataStep (dataSize : Nat) (l : DeflLocals) :
    (deflDataStep env ctx dataSize l : Stub W D S C _).Keeps RamKept := by
  have flushed : (flushWindow env : Stub W D S C Int).Keeps RamKept := by
    refine Prog.keeps_get.bind fun s => (keepsRam_writeFlashData env _).bind fun r => ?_
    exact Prog.keeps_ite (Prog.keeps_pure r)
      ((keeps_ram (fun _ => rfl) fun _ => rfl).bind fun _ => Prog.keeps_pure _)
  refine Prog.keeps_ite ?_ (Prog.keeps_ite (Prog.keeps_pure _) (Prog.keeps_pure _))
  refine Prog.keeps_get.bind fun s => (keepsRam_conditionalEraseNext env).bind fun r => ?_
  refine Prog.keeps_ite (Prog.keeps_pure _) ?_
  refine Prog.Keeps.bind (Prog.keeps_act fun _ => .event rfl rfl id) fun inflated => ?_
  refine Prog.keeps_get.bind fun s => Prog.keeps_ite ?_ (Prog.keeps_pure _)
  exact flushed.bind fun r => Prog.keeps_ite (Prog.keeps_pure _) (Prog.keeps_pure _)

theorem keepsRam_flashDeflDataPostProcess :
    (flashDeflDataPostProcess env ctx : Stub W D S C Int).Keeps RamKept := by
  unfold flashDeflDataPostProcess
  dsimp only
  split_ifs
  · exact (keeps_ram (fun _ => rfl) fun _ => rfl).bind fun _ =>
      Prog.keeps_loop (keepsRam_deflDataStep env ctx _) _
  · exact Prog.keeps_loop (keepsRam_deflDataStep env ctx _) _

theorem keepsRam_pollAck (l : ReadLocals H) :
    (pollAck env l : Stub W D S C _).Keeps RamKept := by
  refine Prog.Keeps.bind (keeps_ram (fun _ => rfl) fun _ => rfl) fun polled => ?_
  cases polled with
  | none => exact Prog.keeps_pure _
  | error => exact (keepsRam_device _).bind fun _ => Prog.keeps_pure _
  | frame ack =>
    exact Prog.keeps_ite (Prog.keeps_pure _)
      ((keepsRam_device _).bind fun _ => Prog.keeps_pure _)

theorem keepsRam_sendReadPacket (packetSize : Nat) (l : ReadLocals H) :
    (sendReadPacket env packetSize l : Stub W D S C _).Keeps RamKept := by
  refine Prog.Keeps.bind (keepsRam_flashReadBuff env _ _) fun read => ?_
  cases read with
  | none => exact Prog.keeps_pure _
  | some data => exact (keepsRam_sendFrame env _).bind fun _ => Prog.keeps_pure _

theorem keepsRam_readFlashStep (readSize packetSize : Nat) (l : ReadLocals H) :
    (readFlashStep env readSize packetSize l : Stub W D S C _).Keeps RamKept := by
  refine Prog.keeps_ite ((keepsRam_pollAck env l).bind fun acked => ?_) (Prog.keeps_pure _)
  cases acked with
  | none => exact Prog.keeps_pure _
  | some l =>
    refine Prog.keeps_ite ((keepsRam_sendReadPacket env packetSize l).bind fun sent => ?_)
      (Prog.keeps_pure _)
    cases sent with
    | none => exact Prog.keeps_pure _
    | some l => exact Prog.keeps_pure _

theorem keepsRam_readFlashPostProcess :
    (readFlashPostProcess env ctx : Stub W D S C Int).Keeps RamKept := by
  refine Prog.keeps_ite (Prog.keeps_pure _) ((keepsRam_device _).bind fun _ => ?_)
  refine (Prog.keeps_loop (keepsRam_readFlashStep env _ _) _).bind fun exit => ?_
  cases exit with
  | error code => exact Prog.keeps_pure _
  | ok md5Ctx => exact (keepsRam_sendFrame env _).bind fun _ => Prog.keeps_pure _

theorem keepsRam_runPostProcess (p : PostProcess C) :
    (runPostProcess env ctx p).Keeps RamKept := by
  cases p with
  | flashData => exact Prog.keeps_get.bind fun _ => keepsRam_writeFlashData env _
  | flashDeflData => exact keepsRam_flashDeflDataPostProcess env ctx
  | memEnd =>
    exact Prog.keeps_ite ((keepsRam_device _).bind fun _ => (keepsRam_device _).bind fun _ =>
      Prog.keeps_pure _) (Prog.keeps_pure _)
  | changeBaudrate => exact (keepsRam_device _).bind fun _ => Prog.keeps_pure _
  | readFlash => exact keepsRam_readFlashPostProcess env ctx
  | plugin callback =>
    refine keepsRam_focus (fun s t => ?_) (fun s t => ?_) _
    · rfl
    · rfl

theorem ramKept_answered (s : StubState W D S C) (r : Int × CommandResponseData C) :
    RamKept s (s.answered env ctx r) := by
  unfold StubState.answered
  split_ifs <;> exact .of_eq rfl rfl

theorem keepsRam_postProcess : (postProcess env ctx : Stub W D S C Unit).Keeps RamKept := by
  refine Prog.keeps_get.bind fun s => ?_
  cases s.pendingPostProcess with
  | none => exact Prog.keeps_pure _
  | some callback =>
    exact (keepsRam_runPostProcess env ctx callback).bind fun result =>
      Prog.keeps_modify fun _ => .event rfl rfl id

end Callbacks

end FlasherStub
