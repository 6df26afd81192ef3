import FlasherStub.Leftover
import FlasherStub.Nand

/-! The frames that were sent and the events of the past are a record only: no command looks at
them. -/

namespace FlasherStub

open ByteMemory Budget

variable {W D H S C : Type} (env : Platform W D H S C) (c : StubState W D S C) (ctx : CmdCtx)

theorem mirrors_sendSyncs (n : Nat) :
    (sendSyncs env n : Stub W D S C Unit).Mirrors (.under (.history c)) := by
  induction n with
  | zero => exact Prog.mirrors_pure _
  | succ n ih => exact (mirrors_sendResponse env _ _ _ _).bind fun _ => ih

theorem mirrors_initFlashOperation (isCompressed : Bool) :
    (initFlashOperation env ctx isCompressed : Stub W D S C Int).Mirrors
      (.under (.history c)) := by
  refine Prog.mirrors_ite (Prog.mirrors_pure _) ?_
  refine Prog.mirrors_modify_bind (fun _ => rfl) (Prog.mirrors_modify_bind (fun _ => rfl) ?_)
  exact mirrors_conditionalEraseNext env _

theorem mirrors_handleFlashEnd :
    (handleFlashEnd env ctx : Stub W D S C Int).Mirrors (.under (.history c)) := by
  refine Prog.mirrors_get_bind (fun _ => rfl) fun s => ?_
  refine Prog.mirrors_ite (Prog.mirrors_pure _) (Prog.mirrors_ite (Prog.mirrors_pure _)
    (Prog.mirrors_ite (Prog.mirrors_pure _) ?_))
  exact Prog.mirrors_modify_bind (fun _ => rfl) (Prog.mirrors_pure _)

theorem mirrors_memData :
    (memData env ctx : Stub W D S C Int).Mirrors (.under (.history c)) := by
  refine Prog.mirrors_get_bind (fun _ => rfl) fun s => ?_
  refine Prog.mirrors_ite (Prog.mirrors_pure _) (Prog.mirrors_ite (Prog.mirrors_pure _)
    (Prog.mirrors_ite (Prog.mirrors_pure _) (Prog.mirrors_ite (Prog.mirrors_pure _) ?_)))
  refine Prog.mirrors_modify_bind (fun s => ?_) (Prog.mirrors_pure _)
  simp [StubState.under, Residue.history]

theorem mirrors_memEnd : (memEnd ctx : Stub W D S C Int).Mirrors (.under (.history c)) := by
  refine Prog.mirrors_get_bind (fun _ => rfl) fun s => ?_
  refine Prog.mirrors_ite (Prog.mirrors_pure _) (Prog.mirrors_ite (Prog.mirrors_pure _) ?_)
  refine Prog.mirrors_modify_bind (fun _ => rfl) ?_
  exact Prog.mirrors_modify_bind (fun _ => rfl) (Prog.mirrors_pure _)

theorem mirrors_writeRegEntries (i count : Nat) :
    (writeRegEntries env ctx i count : Stub W D S C Unit).Mirrors (.under (.history c)) := by
  induction count generalizing i with
  | zero => exact Prog.mirrors_pure _
  | succ count ih =>
    refine Prog.mirrors_modify_bind (fun s => ?_) (ih (i + 1))
    dsimp only
    split_ifs <;> rfl

theorem mirrors_md5Step (l : Md5Locals H) :
    (md5Step env l : Stub W D S C _).Mirrors (.under (.history c)) := by
  refine Prog.mirrors_ite ((mirrors_flashReadBuff env _ _ _).bind fun read => ?_)
    (Prog.mirrors_pure _)
  cases read with
  | none => exact Prog.mirrors_pure _
  | some data => exact (mirrors_log _ _).bind fun _ => Prog.mirrors_pure _

theorem mirrors_eraseRegionStep (l : EraseLocals) :
    (eraseRegionStep env l : Stub W D S C _).Mirrors (.under (.history c)) := by
  refine Prog.mirrors_ite ((mirrors_flashStartNextErase env _ _ _).bind fun next => ?_)
    (Prog.mirrors_pure _)
  exact (mirrors_device _ _).bind fun _ => Prog.mirrors_pure _

theorem mirrors_eraseRegion :
    (eraseRegion env ctx : Stub W D S C Int).Mirrors (.under (.history c)) := by
  refine Prog.mirrors_ite (Prog.mirrors_pure _) (Prog.mirrors_get_bind (fun _ => rfl) fun s => ?_)
  refine Prog.mirrors_ite (Prog.mirrors_pure _) ?_
  refine (Prog.mirrors_loop (mirrors_eraseRegionStep env c) _).bind fun left => ?_
  refine Prog.mirrors_act_bind (fun _ => rfl) fun result => ?_
  exact Prog.mirrors_ite (Prog.mirrors_pure _) (Prog.mirrors_pure _)

theorem mirrors_getSecurityInfo :
    (getSecurityInfo env ctx : Stub W D S C _).Mirrors (.under (.history c)) := by
  refine Prog.mirrors_ite (Prog.mirrors_pure _) ?_
  refine Prog.mirrors_act_bind (fun _ => rfl) fun info => ?_
  obtain ⟨ret, bytes⟩ := info
  cases ret <;> exact Prog.mirrors_pure _

theorem mirrors_callPlugin (idx : Nat) :
    (callPlugin env idx ctx).Mirrors (.under (.history c)) := by
  refine Prog.Mirrors.bind ?_ fun r => ?_
  · exact Prog.mirrors_focus _ (fun _ => rfl) fun _ _ => rfl
  · obtain ⟨code, response⟩ := r
    dsimp only
    cases response.postProcess with
    | none => exact Prog.mirrors_pure _
    | some callback => exact Prog.mirrors_modify_bind (fun _ => rfl) (Prog.mirrors_pure _)

theorem mirrors_dispatch (o : Opcode) :
    (dispatch env ctx o).Mirrors (.under (.history c)) := by
  have none_ {handler : Stub W D S C Int} (h : handler.Mirrors (.under (.history c))) :
      (withEmptyResponse handler).Mirrors (.under (.history c)) :=
    h.bind fun _ => Prog.mirrors_pure _
  have act {α β : Type} {g : StubState W D S C → β × StubState W D S C} {k : β → Stub W D S C α}
      {p : Prop} [Decidable p] {a : α} (h : ∀ s, g (s.under (.history c)) =
        ((g s).1, (g s).2.under (.history c))) (hk : ∀ b, (k b).Mirrors (.under (.history c))) :
      (if p then pure a else Prog.act g >>= k).Mirrors (.under (.history c)) :=
    Prog.mirrors_ite (Prog.mirrors_pure a) (Prog.mirrors_act_bind h hk)
  cases o with
  | sync =>
    exact none_ (Prog.mirrors_ite (Prog.mirrors_pure _)
      ((mirrors_sendSyncs env c 7).bind fun _ => Prog.mirrors_pure _))
  | flashBegin => exact none_ (mirrors_initFlashOperation env c ctx false)
  | flashData => exact none_ (mirrors_flashData _ ctx)
  | flashEnd => exact none_ (mirrors_handleFlashEnd env c ctx)
  | memBegin => exact none_ (act (fun _ => rfl) fun _ => Prog.mirrors_pure _)
  | memData => exact none_ (mirrors_memData env c ctx)
  | memEnd => exact none_ (mirrors_memEnd c ctx)
  | writeReg =>
    exact none_ (Prog.mirrors_ite (Prog.mirrors_pure _)
      ((mirrors_writeRegEntries env c ctx _ _).bind fun _ => Prog.mirrors_pure _))
  | readReg => exact act (fun _ => rfl) fun _ => Prog.mirrors_pure _
  | spiAttach => exact none_ (act (fun _ => rfl) fun _ => Prog.mirrors_pure _)
  | spiSetParams =>
    exact none_ (act (fun _ => rfl) fun _ =>
      Prog.mirrors_ite (Prog.mirrors_pure _) (Prog.mirrors_pure _))
  | changeBaudrate => exact none_ (act (fun _ => rfl) fun _ => Prog.mirrors_pure _)
  | flashDeflBegin => exact none_ (mirrors_initFlashOperation env c ctx true)
  | flashDeflData => exact none_ (mirrors_flashDeflData _ ctx)
  | flashDeflEnd => exact none_ (mirrors_handleFlashEnd env c ctx)
  | spiFlashMd5 =>
    exact Prog.mirrors_ite (Prog.mirrors_pure _)
      ((Prog.mirrors_loop (mirrors_md5Step env c) _).bind fun _ => Prog.mirrors_pure _)
  | getSecurityInfo => exact mirrors_getSecurityInfo env c ctx
  | readFlash => exact none_ (act (fun _ => rfl) fun _ => Prog.mirrors_pure _)
  | eraseFlash =>
    exact none_ (Prog.mirrors_act_bind (fun _ => rfl) fun _ =>
      Prog.mirrors_ite (Prog.mirrors_pure _) (Prog.mirrors_pure _))
  | eraseRegion => exact none_ (mirrors_eraseRegion env c ctx)
  | plugin idx => exact mirrors_callPlugin env c ctx idx
  | runUserCode | unknown => exact Prog.mirrors_pure _

/-! The callbacks. -/

theorem mirrors_flushWindow :
    (flushWindow env : Stub W D S C Int).Mirrors (.under (.history c)) := by
  refine Prog.mirrors_get_bind (fun _ => rfl) fun s => ?_
  refine (mirrors_writeFlashData env _ _).bind fun r => Prog.mirrors_ite (Prog.mirrors_pure _) ?_
  exact Prog.mirrors_modify_bind (fun _ => rfl) (Prog.mirrors_pure _)

theorem mirrors_inflate (input : List UInt8) (outBytes : Nat) (flags : TinflFlags) :
    (inflate env input outBytes flags : Stub W D S C _).Mirrors (.under (.history c)) :=
  Prog.mirrors_act fun s => by simp [StubState.under, Residue.history]

theorem mirrors_deflDataStep (dataSize : Nat) (l : DeflLocals) :
    (deflDataStep env ctx dataSize l : Stub W D S C _).Mirrors (.under (.history c)) := by
  refine Prog.mirrors_ite (Prog.mirrors_get_bind (fun _ => rfl) fun s => ?_)
    (Prog.mirrors_ite (Prog.mirrors_pure _) (Prog.mirrors_pure _))
  refine (mirrors_conditionalEraseNext env _).bind fun r => Prog.mirrors_ite (Prog.mirrors_pure _) ?_
  refine (mirrors_inflate env c _ _ _).bind fun r => Prog.mirrors_get_bind (fun _ => rfl) fun s => ?_
  refine Prog.mirrors_ite ((mirrors_flushWindow env c).bind fun r => ?_) (Prog.mirrors_pure _)
  exact Prog.mirrors_ite (Prog.mirrors_pure _) (Prog.mirrors_pure _)

theorem mirrors_flashDeflDataPostProcess :
    (flashDeflDataPostProcess env ctx : Stub W D S C Int).Mirrors (.under (.history c)) := by
  have loop (l : DeflLocals) := Prog.mirrors_loop (mirrors_deflDataStep env c ctx
    (getLeToU32 ctx.mem ctx.data)) l
  exact Prog.mirrors_ite (Prog.mirrors_modify_bind (fun _ => rfl) (loop _)) (loop _)

theorem mirrors_memEndPostProcess :
    (memEndPostProcess env ctx : Stub W D S C Int).Mirrors (.under (.history c)) :=
  Prog.mirrors_ite ((mirrors_device _ _).bind fun _ => (mirrors_device _ _).bind fun _ =>
    Prog.mirrors_pure _) (Prog.mirrors_pure _)

theorem mirrors_sendFrame (frame : List UInt8) :
    (Stub.sendFrame env frame : Stub W D S C Unit).Mirrors (.under (.history c)) :=
  Prog.mirrors_modify fun s => by simp [StubState.under]

theorem mirrors_pollAck (l : ReadLocals H) :
    (pollAck env l : Stub W D S C _).Mirrors (.under (.history c)) := by
  refine Prog.mirrors_act_bind (fun _ => rfl) fun polled => ?_
  cases polled with
  | none => exact Prog.mirrors_pure _
  | error => exact (mirrors_device _ _).bind fun _ => Prog.mirrors_pure _
  | frame ack =>
    exact Prog.mirrors_ite (Prog.mirrors_pure _)
      ((mirrors_device _ _).bind fun _ => Prog.mirrors_pure _)

theorem mirrors_sendReadPacket (packetSize : Nat) (l : ReadLocals H) :
    (sendReadPacket env packetSize l : Stub W D S C _).Mirrors (.under (.history c)) := by
  refine (mirrors_flashReadBuff env _ _ _).bind fun read => ?_
  cases read with
  | none => exact Prog.mirrors_pure _
  | some data => exact (mirrors_sendFrame env c _).bind fun _ => Prog.mirrors_pure _

theorem mirrors_readFlashStep (readSize packetSize : Nat) (l : ReadLocals H) :
    (readFlashStep env readSize packetSize l : Stub W D S C _).Mirrors (.under (.history c)) := by
  refine Prog.mirrors_ite ((mirrors_pollAck env c l).bind fun acked => ?_) (Prog.mirrors_pure _)
  cases acked with
  | none => exact Prog.mirrors_pure _
  | some l =>
    refine Prog.mirrors_ite ((mirrors_sendReadPacket env c _ l).bind fun sent => ?_)
      (Prog.mirrors_pure _)
    cases sent <;> exact Prog.mirrors_pure _

theorem mirrors_readFlashPostProcess :
    (readFlashPostProcess env ctx : Stub W D S C Int).Mirrors (.under (.history c)) := by
  refine Prog.mirrors_ite (Prog.mirrors_pure _) ((mirrors_device _ _).bind fun _ => ?_)
  refine (Prog.mirrors_loop (mirrors_readFlashStep env c _ _) _).bind fun exit => ?_
  cases exit with
  | error code => exact Prog.mirrors_pure _
  | ok md5Ctx => exact (mirrors_sendFrame env c _).bind fun _ => Prog.mirrors_pure _

def PluginIo.after (sent : List (List UInt8)) (s : PluginIo W S) : PluginIo W S :=
  { s with sent := sent ++ s.sent }

section Nand

variable (driver : NandDriver W) (md5 : Md5 H) (transport : TransportOps W)
  (sent : List (List UInt8))

theorem mirrors_nandIoSend (frame : List UInt8) :
    (nandIoSend transport frame).Mirrors (.after sent) :=
  Prog.mirrors_modify fun s => by simp [PluginIo.after]

theorem mirrors_nandIoRelease : (nandIoRelease transport).Mirrors (.after sent) :=
  Prog.mirrors_modify fun _ => rfl

theorem mirrors_nandPollAck (l : NandReadLocals H) :
    (nandPollAck transport l).Mirrors (.after sent) := by
  refine Prog.mirrors_act_bind (fun _ => rfl) fun polled => ?_
  cases polled with
  | none => exact Prog.mirrors_pure _
  | error | frame ack =>
    exact (mirrors_nandIoRelease transport sent).bind fun _ => Prog.mirrors_pure _

theorem mirrors_nandFillSendBuf (currentOffset actualReadSize : Nat) :
    (nandFillSendBuf driver currentOffset actualReadSize).Mirrors (.after sent) := by
  refine Prog.mirrors_loop (fun l => ?_) _
  refine Prog.mirrors_ite (Prog.mirrors_act_bind (fun _ => rfl) fun page => ?_)
    (Prog.mirrors_pure _)
  cases page <;> exact Prog.mirrors_pure _

theorem mirrors_nandSendPacket (packetSize : Nat) (l : NandReadLocals H) :
    (nandSendPacket driver md5 transport packetSize l).Mirrors (.after sent) := by
  have sends (filled : Option (List UInt8)) (n : Nat) (rest : NandReadLocals H) :
      (nandIoSend transport (filled.getD (List.replicate n 0)) >>= fun _ => pure rest).Mirrors
        (.after sent) := (mirrors_nandIoSend transport sent _).bind fun _ => Prog.mirrors_pure _
  exact Prog.mirrors_ite ((Prog.mirrors_pure _).bind fun r => sends r.1 _ _)
    ((mirrors_nandFillSendBuf driver sent _ _).bind fun r => sends r.1 _ _)

theorem mirrors_nandReadFlashPostProcess :
    (nandReadFlashPostProcess driver md5 transport).Mirrors (.after sent) := by
  refine Prog.mirrors_get_bind (fun _ => rfl) fun s => ?_
  refine (mirrors_nandIoRelease transport sent).bind fun _ => ?_
  refine Prog.Mirrors.bind (Prog.mirrors_loop (fun l => ?_) _) fun l => ?_
  · refine Prog.mirrors_ite ((mirrors_nandPollAck transport sent l).bind fun l => ?_)
      (Prog.mirrors_pure _)
    exact Prog.mirrors_ite ((mirrors_nandSendPacket driver md5 transport sent _ l).bind fun _ =>
      Prog.mirrors_pure _) (Prog.mirrors_pure _)
  · exact (mirrors_nandIoSend transport sent _).bind fun _ => Prog.mirrors_pure _

end Nand

/-- The callbacks of the plugin do not look at what was sent before either. -/
def Plugin.Unhistoric (plugin : Plugin W S C) : Prop :=
  ∀ callback ctx sent, (plugin.postProcess callback ctx).Mirrors (.after sent)

theorem nandPlugin_unhistoric (driver : NandDriver W) (md5 : Md5 H) (transport : TransportOps W)
    (patched : Nat → Bool) : (nandPlugin driver md5 transport patched).Unhistoric :=
  fun _ _ sent => mirrors_nandReadFlashPostProcess driver md5 transport sent

variable {env} (unhistoric : env.plugin.Unhistoric)

include unhistoric

theorem mirrors_runPostProcess (p : PostProcess C) :
    (runPostProcess env ctx p : Stub W D S C Int).Mirrors (.under (.history c)) := by
  cases p with
  | flashData => exact mirrors_flashDataPostProcess env _ ctx
  | flashDeflData => exact mirrors_flashDeflDataPostProcess env c ctx
  | memEnd => exact mirrors_memEndPostProcess env c ctx
  | changeBaudrate => exact (mirrors_device _ _).bind fun _ => Prog.mirrors_pure _
  | readFlash => exact mirrors_readFlashPostProcess env c ctx
  | plugin callback =>
    exact (unhistoric callback ctx c.sent).focus (fun _ => rfl) fun _ _ => rfl

theorem sent_runPostProcess {p : PostProcess C} {s t : StubState W D S C} {code : Int}
    (run : (runPostProcess env ctx p).Returns s code t) : ∃ more, t.sent = s.sent ++ more := by
  rw [← unseen_under_history s rfl rfl] at run
  obtain ⟨u, -, rfl⟩ := (mirrors_runPostProcess s ctx unhistoric p).returns run
  exact ⟨u.sent, rfl⟩

theorem mirrors_handleCommand (f : Frame) :
    (handleCommand env f.buffer f.size : Stub W D S C Unit).Mirrors (.under (.history c)) := by
  have runs (ctx : CmdCtx) : (execute env ctx).Mirrors (.under (.history c)) := by
    refine Prog.mirrors_ite (Prog.mirrors_pure _) (Prog.Mirrors.bind ?_ fun _ => ?_)
    · refine (mirrors_dispatch env c ctx _).bind fun r => ?_
      exact (mirrors_setAccumulatedResult _ _).bind fun _ =>
        (mirrors_respond env _ ctx _ _).bind fun _ => mirrors_setAccumulatedResult _ _
    · refine Prog.mirrors_get_bind (fun _ => rfl) fun s => ?_
      cases s.pendingPostProcess with
      | none => exact Prog.mirrors_pure _
      | some p =>
        refine (mirrors_runPostProcess c ctx unhistoric p).bind fun e => ?_
        exact Prog.mirrors_modify fun s => by simp [StubState.under]
  refine Prog.mirrors_ite (mirrors_sendResponse env _ _ _ _) (Prog.mirrors_ite
    (mirrors_sendResponse env _ _ _ _) (Prog.mirrors_get_bind (fun _ => rfl) fun s => ?_))
  exact Prog.mirrors_ite ((mirrors_sendResponse env _ _ _ _).bind fun _ =>
    mirrors_setAccumulatedResult _ _) (runs _)

theorem mirrors_serve (frames : List Frame) :
    (serve env frames : Stub W D S C Unit).Mirrors (.under (.history c)) := by
  induction frames with
  | nil => exact Prog.mirrors_pure _
  | cons f frames ih => exact (mirrors_handleCommand c unhistoric f).bind fun _ => ih

end FlasherStub
