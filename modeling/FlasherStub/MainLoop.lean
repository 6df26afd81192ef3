import FlasherStub.Dispatcher
import FlasherStub.SdioLine

/-! The main loop of `main.c`. It polls, hands each frame to `handle_command`, and releases the
frame when that is over. The host gets its answer, and may go on, before the callback runs. -/

namespace FlasherStub

open ByteMemory Budget

variable {W D H S C : Type} (env : Platform W D H S C)

/-- `handle_command` up to the answer, and whether the command has been executed. -/
def respondTo (f : Frame) : Stub W D S C Bool := do
  let ctx := CmdCtx.parse f.buffer
  if ctx.direction ≠ directionRequest then
    sendResponse env ctx.command responseInvalidCommand none
    pure false
  else if f.size ≠ ctx.packetSize + headerSize then
    sendResponse env ctx.command responseBadDataLen none
    pure false
  else
    let s ← .get
    if s.accumulatedResult ≠ responseSuccess then
      sendResponse env ctx.command s.accumulatedResult none
      setAccumulatedResult responseSuccess
      pure false
    else if Opcode.ofByte ctx.command = .runUserCode then pure false
    else
      answer env ctx
      pure true

def finishWith (f : Frame) (executed : Bool) : Stub W D S C Unit :=
  if executed then postProcess env f.ctx else pure ()

theorem returns_handleCommand_iff (f : Frame) (s t : StubState W D S C) :
    (handleCommand env f.buffer f.size).Returns s () t ↔ ∃ executed u,
      (respondTo env f).Returns s executed u ∧ (finishWith env f executed).Returns u () t := by
  unfold handleCommand respondTo finishWith Frame.ctx
  dsimp only
  split_ifs with direction size userCode
  · simp [Prog.returns_bind]
  · simp [Prog.returns_bind]
  · simp only [Prog.returns_get_bind]
    split_ifs with error
    · simp [Prog.returns_bind]
    · simp [execute, userCode]
  · simp only [Prog.returns_get_bind]
    split_ifs with error
    · simp [Prog.returns_bind]
    · simp [execute, userCode, Prog.returns_bind, Unique.exists_iff]

/-- The stub without its transport. Between the parts it knows if the command was executed. -/
def stubServer : Mailbox.Server (StubState W D S C) (Bool × StubState W D S C) Frame where
  respond f s t := (respondTo env f).Returns s t.1 t.2
  finish f t s := (finishWith env f t.1).Returns t.2 () s
  answers s := s.sent.length
  given t := t.2.sent.length

theorem serves_iff (frames : List Frame) (s t : StubState W D S C) :
    (stubServer env).Serves frames s t ↔ (serve env frames).Returns s () t := by
  constructor
  · intro serves
    induction serves with
    | nil s => exact (Prog.returns_pure _ _ _ _).mpr ⟨rfl, rfl⟩
    | snoc before responds finishes ih =>
      exact (returns_serve_snoc env _ _ _ _).mpr
        ⟨_, ih, (returns_handleCommand_iff env _ _ _).mpr ⟨_, _, responds, finishes⟩⟩
  · intro run
    induction frames using List.reverseRecOn generalizing t with
    | nil =>
      obtain ⟨-, rfl⟩ := (Prog.returns_pure _ _ _ _).mp run
      exact .nil t
    | append_singleton frames f ih =>
      obtain ⟨u, before, last⟩ := (returns_serve_snoc env _ _ _ _).mp run
      obtain ⟨executed, v, responds, finishes⟩ := (returns_handleCommand_iff env _ _ _).mp last
      exact .snoc (u := (executed, v)) (ih u before) responds finishes

section Callbacks

theorem keepsSilent_writeFlashData (data : List UInt8) :
    (writeFlashData env data : Stub W D S C Int).Keeps Silent := by
  intro s
  have requested : Silent s (s.requested data) := ⟨rfl, rfl, rfl⟩
  refine (ensures_writeFlashData env data s).mono
    (fun _ h => IsTrans.trans _ _ _ requested h.silent) fun r t h => ?_
  cases h with
  | stopped error ahead => exact IsTrans.trans _ _ _ requested ahead.silent
  | failed w ahead erased | written w ahead erased =>
    exact IsTrans.trans _ _ _ (IsTrans.trans _ _ _ requested ahead.silent) ⟨rfl, rfl, rfl⟩

theorem keepsSilent_deflDataStep (ctx : CmdCtx) (dataSize : Nat) (l : DeflLocals) :
    (deflDataStep env ctx dataSize l : Stub W D S C _).Keeps Silent := by
  have flushes : (flushWindow env : Stub W D S C Int).Keeps Silent := by
    refine Prog.keeps_get.bind fun s => (keepsSilent_writeFlashData env _).bind fun r => ?_
    exact Prog.keeps_ite (Prog.keeps_pure _)
      ((Prog.keeps_modify fun _ => ⟨rfl, rfl, rfl⟩).bind fun _ => Prog.keeps_pure _)
  have erases : (conditionalEraseNext env : Stub W D S C Int).Keeps Silent := fun s =>
    (ensures_conditionalEraseNext env s).mono (fun _ h => h.silent) fun _ _ h => h.silent
  refine Prog.keeps_ite ?_ (Prog.keeps_ite (Prog.keeps_pure _) (Prog.keeps_pure _))
  refine Prog.keeps_get.bind fun s => erases.bind fun r => Prog.keeps_ite (Prog.keeps_pure _) ?_
  refine Prog.Keeps.bind (Prog.keeps_act fun s => ⟨rfl, rfl, rfl⟩) fun inflated => ?_
  refine Prog.keeps_get.bind fun s => Prog.keeps_ite ?_ (Prog.keeps_pure _)
  exact flushes.bind fun r => Prog.keeps_ite (Prog.keeps_pure _) (Prog.keeps_pure _)

/-- Only the callbacks of READ_FLASH and of plugins talk to the host. -/
def PostProcess.IsSilent : PostProcess C → Prop
  | .readFlash | .plugin _ => False
  | _ => True

theorem keepsSilent_runPostProcess (ctx : CmdCtx) {p : PostProcess C} (silent : p.IsSilent) :
    (runPostProcess env ctx p : Stub W D S C Int).Keeps Silent := by
  have device (f : W → W) : (Stub.device f : Stub W D S C Unit).Keeps Silent :=
    Prog.keeps_modify fun _ => ⟨rfl, rfl, rfl⟩
  cases p with
  | flashData => exact Prog.keeps_get.bind fun s => keepsSilent_writeFlashData env _
  | flashDeflData =>
    have inflates (l : DeflLocals) := Prog.keeps_loop (keepsSilent_deflDataStep (W := W) (S := S)
      (C := C) env ctx (getLeToU32 ctx.mem ctx.data)) l
    exact Prog.keeps_ite ((Prog.keeps_modify fun _ => ⟨rfl, rfl, rfl⟩).bind fun _ => inflates _)
      (inflates _)
  | memEnd =>
    exact Prog.keeps_ite ((device _).bind fun _ => (device _).bind fun _ => Prog.keeps_pure _)
      (Prog.keeps_pure _)
  | changeBaudrate => exact (device _).bind fun _ => Prog.keeps_pure _
  | readFlash | plugin => exact silent.elim

end Callbacks

def Plugin.Quiet (plugin : Plugin W S C) (idx : Nat) : Prop :=
  ∀ command mem data len, (plugin.table idx command mem data len {}).Gives
    fun r => r.2.postProcess = none

def opcodeOf (p : List UInt8) : Opcode := Opcode.ofByte (p.getD 1 0).toNat

/-- A frame that has one answer, or the eight of SYNC, before the callback starts. Not so
RUN_USER_CODE, and the commands whose callback goes on talking to the host. -/
structure Conversational (plugin : Plugin W S C) (p : List UInt8) : Prop where
  frame : IsFrame p
  userCode : opcodeOf p ≠ .runUserCode
  readFlash : opcodeOf p ≠ .readFlash
  quiet : ∀ idx, opcodeOf p = .plugin idx → plugin.Quiet idx

theorem opcodeOf_bytes {f : Frame} (long : 1 < f.bytes.length) :
    Opcode.ofByte f.ctx.command = opcodeOf f.bytes := by
  rw [opcodeOf, List.getD_eq_getElem _ _ long]
  simp only [Frame.bytes, Memory.getElem_read, Nat.zero_add]
  rfl

theorem Frame.HeaderOk.opcode {f : Frame} (ok : f.HeaderOk) :
    Opcode.ofByte f.ctx.command = opcodeOf f.bytes := by
  refine opcodeOf_bytes ?_
  rw [Frame.bytes, Memory.length_read, ok.2]
  exact Nat.lt_add_left _ (by decide)

theorem ensures_dispatch_quiet (ctx : CmdCtx) {o : Opcode} (readFlash : o ≠ .readFlash)
    (quiet : ∀ idx, o = .plugin idx → env.plugin.Quiet idx) {s : StubState W D S C}
    (idle : s.pendingPostProcess = none) :
    (dispatch env ctx o).Ensures s (fun _ => True) fun _ t =>
      s.sent.length ≤ t.sent.length ∧ ∀ p, t.pendingPostProcess = some p → p.IsSilent := by
  by_cases slot : ∃ idx, o = .plugin idx
  · obtain ⟨idx, rfl⟩ := slot
    have table := quiet idx rfl ctx.command ctx.mem ctx.data ctx.packetSize (s.plugin, s.world)
    refine Prog.Ensures.bind (Prog.Ensures.focus (table.mono (fun _ _ => trivial)
      fun r u none => ?_))
    dsimp only
    rw [none]
    exact Prog.Ensures.bind (Prog.Ensures.pure (Prog.Ensures.pure
      ⟨Nat.le_refl _, fun p pending => by cases idle.symm.trans pending⟩))
  · refine (ensures_dispatch ctx s (not_exists.mp slot)).mono (fun _ _ => trivial) fun r t spec => ?_
    refine ⟨by rw [spec.sent]; simp, fun p pending => ?_⟩
    have registered := spec.pending.symm.trans pending
    rw [idle, Option.or_none] at registered
    split_ifs at registered
    cases o <;> cases registered <;> first | exact trivial | exact absurd rfl readFlash

theorem nandPlugin_quiet (driver : NandDriver W) (md5 : Md5 H) (transport : TransportOps W)
    (patched : Nat → Bool) {idx : Nat} (other : idx ≠ 3) :
    (nandPlugin driver md5 transport patched).Quiet idx := by
  have none_ {resp : NandResponse} (r : Int) (h : resp.postProcess = none) :
      (pure (r, resp) : NandStub W (Int × NandResponse)).Gives fun r => r.2.postProcess = none :=
    Prog.gives_pure h
  intro command mem data len
  refine Prog.gives_ite ?_ (none_ _ rfl)
  match idx with
  | 0 => exact Prog.gives_ite (none_ _ rfl) (Prog.gives_bind fun _ => Prog.gives_ite (none_ _ rfl)
      (Prog.gives_bind fun _ => Prog.gives_bind fun _ => Prog.gives_bind fun _ => none_ _ rfl))
  | 1 => exact Prog.gives_ite (none_ _ rfl) (Prog.gives_bind fun read => by
      cases read <;> exact none_ _ rfl)
  | 2 => exact Prog.gives_ite (none_ _ rfl) (Prog.gives_bind fun _ => Prog.gives_ite
      (none_ _ rfl) (none_ _ rfl))
  | 3 => exact absurd rfl other
  | 4 => exact Prog.gives_ite (none_ _ rfl) (Prog.gives_ite (none_ _ rfl)
      (Prog.gives_bind fun _ => none_ _ rfl))
  | 5 => exact Prog.gives_bind fun _ => Prog.gives_ite (none_ _ rfl) (Prog.gives_ite (none_ _ rfl)
      (Prog.gives_ite (none_ _ rfl) (Prog.gives_ite (none_ _ rfl) (Prog.gives_ite (none_ _ rfl)
        (Prog.gives_bind fun _ => none_ _ rfl)))))
  | 6 => exact Prog.gives_bind fun _ => none_ _ rfl
  | 7 => exact Prog.gives_ite (none_ _ rfl) (Prog.gives_ite (none_ _ rfl)
      (Prog.gives_bind fun _ => none_ _ rfl))
  | 8 => exact Prog.gives_ite (none_ _ rfl) (Prog.gives_bind fun _ => Prog.gives_ite (none_ _ rfl)
      (Prog.gives_bind fun read => by cases read <;> exact none_ _ rfl))
  | 9 => exact Prog.gives_bind fun _ => Prog.gives_ite (none_ _ rfl) (Prog.gives_ite (none_ _ rfl)
      (Prog.gives_ite (none_ _ rfl) (Prog.gives_ite
        (Prog.gives_bind fun _ => Prog.gives_ite (none_ _ rfl) (Prog.gives_bind fun _ => none_ _ rfl))
        (Prog.gives_bind fun _ => Prog.gives_ite (none_ _ rfl)
          (Prog.gives_bind fun _ => none_ _ rfl)))))
  | _ + 10 => exact none_ _ rfl

/-- What may be left when a command has been answered. -/
def StubBusy (_ : Frame) (t : Bool × StubState W D S C) : Prop :=
  (t.1 = false → t.2.pendingPostProcess = none) ∧
    ∀ p, t.2.pendingPostProcess = some p → p.IsSilent

theorem ensures_respondTo {f : Frame} (fits : Conversational env.plugin f.bytes)
    {s : StubState W D S C} (idle : s.pendingPostProcess = none) :
    (respondTo env f).Ensures s (fun _ => True) fun executed t =>
      StubBusy f (executed, t) ∧ s.sent.length < t.sent.length := by
  have refused (frame : List UInt8) (code : Int) :
      StubBusy f (false, { s.afterSend env frame with accumulatedResult := code }) ∧
        s.sent.length < (s.afterSend env frame).sent.length := by
    refine ⟨⟨fun _ => idle, fun p h => ?_⟩, by simp [StubState.afterSend]⟩
    cases idle.symm.trans h
  unfold respondTo
  dsimp only
  split_ifs with direction size userCode
  · exact Prog.Ensures.bind (Prog.Ensures.modify (Prog.Ensures.pure (refused _ s.accumulatedResult)))
  · exact Prog.Ensures.bind (Prog.Ensures.modify (Prog.Ensures.pure (refused _ s.accumulatedResult)))
  · have ok : f.HeaderOk := ⟨not_not.mp direction, not_not.mp size⟩
    exact absurd (ok.opcode.symm.trans userCode) fits.userCode
  · have ok : f.HeaderOk := ⟨not_not.mp direction, not_not.mp size⟩
    refine Prog.Ensures.bind (Prog.Ensures.get ?_)
    split_ifs
    · exact Prog.Ensures.bind (Prog.Ensures.modify (Prog.Ensures.bind (Prog.Ensures.modify
        (Prog.Ensures.pure (refused _ responseSuccess)))))
    · refine Prog.Ensures.bind (ensures_answer env ((ensures_dispatch_quiet env f.ctx ?_ ?_ idle).post
        fun r t h => Prog.Ensures.pure ?_))
      · exact ok.opcode ▸ fits.readFlash
      · exact ok.opcode ▸ fits.quiet
      · have more := h.1
        obtain ⟨resp, sent⟩ := answered_sent env t (CmdCtx.parse f.buffer) r
        refine ⟨⟨fun h => Bool.noConfusion h, fun p pending => h.2 p ?_⟩, ?_⟩
        · unfold StubState.answered at pending
          split_ifs at pending
          exact pending
        · rw [sent, List.length_append, List.length_singleton]
          omega

theorem ensures_finishWith {f : Frame} {executed : Bool} {s : StubState W D S C}
    (busy : StubBusy f (executed, s)) :
    (finishWith env f executed).Ensures s (fun _ => True) fun _ t =>
      t.pendingPostProcess = none ∧ t.sent = s.sent := by
  unfold finishWith
  split_ifs with executed
  · refine Prog.Ensures.bind (Prog.Ensures.get ?_)
    cases pending : s.pendingPostProcess with
    | none => exact Prog.Ensures.pure ⟨pending, rfl⟩
    | some p =>
      have silent := keepsSilent_runPostProcess env f.ctx (busy.2 p pending) s
      exact Prog.Ensures.bind (silent.mono (fun _ _ => trivial) fun e t kept =>
        Prog.Ensures.modify ⟨rfl, kept.sent⟩)
  · exact Prog.Ensures.pure ⟨busy.1 (by simpa using executed), rfl⟩

/-- A stub that is sent such commands answers each of them, and then works on in silence. -/
theorem answers_stubServer : (stubServer env).Answers
    (fun f => Conversational env.plugin f.bytes) (fun s => s.pendingPostProcess = none) StubBusy where
  respond f s t fits idle run := (ensures_respondTo env fits idle).2 _ _ run
  finish f t s busy run := by
    obtain ⟨idle, sent⟩ := (ensures_finishWith env busy).2 _ _ run
    exact ⟨idle, congrArg List.length sent⟩

/-- `OHAI` -/
def greeting : List UInt8 := [0x4F, 0x48, 0x41, 0x49]

/-- The stub when `esp_main` enters its loop, with its statics zeroed. `w` is the device after
the initialisation of clock, flash and transport. -/
def espMainStart (statics : S) (w : W) : StubState W D S C where
  flash := { decompressor := env.tinfl.zero }
  memory := {}
  dirtySeen := false
  pendingPostProcess := none
  accumulatedResult := responseSuccess
  decompressedData := fun _ => 0
  decompressedDataPtr := 0
  plugin := statics
  world := env.transport.sendFrame greeting w
  sent := [greeting]
  trace := []

abbrev StubStage (W D S C : Type) := Mailbox.Stage (StubState W D S C) (Bool × StubState W D S C)

/-- The stub has handled `frames`, one call of `handle_command` after the other; the last call
may stand between its answer and its callback. -/
inductive Worked (s₀ : StubState W D S C) : StubStage W D S C → List Frame → Prop where
  | listening {s : StubState W D S C} {frames : List Frame}
      (served : (serve env frames).Returns s₀ () s) : Worked s₀ (.listening s) frames
  | busy {s t : StubState W D S C} {frames : List Frame} {f : Frame} {executed : Bool}
      (served : (serve env frames).Returns s₀ () s)
      (responds : (respondTo env f).Returns s executed t) :
      Worked s₀ (.busy (executed, t)) (frames ++ [f])
  | finished {s : StubState W D S C} {frames : List Frame}
      (served : (serve env frames).Returns s₀ () s) : Worked s₀ (.finished s) frames

/-- The stub has handled all requests and waits for more. -/
def AllServed (s₀ : StubState W D S C) (requests : List (List UInt8))
    (stage : StubStage W D S C) : Prop :=
  ∃ frames s, frames.map Frame.bytes = requests ∧ (serve env frames).Returns s₀ () s ∧
    stage = .listening s

section Conversation

variable {L : Type} {line : Mailbox.Line L (List UInt8) Frame} {inv : L → Prop} {env}
  {requests : List (List UInt8)} {s₀ : StubState W D S C}

theorem worked {l : L} {stage : StubStage W D S C} {frames : List Frame}
    (reached : Mailbox.Reached line (stubServer env) (fun s => s.pendingPostProcess = none) StubBusy
      s₀ l stage frames) : Worked env s₀ stage frames := by
  cases reached with
  | listening serves => exact .listening ((serves_iff env _ _ _).mp serves)
  | busy serves responds => exact .busy ((serves_iff env _ _ _).mp serves) responds
  | finished serves => exact .finished ((serves_iff env _ _ _).mp serves)

theorem worked_complete {c : Mailbox.Conversation L (List UInt8) (StubState W D S C)
      (Bool × StubState W D S C)} (reads : line.reads = Frame.bytes)
    (complete : c.Complete line (stubServer env) s₀ requests) : AllServed env s₀ requests c.stage := by
  obtain ⟨-, -, frames, s, bytes, serves, stage⟩ := complete
  exact ⟨frames, s, reads ▸ bytes, (serves_iff env _ _ _).mp serves, stage⟩

end Conversation

abbrev SlipSession (W D S C : Type) :=
  Mailbox.Conversation SlipLine (List UInt8) (StubState W D S C) (Bool × StubState W D S C)

def SlipSession.start (requests : List (List UInt8)) (statics : S) (w : W) : SlipSession W D S C :=
  ⟨.start, requests, 0, .listening (espMainStart env statics w)⟩

section SlipSession

variable {env} {requests : List (List UInt8)} (statics : S) (w : W) {n : Nat}
  {c : SlipSession W D S C}

theorem SlipSession.start_sound : Mailbox.Sound slipLine (stubServer env) SlipLine.Turn
    (fun s => s.pendingPostProcess = none) StubBusy (espMainStart env statics w) requests
    (SlipSession.start env requests statics w) [] :=
  .start SlipLine.start_turn rfl rfl rfl rfl Nat.zero_lt_one

theorem carries_conversational : slipLine.Carries (Conversational env.plugin) SlipLine.Turn :=
  SlipLine.carries_slipLine.mono fun _ h => h.frame

variable (fits : ∀ p ∈ requests, Conversational env.plugin p)

include fits

variable (env) in
theorem SlipSession.exists_run : ∃ (n : Nat) (c : SlipSession W D S C),
    Mailbox.Run slipLine (stubServer env) n (SlipSession.start env requests statics w) c ∧
      ∀ d, ¬Mailbox.Works slipLine (stubServer env) c d :=
  (start_sound statics w).exists_run carries_conversational (answers_stubServer env)
    SlipLine.advances_slipLine fits

variable (run : Mailbox.Run slipLine (stubServer env) n (SlipSession.start env requests statics w) c)

include run

theorem SlipSession.sound : ∃ frames, Mailbox.Sound slipLine (stubServer env) SlipLine.Turn
    (fun s => s.pendingPostProcess = none) StubBusy (espMainStart env statics w) requests c frames :=
  (start_sound statics w).run carries_conversational (answers_stubServer env) fits run

theorem SlipSession.bounded :
    n ≤ (requests.map fun p => 20 * (slipSendFrame p).length + 1).sum := by
  have spent := (start_sound statics w).run_left carries_conversational (answers_stubServer env)
    SlipLine.advances_slipLine (fun l l' turn move => Nat.le_of_eq (turn.idles move ▸ rfl)) fits run
  have budget : (SlipSession.start env requests statics w).left slipLine SlipLine.rank
      SlipLine.cost = (requests.map fun p => 20 * (slipSendFrame p).length + 1).sum := by
    have each (p : List UInt8) : 4 * SlipLine.cost p = 20 * (slipSendFrame p).length := by
      unfold SlipLine.cost
      omega
    simp only [Mailbox.Conversation.left, SlipSession.start, each]
    rfl
  omega

end SlipSession

/-- Over SLIP, however the interrupt cuts in and however late the host is: the frames of a host
that waits for each answer are handled once each and in their order, as if they were given to
`handle_command` directly. Each callback works on the frame that was answered, while the next one
may already be on its way, and nothing that the host sends is lost. -/
theorem slip_conversation {requests : List (List UInt8)}
    (fits : ∀ p ∈ requests, Conversational env.plugin p) (statics : S) (w : W) {n : Nat}
    {c : SlipSession W D S C}
    (run : Mailbox.Run slipLine (stubServer env) n (SlipSession.start env requests statics w) c) :
    ∃ frames, Worked env (espMainStart env statics w) c.stage frames ∧
      frames.map Frame.bytes <+: requests ∧ c.line.said <+: requests ∧
      c.line.said.length ≤ frames.length + 1 ∧ c.line.Lossless requests := by
  obtain ⟨frames, sound⟩ := SlipSession.sound statics w fits run
  have said : c.line.said <+: requests := sound.all ▸ List.prefix_append _ _
  have taken := sound.reached.taken_prefix.trans (sound.inv.order.trans said)
  exact ⟨frames, worked sound.reached, taken, said, sound.lag, sound.inv.lossless said⟩

def readRegRequest : List UInt8 := [0, 0x0A, 4, 0, 0, 0, 0, 0, 0, 0, 0, 0]

theorem conversational_readReg :
    ∀ p ∈ [readRegRequest], Conversational (simPlatform 4 []).plugin p := by
  intro p mem
  obtain rfl := List.mem_singleton.mp mem
  have opcode : opcodeOf readRegRequest = .readReg := by decide
  refine ⟨by decide, by decide, by decide, fun idx slot => ?_⟩
  rw [opcode] at slot
  cases slot

theorem slip_conversation_readReg :
    ∃ (n : Nat) (c : SlipSession SimWorld (List SimInflate) Unit Empty) (frames : List Frame),
      Mailbox.Run slipLine (stubServer (simPlatform 4 [])) n
        (SlipSession.start (simPlatform 4 []) [readRegRequest] () ⟨fun _ => 0⟩) c ∧
      (∀ d, ¬Mailbox.Works slipLine (stubServer (simPlatform 4 [])) c d) ∧
      Worked (simPlatform 4 []) (espMainStart (simPlatform 4 []) () ⟨fun _ => 0⟩) c.stage frames ∧
      frames.map Frame.bytes <+: [readRegRequest] ∧ c.line.Lossless [readRegRequest] := by
  obtain ⟨n, c, run, last⟩ := SlipSession.exists_run (simPlatform 4 []) ()
    ⟨fun _ => 0⟩ conversational_readReg
  obtain ⟨frames, worked, bytes, -, -, lossless⟩ :=
    slip_conversation (simPlatform 4 []) conversational_readReg () ⟨fun _ => 0⟩ run
  exact ⟨n, c, frames, run, last, worked, bytes, lossless⟩

/-- The conversation comes to its end. Apart from polls that find nothing, every run has a
bounded number of steps, and it can stop only where all commands have been handled or where the
stub does not return from one. -/
theorem slip_conversation_ends {requests : List (List UInt8)}
    (fits : ∀ p ∈ requests, Conversational env.plugin p) (statics : S) (w : W) {n : Nat}
    {c : SlipSession W D S C}
    (run : Mailbox.Run slipLine (stubServer env) n (SlipSession.start env requests statics w) c) :
    n ≤ (requests.map fun p => 20 * (slipSendFrame p).length + 1).sum ∧
      ((∀ d, ¬Mailbox.Works slipLine (stubServer env) c d) →
        AllServed env (espMainStart env statics w) requests c.stage ∨
          c.Hangs slipLine (stubServer env)) := by
  refine ⟨SlipSession.bounded statics w fits run, fun stuck => ?_⟩
  obtain ⟨frames, sound⟩ := SlipSession.sound statics w fits run
  obtain complete | hangs := sound.stuck SlipLine.advances_slipLine stuck
  · exact .inl (worked_complete rfl complete)
  · exact .inr hangs

theorem slip_conversation_ends_readReg :
    ∃ (n : Nat) (c : SlipSession SimWorld (List SimInflate) Unit Empty), n ≤ 281 ∧
      (AllServed (simPlatform 4 []) (espMainStart (simPlatform 4 []) () ⟨fun _ => 0⟩)
        [readRegRequest] c.stage ∨ c.Hangs slipLine (stubServer (simPlatform 4 []))) := by
  obtain ⟨n, c, run, last⟩ := SlipSession.exists_run (simPlatform 4 []) ()
    ⟨fun _ => 0⟩ conversational_readReg
  obtain ⟨bound, ends⟩ :=
    slip_conversation_ends (simPlatform 4 []) conversational_readReg () ⟨fun _ => 0⟩ run
  exact ⟨n, c, bound, ends last⟩

abbrev SdioSession (W D S C : Type) :=
  Mailbox.Conversation SdioLine (List UInt8) (StubState W D S C) (Bool × StubState W D S C)

def SdioSession.start (requests : List (List UInt8)) (statics : S) (w : W) : SdioSession W D S C :=
  ⟨.start, requests, 0, .listening (espMainStart env statics w)⟩

/-- Over SDIO too the commands of such a host are handled once each and in their order, whenever
the driver disarms; and from wherever the two have got to, all commands can be brought to their
end, unless the stub does not return from one. -/
theorem sdio_conversation {requests : List (List UInt8)}
    (fits : ∀ p ∈ requests, Conversational env.plugin p) (statics : S) (w : W) {n : Nat}
    {c : SdioSession W D S C}
    (run : Mailbox.Run sdioLine (stubServer env) n (SdioSession.start env requests statics w) c) :
    (∃ frames, Worked env (espMainStart env statics w) c.stage frames ∧
      frames.map Frame.bytes <+: requests ∧ c.line.said.length ≤ frames.length + 1 ∧
      .error ∉ c.line.link.returned) ∧
    ∃ m d, Mailbox.Run sdioLine (stubServer env) m c d ∧
      (AllServed env (espMainStart env statics w) requests d.stage ∨
        d.Hangs sdioLine (stubServer env)) := by
  have carries : sdioLine.Carries (Conversational env.plugin) SdioLine.Turn :=
    SdioLine.carries_sdioLine.mono fun _ h => h.frame
  have start : Mailbox.Sound sdioLine (stubServer env) SdioLine.Turn
      (fun s => s.pendingPostProcess = none) StubBusy (espMainStart env statics w) requests
      (SdioSession.start env requests statics w) [] :=
    .start SdioLine.start_turn rfl rfl rfl rfl Nat.zero_lt_one
  have answers := answers_stubServer env
  obtain ⟨frames, sound⟩ := start.run carries answers fits run
  refine ⟨⟨frames, worked sound.reached, ?_, sound.lag, sound.inv.intact.1⟩, ?_⟩
  · have said : c.line.said <+: requests := sound.all ▸ List.prefix_append _ _
    exact sound.reached.taken_prefix.trans (sound.inv.order.trans said)
  · obtain ⟨m, d, onward, stuck⟩ := sound.exists_run carries answers SdioLine.advances_sdioLine fits
    obtain ⟨frames', sound'⟩ := sound.run carries answers fits onward
    obtain complete | hangs := sound'.stuck SdioLine.advances_sdioLine stuck
    · exact ⟨m, d, onward, .inl (worked_complete rfl complete)⟩
    · exact ⟨m, d, onward, .inr hangs⟩

/-- The host has sent its command, and the driver has disarmed before it came. -/
theorem sdio_conversation_readReg :
    ∃ (c : SdioSession SimWorld (List SimInflate) Unit Empty) (frames : List Frame),
      c.line.link.port.driver = .disarmed ∧ c.line.said = [readRegRequest] ∧
      Worked (simPlatform 4 []) (espMainStart (simPlatform 4 []) () ⟨fun _ => 0⟩) c.stage frames ∧
      frames.map Frame.bytes <+: [readRegRequest] ∧
      ∃ m d, Mailbox.Run sdioLine (stubServer (simPlatform 4 [])) m c d ∧
        (AllServed (simPlatform 4 []) (espMainStart (simPlatform 4 []) () ⟨fun _ => 0⟩)
          [readRegRequest] d.stage ∨ d.Hangs sdioLine (stubServer (simPlatform 4 []))) := by
  have run : Mailbox.Run sdioLine (stubServer (simPlatform 4 [])) 1
      (SdioSession.start (simPlatform 4 []) [readRegRequest] () ⟨fun _ => 0⟩) _ :=
    .idles (.works (.refl _) (.put Nat.zero_lt_one)) (.line (.disarm rfl))
  obtain ⟨⟨frames, worked, bytes, -, -⟩, onward⟩ :=
    sdio_conversation (simPlatform 4 []) conversational_readReg () ⟨fun _ => 0⟩ run
  exact ⟨_, frames, rfl, rfl, worked, bytes, onward⟩

end FlasherStub
