import FlasherStub.History
import FlasherStub.SimulatedDevice

/-! Rejected commands. A request that is malformed, corrupted or untimely is answered, and that
is all: the stub stays as it was, and the next frame finds it so. -/

namespace FlasherStub

open ByteMemory Budget

variable {W D H : Type}

section Nand

variable (driver : NandDriver W) {resp : NandResponse}

/-- A slot that rejects a request has done nothing. -/
def RejectsUnchanged (resp : NandResponse) (p : NandStub W (Int × NandResponse)) : Prop :=
  ∀ s, p.Ensures s (fun _ => True) fun r t => IsValidation r.1 → t = s ∧ r.2 = resp

theorem rejectsUnchanged_pure (code : Int) :
    RejectsUnchanged (W := W) resp (pure (code, resp)) :=
  fun _ => Prog.Ensures.pure fun _ => ⟨rfl, rfl⟩

theorem rejectsUnchanged_ite {c : Prop} [Decidable c] {p q : NandStub W (Int × NandResponse)}
    (hp : RejectsUnchanged resp p) (hq : RejectsUnchanged resp q) :
    RejectsUnchanged resp (if c then p else q) := by
  split
  · exact hp
  · exact hq

theorem rejectsUnchanged_get {k : NandState × W → NandStub W (Int × NandResponse)}
    (h : ∀ s, RejectsUnchanged resp (k s)) : RejectsUnchanged resp (Prog.get >>= k) :=
  fun s => Prog.Ensures.bind (Prog.Ensures.get (h s s))

theorem rejectsUnchanged_accepted {p : NandStub W (Int × NandResponse)}
    (h : p.Gives fun r => ¬IsValidation r.1) : RejectsUnchanged resp p :=
  fun s => (h s).mono (fun _ _ => trivial) fun _ _ accepted rejected => absurd rejected accepted

theorem not_validation_success : ¬IsValidation responseSuccess := by decide

theorem not_validation_failedSpiOp : ¬IsValidation responseFailedSpiOp := by decide

theorem not_validation_nandErr (r : NandResult) : ¬IsValidation (nandErrToResponse r) := by
  cases r <;> decide

theorem gives_nandWriteFullPage (page : Nat) :
    (nandWriteFullPage driver page).Gives fun r => ¬IsValidation r :=
  Prog.gives_bind fun _ => Prog.gives_bind fun ret => Prog.gives_ite
    (Prog.gives_pure (not_validation_nandErr ret))
    (Prog.gives_bind fun _ => Prog.gives_pure not_validation_success)

theorem gives_nandWriteFlushPage :
    (nandWriteFlushPage driver).Gives fun r => ¬IsValidation r := by
  refine Prog.gives_bind fun s => Prog.gives_ite (Prog.gives_bind fun ret => ?_)
    (gives_nandWriteFullPage driver _)
  exact Prog.gives_ite (Prog.gives_pure (not_validation_nandErr ret))
    (gives_nandWriteFullPage driver _)

theorem gives_nandCopyStep (mem : Memory) (l : NandCopy) : (nandCopyStep driver mem l).Gives
    (Sum.elim (fun _ => True) fun r => ¬IsValidation r) := by
  refine Prog.gives_ite (Prog.gives_bind fun next => Prog.gives_bind fun s => ?_)
    (Prog.gives_pure not_validation_success)
  refine Prog.gives_ite ((gives_nandWriteFlushPage driver).bind fun ret sound => ?_)
    (Prog.gives_pure trivial)
  exact Prog.gives_ite (Prog.gives_bind fun _ => Prog.gives_pure sound) (Prog.gives_pure trivial)

theorem gives_nandFlushPadded : (nandFlushPadded driver).Gives fun r => ¬IsValidation r := by
  refine Prog.gives_bind fun _ => (gives_nandWriteFlushPage driver).bind fun ret sound => ?_
  exact Prog.gives_ite (Prog.gives_bind fun _ => Prog.gives_pure sound)
    (Prog.gives_pure not_validation_success)

theorem gives_nandEraseBlocks (page count : Nat) :
    (nandEraseBlocks driver page count).Gives fun r => ¬IsValidation r := by
  induction count generalizing page with
  | zero => exact Prog.gives_pure not_validation_success
  | succ count ih =>
    refine Prog.gives_bind fun ret => Prog.gives_ite ?_ (ih _)
    exact Prog.gives_pure (not_validation_nandErr ret)

theorem rejectsUnchanged_attach (mem : Memory) (data len : Nat) :
    RejectsUnchanged resp (nandPluginAttach driver mem data len resp) := by
  refine rejectsUnchanged_ite (rejectsUnchanged_pure _) (rejectsUnchanged_accepted ?_)
  refine Prog.gives_bind fun result => Prog.gives_ite ?_ (Prog.gives_bind fun id => ?_)
  · exact Prog.gives_pure not_validation_failedSpiOp
  · exact Prog.gives_bind fun _ => Prog.gives_bind fun _ => Prog.gives_pure not_validation_success

theorem rejectsUnchanged_readBbm (mem : Memory) (data len : Nat) :
    RejectsUnchanged resp (nandPluginReadBbm driver mem data len resp) := by
  refine rejectsUnchanged_ite (rejectsUnchanged_pure _) (rejectsUnchanged_accepted ?_)
  refine Prog.gives_bind fun spare => ?_
  cases spare with
  | none => exact Prog.gives_pure not_validation_failedSpiOp
  | some bytes => exact Prog.gives_pure not_validation_success

theorem rejectsUnchanged_writeBbm (mem : Memory) (data len : Nat) :
    RejectsUnchanged resp (nandPluginWriteBbm driver mem data len resp) := by
  refine rejectsUnchanged_ite (rejectsUnchanged_pure _) (rejectsUnchanged_accepted ?_)
  exact Prog.gives_bind fun ret => Prog.gives_ite (Prog.gives_pure not_validation_failedSpiOp)
    (Prog.gives_pure not_validation_success)

theorem rejectsUnchanged_readFlash (mem : Memory) (data len : Nat) :
    RejectsUnchanged resp (nandPluginReadFlash driver mem data len resp) := by
  refine rejectsUnchanged_ite (rejectsUnchanged_pure _) (rejectsUnchanged_get fun s => ?_)
  refine rejectsUnchanged_ite (rejectsUnchanged_pure _) (rejectsUnchanged_ite
    (rejectsUnchanged_pure _) (rejectsUnchanged_accepted ?_))
  exact Prog.gives_bind fun _ => Prog.gives_pure not_validation_success

theorem rejectsUnchanged_writeFlashBegin (mem : Memory) (data len : Nat) :
    RejectsUnchanged (W := W) resp (nandPluginWriteFlashBegin mem data len resp) := by
  refine rejectsUnchanged_ite (rejectsUnchanged_pure _) (rejectsUnchanged_ite
    (rejectsUnchanged_pure _) (rejectsUnchanged_accepted ?_))
  exact Prog.gives_bind fun _ => Prog.gives_pure not_validation_success

theorem rejectsUnchanged_writeFlashData (mem : Memory) (data len : Nat) :
    RejectsUnchanged resp (nandPluginWriteFlashData driver mem data len resp) := by
  refine rejectsUnchanged_get fun s => rejectsUnchanged_ite (rejectsUnchanged_pure _) ?_
  refine rejectsUnchanged_ite (rejectsUnchanged_pure _) (rejectsUnchanged_ite
    (rejectsUnchanged_pure _) (rejectsUnchanged_ite (rejectsUnchanged_pure _)
      (rejectsUnchanged_ite (rejectsUnchanged_pure _) (rejectsUnchanged_accepted ?_))))
  exact (Prog.gives_loop (gives_nandCopyStep driver mem) _).bind fun ret sound =>
    Prog.gives_pure sound

theorem rejectsUnchanged_eraseRegion (mem : Memory) (data len : Nat) :
    RejectsUnchanged resp (nandPluginEraseRegion driver mem data len resp) := by
  refine rejectsUnchanged_ite (rejectsUnchanged_pure _) (rejectsUnchanged_ite
    (rejectsUnchanged_pure _) (rejectsUnchanged_accepted ?_))
  exact (gives_nandEraseBlocks driver _ _).bind fun ret sound => Prog.gives_pure sound

theorem rejectsUnchanged_readPageDebug (mem : Memory) (data len : Nat) :
    RejectsUnchanged resp (nandPluginReadPageDebug driver mem data len resp) := by
  refine rejectsUnchanged_ite (rejectsUnchanged_pure _) (rejectsUnchanged_get fun s => ?_)
  refine rejectsUnchanged_ite (rejectsUnchanged_pure _) (rejectsUnchanged_accepted ?_)
  refine Prog.gives_bind fun page => ?_
  cases page with
  | none => exact Prog.gives_pure not_validation_failedSpiOp
  | some pageBuf => exact Prog.gives_pure not_validation_success

theorem rejectsUnchanged_writeFlashEnd (len : Nat) :
    RejectsUnchanged resp (nandPluginWriteFlashEnd driver len resp) := by
  refine rejectsUnchanged_get fun s => rejectsUnchanged_ite (rejectsUnchanged_pure _) ?_
  refine rejectsUnchanged_ite (rejectsUnchanged_pure _) (rejectsUnchanged_ite
    (rejectsUnchanged_pure _) (rejectsUnchanged_accepted ?_))
  have ends (ret : Int) (sound : ¬IsValidation ret) : (if ret ≠ responseSuccess then
      pure (ret, resp) else NandStub.modifyWrite (fun _ => {}) >>= fun _ =>
        pure (responseSuccess, resp) : NandStub W _).Gives fun r => ¬IsValidation r.1 :=
    Prog.gives_ite (Prog.gives_pure sound)
      (Prog.gives_bind fun _ => Prog.gives_pure not_validation_success)
  exact Prog.gives_ite ((gives_nandFlushPadded driver).bind ends)
    (Prog.Gives.bind (P := fun r => ¬IsValidation r) (Prog.gives_pure not_validation_success) ends)

theorem rejectsUnchanged_nandHandler (idx : Nat) (mem : Memory) (data len : Nat) :
    RejectsUnchanged resp (nandHandler driver idx mem data len resp) := by
  unfold nandHandler
  split
  · exact rejectsUnchanged_attach driver mem data len
  · exact rejectsUnchanged_readBbm driver mem data len
  · exact rejectsUnchanged_writeBbm driver mem data len
  · exact rejectsUnchanged_readFlash driver mem data len
  · exact rejectsUnchanged_writeFlashBegin mem data len
  · exact rejectsUnchanged_writeFlashData driver mem data len
  · refine rejectsUnchanged_accepted ?_
    exact (gives_nandEraseBlocks driver _ _).bind fun ret sound => Prog.gives_pure sound
  · exact rejectsUnchanged_eraseRegion driver mem data len
  · exact rejectsUnchanged_readPageDebug driver mem data len
  · exact rejectsUnchanged_writeFlashEnd driver len
  · exact rejectsUnchanged_pure _

end Nand

variable {D : Type} {env : Platform W D H NandState NandCallback} {driver : NandDriver W}
  {md5 : Md5 H} {transport : TransportOps W} {patched : Nat → Bool}
  {s u : StubState W D NandState NandCallback} {f : Frame}

theorem ensures_dispatch_rejects (table : env.plugin = nandPlugin driver md5 transport patched)
    (ctx : CmdCtx) (o : Opcode) (s : StubState W D NandState NandCallback) :
    (dispatch env ctx o).Ensures s (fun _ => True)
      fun r u => IsValidation r.1 → Queried env s u := by
  by_cases slot : ∃ idx, o = .plugin idx
  · obtain ⟨idx, rfl⟩ := slot
    have unchanged : RejectsUnchanged {}
        (env.plugin.table idx ctx.command ctx.mem ctx.data ctx.packetSize {}) := by
      rw [table]
      exact rejectsUnchanged_ite (rejectsUnchanged_nandHandler driver idx _ _ _)
        (rejectsUnchanged_pure _)
    refine Prog.Ensures.bind (Prog.Ensures.focus ((unchanged _).post fun r u unchanged => ?_))
    obtain ⟨code, response⟩ := r
    dsimp only
    cases pending : response.postProcess with
    | none =>
      refine Prog.Ensures.pure fun rejected => .inl ?_
      rw [(unchanged rejected).1]
    | some callback =>
      refine Prog.Ensures.bind (Prog.Ensures.modify (Prog.Ensures.pure fun rejected => ?_))
      have empty : response = {} := (unchanged rejected).2
      rw [empty] at pending
      cases pending
  · exact (ensures_dispatch ctx s (not_exists.mp slot)).mono (fun _ _ => trivial)
      fun r u spec => spec.rejects

/-- The header checks, or the handler of `f`, answer it with a validation code. -/
inductive Rejected (env : Platform W D H NandState NandCallback) (f : Frame)
    (s : StubState W D NandState NandCallback) : Int → Prop where
  | header (bad : ¬f.HeaderOk) : Rejected env f s f.rejectCode
  | handler {r u} (handled : Handled env f s r u) (validation : IsValidation r.1) :
    Rejected env f s r.1

theorem Handled.rejects (table : env.plugin = nandPlugin driver md5 transport patched)
    {r : Int × NandResponse} (h : Handled env f s r u) (validation : IsValidation r.1)
    (idle : s.pendingPostProcess = none) : ∃ q, Queried env s q ∧
      (handleCommand env f.buffer f.size).Returns s ()
        (q.afterSend env (responseFrame f.ctx.command r.1 none)) := by
  have queried := (ensures_dispatch_rejects table f.ctx _ s).2 r u h.returns validation
  have bad : r.1 ≠ responseSuccess := by
    intro good
    rw [good] at validation
    exact not_validation_success validation
  have pending : u.pendingPostProcess = none := by
    obtain rfl | rfl := queried <;> exact idle
  have clear : u.accumulatedResult = responseSuccess := by
    obtain rfl | rfl := queried <;> exact h.clear
  have answered : u.answered env f.ctx r =
      u.afterSend env (responseFrame f.ctx.command r.1 none) := by
    rw [StubState.answered, if_neg bad, ← pending, ← clear]
    rfl
  exact ⟨u, queried, answered ▸ h.returns_idle pending⟩

/-- One state, seen after the pasts `a` and `b`. -/
def SameState (a b s t : StubState W D NandState NandCallback) : Prop :=
  ∃ y : StubState W D NandState NandCallback, s = y.under (.history a) ∧ t = y.under (.history b)

theorem Queried.sameState {frame : List UInt8} (queried : Queried env s u)
    (sends : ∀ frame w, env.transport.sendFrame frame w = w)
    (queries : ∀ w, (env.lib.getSecurityInfo w).2 = w) :
    SameState s (u.afterSend env frame) s (u.afterSend env frame) := by
  refine ⟨s.unseen, (unseen_under_history s rfl rfl).symm, ?_⟩
  obtain rfl | rfl := queried
  · simp [StubState.afterSend, StubState.under, StubState.unseen, Residue.history, sends]
  · simp [StubState.afterSend, StubState.under, StubState.unseen, Residue.history, sends, queries]

theorem lockstep_sameState (table : env.plugin = nandPlugin driver md5 transport patched)
    {a b t : StubState W D NandState NandCallback} (same : SameState a b s t)
    (frames : List Frame) :
    (serve env frames).Lockstep (serve env frames) s t (SameState a b) fun _ => SameState a b := by
  have unhistoric : env.plugin.Unhistoric := by
    rw [table]
    exact nandPlugin_unhistoric driver md5 transport patched
  obtain ⟨x, rfl, rfl⟩ := same
  have both := (mirrors_serve a unhistoric frames).lockstep (mirrors_serve b unhistoric frames)
    (Prog.Ensures.of_returns (s := x) fun _ _ _ => trivial)
  refine both.mono (fun u v h => ?_) fun _ u v h => ?_
  all_goals
    obtain ⟨y, -, hu, hv⟩ := h
    exact ⟨y, hu, hv⟩

theorem Rejected.returns (table : env.plugin = nandPlugin driver md5 transport patched)
    {code : Int} (rejected : Rejected env f s code) (idle : s.pendingPostProcess = none) :
    ∃ q, Queried env s q ∧ (handleCommand env f.buffer f.size).Returns s ()
      (q.afterSend env (responseFrame f.ctx.command code none)) := by
  cases rejected with
  | header bad => exact ⟨s, .inl rfl, (returns_handleCommand_reject env bad s _).mpr rfl⟩
  | handler handled validation => exact handled.rejects table validation idle

/-- A rejected command sends its answer and leaves everything else as it was: the sessions, the
statics, the pending callback, and what the device holds. The frames that come next are served as
if it had never been sent. -/
theorem rejected_without_trace (table : env.plugin = nandPlugin driver md5 transport patched)
    {s₀ : StubState W D NandState NandCallback} (idle : s₀.pendingPostProcess = none)
    {before : List Frame} (run : (serve env before).Returns s₀ () s) {code : Int}
    (rejected : Rejected env f s code) :
    ∃ q t, Queried env s q ∧ t = q.afterSend env (responseFrame f.ctx.command code none) ∧
      t.pendingPostProcess = none ∧ (handleCommand env f.buffer f.size).Returns s () t ∧
      (∀ {M : Type} (contents : W → M),
        (∀ frame w, contents (env.transport.sendFrame frame w) = contents w) →
        (∀ w, contents (env.lib.getSecurityInfo w).2 = contents w) →
        contents t.world = contents s.world) ∧
      ((∀ frame w, env.transport.sendFrame frame w = w) →
        (∀ w, (env.lib.getSecurityInfo w).2 = w) → ∀ frames : List Frame,
        (serve env frames).Lockstep (serve env frames) s t (SameState s t)
          fun _ => SameState s t) := by
  have idle : s.pendingPostProcess = none := serve_pending idle run
  obtain ⟨q, queried, returns⟩ := rejected.returns table idle
  refine ⟨q, _, queried, rfl, ?_, returns, fun contents sends queries => ?_,
    fun sends queries frames => ?_⟩
  · exact handleCommand_idle idle returns
  · refine (sends _ _).trans ?_
    obtain rfl | rfl := queried
    · rfl
    · exact queries s.world
  · exact lockstep_sameState table (queried.sameState sends queries) frames

def corruptedBlock : Frame :=
  mkFrame espFlashData 0 (setU32ToLe 1 ++ setU32ToLe 0 ++ List.replicate 8 0 ++ [7])

theorem handled_corruptedBlock {s : StubState SimWorld (List SimInflate) NandState NandCallback}
    (armed : checkFlashInProgress s = responseSuccess)
    (clear : s.accumulatedResult = responseSuccess) :
    Handled (simNandPlatform 4 []) corruptedBlock s (responseBadDataChecksum, {}) s := by
  have sized : ¬corruptedBlock.ctx.packetSize < flashDataHeaderSize := by decide
  have fits : ¬getLeToU32 corruptedBlock.ctx.mem corruptedBlock.ctx.data ≠
      actualDataSize corruptedBlock.ctx := by decide
  have checksum : validateChecksum corruptedBlock.ctx.mem
      (corruptedBlock.ctx.data + flashDataHeaderSize) (actualDataSize corruptedBlock.ctx)
      corruptedBlock.ctx.checksum = responseBadDataChecksum := by decide
  have bad : responseBadDataChecksum ≠ responseSuccess := by decide
  refine ⟨by decide, clear, by decide, ?_⟩
  have opcode : Opcode.ofByte corruptedBlock.ctx.command = .flashData := by decide
  rw [opcode, dispatch, withEmptyResponse, flashData]
  simp [Prog.returns_bind, sized, armed, fits, checksum, bad]

/-- A corrupted block in a session is not missed when it is sent again. -/
theorem rejected_without_trace_checksum : ∃ s q t,
    (serve (simNandPlatform 4 []) [beginFrame espFlashBegin 1 0]).Returns
      (simNandStart fun _ => 0xFF) () s ∧
    Queried (simNandPlatform 4 []) s q ∧
    t = q.afterSend (simNandPlatform 4 [])
      (responseFrame corruptedBlock.ctx.command responseBadDataChecksum none) ∧
    (handleCommand (simNandPlatform 4 []) corruptedBlock.buffer corruptedBlock.size).Returns s () t ∧
    ∀ frames : List Frame, (serve (simNandPlatform 4 []) frames).Lockstep
      (serve (simNandPlatform 4 []) frames) s t (SameState s t) fun _ => SameState s t := by
  obtain ⟨s, run, armed, clear⟩ : ∃ s, (serve (simNandPlatform 4 [])
      [beginFrame espFlashBegin 1 0]).Returns (simNandStart fun _ => 0xFF) () s ∧
        checkFlashInProgress s = responseSuccess ∧ s.accumulatedResult = responseSuccess :=
    ⟨_, ⟨20, _, rfl⟩, rfl, rfl⟩
  obtain ⟨q, t, queried, after, -, returns, -, same⟩ := rejected_without_trace
    (f := corruptedBlock) (show (simNandPlatform 4 []).plugin = _ from rfl) rfl run
      (.handler (handled_corruptedBlock armed clear) (by decide))
  exact ⟨s, q, t, run, queried, after, returns, same (fun _ _ => rfl) fun _ => rfl⟩

end FlasherStub
