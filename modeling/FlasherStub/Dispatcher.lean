import FlasherStub.HandlerSpec
import FlasherStub.SimulatedDevice

/-! The discipline of `handle_command`, for a plugin table with any content: how often a
command is answered and with what, and when its callback runs. -/

namespace FlasherStub

open ByteMemory Budget

variable {W D H S C : Type} (env : Platform W D H S C)

/-- The handlers and the callbacks of a plugin return codes that the result field can hold. -/
structure Plugin.Codes (plugin : Plugin W S C) : Prop where
  table : ∀ idx command mem data len resp,
    (plugin.table idx command mem data len resp).Gives fun r => IsCode r.1
  postProcess : ∀ callback ctx, (plugin.postProcess callback ctx).Gives IsCode

theorem gives_deflDataStep (ctx : CmdCtx) (dataSize : Nat) (l : DeflLocals) :
    (deflDataStep env ctx dataSize l : Stub W D S C _).Gives
      (Sum.elim (fun _ => True) IsCode) := by
  have written (data : List UInt8) : (writeFlashData env data : Stub W D S C Int).Gives IsCode :=
    (gives_writeFlashData env data).mono fun _ h => h.isCode
  have flushed : (flushWindow env : Stub W D S C Int).Gives IsCode :=
    Prog.gives_bind fun _ => (written _).bind fun _ code => Prog.gives_ite (Prog.gives_pure code)
      (Prog.gives_bind fun _ => Prog.gives_pure isCode_success)
  have inflateError : IsCode responseInflateError := by decide
  refine Prog.gives_ite (Prog.gives_bind fun s => ?_)
    (Prog.gives_ite (Prog.gives_pure inflateError) (Prog.gives_pure isCode_success))
  refine (gives_conditionalEraseNext env).bind fun r code => Prog.gives_ite
    (Prog.gives_pure code.isCode) (Prog.gives_bind fun r => Prog.gives_bind fun s => ?_)
  refine Prog.gives_ite (flushed.bind fun r code => ?_) (Prog.gives_pure trivial)
  exact Prog.gives_ite (Prog.gives_pure code) (Prog.gives_pure trivial)

theorem gives_runPostProcess (codes : env.plugin.Codes) (ctx : CmdCtx) (p : PostProcess C) :
    (runPostProcess env ctx p : Stub W D S C Int).Gives IsCode := by
  cases p with
  | flashData =>
    exact Prog.gives_bind fun _ => (gives_writeFlashData env _).mono fun _ h => h.isCode
  | flashDeflData =>
    have inflates (l : DeflLocals) := Prog.gives_loop (gives_deflDataStep (W := W) (S := S) (C := C)
      env ctx (getLeToU32 ctx.mem ctx.data)) l
    exact Prog.gives_ite (Prog.gives_bind fun _ => inflates _) (inflates _)
  | memEnd =>
    exact Prog.gives_ite (Prog.gives_bind fun _ => Prog.gives_bind fun _ =>
      Prog.gives_pure isCode_success) (Prog.gives_pure isCode_success)
  | changeBaudrate => exact Prog.gives_bind fun _ => Prog.gives_pure isCode_success
  | readFlash =>
    refine Prog.gives_ite (Prog.gives_pure isCode_badDataLen) (Prog.gives_bind fun _ => ?_)
    have exits (l : ReadLocals H) : (Prog.loop (readFlashStep env (getLeToU32 ctx.mem (ctx.data + 4))
        (getLeToU32 ctx.mem (ctx.data + 8))) l : Stub W D S C _).Gives
          fun r => ∀ code, r = .error code → IsCode code := by
      refine Prog.gives_loop (fun l => ?_) l
      refine Prog.gives_ite (Prog.gives_bind fun acked => ?_) (Prog.gives_pure fun _ h => nomatch h)
      cases acked with
      | none => exact Prog.gives_pure fun _ h => nomatch h
      | some l =>
        refine Prog.gives_ite (Prog.gives_bind fun packet => ?_) (Prog.gives_pure trivial)
        cases packet with
        | none =>
          refine Prog.gives_pure fun code h => ?_
          rw [← Except.error.inj h]
          exact isCode_failedSpiOp
        | some l => exact Prog.gives_pure trivial
    refine (exits _).bind fun r code => ?_
    cases r with
    | error e => exact Prog.gives_pure (code e rfl)
    | ok md5Ctx => exact Prog.gives_bind fun _ => Prog.gives_pure isCode_success
  | plugin callback => exact (codes.postProcess callback ctx).focus

theorem ensures_handler (codes : env.plugin.Codes) (ctx : CmdCtx) (o : Opcode)
    (s : StubState W D S C) : (dispatch env ctx o).Ensures s (Silent s) fun r u =>
      IsCode r.1 ∧ u.sent = s.sent ++ if r.1 = responseSuccess then o.early else [] := by
  by_cases slot : ∃ idx, o = .plugin idx
  · obtain ⟨idx, rfl⟩ := slot
    have table := codes.table idx ctx.command ctx.mem ctx.data ctx.packetSize {} (s.plugin, s.world)
    refine Prog.Ensures.bind (Prog.Ensures.focus (table.mono (fun _ _ => ⟨rfl, rfl, rfl⟩)
      fun r u code => ?_))
    have sent : s.sent = s.sent ++ if r.1 = responseSuccess then [] else [] := by simp
    dsimp only
    cases r.2.postProcess with
    | none => exact Prog.Ensures.bind (Prog.Ensures.pure (Prog.Ensures.pure ⟨code, sent⟩))
    | some callback =>
      exact Prog.Ensures.bind (Prog.Ensures.modify (Prog.Ensures.pure ⟨code, sent⟩))
  · exact (ensures_dispatch ctx s (not_exists.mp slot)).post fun r u h => ⟨h.code, h.sent⟩

/-- The handler of `f` is called in `s` and returns `r` in `u`. -/
structure Handled (f : Frame) (s : StubState W D S C) (r : Int × CommandResponseData C)
    (u : StubState W D S C) : Prop where
  ok : f.HeaderOk
  clear : s.accumulatedResult = responseSuccess
  opcode : Opcode.ofByte f.ctx.command ≠ .runUserCode
  returns : (dispatch env f.ctx (Opcode.ofByte f.ctx.command)).Returns s r u

def Succeeds (f : Frame) (s : StubState W D S C) : Prop :=
  ∃ r u, Handled env f s r u ∧ r.1 = responseSuccess

/-- The handler of `f` returns success and leaves `p` to be called back. -/
def Registers (f : Frame) (s : StubState W D S C) (p : PostProcess C) : Prop :=
  ∃ r u, Handled env f s r u ∧ r.1 = responseSuccess ∧ u.pendingPostProcess = some p

def RunsUserCode (f : Frame) (s : StubState W D S C) : Prop :=
  f.HeaderOk ∧ s.accumulatedResult = responseSuccess ∧
    Opcode.ofByte f.ctx.command = .runUserCode

/-- How many responses answer `f`. -/
inductive ResponseCount (f : Frame) (s : StubState W D S C) : Nat → Prop where
  | runUserCode (h : RunsUserCode f s) : ResponseCount f s 0
  | sync (opcode : Opcode.ofByte f.ctx.command = .sync) (h : Succeeds env f s) :
    ResponseCount f s 8
  | other (quiet : ¬RunsUserCode f s)
    (h : ¬(Opcode.ofByte f.ctx.command = .sync ∧ Succeeds env f s)) : ResponseCount f s 1

/-- `v` is reached from `s` when `f` has been answered. -/
structure Answered (f : Frame) (s v : StubState W D S C) (answers : List (List UInt8)) : Prop where
  sent : v.sent = s.sent ++ answers
  count : ResponseCount env f s answers.length
  identical : ∀ a ∈ answers, ∀ b ∈ answers, a = b
  command : ∀ a ∈ answers, a[1]? = some (f.buffer 1)
  status : ∀ a ∈ answers, statusBytes a = [0, 0] ↔ Succeeds env f s

/-- After the answer the registered callback runs, once and with the context of `f`, or
nothing more happens. -/
def CalledBack (f : Frame) (s v t : StubState W D S C) : Prop :=
  (∃ p e w, Registers env f s p ∧ (runPostProcess env f.ctx p).Returns v e w ∧
    t = w.afterCallback e) ∨ (∀ p, ¬Registers env f s p) ∧ t = v

/-- While `f` is worked on, its handler is at work, or the callback after the answer. -/
def AtWork (f : Frame) (s t : StubState W D S C) : Prop :=
  (dispatch env f.ctx (Opcode.ofByte f.ctx.command)).Visits s t ∨
    ∃ v answers p, Answered env f s v answers ∧ Registers env f s p ∧
      (runPostProcess env f.ctx p).Visits v t

theorem responseFrame_command (f : Frame) (code : Int) (resp : Option ResponseData) :
    (responseFrame f.ctx.command code resp)[1]? = some (f.buffer 1) := by
  simp [responseFrame, Frame.ctx, CmdCtx.parse]

theorem IsCode.statusBytes_iff {code : Int} (small : IsCode code) (command : Nat)
    (resp : Option ResponseData) :
    statusBytes (responseFrame command code resp) = [0, 0] ↔ code = responseSuccess := by
  rw [statusBytes_responseFrame]
  refine ⟨small.eq_success, ?_⟩
  rintro rfl
  rfl

theorem Answered.one {f : Frame} {s v : StubState W D S C} {code : Int}
    {resp : Option ResponseData} (sent : v.sent = s.sent ++ [responseFrame f.ctx.command code resp])
    (small : IsCode code) (quiet : ¬RunsUserCode f s)
    (notSync : ¬(Opcode.ofByte f.ctx.command = .sync ∧ Succeeds env f s))
    (status : code = responseSuccess ↔ Succeeds env f s) :
    Answered env f s v [responseFrame f.ctx.command code resp] where
  sent := sent
  count := .other quiet notSync
  identical := by simp
  command := by simp [responseFrame_command]
  status := by
    intro a ha
    rw [List.mem_singleton.mp ha, small.statusBytes_iff, status]

variable {env} {f : Frame} {s u v : StubState W D S C} {r : Int × CommandResponseData C}

theorem Handled.succeeds_iff (h : Handled env f s r u) :
    Succeeds env f s ↔ r.1 = responseSuccess := by
  refine ⟨fun ⟨r', u', h', good⟩ => ?_, fun good => ⟨r, u, h, good⟩⟩
  obtain ⟨rfl, -⟩ := h.returns.unique h'.returns
  exact good

theorem Handled.registers_iff (h : Handled env f s r u) (p : PostProcess C) :
    Registers env f s p ↔ r.1 = responseSuccess ∧ u.pendingPostProcess = some p := by
  refine ⟨fun ⟨r', u', h', good⟩ => ?_, fun good => ⟨r, u, h, good⟩⟩
  obtain ⟨rfl, rfl⟩ := h.returns.unique h'.returns
  exact good

theorem Registers.succeeds {p : PostProcess C} (h : Registers env f s p) : Succeeds env f s := by
  obtain ⟨r, u, handled, good, -⟩ := h
  exact ⟨r, u, handled, good⟩

theorem Handled.not_runsUserCode (h : Handled env f s r u) : ¬RunsUserCode f s :=
  fun runs => h.opcode runs.2.2

theorem command_of_sync {command : Nat} (h : Opcode.ofByte command = .sync) :
    command = espSync := by
  simpa only [Opcode.ofByte, ite_eq_iff, reduceCtorEq, and_false, or_false, and_true] using h

theorem sync_response {ctx : CmdCtx} (h : (dispatch env ctx .sync).Returns s r u) : r.2 = {} := by
  obtain ⟨code, v, -, done⟩ := (Prog.returns_bind _ _ _ _ _).mp h
  rw [((Prog.returns_pure _ _ _ _).mp done).1]

theorem Handled.answered_sync (h : Handled env f s r u) (good : r.1 = responseSuccess)
    (sync : Opcode.ofByte f.ctx.command = .sync)
    (sent : u.sent = s.sent ++ List.replicate 7 syncFrame) :
    Answered env f s (u.answered env f.ctx r) (List.replicate 8 syncFrame) := by
  have succeeds : Succeeds env f s := h.succeeds_iff.mpr good
  have command := command_of_sync sync
  obtain ⟨code, response⟩ := r
  obtain rfl : code = responseSuccess := good
  have returned := h.returns
  rw [sync] at returned
  have empty : response = {} := sync_response returned
  have frame : responseFrame f.ctx.command responseSuccess (some response.toResponseData) =
      syncFrame := by
    rw [command, empty]
    rfl
  refine ⟨?_, .sync sync succeeds, ?_, ?_, ?_⟩
  · change u.sent ++ [responseFrame _ _ _] = _
    rw [frame, sent, List.append_assoc]
    rfl
  · intro a ha b hb
    rw [List.eq_of_mem_replicate ha, List.eq_of_mem_replicate hb]
  · intro a ha
    rw [List.eq_of_mem_replicate ha, ← frame, responseFrame_command]
  · intro a ha
    rw [List.eq_of_mem_replicate ha, ← frame, isCode_success.statusBytes_iff]
    exact ⟨fun _ => succeeds, fun _ => rfl⟩

theorem Handled.answered (codes : env.plugin.Codes) (h : Handled env f s r u) :
    ∃ answers, Answered env f s (u.answered env f.ctx r) answers := by
  obtain ⟨small, sent⟩ := (ensures_handler env codes f.ctx _ s).2 r u h.returns
  by_cases good : r.1 = responseSuccess
  · by_cases sync : Opcode.ofByte f.ctx.command = .sync
    · rw [if_pos good, sync] at sent
      exact ⟨_, h.answered_sync good sync sent⟩
    · obtain ⟨code, response⟩ := r
      obtain rfl : code = responseSuccess := good
      have early : (Opcode.ofByte f.ctx.command).early = [] := by
        cases opcode : Opcode.ofByte f.ctx.command with
        | sync => exact absurd opcode sync
        | _ => rfl
      have primary : (u.answered env f.ctx (responseSuccess, response)).sent =
          s.sent ++ [responseFrame f.ctx.command responseSuccess (some response.toResponseData)] := by
        rw [if_pos rfl, early, List.append_nil] at sent
        rw [← sent]
        rfl
      exact ⟨_, .one env primary small h.not_runsUserCode (fun h => sync h.1)
        h.succeeds_iff.symm⟩
  · have primary : (u.answered env f.ctx r).sent =
        s.sent ++ [responseFrame f.ctx.command r.1 none] := by
      rw [if_neg good, List.append_nil] at sent
      rw [StubState.answered, if_neg good, ← sent]
      rfl
    exact ⟨_, .one env primary small h.not_runsUserCode
      (fun sync => good (h.succeeds_iff.mp sync.2)) h.succeeds_iff.symm⟩

theorem not_succeeds_of_reject (bad : ¬f.HeaderOk) : ¬Succeeds env f s :=
  fun ⟨_, _, h, _⟩ => bad h.ok

theorem not_succeeds_of_report (pending : s.accumulatedResult ≠ responseSuccess) :
    ¬Succeeds env f s := fun ⟨_, _, h, _⟩ => pending h.clear

theorem Frame.rejectCode_isCode (f : Frame) :
    IsCode f.rejectCode ∧ f.rejectCode ≠ responseSuccess := by
  unfold Frame.rejectCode
  split_ifs <;> decide

theorem Answered.error {code : Int}
    (sent : v.sent = s.sent ++ [responseFrame f.ctx.command code none])
    (small : IsCode code) (bad : code ≠ responseSuccess) (quiet : ¬RunsUserCode f s)
    (fails : ¬Succeeds env f s) :
    Answered env f s v [responseFrame f.ctx.command code none] :=
  .one env sent small quiet (fun sync => fails sync.2)
    ⟨fun h => absurd h bad, fun h => absurd h fails⟩

theorem Handled.pending_iff (h : Handled env f s r u) (p : PostProcess C) :
    (u.answered env f.ctx r).pendingPostProcess = some p ↔ Registers env f s p := by
  rw [h.registers_iff]
  unfold StubState.answered
  split_ifs with good
  · exact ⟨fun pending => ⟨good, pending⟩, fun h => h.2⟩
  · exact ⟨fun pending => (nomatch pending), fun h => absurd h.1 good⟩

theorem Handled.returns_idle (h : Handled env f s r u) (idle : u.pendingPostProcess = none) :
    (handleCommand env f.buffer f.size).Returns s () (u.answered env f.ctx r) := by
  rw [returns_handleCommand_execute env h.ok h.clear, execute, if_neg h.opcode]
  exact (Prog.returns_bind _ _ _ _ _).mpr ⟨(), _, returns_answer env h.returns,
    (returns_postProcess_none env (answered_idle env idle) _).mpr rfl⟩

theorem ensures_callback (codes : env.plugin.Codes) (h : Handled env f s r u) :
    (postProcess env f.ctx).Ensures (u.answered env f.ctx r) (AtWork env f s) fun _ t =>
      (t.pendingPostProcess = none ∧ IsCode t.accumulatedResult) ∧
        ∃ v answers, Answered env f s v answers ∧ CalledBack env f s v t := by
  obtain ⟨answers, answered⟩ := h.answered codes
  refine Prog.Ensures.bind (Prog.Ensures.get ?_)
  cases pending : (u.answered env f.ctx r).pendingPostProcess with
  | none =>
    have code : IsCode (u.answered env f.ctx r).accumulatedResult := by
      rw [answered_accumulatedResult]
      exact isCode_success
    refine Prog.Ensures.pure ⟨⟨pending, code⟩, _, answers, answered, .inr ⟨fun p hp => ?_, rfl⟩⟩
    have left := (h.pending_iff p).mpr hp
    rw [pending] at left
    cases left
  | some p =>
    have registers : Registers env f s p := (h.pending_iff p).mp pending
    have returns : (runPostProcess env f.ctx p).Ensures (u.answered env f.ctx r) (AtWork env f s)
        fun e w => IsCode e ∧ (runPostProcess env f.ctx p).Returns (u.answered env f.ctx r) e w :=
      ⟨fun t ht => .inr ⟨_, answers, p, answered, registers, ht⟩, fun e w hw =>
        ⟨(gives_runPostProcess env codes f.ctx p _).2 e w hw, hw⟩⟩
    refine Prog.Ensures.bind (returns.post fun e w hw => Prog.Ensures.modify ⟨⟨rfl, hw.1⟩, ?_⟩)
    exact ⟨_, answers, answered, .inl ⟨p, e, w, registers, hw.2, rfl⟩⟩

/-- One command, from the first check to the end of its callback. -/
theorem ensures_handleCommand (codes : env.plugin.Codes) (f : Frame) {s : StubState W D S C}
    (idle : s.pendingPostProcess = none) (small : IsCode s.accumulatedResult) :
    (handleCommand env f.buffer f.size).Ensures s (AtWork env f s) fun _ t =>
      (t.pendingPostProcess = none ∧ IsCode t.accumulatedResult) ∧
        ∃ v answers, Answered env f s v answers ∧ CalledBack env f s v t := by
  by_cases ok : f.HeaderOk
  · by_cases clear : s.accumulatedResult = responseSuccess
    · rw [handleCommand_ok env ok]
      refine Prog.Ensures.bind (Prog.Ensures.get ?_)
      rw [if_neg (not_not.mpr clear), execute]
      by_cases opcode : Opcode.ofByte f.ctx.command = .runUserCode
      · rw [if_pos opcode]
        have fails : ¬Succeeds env f s := by
          rintro ⟨r, u, h, -⟩
          exact h.opcode opcode
        refine Prog.Ensures.pure ⟨⟨idle, small⟩, s, [], ?_, .inr ⟨fun p h => fails h.succeeds, rfl⟩⟩
        exact ⟨by simp, .runUserCode ⟨ok, clear, opcode⟩, by simp, by simp, by simp⟩
      · rw [if_neg opcode]
        refine Prog.Ensures.bind (ensures_answer env ⟨fun t ht => .inl ht, fun r u returned => ?_⟩)
        exact ensures_callback codes ⟨ok, clear, opcode, returned⟩
    · rw [handleCommand_ok env ok]
      refine Prog.Ensures.bind (Prog.Ensures.get ?_)
      rw [if_pos clear]
      refine Prog.Ensures.bind (Prog.Ensures.modify (Prog.Ensures.modify ⟨⟨idle, isCode_success⟩, ?_⟩))
      have fails : ¬Succeeds env f s := not_succeeds_of_report clear
      exact ⟨_, _, .error rfl small clear (fun runs => clear runs.2.1) fails,
        .inr ⟨fun p h => fails h.succeeds, rfl⟩⟩
  · rw [handleCommand_reject env ok]
    refine Prog.Ensures.modify ⟨⟨idle, small⟩, ?_⟩
    have fails : ¬Succeeds env f s := not_succeeds_of_reject ok
    exact ⟨_, _, .error rfl f.rejectCode_isCode.1 f.rejectCode_isCode.2 (fun runs => ok runs.1) fails,
      .inr ⟨fun p h => fails h.succeeds, rfl⟩⟩

theorem handleCommand_idle {t : StubState W D S C} (idle : s.pendingPostProcess = none)
    (run : (handleCommand env f.buffer f.size).Returns s () t) : t.pendingPostProcess = none := by
  by_cases ok : f.HeaderOk
  · by_cases clear : s.accumulatedResult = responseSuccess
    · rw [returns_handleCommand_execute env ok clear] at run
      by_cases opcode : Opcode.ofByte f.ctx.command = .runUserCode
      · rw [execute, if_pos opcode, Prog.returns_pure] at run
        exact run.2 ▸ idle
      · obtain ⟨r, u, -, processed⟩ := returns_execute env opcode run
        cases pending : (u.answered env f.ctx r).pendingPostProcess with
        | none =>
          rw [returns_postProcess_none env pending] at processed
          exact processed ▸ pending
        | some p =>
          obtain ⟨e, v, -, rfl⟩ := (returns_postProcess_some env pending t).mp processed
          rfl
    · rw [returns_handleCommand_report env ok clear] at run
      exact run ▸ idle
  · rw [returns_handleCommand_reject env ok] at run
    exact run ▸ idle

theorem serve_pending {s₀ s : StubState W D S C} (idle : s₀.pendingPostProcess = none)
    {frames : List Frame} (run : (serve env frames).Returns s₀ () s) :
    s.pendingPostProcess = none := by
  induction frames generalizing s₀ with
  | nil =>
    obtain ⟨-, rfl⟩ := (Prog.returns_pure _ _ _ _).mp run
    exact idle
  | cons f frames ih =>
    obtain ⟨_, t, first, rest⟩ := (Prog.returns_bind _ _ _ _ _).mp run
    exact ih (handleCommand_idle idle first) rest

theorem serve_idle (codes : env.plugin.Codes) {s₀ s : StubState W D S C}
    (idle : s₀.pendingPostProcess = none) (small : IsCode s₀.accumulatedResult)
    {frames : List Frame} (run : (serve env frames).Returns s₀ () s) :
    s.pendingPostProcess = none ∧ IsCode s.accumulatedResult := by
  induction frames generalizing s₀ with
  | nil =>
    obtain ⟨-, rfl⟩ := (Prog.returns_pure _ _ _ _).mp run
    exact ⟨idle, small⟩
  | cons f frames ih =>
    obtain ⟨_, t, first, rest⟩ := (Prog.returns_bind _ _ _ _ _).mp run
    obtain ⟨⟨idle, small⟩, -⟩ := (ensures_handleCommand codes f idle small).2 () t first
    exact ih idle small rest

/-- In every reachable state no callback is pending. The next frame is answered once, or eight
times, or not at all, the answer tells how its own handler went, and the only callback that runs
is the one which this handler registered. -/
theorem dispatcher_discipline (codes : env.plugin.Codes) {s₀ s : StubState W D S C}
    (idle : s₀.pendingPostProcess = none) (small : IsCode s₀.accumulatedResult)
    {frames : List Frame} (run : (serve env frames).Returns s₀ () s) :
    s.pendingPostProcess = none ∧ ∀ f : Frame,
      (handleCommand env f.buffer f.size).Ensures s (AtWork env f s) fun _ t =>
        t.pendingPostProcess = none ∧
          ∃ v answers, Answered env f s v answers ∧ CalledBack env f s v t := by
  obtain ⟨idle, small⟩ := serve_idle codes idle small run
  refine ⟨idle, fun f => (ensures_handleCommand codes f idle small).post fun _ t h => ?_⟩
  exact ⟨h.1.1, h.2⟩

theorem simPlugin_codes : (simPlugin : Plugin SimWorld Unit Empty).Codes where
  table _ _ _ _ _ _ := Prog.gives_pure (show IsCode responseCmdNotImplemented by decide)
  postProcess callback := nomatch callback

/-- A session of one byte, and then any frame. -/
theorem dispatcher_discipline_one_byte :
    ∃ s, (serve (simPlatform 4 []) [beginFrame espFlashBegin 1 0,
        dataFrame espFlashData 0 [7]]).Returns (simStart fun _ => 0) () s ∧
      s.pendingPostProcess = none ∧ ∀ f : Frame,
        (handleCommand (simPlatform 4 []) f.buffer f.size).Ensures s (AtWork (simPlatform 4 []) f s)
          fun _ t => t.pendingPostProcess = none ∧ ∃ v answers,
            Answered (simPlatform 4 []) f s v answers ∧ CalledBack (simPlatform 4 []) f s v t := by
  obtain ⟨s, run⟩ : ∃ s, (serve (simPlatform 4 []) [beginFrame espFlashBegin 1 0,
      dataFrame espFlashData 0 [7]]).Returns (simStart fun _ => 0) () s := ⟨_, 20, _, rfl⟩
  exact ⟨s, run, dispatcher_discipline simPlugin_codes rfl isCode_success run⟩

end FlasherStub
