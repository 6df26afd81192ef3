import FlasherStub.HandleCommand

/-! The result field of a response. It holds 16 bits of the code of a command;
the codes of the flash commands fit, so the host can tell success from failure. -/

namespace FlasherStub

open ByteMemory Budget

variable {W D H S C : Type} (env : Platform W D H S C)

def IsCode (r : Int) : Prop := 0 ≤ r ∧ r < 2 ^ 16

instance (r : Int) : Decidable (IsCode r) := inferInstanceAs (Decidable (_ ∧ _))

theorem isCode_success : IsCode responseSuccess := by decide

theorem isCode_badDataLen : IsCode responseBadDataLen := by decide

theorem isCode_failedSpiOp : IsCode responseFailedSpiOp := by decide

theorem isCode_checkFlashInProgress (s : StubState W D S C) : IsCode (checkFlashInProgress s) := by
  unfold checkFlashInProgress
  split_ifs <;> decide

theorem isCode_validateChecksum (mem : Memory) (p size expected : Nat) :
    IsCode (validateChecksum mem p size expected) := by
  rw [validateChecksum]
  split_ifs
  · decide
  · exact isCode_success

/-- The last two bytes of a response. -/
def statusBytes (frame : List UInt8) : List UInt8 := frame.drop (frame.length - 2)

theorem statusBytes_responseFrame (command : Nat) (code : Int) (resp : Option ResponseData) :
    statusBytes (responseFrame command code resp) = setU16ToBe (code % 2 ^ 16).toNat := by
  unfold statusBytes responseFrame
  rw [List.length_append]
  exact List.drop_left' (Nat.add_sub_cancel _ 2)

theorem IsCode.eq_success {r : Int} (h : IsCode r)
    (zero : setU16ToBe (r % 2 ^ 16).toNat = [0, 0]) : r = responseSuccess := by
  obtain ⟨le, lt⟩ := h
  have := eq_zero_of_setU16ToBe (by omega) zero
  change r = 0
  omega

/-- Of the frames sent between `s` and `t`, the first one reports success. -/
def AnsweredSuccess (s t : StubState W D S C) : Prop :=
  ∃ frame rest, t.sent = s.sent ++ frame :: rest ∧ statusBytes frame = [0, 0]

theorem AnsweredSuccess.code {s t : StubState W D S C} (h : AnsweredSuccess s t) {command : Nat}
    {code : Int} {resp : Option ResponseData} {rest : List (List UInt8)}
    (sent : t.sent = s.sent ++ responseFrame command code resp :: rest) (small : IsCode code) :
    code = responseSuccess := by
  obtain ⟨frame, rest', same, zero⟩ := h
  rw [sent, List.append_cancel_left_eq] at same
  obtain ⟨rfl, -⟩ := List.cons.inj same
  rw [statusBytes_responseFrame] at zero
  exact small.eq_success zero

theorem AnsweredSuccess.executed {f : Frame} {s t : StubState W D S C} (h : AnsweredSuccess s t)
    (small : IsCode s.accumulatedResult)
    (run : (handleCommand env f.buffer f.size).Returns s () t) :
    f.HeaderOk ∧ s.accumulatedResult = responseSuccess ∧ (execute env f.ctx).Returns s () t := by
  by_cases ok : f.HeaderOk
  · by_cases clear : s.accumulatedResult = responseSuccess
    · exact ⟨ok, clear, (returns_handleCommand_execute env ok clear t).mp run⟩
    · rw [returns_handleCommand_report env ok clear] at run
      exact absurd (h.code (by rw [run]; rfl) small) clear
  · rw [returns_handleCommand_reject env ok] at run
    have rejected : IsCode f.rejectCode ∧ f.rejectCode ≠ responseSuccess := by
      unfold Frame.rejectCode IsCode
      split_ifs <;> decide
    exact absurd (h.code (by rw [run]; rfl) rejected.1) rejected.2

theorem AnsweredSuccess.dispatched {f : Frame} {s t : StubState W D S C}
    (h : AnsweredSuccess s t) (small : IsCode s.accumulatedResult)
    (opcode : Opcode.ofByte f.ctx.command ≠ .runUserCode)
    (run : (handleCommand env f.buffer f.size).Returns s () t)
    {P : Int × CommandResponseData C → StubState W D S C → Prop}
    (handler : (dispatch env f.ctx (Opcode.ofByte f.ctx.command)).Ensures s (fun _ => True)
      fun r u => IsCode r.1 ∧ u.sent = s.sent ∧ P r u)
    (callback : ∀ r u, P r u → (postProcess env f.ctx).Returns (u.answered env f.ctx r) () t →
      ∃ rest, t.sent = (u.answered env f.ctx r).sent ++ rest) :
    f.HeaderOk ∧ s.accumulatedResult = responseSuccess ∧ ∃ r u, r.1 = responseSuccess ∧ P r u ∧
      (postProcess env f.ctx).Returns (u.answered env f.ctx r) () t := by
  obtain ⟨ok, clear, executed⟩ := h.executed env small run
  obtain ⟨r, u, dispatched, processed⟩ := returns_execute env opcode executed
  obtain ⟨code, sent, holds⟩ := handler.2 r u dispatched
  obtain ⟨rest, grown⟩ := callback r u holds processed
  obtain ⟨resp, answered⟩ := answered_sent env u f.ctx r
  rw [answered, sent, List.append_assoc] at grown
  exact ⟨ok, clear, r, u, h.code grown code, holds, processed⟩

def IsFlashCode (r : Int) : Prop := r = responseSuccess ∨ r = responseFailedSpiOp

theorem IsFlashCode.isCode {r : Int} (h : IsFlashCode r) : IsCode r := by
  cases h with
  | inl h => exact h ▸ isCode_success
  | inr h => exact h ▸ isCode_failedSpiOp

theorem isFlashCode_success : IsFlashCode responseSuccess := .inl rfl

theorem isFlashCode_failedSpiOp : IsFlashCode responseFailedSpiOp := .inr rfl

theorem gives_sectorIsBlank (addr size : Nat) :
    (sectorIsBlank env addr size : Stub W D S C _).Gives fun r => IsFlashCode r.1 := by
  refine Prog.gives_loop (fun off => ?_) _
  refine Prog.gives_ite (Prog.gives_bind fun result => ?_) (Prog.gives_pure isFlashCode_success)
  cases result with
  | none => exact Prog.gives_pure isFlashCode_failedSpiOp
  | some bytes =>
    exact Prog.gives_ite (Prog.gives_pure trivial) (Prog.gives_pure isFlashCode_success)

theorem gives_startErase : (startErase env : Stub W D S C Int).Gives IsFlashCode :=
  Prog.gives_bind fun _ => Prog.gives_bind fun _ => Prog.gives_bind fun _ =>
    Prog.gives_ite (Prog.gives_pure isFlashCode_failedSpiOp) (Prog.gives_pure isFlashCode_success)

theorem gives_conditionalEraseNext :
    (conditionalEraseNext env : Stub W D S C Int).Gives IsFlashCode := by
  refine Prog.gives_bind fun s => Prog.gives_ite (Prog.gives_pure isFlashCode_success)
    (Prog.gives_ite (gives_startErase env) ?_)
  refine (gives_sectorIsBlank env _ _).bind fun r code => Prog.gives_ite (Prog.gives_pure code) ?_
  refine Prog.gives_ite (Prog.gives_bind fun _ => Prog.gives_pure isFlashCode_success) ?_
  exact Prog.gives_bind fun _ => gives_startErase env

theorem gives_ensureFlashErasedTo (target : Nat) :
    (ensureFlashErasedTo env target : Stub W D S C Int).Gives IsFlashCode := by
  refine Prog.gives_loop (fun _ => Prog.gives_bind fun s => ?_) _
  refine Prog.gives_ite ?_ (Prog.gives_pure isFlashCode_success)
  exact (gives_conditionalEraseNext env).bind fun r code =>
    Prog.gives_ite (Prog.gives_pure code) (Prog.gives_pure trivial)

theorem gives_writeFlashData (data : List UInt8) :
    (writeFlashData env data : Stub W D S C Int).Gives IsFlashCode := by
  refine Prog.gives_bind fun s => Prog.gives_bind fun _ => ?_
  refine (gives_ensureFlashErasedTo env _).bind fun r code => Prog.gives_ite (Prog.gives_pure code) ?_
  refine Prog.gives_bind fun _ => Prog.gives_bind fun result => ?_
  exact Prog.gives_ite (Prog.gives_pure isFlashCode_failedSpiOp)
    (Prog.gives_bind fun _ => Prog.gives_pure isFlashCode_success)

end FlasherStub
