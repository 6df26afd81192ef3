import FlasherStub.SimulatedDevice

/-! The report of deferred errors. A post-process callback runs after its
command was answered; the code it returns waits in `accumulated_result` for the
next command whose header is in order. -/

namespace FlasherStub

open ByteMemory Budget

variable {W D H S C : Type} (env : Platform W D H S C)

/-- In the handling of `f` from `s` to `t`, the post-process callback returned `e`. -/
structure CallbackReturns (f : Frame) (s : StubState W D S C) (e : Int) (t : StubState W D S C) :
    Prop where
  ok : f.HeaderOk
  clear : s.accumulatedResult = responseSuccess
  opcode : Opcode.ofByte f.ctx.command ≠ .runUserCode
  callback : ∃ u p v, (answer env f.ctx).Returns s () u ∧ u.pendingPostProcess = some p ∧
    (runPostProcess env f.ctx p).Returns u e v ∧ t = v.afterCallback e

theorem CallbackReturns.returns {f : Frame} {s t : StubState W D S C} {e : Int}
    (h : CallbackReturns env f s e t) : (handleCommand env f.buffer f.size).Returns s () t := by
  obtain ⟨u, p, v, answered, pending, returned, rfl⟩ := h.callback
  rw [returns_handleCommand_execute env h.ok h.clear, execute, if_neg h.opcode, Prog.returns_bind]
  exact ⟨(), u, answered, (returns_postProcess_some env pending _).mpr ⟨e, v, returned, rfl⟩⟩

theorem execute_leaves {f : Frame} (ok : f.HeaderOk) {s t : StubState W D S C}
    (clear : s.accumulatedResult = responseSuccess)
    (run : (execute env f.ctx).Returns s () t) :
    t.accumulatedResult = responseSuccess ∨ CallbackReturns env f s t.accumulatedResult t := by
  by_cases opcode : Opcode.ofByte f.ctx.command = .runUserCode
  · rw [execute, if_pos opcode, Prog.returns_pure] at run
    exact .inl (run.2 ▸ clear)
  · rw [execute, if_neg opcode, Prog.returns_bind] at run
    obtain ⟨_, u, answered, run⟩ := run
    have cleared : u.accumulatedResult = responseSuccess := by
      simp only [answer, Prog.returns_bind] at answered
      obtain ⟨_, _, _, _, _, _, _, _, _, last⟩ := answered
      rw [(returns_setAccumulatedResult _ _ _ _).mp last]
    cases pending : u.pendingPostProcess with
    | none =>
      rw [returns_postProcess_none env pending] at run
      exact .inl (run ▸ cleared)
    | some p =>
      obtain ⟨e, v, returned, rfl⟩ := (returns_postProcess_some env pending t).mp run
      exact .inr ⟨ok, clear, opcode, u, p, v, answered, pending, returned, rfl⟩

def StubState.afterSends (s : StubState W D S C) (frames : List (List UInt8)) :
    StubState W D S C :=
  frames.foldl (fun s frame => s.afterSend env frame) s

@[simp] theorem afterSends_accumulatedResult (s : StubState W D S C) (frames : List (List UInt8)) :
    (s.afterSends env frames).accumulatedResult = s.accumulatedResult := by
  induction frames generalizing s with
  | nil => rfl
  | cons f frames ih => exact ih (s.afterSend env f)

theorem returns_serve_rejects (s : StubState W D S C) {bads : List Frame}
    (bad : ∀ f ∈ bads, ¬ f.HeaderOk) :
    (serve env bads).Returns s () (s.afterSends env (bads.map Frame.rejectFrame)) := by
  induction bads generalizing s with
  | nil => exact (Prog.returns_pure _ _ _ _).mpr ⟨rfl, rfl⟩
  | cons f bads ih =>
    have first : ¬ f.HeaderOk := bad f (by simp)
    refine (Prog.returns_bind _ _ _ _ _).mpr
      ⟨(), _, (returns_handleCommand_reject env first s _).mpr rfl, ?_⟩
    exact ih (s.afterSend env f.rejectFrame) fun g hg => bad g (by simp [hg])

/-- A pending error is the one that the last command in order left behind. -/
theorem pending_error_origin {s₀ : StubState W D S C}
    (start : s₀.accumulatedResult = responseSuccess) (frames : List Frame)
    {s : StubState W D S C} (run : (serve env frames).Returns s₀ () s)
    (pending : s.accumulatedResult ≠ responseSuccess) :
    ∃ pre f bads s₁ t, frames = pre ++ f :: bads ∧ (serve env pre).Returns s₀ () s₁ ∧
      CallbackReturns env f s₁ s.accumulatedResult t ∧ (∀ b ∈ bads, ¬ b.HeaderOk) ∧
      s = t.afterSends env (bads.map Frame.rejectFrame) := by
  induction frames using List.reverseRecOn generalizing s with
  | nil =>
    obtain ⟨_, rfl⟩ := (Prog.returns_pure _ _ _ _).mp run
    exact absurd start pending
  | append_singleton frames f ih =>
    obtain ⟨u, before, last⟩ := (returns_serve_snoc env frames f s₀ s).mp run
    by_cases ok : f.HeaderOk
    · by_cases clear : u.accumulatedResult = responseSuccess
      · rw [returns_handleCommand_execute env ok clear] at last
        obtain done | left := execute_leaves env ok clear last
        · exact absurd done pending
        · exact ⟨frames, f, [], u, s, rfl, before, left, by simp, rfl⟩
      · rw [returns_handleCommand_report env ok clear] at last
        exact absurd (by rw [last]) pending
    · rw [returns_handleCommand_reject env ok] at last
      have same : s.accumulatedResult = u.accumulatedResult := by rw [last]; rfl
      obtain ⟨pre, g, bads, s₁, t, rfl, h₁, h₂, h₃, h₄⟩ := ih before (same ▸ pending)
      refine ⟨pre, g, bads ++ [f], s₁, t, by simp, h₁, same ▸ h₂, ?_, ?_⟩
      · intro b hb
        obtain hb | hb := List.mem_append.mp hb
        · exact h₃ b hb
        · obtain rfl := List.mem_singleton.mp hb
          exact ok
      · rw [last, h₄, List.map_append, StubState.afterSends, StubState.afterSends,
          List.foldl_append]
        rfl

/-- Every deferred error is reported exactly once, by the next command whose
header is in order, and it is the only reason not to execute such a command. -/
theorem deferred_error_exactly_once (s₀ : StubState W D S C)
    (start : s₀.accumulatedResult = responseSuccess) :
    (∀ pre s f e t, (serve env pre).Returns s₀ () s → CallbackReturns env f s e t →
      e ≠ responseSuccess →
      (handleCommand env f.buffer f.size).Returns s () t ∧
      ∀ bads : List Frame, (∀ b ∈ bads, ¬ b.HeaderOk) →
        ∃ t₁, t₁ = t.afterSends env (bads.map Frame.rejectFrame) ∧
          (serve env bads).Returns t () t₁ ∧
          ∀ good : Frame, good.HeaderOk →
            ∃ t₂, t₂ = { t₁.afterSend env (responseFrame good.ctx.command e none) with
                accumulatedResult := responseSuccess } ∧
              (handleCommand env good.buffer good.size).Returns t₁ () t₂ ∧
              ∀ next : Frame, next.HeaderOk → ∀ n,
                (handleCommand env next.buffer next.size).run n t₂ =
                  (execute env next.ctx).run n t₂) ∧
    (∀ frames s, (serve env frames).Returns s₀ () s → s.accumulatedResult ≠ responseSuccess →
      ∃ pre f bads s₁ t, frames = pre ++ f :: bads ∧ (serve env pre).Returns s₀ () s₁ ∧
        CallbackReturns env f s₁ s.accumulatedResult t ∧ (∀ b ∈ bads, ¬ b.HeaderOk) ∧
        s = t.afterSends env (bads.map Frame.rejectFrame)) ∧
    ∀ frames s, (serve env frames).Returns s₀ () s → s.accumulatedResult = responseSuccess →
      ∀ next : Frame, next.HeaderOk → ∀ n,
        (handleCommand env next.buffer next.size).run n s = (execute env next.ctx).run n s := by
  refine ⟨?_, fun frames s run pending => pending_error_origin env start frames run pending,
    fun frames s _ clear next ok n => run_handleCommand_execute env ok clear n⟩
  intro pre s f e t _ returned error
  refine ⟨returned.returns, fun bads bad => ⟨_, rfl, returns_serve_rejects env t bad, ?_⟩⟩
  intro good ok
  have left : t.accumulatedResult = e := by
    obtain ⟨_, _, v, _, _, _, rfl⟩ := returned.callback
    rfl
  have pending : (t.afterSends env (bads.map Frame.rejectFrame)).accumulatedResult = e := by
    rw [afterSends_accumulatedResult, left]
  refine ⟨_, rfl, ?_, fun next okNext n => run_handleCommand_execute env okNext rfl n⟩
  rw [returns_handleCommand_report env ok (pending ▸ error), pending]

/-- A block that does not inflate leaves its error for the next command. -/
theorem deferred_error_inflate :
    ∃ s, (serve (simPlatform 4 []) [beginFrame espFlashDeflBegin 1 0,
        dataFrame espFlashDeflData 0 [7]]).Returns (simStart fun _ => 0) () s ∧
      ∃ f s₁ t, CallbackReturns (simPlatform 4 []) f s₁ responseInflateError t := by
  obtain ⟨s, run, left⟩ : ∃ s, (serve (simPlatform 4 []) [beginFrame espFlashDeflBegin 1 0,
      dataFrame espFlashDeflData 0 [7]]).Returns (simStart fun _ => 0) () s ∧
        s.accumulatedResult = responseInflateError := ⟨_, ⟨20, _, rfl⟩, rfl⟩
  have error : s.accumulatedResult ≠ responseSuccess := by
    rw [left]
    decide
  obtain ⟨-, origin, -⟩ := deferred_error_exactly_once (simPlatform 4 []) (simStart fun _ => 0) rfl
  obtain ⟨_, f, _, s₁, t, -, -, callback, -⟩ := origin _ s run error
  exact ⟨s, run, f, s₁, t, left ▸ callback⟩

end FlasherStub
