import FlasherStub.FlashLedger
import FlasherStub.SessionContent

/-! A compressed session from BEGIN to END. If every answer is success, the chip holds what the
inflater has emitted, as a plain session with the same image would have left it. -/

namespace FlasherStub

open ByteMemory Budget

variable {W D H S C : Type} (env : Platform W D H S C)

theorem AnsweredSuccess.handled {f : Frame} {s t : StubState W D S C} (h : AnsweredSuccess s t)
    (small : IsCode s.accumulatedResult)
    (builtIn : ∀ idx, Opcode.ofByte f.ctx.command ≠ .plugin idx)
    (opcode : Opcode.ofByte f.ctx.command ≠ .runUserCode)
    (run : (handleCommand env f.buffer f.size).Returns s () t) :
    ∃ r u, Handled env f s r u ∧ r.1 = responseSuccess ∧
      (postProcess env f.ctx).Returns (u.answered env f.ctx r) () t := by
  obtain ⟨ok, clear, executed⟩ := h.executed env small run
  obtain ⟨r, u, dispatched, processed⟩ := returns_execute env opcode executed
  have spec := (ensures_dispatch f.ctx s builtIn).2 r u dispatched
  refine ⟨r, u, ⟨ok, clear, opcode, dispatched⟩, ?_, processed⟩
  by_contra bad
  have none : (u.answered env f.ctx r).pendingPostProcess = none := by
    rw [StubState.answered, if_neg bad]
  obtain rfl := (returns_postProcess_none env none t).mp processed
  have sent := spec.sent
  rw [if_neg bad, List.append_nil] at sent
  obtain ⟨resp, answered⟩ := answered_sent env u f.ctx r
  rw [sent] at answered
  exact bad (h.code answered spec.code)

/-- From `s` to `t` every flash operation has succeeded, and none has encrypted. -/
def SoundTo (s t : StubState W D S C) : Prop :=
  s.flash.encrypt = false → t.flash.encrypt = false ∧ s.Logs Event.Sound t

instance : Std.Refl (SoundTo : StubState W D S C → StubState W D S C → Prop) :=
  ⟨fun s plain => ⟨plain, .refl s⟩⟩

instance : IsTrans (StubState W D S C) SoundTo := ⟨fun s t u first second plain => by
  obtain ⟨plain, before⟩ := first plain
  obtain ⟨plain, after⟩ := second plain
  exact ⟨plain, before.trans after⟩⟩

section Sound

variable {env} {lib : StubLib W} {s t : StubState W D S C}

theorem SoundTo.of_eq (flash : t.flash = s.flash) (trace : t.trace = s.trace) : SoundTo s t :=
  fun plain => ⟨by rw [flash, plain], .of_eq trace⟩

theorem SoundTo.event {e : Event} (encrypt : t.flash.encrypt = s.flash.encrypt)
    (trace : t.trace = s.trace ++ [e]) (sound : e.Sound) : SoundTo s t :=
  fun plain => ⟨by rw [encrypt, plain], [e], trace, List.forall_mem_singleton.mpr sound⟩

theorem EraseAhead.soundTo (h : EraseAhead lib True s t) : SoundTo s t := by
  obtain ⟨n, r, d, w, tr, rfl, only, fine, -⟩ := h
  refine fun plain => ⟨plain, tr, rfl, fun e mem => ⟨fine trivial e mem, ?_⟩⟩
  rintro addr data ok rfl
  exact (only _ mem).not_program trivial

theorem WriteOutcome.soundTo {data : List UInt8} {r : Int} (h : WriteOutcome lib s data r t)
    (good : r = responseSuccess) : SoundTo s t := by
  cases h with
  | stopped error => exact absurd good error
  | failed => exact absurd good (by decide)
  | @written u w ahead =>
    have asked : SoundTo s (s.requested data) := .event rfl rfl (Event.sound_of_idle id id)
    have cleared := IsTrans.trans _ _ _ asked ahead.soundTo
    intro plain
    obtain ⟨plain, logs⟩ := cleared plain
    refine ⟨plain, logs.snoc rfl ⟨Bool.noConfusion, ?_⟩⟩
    intro addr data' ok same
    injection same with _ _ encrypted
    rw [plain] at encrypted
    cases encrypted

theorem returns_flushWindow {r : Int} (run : (flushWindow env).Returns s r t) :
    (r ≠ responseSuccess ∧ WriteOutcome env.lib s s.window r t) ∨
      ∃ u, r = responseSuccess ∧ WriteOutcome env.lib s s.window responseSuccess u ∧
        t = { u with decompressedDataPtr := 0 } := by
  rw [flushWindow, Prog.returns_get_bind, Prog.returns_bind] at run
  obtain ⟨r', u, written, rest⟩ := run
  have outcome := (ensures_writeFlashData env _ s).2 r' u written
  split_ifs at rest with bad
  · obtain ⟨rfl, rfl⟩ := (Prog.returns_pure _ _ _ _).mp rest
    exact .inl ⟨bad, outcome⟩
  · rw [Prog.returns_modify_bind, Prog.returns_pure] at rest
    rw [not_not.mp bad] at outcome
    exact .inr ⟨u, rest.1, outcome, rest.2⟩

def Inflated (s t : StubState W D S C) : Prop :=
  ∃ space out status d left, t = { s with
    decompressedData := s.decompressedData.write s.decompressedDataPtr out
    decompressedDataPtr := s.decompressedDataPtr + out.length
    flash := { s.flash with decompressor := d, compressedRemaining := left }
    trace := s.trace ++ [.inflate space out status] }

/-- One round of the loop over a packet: erase ahead, inflate, and write a window that is full or
the last one. -/
inductive DeflRound (lib : StubLib W) (s : StubState W D S C) :
    DeflLocals ⊕ Int → StubState W D S C → Prop where
  | finished (e : Int) : DeflRound lib s (.inr e) s
  | stopped {e t} (error : e ≠ responseSuccess) (erased : EraseAhead lib False s t) :
    DeflRound lib s (.inr e) t
  | waits {u t} (next : DeflLocals) (erased : EraseAhead lib True s u) (inflated : Inflated u t) :
    DeflRound lib s (.inl next) t
  | failed {u v e t} (erased : EraseAhead lib True s u) (inflated : Inflated u v)
    (error : e ≠ responseSuccess) (outcome : WriteOutcome lib v v.window e t) :
    DeflRound lib s (.inr e) t
  | flushed {u v w} (next : DeflLocals) (erased : EraseAhead lib True s u) (inflated : Inflated u v)
    (outcome : WriteOutcome lib v v.window responseSuccess w) :
    DeflRound lib s (.inl next) { w with decompressedDataPtr := 0 }

theorem deflRound_of_returns {ctx : CmdCtx} {dataSize : Nat} {l : DeflLocals}
    {r : DeflLocals ⊕ Int} (run : (deflDataStep env ctx dataSize l).Returns s r t) :
    DeflRound env.lib s r t := by
  unfold deflDataStep at run
  split_ifs at run with more
  · rw [Prog.returns_get_bind, Prog.returns_bind] at run
    obtain ⟨e, u, erase, run⟩ := run
    have ahead := (ensures_conditionalEraseNext env s).2 e u erase
    by_cases good : e = responseSuccess
    · rw [if_neg (not_not.mpr good)] at run
      dsimp only [inflate] at run
      rw [Prog.returns_act_bind, Prog.returns_get_bind] at run
      have erased := ahead.mono fun _ : True => good
      split_ifs at run
      all_goals first
        | obtain ⟨rfl, rfl⟩ := (Prog.returns_pure _ _ _ _).mp run
          exact .waits _ erased ⟨_, _, _, _, _, rfl⟩
        | obtain ⟨e', v, flushed, rest⟩ := (Prog.returns_bind _ _ _ _ _).mp run
          obtain ⟨bad, outcome⟩ | ⟨w, good, outcome, rfl⟩ := returns_flushWindow flushed
          · rw [if_pos bad, Prog.returns_pure] at rest
            obtain ⟨rfl, rfl⟩ := rest
            exact .failed erased ⟨_, _, _, _, _, rfl⟩ bad outcome
          · rw [if_neg (not_not.mpr good), Prog.returns_pure] at rest
            obtain ⟨rfl, rfl⟩ := rest
            exact .flushed _ erased ⟨_, _, _, _, _, rfl⟩ outcome
    · rw [if_pos good, Prog.returns_pure] at run
      obtain ⟨rfl, rfl⟩ := run
      exact .stopped good (ahead.mono False.elim)
  · obtain ⟨rfl, rfl⟩ := (Prog.returns_pure _ _ _ _).mp run
    exact .finished _
  · obtain ⟨rfl, rfl⟩ := (Prog.returns_pure _ _ _ _).mp run
    exact .finished _

theorem Inflated.soundTo (h : Inflated s t) : SoundTo s t := by
  obtain ⟨_, _, _, _, _, rfl⟩ := h
  exact .event rfl rfl (Event.sound_of_idle id id)

theorem DeflRound.soundTo {r : DeflLocals ⊕ Int} (h : DeflRound lib s r t)
    (good : ∀ e, r = .inr e → e = responseSuccess) : SoundTo s t := by
  cases h with
  | finished => exact Std.Refl.refl s
  | stopped error => exact absurd (good _ rfl) error
  | failed _ _ error => exact absurd (good _ rfl) error
  | waits next erased inflated => exact IsTrans.trans _ _ _ erased.soundTo inflated.soundTo
  | flushed next erased inflated outcome =>
    have filled := IsTrans.trans _ _ _ erased.soundTo inflated.soundTo
    have written := IsTrans.trans _ _ _ filled (outcome.soundTo rfl)
    exact IsTrans.trans _ _ _ written (.of_eq rfl rfl)

theorem returns_deflLoop {R : StubState W D S C → StubState W D S C → Prop} [Std.Refl R]
    [IsTrans (StubState W D S C) R]
    (round : ∀ {s t r}, DeflRound env.lib s r t → (∀ e, r = .inr e → e = responseSuccess) → R s t)
    {ctx : CmdCtx} {dataSize : Nat} {l : DeflLocals} {e : Int}
    (run : (Prog.loop (deflDataStep env ctx dataSize) l).Returns s e t)
    (good : e = responseSuccess) : R s t := by
  have whole : (Prog.loop (deflDataStep env ctx dataSize) l).Ensures s (fun _ => True)
      fun e t => e = responseSuccess → R s t := by
    apply Prog.Ensures.loop (fun _ v => R s v) (fun _ _ _ => trivial) ?_ (Std.Refl.refl s)
    intro l v before
    apply Prog.Ensures.of_returns
    intro r w step
    have next := round (deflRound_of_returns step)
    cases r with
    | inl l' => exact IsTrans.trans _ _ _ before (next (by rintro _ ⟨⟩))
    | inr e =>
      intro good
      apply IsTrans.trans _ _ _ before (next ?_)
      rintro _ ⟨⟩
      exact good
  exact whole.2 e t run good

theorem streamed_kept (s : StubState W D S C) (ctx : CmdCtx) :
    (s.streamed ctx).flash = s.flash ∧ (s.streamed ctx).trace = s.trace := by
  unfold StubState.streamed
  split_ifs <;> exact ⟨rfl, rfl⟩

theorem returns_flashDeflDataPostProcess {ctx : CmdCtx} {e : Int}
    (run : (flashDeflDataPostProcess env ctx).Returns s e t) :
    ∃ l, (Prog.loop (deflDataStep env ctx (getLeToU32 ctx.mem ctx.data)) l).Returns
      (s.streamed ctx) e t := by
  unfold flashDeflDataPostProcess at run
  unfold StubState.streamed
  dsimp only at run
  split_ifs at run ⊢ with first
  · exact ⟨_, (Prog.returns_modify_bind _ _ _ _ _).mp run⟩
  · exact ⟨_, run⟩

theorem sound_runPostProcess (ctx : CmdCtx) {p : PostProcess C} (data : p.IsData) {e : Int}
    (run : (runPostProcess env ctx p).Returns s e t) (good : e = responseSuccess) :
    SoundTo s t := by
  cases p with
  | flashData =>
    rw [runPostProcess, flashDataPostProcess, Prog.returns_get_bind] at run
    exact ((ensures_writeFlashData env _ s).2 e t run).soundTo good
  | flashDeflData =>
    obtain ⟨l, loop⟩ := returns_flashDeflDataPostProcess run
    have reset : SoundTo s (s.streamed ctx) :=
      .of_eq (streamed_kept s ctx).1 (streamed_kept s ctx).2
    exact IsTrans.trans _ _ _ reset (returns_deflLoop DeflRound.soundTo loop good)
  | memEnd | changeBaudrate | readFlash | plugin => exact data.elim

end Sound

/-- What was written, followed by the window, is what was emitted. -/
structure FlowInv (start total : Nat) (tr : List Event) (s : StubState W D S C) : Prop where
  flow : written tr ++ s.window = emitted tr
  image : ImageInv start total tr s
  wrap : NoWrap tr

def Flowing (base : List Event) (start total : Nat) (s t : StubState W D S C) : Prop :=
  Kept base total (FlowInv start total) s → Kept base total (FlowInv start total) t

section Flow

variable {env} {lib : StubLib W} {base : List Event} {start total : Nat} {s t : StubState W D S C}

instance : Std.Refl (Flowing base start total : StubState W D S C → StubState W D S C → Prop) :=
  ⟨fun _ => id⟩

instance : IsTrans (StubState W D S C) (Flowing base start total) :=
  ⟨fun _ _ _ first second inv => second (first inv)⟩

theorem Event.IsEraseStep.noWrap {tr : List Event} (only : ∀ e ∈ tr, e.IsEraseStep) : NoWrap tr :=
  fun _ _ _ mem => (only _ mem).elim

theorem FlowInv.extend {tr ext : List Event} (h : FlowInv start total tr s)
    (none : ∀ e ∈ ext, ¬ e.IsProgram ∧ ¬ e.IsInflate) (wrap : NoWrap ext)
    (flash : t.flash.offset = s.flash.offset ∧ t.flash.totalRemaining = s.flash.totalRemaining)
    (window : t.window = s.window) : FlowInv start total (tr ++ ext) t where
  flow := by
    rw [written_append, written_eq_nil fun e he => (none e he).1, List.append_nil, emitted_append,
      emitted_eq_nil fun e he => (none e he).2, List.append_nil, window, h.flow]
  image := h.image.extend (fun e he => (none e he).1) flash.1 flash.2
  wrap := noWrap_append.mpr ⟨h.wrap, wrap⟩

theorem Flowing.of_eq (trace : t.trace = s.trace) (flash : t.flash = s.flash)
    (window : t.window = s.window) : Flowing base start total s t := by
  intro inv
  have grown : t.trace = s.trace ++ [] := by rw [trace, List.append_nil]
  exact inv.step grown fun tr h _ => h.extend (by simp) (by simp [NoWrap]) (by simp [flash]) window

theorem EraseAhead.flowing {ok : Prop} (h : EraseAhead lib ok s t) :
    Flowing base start total s t := by
  obtain ⟨n, r, d, w, ext, rfl, only, -⟩ := h
  intro inv
  refine inv.step rfl fun tr h _ => h.extend ?_ (Event.IsEraseStep.noWrap only) ⟨rfl, rfl⟩ rfl
  exact fun e he => ⟨(only e he).not_program, (only e he).not_inflate⟩

theorem Inflated.flowing (h : Inflated s t) : Flowing base start total s t := by
  obtain ⟨space, out, status, d, left, rfl⟩ := h
  intro inv
  refine inv.step rfl fun tr h _ => ⟨?_, h.image.extend (List.forall_mem_singleton.mpr id) rfl rfl,
    noWrap_append.mpr ⟨h.wrap, by simp [NoWrap]⟩⟩
  rw [written_append, written_eq_nil (List.forall_mem_singleton.mpr id), List.append_nil,
    emitted_append, emitted_inflate, ← h.flow, List.append_assoc]
  exact congrArg _ (window_inflated s out)

theorem FlowInv.window_fits {tr : List Event} (h : FlowInv start total tr s)
    (enough : (emitted tr).length ≤ total) : s.window.length ≤ s.flash.totalRemaining := by
  have count := h.image.count
  rw [← h.flow, List.length_append] at enough
  omega

theorem WriteOutcome.flowing (bound : start + total < 2 ^ 32)
    (h : WriteOutcome lib s s.window responseSuccess t) :
    Flowing base start total s { t with decompressedDataPtr := 0 } := by
  cases h with
  | stopped error => exact absurd rfl error
  | @written u w ahead =>
    intro inv
    have asked : Kept base total (FlowInv start total) (s.requested s.window) := by
      refine inv.step rfl fun tr h enough => h.extend (List.forall_mem_singleton.mpr ⟨id, id⟩) ?_
        ⟨rfl, rfl⟩ rfl
      intro addr size left mem
      injection List.mem_singleton.mp mem with at_ length
      rw [emitted_append, emitted_eq_nil (List.forall_mem_singleton.mpr id), List.append_nil]
        at enough
      have fits := h.window_fits enough
      have count := h.image.count
      have offset := h.image.offset
      omega
    have cleared : Kept base total (FlowInv start total) u := ahead.flowing asked
    have window : u.window = s.window := by
      obtain ⟨_, _, _, _, _, rfl, -⟩ := ahead
      rfl
    rw [← window]
    have grown : (u.programmed u.window w).trace =
      u.trace ++ [.program u.flash.offset u.window u.flash.encrypt true] := rfl
    refine cleared.step grown fun tr h enough => ?_
    rw [emitted_append, emitted_eq_nil (List.forall_mem_singleton.mpr id), List.append_nil]
      at enough
    have image := h.image.programmed bound (h.window_fits enough) w
    refine ⟨?_, ⟨image.offset, image.count, image.range⟩,
      noWrap_append.mpr ⟨h.wrap, by simp [NoWrap]⟩⟩
    rw [written_append, written_program, if_pos rfl, h.flow, emitted_append,
      emitted_eq_nil (List.forall_mem_singleton.mpr id)]
    rfl

theorem DeflRound.flowing (bound : start + total < 2 ^ 32) {r : DeflLocals ⊕ Int}
    (h : DeflRound lib s r t) (good : ∀ e, r = .inr e → e = responseSuccess) :
    Flowing base start total s t := by
  cases h with
  | finished => exact Std.Refl.refl s
  | stopped error => exact absurd (good _ rfl) error
  | failed _ _ error => exact absurd (good _ rfl) error
  | waits next erased inflated => exact IsTrans.trans _ _ _ erased.flowing inflated.flowing
  | flushed next erased inflated outcome =>
    have filled : Flowing base start total s _ :=
      IsTrans.trans _ _ _ erased.flowing inflated.flowing
    exact IsTrans.trans _ _ _ filled (outcome.flowing bound)

end Flow

section Session

variable {env} {content : W → Memory} {sector : Nat} {f g : Frame} {s₀ s t : StubState W D S C}

theorem AllSucceed.serve {frames : List Frame} (run : AllSucceed env frames s t) :
    (FlasherStub.serve env frames).Returns s () t := by
  induction frames generalizing s with
  | nil => exact (Prog.returns_pure _ _ _ _).mpr ⟨rfl, run⟩
  | cons f frames ih =>
    obtain ⟨u, handled, -, rest⟩ := run
    exact (Prog.returns_bind _ _ _ _ _).mpr ⟨(), u, handled, ih rest⟩

/-- Where a compressed session that `f` began in `s₀` stands, with `v` for the state in which the
output goes on. With an error pending nothing is known. -/
structure DeflKept (f : Frame) (s₀ v s : StubState W D S C) : Prop where
  code : IsCode s.accumulatedResult
  idle : s.pendingPostProcess = none
  ongoing : s.accumulatedResult = responseSuccess → s.flash.encrypt = false ∧
    s₀.Logs Event.Sound s ∧
      Kept s₀.trace f.ctx.beginTotal (FlowInv f.ctx.beginOffset f.ctx.beginTotal) v

theorem builtIn_of_eq {o : Opcode} (opcode : Opcode.ofByte g.ctx.command = o)
    (slot : ∀ idx, o ≠ .plugin idx) (idx : Nat) : Opcode.ofByte g.ctx.command ≠ .plugin idx := by
  rw [opcode]
  exact slot idx

theorem DeflKept.begun (opcode : Opcode.ofByte f.ctx.command = .flashDeflBegin)
    (plain : f.ctx.beginEncrypt = false) (code : IsCode s₀.accumulatedResult)
    (idle : s₀.pendingPostProcess = none)
    (run : (handleCommand env f.buffer f.size).Returns s₀ () t) (success : AnsweredSuccess s₀ t) :
    f.Begins ∧ DeflKept f s₀ { t with decompressedDataPtr := 0 } t := by
  obtain ⟨r, u, handled, good, processed⟩ := success.handled env code
    (builtIn_of_eq opcode (by simp)) (by simp [opcode]) run
  have size : f.ctx.packetSize = flashBeginSize ∨ f.ctx.packetSize = flashBeginEncSize := by
    by_contra wrong
    have dispatched := handled.returns
    rw [opcode, dispatch, returns_withEmptyResponse] at dispatched
    exact (returns_initFlashOperation_refused wrong dispatched.1).1 good
  have begins : f.Begins := ⟨handled.ok, .inr opcode, size⟩
  have ahead : EraseAhead env.lib True (f.begun env s₀) u := by
    have spec : (dispatch env f.ctx (Opcode.ofByte f.ctx.command)).Ensures s₀
        (EraseAhead env.lib False (f.begun env s₀))
        fun r => EraseAhead env.lib (r.1 = responseSuccess) (f.begun env s₀) :=
      ensures_dispatch_begin env begins (ensures_conditionalEraseNext env _)
    exact (spec.2 r u handled.returns).mono fun _ => good
  have pending : u.pendingPostProcess = none := by
    obtain ⟨_, _, _, _, _, rfl, -⟩ := ahead
    exact idle
  obtain rfl := (returns_postProcess_none env (answered_idle env pending) t).mp processed
  refine ⟨begins, ?_, answered_idle env pending, fun _ => ?_⟩
  · rw [answered_accumulatedResult]
    exact isCode_success
  obtain ⟨encrypt, logs⟩ := ahead.soundTo plain
  have fresh : Kept s₀.trace f.ctx.beginTotal (FlowInv f.ctx.beginOffset f.ctx.beginTotal)
      ({ f.begun env s₀ with decompressedDataPtr := 0 } : StubState W D S C) :=
    ⟨[], (List.append_nil _).symm, fun _ => ⟨rfl, ⟨rfl, Nat.zero_add _, by simp⟩, by simp [NoWrap]⟩⟩
  refine ⟨by rw [answered_flash, encrypt], ?_, ?_⟩
  · exact StubState.Logs.trans logs (.of_eq (answered_trace env u f.ctx r))
  · have kept : Flowing s₀.trace f.ctx.beginOffset f.ctx.beginTotal
        ({ u with decompressedDataPtr := 0 } : StubState W D S C)
        { u.answered env f.ctx r with decompressedDataPtr := 0 } :=
      .of_eq (answered_trace env u f.ctx r) (answered_flash env u f.ctx r) rfl
    exact kept (ahead.reset.flowing fresh)

theorem DeflKept.packet (bound : f.ctx.beginOffset + f.ctx.beginTotal < 2 ^ 32)
    (opcode : Opcode.ofByte g.ctx.command = .flashDeflData)
    (kept : DeflKept f s₀ (s.streamed g.ctx) s)
    (run : (handleCommand env g.buffer g.size).Returns s () t) (success : AnsweredSuccess s t) :
    DeflKept f s₀ t t := by
  obtain ⟨r, u, handled, good, processed⟩ := success.handled env kept.code
    (builtIn_of_eq opcode (by simp)) (by simp [opcode]) run
  obtain ⟨encrypt, logs, flow⟩ := kept.ongoing handled.clear
  have dispatched := handled.returns
  rw [opcode, dispatch, returns_withEmptyResponse] at dispatched
  have registered : (flashDeflData g.ctx).Ensures s (fun _ => True) (Registered .flashDeflData s) :=
    registered_flashDeflData g.ctx s
  obtain ⟨bad, -⟩ | rfl := registered.2 _ _ dispatched.1
  · exact absurd good bad
  generalize hv : StubState.answered env { s with pendingPostProcess := some .flashDeflData }
    g.ctx r = v at processed
  have flash : v.flash = s.flash := by rw [← hv, answered_flash]
  have trace : v.trace = s.trace := by rw [← hv, answered_trace]
  have data : v.decompressedData = s.decompressedData ∧
      v.decompressedDataPtr = s.decompressedDataPtr := by
    rw [← hv]
    exact answered_data env _ g.ctx r
  have pending : v.pendingPostProcess = some .flashDeflData := by
    rw [← hv, StubState.answered, if_pos good]
    rfl
  obtain ⟨e, w, called, rfl⟩ := (returns_postProcess_some env pending t).mp processed
  obtain ⟨l, loop⟩ := returns_flashDeflDataPostProcess called
  have code : IsCode e := by
    have gives := Prog.gives_loop (gives_deflDataStep (W := W) (D := D) (S := S) (C := C) env g.ctx
      (getLeToU32 g.ctx.mem g.ctx.data)) l
    exact (gives _).2 e w loop
  refine ⟨code, rfl, fun written => ?_⟩
  obtain ⟨encrypt, more⟩ := sound_runPostProcess (p := .flashDeflData) g.ctx trivial called
    written (flash ▸ encrypt)
  have streamed : Flowing s₀.trace f.ctx.beginOffset f.ctx.beginTotal (s.streamed g.ctx)
      (v.streamed g.ctx) := by
    apply Flowing.of_eq
    · rw [(streamed_kept v g.ctx).2, (streamed_kept s g.ctx).2, trace]
    · rw [(streamed_kept v g.ctx).1, (streamed_kept s g.ctx).1, flash]
    · unfold StubState.streamed StubState.window
      split_ifs
      · rfl
      · rw [data.1, data.2]
  have rounds : Flowing s₀.trace f.ctx.beginOffset f.ctx.beginTotal (v.streamed g.ctx) w :=
    returns_deflLoop (DeflRound.flowing bound) loop written
  have inflated := rounds (streamed flow)
  refine ⟨encrypt, ?_, ?_⟩
  · obtain ⟨new, grown, sound⟩ := more
    exact StubState.Logs.snoc (logs.trans ⟨new, by rw [grown, trace], sound⟩) rfl
      (Event.sound_of_idle id id)
  · refine inflated.step rfl fun tr h _ => h.extend ?_ ?_ ⟨rfl, rfl⟩ rfl
    · exact List.forall_mem_singleton.mpr ⟨id, id⟩
    · simp [NoWrap]

theorem DeflKept.packets (bound : f.ctx.beginOffset + f.ctx.beginTotal < 2 ^ 32)
    {rest : List Frame} (later : ∀ g ∈ rest, g.ctx.command = espFlashDeflData ∧ g.seq ≠ 0)
    (kept : DeflKept f s₀ s s) (run : AllSucceed env rest s t) : DeflKept f s₀ t t := by
  induction rest generalizing s with
  | nil => exact (show t = s from run) ▸ kept
  | cons g rest ih =>
    obtain ⟨u, handled, success, run⟩ := run
    obtain ⟨command, seq⟩ := later g (by simp)
    have opcode : Opcode.ofByte g.ctx.command = .flashDeflData := by
      rw [command]
      rfl
    have next : DeflKept f s₀ u u := by
      apply DeflKept.packet bound opcode ?_ handled success
      rwa [streamed_later seq s]
    exact ih (fun g hg => later g (by simp [hg])) next run

/-- END was answered with success: the whole image has been written. -/
structure Ended (content : W → Memory) (s t : StubState W D S C) : Prop where
  clear : s.accumulatedResult = responseSuccess
  left : s.flash.totalRemaining = 0
  trace : t.trace = s.trace
  world : content t.world = content s.world
  accumulated : t.accumulatedResult = responseSuccess
  idle : t.pendingPostProcess = none

theorem ended_of_success (nor : NorContract env content sector)
    (opcode : (Opcode.ofByte g.ctx.command).IsFlashEnd) (code : IsCode s.accumulatedResult)
    (idle : s.pendingPostProcess = none) (run : (handleCommand env g.buffer g.size).Returns s () t)
    (success : AnsweredSuccess s t) : Ended content s t := by
  have builtIn (idx : Nat) : Opcode.ofByte g.ctx.command ≠ .plugin idx := by
    rcases opcode with h | h <;> simp [h]
  have notUser : Opcode.ofByte g.ctx.command ≠ .runUserCode := by
    rcases opcode with h | h <;> simp [h]
  obtain ⟨r, u, handled, good, processed⟩ := success.handled env code builtIn notUser run
  have dispatched := handled.returns
  rw [opcode.dispatch, returns_withEmptyResponse] at dispatched
  obtain ⟨bad, -⟩ | ⟨-, -, -, left, rfl⟩ := returns_handleFlashEnd dispatched.1
  · exact absurd good bad
  have pending : (StubState.answered env { s with flash := { decompressor := env.tinfl.zero } }
      g.ctx r).pendingPostProcess = none := by
    apply answered_idle
    exact idle
  obtain rfl := (returns_postProcess_none env pending t).mp processed
  refine ⟨handled.clear, left, answered_trace env _ g.ctx r, ?_, answered_accumulatedResult _ _ _ _,
    pending⟩
  rw [StubState.answered, if_pos good]
  exact nor.sendFrame _ _

/-- If a compressed session is answered with success up to its END, and its stream is no longer than
declared, the inflater has emitted the whole image, and the chip holds it as if the region had been
erased first. -/
theorem deflSession_content (contract : FlashContract env.lib sector)
    (nor : NorContract env content sector) (four : 4 ≤ sector) {d : Frame} {rest : List Frame}
    (first : f.ctx.command = espFlashDeflBegin) (plain : f.ctx.beginEncrypt = false)
    (start : d.ctx.command = espFlashDeflData ∧ d.seq = 0)
    (later : ∀ g ∈ rest, g.ctx.command = espFlashDeflData ∧ g.seq ≠ 0)
    (last : g.ctx.command = espFlashDeflEnd) (inChip : f.ctx.regionEnd sector < 2 ^ 32)
    (code : IsCode s₀.accumulatedResult) (idle : s₀.pendingPostProcess = none)
    (some : 0 < f.ctx.beginTotal) (run : AllSucceed env (f :: d :: rest ++ [g]) s₀ t) :
    t.accumulatedResult = responseSuccess ∧ t.pendingPostProcess = none ∧
    ∃ tr, t.trace = s₀.trace ++ tr ∧ ((emitted tr).length ≤ f.ctx.beginTotal →
      (emitted tr).length = f.ctx.beginTotal ∧
      content t.world = (Nor.Op.program f.ctx.beginOffset (emitted tr)).apply
        ((Nor.Op.erase (f.ctx.regionStart sector) (f.ctx.regionEnd sector)).apply
          (content s₀.world))) := by
  have opcode {h : Frame} {c : Nat} {o : Opcode} (command : h.ctx.command = c)
      (same : Opcode.ofByte c = o) : Opcode.ofByte h.ctx.command = o := by rw [command, same]
  have bound : f.ctx.beginOffset + f.ctx.beginTotal < 2 ^ 32 :=
    lt_of_le_of_lt (le_roundUp contract.pos _) inChip
  obtain ⟨u, session, ended⟩ := allSucceed_append run
  obtain ⟨t', handled, success, rfl⟩ := ended
  obtain ⟨s₁, begun, success₁, packets⟩ := id session
  obtain ⟨s₂, block, success₂, blocks⟩ := packets
  obtain ⟨begins, kept⟩ := DeflKept.begun (opcode first rfl) plain code idle begun success₁
  rw [← streamed_first start.2] at kept
  have kept : DeflKept f s₀ u u := (DeflKept.packet bound (opcode start.1 rfl) kept block
    success₂).packets bound later blocks
  have ended : Ended content u t :=
    ended_of_success nor (.inr (opcode last rfl)) kept.code kept.idle handled success
  obtain ⟨-, logs, tr, grown, flow⟩ := kept.ongoing ended.clear
  have data : ∀ g ∈ d :: rest, g.IsData := by
    intro g mem
    rcases List.mem_cons.mp mem with rfl | mem
    · exact .inr (opcode start.1 rfl)
    · exact .inr (opcode (later g mem).1 rfl)
  obtain ⟨tr', grown', stored⟩ := session_content contract nor four begins inChip data
    (success₁.executed env code begun).2.1 idle session.serve
  obtain rfl : tr = tr' := List.append_cancel_left (grown.symm.trans grown')
  refine ⟨ended.accumulated, ended.idle, tr, ended.trace.trans grown, fun enough => ?_⟩
  have inv := flow enough
  have count := inv.image.count
  have left := ended.left
  have length := congrArg List.length inv.flow
  rw [List.length_append] at length
  have none : u.window = [] := by
    apply List.eq_nil_of_length_eq_zero
    omega
  have written_ : written tr = emitted tr := by rw [← inv.flow, none, List.append_nil]
  obtain ⟨whole, complete⟩ := stored (logs.of_trace grown) inv.wrap
  rw [complete some (by omega), written_] at whole
  exact ⟨by rw [← written_]; omega, ended.world.trans whole⟩

end Session

end FlasherStub
