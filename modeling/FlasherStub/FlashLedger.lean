import FlasherStub.DeflProgress
import FlasherStub.FlashWrites
import FlasherStub.PlainSession

/-! Flash sessions over whole runs, with failures and with any other commands in between. END closes
a session only if the whole image has been programmed. -/

namespace FlasherStub

open ByteMemory Budget

variable {W D H S C : Type} (env : Platform W D H S C)

/-- What a host knows of the session that it has begun last. `base` is what had happened before,
`since` are the frames after it. -/
structure FlashImage where
  total : Nat
  offset : Nat
  encrypt : Bool
  base : List Event
  since : List Frame

def FlashImage.after (i : FlashImage) (f : Frame) : FlashImage := { i with since := i.since ++ [f] }

def FlashImage.Plain (i : FlashImage) : Prop :=
  ∀ g ∈ i.since, Opcode.ofByte g.ctx.command ≠ .flashDeflData

theorem FlashImage.Plain.before {i : FlashImage} {f : Frame} (plain : (i.after f).Plain) :
    i.Plain ∧ Opcode.ofByte f.ctx.command ≠ .flashDeflData :=
  ⟨fun g mem => plain g (List.mem_append_left _ mem), plain f (by simp [after])⟩

/-- A frame that the stub takes up as BEGIN, even if its first erase fails. -/
structure TakenUp (f : Frame) (s : StubState W D S C) : Prop extends f.Begins where
  clear : s.accumulatedResult = responseSuccess

/-- How a frame that is handled in `s` changes what the host knows. -/
inductive FlashImage.Next (f : Frame) (s : StubState W D S C) :
    Option FlashImage → Option FlashImage → Prop where
  | begun (begins : TakenUp f s) (d : Option FlashImage) : Next f s d
      (some ⟨f.ctx.beginTotal, f.ctx.beginOffset, f.ctx.beginEncrypt, s.trace, []⟩)
  | other (no : ¬ TakenUp f s) (d : Option FlashImage) :
    Next f s d (d.map (·.after f))

/-- A run over `frames` from `s₀`, with the session that was begun last in it. -/
inductive FlashRun (s₀ : StubState W D S C) :
    List Frame → Option FlashImage → StubState W D S C → Prop where
  | start : FlashRun s₀ [] none s₀
  | next {frames d t f d' u} (before : FlashRun s₀ frames d t)
      (step : (handleCommand env f.buffer f.size).Returns t () u)
      (track : FlashImage.Next f t d d') : FlashRun s₀ (frames ++ [f]) d' u

variable {env} {s₀ : StubState W D S C}

theorem FlashRun.serve {frames : List Frame} {d : Option FlashImage} {t : StubState W D S C}
    (run : FlashRun env s₀ frames d t) : (serve env frames).Returns s₀ () t := by
  induction run with
  | start => exact (Prog.returns_pure _ _ _ _).mpr ⟨rfl, rfl⟩
  | next before step track ih => exact (returns_serve_snoc env _ _ _ _).mpr ⟨_, ih, step⟩

theorem flashRun_of_serve {frames : List Frame} {t : StubState W D S C}
    (run : (FlasherStub.serve env frames).Returns s₀ () t) : ∃ d, FlashRun env s₀ frames d t := by
  induction frames using List.reverseRecOn generalizing t with
  | nil =>
    obtain ⟨-, rfl⟩ := (Prog.returns_pure _ _ _ _).mp run
    exact ⟨none, .start⟩
  | append_singleton frames f ih =>
    obtain ⟨u, first, last⟩ := (returns_serve_snoc env _ _ _ _).mp run
    obtain ⟨d, before⟩ := ih first
    by_cases begins : TakenUp f u
    · exact ⟨_, before.next last (.begun begins d)⟩
    · exact ⟨_, before.next last (.other begins d)⟩

/-! What one command does to the session. -/

section Command

variable {f : Frame} {t u v : StubState W D S C} {r : Int}

def Opcode.IsFlashEnd (o : Opcode) : Prop := o = .flashEnd ∨ o = .flashDeflEnd

theorem checkFlashInProgress_eq (s : StubState W D S C) :
    checkFlashInProgress s = responseSuccess ↔ s.flash.inProgress = true := by
  unfold checkFlashInProgress
  split_ifs with armed
  · exact ⟨fun _ => armed, fun _ => rfl⟩
  · exact ⟨fun h => absurd h (by decide), fun h => absurd h armed⟩

theorem returns_handleFlashEnd {ctx : CmdCtx} (run : (handleFlashEnd env ctx).Returns t r u) :
    (r ≠ responseSuccess ∧ u = t) ∨ r = responseSuccess ∧ ctx.packetSize = flashEndSize ∧
      t.flash.inProgress = true ∧ t.flash.totalRemaining = 0 ∧
        u = { t with flash := { decompressor := env.tinfl.zero } } := by
  unfold handleFlashEnd at run
  rw [Prog.returns_get_bind] at run
  split_ifs at run with size closed left
  · obtain ⟨rfl, rfl⟩ := (Prog.returns_pure _ _ _ _).mp run
    exact .inl ⟨by decide, rfl⟩
  · obtain ⟨rfl, rfl⟩ := (Prog.returns_pure _ _ _ _).mp run
    exact .inl ⟨closed, rfl⟩
  · obtain ⟨rfl, rfl⟩ := (Prog.returns_pure _ _ _ _).mp run
    exact .inl ⟨by decide, rfl⟩
  · rw [Prog.returns_modify_bind, Prog.returns_pure] at run
    exact .inr ⟨run.1, not_not.mp size, (checkFlashInProgress_eq t).mp (not_not.mp closed),
      not_not.mp left, run.2⟩

theorem returns_flashData {ctx : CmdCtx} (run : (flashData ctx).Returns t r u)
    (good : r = responseSuccess) : t.flash.inProgress = true := by
  unfold flashData at run
  rw [Prog.returns_get_bind] at run
  dsimp only at run
  split_ifs at run with short closed long sum
  · exact absurd (((Prog.returns_pure _ _ _ _).mp run).1.symm.trans good) (by decide)
  · exact absurd (((Prog.returns_pure _ _ _ _).mp run).1.symm.trans good) closed
  all_goals exact (checkFlashInProgress_eq t).mp (not_not.mp closed)

theorem returns_flashDeflData {ctx : CmdCtx} (run : (flashDeflData ctx).Returns t r u)
    (good : r = responseSuccess) : t.flash.inProgress = true := by
  unfold flashDeflData at run
  rw [Prog.returns_get_bind] at run
  dsimp only at run
  split_ifs at run with short closed sum
  · exact absurd (((Prog.returns_pure _ _ _ _).mp run).1.symm.trans good) (by decide)
  · exact absurd (((Prog.returns_pure _ _ _ _).mp run).1.symm.trans good) closed
  all_goals exact (checkFlashInProgress_eq t).mp (not_not.mp closed)

theorem dispatch_data {o : Opcode} {ctx : CmdCtx} {r : Int × CommandResponseData C}
    (idle : t.pendingPostProcess = none) (run : (dispatch env ctx o).Returns t r v)
    (good : r.1 = responseSuccess) {p : PostProcess C} (pending : v.pendingPostProcess = some p)
    (data : p.IsData) : t.flash.inProgress = true ∧ (p = .flashData → o = .flashData) ∧
      (p = .flashDeflData → o = .flashDeflData) := by
  by_cases slot : ∃ idx, o = .plugin idx
  · obtain ⟨idx, rfl⟩ := slot
    have foreign : (dispatch env ctx (.plugin idx)).Ensures t (fun _ => True)
        fun _ v => ∀ p, v.pendingPostProcess = some p → ¬ p.IsData := by
      refine Prog.Ensures.bind (Prog.Ensures.focus ⟨fun _ _ => trivial, fun r u _ => ?_⟩)
      dsimp only
      cases r.2.postProcess with
      | none =>
        refine Prog.Ensures.bind (Prog.Ensures.pure (Prog.Ensures.pure fun p h => ?_))
        cases idle.symm.trans h
      | some callback =>
        refine Prog.Ensures.bind (Prog.Ensures.modify (Prog.Ensures.pure fun p h => ?_))
        obtain rfl := Option.some.inj h
        exact id
    exact absurd data (foreign.2 _ _ run p pending)
  · have registered := ((ensures_dispatch ctx t (not_exists.mp slot)).2 _ _ run).pending
    rw [if_pos good, idle, Option.or_none, pending] at registered
    cases o with
    | flashData =>
      cases registered
      rw [dispatch, returns_withEmptyResponse] at run
      exact ⟨returns_flashData run.1 good, fun _ => rfl, by rintro ⟨⟩⟩
    | flashDeflData =>
      rw [dispatch, returns_withEmptyResponse] at run
      cases registered
      exact ⟨returns_flashDeflData run.1 good, by rintro ⟨⟩, fun _ => rfl⟩
    | _ => cases registered <;> exact data.elim

theorem answered_pending {ctx : CmdCtx} {r : Int × CommandResponseData C} {p : PostProcess C}
    (pending : (v.answered env ctx r).pendingPostProcess = some p) :
    r.1 = responseSuccess ∧ v.pendingPostProcess = some p := by
  unfold StubState.answered at pending
  split_ifs at pending with good
  exact ⟨good, pending⟩

theorem postProcess_writes (honest : InflaterContract env.tinfl) {ctx : CmdCtx}
    {r : Int × CommandResponseData C} (idle : t.pendingPostProcess = none)
    (run : (dispatch env ctx (Opcode.ofByte ctx.command)).Returns t r v)
    (processed : (postProcess env ctx).Returns (v.answered env ctx r) () u) :
    Writes env.lib (t.flash.inProgress = true)
      (Opcode.ofByte ctx.command ≠ .flashDeflData) v u := by
  have answered : Writes env.lib (t.flash.inProgress = true)
      (Opcode.ofByte ctx.command ≠ .flashDeflData) v (v.answered env ctx r) :=
    (beside_answered env ctx v r).writes
  cases pending : (v.answered env ctx r).pendingPostProcess with
  | none =>
    rw [(returns_postProcess_none env pending u).mp processed]
    exact answered
  | some p =>
    obtain ⟨e, w, callback, rfl⟩ := (returns_postProcess_some env pending u).mp processed
    obtain ⟨good, registered⟩ := answered_pending pending
    have source (data : p.IsData) := dispatch_data idle run good registered data
    have kept : (runPostProcess env ctx p).Keeps (Writes env.lib (t.flash.inProgress = true)
        (Opcode.ofByte ctx.command ≠ .flashDeflData)) := by
      refine keepsWrites_runPostProcess env ctx honest (fun data => (source data).1) ?_
      rintro plainly rfl
      exact plainly ((source trivial).2.2 rfl)
    have written := (kept _).2 e w callback
    exact IsTrans.trans _ _ _ (IsTrans.trans _ _ _ answered written)
      (Beside.writes (.event rfl rfl id rfl))

variable (env) in
inductive FlashStep (f : Frame) (t u : StubState W D S C) : Prop where
  | begun (begins : TakenUp f t) (written : Writes env.lib False True (f.begun env t) u)
  | ended (no : ¬ TakenUp f t) (inProgress : t.flash.inProgress = true)
    (all : t.flash.totalRemaining = 0)
    (closed : Writes env.lib False True { t with flash := { decompressor := env.tinfl.zero } } u)
  | other (no : ¬ TakenUp f t)
    (open_ : Succeeds env f t → ¬ (Opcode.ofByte f.ctx.command).IsFlashEnd)
    (written : Writes env.lib (t.flash.inProgress = true)
      (Opcode.ofByte f.ctx.command ≠ .flashDeflData) t u)

theorem flashStep_begin {f : Frame} (begins : TakenUp f t) (idle : t.pendingPostProcess = none)
    (run : (handleCommand env f.buffer f.size).Returns t () u) : FlashStep env f t u := by
  obtain ⟨r, v, ahead, rfl⟩ :=
    (ensures_handleCommand_begin env begins.toBegins begins.clear idle).2 _ _ run
  exact .begun begins
    (IsTrans.trans _ _ _ ahead.writes (beside_answered env f.ctx v (r, {})).writes)

theorem returns_initFlashOperation_refused {ctx : CmdCtx} {isCompressed : Bool}
    (size : ¬ (ctx.packetSize = flashBeginSize ∨ ctx.packetSize = flashBeginEncSize))
    (run : (initFlashOperation env ctx isCompressed).Returns t r u) :
    r ≠ responseSuccess ∧ u = t := by
  rw [initFlashOperation, if_pos (not_or.mp size), Prog.returns_pure] at run
  exact ⟨by rw [run.1]; decide, run.2⟩

theorem flashStep_of_handled (honest : InflaterContract env.tinfl)
    (idle : t.pendingPostProcess = none) {r : Int × CommandResponseData C}
    (handled : Handled env f t r v) (no : ¬ TakenUp f t)
    (processed : (postProcess env f.ctx).Returns (v.answered env f.ctx r) () u) :
    FlashStep env f t u := by
  have dispatched := handled.returns
  have after := postProcess_writes honest idle dispatched processed
  have refused (bad : r.1 ≠ responseSuccess) (same : v = t) : FlashStep env f t u :=
    .other no (fun good => absurd (handled.succeeds_iff.mp good) bad) (same ▸ after)
  have size (opcode : Opcode.ofByte f.ctx.command = .flashBegin ∨
      Opcode.ofByte f.ctx.command = .flashDeflBegin) :
      ¬ (f.ctx.packetSize = flashBeginSize ∨ f.ctx.packetSize = flashBeginEncSize) :=
    fun size => no ⟨⟨handled.ok, opcode, size⟩, handled.clear⟩
  have ends {r' : Int} (same : r.1 = r') (run : (handleFlashEnd env f.ctx).Returns t r' v)
      (opcode : (Opcode.ofByte f.ctx.command).IsFlashEnd) : FlashStep env f t u := by
    obtain ⟨bad, rfl⟩ | ⟨good, -, inProgress, all, rfl⟩ := returns_handleFlashEnd run
    · exact refused (same ▸ bad) rfl
    · have pending : (StubState.answered env { t with flash := { decompressor := env.tinfl.zero } }
          f.ctx r).pendingPostProcess = none := by
        apply answered_idle
        exact idle
      rw [(returns_postProcess_none env pending u).mp processed]
      exact .ended no inProgress all (beside_answered env f.ctx _ r).writes
  cases opcode : Opcode.ofByte f.ctx.command with
  | flashBegin =>
    rw [opcode, dispatch, returns_withEmptyResponse] at dispatched
    obtain ⟨bad, rfl⟩ := returns_initFlashOperation_refused (size (.inl opcode)) dispatched.1
    exact refused bad rfl
  | flashDeflBegin =>
    rw [opcode, dispatch, returns_withEmptyResponse] at dispatched
    obtain ⟨bad, rfl⟩ := returns_initFlashOperation_refused (size (.inr opcode)) dispatched.1
    exact refused bad rfl
  | flashEnd =>
    rw [opcode, dispatch, returns_withEmptyResponse] at dispatched
    exact ends rfl dispatched.1 (.inl opcode)
  | flashDeflEnd =>
    rw [opcode, dispatch, returns_withEmptyResponse] at dispatched
    exact ends rfl dispatched.1 (.inr opcode)
  | _ =>
    have other : ¬ (Opcode.ofByte f.ctx.command).IsSession := by
      rw [opcode]
      exact id
    have open_ : ¬ (Opcode.ofByte f.ctx.command).IsFlashEnd := by
      rw [opcode]
      rintro (h | h) <;> cases h
    have beside := (keepsBeside_dispatch env f.ctx other t).2 r v dispatched
    exact .other no (fun _ => open_) (IsTrans.trans _ _ _ beside.writes after)

theorem flashStep_of_run (honest : InflaterContract env.tinfl)
    (idle : t.pendingPostProcess = none)
    (run : (handleCommand env f.buffer f.size).Returns t () u) : FlashStep env f t u := by
  by_cases begins : TakenUp f t
  · exact flashStep_begin begins idle run
  by_cases ok : f.HeaderOk
  · by_cases clear : t.accumulatedResult = responseSuccess
    · rw [returns_handleCommand_execute env ok clear] at run
      by_cases opcode : Opcode.ofByte f.ctx.command = .runUserCode
      · rw [execute, if_pos opcode, Prog.returns_pure] at run
        refine .other begins ?_ (Beside.writes (run.2 ▸ Std.Refl.refl _))
        rintro ⟨_, _, handled, -⟩
        exact absurd opcode handled.opcode
      · obtain ⟨r, v, dispatched, processed⟩ := returns_execute env opcode run
        exact flashStep_of_handled honest idle ⟨ok, clear, opcode, dispatched⟩ begins processed
    · rw [returns_handleCommand_report env ok clear] at run
      exact .other begins (fun good => absurd good (not_succeeds_of_report clear))
        (Beside.writes (run ▸ .of_eq rfl rfl rfl))
  · rw [returns_handleCommand_reject env ok] at run
    exact .other begins (fun good => absurd good (not_succeeds_of_reject ok))
      (Beside.writes (run ▸ .of_eq rfl rfl rfl))

end Command

/-! The account of a run. -/

namespace FlashImage

structure Account (i : FlashImage) (new : List Event) (t : StubState W D S C) : Prop where
  trace : t.trace = i.base ++ new
  laid : programmedBytes new = placed i.offset (written new)
  mode : ∀ addr data enc ok, .program addr data enc ok ∈ new → enc = i.encrypt
  fits : i.Plain → (written new).length ≤ i.total

structure Open (i : FlashImage) (new : List Event) (t : StubState W D S C) : Prop where
  offset : t.flash.offset % 2 ^ 32 = (i.offset + (written new).length) % 2 ^ 32
  remaining : (t.flash.totalRemaining + (written new).length) % 2 ^ 32 = i.total
  small : t.flash.totalRemaining < 2 ^ 32
  exact : i.Plain → t.flash.totalRemaining + (written new).length = i.total
  encrypt : t.flash.encrypt = i.encrypt

variable {i : FlashImage} {f : Frame} {new new' : List Event} {t u : StubState W D S C}
  {may plain : Prop}

theorem Account.quiet (account : i.Account new t) (trace : u.trace = t.trace ++ new')
    (none : ∀ e ∈ new', ¬ e.IsProgram) : (i.after f).Account (new ++ new') u where
  trace := by rw [trace, account.trace, List.append_assoc]; rfl
  laid := by
    rw [programmedBytes_append, written_append, programmedBytes_eq_nil none, written_eq_nil none,
      List.append_nil, List.append_nil]
    exact account.laid
  mode addr data enc ok mem := by
    obtain mem | mem := List.mem_append.mp mem
    · exact account.mode addr data enc ok mem
    · exact absurd trivial (none _ mem)
  fits plainly := by
    rw [written_append, written_eq_nil none, List.append_nil]
    exact account.fits plainly.before.1

theorem Open.add (counted : i.Open new t) (writes : WritesBy lib may plain new' t u)
    (only : Opcode.ofByte f.ctx.command ≠ .flashDeflData → plain) :
    (i.after f).Open (new ++ new') u where
  offset := by
    have first := counted.offset
    have second := writes.offset
    rw [written_append, List.length_append]
    change _ = (i.offset + _) % 2 ^ 32
    omega
  remaining := by
    have first := counted.remaining
    have second := writes.remaining
    rw [written_append, List.length_append]
    change _ = i.total
    omega
  small := writes.small counted.small
  exact plainly := by
    have first := counted.exact plainly.before.1
    have second := writes.exact (only plainly.before.2) counted.small
    rw [written_append, List.length_append]
    change _ = i.total
    omega
  encrypt := writes.encrypt.trans counted.encrypt

theorem Account.add (account : i.Account new t) (counted : i.Open new t)
    (writes : WritesBy lib may plain new' t u)
    (only : Opcode.ofByte f.ctx.command ≠ .flashDeflData → plain) :
    (i.after f).Account (new ++ new') u where
  trace := by rw [writes.trace, account.trace, List.append_assoc]; rfl
  laid := by
    rw [programmedBytes_append, account.laid, writes.laid, written_append, placed_append,
      ← placed_mod t.flash.offset, counted.offset, placed_mod]
    rfl
  mode addr data enc ok mem := by
    obtain mem | mem := List.mem_append.mp mem
    · exact account.mode addr data enc ok mem
    · exact (writes.mode addr data enc ok mem).trans counted.encrypt
  fits plainly := by
    have all := (counted.add writes only).exact plainly
    omega

end FlashImage

structure FlashInv (s₀ : StubState W D S C) (d : Option FlashImage) (t : StubState W D S C) :
    Prop where
  window : t.decompressedDataPtr ≤ tinflLzDictSize
  none : d = none → s₀.Logs (fun e => ¬ e.IsProgram) t ∧ t.flash.inProgress = false
  account : ∀ i ∈ d, ∃ new, i.Account new t ∧ (t.flash.inProgress = true → i.Open new t)

namespace FlashInv

variable {f : Frame} {d : Option FlashImage} {t u : StubState W D S C}

theorem begun (inv : FlashInv s₀ d t) (writes : Writes env.lib False True (f.begun env t) u) :
    FlashInv s₀
      (some ⟨f.ctx.beginTotal, f.ctx.beginOffset, f.ctx.beginEncrypt, t.trace, []⟩) u := by
  have begin_ := begun_begin env f.ctx (Opcode.ofByte f.ctx.command = .flashDeflBegin) t
  obtain ⟨window, new, writes⟩ := writes inv.window
  have none := writes.quiet id
  have total : f.ctx.beginTotal < 2 ^ 32 := getLeToU32_lt _ _
  have small : (f.begun env t).flash.totalRemaining = f.ctx.beginTotal := begin_.totalRemaining
  refine ⟨window, by rintro ⟨⟩, fun i mem => ?_⟩
  obtain rfl := Option.some.inj mem
  refine ⟨new, ⟨writes.trace, ?_, fun _ _ _ _ mem => absurd trivial (none _ mem), ?_⟩,
    fun _ => ⟨?_, ?_, writes.small (by omega), ?_, writes.encrypt.trans begin_.encrypt⟩⟩
  · rw [programmedBytes_eq_nil none, written_eq_nil none]
    rfl
  · rw [written_eq_nil none]
    exact fun _ => Nat.zero_le _
  · rw [writes.offset]
    exact congrArg (fun offset => (offset + _) % 2 ^ 32) begin_.offset
  · rw [writes.remaining, small]
    exact Nat.mod_eq_of_lt total
  · intro _
    rw [writes.exact trivial (by omega), small]

theorem ended (inv : FlashInv s₀ d t) (inProgress : t.flash.inProgress = true)
    {flash : FlashOperationState D} (closed : flash.inProgress = false)
    (writes : Writes env.lib False True { t with flash := flash } u) :
    FlashInv s₀ (d.map (·.after f)) u := by
  obtain ⟨window, new, writes⟩ := writes inv.window
  have over_ : u.flash.inProgress = false := writes.inProgress.trans closed
  refine ⟨window, fun none => ?_, fun i mem => ?_⟩
  · have closed := (inv.none (Option.map_eq_none_iff.mp none)).2
    rw [inProgress] at closed
    cases closed
  · obtain ⟨last, here, rfl⟩ := Option.map_eq_some_iff.mp mem
    obtain ⟨before, account, -⟩ := inv.account last here
    refine ⟨_, account.quiet writes.trace (writes.quiet id), fun h => ?_⟩
    rw [over_] at h
    cases h

theorem other (inv : FlashInv s₀ d t)
    (writes : Writes env.lib (t.flash.inProgress = true)
      (Opcode.ofByte f.ctx.command ≠ .flashDeflData) t u) :
    FlashInv s₀ (d.map (·.after f)) u := by
  obtain ⟨window, new, writes⟩ := writes inv.window
  refine ⟨window, fun none => ?_, fun i mem => ?_⟩
  · obtain ⟨logs, closed⟩ := inv.none (Option.map_eq_none_iff.mp none)
    exact ⟨logs.trans ⟨new, writes.trace, writes.quiet (by simp [closed])⟩,
      writes.inProgress.trans closed⟩
  · obtain ⟨last, here, rfl⟩ := Option.map_eq_some_iff.mp mem
    obtain ⟨before, account, counted⟩ := inv.account last here
    by_cases inProgress : t.flash.inProgress = true
    · exact ⟨_, account.add (counted inProgress) writes id,
        fun _ => (counted inProgress).add writes id⟩
    · refine ⟨_, account.quiet writes.trace (writes.quiet inProgress), fun h => ?_⟩
      exact absurd (writes.inProgress.symm.trans h) inProgress

theorem next {d' : Option FlashImage} (inv : FlashInv s₀ d t) (step : FlashStep env f t u)
    (track : FlashImage.Next f t d d') : FlashInv s₀ d' u := by
  cases step with
  | begun begins writes =>
    cases track with
    | begun => exact inv.begun writes
    | other no => exact absurd begins no
  | ended no inProgress all writes =>
    cases track with
    | begun begins => exact absurd begins no
    | other => exact inv.ended inProgress rfl writes
  | other no open_ writes =>
    cases track with
    | begun begins => exact absurd begins no
    | other => exact inv.other writes

end FlashInv

section Run

variable {frames : List Frame} {d : Option FlashImage} {f : Frame} {t : StubState W D S C}

theorem FlashRun.inv (honest : InflaterContract env.tinfl) (idle : s₀.flash.inProgress = false)
    (quiet : s₀.pendingPostProcess = none) (window : s₀.decompressedDataPtr ≤ tinflLzDictSize)
    (run : FlashRun env s₀ frames d t) : FlashInv s₀ d t := by
  induction run with
  | start => exact ⟨window, fun _ => ⟨⟨[], by simp, by simp⟩, idle⟩, by simp⟩
  | next before step track ih =>
    exact ih.next (flashStep_of_run honest (serve_pending quiet before.serve) step) track

structure FlashEndAdmitted (f : Frame) (t : StubState W D S C) : Prop where
  ok : f.HeaderOk
  clear : t.accumulatedResult = responseSuccess
  opcode : (Opcode.ofByte f.ctx.command).IsFlashEnd
  size : f.ctx.packetSize = flashEndSize
  inProgress : t.flash.inProgress = true

theorem Opcode.IsFlashEnd.dispatch {o : Opcode} (h : o.IsFlashEnd) (ctx : CmdCtx) :
    FlasherStub.dispatch env ctx o = withEmptyResponse (handleFlashEnd env ctx) := by
  obtain rfl | rfl := h <;> rfl

theorem succeeds_flashEnd_iff (opcode : (Opcode.ofByte f.ctx.command).IsFlashEnd) :
    Succeeds env f t ↔ FlashEndAdmitted f t ∧ t.flash.totalRemaining = 0 := by
  constructor
  · rintro ⟨r, v, handled, good⟩
    have dispatched := handled.returns
    rw [opcode.dispatch, returns_withEmptyResponse] at dispatched
    obtain ⟨bad, -⟩ | ⟨-, size, inProgress, left, -⟩ := returns_handleFlashEnd dispatched.1
    · exact absurd good bad
    · exact ⟨⟨handled.ok, handled.clear, opcode, size, inProgress⟩, left⟩
  · rintro ⟨admitted, left⟩
    have open_ := (checkFlashInProgress_eq t).mpr admitted.inProgress
    have runs : (handleFlashEnd env f.ctx).Returns t responseSuccess
        { t with flash := { decompressor := env.tinfl.zero } } := by
      simp [handleFlashEnd, Prog.returns_get_bind, admitted.size, open_, left,
        Prog.returns_modify_bind, Prog.returns_pure]
    have dispatched := (returns_withEmptyResponse (r := (responseSuccess, {}))).mpr ⟨runs, rfl⟩
    rw [← opcode.dispatch] at dispatched
    refine ⟨_, _, ⟨admitted.ok, admitted.clear, ?_, dispatched⟩, rfl⟩
    intro user
    rw [user] at opcode
    rcases opcode with h | h <;> cases h

/-- The whole image has been programmed, as far as 32 bits count. -/
def FlashImage.Complete (i : FlashImage) (t : StubState W D S C) : Prop :=
  ∃ new, i.Account new t ∧ (written new).length % 2 ^ 32 = i.total

theorem FlashImage.Account.unique {i : FlashImage} {new new' : List Event} (h : i.Account new t)
    (h' : i.Account new' t) : new = new' :=
  List.append_cancel_left (h.trace.symm.trans h'.trace)

theorem FlashInv.complete_iff (inv : FlashInv s₀ d t) (inProgress : t.flash.inProgress = true) :
    t.flash.totalRemaining = 0 ↔ ∃ i ∈ d, i.Complete t := by
  obtain _ | i := d
  · have closed := (inv.none rfl).2
    rw [inProgress] at closed
    cases closed
  obtain ⟨new, account, counted⟩ := inv.account i rfl
  have counted := counted inProgress
  have sum := counted.remaining
  have small := counted.small
  constructor
  · intro left
    rw [left, Nat.zero_add] at sum
    exact ⟨i, rfl, new, account, sum⟩
  · rintro ⟨_, mem, new', account', all⟩
    obtain rfl := Option.some.inj mem
    obtain rfl := account.unique account'
    omega

/-- However a run fails and whatever is mixed into it, what has been programmed since the last
BEGIN is laid without a gap from its offset and in its mode, and without a compressed block it is
never more than the image. END succeeds if and only if it is admitted and the image is complete. -/
theorem flash_end_complete (honest : InflaterContract env.tinfl)
    (idle : s₀.flash.inProgress = false) (quiet : s₀.pendingPostProcess = none)
    (window : s₀.decompressedDataPtr ≤ tinflLzDictSize) (run : FlashRun env s₀ frames d t) :
    (d = none → s₀.Logs (fun e => ¬ e.IsProgram) t) ∧ (∀ i ∈ d, ∃ new, i.Account new t) ∧
      ∀ f, (Opcode.ofByte f.ctx.command).IsFlashEnd →
        (Succeeds env f t ↔ FlashEndAdmitted f t ∧ ∃ i ∈ d, i.Complete t) := by
  have inv := run.inv honest idle quiet window
  refine ⟨fun none => (inv.none none).1, fun i mem => ?_, fun f opcode => ?_⟩
  · obtain ⟨new, account, -⟩ := inv.account i mem
    exact ⟨new, account⟩
  · rw [succeeds_flashEnd_iff opcode]
    exact and_congr_right fun admitted => inv.complete_iff admitted.inProgress

/-- A block of two bytes, as the session asks for. -/
theorem flash_end_complete_two_bytes : ∃ d t, FlashRun (simPlatform 4 []) (simStart fun _ => 0)
    [beginFrame espFlashBegin 2 0, dataFrame espFlashData 0 [1, 2]] d t ∧
      ∃ i ∈ d, i.Complete t := by
  have served : ∃ t, (serve (simPlatform 4 [])
      [beginFrame espFlashBegin 2 0, dataFrame espFlashData 0 [1, 2]]).Returns
        (simStart fun _ => 0) () t ∧ t.accumulatedResult = responseSuccess ∧
        t.flash.inProgress = true ∧ t.flash.totalRemaining = 0 := ⟨_, ⟨20, _, rfl⟩, rfl, rfl, rfl⟩
  obtain ⟨t, served, clear, inProgress, left⟩ := served
  obtain ⟨d, run⟩ := flashRun_of_serve served
  have law := (flash_end_complete (simTinfl_honest []) rfl rfl (Nat.zero_le _) run).2.2
    (endFrame espFlashEnd) (.inl (by decide))
  have admitted : FlashEndAdmitted (endFrame espFlashEnd) t :=
    ⟨by decide, clear, .inl (by decide), by decide, inProgress⟩
  exact ⟨d, t, run,
    (law.mp ((succeeds_flashEnd_iff admitted.opcode).mpr ⟨admitted, left⟩)).2⟩

end Run

end FlasherStub
