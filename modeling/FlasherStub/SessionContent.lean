import FlasherStub.DeflSession
import FlasherStub.PlainSession

/-! The content of the chip at any moment of a session, plain or compressed. Erasing ahead, around
sectors that are blank and no further than the writes have come, leaves what erasing first would
have left. -/

namespace FlasherStub

open ByteMemory Budget

variable {W D H S C : Type} (env : Platform W D H S C)

/-- The chip follows the events, as long as the erase counters are whole sectors. -/
def Tracks (content : W → Memory) (sector : Nat) (s t : StubState W D S C) : Prop :=
  s.Aligned sector → Follows content s t ∧ t.Aligned sector

instance (content : W → Memory) (sector : Nat) :
    Std.Refl (Tracks content sector : StubState W D S C → StubState W D S C → Prop) :=
  ⟨fun s aligned => ⟨.refl s, aligned⟩⟩

instance (content : W → Memory) (sector : Nat) :
    IsTrans (StubState W D S C) (Tracks content sector) := ⟨fun s t u first second aligned => by
  obtain ⟨before, middle⟩ := first aligned
  obtain ⟨after, last⟩ := second middle
  exact ⟨before.trans after, last⟩⟩

section Tracks

variable {env} {content : W → Memory} {sector : Nat} {s t : StubState W D S C} {α : Type}

theorem Tracks.of_eq (flash : t.flash = s.flash) (trace : t.trace = s.trace)
    (same : content t.world = content s.world) : Tracks content sector s t :=
  fun aligned => ⟨.of_eq trace same, aligned.of_eq (by rw [flash]) (by rw [flash])⟩

theorem Tracks.silent {e : Event} (next : t.flash.nextEraseAddr = s.flash.nextEraseAddr)
    (remaining : t.flash.eraseRemaining = s.flash.eraseRemaining) (trace : t.trace = s.trace ++ [e])
    (none : e.op = none) (same : content t.world = content s.world) : Tracks content sector s t :=
  fun aligned => ⟨.silent trace none same, aligned.of_eq next remaining⟩

theorem tracks_conditionalEraseNext (contract : FlashContract env.lib sector)
    (nor : NorContract env content sector) :
    (conditionalEraseNext env : Stub W D S C Int).Leads (Tracks content sector) := by
  intro s r t run aligned
  have ahead := (ensures_conditionalEraseNext env s).2 r t run
  exact ⟨(follows_conditionalEraseNext nor aligned).2 r t run, ahead.aligned contract aligned⟩

theorem WriteOutcome.aligned {lib : StubLib W} (contract : FlashContract lib sector)
    {data : List UInt8} {r : Int} (h : WriteOutcome lib s data r t) (aligned : s.Aligned sector) :
    t.Aligned sector := by
  have requested : (s.requested data).Aligned sector := aligned.of_eq rfl rfl
  cases h with
  | stopped error ahead => exact ahead.aligned contract requested
  | failed w ahead => exact (ahead.aligned contract requested).of_eq rfl rfl
  | written w ahead =>
    exact (ahead.aligned contract requested).of_eq (programmed_nextEraseAddr _ _ _)
      (programmed_eraseRemaining _ _ _)

theorem tracks_writeFlashData (contract : FlashContract env.lib sector)
    (nor : NorContract env content sector) (data : List UInt8) :
    (writeFlashData env data : Stub W D S C Int).Leads (Tracks content sector) := by
  intro s r t run aligned
  have outcome := (ensures_writeFlashData env data s).2 r t run
  exact ⟨(follows_writeFlashData contract nor data aligned).2 r t run,
    outcome.aligned contract aligned⟩

theorem tracks_flushWindow (contract : FlashContract env.lib sector)
    (nor : NorContract env content sector) :
    (flushWindow env : Stub W D S C Int).Leads (Tracks content sector) := by
  refine Prog.leads_get_bind ?_
  intro s
  refine (tracks_writeFlashData contract nor _).bind ?_
  intro r
  refine Prog.leads_ite (Prog.leads_pure _) ?_
  refine Prog.Leads.bind (Prog.leads_modify fun s => ?_) fun _ => Prog.leads_pure _
  exact Tracks.of_eq rfl rfl rfl

theorem tracks_deflDataStep (contract : FlashContract env.lib sector)
    (nor : NorContract env content sector) (ctx : CmdCtx) (dataSize : Nat) (l : DeflLocals) :
    (deflDataStep env ctx dataSize l : Stub W D S C (DeflLocals ⊕ Int)).Leads
      (Tracks content sector) := by
  refine Prog.leads_ite ?_ (Prog.leads_ite (Prog.leads_pure _) (Prog.leads_pure _))
  refine Prog.leads_get_bind ?_
  intro s
  refine (tracks_conditionalEraseNext contract nor).bind ?_
  intro r
  refine Prog.leads_ite (Prog.leads_pure _) ?_
  refine Prog.Leads.bind (Prog.leads_act fun s => Tracks.silent rfl rfl rfl rfl rfl) ?_
  intro inflated
  refine Prog.leads_get_bind ?_
  intro s
  refine Prog.leads_ite ?_ (Prog.leads_pure _)
  refine (tracks_flushWindow contract nor).bind ?_
  intro r
  exact Prog.leads_ite (Prog.leads_pure _) (Prog.leads_pure _)

theorem tracks_runPostProcess (contract : FlashContract env.lib sector)
    (nor : NorContract env content sector) (ctx : CmdCtx) {p : PostProcess C} (data : p.IsData) :
    (runPostProcess env ctx p : Stub W D S C Int).Leads (Tracks content sector) := by
  cases p with
  | flashData =>
    refine Prog.leads_get_bind ?_
    intro s
    exact tracks_writeFlashData contract nor _
  | flashDeflData =>
    have loop (l : DeflLocals) := Prog.leads_loop
      (tracks_deflDataStep (D := D) contract nor ctx (getLeToU32 ctx.mem ctx.data)) l
    unfold runPostProcess flashDeflDataPostProcess
    dsimp only
    split_ifs
    · refine Prog.Leads.bind (Prog.leads_modify fun s => ?_) fun _ => loop _
      exact Tracks.of_eq rfl rfl rfl
    · exact loop _
  | memEnd | changeBaudrate | readFlash | plugin => exact data.elim

theorem tracks_answered (nor : NorContract env content sector) (s : StubState W D S C)
    (ctx : CmdCtx) (r : Int × CommandResponseData C) :
    Tracks content sector s (s.answered env ctx r) := by
  intro aligned
  refine ⟨follows_answered nor s ctx r, aligned.of_eq ?_ ?_⟩
  · rw [answered_flash]
  · rw [answered_flash]

theorem tracks_answer_data (nor : NorContract env content sector) {f : Frame} (data : f.IsData)
    (run : (answer env f.ctx).Returns s () t) :
    Tracks content sector s t ∧ ∀ p, t.pendingPostProcess = some p → p.IsData := by
  have tracked : (answer env f.ctx).Ensures s (fun _ => True) fun _ => Tracks content sector s := by
    apply ensures_answer env
    apply (ensures_dispatch_data env data s).post
    rintro r t ⟨p, -, ⟨-, rfl⟩ | rfl⟩
    · exact tracks_answered nor t f.ctx r
    · have registered : Tracks content sector s { s with pendingPostProcess := some p } :=
        .of_eq rfl rfl rfl
      exact IsTrans.trans _ _ _ registered (tracks_answered nor _ f.ctx r)
  have pending : (answer env f.ctx).Ensures s (fun _ => True) fun _ t =>
      SessionSteps env.lib s t ∧ ∀ p, t.pendingPostProcess = some p → p.IsData :=
    ensures_answer_data env data s
  exact ⟨tracked.2 () t run, (pending.2 () t run).2⟩

theorem tracks_postProcess (contract : FlashContract env.lib sector)
    (nor : NorContract env content sector) (ctx : CmdCtx)
    (data : ∀ p, s.pendingPostProcess = some p → p.IsData)
    (run : (postProcess env ctx).Returns s () t) : Tracks content sector s t := by
  cases pending : s.pendingPostProcess with
  | none =>
    rw [(returns_postProcess_none env pending t).mp run]
    exact Std.Refl.refl s
  | some p =>
    obtain ⟨e, u, called, rfl⟩ := (returns_postProcess_some env pending t).mp run
    have last : Tracks content sector u (u.afterCallback e) := .silent rfl rfl rfl rfl rfl
    exact IsTrans.trans _ _ _ (tracks_runPostProcess contract nor ctx (data p pending) s e u called)
      last

theorem tracks_handleCommand (contract : FlashContract env.lib sector)
    (nor : NorContract env content sector) {f : Frame} (data : f.IsData) :
    (handleCommand env f.buffer f.size : Stub W D S C Unit).Leads (Tracks content sector) := by
  have sends (code : Int) :
      (sendResponse env f.ctx.command code none : Stub W D S C Unit).Leads
        (Tracks content sector) :=
    Prog.leads_modify fun s => .of_eq rfl rfl (nor.sendFrame _ _)
  have opcode : Opcode.ofByte f.ctx.command ≠ .runUserCode := by
    obtain h | h := data <;> simp [h]
  by_cases ok : f.HeaderOk
  · rw [handleCommand_ok env ok]
    refine Prog.leads_get_bind ?_
    intro s
    apply Prog.leads_ite
    · refine (sends _).bind ?_
      intro _
      exact Prog.leads_modify fun s => .of_eq rfl rfl rfl
    · rw [execute, if_neg opcode]
      intro s a u run
      obtain ⟨b, v, answered, processed⟩ := (Prog.returns_bind _ _ _ _ _).mp run
      obtain ⟨first, pending⟩ := tracks_answer_data nor data answered
      exact IsTrans.trans _ _ _ first (tracks_postProcess contract nor f.ctx pending processed)
  · rw [handleCommand_reject env ok]
    exact sends _

theorem tracks_serve (contract : FlashContract env.lib sector)
    (nor : NorContract env content sector) {frames : List Frame} (data : ∀ f ∈ frames, f.IsData) :
    (serve env frames : Stub W D S C Unit).Leads (Tracks content sector) := by
  induction frames with
  | nil => exact Prog.leads_pure ()
  | cons f frames ih =>
    refine (tracks_handleCommand contract nor (data f (by simp))).bind ?_
    intro _
    exact ih fun g hg => data g (by simp [hg])

end Tracks

structure LaidInv (sector start first : Nat) (tr : List Event) (s : StubState W D S C) : Prop where
  aligned : s.Aligned sector
  offset : s.flash.offset = start + (written tr).length
  laid : Laid start tr
  above : ∀ addr data enc ok, .program addr data enc ok ∈ tr → start ≤ addr
  range : ∀ a b r, .erase a b r ∈ tr → first ≤ a ∧ b ≤ s.flash.nextEraseAddr
  first_le : first ≤ s.flash.nextEraseAddr

namespace LaidInv

variable {lib : StubLib W} {sector start first : Nat} {tr ext : List Event}
  {s t : StubState W D S C}

theorem idle (h : LaidInv sector start first tr s)
    (quiet : ∀ e ∈ ext, ¬ e.IsProgram ∧ ¬ e.IsEraseStep)
    (offset : t.flash.offset = s.flash.offset)
    (next : t.flash.nextEraseAddr = s.flash.nextEraseAddr)
    (remaining : t.flash.eraseRemaining = s.flash.eraseRemaining) :
    LaidInv sector start first (tr ++ ext) t where
  aligned := h.aligned.of_eq next remaining
  offset := by
    rw [offset, h.offset, written_append, written_eq_nil fun e he => (quiet e he).1,
      List.append_nil]
  laid := h.laid.extend fun e he => (quiet e he).1
  above addr data enc ok mem := by
    obtain mem | mem := List.mem_append.mp mem
    · exact h.above addr data enc ok mem
    · exact absurd trivial (quiet _ mem).1
  range a b r mem := by
    rw [next]
    obtain mem | mem := List.mem_append.mp mem
    · exact h.range a b r mem
    · exact absurd trivial (quiet _ mem).2
  first_le := by
    rw [next]
    exact h.first_le

theorem ahead (h : LaidInv sector start first tr s) (contract : FlashContract lib sector)
    {ok : Prop} (ahead : EraseAhead lib ok s t) (trace : t.trace = s.trace ++ ext) :
    LaidInv sector start first (tr ++ ext) t := by
  have aligned := ahead.aligned contract h.aligned
  obtain ⟨n, r, d, w, ext', rfl, only, -, advance⟩ := ahead
  obtain rfl : ext = ext' := (List.append_cancel_left trace).symm
  have moved := advance sector contract h.aligned
  have le := moved.le
  have below := h.first_le
  have none : ∀ e ∈ ext, ¬ e.IsProgram := fun e he => (only e he).not_program
  refine ⟨aligned, ?_, h.laid.extend none, ?_, ?_, below.trans le⟩
  · rw [written_append, written_eq_nil none, List.append_nil]
    exact h.offset
  · intro addr data enc ok mem
    obtain mem | mem := List.mem_append.mp mem
    · exact h.above addr data enc ok mem
    · exact absurd trivial (none _ mem)
  · intro a b result mem
    simp only [StubState.erased]
    obtain mem | mem := List.mem_append.mp mem
    · have := h.range a b result mem
      omega
    · have := moved.range a b result mem
      omega

theorem program (h : LaidInv sector start first tr s) {data : List UInt8}
    (wrap : s.flash.offset + data.length < 2 ^ 32) (w : W) :
    LaidInv sector start first (tr ++ [.program s.flash.offset data s.flash.encrypt true])
      (s.programmed data w) where
  aligned := h.aligned.of_eq (programmed_nextEraseAddr s data w)
    (programmed_eraseRemaining s data w)
  offset := by
    have moved : (s.programmed data w).flash.offset = s.flash.offset + data.length :=
      Nat.mod_eq_of_lt wrap
    rw [moved, h.offset, written_append, written_program, if_pos rfl, List.length_append,
      Nat.add_assoc]
  laid := h.laid.program h.offset data _
  above addr data' enc ok mem := by
    obtain mem | mem := List.mem_append.mp mem
    · exact h.above addr data' enc ok mem
    · injection List.mem_singleton.mp mem with at_
      rw [at_, h.offset]
      exact Nat.le_add_right _ _
  range a b r mem := by
    rw [programmed_nextEraseAddr]
    obtain mem | mem := List.mem_append.mp mem
    · exact h.range a b r mem
    · cases List.mem_singleton.mp mem
  first_le := by
    rw [programmed_nextEraseAddr]
    exact h.first_le

theorem programmed_range (h : LaidInv sector start first tr s)
    (frontiers : Frontiers sector first tr s) {a : Nat} {e : Event} (mem : e ∈ tr)
    (programs : e.ProgramsAt a) :
    (start ≤ a ∧ a < start + (written tr).length) ∧ a < s.flash.nextEraseAddr := by
  obtain ⟨below, erased⟩ := frontiers.below e mem a programs
  rw [h.offset] at below
  cases e with
  | program addr data enc ok =>
    exact ⟨⟨(h.above addr data enc ok mem).trans programs.1, below⟩, erased⟩
  | read | erase | request | store | md5Update | inflate | postProcess => exact programs.elim

/-- The content of the chip is what erasing first and then programming would have left. -/
theorem content (h : LaidInv sector start first tr s) (discipline : DisciplineInv sector first tr s)
    (fine : NoProgramFailed tr) (pos : 0 < sector) (firstMod : first % sector = 0)
    (first_le : first ≤ start) {m n : Memory} (run : Nor.Run m (tr.filterMap Event.op) n) :
    n = (Nor.Op.program start (written tr)).apply
      ((Nor.Op.erase first s.flash.nextEraseAddr).apply m) := by
  have frontiers := discipline.frontiers fine
  funext a
  by_cases image : start ≤ a ∧ a < start + (written tr).length
  · obtain ⟨i, rfl⟩ := Nat.exists_eq_add_of_le image.1
    have inside : i < (written tr).length := by omega
    have stored := discipline.disciplined.content fine pos h.laid run
    have value : n (start + i) = (written tr)[i] := by
      rw [← Memory.getElem_read n start (written tr).length i (by simpa using inside)]
      exact List.getElem_of_eq stored _
    obtain ⟨pre, addr, data, enc, post, j, split, at_, byte⟩ :=
      h.laid i _ (List.getElem?_eq_getElem inside)
    have programs : (Event.program addr data enc true).ProgramsAt (start + i) := by
      obtain ⟨within, -⟩ := List.getElem?_eq_some_iff.mp byte
      exact ⟨by omega, by omega⟩
    have mem : Event.program addr data enc true ∈ tr := by simp [split]
    have erased : (Nor.Op.erase first s.flash.nextEraseAddr).Erases (start + i) := by
      exact ⟨by omega, (h.programmed_range frontiers mem programs).2⟩
    rw [value, Nor.Op.apply_program inside, Nor.Op.apply_erases erased]
    exact UInt8.neg_one_and.symm
  · have programs : ∀ op ∈ tr.filterMap Event.op, ¬ op.Programs a := by
      intro op hop programs
      obtain ⟨e, he, heop⟩ := List.mem_filterMap.mp hop
      exact image (h.programmed_range frontiers he (.of_op heop programs)).1
    have around (k : Memory) : (Nor.Op.program start (written tr)).apply k a = k a :=
      if_neg image
    rw [around]
    by_cases erased : first ≤ a ∧ a < s.flash.nextEraseAddr
    · have floor := Nat.div_mul_le_self a sector
      have lower : first / sector * sector ≤ a / sector * sector :=
        Nat.mul_le_mul_right _ (Nat.div_le_div_right erased.1)
      rw [Nat.div_mul_cancel (Nat.dvd_of_mod_eq_zero firstMod)] at lower
      obtain ⟨pre, post, rfl, cleared, -⟩ :=
        frontiers.cleared _ (Nat.mul_mod_left _ _) lower (by omega)
      have cleared := cleared.mono fun e he => List.mem_append_left post he
      have blank : (Nor.Op.erase first s.flash.nextEraseAddr).apply m a = 0xFF :=
        if_pos erased
      rw [blank]
      exact run.cleared programs (cleared.op floor (Nat.lt_div_mul_add pos))
    · have kept : (Nor.Op.erase first s.flash.nextEraseAddr).apply m a = m a :=
        if_neg erased
      rw [kept]
      apply run.untouched ?_ programs
      intro op hop erases
      obtain ⟨e, he, heop⟩ := List.mem_filterMap.mp hop
      obtain ⟨from_, to_, result, rfl, le, lt⟩ := erase_of_op heop erases
      have range := h.range from_ to_ result he
      omega

end LaidInv

def LaidKept (base : List Event) (sector start first : Nat) (s : StubState W D S C) : Prop :=
  ∃ tr, s.trace = base ++ tr ∧ (NoProgramFailed tr → NoWrap tr → LaidInv sector start first tr s)

section Session

variable {lib : StubLib W} {base : List Event} {sector start first : Nat}
  {s t : StubState W D S C}

theorem LaidKept.ahead (contract : FlashContract lib sector)
    (kept : LaidKept base sector start first s) {ok : Prop} (ahead : EraseAhead lib ok s t) :
    LaidKept base sector start first t := by
  obtain ⟨tr, trace, inv⟩ := kept
  obtain ⟨ext, grown⟩ := ahead.trace
  refine ⟨tr ++ ext, by rw [grown, trace, List.append_assoc], fun fine wrap => ?_⟩
  have before := inv (noProgramFailed_append.mp fine).1 (noWrap_append.mp wrap).1
  exact before.ahead contract ahead grown

theorem LaidKept.requested (kept : LaidKept base sector start first s) (data : List UInt8) :
    LaidKept base sector start first (s.requested data) := by
  obtain ⟨tr, trace, inv⟩ := kept
  refine ⟨tr ++ [_], by rw [StubState.requested, trace, List.append_assoc], fun fine wrap => ?_⟩
  have before := inv (noProgramFailed_append.mp fine).1 (noWrap_append.mp wrap).1
  exact before.idle (List.forall_mem_singleton.mpr ⟨id, id⟩) rfl rfl rfl

theorem laidKept_step (contract : FlashContract lib sector)
    (kept : LaidKept base sector start first s) (step : SessionStep lib s t) :
    LaidKept base sector start first t := by
  cases step with
  | quiet quiet =>
    obtain ⟨tr, trace, inv⟩ := kept
    obtain ⟨ext, grown, only⟩ := quiet.trace
    refine ⟨tr ++ ext, by rw [grown, trace, List.append_assoc], fun fine wrap => ?_⟩
    have before := inv (noProgramFailed_append.mp fine).1 (noWrap_append.mp wrap).1
    exact before.idle (fun e he => ⟨(only e he).not_program, (only e he).not_eraseStep⟩)
      quiet.offset quiet.nextEraseAddr quiet.eraseRemaining
  | erase ahead => exact kept.ahead contract ahead
  | @write data r t outcome =>
    have asked := kept.requested data
    cases outcome with
    | stopped error ahead => exact asked.ahead contract ahead
    | @failed u w ahead erased =>
      obtain ⟨tr, trace, -⟩ := asked.ahead contract ahead
      refine ⟨tr ++ [_], by rw [StubState.programFailed, trace, List.append_assoc], fun fine => ?_⟩
      exact absurd (by simp) (fine u.flash.offset data u.flash.encrypt)
    | @written u w ahead erased =>
      obtain ⟨tr, trace, inv⟩ := asked.ahead contract ahead
      refine ⟨tr ++ [_], by rw [StubState.programmed, trace, List.append_assoc], ?_⟩
      intro fine wrap
      have before := inv (noProgramFailed_append.mp fine).1 (noWrap_append.mp wrap).1
      apply before.program ?_ w
      obtain ⟨old, begun, -⟩ := kept
      obtain ⟨ext, grown⟩ := ahead.trace
      have split :
          tr = old ++ [.request s.flash.offset data.length s.flash.totalRemaining] ++ ext := by
        rw [grown, StubState.requested, begun, List.append_assoc, List.append_assoc] at trace
        rw [← List.append_cancel_left trace, List.append_assoc]
      rw [ahead.offset]
      exact (noWrap_append.mp wrap).1 s.flash.offset data.length s.flash.totalRemaining
        (by simp [split])

end Session

section Run

variable {env} {content : W → Memory} {sector : Nat} {f : Frame} {s₀ t : StubState W D S C}

theorem tracks_begin (contract : FlashContract env.lib sector)
    (nor : NorContract env content sector)
    (begins : f.Begins) (clear : s₀.accumulatedResult = responseSuccess)
    (idle : s₀.pendingPostProcess = none)
    (run : (handleCommand env f.buffer f.size).Returns s₀ () t) :
    Tracks content sector (f.begun env s₀) t := by
  rw [handleCommand_ok env begins.ok, Prog.returns_get_bind, if_neg (not_not.mpr clear), execute,
    if_neg begins.opcode_ne, Prog.returns_bind] at run
  obtain ⟨_, u, answered, processed⟩ := run
  have erased := (tracks_conditionalEraseNext contract nor (D := D) (S := S) (C := C))
  have ends : (answer env f.ctx).Ensures s₀ (fun _ => True) fun _ v =>
      Tracks content sector (f.begun env s₀) v ∧ v.pendingPostProcess = none := by
    apply ensures_answer env
    apply ensures_dispatch_begin env begins
    apply Prog.Ensures.of_returns
    intro r v ahead
    have pending : v.pendingPostProcess = none := by
      obtain ⟨_, _, _, _, _, rfl, -⟩ := (ensures_conditionalEraseNext env _).2 r v ahead
      exact idle
    exact ⟨IsTrans.trans _ _ _ (erased _ r v ahead) (tracks_answered nor v f.ctx _),
      answered_idle env pending⟩
  obtain ⟨tracked, pending⟩ := ends.2 _ u answered
  rw [(returns_postProcess_none env pending t).mp processed]
  exact tracked

theorem Laid.complete {tr : List Event} (laid : Laid f.ctx.beginOffset tr)
    (frontiers : Frontiers sector (f.ctx.regionStart sector) tr t) (pos : 0 < sector)
    (sum : t.flash.nextEraseAddr + t.flash.eraseRemaining = f.ctx.regionEnd sector)
    (some : 0 < f.ctx.beginTotal) (all : (written tr).length = f.ctx.beginTotal) :
    t.flash.nextEraseAddr = f.ctx.regionEnd sector := by
  have inside : f.ctx.beginTotal - 1 < (written tr).length := by omega
  obtain ⟨pre, addr, data, enc, post, j, split, at_, byte⟩ :=
    laid (f.ctx.beginTotal - 1) _ (List.getElem?_eq_getElem inside)
  obtain ⟨within, -⟩ := List.getElem?_eq_some_iff.mp byte
  have mem : Event.program addr data enc true ∈ tr := by simp [split]
  have below := (frontiers.below _ mem (addr + j) ⟨by omega, by omega⟩).2
  have rounded : f.ctx.regionEnd sector ≤ t.flash.nextEraseAddr := by
    obtain ⟨k, whole⟩ := Nat.dvd_of_mod_eq_zero frontiers.aligned.next
    have least := Nat.div_mul_le_self (f.ctx.beginOffset + f.ctx.beginTotal + (sector - 1)) sector
    have fewer : f.ctx.regionEnd sector < (k + 1) * sector := by
      rw [Nat.mul_comm] at whole
      rw [Nat.succ_mul, ← whole]
      change _ / sector * sector < _
      omega
    rw [whole, Nat.mul_comm]
    exact Nat.mul_le_mul_right _ (Nat.le_of_lt_succ (Nat.lt_of_mul_lt_mul_right fewer))
  omega

/-- At any moment of a session without a failed flash operation, plain or compressed, the chip holds
what it would hold if the sectors that the erase position has passed had been erased first and then
all that was written had been programmed at once. With the last byte of the image these are all
sectors of the image. -/
theorem session_content (contract : FlashContract env.lib sector)
    (nor : NorContract env content sector) (four : 4 ≤ sector) (begins : f.Begins)
    (inChip : f.ctx.regionEnd sector < 2 ^ 32) {frames : List Frame}
    (data : ∀ g ∈ frames, g.IsData) (clear : s₀.accumulatedResult = responseSuccess)
    (idle : s₀.pendingPostProcess = none) (run : (serve env (f :: frames)).Returns s₀ () t) :
    ∃ tr, t.trace = s₀.trace ++ tr ∧ ((∀ e ∈ tr, e.Sound) → NoWrap tr →
      content t.world = (Nor.Op.program f.ctx.beginOffset (written tr)).apply
        ((Nor.Op.erase (f.ctx.regionStart sector) t.flash.nextEraseAddr).apply
          (content s₀.world)) ∧
      (0 < f.ctx.beginTotal → (written tr).length = f.ctx.beginTotal →
        t.flash.nextEraseAddr = f.ctx.regionEnd sector)) := by
  have dvd : 4 ∣ sector := contract.four_dvd four
  have firstMod : f.ctx.regionStart sector % sector = 0 := Nat.mul_mod_left _ _
  obtain ⟨aligned, next, sum⟩ := begun_aligned env contract inChip s₀
  have first_le : f.ctx.regionStart sector ≤ f.ctx.beginOffset := Nat.div_mul_le_self _ _
  have steps := session_steps env begins data clear idle (.inr ⟨(), run⟩)
  have begun : LaidKept s₀.trace sector f.ctx.beginOffset (f.ctx.regionStart sector)
      (f.begun env s₀) := by
    refine ⟨[], (List.append_nil _).symm, fun _ _ => ⟨aligned, rfl, ?_, by simp, by simp, next.ge⟩⟩
    intro i b h
    simp at h
  have disciplined :
      DisciplineKept s₀.trace sector (f.ctx.regionStart sector) (f.begun env s₀) := by
    refine ⟨[], (List.append_nil _).symm, fun _ => ⟨?_, fun _ => ⟨aligned, first_le, by simp, ?_⟩⟩⟩
    · intro pre e post split
      simp at split
    · intro b _ le lt
      omega
  obtain ⟨tr, trace, laid⟩ := steps.invariant begun fun s t => laidKept_step contract
  obtain ⟨tr', trace', discipline⟩ := steps.invariant disciplined fun s t =>
    disciplineKept_step contract dvd firstMod
  obtain rfl : tr = tr' := List.append_cancel_left (trace.symm.trans trace')
  have region : RegionInv sector (f.ctx.regionEnd sector) t :=
    steps.invariant ⟨aligned, sum⟩ fun s t => regionInv_step contract
  have follows : Follows content (f.begun env s₀) t := by
    obtain ⟨_, u, first, rest⟩ := (Prog.returns_bind _ _ _ _ _).mp run
    exact (IsTrans.trans _ _ _ (tracks_begin contract nor begins clear idle first)
      (tracks_serve contract nor data u () t rest) aligned).1
  refine ⟨tr, trace, fun sound wrap => ?_⟩
  have fine := NoProgramFailed.of_sound sound
  have inv := laid fine wrap
  obtain ⟨ext, grown, chip⟩ := follows
  have same : ext = tr := List.append_cancel_left (grown.symm.trans trace)
  rw [same] at chip
  refine ⟨?_, fun some all => ?_⟩
  · exact inv.content (discipline wrap) fine contract.pos firstMod first_le (chip sound)
  · exact inv.laid.complete ((discipline wrap).frontiers fine) contract.pos region.2 some all

/-- Two bytes that are inflated into a sector of four. -/
theorem session_content_two_bytes :
    ∃ t, (serve (simPlatform 4 [(.done, 1, [1, 2])])
        [beginFrame espFlashDeflBegin 2 0, dataFrame espFlashDeflData 0 [7]]).Returns
          (simStart fun _ => 0) () t ∧
      t.world.content =
        (Nor.Op.program 0 [1, 2]).apply ((Nor.Op.erase 0 4).apply fun _ => 0) := by
  obtain ⟨t, run, shape, next⟩ : ∃ t, (serve (simPlatform 4 [(.done, 1, [1, 2])])
      [beginFrame espFlashDeflBegin 2 0, dataFrame espFlashDeflData 0 [7]]).Returns
        (simStart fun _ => 0) () t ∧
      t.trace = [.read 0 4 (some [0, 0, 0, 0]), .erase 0 4 .ok, .inflate 32768 [1, 2] .done,
        .request 0 2 2, .program 0 [1, 2] false true, .postProcess responseSuccess] ∧
      t.flash.nextEraseAddr = 4 := ⟨_, ⟨20, _, rfl⟩, rfl, rfl⟩
  have begins : (beginFrame espFlashDeflBegin 2 0).Begins := ⟨⟨rfl, rfl⟩, .inr rfl, .inl rfl⟩
  obtain ⟨tr, trace, content⟩ := session_content
    (simLib_contract (k := 2) (by decide)) (simPlatform_nor 4 [(.done, 1, [1, 2])]) (by decide)
    begins (by decide) (List.forall_mem_singleton.mpr (.inr rfl)) rfl rfl run
  obtain rfl : t.trace = tr := trace
  have sound : ∀ e ∈ t.trace, e.Sound := by
    rw [shape]
    simp [Event.Sound, Event.Failed]
  have wrap : NoWrap t.trace := by
    intro addr size left h
    rw [shape] at h
    simp only [List.mem_cons, reduceCtorEq, Event.request.injEq, List.not_mem_nil, false_or,
      or_false] at h
    omega
  have stored := (content sound wrap).1
  rw [shape, next] at stored
  exact ⟨t, run, stored⟩

end Run

end FlasherStub
