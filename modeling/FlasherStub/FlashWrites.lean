import FlasherStub.DeflSession
import FlasherStub.RamDownload

/-! What a piece of the stub writes to the flash. Only the callbacks of the data commands program;
what they program follows on what was programmed before, and the counters keep step. -/

namespace FlasherStub

open ByteMemory Budget

variable {W D H S C : Type} (env : Platform W D H S C)

def programmedBytes (events : List Event) : List (Nat × UInt8) := events.flatMap fun
  | .program addr data _ true => placed addr data
  | _ => []

theorem programmedBytes_append (xs ys : List Event) :
    programmedBytes (xs ++ ys) = programmedBytes xs ++ programmedBytes ys := List.flatMap_append

theorem programmedBytes_eq_nil {tr : List Event} (h : ∀ e ∈ tr, ¬ e.IsProgram) :
    programmedBytes tr = [] := by
  refine List.flatMap_eq_nil_iff.mpr fun e he => ?_
  have other := h e he
  cases e with
  | program => exact absurd trivial other
  | read | erase | request | store | md5Update | inflate | postProcess => rfl

structure Beside (s t : StubState W D S C) : Prop where
  flash : t.flash = s.flash
  window : t.decompressedDataPtr = s.decompressedDataPtr
  logs : s.Logs (fun e => ¬ e.IsProgram) t

section Beside

variable {s t : StubState W D S C}

theorem Beside.of_eq (flash : t.flash = s.flash) (trace : t.trace = s.trace)
    (window : t.decompressedDataPtr = s.decompressedDataPtr) : Beside s t :=
  ⟨flash, window, .of_eq trace⟩

theorem Beside.event (flash : t.flash = s.flash) {e : Event} (trace : t.trace = s.trace ++ [e])
    (other : ¬ e.IsProgram) (window : t.decompressedDataPtr = s.decompressedDataPtr) :
    Beside s t :=
  ⟨flash, window, [e], trace, List.forall_mem_singleton.mpr other⟩

instance : Std.Refl (Beside : StubState W D S C → StubState W D S C → Prop) :=
  ⟨fun s => ⟨rfl, rfl, .refl s⟩⟩

instance : IsTrans (StubState W D S C) Beside :=
  ⟨fun _ _ _ h h' => ⟨h'.flash.trans h.flash, h'.window.trans h.window, h.logs.trans h'.logs⟩⟩

end Beside

/-- Between `s` and `t` the events `new` were added. `may` says whether any of them may program,
and `plain` that what they program was left of the image. -/
structure WritesBy (lib : StubLib W) (may plain : Prop) (new : List Event)
    (s t : StubState W D S C) : Prop where
  trace : t.trace = s.trace ++ new
  quiet : ¬ may → ∀ e ∈ new, ¬ e.IsProgram
  laid : programmedBytes new = placed s.flash.offset (written new)
  offset : t.flash.offset % 2 ^ 32 = (s.flash.offset + (written new).length) % 2 ^ 32
  remaining : (t.flash.totalRemaining + (written new).length) % 2 ^ 32 =
    s.flash.totalRemaining % 2 ^ 32
  small : s.flash.totalRemaining < 2 ^ 32 → t.flash.totalRemaining < 2 ^ 32
  exact : plain → s.flash.totalRemaining < 2 ^ 32 →
    t.flash.totalRemaining + (written new).length = s.flash.totalRemaining
  inProgress : t.flash.inProgress = s.flash.inProgress
  encrypt : t.flash.encrypt = s.flash.encrypt
  mode : ∀ addr data enc ok, .program addr data enc ok ∈ new → enc = s.flash.encrypt
  region : ∀ sector regionEnd, FlashContract lib sector → RegionInv sector regionEnd s →
    RegionInv sector regionEnd t

/-- The window is not overrun, and what was written is accounted for. -/
def Writes (lib : StubLib W) (may plain : Prop) (s t : StubState W D S C) : Prop :=
  s.decompressedDataPtr ≤ tinflLzDictSize → t.decompressedDataPtr ≤ tinflLzDictSize ∧
    ∃ new, WritesBy lib may plain new s t

section Writes

variable {lib : StubLib W} {may plain : Prop} {new new' : List Event} {s t u : StubState W D S C}

theorem WritesBy.of_quiet (trace : t.trace = s.trace ++ new) (none : ∀ e ∈ new, ¬ e.IsProgram)
    (offset : t.flash.offset = s.flash.offset)
    (total : t.flash.totalRemaining = s.flash.totalRemaining)
    (inProgress : t.flash.inProgress = s.flash.inProgress)
    (encrypt : t.flash.encrypt = s.flash.encrypt)
    (region : ∀ sector regionEnd, FlashContract lib sector → RegionInv sector regionEnd s →
      RegionInv sector regionEnd t) : WritesBy lib may plain new s t where
  trace := trace
  quiet _ := none
  laid := by
    rw [programmedBytes_eq_nil none, written_eq_nil none]
    rfl
  offset := by rw [written_eq_nil none, offset]; rfl
  remaining := by rw [written_eq_nil none, total]; rfl
  small := by rw [total]; exact id
  exact _ _ := by rw [written_eq_nil none, total]; rfl
  inProgress := inProgress
  encrypt := encrypt
  mode addr data enc ok mem := absurd trivial (none _ mem)
  region := region

theorem Beside.writes (h : Beside s t) : Writes lib may plain s t := by
  obtain ⟨new, trace, none⟩ := h.logs
  have region (sector regionEnd : Nat) (_ : FlashContract lib sector)
      (inv : RegionInv sector regionEnd s) : RegionInv sector regionEnd t :=
    inv.of_eq (by rw [h.flash]) (by rw [h.flash])
  refine fun fits => ⟨h.window ▸ fits, new, .of_quiet trace none ?_ ?_ ?_ ?_ region⟩
  all_goals rw [h.flash]

theorem EraseAhead.writes {ok : Prop} (h : EraseAhead lib ok s t) : Writes lib may plain s t := by
  have region (sector regionEnd : Nat) (contract : FlashContract lib sector)
      (inv : RegionInv sector regionEnd s) := inv.ahead contract h
  obtain ⟨_, _, _, _, tr, rfl, only, -⟩ := h
  have none : ∀ e ∈ tr, ¬ e.IsProgram := fun e mem => (only e mem).not_program
  exact fun fits => ⟨fits, tr, .of_quiet rfl none rfl rfl rfl rfl region⟩

theorem WritesBy.trans (h : WritesBy lib may plain new s t) (h' : WritesBy lib may plain new' t u) :
    WritesBy lib may plain (new ++ new') s u where
  trace := by rw [h'.trace, h.trace, List.append_assoc]
  quiet none := List.forall_mem_append.mpr ⟨h.quiet none, h'.quiet none⟩
  laid := by
    rw [programmedBytes_append, h.laid, h'.laid, written_append, placed_append,
      ← placed_mod t.flash.offset, h.offset, placed_mod]
  offset := by
    have first := h.offset
    have second := h'.offset
    rw [written_append, List.length_append]
    omega
  remaining := by
    have first := h.remaining
    have second := h'.remaining
    rw [written_append, List.length_append]
    omega
  small bound := h'.small (h.small bound)
  exact only bound := by
    have first := h.exact only bound
    have second := h'.exact only (h.small bound)
    rw [written_append, List.length_append]
    omega
  inProgress := h'.inProgress.trans h.inProgress
  encrypt := h'.encrypt.trans h.encrypt
  mode addr data enc ok mem := by
    obtain mem | mem := List.mem_append.mp mem
    · exact h.mode addr data enc ok mem
    · exact (h'.mode addr data enc ok mem).trans h.encrypt
  region sector regionEnd contract inv :=
    h'.region sector regionEnd contract (h.region sector regionEnd contract inv)

instance : Std.Refl (Writes lib may plain : StubState W D S C → StubState W D S C → Prop) :=
  ⟨fun s => (Std.Refl.refl s : Beside s s).writes⟩

instance : IsTrans (StubState W D S C) (Writes lib may plain) := ⟨fun s t u first second fits => by
  obtain ⟨fits, new, h⟩ := first fits
  obtain ⟨fits, new', h'⟩ := second fits
  exact ⟨fits, new ++ new', h.trans h'⟩⟩

theorem writes_requested (s : StubState W D S C) (data : List UInt8) :
    Writes lib may plain s (s.requested data) := Beside.writes (.event rfl rfl id rfl)

end Writes

theorem WriteOutcome.writes {lib : StubLib W} {plain : Prop} {s t : StubState W D S C}
    {data : List UInt8} {r : Int} (h : WriteOutcome lib s data r t) (size : data.length < 2 ^ 32)
    (fits : plain → data.length ≤ s.flash.totalRemaining) : Writes lib True plain s t := by
  have requested : Writes lib True plain s (s.requested data) := writes_requested s data
  cases h with
  | stopped error ahead => exact IsTrans.trans _ _ _ requested ahead.writes
  | @failed u w ahead erased =>
    refine IsTrans.trans _ _ _ (IsTrans.trans _ _ _ requested ahead.writes)
      fun window => ⟨window, [.program u.flash.offset data u.flash.encrypt false], ?_⟩
    refine ⟨rfl, fun none => absurd trivial none, rfl, rfl, rfl, id, fun _ _ => rfl, rfl, rfl, ?_,
      fun _ _ _ inv => inv.of_eq rfl rfl⟩
    simp
  | @written u w ahead erased =>
    have total : u.flash.totalRemaining = s.flash.totalRemaining := by
      obtain ⟨_, _, _, _, _, rfl, -⟩ := ahead
      rfl
    refine IsTrans.trans _ _ _ (IsTrans.trans _ _ _ requested ahead.writes)
      fun window => ⟨window, [.program u.flash.offset data u.flash.encrypt true], ?_⟩
    have bytes :
        FlasherStub.written [.program u.flash.offset data u.flash.encrypt true] = data := by
      rw [written_program, if_pos rfl]
    refine ⟨rfl, fun none => absurd trivial none, ?_, ?_, ?_, fun _ => sub32_lt _ _, ?_, rfl, rfl,
      by simp, fun _ _ _ inv => inv.of_eq rfl rfl⟩
    · rw [bytes]
      simp [programmedBytes]
    · rw [bytes]
      exact Nat.mod_mod _ _
    · rw [bytes]
      change (sub32 u.flash.totalRemaining data.length + data.length) % 2 ^ 32 = _
      unfold sub32
      omega
    · intro only bound
      have room := fits only
      rw [bytes]
      change sub32 u.flash.totalRemaining data.length + data.length = _
      rw [sub32_of_le (by omega) bound]
      omega

section Pieces

variable {α : Type}

theorem keeps_beside {f : StubState W D S C → α × StubState W D S C}
    (flash : ∀ s, (f s).2.flash = s.flash) (trace : ∀ s, (f s).2.trace = s.trace)
    (window : ∀ s, (f s).2.decompressedDataPtr = s.decompressedDataPtr) :
    (Prog.act f).Keeps Beside :=
  Prog.keeps_act fun s => .of_eq (flash s) (trace s) (window s)

theorem keepsBeside_device (f : W → W) :
    (Stub.device f : Stub W D S C Unit).Keeps Beside :=
  keeps_beside (fun _ => rfl) (fun _ => rfl) fun _ => rfl

theorem keepsBeside_sendFrame (frame : List UInt8) :
    (Stub.sendFrame env frame : Stub W D S C Unit).Keeps Beside :=
  keeps_beside (fun _ => rfl) (fun _ => rfl) fun _ => rfl

theorem keepsBeside_registers (p : PostProcess C) : (do
    setPendingPostProcess p
    pure responseSuccess : Stub W D S C Int).Keeps Beside :=
  (keeps_beside (fun _ => rfl) (fun _ => rfl) fun _ => rfl).bind fun _ => Prog.keeps_pure _

theorem keepsBeside_flashReadBuff (addr size : Nat) :
    (Stub.flashReadBuff env addr size : Stub W D S C _).Keeps Beside :=
  Prog.keeps_act fun _ => .event rfl rfl id rfl

theorem keepsBeside_focus {τ : Type} {view : StubState W D S C → τ}
    {put : StubState W D S C → τ → StubState W D S C} (flash : ∀ s u, (put s u).flash = s.flash)
    (trace : ∀ s u, (put s u).trace = s.trace)
    (window : ∀ s u, (put s u).decompressedDataPtr = s.decompressedDataPtr) (p : Prog τ α) :
    (Prog.focus view put p).Keeps Beside := fun s => Prog.Ensures.focus
  ⟨fun u _ => .of_eq (flash s u) (trace s u) (window s u),
    fun _ u _ => .of_eq (flash s u) (trace s u) (window s u)⟩

end Pieces

def Opcode.IsSession : Opcode → Prop
  | .flashBegin | .flashDeflBegin | .flashEnd | .flashDeflEnd => True
  | _ => False

section Handlers

variable (ctx : CmdCtx)

theorem keepsBeside_sendSyncs (n : Nat) :
    (sendSyncs env n : Stub W D S C Unit).Keeps Beside := by
  induction n with
  | zero => exact Prog.keeps_pure _
  | succ n ih => exact (keepsBeside_sendFrame env _).bind fun _ => ih

theorem keepsBeside_writeRegEntries (i count : Nat) :
    (writeRegEntries env ctx i count : Stub W D S C Unit).Keeps Beside := by
  induction count generalizing i with
  | zero => exact Prog.keeps_pure _
  | succ count ih =>
    refine Prog.Keeps.bind (Prog.keeps_modify fun s => ?_) fun _ => ih (i + 1)
    split_ifs
    · exact .of_eq rfl rfl rfl
    · exact .of_eq rfl rfl rfl

theorem keepsBeside_memData : (memData env ctx : Stub W D S C Int).Keeps Beside :=
  Prog.keeps_get.bind fun _ => Prog.keeps_ite (Prog.keeps_pure _) <|
    Prog.keeps_ite (Prog.keeps_pure _) <| Prog.keeps_ite (Prog.keeps_pure _) <|
    Prog.keeps_ite (Prog.keeps_pure _) <|
    (Prog.keeps_modify fun _ => .event rfl rfl id rfl).bind fun _ => Prog.keeps_pure _

theorem keepsBeside_memEnd : (memEnd ctx : Stub W D S C Int).Keeps Beside :=
  Prog.keeps_get.bind fun _ => Prog.keeps_ite (Prog.keeps_pure _) <|
    Prog.keeps_ite (Prog.keeps_pure _) <|
    (keeps_beside (fun _ => rfl) (fun _ => rfl) fun _ => rfl).bind fun _ =>
    (keeps_beside (fun _ => rfl) (fun _ => rfl) fun _ => rfl).bind fun _ => Prog.keeps_pure _

theorem keepsBeside_md5Step (l : Md5Locals H) :
    (md5Step env l : Stub W D S C _).Keeps Beside := by
  refine Prog.keeps_ite ((keepsBeside_flashReadBuff env _ _).bind fun read => ?_)
    (Prog.keeps_pure _)
  cases read with
  | none => exact Prog.keeps_pure _
  | some data =>
    exact (Prog.keeps_modify fun _ => .event rfl rfl id rfl).bind fun _ => Prog.keeps_pure _

theorem keepsBeside_getSecurityInfo :
    (getSecurityInfo env ctx : Stub W D S C _).Keeps Beside := by
  refine Prog.keeps_ite (Prog.keeps_pure _) ?_
  refine (keeps_beside (fun _ => rfl) (fun _ => rfl) fun _ => rfl).bind fun info => ?_
  obtain ⟨ret, bytes⟩ := info
  cases ret <;> exact Prog.keeps_pure _

theorem keepsBeside_eraseRegion :
    (eraseRegion env ctx : Stub W D S C Int).Keeps Beside := by
  have step (l : EraseLocals) : (eraseRegionStep env l : Stub W D S C _).Keeps Beside :=
    Prog.keeps_ite ((Prog.keeps_act fun _ => .event rfl rfl id rfl).bind fun _ =>
      (keepsBeside_device _).bind fun _ => Prog.keeps_pure _) (Prog.keeps_pure _)
  refine Prog.keeps_ite (Prog.keeps_pure _) (Prog.keeps_get.bind fun _ => ?_)
  refine Prog.keeps_ite (Prog.keeps_pure _) ((Prog.keeps_loop step _).bind fun left => ?_)
  exact (keeps_beside (fun _ => rfl) (fun _ => rfl) fun _ => rfl).bind fun _ =>
    Prog.keeps_ite (Prog.keeps_pure _) (Prog.keeps_pure _)

theorem keepsBeside_callPlugin (idx : Nat) :
    (callPlugin env idx ctx).Keeps Beside := by
  refine Prog.Keeps.bind (keepsBeside_focus (fun s t => ?_) (fun s t => ?_) (fun s t => ?_) _)
    fun r => ?_
  · rfl
  · rfl
  · rfl
  obtain ⟨code, response⟩ := r
  dsimp only
  cases response.postProcess with
  | none => exact (Prog.keeps_pure _).bind fun _ => Prog.keeps_pure _
  | some callback =>
    exact (keeps_beside (fun _ => rfl) (fun _ => rfl) fun _ => rfl).bind fun _ => Prog.keeps_pure _

theorem keepsBeside_dispatch {o : Opcode} (other : ¬ o.IsSession) :
    (dispatch env ctx o).Keeps Beside := by
  have empty {handler : Stub W D S C Int} (h : handler.Keeps Beside) :
      (withEmptyResponse handler).Keeps Beside := h.bind fun _ => Prog.keeps_pure _
  have device {α β : Type} {g : StubState W D S C → β × StubState W D S C} {k : β → Stub W D S C α}
      {p : Prop} [Decidable p] {a : α} (flash : ∀ s, (g s).2.flash = s.flash)
      (trace : ∀ s, (g s).2.trace = s.trace)
      (window : ∀ s, (g s).2.decompressedDataPtr = s.decompressedDataPtr)
      (hk : ∀ b, (k b).Keeps Beside) :
      (if p then pure a else Prog.act g >>= k).Keeps Beside :=
    Prog.keeps_ite (Prog.keeps_pure a) ((keeps_beside flash trace window).bind hk)
  have checked {c : Prop} [Decidable c] {code : Int} (p : PostProcess C) :
      (withEmptyResponse (if c then pure code else do
        setPendingPostProcess p
        pure responseSuccess : Stub W D S C Int)).Keeps Beside :=
    empty (Prog.keeps_ite (Prog.keeps_pure _) (keepsBeside_registers p))
  cases o with
  | sync =>
    exact empty (Prog.keeps_ite (Prog.keeps_pure _)
      ((keepsBeside_sendSyncs env 7).bind fun _ => Prog.keeps_pure _))
  | flashBegin | flashDeflBegin | flashEnd | flashDeflEnd => exact absurd trivial other
  | flashData =>
    exact empty (Prog.keeps_get.bind fun _ => Prog.keeps_ite (Prog.keeps_pure _) <|
      Prog.keeps_ite (Prog.keeps_pure _) <| Prog.keeps_ite (Prog.keeps_pure _) <|
      Prog.keeps_ite (Prog.keeps_pure _) (keepsBeside_registers _))
  | flashDeflData =>
    exact empty (Prog.keeps_get.bind fun _ => Prog.keeps_ite (Prog.keeps_pure _) <|
      Prog.keeps_ite (Prog.keeps_pure _) <| Prog.keeps_ite (Prog.keeps_pure _)
        (keepsBeside_registers _))
  | memBegin =>
    exact empty (device (fun _ => rfl) (fun _ => rfl) (fun _ => rfl) fun _ => Prog.keeps_pure _)
  | memData => exact empty (keepsBeside_memData env ctx)
  | memEnd => exact empty (keepsBeside_memEnd ctx)
  | writeReg =>
    exact empty (Prog.keeps_ite (Prog.keeps_pure _)
      ((keepsBeside_writeRegEntries env ctx _ _).bind fun _ => Prog.keeps_pure _))
  | readReg =>
    exact device (fun _ => rfl) (fun _ => rfl) (fun _ => rfl) fun _ => Prog.keeps_pure _
  | spiAttach =>
    exact empty (device (fun _ => rfl) (fun _ => rfl) (fun _ => rfl) fun _ => Prog.keeps_pure _)
  | spiSetParams =>
    exact empty (device (fun _ => rfl) (fun _ => rfl) (fun _ => rfl) fun _ =>
      Prog.keeps_ite (Prog.keeps_pure _) (Prog.keeps_pure _))
  | changeBaudrate => exact checked .changeBaudrate
  | readFlash => exact checked .readFlash
  | spiFlashMd5 =>
    exact Prog.keeps_ite (Prog.keeps_pure _)
      ((Prog.keeps_loop (keepsBeside_md5Step env) _).bind fun _ => Prog.keeps_pure _)
  | getSecurityInfo => exact keepsBeside_getSecurityInfo env ctx
  | eraseFlash =>
    exact empty ((keeps_beside (fun _ => rfl) (fun _ => rfl) fun _ => rfl).bind fun _ =>
      Prog.keeps_ite (Prog.keeps_pure _) (Prog.keeps_pure _))
  | eraseRegion => exact empty (keepsBeside_eraseRegion env ctx)
  | plugin idx => exact keepsBeside_callPlugin env ctx idx
  | runUserCode | unknown => exact Prog.keeps_pure _

theorem keepsBeside_readFlashPostProcess :
    (readFlashPostProcess env ctx : Stub W D S C Int).Keeps Beside := by
  have poll (l : ReadLocals H) : (pollAck env l : Stub W D S C _).Keeps Beside := by
    refine (keeps_beside (fun _ => rfl) (fun _ => rfl) fun _ => rfl).bind fun polled => ?_
    cases polled with
    | none => exact Prog.keeps_pure _
    | error => exact (keepsBeside_device _).bind fun _ => Prog.keeps_pure _
    | frame ack =>
      exact Prog.keeps_ite (Prog.keeps_pure _)
        ((keepsBeside_device _).bind fun _ => Prog.keeps_pure _)
  have send (n : Nat) (l : ReadLocals H) :
      (sendReadPacket env n l : Stub W D S C _).Keeps Beside := by
    refine Prog.Keeps.bind (keepsBeside_flashReadBuff env _ _) fun read => ?_
    cases read with
    | none => exact Prog.keeps_pure _
    | some data => exact (keepsBeside_sendFrame env _).bind fun _ => Prog.keeps_pure _
  have step (n m : Nat) (l : ReadLocals H) :
      (readFlashStep env n m l : Stub W D S C _).Keeps Beside := by
    refine Prog.keeps_ite ((poll l).bind fun acked => ?_) (Prog.keeps_pure _)
    cases acked with
    | none => exact Prog.keeps_pure _
    | some l =>
      refine Prog.keeps_ite ((send m l).bind fun sent => ?_) (Prog.keeps_pure _)
      cases sent <;> exact Prog.keeps_pure _
  refine Prog.keeps_ite (Prog.keeps_pure _) ((keepsBeside_device _).bind fun _ => ?_)
  refine (Prog.keeps_loop (step _ _) _).bind fun exit => ?_
  cases exit with
  | error code => exact Prog.keeps_pure _
  | ok md5Ctx => exact (keepsBeside_sendFrame env _).bind fun _ => Prog.keeps_pure _

theorem keepsBeside_runPostProcess {p : PostProcess C} (other : ¬ p.IsData) :
    (runPostProcess env ctx p).Keeps Beside := by
  cases p with
  | flashData | flashDeflData => exact absurd trivial other
  | memEnd =>
    exact Prog.keeps_ite ((keepsBeside_device _).bind fun _ => (keepsBeside_device _).bind fun _ =>
      Prog.keeps_pure _) (Prog.keeps_pure _)
  | changeBaudrate => exact (keepsBeside_device _).bind fun _ => Prog.keeps_pure _
  | readFlash => exact keepsBeside_readFlashPostProcess env ctx
  | plugin callback =>
    refine keepsBeside_focus (fun s t => ?_) (fun s t => ?_) (fun s t => ?_) _
    · rfl
    · rfl
    · rfl

theorem beside_answered (s : StubState W D S C) (r : Int × CommandResponseData C) :
    Beside s (s.answered env ctx r) := by
  unfold StubState.answered
  split_ifs <;> exact .of_eq rfl rfl rfl

end Handlers

section Session

variable {plain : Prop}

theorem ensures_writes {data : List UInt8} {s : StubState W D S C} (size : data.length < 2 ^ 32)
    (fits : plain → data.length ≤ s.flash.totalRemaining) :
    (writeFlashData env data).Ensures s (Writes env.lib True plain s)
      fun _ => Writes env.lib True plain s := by
  have requested : Writes env.lib True plain s (s.requested data) := writes_requested s data
  exact (ensures_writeFlashData env data s).mono
    (fun _ h => IsTrans.trans _ _ _ requested h.writes) fun _ _ h => h.writes size fits

end Session

section Callbacks

variable {may plain : Prop} (ctx : CmdCtx)

theorem keeps_writes_of_fits {lib : StubLib W} {α : Type} {p : Stub W D S C α}
    (h : ∀ s : StubState W D S C, s.decompressedDataPtr ≤ tinflLzDictSize →
      p.Ensures s (Writes lib may plain s) fun _ => Writes lib may plain s) :
    p.Keeps (Writes lib may plain) := by
  intro s
  by_cases fits : s.decompressedDataPtr ≤ tinflLzDictSize
  · exact h s fits
  · exact ⟨fun _ _ h => absurd h fits, fun _ _ _ h => absurd h fits⟩

theorem keepsWrites_flushWindow :
    (flushWindow env : Stub W D S C Int).Keeps (Writes env.lib True False) := by
  refine keeps_writes_of_fits fun s fits => ?_
  have size : (s.decompressedData.read 0 s.decompressedDataPtr).length < 2 ^ 32 := by
    rw [Memory.length_read]
    exact fits.trans_lt (by decide)
  refine Prog.Ensures.bind (Prog.Ensures.get (Prog.Ensures.bind
    ((ensures_writes env size False.elim).post fun r t h => ?_)))
  split_ifs
  · exact Prog.Ensures.pure h
  · refine Prog.Ensures.bind (Prog.Ensures.modify (Prog.Ensures.pure fun window => ?_))
    obtain ⟨-, new, writes⟩ := h window
    refine ⟨Nat.zero_le _, new, ⟨writes.trace, writes.quiet, writes.laid, writes.offset,
      writes.remaining, writes.small, writes.exact, writes.inProgress, writes.encrypt, writes.mode,
      fun sector regionEnd contract inv => ?_⟩⟩
    exact (writes.region sector regionEnd contract inv).of_eq rfl rfl

theorem ensures_inflate_writes (honest : InflaterContract env.tinfl) {s : StubState W D S C}
    (fits : s.decompressedDataPtr ≤ tinflLzDictSize) (input : List UInt8) (flags : TinflFlags) :
    (inflate env input (sub32 tinflLzDictSize s.decompressedDataPtr) flags).Ensures s
      (Writes env.lib may plain s) fun _ => Writes env.lib may plain s := by
  have small := honest.emits s.flash.decompressor input s.decompressedData s.decompressedDataPtr
    (sub32 tinflLzDictSize s.decompressedDataPtr) flags
  rw [sub32_of_le fits (by decide)] at small ⊢
  refine Prog.Ensures.act fun _ =>
    ⟨?_, _, .of_quiet rfl (by simp [Event.IsProgram]) rfl rfl rfl rfl
      fun _ _ _ inv => inv.of_eq rfl rfl⟩
  dsimp only
  omega

theorem keepsWrites_deflDataStep (honest : InflaterContract env.tinfl) (dataSize : Nat)
    (l : DeflLocals) :
    (deflDataStep env ctx dataSize l : Stub W D S C _).Keeps (Writes env.lib True False) := by
  refine keeps_writes_of_fits fun s fits => ?_
  rw [deflDataStep]
  split_ifs
  · refine Prog.Ensures.bind (Prog.Ensures.get (Prog.Ensures.bind
      ((ensures_conditionalEraseNext env s).mono (fun _ h => h.writes) fun r t ahead => ?_)))
    have erased : Writes env.lib True False s t := ahead.writes
    have here : t.decompressedDataPtr = s.decompressedDataPtr := by
      obtain ⟨_, _, _, _, _, rfl, -⟩ := ahead
      rfl
    have onward {α : Type} {p : Stub W D S C α} {u : StubState W D S C}
        (before : Writes env.lib True False s u) (kept : p.Keeps (Writes env.lib True False)) :
        p.Ensures u (Writes env.lib True False s) fun _ => Writes env.lib True False s :=
      kept.ensures before
    by_cases error : r ≠ responseSuccess
    · rw [if_pos error]
      exact Prog.Ensures.pure erased
    · rw [if_neg error, ← here]
      refine Prog.Ensures.bind ((ensures_inflate_writes env honest (here ▸ fits) _ _).mono
        (fun u h => IsTrans.trans _ _ _ erased h) fun r u inflated => ?_)
      refine onward (IsTrans.trans _ _ _ erased inflated) (Prog.keeps_get.bind fun v => ?_)
      refine Prog.keeps_ite ?_ (Prog.keeps_pure _)
      exact (keepsWrites_flushWindow env).bind fun _ =>
        Prog.keeps_ite (Prog.keeps_pure _) (Prog.keeps_pure _)
  · exact Prog.Ensures.pure (Std.Refl.refl s)
  · exact Prog.Ensures.pure (Std.Refl.refl s)

theorem keepsWrites_flashDeflDataPostProcess (honest : InflaterContract env.tinfl) :
    (flashDeflDataPostProcess env ctx : Stub W D S C Int).Keeps (Writes env.lib True False) := by
  unfold flashDeflDataPostProcess
  dsimp only
  split_ifs
  · refine Prog.Keeps.bind (Prog.keeps_modify fun s _ => ⟨Nat.zero_le _, [], ?_⟩) fun _ =>
      Prog.keeps_loop (keepsWrites_deflDataStep env ctx honest _) _
    exact .of_quiet (List.append_nil _).symm (by simp) rfl rfl rfl rfl fun _ _ _ inv =>
      inv.of_eq rfl rfl
  · exact Prog.keeps_loop (keepsWrites_deflDataStep env ctx honest _) _

theorem keepsWrites_flashDataPostProcess :
    (flashDataPostProcess env ctx : Stub W D S C Int).Keeps (Writes env.lib True plain) := by
  intro s
  have short : actualDataSize ctx < 2 ^ 16 := Nat.mod_lt _ (by decide)
  refine Prog.Ensures.bind (Prog.Ensures.get (ensures_writes env ?_ fun _ => ?_))
  · rw [Memory.length_read]
    omega
  · rw [Memory.length_read]
    exact min_le_right _ _

theorem keepsWrites_runPostProcess (honest : InflaterContract env.tinfl) {p : PostProcess C}
    (data : p.IsData → may) (plainly : plain → p ≠ .flashDeflData) :
    (runPostProcess env ctx p).Keeps (Writes env.lib may plain) := by
  cases p with
  | flashData =>
    have allowed : may := data trivial
    rw [show may = True from eq_true allowed]
    exact keepsWrites_flashDataPostProcess env ctx
  | flashDeflData =>
    have allowed : may := data trivial
    have compressed : ¬ plain := fun h => plainly h rfl
    rw [show may = True from eq_true allowed, show plain = False from eq_false compressed]
    exact keepsWrites_flashDeflDataPostProcess env ctx honest
  | memEnd | changeBaudrate | readFlash | plugin =>
    exact (keepsBeside_runPostProcess env ctx id).mono fun _ _ h => h.writes

end Callbacks

end FlasherStub
