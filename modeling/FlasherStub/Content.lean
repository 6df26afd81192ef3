import FlasherStub.Discipline

/-! The content of the chip during a session. Under a contract that makes the
device a NOR flash, the events of a run are NOR operations on its content. -/

namespace FlasherStub

open ByteMemory Budget

variable {W D H S C : Type} (env : Platform W D H S C)

/-- What a flash event does to the content, if the operation succeeded. -/
def Event.op : Event → Option Nor.Op
  | .read addr _ (some bytes) => some (.read addr bytes)
  | .erase first next _ => some (.erase first next)
  | .program addr data _ _ => some (.program addr data)
  | _ => none

/-- A flash operation that succeeded and did not encrypt. -/
def Event.Sound (e : Event) : Prop :=
  ¬ e.Failed ∧ ∀ addr data ok, e ≠ .program addr data true ok

/-- The device as a NOR flash with the given content. An erase may time out; the
bytes that it advanced over are erased all the same. -/
structure NorContract (content : W → Memory) (sector : Nat) : Prop where
  read : ∀ addr size w bytes, (env.lib.flashReadBuff addr size w).1 = some bytes →
    bytes = (content w).read addr size ∧
      content (env.lib.flashReadBuff addr size w).2 = content w
  erase : ∀ addr remaining w, addr % sector = 0 → remaining % sector = 0 →
    addr + remaining < 2 ^ 32 →
    (env.lib.flashStartNextErase addr remaining w).1.result = .ok ∨
      (env.lib.flashStartNextErase addr remaining w).1.result = .errTimeout →
    content (env.lib.flashStartNextErase addr remaining w).2 =
      (Nor.Op.erase addr (env.lib.flashStartNextErase addr remaining w).1.addr).apply (content w)
  program : ∀ addr data w, (env.lib.flashWriteBuff addr data false w).1 = .ok →
    content (env.lib.flashWriteBuff addr data false w).2 =
      (Nor.Op.program addr data).apply (content w)
  sendFrame : ∀ frame w, content (env.transport.sendFrame frame w) = content w

/-- The events between `s` and `t` are a run of the chip, if all of them are sound. -/
def Follows (content : W → Memory) (s t : StubState W D S C) : Prop :=
  ∃ tr, t.trace = s.trace ++ tr ∧
    ((∀ e ∈ tr, e.Sound) → Nor.Run (content s.world) (tr.filterMap Event.op) (content t.world))

namespace Follows

variable {content : W → Memory} {s t u : StubState W D S C}

theorem of_eq (trace : t.trace = s.trace) (same : content t.world = content s.world) :
    Follows content s t :=
  ⟨[], by rw [trace, List.append_nil], fun _ => same⟩

theorem refl (s : StubState W D S C) : Follows content s s := of_eq rfl rfl

theorem trans (h : Follows content s t) (h' : Follows content t u) : Follows content s u := by
  obtain ⟨tr, trace, run⟩ := h
  obtain ⟨tr', trace', run'⟩ := h'
  refine ⟨tr ++ tr', by rw [trace', trace, List.append_assoc], fun sound => ?_⟩
  obtain ⟨before, after⟩ := List.forall_mem_append.mp sound
  rw [List.filterMap_append]
  exact Nor.run_append.mpr ⟨_, run before, run' after⟩

theorem event {e : Event} (op : Nor.Op) (trace : t.trace = s.trace ++ [e])
    (step : e.Sound → e.op = some op ∧ op.Valid (content s.world) ∧
      content t.world = op.apply (content s.world)) : Follows content s t := by
  refine ⟨[e], trace, fun sound => ?_⟩
  obtain ⟨opEq, valid, next⟩ := step (sound e (List.mem_singleton.mpr rfl))
  rw [List.filterMap_cons_some opEq]
  exact ⟨valid, next⟩

theorem silent {e : Event} (trace : t.trace = s.trace ++ [e]) (none : e.op = none)
    (same : content t.world = content s.world) : Follows content s t :=
  ⟨[e], trace, fun _ => by rwa [List.filterMap_cons_none none]⟩

end Follows

instance (content : W → Memory) :
    Std.Refl (Follows content : StubState W D S C → StubState W D S C → Prop) :=
  ⟨Follows.refl⟩

instance (content : W → Memory) :
    IsTrans (StubState W D S C) (Follows content) := ⟨fun _ _ _ => Follows.trans⟩

theorem Event.ProgramsAt.of_op {e : Event} {op : Nor.Op} {a : Nat} (he : e.op = some op)
    (programs : op.Programs a) : e.ProgramsAt a := by
  cases e with
  | program =>
    obtain rfl := Option.some.inj he
    exact programs
  | erase =>
    obtain rfl := Option.some.inj he
    exact programs.elim
  | read addr size result =>
    cases result with
    | none => cases he
    | some =>
      obtain rfl := Option.some.inj he
      exact programs.elim
  | request | store | md5Update | inflate | postProcess => cases he

theorem erase_of_op {e : Event} {op : Nor.Op} {a : Nat} (he : e.op = some op)
    (erases : op.Erases a) : ∃ first next result, e = .erase first next result ∧
      first ≤ a ∧ a < next := by
  cases e with
  | erase first next result =>
    obtain rfl := Option.some.inj he
    exact ⟨first, next, result, rfl, erases⟩
  | program =>
    obtain rfl := Option.some.inj he
    exact erases.elim
  | read addr size result =>
    cases result with
    | none => cases he
    | some =>
      obtain rfl := Option.some.inj he
      exact erases.elim
  | request | store | md5Update | inflate | postProcess => cases he

theorem SectorCleared.op {sector b a : Nat} {tr : List Event} (cleared : SectorCleared sector tr b)
    (le : b ≤ a) (lt : a < b + sector) :
    ∃ op ∈ tr.filterMap Event.op, op.Erases a ∨ op.FindsBlank a := by
  obtain ⟨e, he, covers⟩ | blank := cleared
  · cases e with
    | erase first next result =>
      refine ⟨.erase first next, List.mem_filterMap.mpr ⟨_, he, rfl⟩, .inl ⟨?_, ?_⟩⟩
      · exact covers.1.trans le
      · exact lt_of_lt_of_le lt covers.2
    | read | request | program | store | md5Update | inflate | postProcess => exact covers.elim
  · obtain ⟨e, he, reads⟩ := blank a le lt
    cases e with
    | read addr size result =>
      cases result with
      | none => exact reads.elim
      | some bytes => exact ⟨.read addr bytes, List.mem_filterMap.mpr ⟨_, he, rfl⟩, .inr reads⟩
    | erase | request | program | store | md5Update | inflate | postProcess => exact reads.elim

def Laid (start : Nat) (tr : List Event) : Prop :=
  ∀ i b, (written tr)[i]? = some b → ∃ pre addr data enc post j,
    tr = pre ++ Event.program addr data enc true :: post ∧ addr + j = start + i ∧
      data[j]? = some b

theorem Laid.extend {start : Nat} {tr ext : List Event} (h : Laid start tr)
    (none : ∀ e ∈ ext, ¬ e.IsProgram) : Laid start (tr ++ ext) := by
  intro i b hb
  rw [written_append, written_eq_nil none, List.append_nil] at hb
  obtain ⟨pre, addr, data, enc, post, j, rfl, at_, value⟩ := h i b hb
  exact ⟨pre, addr, data, enc, post ++ ext, j, by simp, at_, value⟩

theorem Laid.program {start : Nat} {tr : List Event} (h : Laid start tr) {addr : Nat}
    (next : addr = start + (written tr).length) (data : List UInt8) (enc : Bool) :
    Laid start (tr ++ [.program addr data enc true]) := by
  intro i b hb
  rw [written_append, written_program, if_pos rfl] at hb
  by_cases old : i < (written tr).length
  · rw [List.getElem?_append_left old] at hb
    obtain ⟨pre, addr', data', enc', post, j, split, at_, value⟩ := h i b hb
    refine ⟨pre, addr', data', enc', post ++ [.program addr data enc true], j, ?_, at_, value⟩
    rw [← List.cons_append, ← List.append_assoc, ← split]
  · rw [List.getElem?_append_right (not_lt.mp old)] at hb
    exact ⟨tr, addr, data, enc, [], _, rfl, by omega, hb⟩

/-- A disciplined run without a failed program call leaves in the chip what was
written. -/
theorem Disciplined.content {sector start : Nat} {tr : List Event} (h : Disciplined sector tr)
    (fine : NoProgramFailed tr) (pos : 0 < sector) (laid : Laid start tr) {m n : Memory}
    (run : Nor.Run m (tr.filterMap Event.op) n) :
    n.read start (written tr).length = written tr := by
  refine List.ext_getElem (by simp) fun i _ hi => ?_
  obtain ⟨pre, addr, data, enc, post, j, rfl, at_, value⟩ :=
    laid i _ (List.getElem?_eq_getElem hi)
  obtain ⟨hj, value⟩ := List.getElem?_eq_some_iff.mp value
  rw [Memory.getElem_read, ← at_, ← value]
  rw [List.filterMap_append, List.filterMap_cons_some (by rfl)] at run
  have inside : addr ≤ addr + j ∧ addr + j < addr + data.length := by omega
  obtain ⟨cleared, fresh⟩ := h pre _ post rfl (noProgramFailed_append.mp fine).1 _ inside.1 inside.2
  obtain ⟨early, late, rfl, sector_, -⟩ := cleared
  -- every event after the program call, with all that came before it
  have later : ∀ e ∈ post, ∃ pre' post', post = pre' ++ e :: post' ∧
      Allowed sector (early ++ late ++ .program addr data enc true :: pre') e := by
    intro e he
    obtain ⟨pre', post', rfl⟩ := List.append_of_mem he
    have split : early ++ late ++ Event.program addr data enc true :: (pre' ++ e :: post') =
      (early ++ late ++ .program addr data enc true :: pre') ++ e :: post' := by simp
    rw [split] at fine
    exact ⟨pre', post', rfl, h _ e post' split (noProgramFailed_append.mp fine).1⟩
  refine run.programmed hj ?_ ?_ ?_
  · obtain ⟨op, mem, clear⟩ := sector_.op (Nat.div_mul_le_self (addr + j) sector)
      (Nat.lt_div_mul_add pos)
    exact ⟨op, by simp [mem], clear⟩
  · intro op hop programs
    obtain hop | hop := List.mem_append.mp hop
    · obtain ⟨e, he, heop⟩ := List.mem_filterMap.mp hop
      exact fresh e he (Event.ProgramsAt.of_op heop programs)
    · obtain ⟨e, he, heop⟩ := List.mem_filterMap.mp hop
      have again := Event.ProgramsAt.of_op heop programs
      obtain ⟨pre', post', -, allowed⟩ := later e he
      cases e with
      | program addr' data' enc' ok' =>
        exact (allowed _ again.1 again.2).2 (.program addr data enc true) (by simp) inside
      | read | erase | request | store | md5Update | inflate | postProcess => exact again.elim
  · intro op hop erases
    obtain ⟨e, he, heop⟩ := List.mem_filterMap.mp hop
    obtain ⟨first, next, result, rfl, le, lt⟩ := erase_of_op heop erases
    obtain ⟨pre', post', -, allowed⟩ := later _ he
    exact allowed _ le lt (.program addr data enc true) (by simp) inside

def Within (lo hi : Nat) (tr : List Event) : Prop :=
  (∀ first next r, .erase first next r ∈ tr → lo ≤ first ∧ next ≤ hi) ∧
    ∀ addr data enc ok, .program addr data enc ok ∈ tr → lo ≤ addr ∧ addr + data.length ≤ hi

theorem Within.content {lo hi : Nat} {tr : List Event} (h : Within lo hi tr) {m n : Memory}
    (run : Nor.Run m (tr.filterMap Event.op) n) {a : Nat} (outside : a < lo ∨ hi ≤ a) :
    n a = m a := by
  refine run.untouched (fun op hop erases => ?_) fun op hop programs => ?_
  · obtain ⟨e, he, heop⟩ := List.mem_filterMap.mp hop
    obtain ⟨first, next, result, rfl, le, lt⟩ := erase_of_op heop erases
    have := h.1 first next result he
    omega
  · obtain ⟨e, he, heop⟩ := List.mem_filterMap.mp hop
    have at_ := Event.ProgramsAt.of_op heop programs
    cases e with
    | program addr data enc ok =>
      have := h.2 addr data enc ok he
      obtain ⟨le, lt⟩ := at_
      omega
    | read | erase | request | store | md5Update | inflate | postProcess => exact at_.elim

variable {env} {content : W → Memory} {sector : Nat}

theorem follows_flashReadBuff (nor : NorContract env content sector) (addr size : Nat) :
    (Stub.flashReadBuff env addr size : Stub W D S C _).Keeps (Follows content) := by
  refine Prog.keeps_act fun s => ?_
  cases result : (env.lib.flashReadBuff addr size s.world).1 with
  | none =>
    refine Follows.event (.read addr []) rfl fun sound => ?_
    exact absurd result sound.1
  | some bytes =>
    obtain ⟨stored, same⟩ := nor.read addr size s.world bytes result
    refine Follows.event (.read addr bytes) rfl fun _ => ⟨?_, ?_, same⟩
    · change Event.op (.read addr size (env.lib.flashReadBuff addr size s.world).1) = _
      rw [result]
      rfl
    · rw [Nor.Op.Valid, stored, Memory.length_read]

theorem follows_sectorIsBlank (nor : NorContract env content sector) (addr size : Nat) :
    (sectorIsBlank env addr size : Stub W D S C _).Keeps (Follows content) := by
  refine Prog.keeps_loop (fun off => Prog.keeps_ite ?_ (Prog.keeps_pure _)) _
  refine (follows_flashReadBuff nor _ _).bind fun result => ?_
  cases result with
  | none => exact Prog.keeps_pure _
  | some bytes => exact Prog.keeps_ite (Prog.keeps_pure _) (Prog.keeps_pure _)

theorem follows_startErase (nor : NorContract env content sector) {s : StubState W D S C}
    (aligned : s.Aligned sector) :
    (startErase env).Ensures s (fun _ => True) fun _ => Follows content s := by
  refine Prog.Ensures.bind (Prog.Ensures.get (Prog.Ensures.bind (Prog.Ensures.act
    (Prog.Ensures.bind (Prog.Ensures.modify ?_)))))
  have law := nor.erase _ _ s.world aligned.next aligned.remaining aligned.bound
  generalize env.lib.flashStartNextErase s.flash.nextEraseAddr s.flash.eraseRemaining
    s.world = started at law ⊢
  obtain ⟨next, w⟩ := started
  have follows : Follows content s
      { s with
        flash := { s.flash with nextEraseAddr := next.addr, eraseRemaining := next.remaining }
        world := w
        trace := s.trace ++ [.erase s.flash.nextEraseAddr next.addr next.result] } := by
    refine Follows.event (.erase s.flash.nextEraseAddr next.addr) rfl fun sound => ?_
    refine ⟨rfl, trivial, law ?_⟩
    exact or_iff_not_and_not.mpr sound.1
  dsimp only
  split_ifs
  · exact Prog.Ensures.pure follows
  · exact Prog.Ensures.pure follows

theorem follows_conditionalEraseNext (nor : NorContract env content sector)
    {s : StubState W D S C} (aligned : s.Aligned sector) :
    (conditionalEraseNext env).Ensures s (fun _ => True) fun _ => Follows content s := by
  refine Prog.Ensures.bind (Prog.Ensures.get ?_)
  dsimp only
  split_ifs
  · exact Prog.Ensures.pure (Follows.refl s)
  · exact follows_startErase nor aligned
  · have checked := ((follows_sectorIsBlank nor s.flash.nextEraseAddr
      (env.lib.flashGetConfig s.world).sectorSize) s).and (ensures_sectorIsBlank env _ _ s)
    refine Prog.Ensures.bind (checked.mono (fun _ _ => trivial) fun r t h => ?_)
    obtain ⟨follows, w, tr, ht, -⟩ := h
    split_ifs
    · exact Prog.Ensures.pure follows
    · exact Prog.Ensures.bind (Prog.Ensures.modify (Prog.Ensures.pure
        (follows.trans (Follows.of_eq rfl rfl))))
    · refine Prog.Ensures.bind (Prog.Ensures.modify ?_)
      have dirty : ({ t with dirtySeen := true } : StubState W D S C).Aligned sector := by
        rw [ht]
        exact aligned.of_eq rfl rfl
      refine (follows_startErase nor dirty).post fun _ u erased => ?_
      exact follows.trans ((Follows.of_eq rfl rfl).trans erased)

theorem follows_ensureFlashErasedTo (contract : FlashContract env.lib sector)
    (nor : NorContract env content sector) (target : Nat) {s : StubState W D S C}
    (aligned : s.Aligned sector) :
    (ensureFlashErasedTo env target).Ensures s (fun _ => True) fun _ => Follows content s := by
  refine Prog.Ensures.loop (fun _ t => Follows content s t ∧ t.Aligned sector)
    (fun _ _ _ => trivial) ?_ ⟨Follows.refl s, aligned⟩
  intro _ t ⟨follows, aligned⟩
  refine Prog.Ensures.bind (Prog.Ensures.get ?_)
  split_ifs
  · have erased := (follows_conditionalEraseNext nor aligned).and
      (ensures_conditionalEraseNext env t)
    refine Prog.Ensures.bind (erased.mono (fun _ _ => trivial) fun r u h => ?_)
    have next := follows.trans h.1
    split_ifs
    · exact Prog.Ensures.pure next
    · exact Prog.Ensures.pure ⟨next, h.2.aligned contract aligned⟩
  · exact Prog.Ensures.pure follows

theorem follows_flashWriteBuff (nor : NorContract env content sector) (addr : Nat)
    (data : List UInt8) (encrypt : Bool) :
    (Stub.flashWriteBuff env addr data encrypt : Stub W D S C _).Keeps (Follows content) := by
  refine Prog.keeps_act fun s => Follows.event (.program addr data) rfl fun sound => ?_
  obtain rfl : encrypt = false := by
    cases encrypt
    · rfl
    · exact absurd rfl (sound.2 addr data _)
  refine ⟨rfl, trivial, nor.program addr data s.world ?_⟩
  have written := sound.1
  simpa [Event.Failed] using written

theorem follows_writeFlashData (contract : FlashContract env.lib sector)
    (nor : NorContract env content sector) (data : List UInt8) {s : StubState W D S C}
    (aligned : s.Aligned sector) :
    (writeFlashData env data).Ensures s (fun _ => True) fun _ => Follows content s := by
  refine Prog.Ensures.bind (Prog.Ensures.get (Prog.Ensures.bind (Prog.Ensures.modify ?_)))
  have logged : Follows content s (s.requested data) := Follows.silent rfl rfl rfl
  have requested : (s.requested data).Aligned sector := aligned.of_eq rfl rfl
  refine Prog.Ensures.bind ((follows_ensureFlashErasedTo contract nor _ requested).post
    fun r t erased => ?_)
  have erased := logged.trans erased
  split_ifs
  · exact Prog.Ensures.pure erased
  · refine Prog.Ensures.bind (Prog.Ensures.get (Prog.Ensures.bind
      ((follows_flashWriteBuff nor _ _ _ t).mono (fun _ _ => trivial) fun result u written => ?_)))
    have written := erased.trans written
    split_ifs
    · exact Prog.Ensures.pure written
    · exact Prog.Ensures.bind (Prog.Ensures.modify (Prog.Ensures.pure
        (written.trans (Follows.of_eq rfl rfl))))

theorem simPlatform_nor (sector : Nat) (script : List SimInflate) :
    NorContract (simPlatform sector script) SimWorld.content sector where
  read addr size w bytes h := ⟨(Option.some.inj h).symm, rfl⟩
  erase addr remaining w _ _ _ _ := by
    simp only [simPlatform, simLib]
    split_ifs
    · funext a
      have empty : ¬ (Nor.Op.erase addr addr).Erases a := by
        rintro ⟨le, lt⟩
        exact absurd le (not_le.mpr lt)
      rw [Nor.Op.apply_of_not empty id]
    · rfl
  program _ _ _ _ := rfl
  sendFrame _ _ := rfl

end FlasherStub
