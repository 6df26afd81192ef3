import FlasherStub.Image

/-! The erase discipline of a session. The erase position runs ahead of the
write position: sectors are cleared before anything is programmed into them, and
no erase comes back to what was programmed. -/

namespace FlasherStub

open ByteMemory Budget

variable {W D H S C : Type} (env : Platform W D H S C)

/-- A program call, successful or not, that was given a byte for `a`. -/
def Event.ProgramsAt (a : Nat) : Event → Prop
  | .program addr data _ _ => addr ≤ a ∧ a < addr + data.length
  | _ => False

theorem Event.ProgramsAt.isProgram {a : Nat} {e : Event} (h : e.ProgramsAt a) : e.IsProgram := by
  cases e with
  | program => trivial
  | read | erase | request | store | md5Update | inflate | postProcess => exact h.elim

theorem Event.IsQuiet.not_eraseStep {e : Event} (h : e.IsQuiet) : ¬ e.IsEraseStep := by
  cases e with
  | inflate | postProcess => exact id
  | read | erase | request | program | store | md5Update => exact h.elim

/-- The sector at `b` was cleared before anything was programmed into it. -/
def ClearedFirst (sector : Nat) (tr : List Event) (b : Nat) : Prop :=
  ∃ pre post, tr = pre ++ post ∧ SectorCleared sector pre b ∧
    ∀ e ∈ pre, ∀ a, b ≤ a → a < b + sector → ¬ e.ProgramsAt a

theorem ClearedFirst.extend {sector b : Nat} {tr : List Event} (h : ClearedFirst sector tr b)
    (ext : List Event) : ClearedFirst sector (tr ++ ext) b := by
  obtain ⟨pre, post, rfl, cleared⟩ := h
  exact ⟨pre, post ++ ext, List.append_assoc _ _ _, cleared⟩

def NoProgramFailed (tr : List Event) : Prop :=
  ∀ addr data enc, .program addr data enc false ∉ tr

theorem noProgramFailed_append {tr tr' : List Event} :
    NoProgramFailed (tr ++ tr') ↔ NoProgramFailed tr ∧ NoProgramFailed tr' := by
  simp only [NoProgramFailed, List.mem_append, not_or, forall_and]

/-- What may come after the events `pre`: a byte is programmed once and into a
cleared sector, and an erase spares what was programmed. -/
def Allowed (sector : Nat) (pre : List Event) : Event → Prop
  | .program addr data _ _ => ∀ a, addr ≤ a → a < addr + data.length →
      ClearedFirst sector pre (a / sector * sector) ∧ ∀ e ∈ pre, ¬ e.ProgramsAt a
  | .erase first next _ => ∀ a, first ≤ a → a < next → ∀ e ∈ pre, ¬ e.ProgramsAt a
  | _ => True

/-- The discipline, up to the first program call that fails. -/
def Disciplined (sector : Nat) (tr : List Event) : Prop :=
  ∀ pre e post, tr = pre ++ e :: post → NoProgramFailed pre → Allowed sector pre e

theorem Disciplined.append {sector : Nat} {tr ext : List Event} (h : Disciplined sector tr)
    (next : ∀ pre e post, ext = pre ++ e :: post → NoProgramFailed (tr ++ pre) →
      Allowed sector (tr ++ pre) e) : Disciplined sector (tr ++ ext) := by
  intro pre e post split fine
  obtain ⟨mid, rfl, hext⟩ | ⟨mid, htr, hpost⟩ := List.append_eq_append_iff.mp split
  · exact next mid e post hext fine
  · cases mid with
    | nil =>
      obtain rfl : tr = pre := by simpa using htr
      simpa using next [] e post hpost.symm (by simpa using fine)
    | cons e' mid =>
      obtain ⟨rfl, -⟩ := List.cons.inj hpost
      exact h pre e mid htr fine

structure Frontiers (sector start : Nat) (tr : List Event) (s : StubState W D S C) : Prop where
  aligned : s.Aligned sector
  start_le : start ≤ s.flash.offset
  below : ∀ e ∈ tr, ∀ a, e.ProgramsAt a → a < s.flash.offset ∧ a < s.flash.nextEraseAddr
  cleared : ∀ b, b % sector = 0 → start ≤ b → b < s.flash.nextEraseAddr → ClearedFirst sector tr b

structure DisciplineInv (sector start : Nat) (tr : List Event) (s : StubState W D S C) : Prop where
  disciplined : Disciplined sector tr
  frontiers : NoProgramFailed tr → Frontiers sector start tr s

namespace DisciplineInv

variable {lib : StubLib W} {sector start : Nat} {tr ext : List Event} {s t : StubState W D S C}

theorem idle (h : DisciplineInv sector start tr s)
    (quiet : ∀ e ∈ ext, ¬ e.IsProgram ∧ ¬ e.IsEraseStep)
    (offset : t.flash.offset = s.flash.offset)
    (next : t.flash.nextEraseAddr = s.flash.nextEraseAddr)
    (remaining : t.flash.eraseRemaining = s.flash.eraseRemaining) :
    DisciplineInv sector start (tr ++ ext) t where
  disciplined := by
    refine h.disciplined.append fun pre e post split _ => ?_
    have none := quiet e (by simp [split])
    cases e with
    | program => exact absurd trivial none.1
    | erase => exact absurd trivial none.2
    | read | request | store | md5Update | inflate | postProcess => trivial
  frontiers fine := by
    have before := h.frontiers (noProgramFailed_append.mp fine).1
    refine ⟨before.aligned.of_eq next remaining, ?_, ?_, ?_⟩
    · rw [offset]
      exact before.start_le
    · intro e he a programs
      rw [offset, next]
      obtain he | he := List.mem_append.mp he
      · exact before.below e he a programs
      · exact absurd programs.isProgram (quiet e he).1
    · intro b hb le lt
      exact (before.cleared b hb le (next ▸ lt)).extend ext

/-- Erasing ahead clears new sectors, above everything programmed. -/
theorem ahead (h : DisciplineInv sector start tr s) (contract : FlashContract lib sector)
    (four : 4 ∣ sector) {ok : Prop} (ahead : EraseAhead lib ok s t)
    (trace : t.trace = s.trace ++ ext) : DisciplineInv sector start (tr ++ ext) t := by
  obtain ⟨n, r, d, w, ext', rfl, only, -, advance⟩ := id ahead
  obtain rfl : ext = ext' := (List.append_cancel_left trace).symm
  refine ⟨h.disciplined.append ?_, ?_⟩
  · intro pre e post split fine
    have before := h.frontiers (noProgramFailed_append.mp fine).1
    have moved := advance sector contract before.aligned
    cases e with
    | erase first next result =>
      intro a le lt e he programs
      have above := (moved.range first next result (by simp [split])).1
      obtain he | he := List.mem_append.mp he
      · have := (before.below e he a programs).2
        omega
      · exact (only e (by simp [split, he])).not_program programs.isProgram
    | program addr data enc ok =>
      have step : (Event.program addr data enc ok).IsEraseStep := only _ (by simp [split])
      exact step.elim
    | read | request | store | md5Update | inflate | postProcess => trivial
  · intro fine
    have before := h.frontiers (noProgramFailed_append.mp fine).1
    have moved := advance sector contract before.aligned
    have le := moved.le
    refine ⟨ahead.aligned contract before.aligned, before.start_le, ?_, ?_⟩
    · intro e he a programs
      obtain he | he := List.mem_append.mp he
      · have := before.below e he a programs
        exact ⟨this.1, lt_of_lt_of_le this.2 le⟩
      · exact ((only e he).not_program programs.isProgram).elim
    · intro b hb above below
      by_cases old : b < s.flash.nextEraseAddr
      · exact (before.cleared b hb above old).extend ext
      · refine ⟨tr ++ ext, [], (List.append_nil _).symm, ?_, ?_⟩
        · exact (moved.cleared four b hb (not_lt.mp old) below).mono
            fun e he => List.mem_append_right _ he
        · intro e he a le _ programs
          obtain he | he := List.mem_append.mp he
          · have := (before.below e he a programs).2
            omega
          · exact (only e he).not_program programs.isProgram

theorem allowed_program (h : Frontiers sector start tr s) (startMod : start % sector = 0)
    {data : List UInt8} (erased : s.flash.offset + data.length ≤ s.flash.nextEraseAddr)
    (enc ok : Bool) :
    Allowed sector tr (.program s.flash.offset data enc ok) := by
  intro a le lt
  constructor
  · have floor : start / sector * sector ≤ a / sector * sector :=
      Nat.mul_le_mul_right _ (Nat.div_le_div_right (h.start_le.trans le))
    rw [Nat.div_mul_cancel (Nat.dvd_of_mod_eq_zero startMod)] at floor
    have := Nat.div_mul_le_self a sector
    exact h.cleared _ (Nat.mul_mod_left _ _) floor (by omega)
  · intro e he programs
    have := (h.below e he a programs).1
    omega

theorem program (h : DisciplineInv sector start tr s) (startMod : start % sector = 0)
    {data : List UInt8} (wrap : s.flash.offset + data.length < 2 ^ 32)
    (erased : (s.flash.offset + data.length) % 2 ^ 32 ≤ s.flash.nextEraseAddr) (w : W) :
    DisciplineInv sector start
        (tr ++ [.program s.flash.offset data s.flash.encrypt false]) (s.programFailed data w) ∧
      DisciplineInv sector start
        (tr ++ [.program s.flash.offset data s.flash.encrypt true]) (s.programmed data w) := by
  rw [Nat.mod_eq_of_lt wrap] at erased
  have disciplined (ok : Bool) : Disciplined sector
      (tr ++ [.program s.flash.offset data s.flash.encrypt ok]) := by
    refine h.disciplined.append fun pre e post split fine => ?_
    obtain ⟨rfl, hsplit⟩ | ⟨_, _, hsplit⟩ := List.cons_eq_append_iff.mp split
    · obtain ⟨rfl, -⟩ := List.cons.inj hsplit
      rw [List.append_nil] at fine ⊢
      exact allowed_program (h.frontiers fine) startMod erased _ _
    · simp at hsplit
  refine ⟨⟨disciplined false, fun fine => ?_⟩, ⟨disciplined true, fun fine => ?_⟩⟩
  · exact absurd (by simp) (fine s.flash.offset data s.flash.encrypt)
  · have before := h.frontiers (noProgramFailed_append.mp fine).1
    have moved : (s.programmed data w).flash.offset = s.flash.offset + data.length :=
      Nat.mod_eq_of_lt wrap
    refine ⟨before.aligned.of_eq (programmed_nextEraseAddr _ _ _)
      (programmed_eraseRemaining _ _ _), ?_, ?_, ?_⟩
    · rw [moved]
      exact before.start_le.trans (Nat.le_add_right _ _)
    · intro e he a programs
      rw [moved, programmed_nextEraseAddr]
      obtain he | he := List.mem_append.mp he
      · have := before.below e he a programs
        omega
      · rw [List.mem_singleton.mp he] at programs
        have := programs.2
        omega
    · intro b hb le lt
      rw [programmed_nextEraseAddr] at lt
      exact (before.cleared b hb le lt).extend _

end DisciplineInv

/-- No write reaches past the last address. -/
def NoWrap (tr : List Event) : Prop :=
  ∀ addr size left, .request addr size left ∈ tr → addr + size < 2 ^ 32

theorem noWrap_append {tr tr' : List Event} : NoWrap (tr ++ tr') ↔ NoWrap tr ∧ NoWrap tr' := by
  simp only [NoWrap, List.mem_append, or_imp, forall_and]

def DisciplineKept (base : List Event) (sector start : Nat) (s : StubState W D S C) : Prop :=
  ∃ tr, s.trace = base ++ tr ∧ (NoWrap tr → DisciplineInv sector start tr s)

theorem DisciplineKept.ahead {lib : StubLib W} {base : List Event} {sector start : Nat}
    (contract : FlashContract lib sector) (four : 4 ∣ sector) {s t : StubState W D S C} {ok : Prop}
    (kept : DisciplineKept base sector start s) (ahead : EraseAhead lib ok s t) :
    DisciplineKept base sector start t := by
  obtain ⟨tr, trace, inv⟩ := kept
  obtain ⟨_, _, _, _, ext, ht, -⟩ := id ahead
  refine ⟨tr ++ ext, by rw [ht, StubState.erased, trace, List.append_assoc], fun wrap => ?_⟩
  exact (inv (noWrap_append.mp wrap).1).ahead contract four ahead (by rw [ht, StubState.erased])

theorem DisciplineKept.requested {base : List Event} {sector start : Nat} {s : StubState W D S C}
    (kept : DisciplineKept base sector start s) (data : List UInt8) :
    DisciplineKept base sector start (s.requested data) := by
  obtain ⟨tr, trace, inv⟩ := kept
  refine ⟨tr ++ [_], by rw [StubState.requested, trace, List.append_assoc], fun wrap => ?_⟩
  exact (inv (noWrap_append.mp wrap).1).idle (List.forall_mem_singleton.mpr ⟨id, id⟩) rfl rfl rfl

theorem NoWrap.requested {lib : StubLib W} {base tr : List Event} {sector start : Nat}
    {s u : StubState W D S C} (kept : DisciplineKept base sector start s) {data : List UInt8}
    {ok : Prop} (ahead : EraseAhead lib ok (s.requested data) u) (trace : u.trace = base ++ tr)
    (wrap : NoWrap tr) : s.flash.offset + data.length < 2 ^ 32 := by
  obtain ⟨tr', before, -⟩ := kept
  obtain ⟨_, _, _, _, ext, rfl, -⟩ := ahead
  simp only [StubState.erased, StubState.requested, before, List.append_assoc,
    List.append_cancel_left_eq] at trace
  exact wrap s.flash.offset data.length s.flash.totalRemaining (by simp [← trace])

theorem disciplineKept_step {lib : StubLib W} {base : List Event} {sector start : Nat}
    (contract : FlashContract lib sector) (four : 4 ∣ sector) (startMod : start % sector = 0)
    {s t : StubState W D S C} (kept : DisciplineKept base sector start s)
    (step : SessionStep lib s t) : DisciplineKept base sector start t := by
  cases step with
  | quiet quiet =>
    obtain ⟨tr, trace, inv⟩ := kept
    obtain ⟨ext, ht, only⟩ := quiet.trace
    refine ⟨tr ++ ext, by rw [ht, trace, List.append_assoc], fun wrap => ?_⟩
    refine (inv (noWrap_append.mp wrap).1).idle (fun e he => ?_) quiet.offset quiet.nextEraseAddr
      quiet.eraseRemaining
    exact ⟨(only e he).not_program, (only e he).not_eraseStep⟩
  | erase ahead => exact kept.ahead contract four ahead
  | @write data r t outcome =>
    have asked := kept.requested data
    cases outcome with
    | stopped error ahead => exact asked.ahead contract four ahead
    | @failed u w ahead erased =>
      obtain ⟨tr, trace, inv⟩ := asked.ahead contract four ahead
      refine ⟨tr ++ [_], by rw [StubState.programFailed, trace, List.append_assoc], fun wrap => ?_⟩
      have wrap := (noWrap_append.mp wrap).1
      have bound := NoWrap.requested kept ahead trace wrap
      have same : u.flash.offset = s.flash.offset := ahead.offset
      rw [← same] at bound erased
      exact ((inv wrap).program startMod bound erased w).1
    | @written u w ahead erased =>
      obtain ⟨tr, trace, inv⟩ := asked.ahead contract four ahead
      refine ⟨tr ++ [_], by rw [StubState.programmed, trace, List.append_assoc], fun wrap => ?_⟩
      have wrap := (noWrap_append.mp wrap).1
      have bound := NoWrap.requested kept ahead trace wrap
      have same : u.flash.offset = s.flash.offset := ahead.offset
      rw [← same] at bound erased
      exact ((inv wrap).program startMod bound erased w).2

/-- In a session whose writes end below 4 GiB the erase discipline holds, with
any results of the erase, read and program calls. -/
theorem session_disciplined {sector : Nat} (contract : FlashContract env.lib sector)
    (four : 4 ≤ sector) {f : Frame} (begins : f.Begins)
    (inChip : f.ctx.regionEnd sector < 2 ^ 32) {frames : List Frame}
    (data : ∀ g ∈ frames, g.IsData) {s₀ : StubState W D S C}
    (clear : s₀.accumulatedResult = responseSuccess) (idle : s₀.pendingPostProcess = none)
    {t : StubState W D S C} (run : (serve env (f :: frames)).Reaches s₀ t) :
    ∃ tr, t.trace = s₀.trace ++ tr ∧ (NoWrap tr → Disciplined sector tr) := by
  have dvd : 4 ∣ sector := contract.four_dvd four
  have startMod : f.ctx.regionStart sector % sector = 0 := Nat.mul_mod_left _ _
  obtain ⟨aligned, next, -⟩ := begun_aligned env contract inChip s₀
  have start : DisciplineKept s₀.trace sector (f.ctx.regionStart sector) (f.begun env s₀) := by
    refine ⟨[], (List.append_nil _).symm, fun _ => ⟨?_, fun _ => ⟨aligned, ?_, by simp, ?_⟩⟩⟩
    · intro pre e post split _
      simp at split
    · exact Nat.div_mul_le_self _ _
    · intro b _ le lt
      omega
  obtain ⟨tr, trace, inv⟩ := (session_steps env begins data clear idle run).invariant start
    fun s t => disciplineKept_step contract dvd startMod
  exact ⟨tr, trace, fun wrap => (inv wrap).disciplined⟩

theorem session_disciplined_two_bytes :
    ∃ t, (serve (simPlatform 4 [(.done, 1, [1, 2])])
        [beginFrame espFlashDeflBegin 2 0, dataFrame espFlashDeflData 0 [7]]).Returns
          (simStart fun _ => 0) () t ∧ Disciplined 4 t.trace := by
  obtain ⟨t, run, shape⟩ : ∃ t, (serve (simPlatform 4 [(.done, 1, [1, 2])])
      [beginFrame espFlashDeflBegin 2 0, dataFrame espFlashDeflData 0 [7]]).Returns
        (simStart fun _ => 0) () t ∧
      t.trace = [.read 0 4 (some [0, 0, 0, 0]), .erase 0 4 .ok, .inflate 32768 [1, 2] .done,
        .request 0 2 2, .program 0 [1, 2] false true, .postProcess responseSuccess] :=
    ⟨_, ⟨20, _, rfl⟩, rfl⟩
  have begins : (beginFrame espFlashDeflBegin 2 0).Begins := ⟨⟨rfl, rfl⟩, .inr rfl, .inl rfl⟩
  obtain ⟨tr, trace, disciplined⟩ := session_disciplined (simPlatform 4 [(.done, 1, [1, 2])])
    (simLib_contract (k := 2) (by decide)) (by decide) begins (by decide)
    (List.forall_mem_singleton.mpr (.inr rfl)) rfl rfl (.inr ⟨(), run⟩)
  have same : t.trace = tr := trace
  have wrap : NoWrap tr := by
    intro addr size left h
    rw [← same, shape] at h
    simp only [List.mem_cons, reduceCtorEq, Event.request.injEq, List.not_mem_nil, false_or,
      or_false] at h
    omega
  exact ⟨t, run, same ▸ disciplined wrap⟩

/-- A write that wraps around is programmed into a sector that nobody cleared. -/
theorem session_programs_uncleared :
    ∃ t, (serve (simPlatform 4 [(.done, 1, List.replicate 8 0)])
        [beginFrame espFlashDeflBegin 4 (2 ^ 32 - 8), dataFrame espFlashDeflData 0 [7]]).Returns
          (simStart fun _ => 0) () t ∧
      (beginFrame espFlashDeflBegin 4 (2 ^ 32 - 8)).ctx.regionEnd 4 ≤
        (simFlashConfig 4).flashSize ∧ ¬ Disciplined 4 t.trace := by
  obtain ⟨t, run, shape⟩ : ∃ t, (serve (simPlatform 4 [(.done, 1, List.replicate 8 0)])
      [beginFrame espFlashDeflBegin 4 (2 ^ 32 - 8), dataFrame espFlashDeflData 0 [7]]).Returns
        (simStart fun _ => 0) () t ∧
      t.trace = [.read (2 ^ 32 - 8) 4 (some [0, 0, 0, 0]), .erase (2 ^ 32 - 8) (2 ^ 32 - 4) .ok,
        .inflate 32768 (List.replicate 8 0) .done, .request (2 ^ 32 - 8) 8 4,
        .program (2 ^ 32 - 8) (List.replicate 8 0) false true, .postProcess responseSuccess] :=
    ⟨_, ⟨20, _, rfl⟩, rfl⟩
  refine ⟨t, run, by decide, fun disciplined => ?_⟩
  rw [shape] at disciplined
  have allowed := disciplined [_, _, _, _] _ _ rfl (by simp [NoProgramFailed])
  obtain ⟨pre, post, split, cleared, -⟩ := (allowed (2 ^ 32 - 4) (by decide) (by decide)).1
  have cleared := cleared.mono fun e he => split ▸ List.mem_append_left post he
  obtain ⟨e, he, covers⟩ | blank := cleared
  · simp only [List.mem_cons, List.not_mem_nil, or_false] at he
    obtain rfl | rfl | rfl | rfl := he
    · exact covers
    · exact absurd covers.2 (by decide)
    · exact covers
    · exact covers
  · obtain ⟨e, he, reads⟩ := blank (2 ^ 32 - 4) (by decide) (by decide)
    simp only [List.mem_cons, List.not_mem_nil, or_false] at he
    obtain rfl | rfl | rfl | rfl := he
    · exact absurd reads.2 (by decide)
    · exact reads
    · exact reads
    · exact reads

end FlasherStub
