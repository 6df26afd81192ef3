import FlasherStub.SimulatedDevice

/-! The image a session programs. `s_write_flash_data` keeps offset and
`total_remaining` in step with what was programmed as long as no write is longer
than what is left; only the plain path makes sure of that. -/

namespace FlasherStub

open ByteMemory Budget

variable {W D H S C : Type} (env : Platform W D H S C)

def Event.IsProgram : Event → Prop
  | .program _ _ _ _ => True
  | _ => False

theorem Event.IsEraseStep.not_program {e : Event} (h : e.IsEraseStep) : ¬ e.IsProgram := by
  cases e with
  | read | erase => exact id
  | request | program | store | md5Update | inflate | postProcess => exact h.elim

theorem Event.IsQuiet.not_program {e : Event} (h : e.IsQuiet) : ¬ e.IsProgram := by
  cases e with
  | inflate | postProcess => exact id
  | read | erase | request | program | store | md5Update => exact h.elim

/-- The bytes that were programmed, in order. -/
def written (tr : List Event) : List UInt8 :=
  tr.flatMap fun
    | .program _ data _ true => data
    | _ => []

@[simp] theorem written_nil : written [] = [] := rfl

@[simp] theorem written_append (tr tr' : List Event) :
    written (tr ++ tr') = written tr ++ written tr' := List.flatMap_append

@[simp] theorem written_program (addr : Nat) (data : List UInt8) (enc ok : Bool) :
    written [.program addr data enc ok] = if ok then data else [] := by
  cases ok <;> simp [written]

theorem written_eq_nil {tr : List Event} (h : ∀ e ∈ tr, ¬ e.IsProgram) : written tr = [] := by
  refine List.flatMap_eq_nil_iff.mpr fun e he => ?_
  have := h e he
  cases e with
  | program => exact absurd trivial this
  | read | erase | request | store | md5Update | inflate | postProcess => rfl

/-- No write asked for more than was left of the image. -/
def Fits (tr : List Event) : Prop :=
  ∀ addr size left, .request addr size left ∈ tr → size ≤ left

theorem fits_append {tr tr' : List Event} : Fits (tr ++ tr') ↔ Fits tr ∧ Fits tr' := by
  simp only [Fits, List.mem_append, or_imp, forall_and]

structure ImageInv (start total : Nat) (tr : List Event) (s : StubState W D S C) : Prop where
  offset : s.flash.offset = start + (written tr).length
  count : (written tr).length + s.flash.totalRemaining = total
  range : ∀ addr data enc ok, .program addr data enc ok ∈ tr →
    start ≤ addr ∧ addr + data.length ≤ start + total

namespace ImageInv

variable {start total : Nat} {tr ext : List Event} {s t : StubState W D S C}

theorem extend (h : ImageInv start total tr s) (none : ∀ e ∈ ext, ¬ e.IsProgram)
    (sameOffset : t.flash.offset = s.flash.offset)
    (sameTotal : t.flash.totalRemaining = s.flash.totalRemaining) :
    ImageInv start total (tr ++ ext) t where
  offset := by rw [sameOffset, h.offset, written_append, written_eq_nil none, List.append_nil]
  count := by rw [sameTotal, written_append, written_eq_nil none, List.append_nil, h.count]
  range addr data enc ok he := by
    obtain he | he := List.mem_append.mp he
    · exact h.range addr data enc ok he
    · exact absurd trivial (none _ he)

theorem program_range (h : ImageInv start total tr s) {data : List UInt8}
    (fits : data.length ≤ s.flash.totalRemaining) {enc ok enc' ok' : Bool} {addr : Nat}
    {data' : List UInt8}
    (mem : .program addr data' enc' ok' ∈ tr ++ [.program s.flash.offset data enc ok]) :
    start ≤ addr ∧ addr + data'.length ≤ start + total := by
  obtain mem | mem := List.mem_append.mp mem
  · exact h.range addr data' enc' ok' mem
  · injection List.mem_singleton.mp mem with h₁ h₂ _ _
    have := h.offset
    have := h.count
    rw [h₁, h₂]
    omega

theorem failed (h : ImageInv start total tr s) {data : List UInt8}
    (fits : data.length ≤ s.flash.totalRemaining) (w : W) :
    ImageInv start total (tr ++ [.program s.flash.offset data s.flash.encrypt false])
      (s.programFailed data w) where
  offset := by
    rw [written_append, written_program, if_neg Bool.false_ne_true, List.append_nil]
    exact h.offset
  count := by
    rw [written_append, written_program, if_neg Bool.false_ne_true, List.append_nil]
    exact h.count
  range _ _ _ _ he := h.program_range fits he

theorem programmed (h : ImageInv start total tr s) (bound : start + total < 2 ^ 32)
    {data : List UInt8} (fits : data.length ≤ s.flash.totalRemaining) (w : W) :
    ImageInv start total (tr ++ [.program s.flash.offset data s.flash.encrypt true])
      (s.programmed data w) := by
  have here := h.offset
  have count := h.count
  have length : (written (tr ++ [.program s.flash.offset data s.flash.encrypt true])).length =
      (written tr).length + data.length := by simp
  refine ⟨?_, ?_, fun _ _ _ _ he => h.program_range fits he⟩
  · rw [length]
    simp only [StubState.programmed]
    omega
  · rw [length]
    simp only [StubState.programmed]
    rw [sub32_of_le fits (by omega)]
    omega

end ImageInv

def ImageKept (base : List Event) (start total : Nat) (s : StubState W D S C) : Prop :=
  ∃ tr, s.trace = base ++ tr ∧ (Fits tr → ImageInv start total tr s)

theorem ImageKept.requested {lib : StubLib W} {base : List Event} {start total : Nat}
    {s u : StubState W D S C} (kept : ImageKept base start total s) {data : List UInt8} {ok : Prop}
    (ahead : EraseAhead lib ok (s.requested data) u) :
    ∃ tr, u.trace = base ++ tr ∧
      (Fits tr → ImageInv start total tr u ∧ data.length ≤ u.flash.totalRemaining) := by
  obtain ⟨tr, trace, inv⟩ := kept
  obtain ⟨_, _, _, _, ext, rfl, only, -⟩ := ahead
  refine ⟨tr ++ (.request s.flash.offset data.length s.flash.totalRemaining :: ext), ?_, ?_⟩
  · simp [StubState.erased, StubState.requested, trace]
  · intro fits
    refine ⟨(inv (fits_append.mp fits).1).extend ?_ rfl rfl, ?_⟩
    · exact List.forall_mem_cons.mpr ⟨id, fun e he => (only e he).not_program⟩
    · exact fits s.flash.offset data.length s.flash.totalRemaining (by simp)

theorem imageKept_step {lib : StubLib W} {base : List Event} {start total : Nat}
    (bound : start + total < 2 ^ 32) {s t : StubState W D S C}
    (kept : ImageKept base start total s) (step : SessionStep lib s t) :
    ImageKept base start total t := by
  cases step with
  | quiet quiet =>
    obtain ⟨tr, trace, inv⟩ := kept
    obtain ⟨ext, ht, only⟩ := quiet.trace
    refine ⟨tr ++ ext, by rw [ht, trace, List.append_assoc], fun fits => ?_⟩
    exact (inv (fits_append.mp fits).1).extend (fun e he => (only e he).not_program)
      quiet.offset quiet.totalRemaining
  | erase ahead =>
    obtain ⟨tr, trace, inv⟩ := kept
    obtain ⟨_, _, _, _, ext, rfl, only, -⟩ := ahead
    refine ⟨tr ++ ext, by simp [StubState.erased, trace], fun fits => ?_⟩
    exact (inv (fits_append.mp fits).1).extend (fun e he => (only e he).not_program) rfl rfl
  | write outcome =>
    cases outcome with
    | stopped error ahead =>
      obtain ⟨tr, trace, inv⟩ := kept.requested ahead
      exact ⟨tr, trace, fun fits => (inv fits).1⟩
    | @failed u w ahead erased =>
      obtain ⟨tr, trace, inv⟩ := kept.requested ahead
      refine ⟨tr ++ [_], by rw [StubState.programFailed, trace, List.append_assoc], fun fits => ?_⟩
      obtain ⟨before, le⟩ := inv (fits_append.mp fits).1
      exact before.failed le w
    | @written u w ahead erased =>
      obtain ⟨tr, trace, inv⟩ := kept.requested ahead
      refine ⟨tr ++ [_], by rw [StubState.programmed, trace, List.append_assoc], fun fits => ?_⟩
      obtain ⟨before, le⟩ := inv (fits_append.mp fits).1
      exact before.programmed bound le w

/-- In a session whose writes all fit into what is left, every byte programmed
lies in the declared image and `total_remaining` is what is still missing. -/
theorem session_programs_image {f : Frame} (begins : f.Begins) {frames : List Frame}
    (data : ∀ g ∈ frames, g.IsData) {s₀ : StubState W D S C}
    (clear : s₀.accumulatedResult = responseSuccess) (idle : s₀.pendingPostProcess = none)
    (bound : f.ctx.beginOffset + f.ctx.beginTotal < 2 ^ 32) {t : StubState W D S C}
    (run : (serve env (f :: frames)).Reaches s₀ t) :
    ∃ tr, t.trace = s₀.trace ++ tr ∧
      (Fits tr →
        (∀ addr data enc ok, .program addr data enc ok ∈ tr →
          f.ctx.beginOffset ≤ addr ∧
            addr + data.length ≤ f.ctx.beginOffset + f.ctx.beginTotal) ∧
        (written tr).length + t.flash.totalRemaining = f.ctx.beginTotal) := by
  have start : ImageKept s₀.trace f.ctx.beginOffset f.ctx.beginTotal (f.begun env s₀) := by
    refine ⟨[], (List.append_nil _).symm, fun _ => ⟨rfl, ?_, by simp⟩⟩
    exact Nat.zero_add _
  obtain ⟨tr, trace, inv⟩ := (session_steps env begins data clear idle run).invariant start
    fun s t => imageKept_step bound
  exact ⟨tr, trace, fun fits => ⟨(inv fits).range, (inv fits).count⟩⟩

theorem session_programs_image_two_bytes :
    ∃ t, (serve (simPlatform 4 [(.done, 1, [1, 2])])
        [beginFrame espFlashDeflBegin 2 0, dataFrame espFlashDeflData 0 [7]]).Returns
          (simStart fun _ => 0) () t ∧
      (written t.trace).length + t.flash.totalRemaining = 2 := by
  obtain ⟨t, run, shape⟩ : ∃ t, (serve (simPlatform 4 [(.done, 1, [1, 2])])
      [beginFrame espFlashDeflBegin 2 0, dataFrame espFlashDeflData 0 [7]]).Returns
        (simStart fun _ => 0) () t ∧
      t.trace = [.read 0 4 (some [0, 0, 0, 0]), .erase 0 4 .ok, .inflate 32768 [1, 2] .done,
        .request 0 2 2, .program 0 [1, 2] false true, .postProcess responseSuccess] :=
    ⟨_, ⟨20, _, rfl⟩, rfl⟩
  have begins : (beginFrame espFlashDeflBegin 2 0).Begins := ⟨⟨rfl, rfl⟩, .inr rfl, .inl rfl⟩
  obtain ⟨tr, trace, image⟩ := session_programs_image (simPlatform 4 [(.done, 1, [1, 2])]) begins
    (List.forall_mem_singleton.mpr (.inr rfl)) rfl rfl (by decide) (.inr ⟨(), run⟩)
  have same : t.trace = tr := trace
  have fits : Fits tr := by
    intro addr size left h
    rw [← same, shape] at h
    simp only [List.mem_cons, reduceCtorEq, Event.request.injEq, List.not_mem_nil, false_or,
      or_false] at h
    omega
  exact ⟨t, run, same ▸ (image fits).2⟩

/-- The compressed path writes past the end of the image. -/
theorem session_programs_beyond_image :
    ∃ t, (serve (simPlatform 4 [(.done, 1, [1, 2])])
        [beginFrame espFlashDeflBegin 1 0, dataFrame espFlashDeflData 0 [7]]).Returns
          (simStart fun _ => 0) () t ∧
      (∃ addr data enc ok, .program addr data enc ok ∈ t.trace ∧ 0 + 1 < addr + data.length) ∧
      (written t.trace).length + t.flash.totalRemaining ≠ 1 := by
  obtain ⟨t, run, shape, left⟩ : ∃ t, (serve (simPlatform 4 [(.done, 1, [1, 2])])
      [beginFrame espFlashDeflBegin 1 0, dataFrame espFlashDeflData 0 [7]]).Returns
        (simStart fun _ => 0) () t ∧
      t.trace = [.read 0 4 (some [0, 0, 0, 0]), .erase 0 4 .ok, .inflate 32768 [1, 2] .done,
        .request 0 2 1, .program 0 [1, 2] false true, .postProcess responseSuccess] ∧
      t.flash.totalRemaining = 2 ^ 32 - 1 :=
    ⟨_, ⟨20, _, rfl⟩, rfl, rfl⟩
  refine ⟨t, run, ⟨0, [1, 2], false, true, by simp [shape], by decide⟩, ?_⟩
  rw [shape, left]
  decide

end FlasherStub
