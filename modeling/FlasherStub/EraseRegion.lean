import FlasherStub.Session
import FlasherStub.SimulatedDevice

/-! The loop of ERASE_REGION. It spends one unit of a budget on every call that starts an erase,
whatever the call returns, and leaves it to the final wait to tell success from failure. -/

namespace FlasherStub

open ByteMemory Budget

variable {W D H S C : Type} (env : Platform W D H S C)

def CmdCtx.eraseAddr (ctx : CmdCtx) : Nat := getLeToU32 ctx.mem ctx.data

def CmdCtx.eraseSize (ctx : CmdCtx) : Nat := getLeToU32 ctx.mem (ctx.data + 4)

/-- `timeout_us` at the start of the loop, for a whole number of sectors. -/
def eraseBudget (eraseSize sector : Nat) : Nat :=
  eraseSize / sector * erasePerSectorTimeoutUs % 2 ^ 32

/-- What the rounds change: `addr`, `erase_size` and the device. -/
structure Erasing (W : Type) where
  addr : Nat
  remaining : Nat
  world : W

namespace Erasing

variable (lib : StubLib W) (e : Erasing W)

def next : NextErase × W := lib.flashStartNextErase e.addr e.remaining e.world

def round : Erasing W :=
  ⟨(e.next lib).1.addr, (e.next lib).1.remaining, lib.delayUs 1 (e.next lib).2⟩

def events : Nat → Erasing W → List Event
  | 0, _ => []
  | n + 1, e => .erase e.addr (e.next lib).1.addr (e.next lib).1.result :: events n (e.round lib)

end Erasing

def StubState.erasing (s : StubState W D S C) (n : Nat) (e : Erasing W) : StubState W D S C :=
  { s with
    world := ((Erasing.round env.lib)^[n] e).world
    trace := s.trace ++ Erasing.events env.lib n e }

theorem returns_eraseRegionStep (addr : Nat) {eraseSize : Nat} (more : eraseSize ≠ 0) (left : Nat)
    (s : StubState W D S C) :
    (eraseRegionStep env ⟨addr, eraseSize, left + 1⟩).Returns s
      (.inl ⟨(Erasing.round env.lib ⟨addr, eraseSize, s.world⟩).addr,
        (Erasing.round env.lib ⟨addr, eraseSize, s.world⟩).remaining, left⟩)
      (s.erasing env 1 ⟨addr, eraseSize, s.world⟩) := by
  have goes : 0 < eraseSize ∧ 0 < left + 1 := ⟨Nat.pos_of_ne_zero more, Nat.succ_pos _⟩
  simp only [eraseRegionStep, if_pos goes, Stub.flashStartNextErase, Stub.device,
    Prog.returns_act_bind, Prog.returns_modify_bind, Prog.returns_pure]
  exact ⟨rfl, rfl⟩

theorem StubState.erasing_succ (s : StubState W D S C) (n : Nat) (e : Erasing W) :
    (s.erasing env 1 e).erasing env n (e.round env.lib) = s.erasing env (n + 1) e := by
  simp [StubState.erasing, Erasing.events]

theorem returns_eraseLoop (addr eraseSize left : Nat) (s : StubState W D S C) : ∃ n ≤ left,
    (Prog.loop (eraseRegionStep env) ⟨addr, eraseSize, left⟩).Returns s (left - n)
      (s.erasing env n ⟨addr, eraseSize, s.world⟩) ∧
    (((Erasing.round env.lib)^[n] ⟨addr, eraseSize, s.world⟩).remaining = 0 ∨
      n = left ∧ ∀ m < n,
        ((Erasing.round env.lib)^[m] ⟨addr, eraseSize, s.world⟩).remaining ≠ 0) := by
  induction left generalizing addr eraseSize s with
  | zero =>
    refine ⟨0, le_rfl, ?_, .inr ⟨rfl, by simp⟩⟩
    refine (Prog.returns_loop _ _ _ _ _).mpr (.inl ?_)
    simp [eraseRegionStep, StubState.erasing, Erasing.events]
  | succ left ih =>
    by_cases done : eraseSize = 0
    · refine ⟨0, Nat.zero_le _, ?_, .inl done⟩
      refine (Prog.returns_loop _ _ _ _ _).mpr (.inl ?_)
      simp [eraseRegionStep, StubState.erasing, Erasing.events, done]
    · obtain ⟨n, le, rest, stops⟩ := ih
        (Erasing.round env.lib ⟨addr, eraseSize, s.world⟩).addr
        (Erasing.round env.lib ⟨addr, eraseSize, s.world⟩).remaining
        (s.erasing env 1 ⟨addr, eraseSize, s.world⟩)
      have step := returns_eraseRegionStep env addr done left s
      refine ⟨n + 1, Nat.succ_le_succ le, ?_, ?_⟩
      · rw [← StubState.erasing_succ, Nat.add_sub_add_right]
        exact (Prog.returns_loop _ _ _ _ _).mpr (.inr ⟨_, _, step, rest⟩)
      · refine stops.imp id fun ⟨all, never⟩ => ⟨by rw [all], fun m less => ?_⟩
        cases m with
        | zero => exact done
        | succ m => exact never m (Nat.lt_of_succ_lt_succ less)

namespace Erasing

structure Sound (sector finish : Nat) (e : Erasing W) : Prop where
  addr : e.addr % sector = 0
  remaining : e.remaining % sector = 0
  sum : e.addr + e.remaining = finish

section Sound

variable {lib : StubLib W} {sector finish : Nat} (contract : FlashContract lib sector)
  {e : Erasing W} (bound : finish < 2 ^ 32)

include contract bound

theorem Sound.round (sound : e.Sound sector finish) :
    (e.round lib).Sound sector finish ∧ e.addr ≤ (e.round lib).addr := by
  have sum := sound.sum
  obtain ⟨k, addr, remaining⟩ := contract.nextErase e.addr e.remaining e.world sound.addr
    sound.remaining (by omega)
  change (e.round lib).addr = _ at addr
  change (e.round lib).remaining + _ = _ at remaining
  refine ⟨⟨?_, ?_, by omega⟩, by omega⟩
  · rw [addr, Nat.add_mul_mod_self_right, sound.addr]
  · rw [← Nat.add_mul_mod_self_right, remaining, sound.remaining]

theorem Sound.rounds (sound : e.Sound sector finish) (n : Nat) :
    ((Erasing.round lib)^[n] e).Sound sector finish ∧
      e.addr ≤ ((Erasing.round lib)^[n] e).addr := by
  induction n generalizing e with
  | zero => exact ⟨sound, le_rfl⟩
  | succ n ih =>
    obtain ⟨next, le⟩ := sound.round contract bound
    obtain ⟨last, le'⟩ := ih next
    exact ⟨last, le.trans le'⟩

theorem Sound.covered (sound : e.Sound sector finish) (n : Nat) {b : Nat} (aligned : b % sector = 0)
    (lower : e.addr ≤ b) (upper : b < ((Erasing.round lib)^[n] e).addr) :
    ∃ event ∈ events lib n e, event.Covers b (b + sector) := by
  induction n generalizing e with
  | zero => exact absurd upper (not_lt.mpr lower)
  | succ n ih =>
    obtain ⟨next, -⟩ := sound.round contract bound
    by_cases here : b < (e.round lib).addr
    · exact ⟨_, List.mem_cons_self, lower, add_sector_le aligned next.addr here⟩
    · obtain ⟨event, mem, covers⟩ := ih next (not_lt.mp here) upper
      exact ⟨event, List.mem_cons_of_mem _ mem, covers⟩

theorem Sound.le_of_covers (sound : e.Sound sector finish) (n : Nat) {first next : Nat}
    {event : Event} (mem : event ∈ events lib n e) (covers : event.Covers first next) :
    next ≤ ((Erasing.round lib)^[n] e).addr := by
  induction n generalizing e with
  | zero => cases mem
  | succ n ih =>
    obtain ⟨after, -⟩ := sound.round contract bound
    obtain rfl | mem := List.mem_cons.mp mem
    · exact covers.2.trans (after.rounds contract bound n).2
    · exact ih after mem

end Sound

end Erasing

def CmdCtx.erasing (ctx : CmdCtx) (w : W) : Erasing W := ⟨ctx.eraseAddr, ctx.eraseSize, w⟩

theorem sectors_eq {lib : StubLib W} {sector size : Nat} (contract : FlashContract lib sector)
    (bound : size < 2 ^ 32) (aligned : size % sector = 0) :
    sub32 ((size + sector) % 2 ^ 32) 1 / sector = size / sector := by
  have pos := contract.pos
  have le : size + sector ≤ 2 ^ 32 := add_sector_le aligned contract.two_pow_mod bound
  have less : sub32 ((size + sector) % 2 ^ 32) 1 = size + (sector - 1) := by
    unfold sub32
    omega
  obtain ⟨k, rfl⟩ := Nat.dvd_of_mod_eq_zero aligned
  rw [less, Nat.mul_add_div pos, Nat.mul_div_cancel_left _ pos, Nat.div_eq_of_lt (by omega),
    Nat.add_zero]

theorem returns_eraseRegion {sector : Nat} (contract : FlashContract env.lib sector) {ctx : CmdCtx}
    (size : ctx.packetSize = eraseRegionSize) (alignedAddr : ctx.eraseAddr % sector = 0)
    (alignedSize : ctx.eraseSize % sector = 0) (s : StubState W D S C) :
    ∃ n ≤ eraseBudget ctx.eraseSize sector,
      (((Erasing.round env.lib)^[n] (ctx.erasing s.world)).remaining = 0 ∨
        n = eraseBudget ctx.eraseSize sector ∧
          ∀ m < n, ((Erasing.round env.lib)^[m] (ctx.erasing s.world)).remaining ≠ 0) ∧
      ∃ world, (eraseRegion env ctx).Returns s
        (if (env.lib.flashWaitReady (eraseBudget ctx.eraseSize sector - n)
            ((Erasing.round env.lib)^[n] (ctx.erasing s.world)).world).1 = .ok
          then responseSuccess else responseFailedSpiOp)
        { s.erasing env n (ctx.erasing s.world) with world } := by
  have budget : sub32 ((ctx.eraseSize + sector) % 2 ^ 32) 1 / sector * erasePerSectorTimeoutUs %
      2 ^ 32 = eraseBudget ctx.eraseSize sector := by
    have bound : ctx.eraseSize < 2 ^ 32 := getLeToU32_lt _ _
    rw [sectors_eq contract bound alignedSize, eraseBudget]
  have whole : ¬ (ctx.eraseAddr % sector ≠ 0 ∨ ctx.eraseSize % sector ≠ 0) := by
    simp [alignedAddr, alignedSize]
  obtain ⟨n, le, run, stops⟩ := returns_eraseLoop env ctx.eraseAddr ctx.eraseSize
    (eraseBudget ctx.eraseSize sector) s
  refine ⟨n, le, stops, (env.lib.flashWaitReady (eraseBudget ctx.eraseSize sector - n)
    ((Erasing.round env.lib)^[n] (ctx.erasing s.world)).world).2, ?_⟩
  simp only [eraseRegion, if_neg (not_not.mpr size), Prog.returns_get_bind, contract.config]
  change (if ctx.eraseAddr % sector ≠ 0 ∨ ctx.eraseSize % sector ≠ 0 then _ else
    Prog.loop (eraseRegionStep env) ⟨ctx.eraseAddr, ctx.eraseSize,
      sub32 ((ctx.eraseSize + sector) % 2 ^ 32) 1 / sector * erasePerSectorTimeoutUs % 2 ^ 32⟩ >>=
      _).Returns _ _ _
  rw [if_neg whole, budget, Prog.returns_bind]
  refine ⟨_, _, run, ?_⟩
  rw [Prog.returns_act_bind]
  change (if (env.lib.flashWaitReady _
    ((Erasing.round env.lib)^[n] (ctx.erasing s.world)).world).1 ≠ .ok then _ else _ :
      Stub W D S C Int).Returns _ _ _
  rw [ite_not]
  split_ifs
  · exact (Prog.returns_pure _ _ _ _).mpr ⟨rfl, rfl⟩
  · exact (Prog.returns_pure _ _ _ _).mpr ⟨rfl, rfl⟩

/-- If the handler reports success, each sector of the region has been erased. -/
def ErasesRegion (sector : Nat) (ctx : CmdCtx) (s : StubState W D S C) : Prop :=
  ∀ t new, (eraseRegion env ctx).Returns s responseSuccess t → t.trace = s.trace ++ new →
    ∀ b, b % sector = 0 → ctx.eraseAddr ≤ b → b < ctx.eraseAddr + ctx.eraseSize →
      ∃ e ∈ new, e.Covers b (b + sector)

section Region

variable {env} {sector : Nat} (contract : FlashContract env.lib sector) {ctx : CmdCtx}
  (size : ctx.packetSize = eraseRegionSize) (alignedAddr : ctx.eraseAddr % sector = 0)
  (alignedSize : ctx.eraseSize % sector = 0)
  (inside : ctx.eraseAddr + ctx.eraseSize < 2 ^ 32) (s : StubState W D S C)

include contract size alignedAddr alignedSize inside

theorem erasesRegion_of_started
    (started : (∃ n ≤ eraseBudget ctx.eraseSize sector,
        ((Erasing.round env.lib)^[n] (ctx.erasing s.world)).remaining = 0) ∨
      (env.lib.flashWaitReady 0 ((Erasing.round env.lib)^[eraseBudget ctx.eraseSize sector]
        (ctx.erasing s.world)).world).1 ≠ .ok) : ErasesRegion env sector ctx s := by
  have sound : (ctx.erasing s.world).Sound sector (ctx.eraseAddr + ctx.eraseSize) :=
    ⟨alignedAddr, alignedSize, rfl⟩
  obtain ⟨n, le, stops, world, run⟩ :=
    returns_eraseRegion env contract size alignedAddr alignedSize s
  intro t new success trace b aligned lower upper
  obtain ⟨ready, rfl⟩ := success.unique run
  have done : ((Erasing.round env.lib)^[n] (ctx.erasing s.world)).remaining = 0 := by
    obtain zero | ⟨rfl, never⟩ := stops
    · exact zero
    obtain ⟨m, le, zero⟩ | busy := started
    · obtain less | rfl := Nat.lt_or_eq_of_le le
      · exact absurd zero (never m less)
      · exact zero
    · rw [Nat.sub_self, if_neg busy] at ready
      cases ready
  have sum := (sound.rounds contract inside n).1.sum
  obtain rfl : Erasing.events env.lib n (ctx.erasing s.world) = new :=
    List.append_cancel_left trace
  exact sound.covered contract inside n aligned lower (by omega)

/-- Otherwise success is reported with the next sector still as it was. -/
theorem not_erasesRegion
    (unfinished : ∀ n ≤ eraseBudget ctx.eraseSize sector,
      ((Erasing.round env.lib)^[n] (ctx.erasing s.world)).remaining ≠ 0)
    (ready : (env.lib.flashWaitReady 0 ((Erasing.round env.lib)^[eraseBudget ctx.eraseSize sector]
      (ctx.erasing s.world)).world).1 = .ok) : ¬ ErasesRegion env sector ctx s := by
  have sound : (ctx.erasing s.world).Sound sector (ctx.eraseAddr + ctx.eraseSize) :=
    ⟨alignedAddr, alignedSize, rfl⟩
  obtain ⟨n, le, stops, world, run⟩ :=
    returns_eraseRegion env contract size alignedAddr alignedSize s
  obtain ⟨rfl, -⟩ := stops.resolve_left (unfinished n le)
  rw [Nat.sub_self, if_pos ready] at run
  intro erases
  obtain ⟨last, lower⟩ := sound.rounds contract inside (eraseBudget ctx.eraseSize sector)
  have left := unfinished _ le
  have sum := last.sum
  obtain ⟨e, mem, covers⟩ := erases _ _ run rfl _ last.addr lower (by omega)
  have upper := sound.le_of_covers contract inside _ mem covers
  have pos := contract.pos
  omega

/-- ERASE_REGION may be trusted exactly if its budget is enough for the device, or the chip is
not ready at its end. -/
theorem erase_region_iff : ErasesRegion env sector ctx s ↔
    (∃ n ≤ eraseBudget ctx.eraseSize sector,
      ((Erasing.round env.lib)^[n] (ctx.erasing s.world)).remaining = 0) ∨
    (env.lib.flashWaitReady 0 ((Erasing.round env.lib)^[eraseBudget ctx.eraseSize sector]
      (ctx.erasing s.world)).world).1 ≠ .ok := by
  refine ⟨fun erases => ?_,
    erasesRegion_of_started contract size alignedAddr alignedSize inside s⟩
  by_contra stuck
  obtain ⟨left, ready⟩ := not_or.mp stuck
  refine not_erasesRegion contract size alignedAddr alignedSize inside s (fun n le zero => ?_)
    (not_not.mp ready) erases
  exact left ⟨n, le, zero⟩

end Region

def eraseFrame (addr size : Nat) : Frame :=
  mkFrame espEraseRegion 0 (setU32ToLe addr ++ setU32ToLe size)

/-- One sector of a chip that starts every erase at once. -/
theorem erase_region_iff_one_sector :
    ErasesRegion (simPlatform 4096 []) 4096 (eraseFrame 0 4096).ctx (simStart fun _ => 0) := by
  have contract : FlashContract (simPlatform 4096 []).lib 4096 :=
    simLib_contract (k := 12) (by decide)
  exact (erase_region_iff contract (by decide) (by decide) (by decide) (by decide)
    (simStart fun _ => 0)).mpr (.inl ⟨1, by decide, rfl⟩)

/-- A chip that fails to start any erase. -/
def stuckPlatform : Platform SimWorld (List SimInflate) Unit Unit Empty :=
  { simPlatform 4096 [] with
    lib := { simLib 4096 with
      flashStartNextErase := fun addr remaining w => (⟨.fail, addr, remaining⟩, w) } }

theorem stuckPlatform_contract : FlashContract stuckPlatform.lib 4096 where
  config _ := rfl
  power := ⟨12, by decide, rfl⟩
  alignDown _ := rfl
  alignUp a bound := by
    change (a + (4096 - 1)) % 2 ^ 32 / 4096 * 4096 = _
    rw [Nat.mod_eq_of_lt bound]
  nextErase addr remaining w _ _ _ := ⟨0, by simp [stuckPlatform], by simp [stuckPlatform]⟩

/-- Every attempt fails until the budget is used up, and the idle chip is then ready at once. -/
theorem erase_region_unerased :
    ¬ ErasesRegion stuckPlatform 4096 (eraseFrame 0 4096).ctx (simStart fun _ => 0) := by
  have same (e : Erasing SimWorld) : Erasing.round stuckPlatform.lib e = e := rfl
  refine not_erasesRegion stuckPlatform_contract (by decide) (by decide) (by decide) (by decide) _
    (fun n _ => ?_) rfl
  rw [Function.iterate_fixed (same _)]
  decide

end FlasherStub
