import FlasherStub.SimulatedDevice

/-! Whether the erase-ahead loop ends. Its exit test reads `next_erase_addr`, its
progress depends on `erase_remaining`; the two agree as long as the pending write
ends inside the region that BEGIN rounded to sectors. -/

namespace FlasherStub

open ByteMemory Budget

variable {W D H S C : Type} (env : Platform W D H S C)

/-- With sectors left to erase, repeated calls advance at some point. -/
def StubLib.EventuallyAdvances (lib : StubLib W) (sector : Nat) : Prop :=
  ∀ addr remaining w, addr % sector = 0 → remaining % sector = 0 → addr + remaining < 2 ^ 32 →
    remaining ≠ 0 → ∃ n, (lib.flashStartNextErase addr remaining
      ((fun w => (lib.flashStartNextErase addr remaining w).2)^[n] w)).1.addr ≠ addr

theorem terminates_sectorIsBlank {sector : Nat} (bound : sector ≤ 2 ^ 31) (addr : Nat)
    (s : StubState W D S C) : (sectorIsBlank env addr sector).Terminates s := by
  have chunk : blankChunkSize = 4096 := rfl
  refine Prog.terminates_loop (fun _ _ => True) (fun off _ => sector - off) ?_ trivial
  intro off t _
  by_cases more : off < sector
  · have next : (off + blankChunkSize) % 2 ^ 32 = off + blankChunkSize := by omega
    rw [if_pos more]
    simp only [Stub.flashReadBuff, Prog.returns_act_bind]
    cases (env.lib.flashReadBuff ((addr + off) % 2 ^ 32) (min (sector - off) blankChunkSize)
      t.world).1 with
    | none => exact ⟨_, _, (Prog.returns_pure _ _ _ _).mpr ⟨rfl, rfl⟩, by simp⟩
    | some bytes =>
      dsimp only
      split_ifs
      · refine ⟨_, _, (Prog.returns_pure _ _ _ _).mpr ⟨rfl, rfl⟩, fun off' h => ⟨trivial, ?_⟩⟩
        obtain rfl := Sum.inl.inj h
        omega
      · exact ⟨_, _, (Prog.returns_pure _ _ _ _).mpr ⟨rfl, rfl⟩, by simp⟩
  · rw [if_neg more]
    exact ⟨_, _, (Prog.returns_pure _ _ _ _).mpr ⟨rfl, rfl⟩, by simp⟩

theorem terminates_startErase (s : StubState W D S C) : (startErase env).Terminates s := by
  refine (Prog.terminates_act _ s).bind fun _ t _ => (Prog.terminates_act _ t).bind fun _ u _ =>
    (Prog.terminates_act _ u).bind fun _ v _ => ?_
  split_ifs <;> exact Prog.terminates_pure _ v

theorem terminates_conditionalEraseNext
    (bound : ∀ w, (env.lib.flashGetConfig w).sectorSize ≤ 2 ^ 31) (s : StubState W D S C) :
    (conditionalEraseNext env).Terminates s := by
  refine (Prog.terminates_act _ s).bind fun _ t _ => ?_
  split_ifs
  · exact Prog.terminates_pure _ t
  · exact terminates_startErase env t
  · refine (terminates_sectorIsBlank env (bound _) _ t).bind fun r u _ => ?_
    dsimp only
    split_ifs
    · exact Prog.terminates_pure _ u
    · exact (Prog.terminates_act _ u).bind fun _ v _ => Prog.terminates_pure _ v
    · exact (Prog.terminates_act _ u).bind fun _ v _ => terminates_startErase env v

/-- One step of erasing ahead either lowers the remaining size or was an erase
call, made in the world `w`, that changed nothing. -/
def Progress (lib : StubLib W) (s t : StubState W D S C) : Prop :=
  t.flash.eraseRemaining < s.flash.eraseRemaining ∨
    t.flash.eraseRemaining = s.flash.eraseRemaining ∧
      t.flash.nextEraseAddr = s.flash.nextEraseAddr ∧ t.dirtySeen = true ∧
      ∃ w, (s.dirtySeen = true → w = s.world) ∧
        (lib.flashStartNextErase s.flash.nextEraseAddr s.flash.eraseRemaining w).1.addr =
          s.flash.nextEraseAddr ∧
        t.world = (lib.flashStartNextErase s.flash.nextEraseAddr s.flash.eraseRemaining w).2

theorem ensures_startErase_progress {sector : Nat} (contract : FlashContract env.lib sector)
    {s : StubState W D S C} (aligned : s.Aligned sector) (dirty : s.dirtySeen = true)
    {always : StubState W D S C → Prop} :
    (startErase env).Ensures s always fun _ t => Progress env.lib s t := by
  refine Prog.Ensures.bind (Prog.Ensures.get (Prog.Ensures.bind (Prog.Ensures.act
    (Prog.Ensures.bind (Prog.Ensures.modify ?_)))))
  obtain ⟨k, moved, left⟩ := contract.nextErase _ _ s.world aligned.next aligned.remaining
    aligned.bound
  have pos := contract.pos
  have progress (t : StubState W D S C)
      (next : t.flash.nextEraseAddr = (env.lib.flashStartNextErase s.flash.nextEraseAddr
        s.flash.eraseRemaining s.world).1.addr)
      (remaining : t.flash.eraseRemaining = (env.lib.flashStartNextErase s.flash.nextEraseAddr
        s.flash.eraseRemaining s.world).1.remaining)
      (dirty' : t.dirtySeen = true)
      (world : t.world = (env.lib.flashStartNextErase s.flash.nextEraseAddr
        s.flash.eraseRemaining s.world).2) : Progress env.lib s t := by
    rw [moved] at next
    obtain rfl | some := Nat.eq_zero_or_pos k
    · rw [Nat.zero_mul, Nat.add_zero] at moved next left
      exact .inr ⟨remaining.trans left, next, dirty', s.world, fun _ => rfl, moved, world⟩
    · have := Nat.mul_pos some pos
      exact .inl (by omega)
  dsimp only
  split_ifs <;> exact Prog.Ensures.pure (progress _ rfl rfl dirty rfl)

theorem ensures_conditionalEraseNext_progress {sector : Nat}
    (contract : FlashContract env.lib sector) {s : StubState W D S C}
    (aligned : s.Aligned sector) (some : s.flash.eraseRemaining ≠ 0) :
    (conditionalEraseNext env).Ensures s (EraseAhead env.lib False s) fun r t =>
      r = responseSuccess → Progress env.lib s t := by
  refine Prog.Ensures.bind (Prog.Ensures.get ?_)
  dsimp only
  rw [if_neg some]
  split_ifs with dirty
  · exact (ensures_startErase_progress env contract aligned dirty).post fun _ _ h _ => h
  · refine Prog.Ensures.bind ((ensures_sectorIsBlank env _ _ s).post fun r t checked => ?_)
    obtain ⟨w, tr, rfl, reads, -⟩ := checked
    split_ifs with failed clear
    · exact Prog.Ensures.pure fun good => absurd good failed
    · refine Prog.Ensures.bind (Prog.Ensures.modify (Prog.Ensures.pure fun _ => .inl ?_))
      have pos := contract.pos
      have whole : 0 + sector ≤ s.flash.eraseRemaining :=
        add_sector_le (Nat.zero_mod _) aligned.remaining (Nat.pos_of_ne_zero some)
      have bound := aligned.bound
      change sub32 s.flash.eraseRemaining (min s.flash.eraseRemaining
        (env.lib.flashGetConfig s.world).sectorSize) < s.flash.eraseRemaining
      rw [contract.config, min_eq_right (by omega), sub32_of_le (by omega) (by omega)]
      omega
    · refine Prog.Ensures.bind (Prog.Ensures.modify ?_)
      have same : (s.erased s.flash.nextEraseAddr s.flash.eraseRemaining true w tr).Aligned sector :=
        aligned.of_eq rfl rfl
      refine (ensures_startErase_progress env contract same rfl).post fun r t progress _ => ?_
      obtain less | ⟨same, next, dirty', w', -, still, world⟩ := progress
      · exact .inl less
      · exact .inr ⟨same, next, dirty', w', fun h => absurd h dirty, still, world⟩

theorem terminates_ensure_next {target : Nat} {s : StubState W D S C}
    (step : (conditionalEraseNext env).Terminates s)
    (next : s.flash.nextEraseAddr < target → ∀ t,
      (conditionalEraseNext env).Returns s responseSuccess t →
      (ensureFlashErasedTo env target).Terminates t) :
    (ensureFlashErasedTo env target).Terminates s := by
  by_cases below : s.flash.nextEraseAddr < target
  · obtain ⟨r, t, run⟩ := step
    by_cases good : r = responseSuccess
    · rw [good] at run
      obtain ⟨a, u, rest⟩ := next below t run
      refine ⟨a, u, (Prog.returns_loop _ _ _ _ _).mpr (.inr ⟨(), t, ?_, rest⟩)⟩
      rw [Prog.returns_get_bind, if_pos below, Prog.returns_bind]
      exact ⟨_, t, run, by simp⟩
    · refine ⟨r, t, (Prog.returns_loop _ _ _ _ _).mpr (.inl ?_)⟩
      rw [Prog.returns_get_bind, if_pos below, Prog.returns_bind]
      exact ⟨r, t, run, by simp [good]⟩
  · refine ⟨responseSuccess, s, (Prog.returns_loop _ _ _ _ _).mpr (.inl ?_)⟩
    rw [Prog.returns_get_bind, if_neg below, Prog.returns_pure]
    exact ⟨rfl, rfl⟩

section Terminating

variable {sector target : Nat} {s : StubState W D S C}

def WithinReach (sector target : Nat) (s : StubState W D S C) : Prop :=
  s.Aligned sector ∧ target ≤ s.flash.nextEraseAddr + s.flash.eraseRemaining

theorem terminates_ensure_progress (contract : FlashContract env.lib sector)
    (within : WithinReach sector target s)
    (rest : ∀ t, s.flash.eraseRemaining ≠ 0 → WithinReach sector target t →
      Progress env.lib s t → (ensureFlashErasedTo env target).Terminates t) :
    (ensureFlashErasedTo env target).Terminates s := by
  obtain ⟨aligned, inside⟩ := within
  have bound (w : W) : (env.lib.flashGetConfig w).sectorSize ≤ 2 ^ 31 := by
    rw [contract.config]
    exact contract.le
  refine terminates_ensure_next env (terminates_conditionalEraseNext env bound s) ?_
  intro below t run
  have some : s.flash.eraseRemaining ≠ 0 := by omega
  have ahead := (ensures_conditionalEraseNext env s).2 responseSuccess t run
  have progress := (ensures_conditionalEraseNext_progress env contract aligned some).2
    responseSuccess t run rfl
  refine rest t some ⟨ahead.aligned contract aligned, ?_⟩ progress
  obtain ⟨n, r, d, w, tr, rfl, -, -, advance⟩ := ahead
  have sum := (advance sector contract aligned).sum
  simp only [StubState.erased]
  omega

/-- At a dirty sector each call starts where the one before left the flash, so the
`n`-th of them moves on. -/
theorem terminates_ensure_dirty (contract : FlashContract env.lib sector) {left : Nat}
    (shorter : ∀ t : StubState W D S C, WithinReach sector target t →
      t.flash.eraseRemaining < left → (ensureFlashErasedTo env target).Terminates t) (n : Nat)
    (within : WithinReach sector target s) (same : s.flash.eraseRemaining = left)
    (dirty : s.dirtySeen = true)
    (moves : (env.lib.flashStartNextErase s.flash.nextEraseAddr s.flash.eraseRemaining
      ((fun w => (env.lib.flashStartNextErase s.flash.nextEraseAddr
        s.flash.eraseRemaining w).2)^[n] s.world)).1.addr ≠ s.flash.nextEraseAddr) :
    (ensureFlashErasedTo env target).Terminates s := by
  induction n generalizing s with
  | zero =>
    refine terminates_ensure_progress env contract within fun t _ withinT progress => ?_
    obtain less | ⟨-, -, -, w, here, still, -⟩ := progress
    · exact shorter t withinT (same ▸ less)
    · rw [here dirty] at still
      exact absurd still moves
  | succ n ih =>
    refine terminates_ensure_progress env contract within fun t _ withinT progress => ?_
    obtain less | ⟨stalled, next, dirtyT, w, here, -, world⟩ := progress
    · exact shorter t withinT (same ▸ less)
    · rw [here dirty] at world
      refine ih withinT (stalled.trans same) dirtyT ?_
      rw [Function.iterate_succ_apply, ← world] at moves
      rw [stalled, next]
      exact moves

theorem terminates_ensureFlashErasedTo (contract : FlashContract env.lib sector)
    (advances : env.lib.EventuallyAdvances sector) (aligned : s.Aligned sector)
    (inside : target ≤ s.flash.nextEraseAddr + s.flash.eraseRemaining) :
    (ensureFlashErasedTo env target).Terminates s := by
  induction left : s.flash.eraseRemaining using Nat.strong_induction_on generalizing s with
  | _ left ih =>
    subst left
    have shorter (t : StubState W D S C) (withinT : WithinReach sector target t)
        (less : t.flash.eraseRemaining < s.flash.eraseRemaining) :
        (ensureFlashErasedTo env target).Terminates t := ih _ less withinT.1 withinT.2 rfl
    refine terminates_ensure_progress env contract ⟨aligned, inside⟩ fun t some withinT progress => ?_
    obtain less | ⟨same, next, dirty, -⟩ := progress
    · exact shorter t withinT less
    · -- the calls at `t` stall, but not for ever
      have alignedT := withinT.1
      obtain ⟨n, moves⟩ := advances _ _ t.world alignedT.next alignedT.remaining alignedT.bound
        (by rw [same]; exact some)
      exact terminates_ensure_dirty env contract shorter n withinT same dirty moves

end Terminating

def StubLib.NeverFails (lib : StubLib W) : Prop :=
  (∀ addr size w, (lib.flashReadBuff addr size w).1 ≠ none) ∧
    ∀ addr remaining w, (lib.flashStartNextErase addr remaining w).1.result = .ok ∨
      (lib.flashStartNextErase addr remaining w).1.result = .errTimeout

theorem ensures_conditionalEraseNext_success (never : env.lib.NeverFails) (s : StubState W D S C) :
    (conditionalEraseNext env).Ensures s (fun _ => True) fun r _ => r = responseSuccess := by
  have started (t : StubState W D S C) :
      (startErase env).Ensures t (fun _ => True) fun r _ => r = responseSuccess := by
    refine Prog.Ensures.bind (Prog.Ensures.get (Prog.Ensures.bind (Prog.Ensures.act
      (Prog.Ensures.bind (Prog.Ensures.modify ?_)))))
    have fine := never.2 t.flash.nextEraseAddr t.flash.eraseRemaining t.world
    dsimp only
    split_ifs with failed
    · exact absurd fine (not_or.mpr failed)
    · exact Prog.Ensures.pure rfl
  have checked (addr sector : Nat) :
      (sectorIsBlank env addr sector).Ensures s (fun _ => True)
        fun r _ => r.1 = responseSuccess := by
    refine Prog.Ensures.loop (fun _ _ => True) (fun _ _ _ => trivial) (fun off t _ => ?_) trivial
    split_ifs
    · refine Prog.Ensures.bind (Prog.Ensures.act ?_)
      have some := never.1 ((addr + off) % 2 ^ 32) (min (sector - off) blankChunkSize) t.world
      cases read : (env.lib.flashReadBuff ((addr + off) % 2 ^ 32)
        (min (sector - off) blankChunkSize) t.world).1 with
      | none => exact absurd read some
      | some bytes =>
        dsimp only
        rw [read]
        split_ifs
        · exact Prog.Ensures.pure trivial
        · exact Prog.Ensures.pure rfl
    · exact Prog.Ensures.pure rfl
  refine Prog.Ensures.bind (Prog.Ensures.get ?_)
  dsimp only
  split_ifs
  · exact Prog.Ensures.pure rfl
  · exact started s
  · refine Prog.Ensures.bind ((checked _ _).post fun r t good => ?_)
    rw [if_neg (not_not.mpr good)]
    split_ifs
    · exact Prog.Ensures.bind (Prog.Ensures.modify (Prog.Ensures.pure rfl))
    · exact Prog.Ensures.bind (Prog.Ensures.modify (started _))

theorem ensures_ensureFlashErasedTo_success (never : env.lib.NeverFails) (target : Nat)
    (s : StubState W D S C) :
    (ensureFlashErasedTo env target).Ensures s (fun _ => True) fun r _ => r = responseSuccess := by
  refine Prog.Ensures.loop (fun _ _ => True) (fun _ _ _ => trivial) (fun _ u _ => ?_) trivial
  refine Prog.Ensures.bind (Prog.Ensures.get ?_)
  split_ifs
  · refine Prog.Ensures.bind ((ensures_conditionalEraseNext_success env never u).post
      fun r v good => ?_)
    rw [if_neg (not_not.mpr good)]
    exact Prog.Ensures.pure trivial
  · exact Prog.Ensures.pure rfl

/-- Beyond the region the loop does not end: nothing is left to erase. -/
theorem not_terminates_ensureFlashErasedTo {sector : Nat} (contract : FlashContract env.lib sector)
    (never : env.lib.NeverFails) {target : Nat} {s : StubState W D S C}
    (aligned : s.Aligned sector)
    (beyond : s.flash.nextEraseAddr + s.flash.eraseRemaining < target) :
    ¬ (ensureFlashErasedTo env target).Terminates s := by
  intro ⟨r, t, run⟩
  obtain ⟨ahead, reached⟩ := (ensures_ensureFlashErasedTo env target s).2 r t run
  have reached := reached ((ensures_ensureFlashErasedTo_success env never target s).2 r t run)
  obtain ⟨n, q, d, w, tr, rfl, -, -, advance⟩ := ahead
  have sum := (advance sector contract aligned).sum
  have passed : target ≤ n := reached
  omega

def RegionInv (sector regionEnd : Nat) (s : StubState W D S C) : Prop :=
  s.Aligned sector ∧ s.flash.nextEraseAddr + s.flash.eraseRemaining = regionEnd

theorem RegionInv.ahead {lib : StubLib W} {sector regionEnd : Nat} {ok : Prop}
    (contract : FlashContract lib sector) {s t : StubState W D S C}
    (inv : RegionInv sector regionEnd s) (ahead : EraseAhead lib ok s t) :
    RegionInv sector regionEnd t := by
  refine ⟨ahead.aligned contract inv.1, ?_⟩
  obtain ⟨_, _, _, _, _, rfl, -, -, advance⟩ := ahead
  exact (advance sector contract inv.1).sum.trans inv.2

theorem RegionInv.of_eq {sector regionEnd : Nat} {s t : StubState W D S C}
    (inv : RegionInv sector regionEnd s) (next : t.flash.nextEraseAddr = s.flash.nextEraseAddr)
    (remaining : t.flash.eraseRemaining = s.flash.eraseRemaining) :
    RegionInv sector regionEnd t :=
  ⟨inv.1.of_eq next remaining, by rw [next, remaining, inv.2]⟩

theorem regionInv_step {lib : StubLib W} {sector regionEnd : Nat}
    (contract : FlashContract lib sector) {s t : StubState W D S C}
    (inv : RegionInv sector regionEnd s) (step : SessionStep lib s t) :
    RegionInv sector regionEnd t := by
  cases step with
  | quiet quiet => exact inv.of_eq quiet.nextEraseAddr quiet.eraseRemaining
  | erase ahead => exact inv.ahead contract ahead
  | @write data r t outcome =>
    have asked : RegionInv sector regionEnd (s.requested data) := inv.of_eq rfl rfl
    cases outcome with
    | stopped error ahead => exact asked.ahead contract ahead
    | failed w ahead => exact (asked.ahead contract ahead).of_eq rfl rfl
    | written w ahead =>
      exact (asked.ahead contract ahead).of_eq (programmed_nextEraseAddr _ _ _)
        (programmed_eraseRemaining _ _ _)

/-- In every state of a session, the erase loop of a write of `size` bytes ends if
the write ends inside the region that BEGIN rounded to sectors, and, with no
failing flash operation, only then. -/
theorem session_erase_terminates {sector : Nat} (contract : FlashContract env.lib sector)
    (advances : env.lib.EventuallyAdvances sector) {f : Frame} (begins : f.Begins)
    (inChip : f.ctx.regionEnd sector < 2 ^ 32) {frames : List Frame}
    (data : ∀ g ∈ frames, g.IsData) {s₀ : StubState W D S C}
    (clear : s₀.accumulatedResult = responseSuccess) (idle : s₀.pendingPostProcess = none)
    {t : StubState W D S C} (run : (serve env (f :: frames)).Reaches s₀ t) (size : Nat) :
    ((t.flash.offset + size) % 2 ^ 32 ≤ f.ctx.regionEnd sector →
      (t.flash.nextEraseAddr < (t.flash.offset + size) % 2 ^ 32 → t.flash.eraseRemaining ≠ 0) ∧
      (ensureFlashErasedTo env ((t.flash.offset + size) % 2 ^ 32)).Terminates t) ∧
    (env.lib.NeverFails → f.ctx.regionEnd sector < (t.flash.offset + size) % 2 ^ 32 →
      ¬ (ensureFlashErasedTo env ((t.flash.offset + size) % 2 ^ 32)).Terminates t) := by
  obtain ⟨aligned, -, sum⟩ := begun_aligned env contract inChip s₀
  have start : RegionInv sector (f.ctx.regionEnd sector) (f.begun env s₀) := ⟨aligned, sum⟩
  obtain ⟨aligned, sum⟩ := (session_steps env begins data clear idle run).invariant start
    fun s t => regionInv_step contract
  refine ⟨fun inside => ⟨fun below => by omega, ?_⟩, fun never beyond => ?_⟩
  · exact terminates_ensureFlashErasedTo env contract advances aligned (by omega)
  · exact not_terminates_ensureFlashErasedTo env contract never aligned (by omega)

theorem simLib_eventuallyAdvances {sector : Nat} (pos : 0 < sector) :
    (simLib sector).EventuallyAdvances sector := by
  intro addr remaining w _ aligned _ some
  have whole := add_sector_le (Nat.zero_mod sector) aligned (Nat.pos_of_ne_zero some)
  refine ⟨0, ?_⟩
  simp only [simLib]
  rw [if_neg (by omega)]
  simp only
  omega

theorem simLib_neverFails (sector : Nat) : (simLib sector).NeverFails := by
  refine ⟨fun _ _ _ => Option.some_ne_none _, fun addr remaining w => .inl ?_⟩
  simp only [simLib]
  split_ifs <;> rfl

/-- A block that crosses from one sector into the next, and one that goes on behind it. -/
theorem session_erase_terminates_two_blocks :
    ∃ t, (serve (simPlatform 4 []) [beginFrame espFlashBegin 10 0,
        dataFrame espFlashData 0 [1, 2, 3, 4, 5, 6], dataFrame espFlashData 1 [7, 8, 9]]).Returns
          (simStart fun _ => 0) () t ∧
      t.flash.offset = 9 ∧
      (ensureFlashErasedTo (simPlatform 4 []) ((t.flash.offset + 3) % 2 ^ 32)).Terminates t := by
  obtain ⟨t, run, offset⟩ : ∃ t, (serve (simPlatform 4 []) [beginFrame espFlashBegin 10 0,
      dataFrame espFlashData 0 [1, 2, 3, 4, 5, 6], dataFrame espFlashData 1 [7, 8, 9]]).Returns
        (simStart fun _ => 0) () t ∧ t.flash.offset = 9 := ⟨_, ⟨20, _, rfl⟩, rfl⟩
  have begins : (beginFrame espFlashBegin 10 0).Begins := ⟨⟨rfl, rfl⟩, .inl rfl, .inl rfl⟩
  have ends := session_erase_terminates (simPlatform 4 []) (simLib_contract (k := 2) (by decide))
    (simLib_eventuallyAdvances (by decide)) begins (by decide)
    (List.forall_mem_cons.mpr ⟨.inl rfl, List.forall_mem_singleton.mpr (.inl rfl)⟩) rfl rfl
    (.inr ⟨(), run⟩) 3
  exact ⟨t, run, offset, (ends.1 (by rw [offset]; decide)).2⟩

/-- An inflated block that ends beyond the region: nothing is left to erase, and
the loop that waits for it does not end. -/
theorem session_erase_hangs :
    ∃ t, (serve (simPlatform 4 [(.done, 1, [1, 2, 3, 4, 5])])
        [beginFrame espFlashDeflBegin 1 0, dataFrame espFlashDeflData 0 [7]]).Visits
          (simStart fun _ => 0) t ∧
      t.sent = [responseFrame espFlashDeflBegin responseSuccess (some {}),
        responseFrame espFlashDeflData responseSuccess (some {})] ∧
      t.trace.getLast? = some (.request 0 5 1) ∧
      t.flash.nextEraseAddr < (0 + 5) % 2 ^ 32 ∧ t.flash.eraseRemaining = 0 ∧
      ¬ (ensureFlashErasedTo (simPlatform 4 [(.done, 1, [1, 2, 3, 4, 5])])
        ((0 + 5) % 2 ^ 32)).Terminates t := by
  obtain ⟨t, run, sent, last, next, left⟩ : ∃ t,
      (serve (simPlatform 4 [(.done, 1, [1, 2, 3, 4, 5])])
        [beginFrame espFlashDeflBegin 1 0, dataFrame espFlashDeflData 0 [7]]).Visits
          (simStart fun _ => 0) t ∧
      t.sent = [responseFrame espFlashDeflBegin responseSuccess (some {}),
        responseFrame espFlashDeflData responseSuccess (some {})] ∧
      t.trace.getLast? = some (.request 0 5 1) ∧ t.flash.nextEraseAddr = 4 ∧
      t.flash.eraseRemaining = 0 := ⟨_, ⟨20, rfl⟩, rfl, rfl, rfl, rfl⟩
  refine ⟨t, run, sent, last, by omega, left, ?_⟩
  have contract := simLib_contract (k := 2) (by decide)
  exact not_terminates_ensureFlashErasedTo _ contract (simLib_neverFails _)
    ⟨by simp [next], by simp [left], by omega⟩ (by omega)
end FlasherStub
