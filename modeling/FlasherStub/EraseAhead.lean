import FlasherStub.Flash
import FlasherStub.Lib.Nor

/-! Erasing ahead of the write position. `s_conditional_erase_next` moves
`next_erase_addr` up, over sectors it read back as blank or started to erase,
and `erase_remaining` down by as much. -/

namespace FlasherStub

open ByteMemory Budget

variable {W D H S C : Type} (env : Platform W D H S C)

/-- What `esp-stub-lib` promises for a sector size: the configuration does not
change, the macros round, and a started erase advances by whole sectors within
the remaining size or changes nothing. -/
structure FlashContract (lib : StubLib W) (sector : Nat) : Prop where
  config : ∀ w, (lib.flashGetConfig w).sectorSize = sector
  power : ∃ k < 32, sector = 2 ^ k
  alignDown : ∀ a, lib.alignDown a sector = a / sector * sector
  alignUp : ∀ a, a + (sector - 1) < 2 ^ 32 →
    lib.alignUp a sector = (a + (sector - 1)) / sector * sector
  nextErase : ∀ addr remaining w, addr % sector = 0 → remaining % sector = 0 →
    addr + remaining < 2 ^ 32 →
    ∃ k, (lib.flashStartNextErase addr remaining w).1.addr = addr + k * sector ∧
      (lib.flashStartNextErase addr remaining w).1.remaining + k * sector = remaining

namespace Event

def IsRead : Event → Prop
  | .read _ _ _ => True
  | _ => False

def IsEraseStep : Event → Prop
  | .read _ _ _ | .erase _ _ _ => True
  | _ => False

def Failed : Event → Prop
  | .read _ _ result => result = none
  | .erase _ _ result => result ≠ .ok ∧ result ≠ .errTimeout
  | .program _ _ _ ok => ok = false
  | _ => False

def ReadsBlank (a : Nat) : Event → Prop
  | .read addr _ (some bytes) => addr ≤ a ∧ bytes[a - addr]? = some 0xFF
  | _ => False

/-- An erase that advanced over the bytes from `first` up to `next`. -/
def Covers (first next : Nat) : Event → Prop
  | .erase from_ to_ _ => from_ ≤ first ∧ next ≤ to_
  | _ => False

end Event

/-- The sector at `b` was erased or read back entirely as `0xFF`. -/
def SectorCleared (sector : Nat) (tr : List Event) (b : Nat) : Prop :=
  (∃ e ∈ tr, e.Covers b (b + sector)) ∨ ∀ a, b ≤ a → a < b + sector → ∃ e ∈ tr, e.ReadsBlank a

theorem SectorCleared.mono {sector b : Nat} {tr tr' : List Event} (h : SectorCleared sector tr b)
    (sub : ∀ e ∈ tr, e ∈ tr') : SectorCleared sector tr' b := by
  obtain ⟨e, he, covers⟩ | blank := h
  · exact .inl ⟨e, sub e he, covers⟩
  · refine .inr fun a le lt => ?_
    obtain ⟨e, he, reads⟩ := blank a le lt
    exact ⟨e, sub e he, reads⟩

def StubState.erased (s : StubState W D S C) (next remaining : Nat) (dirty : Bool) (w : W)
    (tr : List Event) : StubState W D S C :=
  { s with
    flash := { s.flash with nextEraseAddr := next, eraseRemaining := remaining }
    dirtySeen := dirty
    world := w
    trace := s.trace ++ tr }

theorem StubState.erased_erased (s : StubState W D S C) (n r : Nat) (d : Bool) (w : W)
    (tr : List Event) (n' r' : Nat) (d' : Bool) (w' : W) (tr' : List Event) :
    (s.erased n r d w tr).erased n' r' d' w' tr' = s.erased n' r' d' w' (tr ++ tr') := by
  simp [StubState.erased]

structure StubState.Aligned (s : StubState W D S C) (sector : Nat) : Prop where
  next : s.flash.nextEraseAddr % sector = 0
  remaining : s.flash.eraseRemaining % sector = 0
  bound : s.flash.nextEraseAddr + s.flash.eraseRemaining < 2 ^ 32

theorem StubState.Aligned.of_eq {s t : StubState W D S C} {sector : Nat} (h : s.Aligned sector)
    (next : t.flash.nextEraseAddr = s.flash.nextEraseAddr)
    (remaining : t.flash.eraseRemaining = s.flash.eraseRemaining) : t.Aligned sector where
  next := by rw [next, h.next]
  remaining := by rw [remaining, h.remaining]
  bound := by
    rw [next, remaining]
    exact h.bound

/-- The counters moved from `first` to `next` by whole sectors, all of them
cleared in `tr` by operations within these bounds. -/
structure Advance (sector first remaining next remaining' : Nat) (tr : List Event) : Prop where
  sum : next + remaining' = first + remaining
  le : first ≤ next
  aligned : next % sector = 0
  range : ∀ a b r, .erase a b r ∈ tr → first ≤ a ∧ b ≤ next
  cleared : 4 ∣ sector → ∀ b, b % sector = 0 → first ≤ b → b < next → SectorCleared sector tr b

theorem Advance.refl {sector first remaining : Nat} (aligned : first % sector = 0) {tr : List Event}
    (reads : ∀ e ∈ tr, e.IsRead) : Advance sector first remaining first remaining tr where
  sum := rfl
  le := le_rfl
  aligned := aligned
  range _ _ _ h := (reads _ h).elim
  cleared _ _ _ le lt := absurd lt (not_lt.mpr le)

theorem Advance.trans {sector f r m q n p : Nat} {tr tr' : List Event}
    (h : Advance sector f r m q tr) (h' : Advance sector m q n p tr') :
    Advance sector f r n p (tr ++ tr') where
  sum := h'.sum.trans h.sum
  le := h.le.trans h'.le
  aligned := h'.aligned
  range a b x he := by
    have le := h.le
    have le' := h'.le
    obtain he | he := List.mem_append.mp he
    · have := h.range a b x he
      omega
    · have := h'.range a b x he
      omega
  cleared four b hb le lt := by
    by_cases early : b < m
    · exact (h.cleared four b hb le early).mono fun e he => List.mem_append_left _ he
    · exact (h'.cleared four b hb (not_lt.mp early) lt).mono fun e he => List.mem_append_right _ he

/-- The effect of erasing ahead, with no failed operation if `ok`. The contract
is needed for the way the counters move, not for what stays as it is. -/
def EraseAhead (lib : StubLib W) (ok : Prop) (s t : StubState W D S C) : Prop :=
  ∃ next remaining dirty w tr, t = s.erased next remaining dirty w tr ∧
    (∀ e ∈ tr, e.IsEraseStep) ∧ (ok → ∀ e ∈ tr, ¬ e.Failed) ∧
    ∀ sector, FlashContract lib sector → s.Aligned sector →
      Advance sector s.flash.nextEraseAddr s.flash.eraseRemaining next remaining tr

namespace EraseAhead

variable {lib : StubLib W} {s t u : StubState W D S C} {ok ok' : Prop}

theorem mono (h : EraseAhead lib ok s t) (imp : ok' → ok) : EraseAhead lib ok' s t := by
  obtain ⟨next, remaining, dirty, w, tr, rfl, only, fine, advance⟩ := h
  exact ⟨next, remaining, dirty, w, tr, rfl, only, fun h => fine (imp h), advance⟩

theorem of_reads (s : StubState W D S C) {dirty : Bool} {w : W} {tr : List Event}
    (reads : ∀ e ∈ tr, e.IsRead) (fine : ok → ∀ e ∈ tr, ¬ e.Failed) :
    EraseAhead lib ok s
      (s.erased s.flash.nextEraseAddr s.flash.eraseRemaining dirty w tr) := by
  refine ⟨_, _, dirty, w, tr, rfl, fun e he => ?_, fine, fun sector _ aligned =>
    Advance.refl aligned.next reads⟩
  have := reads e he
  cases e <;> trivial

theorem refl (s : StubState W D S C) : EraseAhead lib ok s s := by
  have same : s = s.erased s.flash.nextEraseAddr s.flash.eraseRemaining s.dirtySeen s.world [] := by
    simp [StubState.erased]
  have h : EraseAhead lib ok s (s.erased s.flash.nextEraseAddr s.flash.eraseRemaining s.dirtySeen
      s.world []) := of_reads s (by simp) (by simp)
  rwa [← same] at h

theorem aligned (h : EraseAhead lib ok s t) {sector : Nat} (contract : FlashContract lib sector)
    (aligned : s.Aligned sector) : t.Aligned sector := by
  obtain ⟨next, remaining, dirty, w, tr, rfl, -, -, advance⟩ := h
  have moved := advance sector contract aligned
  have sum := moved.sum
  refine ⟨moved.aligned, ?_, ?_⟩
  · have whole : (next + remaining) % sector = 0 := by
      rw [sum, Nat.add_mod, aligned.next, aligned.remaining, Nat.zero_add, Nat.zero_mod]
    rwa [Nat.add_mod, moved.aligned, Nat.zero_add, Nat.mod_mod] at whole
  · have := aligned.bound
    simp only [StubState.erased]
    omega

theorem trans (h : EraseAhead lib True s t) (h' : EraseAhead lib ok t u) :
    EraseAhead lib ok s u := by
  have aligned' : ∀ sector, FlashContract lib sector → s.Aligned sector → t.Aligned sector :=
    fun _ contract => h.aligned contract
  obtain ⟨n, r, d, w, tr, rfl, only, fine, advance⟩ := h
  obtain ⟨n', r', d', w', tr', rfl, only', fine', advance'⟩ := h'
  refine ⟨n', r', d', w', tr ++ tr', StubState.erased_erased _ _ _ _ _ _ _ _ _ _ _, ?_, ?_, ?_⟩
  · exact List.forall_mem_append.mpr ⟨only, only'⟩
  · exact fun h => List.forall_mem_append.mpr ⟨fine trivial, fine' h⟩
  · exact fun sector contract aligned => (advance sector contract aligned).trans
      (advance' sector contract (aligned' sector contract aligned))

end EraseAhead

theorem getElem?_of_wordsBlank {bytes : List UInt8} {count i : Nat}
    (blank : wordsBlank bytes count = true) (hi : i < 4 * count) : bytes[i]? = some 0xFF := by
  have word := List.all_eq_true.mp blank (i / 4) (List.mem_range.mpr (by omega))
  have ones := getLeToU32_ones (beq_iff_eq.mp word) (Nat.mod_lt i (by omega))
  rw [Nat.div_add_mod, Memory.ofList] at ones
  by_cases inside : i < bytes.length
  · rw [List.getD_eq_getElem _ _ inside] at ones
    rw [List.getElem?_eq_getElem inside, ones]
  · rw [List.getD_eq_default _ _ (not_lt.mp inside)] at ones
    exact absurd ones (by decide)

/-- Sectors that the blank check can read without wrapping around. -/
def Checkable (sector addr : Nat) : Prop :=
  4 ∣ sector ∧ sector ≤ 2 ^ 31 ∧ addr + sector < 2 ^ 32

def BlankUpTo (tr : List Event) (addr sector off : Nat) : Prop :=
  ∀ a, addr ≤ a → a < addr + min off sector → ∃ e ∈ tr, e.ReadsBlank a

def BlankSoFar (s : StubState W D S C) (addr sector off : Nat) (t : StubState W D S C) : Prop :=
  ∃ w tr, t = s.erased s.flash.nextEraseAddr s.flash.eraseRemaining s.dirtySeen w tr ∧
    (∀ e ∈ tr, e.IsRead ∧ ¬ e.Failed) ∧
    (Checkable sector addr → off % 4 = 0 ∧ off ≤ sector + 4096 ∧ BlankUpTo tr addr sector off)

def BlankChecked (s : StubState W D S C) (addr sector : Nat) (r : Int × Bool)
    (t : StubState W D S C) : Prop :=
  ∃ w tr, t = s.erased s.flash.nextEraseAddr s.flash.eraseRemaining s.dirtySeen w tr ∧
    (∀ e ∈ tr, e.IsRead) ∧ (r.1 = responseSuccess → ∀ e ∈ tr, ¬ e.Failed) ∧
    (r = (responseSuccess, true) → Checkable sector addr → BlankUpTo tr addr sector sector)

theorem blankUpTo_add {tr : List Event} {addr sector off size : Nat} {bytes : List UInt8}
    (check : Checkable sector addr) (off4 : off % 4 = 0) (more : off < sector)
    (done : BlankUpTo tr addr sector off)
    (blank : wordsBlank bytes (min (sector - off) blankChunkSize / 4) = true) :
    BlankUpTo (tr ++ [.read ((addr + off) % 2 ^ 32) size (some bytes)]) addr sector
      (off + blankChunkSize) := by
  have chunk : blankChunkSize = 4096 := rfl
  obtain ⟨four, -, bound⟩ := check
  have start : (addr + off) % 2 ^ 32 = addr + off := by omega
  intro a le lt
  by_cases old : a < addr + off
  · obtain ⟨e, he, reads⟩ := done a le (by omega)
    exact ⟨e, List.mem_append_left _ he, reads⟩
  · refine ⟨_, List.mem_append_right _ (List.mem_singleton.mpr rfl), ?_, ?_⟩
    · omega
    · rw [start]
      exact getElem?_of_wordsBlank blank (by omega)

theorem ensures_flashReadBuff {addr size : Nat} {s : StubState W D S C}
    {always : StubState W D S C → Prop} {post : Option (List UInt8) → StubState W D S C → Prop}
    (h : ∀ result w, post result (s.erased s.flash.nextEraseAddr s.flash.eraseRemaining s.dirtySeen
      w [.read addr size result])) :
    (Stub.flashReadBuff env addr size).Ensures s always post :=
  Prog.Ensures.act (h _ _)

theorem ensures_sectorIsBlank (addr sector : Nat) (s : StubState W D S C) :
    (sectorIsBlank env addr sector).Ensures s (EraseAhead env.lib False s)
      (BlankChecked s addr sector) := by
  refine Prog.Ensures.loop (BlankSoFar s addr sector) ?_ ?_ ?_
  · intro off t ⟨w, tr, ht, reads, _⟩
    rw [ht]
    exact EraseAhead.of_reads s (fun e he => (reads e he).1) False.elim
  · intro off t ⟨w, tr, ht, reads, cover⟩
    have only : ∀ e ∈ tr, e.IsRead := fun e he => (reads e he).1
    have fine : ∀ e ∈ tr, ¬ e.Failed := fun e he => (reads e he).2
    split_ifs with more
    · refine Prog.Ensures.bind (ensures_flashReadBuff env fun result w' => ?_)
      rw [ht, StubState.erased_erased]
      cases result with
      | none =>
        refine Prog.Ensures.pure ⟨w', _, rfl, ?_, fun h => absurd h (by decide),
          fun h => absurd (congrArg Prod.fst h) (by decide)⟩
        exact List.forall_mem_append.mpr ⟨only, by simp [Event.IsRead]⟩
      | some bytes =>
        have only' := List.forall_mem_append.mpr ⟨reads, List.forall_mem_singleton.mpr
          (⟨trivial, nofun⟩ : (Event.read ((addr + off) % 2 ^ 32)
            (min (sector - off) blankChunkSize) (some bytes)).IsRead ∧ _)⟩
        dsimp only
        split_ifs with blank
        · refine Prog.Ensures.pure ⟨w', _, rfl, only', fun check => ?_⟩
          obtain ⟨off4, le, done⟩ := cover check
          have chunk : blankChunkSize = 4096 := rfl
          have next : (off + blankChunkSize) % 2 ^ 32 = off + blankChunkSize := by
            have := check.2.1
            omega
          rw [next]
          exact ⟨by omega, by omega, blankUpTo_add check off4 more done blank⟩
        · exact Prog.Ensures.pure ⟨w', _, rfl, fun e he => (only' e he).1,
            fun _ e he => (only' e he).2, fun h => absurd (congrArg Prod.snd h) (by decide)⟩
    · refine Prog.Ensures.pure ⟨w, tr, ht, only, fun _ => fine, fun _ check => ?_⟩
      have done := (cover check).2.2
      rwa [BlankUpTo, min_eq_right (not_lt.mp more), ← min_self sector] at done
  · refine ⟨s.world, [], by simp [StubState.erased], by simp, fun _ => ⟨rfl, Nat.zero_le _, ?_⟩⟩
    intro a le lt
    omega

theorem FlashContract.pos {lib : StubLib W} {sector : Nat} (contract : FlashContract lib sector) :
    0 < sector := by
  obtain ⟨k, -, rfl⟩ := contract.power
  exact Nat.two_pow_pos k

theorem FlashContract.le {lib : StubLib W} {sector : Nat} (contract : FlashContract lib sector) :
    sector ≤ 2 ^ 31 := by
  obtain ⟨k, hk, rfl⟩ := contract.power
  exact Nat.pow_le_pow_right (by omega) (by omega)

theorem FlashContract.four_dvd {lib : StubLib W} {sector : Nat}
    (contract : FlashContract lib sector) (four : 4 ≤ sector) : 4 ∣ sector := by
  obtain ⟨k, -, rfl⟩ := contract.power
  exact (Nat.pow_dvd_pow_iff_le_right (x := 2) (k := 2) (by omega)).mpr
    ((Nat.pow_le_pow_iff_right (a := 2) (n := 2) (by omega)).mp four)

/-- Two multiples of the sector size that differ are a sector apart. -/
theorem add_sector_le {sector a b : Nat} (ha : a % sector = 0) (hb : b % sector = 0) (lt : a < b) :
    a + sector ≤ b := by
  obtain ⟨i, rfl⟩ := Nat.dvd_of_mod_eq_zero ha
  obtain ⟨j, rfl⟩ := Nat.dvd_of_mod_eq_zero hb
  have := Nat.lt_of_mul_lt_mul_left lt
  calc
    sector * i + sector = sector * (i + 1) := rfl
    _ ≤ sector * j := Nat.mul_le_mul_left _ this

theorem ensures_startErase (s : StubState W D S C) {always : StubState W D S C → Prop} :
    (startErase env).Ensures s always fun r t =>
      EraseAhead env.lib (r = responseSuccess) s t := by
  refine Prog.Ensures.bind (Prog.Ensures.get (Prog.Ensures.bind (Prog.Ensures.act
    (Prog.Ensures.bind (Prog.Ensures.modify ?_)))))
  generalize hnext : env.lib.flashStartNextErase s.flash.nextEraseAddr s.flash.eraseRemaining
    s.world = started
  obtain ⟨next, w⟩ := started
  have ahead (ok : Prop) (fine : ok → ¬ (next.result ≠ .ok ∧ next.result ≠ .errTimeout)) :
      EraseAhead env.lib ok s (s.erased next.addr next.remaining s.dirtySeen w
        [.erase s.flash.nextEraseAddr next.addr next.result]) := by
    refine ⟨_, _, _, _, _, rfl, by simp [Event.IsEraseStep], ?_, fun sector contract aligned => ?_⟩
    · exact fun h => List.forall_mem_singleton.mpr (fine h)
    · obtain ⟨k, moved, left⟩ := contract.nextErase _ _ s.world aligned.next aligned.remaining
        aligned.bound
      rw [hnext] at moved left
      simp only at moved left
      refine ⟨by omega, by omega, ?_, ?_, ?_⟩
      · rw [moved, Nat.add_mul_mod_self_right, aligned.next]
      · intro a b r he
        injection List.mem_singleton.mp he with h₁ h₂ _
        omega
      · intro _ b hb le lt
        refine .inl ⟨_, List.mem_singleton.mpr rfl, le, add_sector_le hb ?_ lt⟩
        rw [moved, Nat.add_mul_mod_self_right, aligned.next]
  dsimp only
  split_ifs with failed
  · exact Prog.Ensures.pure (ahead _ fun h => absurd h (by decide))
  · exact Prog.Ensures.pure (ahead _ fun _ => failed)

theorem eraseAhead_skip {s : StubState W D S C} (w : W) {tr : List Event}
    (some : s.flash.eraseRemaining ≠ 0) (reads : ∀ e ∈ tr, e.IsRead)
    (fine : ∀ e ∈ tr, ¬ e.Failed) (w₀ : W)
    (blank : Checkable (env.lib.flashGetConfig w₀).sectorSize s.flash.nextEraseAddr →
      BlankUpTo tr s.flash.nextEraseAddr (env.lib.flashGetConfig w₀).sectorSize
        (env.lib.flashGetConfig w₀).sectorSize) :
    EraseAhead env.lib True s
      (s.erased ((s.flash.nextEraseAddr + (env.lib.flashGetConfig w₀).sectorSize) % 2 ^ 32)
        (sub32 s.flash.eraseRemaining
          (min s.flash.eraseRemaining (env.lib.flashGetConfig w₀).sectorSize))
        s.dirtySeen w tr) := by
  refine ⟨_, _, _, _, _, rfl, ?_, fun _ => fine, fun sector contract aligned => ?_⟩
  · intro e he
    have := reads e he
    cases e <;> trivial
  · rw [contract.config] at blank ⊢
    have pos := contract.pos
    have whole : 0 + sector ≤ s.flash.eraseRemaining :=
      add_sector_le (Nat.zero_mod _) aligned.remaining (Nat.pos_of_ne_zero some)
    have bound := aligned.bound
    have step : (s.flash.nextEraseAddr + sector) % 2 ^ 32 = s.flash.nextEraseAddr + sector := by
      omega
    have left : sub32 s.flash.eraseRemaining (min s.flash.eraseRemaining sector) =
        s.flash.eraseRemaining - sector := by
      rw [min_eq_right (by omega), sub32_of_le (by omega) (by omega)]
    rw [step, left]
    have next : (s.flash.nextEraseAddr + sector) % sector = 0 := by
      rw [Nat.add_mod_right, aligned.next]
    refine ⟨by omega, by omega, next, ?_, ?_⟩
    · exact fun a b r he => (reads _ he).elim
    · intro four b hb le lt
      have := add_sector_le hb next lt
      obtain rfl : b = s.flash.nextEraseAddr := by omega
      have found := blank ⟨four, contract.le, by omega⟩
      rw [BlankUpTo, min_self] at found
      exact .inr found

theorem ensures_conditionalEraseNext (s : StubState W D S C) :
    (conditionalEraseNext env).Ensures s (EraseAhead env.lib False s) fun r t =>
      EraseAhead env.lib (r = responseSuccess) s t := by
  refine Prog.Ensures.bind (Prog.Ensures.get ?_)
  dsimp only
  split_ifs with none dirty
  · exact Prog.Ensures.pure (EraseAhead.refl s)
  · exact ensures_startErase env s
  · refine Prog.Ensures.bind ((ensures_sectorIsBlank env _ _ s).post fun r t checked => ?_)
    obtain ⟨w, tr, rfl, reads, fine, blank⟩ := checked
    split_ifs with failed clear
    · exact Prog.Ensures.pure ((EraseAhead.of_reads s reads fine).mono id)
    · refine Prog.Ensures.bind (Prog.Ensures.modify (Prog.Ensures.pure ?_))
      have good : r.1 = responseSuccess := not_not.mp failed
      have skipped :=
        eraseAhead_skip env w none reads (fine good) s.world (blank (Prod.ext good clear))
      exact skipped.mono fun _ => trivial
    · refine Prog.Ensures.bind (Prog.Ensures.modify ?_)
      have good : r.1 = responseSuccess := not_not.mp failed
      have checked : EraseAhead env.lib True s
          (s.erased s.flash.nextEraseAddr s.flash.eraseRemaining true w tr) :=
        EraseAhead.of_reads s reads fun _ => fine good
      exact (ensures_startErase env _).post fun r t erased => checked.trans erased

theorem ensures_ensureFlashErasedTo (target : Nat) (s : StubState W D S C) :
    (ensureFlashErasedTo env target).Ensures s (EraseAhead env.lib False s) fun r t =>
      EraseAhead env.lib (r = responseSuccess) s t ∧
        (r = responseSuccess → target ≤ t.flash.nextEraseAddr) := by
  refine Prog.Ensures.loop (fun _ t => EraseAhead env.lib True s t)
    (fun _ t h => h.mono False.elim) ?_ (EraseAhead.refl s)
  intro _ t ahead
  refine Prog.Ensures.bind (Prog.Ensures.get ?_)
  split_ifs with below
  · refine Prog.Ensures.bind ((ensures_conditionalEraseNext env t).mono
      (fun u h => ahead.trans h) fun r u h => ?_)
    have next := ahead.trans h
    split_ifs with failed
    · exact Prog.Ensures.pure ⟨next, fun good => absurd good failed⟩
    · exact Prog.Ensures.pure (next.mono fun _ => not_not.mp failed)
  · exact Prog.Ensures.pure ⟨ahead.mono fun _ => trivial, fun _ => not_lt.mp below⟩

end FlasherStub
