import FlasherStub.NandContent

/-! ERASE_FLASH and ERASE_REGION of the NAND plugin. The blocks are erased in order, up to the
first that fails. -/

namespace FlasherStub

open ByteMemory Budget

variable {W : Type} (driver : NandDriver W)

def eraseCalls (page count : Nat) : List NandCall :=
  (List.range count).map fun k => .eraseBlock (page + k * nandPagesPerBlock) .ok

theorem eraseCalls_succ (page count : Nat) : eraseCalls page (count + 1) =
    .eraseBlock page .ok :: eraseCalls (page + nandPagesPerBlock) count := by
  rw [eraseCalls, List.range_succ_eq_map, List.map_cons, List.map_map, Nat.zero_mul, Nat.add_zero]
  refine congrArg (NandCall.eraseBlock page .ok :: ·) (List.map_congr_left fun k _ => ?_)
  rw [Function.comp_apply, Nat.succ_mul, Nat.add_comm (k * _), ← Nat.add_assoc]

/-- The calls of a loop that is to erase `count` blocks from `page` on and ends with `ret`. -/
inductive EraseCalls (page count : Nat) : Int → List NandCall → Prop where
  | all : EraseCalls page count responseSuccess (eraseCalls page count)
  | failed {k : Nat} {r : NandResult} (inside : k < count) (error : r ≠ .ok) :
    EraseCalls page count (nandErrToResponse r)
      (eraseCalls page k ++ [.eraseBlock (page + k * nandPagesPerBlock) r])

theorem allOk_eraseCalls (page count : Nat) : AllOk (eraseCalls page count) := by
  intro c mem
  obtain ⟨k, -, rfl⟩ := List.mem_map.mp mem
  rfl

namespace EraseCalls

variable {page count : Nat} {ret : Int} {cs : List NandCall}

theorem success_iff (h : EraseCalls page count ret cs) : ret = responseSuccess ↔ AllOk cs := by
  cases h with
  | all => exact iff_of_true rfl (allOk_eraseCalls page count)
  | @failed k r inside error =>
    rw [nandErrToResponse_eq_success, allOk_append]
    exact iff_of_false error fun all => error (all.2 _ (List.mem_singleton_self _))

theorem succeeded (h : EraseCalls page count ret cs) (good : ret = responseSuccess) :
    cs = eraseCalls page count := by
  cases h with
  | all => rfl
  | failed inside error => exact absurd (nandErrToResponse_eq_success.mp good) error

theorem cons (h : EraseCalls (page + nandPagesPerBlock) count ret cs) :
    EraseCalls page (count + 1) ret (.eraseBlock page .ok :: cs) := by
  cases h with
  | all =>
    rw [← eraseCalls_succ]
    exact .all
  | @failed k r inside error =>
    have last : page + nandPagesPerBlock + k * nandPagesPerBlock =
        page + (k + 1) * nandPagesPerBlock := by
      rw [Nat.succ_mul, Nat.add_assoc, Nat.add_comm (k * _)]
    rw [last, ← List.cons_append, ← eraseCalls_succ]
    exact .failed (Nat.succ_lt_succ inside) error

end EraseCalls

theorem returns_nandEraseBlocks_succ (page count : Nat) (s : NandState × W) :
    ∃ u, Made driver s [.eraseBlock page (driver.eraseBlock page s.2).1] s.1.write u ∧
      ∀ ret t, (nandEraseBlocks driver page (count + 1)).Returns s ret t ↔
        (if (driver.eraseBlock page s.2).1 ≠ .ok
          then pure (nandErrToResponse (driver.eraseBlock page s.2).1)
          else nandEraseBlocks driver ((page + nandPagesPerBlock) % 2 ^ 32) count).Returns
            u ret t := by
  refine ⟨(s.1.afterCalls [.eraseBlock page (driver.eraseBlock page s.2).1] s.1.write,
    (driver.eraseBlock page s.2).2), ⟨rfl, _, rfl, rfl⟩, fun ret t => ?_⟩
  rw [nandEraseBlocks, NandStub.eraseBlock, Prog.returns_act_bind]
  rfl

theorem exists_nandEraseBlocks {page count : Nat} (fits : page + count * nandPagesPerBlock < 2 ^ 32)
    (s : NandState × W) :
    ∃ ret cs t, (nandEraseBlocks driver page count).Returns s ret t ∧
      EraseCalls page count ret cs ∧ Made driver s cs s.1.write t := by
  induction count generalizing page s with
  | zero =>
    have none : Made driver s [] s.1.write s := ⟨by simp [NandState.afterCalls], rfl⟩
    exact ⟨_, _, s, (Prog.returns_pure _ _ _ _).mpr ⟨rfl, rfl⟩, .all, none⟩
  | succ count ih =>
    obtain ⟨u, first, next⟩ := returns_nandEraseBlocks_succ driver page count s
    by_cases error : (driver.eraseBlock page s.2).1 ≠ .ok
    · simp only [if_pos error] at next
      refine ⟨_, _, u, (next _ _).mpr ((Prog.returns_pure _ _ _ _).mpr ⟨rfl, rfl⟩),
        .failed (Nat.succ_pos count) error, ?_⟩
      rw [Nat.zero_mul, Nat.add_zero]
      exact first
    · rw [not_not.mp error] at first
      rw [Nat.succ_mul] at fits
      simp only [if_neg error] at next
      have inside : page + nandPagesPerBlock + count * nandPagesPerBlock < 2 ^ 32 := by omega
      rw [Nat.mod_eq_of_lt (by omega)] at next
      obtain ⟨ret, cs, t, run, erased, made⟩ := ih inside u
      rw [first.write] at made
      exact ⟨ret, _, t, (next ret t).mpr run, erased.cons, first.trans driver made⟩

/-- What a command has done that is to erase `count` blocks from `page` on. -/
structure BlocksErased (content : W → Memory) (page count : Nat) (s : NandState × W) (ret : Int)
    (t : NandState × W) : Prop where
  calls : ∃ cs, EraseCalls page count ret cs ∧ Made driver s cs s.1.write t ∧
    (ret = responseSuccess ↔ AllOk cs)
  content : ret = responseSuccess → content t.2 = (Nor.Op.erase (page * nandPageSize)
    ((page + count * nandPagesPerBlock) * nandPageSize)).apply (content s.2)

theorem run_eraseCalls {page count : Nat} {m n : Memory}
    (run : Nor.Run m ((eraseCalls page count).map NandCall.op) n) :
    n = (Nor.Op.erase (page * nandPageSize)
      ((page + count * nandPagesPerBlock) * nandPageSize)).apply m := by
  induction count generalizing page m with
  | zero =>
    rw [Nat.zero_mul, Nat.add_zero, Nor.Op.erase_empty]
    exact run
  | succ count ih =>
    rw [eraseCalls_succ] at run
    have rest := ih run.2
    rw [rest, NandCall.op, Nor.Op.erase_erase, Nat.succ_mul, Nat.add_right_comm, ← Nat.add_assoc]
    · exact Nat.mul_le_mul_right _ (Nat.le_add_right _ _)
    · exact Nat.mul_le_mul_right _ (Nat.le_add_right _ _)

theorem exists_blocksErased {content : W → Memory} (contract : NandContract driver content)
    {page count : Nat} (block : page % nandPagesPerBlock = 0)
    (fits : page + count * nandPagesPerBlock < 2 ^ 32) (s : NandState × W) :
    ∃ ret t, (nandEraseBlocks driver page count).Returns s ret t ∧
      BlocksErased driver content page count s ret t := by
  obtain ⟨ret, cs, t, run, erased, made⟩ := exists_nandEraseBlocks driver fits s
  refine ⟨ret, t, run, ⟨cs, erased, made, erased.success_iff⟩, fun good => ?_⟩
  have regular : ∀ c ∈ eraseCalls page count, c.Regular := by
    intro c mem
    obtain ⟨k, -, rfl⟩ := List.mem_map.mp mem
    exact ⟨by rw [Nat.add_mul_mod_self_right, block], rfl⟩
  have performed := made.2
  rw [erased.succeeded good] at performed
  exact run_eraseCalls (performed.content driver contract regular)

/-- The region of an ERASE_REGION payload is made up of whole blocks. -/
def WholeBlocks (mem : Memory) (data : Nat) : Prop :=
  getLeToU32 mem data % nandBlockSize = 0 ∧ getLeToU32 mem (data + 4) % nandBlockSize = 0

instance (mem : Memory) (data : Nat) : Decidable (WholeBlocks mem data) :=
  inferInstanceAs (Decidable (_ ∧ _))

/-- What ERASE_REGION has done when it ends with `ret`. -/
structure RegionErased (content : W → Memory) (offset size : Nat) (s : NandState × W) (ret : Int)
    (t : NandState × W) : Prop where
  blocks : BlocksErased driver content (offset / nandPageSize) (size / nandBlockSize) s ret t
  content : ret = responseSuccess →
    content t.2 = (Nor.Op.erase offset (offset + size)).apply (content s.2)

theorem BlocksErased.region {content : W → Memory} {offset size : Nat} {s t : NandState × W}
    {ret : Int} (h : BlocksErased driver content (offset / nandPageSize) (size / nandBlockSize) s
      ret t) (first : offset % nandBlockSize = 0) (whole : size % nandBlockSize = 0) :
    RegionErased driver content offset size s ret t := by
  have first : offset % 131072 = 0 := first
  have whole : size % 131072 = 0 := whole
  have start : offset / nandPageSize * nandPageSize = offset := by
    change offset / 2048 * 2048 = offset
    omega
  have stop : (offset / nandPageSize + size / nandBlockSize * nandPagesPerBlock) * nandPageSize =
      offset + size := by
    rw [Nat.add_mul, start, Nat.mul_assoc]
    change offset + size / 131072 * 131072 = offset + size
    omega
  have content := h.content
  rw [start, stop] at content
  exact ⟨h, content⟩

theorem exists_nandPluginEraseRegion {content : W → Memory}
    (contract : NandContract driver content) (mem : Memory) (data len : Nat) (resp : NandResponse)
    (s : NandState × W) :
    ∃ ret t, (nandPluginEraseRegion driver mem data len resp).Returns s (ret, resp) t ∧
      if len = eraseRegionSize ∧ WholeBlocks mem data then
        RegionErased driver content (getLeToU32 mem data) (getLeToU32 mem (data + 4)) s ret t
      else ret = responseBadDataLen ∧ t = s := by
  have refused : (pure (responseBadDataLen, resp) : NandStub W (Int × NandResponse)).Returns s
      (responseBadDataLen, resp) s := (Prog.returns_pure _ _ _ _).mpr ⟨rfl, rfl⟩
  unfold nandPluginEraseRegion
  by_cases length : len = eraseRegionSize
  · rw [if_neg (not_not.mpr length)]
    dsimp only
    by_cases whole : WholeBlocks mem data
    · have aligned : ¬ (getLeToU32 mem data % nandBlockSize ≠ 0 ∨
          getLeToU32 mem (data + 4) % nandBlockSize ≠ 0) := by
        rw [not_or, not_not, not_not]
        exact whole
      rw [if_neg aligned]
      simp only [if_pos (And.intro length whole)]
      have low := getLeToU32_lt mem data
      have high := getLeToU32_lt mem (data + 4)
      have block : getLeToU32 mem data / nandPageSize % nandPagesPerBlock = 0 := by
        have first : getLeToU32 mem data % 131072 = 0 := whole.1
        change getLeToU32 mem data / 2048 % 64 = 0
        omega
      have fits : getLeToU32 mem data / nandPageSize +
          getLeToU32 mem (data + 4) / nandBlockSize * nandPagesPerBlock < 2 ^ 32 := by
        change getLeToU32 mem data / 2048 + getLeToU32 mem (data + 4) / 131072 * 64 < 2 ^ 32
        omega
      obtain ⟨ret, t, run, erased⟩ := exists_blocksErased driver contract block fits s
      exact ⟨ret, t, (Prog.returns_bind _ _ _ _ _).mpr ⟨ret, t, run,
        (Prog.returns_pure _ _ _ _).mpr ⟨rfl, rfl⟩⟩, erased.region driver whole.1 whole.2⟩
    · have split : getLeToU32 mem data % nandBlockSize ≠ 0 ∨
          getLeToU32 mem (data + 4) % nandBlockSize ≠ 0 := not_and_or.mp whole
      rw [if_pos split]
      exact ⟨_, s, refused, by rw [if_neg (mt And.right whole)]; exact ⟨rfl, rfl⟩⟩
  · rw [if_pos length]
    exact ⟨_, s, refused, by rw [if_neg (mt And.left length)]; exact ⟨rfl, rfl⟩⟩

/-- ERASE_REGION and ERASE_FLASH of the NAND plugin come to an end on every chip. A region that is
not made up of whole blocks is refused and nothing is erased. Otherwise its blocks are erased in
order and once each, up to the first that cannot be, whose code is the answer; success means that
all of them have been erased, and that nothing else on the chip has changed. -/
theorem nand_erase_exact {content : W → Memory} (contract : NandContract driver content)
    (mem : Memory) (data len : Nat) (resp : NandResponse) (s : NandState × W) :
    (∃ ret t, (nandPluginEraseRegion driver mem data len resp).Returns s (ret, resp) t ∧
      if len = eraseRegionSize ∧ WholeBlocks mem data then
        RegionErased driver content (getLeToU32 mem data) (getLeToU32 mem (data + 4)) s ret t
      else ret = responseBadDataLen ∧ t = s) ∧
    ∃ ret t, (nandPluginEraseFlash driver resp).Returns s (ret, resp) t ∧
      RegionErased driver content 0 (nandBlockCount * nandBlockSize) s ret t := by
  refine ⟨exists_nandPluginEraseRegion driver contract mem data len resp s, ?_⟩
  obtain ⟨ret, t, run, erased⟩ := exists_blocksErased driver contract (Nat.zero_mod _)
    (show 0 + nandBlockCount * nandPagesPerBlock < 2 ^ 32 by decide) s
  refine ⟨ret, t, (Prog.returns_bind _ _ _ _ _).mpr ⟨ret, t, run,
    (Prog.returns_pure _ _ _ _).mpr ⟨rfl, rfl⟩⟩, BlocksErased.region driver ?_ rfl rfl⟩
  rw [Nat.zero_div, Nat.mul_div_cancel _ (by decide)]
  exact erased

def nandEraseFrame : Memory :=
  Memory.ofList (List.replicate 8 0 ++ setU32ToLe nandBlockSize ++ setU32ToLe nandBlockSize)

theorem nand_erase_exact_one_block : ∃ t,
    (nandPluginEraseRegion simNand nandEraseFrame 8 8 {}).Returns ({}, fun _ => 0)
      (responseSuccess, {}) t ∧ t.2 nandBlockSize = 0xFF ∧ t.2 0 = 0 := by
  obtain ⟨⟨ret, t, run, done⟩, -⟩ := nand_erase_exact simNand simNand_contract nandEraseFrame 8 8 {}
    ({}, fun _ => 0)
  obtain ⟨u, one⟩ : ∃ u, (nandPluginEraseRegion simNand nandEraseFrame 8 8 {}).Returns
      ({}, fun _ => 0) (responseSuccess, {}) u := ⟨_, 0, 0, rfl⟩
  obtain ⟨same, rfl⟩ := run.unique one
  obtain rfl : ret = responseSuccess := congrArg Prod.fst same
  rw [if_pos (by decide)] at done
  have erased : t.2 = (Nor.Op.erase nandBlockSize (nandBlockSize + nandBlockSize)).apply
      fun _ => 0 := done.content rfl
  have inside : (Nor.Op.erase nandBlockSize (nandBlockSize + nandBlockSize)).Erases nandBlockSize :=
    ⟨le_rfl, by decide⟩
  have outside : ¬ (Nor.Op.erase nandBlockSize (nandBlockSize + nandBlockSize)).Erases 0 :=
    fun h => absurd h.1 (by decide)
  exact ⟨t, run, erased ▸ Nor.Op.apply_erases inside _, erased ▸ Nor.Op.apply_of_not outside id _⟩

end FlasherStub
