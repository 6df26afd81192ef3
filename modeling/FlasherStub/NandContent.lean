import FlasherStub.NandStream
import FlasherStub.Lib.Nor

/-! What a NAND write session leaves on the chip. A block is erased when the session reaches its
first page; a session that starts inside a block programs the rest of it over what was there. -/

namespace FlasherStub

open ByteMemory Budget

variable {W : Type} (driver : NandDriver W)

/-- What a successful driver call does to the content of the chip. -/
def NandCall.op : NandCall → Nor.Op
  | .eraseBlock page _ => .erase (page * nandPageSize) ((page + nandPagesPerBlock) * nandPageSize)
  | .writePage page data _ => .program (page * nandPageSize) data

/-- A successful call with arguments of the size of the chip. -/
def NandCall.Regular : NandCall → Prop
  | .eraseBlock page r => page % nandPagesPerBlock = 0 ∧ r = .ok
  | .writePage _ data r => data.length = nandPageSize ∧ r = .ok

/-- The driver as a NAND chip with the given content. -/
def NandContract (content : W → Memory) : Prop :=
  ∀ c : NandCall, c.Regular → ∀ w, (c.step driver w).1 = .ok →
    content (c.step driver w).2 = c.op.apply (content w)

theorem Performed.content {content : W → Memory} (contract : NandContract driver content)
    {calls : List NandCall} (regular : ∀ c ∈ calls, c.Regular) {w w' : W}
    (h : Performed driver calls w w') :
    Nor.Run (content w) (calls.map NandCall.op) (content w') := by
  induction calls generalizing w with
  | nil => exact congrArg content h
  | cons c calls ih =>
    obtain ⟨u, first, rest⟩ := h
    have ok : c.result = .ok := by
      have := regular c (by simp)
      cases c <;> exact this.2
    have next := contract c (regular c (by simp)) w (by rw [first, ok])
    rw [first] at next
    have last := ih (fun c' mem => regular c' (by simp [mem])) rest
    rw [next] at last
    refine ⟨?_, last⟩
    cases c <;> trivial

theorem mem_streamCalls {offset count : Nat} {image : List UInt8} {c : NandCall} :
    c ∈ streamCalls offset image count ↔
      ∃ j < count, c ∈ pageCalls (offset / nandPageSize + j) (pageSlice image j) := by
  simp [streamCalls]

theorem mem_pageCalls {page : Nat} {data : List UInt8} {c : NandCall} :
    c ∈ pageCalls page data ↔
      (page % nandPagesPerBlock = 0 ∧ c = .eraseBlock page .ok) ∨ c = .writePage page data .ok := by
  unfold pageCalls
  split_ifs with boundary <;> simp [boundary]

theorem length_pageSlice (image : List UInt8) (k : Nat) :
    (pageSlice image k).length = nandPageSize := by
  refine Pages.length_padded ?_ _
  rw [Pages.length_slice]
  exact min_le_left _ _

theorem regular_streamCalls (offset : Nat) (image : List UInt8) (count : Nat) :
    ∀ c ∈ streamCalls offset image count, c.Regular := by
  intro c mem
  obtain ⟨j, -, mem⟩ := mem_streamCalls.mp mem
  obtain ⟨boundary, rfl⟩ | rfl := mem_pageCalls.mp mem
  · exact ⟨boundary, rfl⟩
  · exact ⟨length_pageSlice image j, rfl⟩

structure AroundPage (offset : Nat) (image : List UInt8) (k : Nat) (pre post : List NandCall) :
    Prop where
  before : ∀ c, c ∈ pre ↔ c ∈ streamCalls offset image k ∨
    ((offset / nandPageSize + k) % nandPagesPerBlock = 0 ∧
      c = .eraseBlock (offset / nandPageSize + k) .ok)
  after : ∀ c ∈ post, ∃ j, k < j ∧
    c ∈ pageCalls (offset / nandPageSize + j) (pageSlice image j)

theorem streamCalls_split (offset : Nat) (image : List UInt8) {k count : Nat} (inside : k < count) :
    ∃ pre post, streamCalls offset image count =
        pre ++ .writePage (offset / nandPageSize + k) (pageSlice image k) .ok :: post ∧
      AroundPage offset image k pre post := by
  obtain ⟨m, rfl⟩ : ∃ m, count = k + 1 + m := ⟨count - (k + 1), by omega⟩
  refine ⟨streamCalls offset image k ++ (if (offset / nandPageSize + k) % nandPagesPerBlock = 0
      then [.eraseBlock (offset / nandPageSize + k) .ok] else []),
    (List.range m).flatMap fun j => pageCalls (offset / nandPageSize + (k + 1 + j))
      (pageSlice image (k + 1 + j)), ?_, fun c => ?_, fun c mem => ?_⟩
  · rw [streamCalls, List.range_add, List.flatMap_append, ← streamCalls, streamCalls_succ, pageCalls,
      List.flatMap_map]
    simp
  · rw [List.mem_append]
    split_ifs with boundary <;> simp [boundary]
  · obtain ⟨j, less, mem⟩ := List.mem_flatMap.mp mem
    exact ⟨k + 1 + j, by omega, mem⟩

theorem erases_eraseBlock {page a : Nat} {r : NandResult} :
    (NandCall.eraseBlock page r).op.Erases a ↔
      page ≤ a / nandPageSize ∧ a / nandPageSize < page + nandPagesPerBlock :=
  and_congr (Nat.le_div_iff_mul_le (by decide)).symm (Nat.div_lt_iff_lt_mul (by decide)).symm

theorem programs_writePage {page a : Nat} {data : List UInt8} {r : NandResult}
    (size : data.length = nandPageSize) :
    (NandCall.writePage page data r).op.Programs a ↔ a / nandPageSize = page := by
  change page * nandPageSize ≤ a ∧ a < page * nandPageSize + data.length ↔ _
  rw [size, ← Nat.succ_mul, ← Nat.le_div_iff_mul_le (by decide), ← Nat.div_lt_iff_lt_mul (by decide)]
  omega

theorem getElem_pageSlice {image : List UInt8} {k r : Nat} (low : r < nandPageSize)
    (inside : k * nandPageSize + r < image.length) (h : r < (pageSlice image k).length) :
    (pageSlice image k)[r] = image[k * nandPageSize + r] := by
  have page : r < (Pages.slice nandPageSize image k).length := by
    rw [Pages.length_slice]
    omega
  rw [← Option.some_inj, ← List.getElem?_eq_getElem, ← List.getElem?_eq_getElem, pageSlice,
    Pages.getElem?_padded page, Pages.getElem?_slice low]

/-- The block of the byte at `a` starts at or behind `offset`. -/
def StartsBlock (offset a : Nat) : Prop := offset ≤ a / nandBlockSize * nandBlockSize

instance (offset a : Nat) : Decidable (StartsBlock offset a) := inferInstanceAs (Decidable (_ ≤ _))

theorem startsBlock_iff {offset : Nat} (aligned : offset % nandPageSize = 0) (a : Nat) :
    StartsBlock offset a ↔ offset / nandPageSize ≤
      a / nandPageSize / nandPagesPerBlock * nandPagesPerBlock := by
  change offset ≤ a / 131072 * 131072 ↔ offset / 2048 ≤ a / 2048 / 64 * 64
  have aligned : offset % 2048 = 0 := aligned
  omega

theorem not_programs_pageCalls {page a : Nat} {data : List UInt8} {c : NandCall}
    (size : data.length = nandPageSize) (mem : c ∈ pageCalls page data)
    (other : a / nandPageSize ≠ page) : ¬ c.op.Programs a := by
  obtain ⟨-, rfl⟩ | rfl := mem_pageCalls.mp mem
  · exact id
  · rw [programs_writePage size]
    exact other

theorem erases_pageCalls {page a : Nat} {data : List UInt8} {c : NandCall}
    (mem : c ∈ pageCalls page data) (erases : c.op.Erases a) :
    page % nandPagesPerBlock = 0 ∧ page ≤ a / nandPageSize := by
  obtain ⟨boundary, rfl⟩ | rfl := mem_pageCalls.mp mem
  · exact ⟨boundary, (erases_eraseBlock.mp erases).1⟩
  · exact erases.elim

theorem erases_before {offset k : Nat} (image : List UInt8)
    (block : offset / nandPageSize ≤
      (offset / nandPageSize + k) / nandPagesPerBlock * nandPagesPerBlock) :
    ∃ c : NandCall, (c ∈ streamCalls offset image k ∨
        ((offset / nandPageSize + k) % nandPagesPerBlock = 0 ∧
          c = .eraseBlock (offset / nandPageSize + k) .ok)) ∧
      ∀ a, a / nandPageSize = offset / nandPageSize + k → c.op.Erases a := by
  obtain ⟨j, start⟩ := Nat.exists_eq_add_of_le block
  have boundary : (offset / nandPageSize + j) % nandPagesPerBlock = 0 := by
    rw [← start, Nat.mul_mod_left]
  have pages : nandPagesPerBlock = 64 := rfl
  rw [pages] at start boundary
  refine ⟨.eraseBlock (offset / nandPageSize + j) .ok, ?_, fun a ha => ?_⟩
  · by_cases last : j = k
    · exact .inr ⟨last ▸ boundary, by rw [last]⟩
    · exact .inl (mem_streamCalls.mpr ⟨j, by omega, mem_pageCalls.mpr (.inl ⟨boundary, rfl⟩)⟩)
  · rw [erases_eraseBlock, ha, pages]
    omega

namespace AroundPage

variable {offset k a : Nat} {image : List UInt8} {pre post : List NandCall}
  (around : AroundPage offset image k pre post) (here : a / nandPageSize = offset / nandPageSize + k)

include around here

theorem once : ∀ op ∈ pre.map NandCall.op ++ post.map NandCall.op, ¬ op.Programs a := by
  rw [← List.map_append, List.forall_mem_map]
  intro c mem
  obtain mem | mem := List.mem_append.mp mem
  · obtain mem | ⟨-, rfl⟩ := (around.before c).mp mem
    · obtain ⟨j, less, mem⟩ := mem_streamCalls.mp mem
      exact not_programs_pageCalls (length_pageSlice image j) mem (by omega)
    · exact id
  · obtain ⟨j, less, mem⟩ := around.after c mem
    exact not_programs_pageCalls (length_pageSlice image j) mem (by omega)

theorem later : ∀ op ∈ post.map NandCall.op, ¬ op.Erases a := by
  rw [List.forall_mem_map]
  intro c mem erases
  obtain ⟨j, less, mem⟩ := around.after c mem
  have behind := (erases_pageCalls mem erases).2
  omega

omit here in
theorem early (inner : ¬ offset / nandPageSize ≤
      (offset / nandPageSize + k) / nandPagesPerBlock * nandPagesPerBlock) :
    ∀ op ∈ pre.map NandCall.op, ¬ op.Erases a := by
  rw [List.forall_mem_map]
  intro c mem erases
  obtain ⟨j, less, boundary⟩ : ∃ j ≤ k, (offset / nandPageSize + j) % nandPagesPerBlock = 0 := by
    obtain mem | ⟨boundary, rfl⟩ := (around.before c).mp mem
    · obtain ⟨j, less, mem⟩ := mem_streamCalls.mp mem
      exact ⟨j, by omega, (erases_pageCalls mem erases).1⟩
    · exact ⟨k, le_rfl, boundary⟩
  have page : nandPagesPerBlock = 64 := rfl
  rw [page] at boundary inner
  omega

end AroundPage

/-- A byte of the image: in a block that the session came to the start of it was erased. -/
theorem stream_content {offset : Nat} (aligned : offset % nandPageSize = 0) {image : List UInt8}
    {m n : Memory}
    (run : Nor.Run m ((streamCalls offset image (pageCount image.length)).map NandCall.op) n)
    {i : Nat} (inside : i < image.length) :
    n (offset + i) =
      if StartsBlock offset (offset + i) then image[i] else m (offset + i) &&& image[i] := by
  obtain ⟨k, r, low, rfl⟩ : ∃ k r, r < 2048 ∧ i = k * 2048 + r :=
    ⟨i / 2048, i % 2048, by omega, by omega⟩
  have aligned' : offset % 2048 = 0 := aligned
  generalize ha : offset + (k * 2048 + r) = a
  have here : a / nandPageSize = offset / nandPageSize + k := by
    change a / 2048 = offset / 2048 + k
    omega
  have address : a = (offset / nandPageSize + k) * nandPageSize + r := by
    change a = (offset / 2048 + k) * 2048 + r
    omega
  have written : k < pageCount image.length := by
    change k < (image.length + 2047) / 2048
    omega
  obtain ⟨pre, post, split, around⟩ := streamCalls_split offset image written
  rw [split, List.map_append, List.map_cons] at run
  have data := getElem_pageSlice low inside (by rw [length_pageSlice]; exact low)
  have once := around.once here
  have later := around.later here
  have start := startsBlock_iff aligned a
  rw [here] at start
  rw [address] at once later
  split_ifs with starts
  · -- the erase of the block of `a` comes before the write of its page
    obtain ⟨c, mem, erases⟩ := erases_before image (start.mp starts)
    rw [address, ← data]
    refine run.programmed _ ⟨c.op, List.mem_map_of_mem ((around.before c).mpr mem), .inl ?_⟩ once later
    rw [← address]
    exact erases a here
  · have early := around.early (a := a) (mt start.mpr starts)
    rw [address] at early ⊢
    rw [← data]
    exact run.programmed_over _ once (List.forall_mem_append.mpr ⟨early, later⟩)

/-- Every page that is written lies in a block that was erased before. -/
def ErasedFirst (calls : List NandCall) : Prop :=
  ∀ pre page data r post, calls = pre ++ .writePage page data r :: post →
    ∃ block r', .eraseBlock block r' ∈ pre ∧ block ≤ page ∧ page < block + nandPagesPerBlock

theorem pageCalls_eq_append {page page' : Nat} {data data' : List UInt8} {r : NandResult}
    {pre post : List NandCall} (h : pageCalls page data = pre ++ .writePage page' data' r :: post) :
    page' = page ∧ (page % nandPagesPerBlock = 0 → .eraseBlock page .ok ∈ pre) := by
  unfold pageCalls at h
  split_ifs at h with boundary
  · cases pre with
    | nil => simp at h
    | cons c pre =>
      simp only [List.cons_append, List.nil_append, List.cons.injEq] at h
      obtain ⟨rfl, rest⟩ := h
      cases pre with
      | nil =>
        simp only [List.nil_append, List.cons.injEq, NandCall.writePage.injEq] at rest
        exact ⟨rest.1.1.symm, fun _ => by simp⟩
      | cons => simp at rest
  · cases pre with
    | nil =>
      simp only [List.nil_append, List.cons.injEq, NandCall.writePage.injEq] at h
      exact ⟨h.1.1.symm, fun boundary' => absurd boundary' boundary⟩
    | cons => simp at h

theorem erasedFirst_stream {offset : Nat} (block : offset % nandBlockSize = 0) (image : List UInt8)
    (count : Nat) : ErasedFirst (streamCalls offset image count) := by
  induction count with
  | zero =>
    intro pre page data r post h
    simp at h
  | succ count ih =>
    intro pre page data r post h
    have here (as : List NandCall) (same : pre = streamCalls offset image count ++ as)
        (split : pageCalls (offset / nandPageSize + count) (pageSlice image count) =
          as ++ .writePage page data r :: post) : ∃ block r', .eraseBlock block r' ∈ pre ∧
            block ≤ page ∧ page < block + nandPagesPerBlock := by
      obtain ⟨rfl, boundary⟩ := pageCalls_eq_append split
      have starts : offset / nandPageSize ≤
          (offset / nandPageSize + count) / nandPagesPerBlock * nandPagesPerBlock := by
        have block : offset % 131072 = 0 := block
        change offset / 2048 ≤ (offset / 2048 + count) / 64 * 64
        omega
      obtain ⟨c, mem, erases⟩ := erases_before image starts
      have reach := erases ((offset / nandPageSize + count) * nandPageSize)
        (Nat.mul_div_cancel _ (by decide))
      obtain mem | ⟨first, rfl⟩ := mem
      · obtain ⟨j, less, mem'⟩ := mem_streamCalls.mp mem
        obtain ⟨-, rfl⟩ | rfl := mem_pageCalls.mp mem'
        · rw [erases_eraseBlock, Nat.mul_div_cancel _ (by decide)] at reach
          exact ⟨_, _, by rw [same]; exact List.mem_append_left _ mem, reach⟩
        · exact reach.elim
      · exact ⟨_, _, by rw [same]; exact List.mem_append_right _ (boundary first), le_rfl,
          Nat.lt_add_of_pos_right (by decide)⟩
    rw [streamCalls_succ] at h
    obtain ⟨as, same, split⟩ | ⟨bs, same, split⟩ := List.append_eq_append_iff.mp h
    · exact here as same split
    · cases bs with
      | nil => exact here [] (by rw [same]; simp) split.symm
      | cons c bs =>
        rw [List.cons_append, List.cons.injEq] at split
        exact ih pre page data r bs (by rw [same, split.1])

theorem erasedFirst_iff {offset : Nat} (aligned : offset % nandPageSize = 0) (image : List UInt8) :
    ErasedFirst (streamCalls offset image (pageCount image.length)) ↔
      offset % nandBlockSize = 0 ∨ image = [] := by
  constructor
  · intro erased
    by_contra other
    obtain ⟨inside, some⟩ := not_or.mp other
    have page : 0 < pageCount image.length := by
      have := List.length_pos_iff.mpr some
      change 0 < (image.length + 2047) / 2048
      omega
    obtain ⟨pre, post, split, around⟩ := streamCalls_split offset image page
    obtain ⟨block, r, mem, -⟩ := erased pre _ _ _ post split
    obtain mem | ⟨boundary, -⟩ := (around.before _).mp mem
    · simp at mem
    · have aligned : offset % 2048 = 0 := aligned
      have boundary : (offset / 2048 + 0) % 64 = 0 := boundary
      have inside : offset % 131072 ≠ 0 := inside
      omega
  · rintro (block | rfl)
    · exact erasedFirst_stream block image _
    · intro pre page data r post h
      rw [show pageCount ([] : List UInt8).length = 0 from rfl, streamCalls_zero] at h
      simp at h

/-- The image can be programmed at `offset` without an erase of the block that lies across it:
there it has no bit set that is clear on the chip. -/
def Programmable (prior : Memory) (offset : Nat) (image : List UInt8) : Prop :=
  ∀ i (inside : i < image.length), ¬ StartsBlock offset (offset + i) →
    prior (offset + i) &&& image[i] = image[i]

/-- A successful write session can be read back exactly if its image is programmable as far as
the block in the middle of which it starts. -/
theorem nand_session_read_back {content : W → Memory} (contract : NandContract driver content)
    {mem : Memory} {data len lenEnd : Nat} {steps : List (NandWriteCommand × Int)}
    {resp resp' : NandResponse} {s₀ s₁ s₂ s₃ : NandState × W}
    (begun : ((NandWriteCommand.begin mem data len).run driver).Returns s₀
      (responseSuccess, resp) s₁)
    (packets : NandSession driver steps s₁ s₂) (accepted : ∀ step ∈ steps, Accepted step)
    (ended : ((NandWriteCommand.finish lenEnd).run driver).Returns s₂
      (responseSuccess, resp') s₃)
    (fits : NandWriteCommand.startOffset mem data + NandWriteCommand.totalSize mem data ≤
      nandBlockCount * nandBlockSize) :
    ((content s₃.2).read (NandWriteCommand.startOffset mem data)
        (NandWriteCommand.totalSize mem data) = imageOf steps ↔
      Programmable (content s₀.2) (NandWriteCommand.startOffset mem data) (imageOf steps)) ∧
    ∃ calls, s₃.1.calls = s₀.1.calls ++ calls ∧ (ErasedFirst calls ↔
      NandWriteCommand.startOffset mem data % nandBlockSize = 0 ∨ imageOf steps = []) := by
  obtain ⟨whole, made⟩ := nand_session_stream driver begun packets accepted ended fits
  obtain ⟨aligned, -⟩ := nandPluginWriteFlashBegin_stream driver begun
  change NandWriteCommand.startOffset mem data % nandPageSize = 0 at aligned
  rw [← whole] at made ⊢
  refine ⟨?_, _, by rw [made.1]; rfl, erasedFirst_iff aligned _⟩
  have run := made.2.content driver contract (regular_streamCalls _ _ _)
  have bytes {i : Nat} (inside : i < (imageOf steps).length) := stream_content aligned run inside
  constructor
  · intro same i inside late
    have byte := bytes inside
    rw [if_neg late] at byte
    rw [← byte]
    have stored := List.getElem_of_eq same (by simpa using inside)
    rwa [Memory.getElem_read] at stored
  · intro programmable
    refine List.ext_getElem (by simp) fun i h₁ h₂ => ?_
    rw [Memory.getElem_read, bytes h₂]
    split_ifs with starts
    · rfl
    · exact programmable i h₂ starts

def simNand : NandDriver Memory where
  attach _ w := (0, w)
  readId w := ((0, 0), w)
  readRegister _ w := (0, w)
  readBbm page w := (some (w.read (page * nandPageSize) 4), w)
  writeBbm _ _ w := (.ok, w)
  getPageSize _ := nandPageSize
  readPage page size w := (some (w.read (page * nandPageSize) size), w)
  eraseBlock page w := (.ok, (NandCall.eraseBlock page .ok).op.apply w)
  writePage page data w := (.ok, (NandCall.writePage page data .ok).op.apply w)

theorem simNand_contract : NandContract simNand id := by
  intro c _ w _
  cases c <;> rfl

theorem nand_session_read_back_one_byte : ∃ s : NandState × Memory, s.2.read 0 1 = [0x5A] := by
  obtain ⟨read, -⟩ := nand_session_read_back simNand simNand_contract
    (show ((NandWriteCommand.begin nandBeginFrame 8 16).run simNand).Returns ({}, fun _ => 0) _ _
      from ⟨0, 0, rfl⟩)
    (show NandSession simNand [(.data nandDataFrame 8 17, responseSuccess)] _ _
      from ⟨_, _, ⟨2, 0, rfl⟩, rfl⟩)
    (by simp [Accepted])
    (show ((NandWriteCommand.finish 4).run simNand).Returns _ _ _ from ⟨0, 0, rfl⟩)
    (by decide)
  refine ⟨_, read.mpr fun i inside late => absurd ?_ late⟩
  obtain rfl : i = 0 := Nat.lt_one_iff.mp inside
  decide

def nandBeginInside : Memory :=
  Memory.ofList (List.replicate 8 0 ++ setU32ToLe 2048 ++ setU32ToLe 1)

/-- Over a chip that holds zeros the byte is acknowledged and not there. -/
theorem nand_session_inside_block :
    ∃ resp resp' s₁ s₂ s₃,
      ((NandWriteCommand.begin nandBeginInside 8 16).run simNand).Returns
        ({}, fun _ => 0) (responseSuccess, resp) s₁ ∧
      NandSession simNand [(.data nandDataFrame 8 17, responseSuccess)] s₁ s₂ ∧
      ((NandWriteCommand.finish 4).run simNand).Returns s₂ (responseSuccess, resp') s₃ ∧
      s₃.2.read 2048 1 ≠ [0x5A] := by
  refine ⟨_, _, _, _, _, ⟨0, 0, rfl⟩, ⟨_, _, ⟨2, 0, rfl⟩, rfl⟩, ⟨0, 0, rfl⟩, ?_⟩
  decide +kernel

end FlasherStub
