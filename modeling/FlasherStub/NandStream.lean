import FlasherStub.NandImage
import FlasherStub.Lib.Pages

/-! What a NAND write session asks of the driver. The packets of an image only pass through the
page buffer: the calls are those of the image cut into pages, however the host cut it
into packets. -/

namespace FlasherStub

open ByteMemory Budget

variable {W : Type} (driver : NandDriver W)

def NandCall.step : NandCall → W → NandResult × W
  | .eraseBlock page _ => driver.eraseBlock page
  | .writePage page data _ => driver.writePage page data

/-- The calls, made in this order, give the recorded results and take the device from `w` to
`w'`. -/
def Performed : List NandCall → W → W → Prop
  | [], w, w' => w' = w
  | c :: calls, w, w' => ∃ u, c.step driver w = (c.result, u) ∧ Performed calls u w'

theorem performed_append {calls calls' : List NandCall} {w w' : W} :
    Performed driver (calls ++ calls') w w' ↔
      ∃ u, Performed driver calls w u ∧ Performed driver calls' u w' := by
  induction calls generalizing w with
  | nil => simp [Performed]
  | cons c calls ih =>
    simp only [List.cons_append, Performed, ih]
    constructor
    · rintro ⟨u, first, v, before, after⟩
      exact ⟨v, ⟨u, first, before⟩, after⟩
    · rintro ⟨v, ⟨u, first, before⟩, after⟩
      exact ⟨u, first, v, before, after⟩

/-- Page `k` of an image, padded as END pads the last one. -/
def pageSlice (image : List UInt8) (k : Nat) : List UInt8 :=
  Pages.padded nandPageSize 0xFF (Pages.slice nandPageSize image k)

/-- The calls that write one page: its block is erased first if the page starts one. -/
def pageCalls (page : Nat) (data : List UInt8) : List NandCall :=
  (if page % nandPagesPerBlock = 0 then [.eraseBlock page .ok] else []) ++
    [.writePage page data .ok]

/-- The calls for the first `count` pages of an image that starts at `offset`. -/
def streamCalls (offset : Nat) (image : List UInt8) (count : Nat) : List NandCall :=
  (List.range count).flatMap fun k => pageCalls (offset / nandPageSize + k) (pageSlice image k)

@[simp] theorem streamCalls_zero (offset : Nat) (image : List UInt8) :
    streamCalls offset image 0 = [] := rfl

theorem streamCalls_succ (offset : Nat) (image : List UInt8) (count : Nat) :
    streamCalls offset image (count + 1) = streamCalls offset image count ++
      pageCalls (offset / nandPageSize + count) (pageSlice image count) := by
  simp [streamCalls, List.range_succ]

theorem streamCalls_append {image : List UInt8} {count : Nat}
    (whole : count * nandPageSize ≤ image.length) (offset : Nat) (bytes : List UInt8) :
    streamCalls offset (image ++ bytes) count = streamCalls offset image count := by
  induction count with
  | zero => rfl
  | succ count ih =>
    have before : count * nandPageSize ≤ image.length :=
      le_trans (Nat.mul_le_mul_right _ (Nat.le_succ count)) whole
    rw [streamCalls_succ, streamCalls_succ, ih before, pageSlice, pageSlice,
      Pages.slice_append whole]

/-- The write state of a session that started at `offset`, has taken in `image` and has written
`count` whole pages of it. -/
structure Stream (offset total : Nat) (image : List UInt8) (count : Nat) (w : NandWriteState) :
    Prop where
  length : count * nandPageSize + w.pageBufFilled = image.length
  filled : w.pageBufFilled ≤ nandPageSize
  buffered : w.pageBuf.read 0 w.pageBufFilled = image.drop (count * nandPageSize)
  position : w.offset = offset + count * nandPageSize
  rest : image.length + w.totalRemaining = total
  opened : w.inProgress = true

@[simp] theorem nextPage_totalRemaining (w : NandWriteState) :
    w.nextPage.totalRemaining = w.totalRemaining := by
  cases w
  rfl

namespace Stream

variable {offset total count : Nat} {image : List UInt8} {w : NandWriteState}

theorem whole (h : Stream offset total image count w) : count * nandPageSize ≤ image.length :=
  Nat.le.intro h.length

theorem fill (h : Stream offset total image count w) {bytes : List UInt8}
    (left : bytes.length ≤ w.totalRemaining)
    (space : w.pageBufFilled + bytes.length ≤ nandPageSize) :
    Stream offset total (image ++ bytes) count (w.fill bytes) where
  length := by
    change count * nandPageSize + (w.pageBufFilled + bytes.length) = _
    rw [← Nat.add_assoc, h.length, List.length_append]
  filled := space
  buffered := by
    have appended := Memory.read_write_append w.pageBuf 0 w.pageBufFilled bytes
    rw [Nat.zero_add] at appended
    change (w.pageBuf.write w.pageBufFilled bytes).read 0 (w.pageBufFilled + bytes.length) = _
    rw [appended, h.buffered, List.drop_append_of_le_length h.whole]
  position := h.position
  rest := by
    have := h.rest
    change (image ++ bytes).length + (w.totalRemaining - bytes.length) = total
    rw [List.length_append]
    omega
  opened := h.opened

theorem page (h : Stream offset total image count w) (full : w.pageBufFilled = nandPageSize) :
    w.pageBuf.read 0 nandPageSize = pageSlice image count := by
  have length := h.length
  have buffered := h.buffered
  rw [full] at length buffered
  have last : image.length ≤ (count + 1) * nandPageSize := by
    rw [Nat.succ_mul, length]
  rw [pageSlice, Pages.slice_last last, ← buffered, Pages.padded_full]
  exact Memory.length_read _ _ _

theorem number (h : Stream offset total image count w) :
    w.offset / nandPageSize = offset / nandPageSize + count := by
  rw [h.position]
  exact Nat.add_mul_div_right _ _ (by decide)

theorem flush (h : Stream offset total image count w) (full : w.pageBufFilled = nandPageSize)
    (fits : offset + total < 2 ^ 32) : Stream offset total image (count + 1) w.nextPage := by
  have whole := h.length
  rw [full, ← Nat.succ_mul] at whole
  have position : w.nextPage.offset = offset + (count + 1) * nandPageSize := by
    have rest := h.rest
    change (w.offset + nandPageSize) % 2 ^ 32 = _
    rw [h.position, Nat.add_assoc, ← Nat.succ_mul, whole, Nat.mod_eq_of_lt (by omega)]
  refine ⟨(Nat.add_zero _).trans whole, by simp, ?_, position, ?_, ?_⟩
  · rw [nextPage_pageBufFilled, whole, List.drop_length, Memory.read_zero]
  · rw [nextPage_totalRemaining, h.rest]
  · rw [nextPage_inProgress, h.opened]

end Stream

def Made (s : NandState × W) (cs : List NandCall) (w : NandWriteState) (t : NandState × W) : Prop :=
  t.1 = s.1.afterCalls cs w ∧ Performed driver cs s.2 t.2

theorem Made.write {s t : NandState × W} {cs : List NandCall} {w : NandWriteState}
    (h : Made driver s cs w t) : t.1.write = w := by
  rw [h.1]
  rfl

theorem Made.trans {s t u : NandState × W} {cs ds : List NandCall} {w w' : NandWriteState}
    (h : Made driver s cs w t) (h' : Made driver t ds w' u) : Made driver s (cs ++ ds) w' u := by
  refine ⟨?_, (performed_append driver).mpr ⟨t.2, h.2, h'.2⟩⟩
  rw [h'.1, h.1, afterCalls_append]

theorem nandWriteFullPage_success {page : Nat} {s t : NandState × W}
    (run : (nandWriteFullPage driver page).Returns s responseSuccess t) :
    Made driver s [.writePage page (s.1.write.pageBuf.read 0 nandPageSize) .ok]
      s.1.write.nextPage t := by
  simp only [nandWriteFullPage, NandStub.writePage, NandStub.modifyWrite, Prog.returns_get_bind,
    Prog.returns_act_bind] at run
  cases r : (driver.writePage page (s.1.write.pageBuf.read 0 nandPageSize) s.2).1 with
  | ok =>
    simp only [r, ne_eq, not_true, if_false, Prog.returns_modify_bind, Prog.returns_pure] at run
    rw [run.2]
    exact ⟨rfl, _, Prod.ext r rfl, rfl⟩
  | programFailed | eraseFailed | otherError =>
    simp only [r, ne_eq, reduceCtorEq, not_false_eq_true, if_true, Prog.returns_pure] at run
    exact absurd run.1 (by decide)

theorem nandWriteFlushPage_success {s t : NandState × W}
    (run : (nandWriteFlushPage driver).Returns s responseSuccess t) :
    Made driver s (pageCalls (s.1.write.offset / nandPageSize)
      (s.1.write.pageBuf.read 0 nandPageSize)) s.1.write.nextPage t := by
  simp only [nandWriteFlushPage, Prog.returns_get_bind] at run
  by_cases boundary : s.1.write.offset / nandPageSize % nandPagesPerBlock = 0
  · rw [pageCalls, if_pos boundary]
    rw [if_pos boundary] at run
    simp only [NandStub.eraseBlock, Prog.returns_act_bind] at run
    cases r : (driver.eraseBlock (s.1.write.offset / nandPageSize) s.2).1 with
    | ok =>
      simp only [r, ne_eq, not_true, if_false] at run
      have erased : Made driver s [.eraseBlock (s.1.write.offset / nandPageSize) .ok] s.1.write
          (s.1.afterCalls [.eraseBlock (s.1.write.offset / nandPageSize) .ok] s.1.write,
            (driver.eraseBlock (s.1.write.offset / nandPageSize) s.2).2) :=
        ⟨rfl, _, Prod.ext r rfl, rfl⟩
      exact erased.trans driver (nandWriteFullPage_success driver run)
    | programFailed | eraseFailed | otherError =>
      simp only [r, ne_eq, reduceCtorEq, not_false_eq_true, if_true, Prog.returns_pure] at run
      exact absurd run.1 (by decide)
  · rw [pageCalls, if_neg boundary]
    rw [if_neg boundary] at run
    exact nandWriteFullPage_success driver run

/-- A session since `s₀` has taken in `image`: its whole pages are written, the rest is in the
page buffer. -/
def Streaming (s₀ : NandState × W) (offset total : Nat) (image : List UInt8)
    (s : NandState × W) : Prop :=
  ∃ count w, Made driver s₀ (streamCalls offset image count) w s ∧
    Stream offset total image count w ∧ w.pageBufFilled < nandPageSize

theorem nandCopyStep_stream {s₀ : NandState × W} {offset total : Nat}
    (fits : offset + total < 2 ^ 32) {image : List UInt8} {mem : Memory} {l : NandCopy}
    {s t : NandState × W} {r : NandCopy ⊕ Int} (stream : Streaming driver s₀ offset total image s)
    (left : l.toProcess ≤ s.1.write.totalRemaining)
    (run : (nandCopyStep driver mem l).Returns s r t) :
    TakesChunk (Streaming driver s₀ offset total) (fun _ => True) image mem l r t := by
  have taken := stream
  obtain ⟨count, w, made, state, room⟩ := stream
  have hw := made.write
  have rest := state.rest
  obtain ⟨empty, rfl, rfl⟩ | ⟨chunk, next, u, some, space, rfl, hu, outcome⟩ :=
    nandCopyStep_cases driver (by rw [hw]; exact room) (by rw [hw]; omega) left run
  · exact .inl ⟨rfl, empty, taken⟩
  rw [hw] at left space outcome hu
  have length : (mem.read l.src chunk).length = chunk := Memory.length_read _ _ _
  have filled : Stream _ _ _ _ (w.fill (mem.read l.src chunk)) :=
    state.fill (by omega) (by omega)
  have level : (w.fill (mem.read l.src chunk)).pageBufFilled = w.pageBufFilled + chunk := by
    simp [NandWriteState.fill]
  have bound : l.toProcess - chunk ≤ (w.fill (mem.read l.src chunk)).totalRemaining := by
    simp only [NandWriteState.fill, length]
    omega
  have moved : Made driver s [] (w.fill (mem.read l.src chunk)) u := by
    rw [hu]
    exact ⟨rfl, rfl⟩
  have before := made.trans driver moved
  rw [List.append_nil, ← streamCalls_append state.whole offset (mem.read l.src chunk)] at before
  obtain ⟨less, rfl, rfl⟩ | ⟨full, ret, v, flush, ends⟩ := outcome
  · refine ⟨chunk, some, rfl, ⟨count, _, before, filled, by omega⟩, ?_⟩
    rw [before.write]
    exact bound
  obtain ⟨rfl, rfl, rfl⟩ | ⟨error, rfl, rfl⟩ := ends
  · have flushed := nandWriteFlushPage_success driver flush
    rw [moved.write, filled.number, filled.page (by omega)] at flushed
    have after := before.trans driver flushed
    rw [← streamCalls_succ] at after
    refine ⟨chunk, some, rfl, ⟨count + 1, _, after, filled.flush (by omega) fits, by simp⟩, ?_⟩
    rw [after.write, nextPage_totalRemaining]
    exact bound
  · exact .inr ⟨error, trivial⟩

theorem nandPluginWriteFlashData_stream {s₀ : NandState × W} {offset total : Nat}
    (fits : offset + total < 2 ^ 32) {image : List UInt8} {mem : Memory} {data len : Nat}
    {resp resp' : NandResponse} {s t : NandState × W}
    (stream : Streaming driver s₀ offset total image s)
    (run : (nandPluginWriteFlashData driver mem data len resp).Returns s
      (responseSuccess, resp') t) :
    Streaming driver s₀ offset total (image ++ nandPayload mem data len) t := by
  obtain ⟨error, -⟩ | ⟨-, left, copy⟩ := nandPluginWriteFlashData_cases driver run
  · exact absurd rfl error
  obtain ⟨-, taken⟩ | ⟨error, -⟩ := nandCopy_takes driver
    (fun _ _ _ _ _ stream left run => nandCopyStep_stream driver fits stream left run)
    stream left copy
  · exact taken
  · exact absurd rfl error

theorem nandPluginWriteFlashBegin_stream {mem : Memory} {data len : Nat} {s t : NandState × W}
    {resp resp' : NandResponse}
    (run : (nandPluginWriteFlashBegin mem data len resp).Returns s (responseSuccess, resp') t) :
    getLeToU32 mem data % nandPageSize = 0 ∧
      Streaming driver s (getLeToU32 mem data) (getLeToU32 mem (data + 4)) [] t := by
  simp only [nandPluginWriteFlashBegin, NandStub.modifyWrite] at run
  have refused : responseSuccess ≠ responseBadDataLen := by decide
  split_ifs at run with size aligned
  · exact absurd (congrArg Prod.fst ((Prog.returns_pure _ _ _ _).mp run).1) refused
  · exact absurd (congrArg Prod.fst ((Prog.returns_pure _ _ _ _).mp run).1) refused
  · rw [Prog.returns_modify_bind, Prog.returns_pure] at run
    obtain ⟨-, rfl⟩ := run
    refine ⟨not_not.mp aligned, 0, _, ⟨by simp [NandState.afterCalls]; rfl, rfl⟩, ?_, by simp⟩
    exact ⟨rfl, by simp, rfl, rfl, Nat.zero_add _, rfl⟩

theorem nandFlushPadded_success {s t : NandState × W}
    (run : (nandFlushPadded driver).Returns s responseSuccess t) :
    ∃ w, Made driver s (pageCalls (s.1.write.offset / nandPageSize)
      (s.1.write.pad.pageBuf.read 0 nandPageSize)) w t := by
  rw [nandFlushPadded, NandStub.modifyWrite, Prog.returns_modify_bind, Prog.returns_bind] at run
  obtain ⟨r, u, flush, run⟩ := run
  by_cases good : r = responseSuccess
  · subst good
    rw [if_neg (not_not.mpr rfl), Prog.returns_pure] at run
    obtain ⟨-, rfl⟩ := run
    have padded : Made driver s [] s.1.write.pad (s.1.afterCalls [] s.1.write.pad, s.2) :=
      ⟨rfl, rfl⟩
    have start : (({ s.1 with write := s.1.write.pad }, s.2) : NandState × W) =
        (s.1.afterCalls [] s.1.write.pad, s.2) := by
      simp [NandState.afterCalls]
    have flushed := nandWriteFlushPage_success driver (start ▸ flush)
    exact ⟨_, padded.trans driver flushed⟩
  · rw [if_pos good, NandStub.modifyWrite, Prog.returns_modify_bind, Prog.returns_pure] at run
    exact absurd run.1.symm good

def pageCount (total : Nat) : Nat := (total + (nandPageSize - 1)) / nandPageSize

theorem pageCount_whole {count total : Nat} (h : count * nandPageSize = total) :
    pageCount total = count := by
  have page : nandPageSize = 2048 := rfl
  rw [pageCount, page]
  rw [page] at h
  omega

theorem pageCount_part {count total rest : Nat} (h : count * nandPageSize + rest = total)
    (some : 0 < rest) (room : rest < nandPageSize) : pageCount total = count + 1 := by
  have page : nandPageSize = 2048 := rfl
  rw [pageCount, page]
  rw [page] at h room
  omega

theorem Stream.lastPage {offset total count : Nat} {image : List UInt8} {w : NandWriteState}
    (h : Stream offset total image count w) :
    w.pad.pageBuf.read 0 nandPageSize = pageSlice image count := by
  have last : image.length ≤ (count + 1) * nandPageSize := by
    rw [Nat.succ_mul, ← h.length]
    exact Nat.add_le_add_left h.filled _
  rw [read_pad h.filled, pageSlice, Pages.slice_last last, ← h.buffered, Pages.padded,
    Memory.length_read]

theorem nandPluginWriteFlashEnd_stream {s₀ : NandState × W} {offset total : Nat}
    {image : List UInt8} {len : Nat} {resp resp' : NandResponse} {s t : NandState × W}
    (stream : Streaming driver s₀ offset total image s)
    (run : (nandPluginWriteFlashEnd driver len resp).Returns s (responseSuccess, resp') t) :
    image.length = total ∧ Made driver s₀ (streamCalls offset image (pageCount total)) {} t := by
  obtain ⟨count, w, made, state, room⟩ := stream
  have hw := made.write
  by_cases unready : len ≠ spiNandWriteFlashEndSize ∨ s.1.write.inProgress = false ∨
      s.1.write.totalRemaining ≠ 0
  · exact absurd rfl (nandPluginWriteFlashEnd_refuses driver unready run).1
  obtain ⟨u, outcome, rfl⟩ := nandPluginWriteFlashEnd_ready driver unready run
  simp only [not_or, not_not] at unready
  obtain ⟨-, -, rest⟩ := unready
  rw [hw] at rest outcome
  have whole : image.length = total := by
    have := state.rest
    omega
  have length := state.length
  rw [whole] at length
  refine ⟨whole, ?_⟩
  rw [if_pos rfl]
  obtain ⟨buffered, flush⟩ | ⟨empty, -, rfl⟩ := outcome
  · obtain ⟨w', flushed⟩ := nandFlushPadded_success driver flush
    rw [hw, state.number, state.lastPage] at flushed
    have after := made.trans driver flushed
    rw [← streamCalls_succ, ← pageCount_part length buffered room] at after
    refine ⟨?_, after.2⟩
    rw [after.1]
    rfl
  · rw [empty, Nat.add_zero] at length
    rw [pageCount_whole length]
    refine ⟨?_, made.2⟩
    rw [made.1]
    rfl

def Accepted (step : NandWriteCommand × Int) : Prop :=
  ∃ mem data len, step = (.data mem data len, responseSuccess)

theorem NandSession.stream {s₀ : NandState × W} {offset total : Nat}
    (fits : offset + total < 2 ^ 32) {steps : List (NandWriteCommand × Int)} {image : List UInt8}
    {s t : NandState × W} (accepted : ∀ step ∈ steps, Accepted step)
    (stream : Streaming driver s₀ offset total image s) (run : NandSession driver steps s t) :
    Streaming driver s₀ offset total (image ++ imageOf steps) t := by
  induction steps generalizing image s with
  | nil =>
    rw [show t = s from run]
    simpa [imageOf] using stream
  | cons step steps ih =>
    obtain ⟨resp, u, first, rest⟩ := run
    obtain ⟨mem, data, len, rfl⟩ := accepted step (by simp)
    have next := nandPluginWriteFlashData_stream driver fits stream first
    have last := ih (fun step' h => accepted step' (by simp [h])) next rest
    rw [imageOf, List.flatMap_cons, ← List.append_assoc]
    exact last

def NandWriteCommand.startOffset (mem : Memory) (data : Nat) : Nat := getLeToU32 mem data

/-- The whole write session: its calls are those for the pages of the image. -/
theorem nand_session_stream {mem : Memory} {data len lenEnd : Nat}
    {steps : List (NandWriteCommand × Int)} {resp resp' : NandResponse}
    {s₀ s₁ s₂ s₃ : NandState × W}
    (begun : ((NandWriteCommand.begin mem data len).run driver).Returns s₀
      (responseSuccess, resp) s₁)
    (packets : NandSession driver steps s₁ s₂) (accepted : ∀ step ∈ steps, Accepted step)
    (ended : ((NandWriteCommand.finish lenEnd).run driver).Returns s₂
      (responseSuccess, resp') s₃)
    (fits : NandWriteCommand.startOffset mem data + NandWriteCommand.totalSize mem data ≤
      nandBlockCount * nandBlockSize) :
    (imageOf steps).length = NandWriteCommand.totalSize mem data ∧
      Made driver s₀ (streamCalls (NandWriteCommand.startOffset mem data) (imageOf steps)
        (pageCount (NandWriteCommand.totalSize mem data))) {} s₃ := by
  have device : nandBlockCount * nandBlockSize = 2 ^ 27 := rfl
  obtain ⟨-, start⟩ := nandPluginWriteFlashBegin_stream driver begun
  have stream := NandSession.stream driver (by
    change NandWriteCommand.startOffset mem data + NandWriteCommand.totalSize mem data < 2 ^ 32
    omega) accepted start packets
  exact nandPluginWriteFlashEnd_stream driver stream ended

/-- A successful write session erases and writes the pages of its image in order and once each,
and leaves no write state behind. -/
theorem nand_session_calls {mem : Memory} {data len lenEnd : Nat}
    {steps : List (NandWriteCommand × Int)} {resp resp' : NandResponse}
    {s₀ s₁ s₂ s₃ : NandState × W}
    (begun : ((NandWriteCommand.begin mem data len).run driver).Returns s₀
      (responseSuccess, resp) s₁)
    (packets : NandSession driver steps s₁ s₂) (accepted : ∀ step ∈ steps, Accepted step)
    (ended : ((NandWriteCommand.finish lenEnd).run driver).Returns s₂
      (responseSuccess, resp') s₃)
    (fits : NandWriteCommand.startOffset mem data + NandWriteCommand.totalSize mem data ≤
      nandBlockCount * nandBlockSize) :
    NandWriteCommand.startOffset mem data % nandPageSize = 0 ∧
      (imageOf steps).length = NandWriteCommand.totalSize mem data ∧
      s₃.1.calls = s₀.1.calls ++ streamCalls (NandWriteCommand.startOffset mem data)
        (imageOf steps) (pageCount (NandWriteCommand.totalSize mem data)) ∧
      (∀ pre post u, steps = pre ++ post → NandSession driver pre s₁ u →
        u.1.write.pageBufFilled < nandPageSize) ∧
      s₃.1.write = {} := by
  obtain ⟨whole, made⟩ := nand_session_stream driver begun packets accepted ended fits
  obtain ⟨aligned, start⟩ := nandPluginWriteFlashBegin_stream driver begun
  have device : nandBlockCount * nandBlockSize = 2 ^ 27 := rfl
  refine ⟨aligned, whole, by rw [made.1]; rfl, ?_, made.write⟩
  rintro pre post u rfl run
  obtain ⟨count, w, made, -, room⟩ := NandSession.stream driver (by
    change NandWriteCommand.startOffset mem data + NandWriteCommand.totalSize mem data < 2 ^ 32
    omega) (fun step h => accepted step (by simp [h])) start run
  rw [made.write]
  exact room

/-- Two blocks, which meet inside the first page; the last page is filled up. -/
theorem nand_session_calls_two_pages : ∃ s : NandState × List NandResult,
    s.1.calls = [.eraseBlock 0 .ok, .writePage 0 (List.replicate 2048 0x5A) .ok,
        .writePage 1 (List.replicate 3 0x5A ++ List.replicate 2045 0xFF) .ok] ∧
      s.1.write = {} := by
  obtain ⟨resp, s₁, s₂, resp', s₃, begun, blocks, ended, -⟩ := exists_nandTwoBlocks
  obtain ⟨-, -, calls, -, closed⟩ := nand_session_calls scriptedNand begun blocks
    (by simp [nandTwoBlocks, Accepted]) ended (by decide)
  refine ⟨s₃, calls.trans ?_, closed⟩
  decide +kernel

end FlasherStub
