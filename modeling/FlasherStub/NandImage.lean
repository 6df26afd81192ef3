import FlasherStub.Nand

/-! When `nand_plugin_write_flash_end` may acknowledge an image. A failed flush
drops the buffered page, which was already subtracted from `total_remaining`;
the counters alone do not show it later. -/

namespace FlasherStub

open ByteMemory Budget

variable {W : Type} (driver : NandDriver W)

/-- What the successful `write_page` calls were given, one after the other. -/
def passedBytes (calls : List NandCall) : List UInt8 :=
  calls.flatMap fun
    | .writePage _ data .ok => data
    | _ => []

@[simp] theorem passedBytes_nil : passedBytes [] = [] := rfl

@[simp] theorem passedBytes_append (cs ds : List NandCall) :
    passedBytes (cs ++ ds) = passedBytes cs ++ passedBytes ds :=
  List.flatMap_append

def AllOk (calls : List NandCall) : Prop := ∀ c ∈ calls, c.result = .ok

instance (calls : List NandCall) : Decidable (AllOk calls) :=
  inferInstanceAs (Decidable (∀ c ∈ calls, _))

theorem allOk_append {cs ds : List NandCall} : AllOk (cs ++ ds) ↔ AllOk cs ∧ AllOk ds := by
  simp [AllOk, or_imp, forall_and]

theorem nandErrToResponse_eq_success {r : NandResult} :
    nandErrToResponse r = responseSuccess ↔ r = .ok := by
  cases r <;> decide

def NandState.afterCalls (n : NandState) (cs : List NandCall) (w : NandWriteState) : NandState :=
  { n with calls := n.calls ++ cs, write := w }

def NandWriteState.nextPage (w : NandWriteState) : NandWriteState :=
  { w with offset := (w.offset + nandPageSize) % 2 ^ 32, pageBufFilled := 0 }

@[simp] theorem nextPage_inProgress (w : NandWriteState) :
    w.nextPage.inProgress = w.inProgress := by
  cases w
  rfl

@[simp] theorem nextPage_pageBufFilled (w : NandWriteState) : w.nextPage.pageBufFilled = 0 := by
  cases w
  rfl

/-- A flush either hands over the buffered page with successful calls only, or
it ends at a failed call, hands over nothing and leaves the write state. -/
def FlushOutcome (w : NandWriteState) (ret : Int) (cs : List NandCall) (w' : NandWriteState) :
    Prop :=
  (ret = responseSuccess ∧ AllOk cs ∧ passedBytes cs = w.pageBuf.read 0 nandPageSize ∧
      w' = w.nextPage) ∨
    (ret ≠ responseSuccess ∧ ¬ AllOk cs ∧ passedBytes cs = [] ∧ w' = w)

theorem nandWriteFullPage_outcome (page : Nat) {s t : NandState × W} {ret : Int}
    (run : (nandWriteFullPage driver page).Returns s ret t) :
    ∃ cs w, t.1 = s.1.afterCalls cs w ∧ FlushOutcome s.1.write ret cs w := by
  simp only [nandWriteFullPage, NandStub.writePage, NandStub.modifyWrite, Prog.returns_get_bind,
    Prog.returns_act_bind] at run
  cases r : (driver.writePage page (s.1.write.pageBuf.read 0 nandPageSize) s.2).1 with
  | ok =>
    simp only [r, ne_eq, not_true, if_false, Prog.returns_modify_bind, Prog.returns_pure] at run
    obtain ⟨rfl, rfl⟩ := run
    exact ⟨_, _, rfl, .inl ⟨rfl, by simp [AllOk, NandCall.result], by simp [passedBytes], rfl⟩⟩
  | programFailed | eraseFailed | otherError =>
    simp only [r, ne_eq, reduceCtorEq, not_false_eq_true, if_true, Prog.returns_pure] at run
    obtain ⟨rfl, rfl⟩ := run
    exact ⟨_, s.1.write, rfl, .inr ⟨by decide, by simp [AllOk, NandCall.result],
      by simp [passedBytes], rfl⟩⟩

theorem nandWriteFlushPage_outcome {s t : NandState × W} {ret : Int}
    (run : (nandWriteFlushPage driver).Returns s ret t) :
    ∃ cs w, t.1 = s.1.afterCalls cs w ∧ FlushOutcome s.1.write ret cs w := by
  simp only [nandWriteFlushPage, Prog.returns_get_bind] at run
  split_ifs at run with boundary
  · simp only [NandStub.eraseBlock, Prog.returns_act_bind] at run
    split_ifs at run with erased
    · obtain ⟨rfl, rfl⟩ := (Prog.returns_pure _ _ _ _).mp run
      refine ⟨_, s.1.write, rfl, .inr ⟨?_, by simpa [AllOk, NandCall.result], by simp [passedBytes],
        rfl⟩⟩
      exact fun h => erased (nandErrToResponse_eq_success.mp h)
    · obtain ⟨cs, w, ht, outcome⟩ := nandWriteFullPage_outcome driver _ run
      have ok := not_not.mp erased
      refine ⟨.eraseBlock (s.1.write.offset / nandPageSize) .ok :: cs, w, ?_, ?_⟩
      · rw [ht, ok]
        simp [NandState.afterCalls]
      · obtain ⟨h₁, h₂, h₃, h₄⟩ | ⟨h₁, h₂, h₃, h₄⟩ := outcome
        · exact .inl ⟨h₁, by simpa [AllOk, NandCall.result] using h₂,
            by simpa [passedBytes] using h₃, h₄⟩
        · exact .inr ⟨h₁, by simpa [AllOk, NandCall.result] using h₂,
            by simpa [passedBytes] using h₃, h₄⟩
  · exact nandWriteFullPage_outcome driver _ run

def NandWriteState.fill (w : NandWriteState) (bytes : List UInt8) : NandWriteState :=
  { w with
    pageBuf := w.pageBuf.write w.pageBufFilled bytes
    pageBufFilled := w.pageBufFilled + bytes.length
    totalRemaining := w.totalRemaining - bytes.length }

def NandWriteState.drop (w : NandWriteState) : NandWriteState := { w with pageBufFilled := 0 }

/-- Where the declared bytes are: handed over, buffered, lost or still to come.
Without a failed call none are lost and the image so far is what was handed over
and what is buffered. With one, a page or all that was left is lost. -/
structure Balance (total : Nat) (image : List UInt8) (cs : List NandCall) (w : NandWriteState)
    (lost : Nat) : Prop where
  filled : w.pageBufFilled ≤ nandPageSize
  sum : (passedBytes cs).length + w.pageBufFilled + lost + w.totalRemaining = total
  ok : AllOk cs → lost = 0 ∧ image = passedBytes cs ++ w.pageBuf.read 0 w.pageBufFilled
  failed : ¬ AllOk cs → nandPageSize ≤ lost ∨
    0 < lost ∧ w.totalRemaining = 0 ∧ w.pageBufFilled = 0

theorem Balance.fill {total lost : Nat} {image bytes : List UInt8} {cs : List NandCall}
    {w : NandWriteState} (h : Balance total image cs w lost)
    (left : bytes.length ≤ w.totalRemaining)
    (space : w.pageBufFilled + bytes.length ≤ nandPageSize) :
    Balance total (image ++ bytes) cs (w.fill bytes) lost where
  filled := space
  sum := by
    have := h.sum
    simp only [NandWriteState.fill]
    omega
  ok all := by
    obtain ⟨none, same⟩ := h.ok all
    have appended := Memory.read_write_append w.pageBuf 0 w.pageBufFilled bytes
    rw [Nat.zero_add] at appended
    refine ⟨none, ?_⟩
    simp only [NandWriteState.fill]
    rw [appended, same, List.append_assoc]
  failed some := by
    obtain page | ⟨some, rest, empty⟩ := h.failed some
    · exact .inl page
    · refine .inr ⟨some, ?_, ?_⟩ <;> simp only [NandWriteState.fill] <;> omega

theorem Balance.flush {total lost : Nat} {image : List UInt8} {cs ds : List NandCall}
    {w w' : NandWriteState} (h : Balance total image cs w lost)
    (full : w.pageBufFilled = nandPageSize) (outcome : FlushOutcome w responseSuccess ds w') :
    Balance total image (cs ++ ds) w' lost := by
  obtain ⟨-, good, passed, rfl⟩ | ⟨bad, -⟩ := outcome
  · have length : (passedBytes ds).length = nandPageSize := by rw [passed, Memory.length_read]
    refine ⟨by simp [NandWriteState.nextPage], ?_, ?_, ?_⟩
    · have := h.sum
      simp only [passedBytes_append, List.length_append, length, NandWriteState.nextPage]
      omega
    · intro all
      obtain ⟨none, same⟩ := h.ok (allOk_append.mp all).1
      refine ⟨none, ?_⟩
      rw [same, full, passedBytes_append, passed]
      simp [NandWriteState.nextPage]
    · intro some
      obtain page | ⟨_, _, empty⟩ := h.failed fun all => some (allOk_append.mpr ⟨all, good⟩)
      · exact .inl page
      · omega
  · exact absurd rfl bad

theorem Balance.lose {total lost : Nat} {image : List UInt8} {cs ds : List NandCall}
    {w w' : NandWriteState} {ret : Int} (h : Balance total image cs w lost)
    (some : nandPageSize ≤ w.pageBufFilled ∨ 0 < w.pageBufFilled ∧ w.totalRemaining = 0)
    (error : ret ≠ responseSuccess) (outcome : FlushOutcome w ret ds w') :
    Balance total image (cs ++ ds) w'.drop (lost + w.pageBufFilled) := by
  obtain ⟨good, -⟩ | ⟨-, bad, passed, rfl⟩ := outcome
  · exact absurd good error
  · refine ⟨by simp [NandWriteState.drop], ?_, ?_, ?_⟩
    · have := h.sum
      simp only [passedBytes_append, passed, List.append_nil, NandWriteState.drop]
      omega
    · exact fun all => absurd (allOk_append.mp all).2 bad
    · intro _
      obtain page | ⟨some, rest⟩ := some
      · exact .inl (by omega)
      · exact .inr ⟨by omega, rest, rfl⟩

def Holds (n₀ : NandState) (total : Nat) (image : List UInt8) (n : NandState) : Prop :=
  ∃ cs w lost, n = n₀.afterCalls cs w ∧ Balance total image cs w lost ∧
    w.pageBufFilled < nandPageSize ∧ w.inProgress = true

theorem afterCalls_append {n : NandState} {cs ds : List NandCall} {w w' : NandWriteState} :
    (n.afterCalls cs w).afterCalls ds w' = n.afterCalls (cs ++ ds) w' := by
  simp [NandState.afterCalls]

theorem returns_nandFillChunk {mem : Memory} {l : NandCopy} {s t : NandState × W} {next : NandCopy}
    (filled : s.1.write.pageBufFilled < nandPageSize) (bound : s.1.write.totalRemaining < 2 ^ 32)
    (left : l.toProcess ≤ s.1.write.totalRemaining)
    (run : (nandFillChunk mem l).Returns s next t) :
    ∃ chunk, chunk ≤ l.toProcess ∧ s.1.write.pageBufFilled + chunk ≤ nandPageSize ∧
      (0 < l.toProcess → 0 < chunk) ∧
      next = { src := l.src + chunk, toProcess := l.toProcess - chunk } ∧
      t = (s.1.afterCalls [] (s.1.write.fill (mem.read l.src chunk)), s.2) := by
  have page : nandPageSize = 2048 := rfl
  have space : sub32 nandPageSize s.1.write.pageBufFilled =
      nandPageSize - s.1.write.pageBufFilled := sub32_of_le (by omega) (by omega)
  simp only [nandFillChunk, NandStub.modifyWrite, Prog.returns_get_bind, Prog.returns_modify_bind,
    Prog.returns_pure, space] at run
  generalize hchunk : (if l.toProcess < nandPageSize - s.1.write.pageBufFilled then l.toProcess
    else nandPageSize - s.1.write.pageBufFilled) = chunk at run
  have bounds : chunk ≤ l.toProcess ∧ chunk ≤ nandPageSize - s.1.write.pageBufFilled ∧
      (0 < l.toProcess → 0 < chunk) := by
    split_ifs at hchunk <;> omega
  obtain ⟨rfl, rfl⟩ := run
  have wrap : (s.1.write.pageBufFilled + chunk) % 2 ^ 32 = s.1.write.pageBufFilled + chunk := by
    omega
  have process : sub32 l.toProcess chunk = l.toProcess - chunk := sub32_of_le (by omega) (by omega)
  have rest : sub32 s.1.write.totalRemaining chunk = s.1.write.totalRemaining - chunk :=
    sub32_of_le (by omega) bound
  refine ⟨chunk, bounds.1, by omega, bounds.2.2, by rw [process], ?_⟩
  simp only [wrap, rest, NandState.afterCalls, NandWriteState.fill, Memory.length_read,
    List.append_nil]

def dropPage (s : NandState × W) : NandState × W := ({ s.1 with write := s.1.write.drop }, s.2)

theorem nandCopyStep_cases {mem : Memory} {l : NandCopy} {s t : NandState × W}
    {r : NandCopy ⊕ Int} (filled : s.1.write.pageBufFilled < nandPageSize)
    (bound : s.1.write.totalRemaining < 2 ^ 32) (left : l.toProcess ≤ s.1.write.totalRemaining)
    (run : (nandCopyStep driver mem l).Returns s r t) :
    (l.toProcess = 0 ∧ r = .inr responseSuccess ∧ t = s) ∨
      ∃ chunk next u, chunk ≤ l.toProcess ∧ s.1.write.pageBufFilled + chunk ≤ nandPageSize ∧
        next = { src := l.src + chunk, toProcess := l.toProcess - chunk } ∧
        u = (s.1.afterCalls [] (s.1.write.fill (mem.read l.src chunk)), s.2) ∧
        ((s.1.write.pageBufFilled + chunk < nandPageSize ∧ r = .inl next ∧ t = u) ∨
          s.1.write.pageBufFilled + chunk = nandPageSize ∧ ∃ ret v,
            (nandWriteFlushPage driver).Returns u ret v ∧
            ((ret = responseSuccess ∧ r = .inl next ∧ t = v) ∨
              (ret ≠ responseSuccess ∧ r = .inr ret ∧ t = dropPage v))) := by
  unfold nandCopyStep at run
  split_ifs at run with more
  · rw [Prog.returns_bind] at run
    obtain ⟨next, u, filling, run⟩ := run
    obtain ⟨chunk, some, space, -, rfl, rfl⟩ := returns_nandFillChunk filled bound left filling
    refine .inr ⟨chunk, _, _, some, space, rfl, rfl, ?_⟩
    have count : (s.1.write.fill (mem.read l.src chunk)).pageBufFilled =
        s.1.write.pageBufFilled + chunk := by
      simp [NandWriteState.fill]
    rw [Prog.returns_get_bind] at run
    change (if nandPageSize ≤ (s.1.write.fill (mem.read l.src chunk)).pageBufFilled then _ else _ :
      NandStub W (NandCopy ⊕ Int)).Returns _ r t at run
    rw [count] at run
    split_ifs at run with full
    · rw [Prog.returns_bind] at run
      obtain ⟨ret, v, flush, run⟩ := run
      refine .inr ⟨le_antisymm space full, ret, v, flush, ?_⟩
      split_ifs at run with error
      · rw [NandStub.modifyWrite, Prog.returns_modify_bind, Prog.returns_pure] at run
        exact .inr ⟨error, run.1, run.2⟩
      · rw [Prog.returns_pure] at run
        exact .inl ⟨not_not.mp error, run.1, run.2⟩
    · rw [Prog.returns_pure] at run
      exact .inl ⟨not_le.mp full, run.1, run.2⟩
  · rw [Prog.returns_pure] at run
    exact .inl ⟨by omega, run.1, run.2⟩

theorem Balance.image_of_failed {total lost : Nat} {image : List UInt8} {cs : List NandCall}
    {w : NandWriteState} (h : Balance total image cs w lost) (bad : ¬ AllOk cs)
    (image' : List UInt8) : Balance total image' cs w lost :=
  ⟨h.filled, h.sum, fun all => absurd all bad, h.failed⟩

theorem FlushOutcome.not_allOk {w w' : NandWriteState} {ret : Int} {cs : List NandCall}
    (h : FlushOutcome w ret cs w') (error : ret ≠ responseSuccess) : ¬ AllOk cs := by
  obtain ⟨good, -⟩ | ⟨-, bad, -⟩ := h
  · exact absurd good error
  · exact bad

theorem FlushOutcome.inProgress {w w' : NandWriteState} {ret : Int} {cs : List NandCall}
    (h : FlushOutcome w ret cs w') : w'.inProgress = w.inProgress := by
  obtain ⟨-, -, -, rfl⟩ | ⟨-, -, -, rfl⟩ := h
  · exact nextPage_inProgress w
  · rfl

/-- What one round of the copy loop leaves: the end, an error after a failed
call, or the next round with some more of the payload in the image. -/
def CopyRound (n₀ : NandState) (total : Nat) (image : List UInt8) (mem : Memory) (l : NandCopy)
    (s : NandState × W) (r : NandCopy ⊕ Int) (t : NandState × W) : Prop :=
  match r with
  | .inl next => ∃ chunk, chunk ≤ l.toProcess ∧
      next = { src := l.src + chunk, toProcess := l.toProcess - chunk } ∧
      Holds n₀ total (image ++ mem.read l.src chunk) t.1 ∧
      next.toProcess ≤ t.1.write.totalRemaining
  | .inr ret => (ret = responseSuccess ∧ l.toProcess = 0 ∧ t = s) ∨
      (ret ≠ responseSuccess ∧ ∀ image', Holds n₀ total image' t.1)

theorem nandCopyStep_round {n₀ : NandState} {total : Nat} (bound : total < 2 ^ 32)
    {image : List UInt8} {mem : Memory} {l : NandCopy} {s t : NandState × W}
    {r : NandCopy ⊕ Int} (holds : Holds n₀ total image s.1)
    (left : l.toProcess ≤ s.1.write.totalRemaining)
    (run : (nandCopyStep driver mem l).Returns s r t) : CopyRound n₀ total image mem l s r t := by
  obtain ⟨cs, w, lost, hn, balance, room, progress⟩ := holds
  have hw : s.1.write = w := by rw [hn]; rfl
  have sum := balance.sum
  obtain ⟨empty, rfl, rfl⟩ | ⟨chunk, next, u, some, space, rfl, hu, outcome⟩ :=
    nandCopyStep_cases driver (by rw [hw]; exact room) (by rw [hw]; omega) left run
  · exact .inl ⟨rfl, empty, rfl⟩
  rw [hw] at left space outcome hu
  have length : (mem.read l.src chunk).length = chunk := Memory.length_read _ _ _
  have filled := balance.fill (by rw [length]; omega) (by rw [length]; exact space)
  have count : (w.fill (mem.read l.src chunk)).pageBufFilled = w.pageBufFilled + chunk := by
    simp [NandWriteState.fill]
  have rest : l.toProcess - chunk ≤ (w.fill (mem.read l.src chunk)).totalRemaining := by
    simp only [NandWriteState.fill, length]
    omega
  have after : u.1 = n₀.afterCalls cs (w.fill (mem.read l.src chunk)) := by
    rw [hu, hn, afterCalls_append, List.append_nil]
  have write : u.1.write = w.fill (mem.read l.src chunk) := by rw [after]; rfl
  obtain ⟨less, rfl, rfl⟩ | ⟨full, ret, v, flush, ends⟩ := outcome
  · refine ⟨chunk, some, rfl, ⟨cs, _, lost, after, filled, by omega, progress⟩, ?_⟩
    rw [write]
    exact rest
  obtain ⟨ds, w', hv, flushed⟩ := nandWriteFlushPage_outcome driver flush
  rw [write] at flushed
  rw [after, afterCalls_append] at hv
  obtain ⟨rfl, rfl, rfl⟩ | ⟨error, rfl, rfl⟩ := ends
  · have passed := filled.flush (by omega) flushed
    obtain ⟨-, -, -, rfl⟩ | ⟨bad, -⟩ := flushed
    · refine ⟨chunk, some, rfl, ⟨_, _, lost, hv, passed, by simp, ?_⟩, ?_⟩
      · rw [nextPage_inProgress]
        exact progress
      · rw [hv]
        exact rest
    · exact absurd rfl bad
  · have dropped := filled.lose (.inl (by omega)) error flushed
    have bad : ¬ AllOk (cs ++ ds) := fun all => flushed.not_allOk error (allOk_append.mp all).2
    refine .inr ⟨error, fun image' => ⟨cs ++ ds, w'.drop, _, ?_,
      dropped.image_of_failed bad image', by simp [NandWriteState.drop], ?_⟩⟩
    · rw [dropPage, hv]
      rfl
    · exact flushed.inProgress.trans progress

/-- The bytes that a DATA command carries after its own header. -/
def nandPayload (mem : Memory) (data len : Nat) : List UInt8 :=
  mem.read (data + spiNandWriteFlashDataHeaderSize) (len - spiNandWriteFlashDataHeaderSize)

/-- A round of the copy loop, for any account `taken` of the image so far: the next chunk is
taken, or the loop is over, or it failed. -/
def TakesChunk (taken : List UInt8 → NandState × W → Prop) (failed : NandState × W → Prop)
    (image : List UInt8) (mem : Memory) (l : NandCopy) (r : NandCopy ⊕ Int) (t : NandState × W) :
    Prop :=
  match r with
  | .inl next => ∃ chunk, chunk ≤ l.toProcess ∧
      next = { src := l.src + chunk, toProcess := l.toProcess - chunk } ∧
      taken (image ++ mem.read l.src chunk) t ∧ next.toProcess ≤ t.1.write.totalRemaining
  | .inr ret => (ret = responseSuccess ∧ l.toProcess = 0 ∧ taken image t) ∨
      (ret ≠ responseSuccess ∧ failed t)

theorem nandCopy_takes {taken : List UInt8 → NandState × W → Prop} {failed : NandState × W → Prop}
    {image : List UInt8} {mem : Memory} {src size : Nat}
    (round : ∀ image l s r t, taken image s → l.toProcess ≤ s.1.write.totalRemaining →
      (nandCopyStep driver mem l).Returns s r t → TakesChunk taken failed image mem l r t)
    {s t : NandState × W} {ret : Int} (start : taken image s)
    (left : size ≤ s.1.write.totalRemaining)
    (run : (Prog.loop (nandCopyStep driver mem) { src, toProcess := size }).Returns s ret t) :
    (ret = responseSuccess ∧ taken (image ++ mem.read src size) t) ∨
      (ret ≠ responseSuccess ∧ failed t) := by
  let inv (l : NandCopy) (s : NandState × W) : Prop := ∃ copied, l.src = src + copied ∧
    copied + l.toProcess = size ∧ taken (image ++ mem.read src copied) s ∧
    l.toProcess ≤ s.1.write.totalRemaining
  let post (ret : Int) (t : NandState × W) : Prop :=
    (ret = responseSuccess ∧ taken (image ++ mem.read src size) t) ∨
      (ret ≠ responseSuccess ∧ failed t)
  have first : inv { src, toProcess := size } s :=
    ⟨0, rfl, Nat.zero_add size, by simpa using start, left⟩
  have step : ∀ l s, inv l s → (nandCopyStep driver mem l).Ensures s (fun _ => True)
      fun r t => Sum.elim (inv · t) (post · t) r := by
    intro l s ⟨copied, hsrc, sum, holds, left⟩
    refine Prog.Ensures.of_returns fun r t run => ?_
    have takes := round _ l s r t holds left run
    cases r with
    | inl next =>
      obtain ⟨chunk, le, rfl, holds, left⟩ := takes
      refine ⟨copied + chunk, by simp only [hsrc]; omega, by simp only; omega, ?_, left⟩
      rw [Memory.read_add, ← List.append_assoc, ← hsrc]
      exact holds
    | inr ret =>
      obtain ⟨good, empty, holds⟩ | bad := takes
      · obtain rfl : copied = size := by omega
        exact .inl ⟨good, holds⟩
      · exact .inr bad
  exact (Prog.Ensures.loop inv (fun _ _ _ => trivial) step first).2 ret t run

theorem nandCopy_holds {n₀ : NandState} {total : Nat} (bound : total < 2 ^ 32)
    {image : List UInt8} {mem : Memory} {src size : Nat} {s t : NandState × W} {ret : Int}
    (holds : Holds n₀ total image s.1) (left : size ≤ s.1.write.totalRemaining)
    (run : (Prog.loop (nandCopyStep driver mem) { src, toProcess := size }).Returns s ret t) :
    (ret = responseSuccess ∧ Holds n₀ total (image ++ mem.read src size) t.1) ∨
      (ret ≠ responseSuccess ∧ Holds n₀ total image t.1) := by
  have round : ∀ image l s r t, Holds n₀ total image s.1 →
      l.toProcess ≤ s.1.write.totalRemaining → (nandCopyStep driver mem l).Returns s r t →
      TakesChunk (fun image s => Holds n₀ total image s.1)
        (fun t => ∀ image', Holds n₀ total image' t.1) image mem l r t := by
    intro image l s r t holds left run
    have round := nandCopyStep_round driver bound holds left run
    cases r with
    | inl next => exact round
    | inr ret =>
      obtain ⟨good, empty, rfl⟩ | bad := round
      · exact .inl ⟨good, empty, holds⟩
      · exact .inr bad
  obtain done | ⟨error, kept⟩ := nandCopy_takes driver round holds left run
  · exact .inl done
  · exact .inr ⟨error, kept image⟩

theorem nandPluginWriteFlashData_cases {mem : Memory} {data len : Nat} {resp resp' : NandResponse}
    {s t : NandState × W} {ret : Int}
    (run : (nandPluginWriteFlashData driver mem data len resp).Returns s (ret, resp') t) :
    (ret ≠ responseSuccess ∧ t = s) ∨
      s.1.write.inProgress = true ∧
        len - spiNandWriteFlashDataHeaderSize ≤ s.1.write.totalRemaining ∧
        (Prog.loop (nandCopyStep driver mem)
          { src := data + spiNandWriteFlashDataHeaderSize
            toProcess := len - spiNandWriteFlashDataHeaderSize }).Returns s ret t := by
  simp only [nandPluginWriteFlashData, Prog.returns_get_bind] at run
  split_ifs at run with short closed differs many sum
  case neg =>
    rw [min_eq_left (not_lt.mp many), Prog.returns_bind] at run
    obtain ⟨r, u, copy, run⟩ := run
    rw [Prog.returns_pure, Prod.mk.injEq] at run
    obtain ⟨⟨rfl, -⟩, rfl⟩ := run
    exact .inr ⟨by simpa using closed, not_lt.mp many, copy⟩
  all_goals
    rw [Prog.returns_pure, Prod.mk.injEq] at run
    obtain ⟨⟨rfl, -⟩, rfl⟩ := run
    exact .inl ⟨by decide, rfl⟩

theorem nandPluginWriteFlashData_holds {n₀ : NandState} {total : Nat} (bound : total < 2 ^ 32)
    {image : List UInt8} {mem : Memory} {data len : Nat} {resp resp' : NandResponse}
    {s t : NandState × W} {ret : Int} (holds : Holds n₀ total image s.1)
    (run : (nandPluginWriteFlashData driver mem data len resp).Returns s (ret, resp') t) :
    (ret = responseSuccess ∧ Holds n₀ total (image ++ nandPayload mem data len) t.1) ∨
      (ret ≠ responseSuccess ∧ Holds n₀ total image t.1) := by
  obtain ⟨error, rfl⟩ | ⟨-, left, copy⟩ := nandPluginWriteFlashData_cases driver run
  · exact .inr ⟨error, holds⟩
  · exact nandCopy_holds driver bound holds left copy

def NandWriteState.pad (w : NandWriteState) : NandWriteState :=
  { w with
    pageBuf := w.pageBuf.write w.pageBufFilled
      (List.replicate (nandPageSize - w.pageBufFilled) 0xFF)
    pageBufFilled := nandPageSize }

theorem read_pad {w : NandWriteState} (room : w.pageBufFilled ≤ nandPageSize) :
    w.pad.pageBuf.read 0 nandPageSize = w.pageBuf.read 0 w.pageBufFilled ++
      List.replicate (nandPageSize - w.pageBufFilled) 0xFF := by
  have appended := Memory.read_write_append w.pageBuf 0 w.pageBufFilled
    (List.replicate (nandPageSize - w.pageBufFilled) 0xFF)
  rw [List.length_replicate, Nat.zero_add, Nat.add_sub_cancel' room] at appended
  exact appended

theorem nandFlushPadded_outcome {s t : NandState × W} {ret : Int}
    (run : (nandFlushPadded driver).Returns s ret t) :
    ∃ cs w, FlushOutcome s.1.write.pad ret cs w ∧
      t.1 = s.1.afterCalls cs (if ret = responseSuccess then w else w.drop) := by
  rw [nandFlushPadded, NandStub.modifyWrite, Prog.returns_modify_bind, Prog.returns_bind] at run
  obtain ⟨r, u, flush, run⟩ := run
  obtain ⟨cs, w, hu, outcome⟩ := nandWriteFlushPage_outcome driver flush
  split_ifs at run with error
  · rw [NandStub.modifyWrite, Prog.returns_modify_bind, Prog.returns_pure] at run
    obtain ⟨rfl, rfl⟩ := run
    refine ⟨cs, w, outcome, ?_⟩
    rw [if_neg error, hu]
    rfl
  · obtain ⟨rfl, rfl⟩ := (Prog.returns_pure _ _ _ _).mp run
    refine ⟨cs, w, not_not.mp error ▸ outcome, ?_⟩
    rw [if_pos rfl, hu]
    rfl

def ImagePassed (total : Nat) (image : List UInt8) (calls : List NandCall) : Prop :=
  image.length = total ∧ image <+: passedBytes calls

theorem ImagePassed.total_le {total : Nat} {image : List UInt8} {calls : List NandCall}
    (h : ImagePassed total image calls) : total ≤ (passedBytes calls).length :=
  h.1 ▸ h.2.length_le

theorem Balance.closed {total lost : Nat} {image : List UInt8} {cs : List NandCall}
    {w : NandWriteState} (h : Balance total image cs w lost) (rest : w.totalRemaining = 0)
    (empty : w.pageBufFilled = 0) :
    (AllOk cs → ImagePassed total image cs) ∧
      (¬ AllOk cs → (passedBytes cs).length < total) := by
  have sum := h.sum
  have page : nandPageSize = 2048 := rfl
  constructor
  · intro all
    obtain ⟨none, same⟩ := h.ok all
    rw [empty, Memory.read_zero, List.append_nil] at same
    refine ⟨?_, same ▸ List.prefix_refl _⟩
    rw [same]
    omega
  · intro bad
    have := h.failed bad
    omega

theorem Balance.closed_padded {total lost : Nat} {image : List UInt8} {cs ds : List NandCall}
    {w w' : NandWriteState} (h : Balance total image cs w lost) (rest : w.totalRemaining = 0)
    (some : 0 < w.pageBufFilled) (outcome : FlushOutcome w.pad responseSuccess ds w') :
    (AllOk (cs ++ ds) → ImagePassed total image (cs ++ ds)) ∧
      (¬ AllOk (cs ++ ds) → (passedBytes (cs ++ ds)).length < total) := by
  have sum := h.sum
  have page : nandPageSize = 2048 := rfl
  obtain ⟨-, good, passed, -⟩ | ⟨bad, -⟩ := outcome
  · rw [read_pad h.filled] at passed
    constructor
    · intro all
      obtain ⟨none, same⟩ := h.ok (allOk_append.mp all).1
      refine ⟨by rw [same, List.length_append, Memory.length_read]; omega, ?_⟩
      rw [same, passedBytes_append, passed, ← List.append_assoc]
      exact List.prefix_append _ _
    · intro bad
      have lost := h.failed fun all => bad (allOk_append.mpr ⟨all, good⟩)
      have length : (passedBytes ds).length = nandPageSize := by
        rw [passed, List.length_append, Memory.length_read, List.length_replicate,
          Nat.add_sub_cancel' h.filled]
      rw [passedBytes_append, List.length_append, length]
      omega
  · exact absurd rfl bad

/-- A last page that could not be written is lost, and the session stays open. -/
theorem Balance.lose_padded {total lost : Nat} {image : List UInt8} {cs ds : List NandCall}
    {w w' : NandWriteState} {ret : Int} (h : Balance total image cs w lost)
    (rest : w.totalRemaining = 0) (some : 0 < w.pageBufFilled) (error : ret ≠ responseSuccess)
    (outcome : FlushOutcome w.pad ret ds w') :
    Balance total image (cs ++ ds) w'.drop (lost + w.pageBufFilled) := by
  obtain ⟨good, -⟩ | ⟨-, bad, passed, rfl⟩ := outcome
  · exact absurd good error
  · refine ⟨by simp [NandWriteState.drop], ?_, ?_, ?_⟩
    · have := h.sum
      simp only [passedBytes_append, passed, List.append_nil, NandWriteState.drop,
        NandWriteState.pad]
      omega
    · exact fun all => absurd (allOk_append.mp all).2 bad
    · exact fun _ => .inr ⟨by omega, rest, rfl⟩

def EndOutcome (n₀ : NandState) (total : Nat) (image : List UInt8) (ret : Int) (n : NandState) :
    Prop :=
  if ret = responseSuccess then
    ∃ cs, n = n₀.afterCalls cs {} ∧ (AllOk cs → ImagePassed total image cs) ∧
      (¬ AllOk cs → (passedBytes cs).length < total)
  else Holds n₀ total image n

theorem nandPluginWriteFlashEnd_refuses {len : Nat} {resp resp' : NandResponse}
    {s t : NandState × W} {ret : Int}
    (unready : len ≠ spiNandWriteFlashEndSize ∨ s.1.write.inProgress = false ∨
      s.1.write.totalRemaining ≠ 0)
    (run : (nandPluginWriteFlashEnd driver len resp).Returns s (ret, resp') t) :
    ret ≠ responseSuccess ∧ t = s := by
  simp only [nandPluginWriteFlashEnd, Prog.returns_get_bind] at run
  by_cases size : len = spiNandWriteFlashEndSize
  · rw [if_neg (not_not.mpr size)] at run
    cases progress : s.1.write.inProgress with
    | false =>
      simp only [progress, Bool.false_eq_true, not_false_eq_true, if_true, Prog.returns_pure,
        Prod.mk.injEq] at run
      exact ⟨by rw [run.1.1]; decide, run.2⟩
    | true =>
      have rest : s.1.write.totalRemaining ≠ 0 := by simpa [size, progress] using unready
      rw [if_neg (by simp [progress]), if_pos rest, Prog.returns_pure, Prod.mk.injEq] at run
      exact ⟨by rw [run.1.1]; decide, run.2⟩
  · rw [if_pos size, Prog.returns_pure, Prod.mk.injEq] at run
    exact ⟨by rw [run.1.1]; decide, run.2⟩

theorem nandPluginWriteFlashEnd_ready {len : Nat} {resp resp' : NandResponse}
    {s t : NandState × W} {ret : Int}
    (ready : ¬ (len ≠ spiNandWriteFlashEndSize ∨ s.1.write.inProgress = false ∨
      s.1.write.totalRemaining ≠ 0))
    (run : (nandPluginWriteFlashEnd driver len resp).Returns s (ret, resp') t) :
    ∃ u, ((0 < s.1.write.pageBufFilled ∧ (nandFlushPadded driver).Returns s ret u) ∨
        s.1.write.pageBufFilled = 0 ∧ ret = responseSuccess ∧ u = s) ∧
      t = if ret = responseSuccess then ({ u.1 with write := {} }, u.2) else u := by
  simp only [not_or, not_not, Bool.not_eq_false] at ready
  obtain ⟨size, progress, rest⟩ := ready
  simp only [nandPluginWriteFlashEnd, Prog.returns_get_bind, size, progress, rest, not_true,
    ne_eq, if_false] at run
  by_cases buffered : 0 < s.1.write.pageBufFilled
  · rw [if_pos buffered, Prog.returns_bind] at run
    obtain ⟨r, u, flush, run⟩ := run
    by_cases good : r = responseSuccess
    · rw [if_neg (not_not.mpr good), NandStub.modifyWrite, Prog.returns_modify_bind,
        Prog.returns_pure, Prod.mk.injEq] at run
      obtain ⟨⟨rfl, -⟩, rfl⟩ := run
      exact ⟨u, .inl ⟨buffered, good ▸ flush⟩, by rw [if_pos rfl]⟩
    · rw [if_pos good, Prog.returns_pure, Prod.mk.injEq] at run
      obtain ⟨⟨rfl, -⟩, rfl⟩ := run
      exact ⟨t, .inl ⟨buffered, flush⟩, by rw [if_neg good]⟩
  · rw [if_neg buffered, Prog.returns_pure_bind, if_neg (not_not.mpr rfl), NandStub.modifyWrite,
      Prog.returns_modify_bind, Prog.returns_pure, Prod.mk.injEq] at run
    obtain ⟨⟨rfl, -⟩, rfl⟩ := run
    exact ⟨s, .inr ⟨by omega, rfl, rfl⟩, by rw [if_pos rfl]⟩

theorem nandPluginWriteFlashEnd_outcome {n₀ : NandState} {total : Nat} {image : List UInt8}
    {len : Nat} {resp resp' : NandResponse} {s t : NandState × W} {ret : Int}
    (holds : Holds n₀ total image s.1)
    (run : (nandPluginWriteFlashEnd driver len resp).Returns s (ret, resp') t) :
    EndOutcome n₀ total image ret t.1 := by
  by_cases unready : len ≠ spiNandWriteFlashEndSize ∨ s.1.write.inProgress = false ∨
      s.1.write.totalRemaining ≠ 0
  · obtain ⟨error, rfl⟩ := nandPluginWriteFlashEnd_refuses driver unready run
    rw [EndOutcome, if_neg error]
    exact holds
  obtain ⟨u, outcome, rfl⟩ := nandPluginWriteFlashEnd_ready driver unready run
  simp only [not_or, not_not] at unready
  obtain ⟨-, -, rest⟩ := unready
  obtain ⟨cs, w, lost, hn, balance, room, opened⟩ := holds
  have hw : s.1.write = w := by rw [hn]; rfl
  rw [hw] at rest outcome
  obtain ⟨buffered, flush⟩ | ⟨empty, rfl, rfl⟩ := outcome
  · obtain ⟨ds, w', outcome, hu⟩ := nandFlushPadded_outcome driver flush
    rw [hw] at outcome
    rw [hn, afterCalls_append] at hu
    by_cases good : ret = responseSuccess
    · subst good
      rw [EndOutcome, if_pos rfl, if_pos rfl]
      refine ⟨cs ++ ds, ?_, balance.closed_padded rest buffered outcome⟩
      rw [hu]
      rfl
    · rw [if_neg good] at hu ⊢
      rw [EndOutcome, if_neg good]
      refine ⟨cs ++ ds, w'.drop, _, hu, balance.lose_padded rest buffered good outcome, ?_, ?_⟩
      · simp [NandWriteState.drop]
      · exact outcome.inProgress.trans opened
  · rw [EndOutcome, if_pos rfl, if_pos rfl]
    refine ⟨cs, ?_, balance.closed rest empty⟩
    rw [hn]
    rfl

/-- The commands of a write session; `mem` holds the frame, its payload starts at `data`. -/
inductive NandWriteCommand where
  | begin (mem : Memory) (data len : Nat)
  | data (mem : Memory) (data len : Nat)
  | finish (len : Nat)

namespace NandWriteCommand

def run : NandWriteCommand → NandStub W (Int × NandResponse)
  | .begin mem p len => nandPluginWriteFlashBegin mem p len {}
  | .data mem p len => nandPluginWriteFlashData driver mem p len {}
  | .finish len => nandPluginWriteFlashEnd driver len {}

def totalSize (mem : Memory) (data : Nat) : Nat := getLeToU32 mem (data + 4)

def isBegin : NandWriteCommand → Bool
  | .begin _ _ _ => true
  | .data _ _ _ | .finish _ => false

/-- What a command adds to the image if it is answered `ret`. -/
def contribution (c : NandWriteCommand) (ret : Int) : List UInt8 :=
  match c with
  | .data mem p len => if ret = responseSuccess then nandPayload mem p len else []
  | .begin _ _ _ | .finish _ => []

end NandWriteCommand

/-- The commands run one after the other, each answered by the code beside it. -/
def NandSession : List (NandWriteCommand × Int) → NandState × W → NandState × W → Prop
  | [], s, t => t = s
  | (c, ret) :: steps, s, t =>
    ∃ resp u, (c.run driver).Returns s (ret, resp) u ∧ NandSession steps u t

def nandCommands : List NandWriteCommand → NandStub W (List Int)
  | [] => pure []
  | c :: commands => do
    let (ret, _) ← c.run driver
    let rets ← nandCommands commands
    pure (ret :: rets)

theorem nandSession_of_commands {commands : List NandWriteCommand} {s t : NandState × W}
    {rets : List Int} (run : (nandCommands driver commands).Returns s rets t) :
    NandSession driver (commands.zip rets) s t := by
  induction commands generalizing s rets with
  | nil => exact ((Prog.returns_pure _ _ _ _).mp run).2
  | cons c commands ih =>
    obtain ⟨⟨ret, resp⟩, u, first, rest⟩ := (Prog.returns_bind _ _ _ _ _).mp run
    obtain ⟨rets, v, rest, last⟩ := (Prog.returns_bind _ _ _ _ _).mp rest
    obtain ⟨rfl, rfl⟩ := (Prog.returns_pure _ _ _ _).mp last
    exact ⟨resp, u, first, ih rest⟩

/-- The payloads of the DATA commands that were answered SUCCESS. -/
def imageOf (steps : List (NandWriteCommand × Int)) : List UInt8 :=
  steps.flatMap fun step => step.1.contribution step.2

theorem nandPluginWriteFlashBegin_holds {mem : Memory} {data len : Nat} {s t : NandState × W}
    {resp resp' : NandResponse}
    (run : (nandPluginWriteFlashBegin mem data len resp).Returns s (responseSuccess, resp') t) :
    Holds s.1 (NandWriteCommand.totalSize mem data) [] t.1 := by
  simp only [nandPluginWriteFlashBegin, NandStub.modifyWrite] at run
  have refused : responseSuccess ≠ responseBadDataLen := by decide
  split_ifs at run
  · exact absurd (congrArg Prod.fst ((Prog.returns_pure _ _ _ _).mp run).1) refused
  · exact absurd (congrArg Prod.fst ((Prog.returns_pure _ _ _ _).mp run).1) refused
  · rw [Prog.returns_modify_bind, Prog.returns_pure] at run
    obtain ⟨-, rfl⟩ := run
    refine ⟨[], _, 0, by simp [NandState.afterCalls]; rfl, ⟨?_, ?_, ?_, ?_⟩, ?_, rfl⟩
    · simp
    · simp [NandWriteCommand.totalSize]
    · simp
    · simp [AllOk]
    · simp

theorem nandPluginWriteFlashBegin_fails {mem : Memory} {data len : Nat} {s t : NandState × W}
    {resp resp' : NandResponse} {ret : Int} (error : ret ≠ responseSuccess)
    (run : (nandPluginWriteFlashBegin mem data len resp).Returns s (ret, resp') t) : t = s := by
  simp only [nandPluginWriteFlashBegin, NandStub.modifyWrite] at run
  split_ifs at run
  · exact ((Prog.returns_pure _ _ _ _).mp run).2
  · exact ((Prog.returns_pure _ _ _ _).mp run).2
  · rw [Prog.returns_modify_bind, Prog.returns_pure, Prod.mk.injEq] at run
    exact absurd run.1.1 error

theorem nandPluginWriteFlashData_closed {mem : Memory} {data len : Nat} {s t : NandState × W}
    {resp resp' : NandResponse} {ret : Int} (closed : s.1.write.inProgress = false)
    (run : (nandPluginWriteFlashData driver mem data len resp).Returns s (ret, resp') t) :
    t = s := by
  obtain ⟨-, same⟩ | ⟨opened, -⟩ := nandPluginWriteFlashData_cases driver run
  · exact same
  · exact absurd (closed.symm.trans opened) Bool.false_ne_true

def HoldsOrClosed (n₀ : NandState) (total : Nat) (image : List UInt8) (n : NandState) : Prop :=
  Holds n₀ total image n ∨ n.write.inProgress = false

theorem NandWriteCommand.step {n₀ : NandState} {total : Nat} (bound : total < 2 ^ 32)
    {image : List UInt8} {c : NandWriteCommand} {s t : NandState × W} {ret : Int}
    {resp : NandResponse} (inv : HoldsOrClosed n₀ total image s.1)
    (same : ¬ (c.isBegin = true ∧ ret = responseSuccess))
    (run : (c.run driver).Returns s (ret, resp) t) :
    HoldsOrClosed n₀ total (image ++ c.contribution ret) t.1 := by
  cases c with
  | begin mem data len =>
    have error : ret ≠ responseSuccess := fun h => same ⟨rfl, h⟩
    rw [nandPluginWriteFlashBegin_fails error run]
    simpa [contribution] using inv
  | data mem data len =>
    obtain holds | closed := inv
    · obtain ⟨rfl, holds⟩ | ⟨error, holds⟩ :=
        nandPluginWriteFlashData_holds driver bound holds run
      · exact .inl (by simpa [contribution] using holds)
      · exact .inl (by simpa [contribution, error] using holds)
    · rw [nandPluginWriteFlashData_closed driver closed run]
      exact .inr closed
  | finish len =>
    have nothing : image ++ contribution (.finish len) ret = image := by simp [contribution]
    rw [nothing]
    obtain holds | closed := inv
    · have outcome := nandPluginWriteFlashEnd_outcome driver holds run
      unfold EndOutcome at outcome
      split_ifs at outcome
      · obtain ⟨cs, hn, -⟩ := outcome
        exact .inr (by rw [hn]; rfl)
      · exact .inl outcome
    · rw [(nandPluginWriteFlashEnd_refuses driver (.inr (.inl closed)) run).2]
      exact .inr closed

theorem NandSession.inv {n₀ : NandState} {total : Nat} (bound : total < 2 ^ 32)
    {steps : List (NandWriteCommand × Int)} {image : List UInt8} {s t : NandState × W}
    (inv : HoldsOrClosed n₀ total image s.1)
    (same : ∀ step ∈ steps, ¬ (step.1.isBegin = true ∧ step.2 = responseSuccess))
    (run : NandSession driver steps s t) :
    HoldsOrClosed n₀ total (image ++ imageOf steps) t.1 := by
  induction steps generalizing image s with
  | nil =>
    rw [show t = s from run]
    simpa [imageOf] using inv
  | cons step steps ih =>
    obtain ⟨resp, u, first, rest⟩ := run
    have next := step.1.step driver bound inv (same step (by simp)) first
    have last := ih next (fun step' h => same step' (by simp [h])) rest
    rw [imageOf, List.flatMap_cons, ← List.append_assoc]
    exact last

/-- END acknowledges the whole image exactly if no driver call failed since the
last successful BEGIN. -/
theorem nand_end_success_iff_calls_ok {mem : Memory} {data len lenEnd : Nat}
    {steps : List (NandWriteCommand × Int)} {resp resp' : NandResponse}
    {s₀ s₁ s₂ s₃ : NandState × W}
    (begun : ((NandWriteCommand.begin mem data len).run driver).Returns s₀
      (responseSuccess, resp) s₁)
    (commands : NandSession driver steps s₁ s₂)
    (same : ∀ step ∈ steps, ¬ (step.1.isBegin = true ∧ step.2 = responseSuccess))
    (ended : ((NandWriteCommand.finish lenEnd).run driver).Returns s₂
      (responseSuccess, resp') s₃) :
    ∃ calls, s₃.1.calls = s₀.1.calls ++ calls ∧
      (ImagePassed (NandWriteCommand.totalSize mem data) (imageOf steps) calls ↔ AllOk calls) ∧
      (¬ AllOk calls → (passedBytes calls).length < NandWriteCommand.totalSize mem data) := by
  have bound : NandWriteCommand.totalSize mem data < 2 ^ 32 := getLeToU32_lt _ _
  have start := nandPluginWriteFlashBegin_holds begun
  have inv := NandSession.inv driver bound (.inl start) same commands
  rw [List.nil_append] at inv
  obtain holds | closed := inv
  · have outcome := nandPluginWriteFlashEnd_outcome driver holds ended
    rw [EndOutcome, if_pos rfl] at outcome
    obtain ⟨cs, hn, whole, lost⟩ := outcome
    refine ⟨cs, by rw [hn]; rfl, ⟨fun passed => ?_, whole⟩, lost⟩
    by_contra bad
    have := passed.total_le
    have := lost bad
    omega
  · exact absurd rfl (nandPluginWriteFlashEnd_refuses driver (.inr (.inl closed)) ended).1

/-- A chip that answers erase and write calls with the listed results, then with OK. -/
def scriptedNand : NandDriver (List NandResult) where
  attach _ w := (0, w)
  readId w := ((0, 0), w)
  readRegister _ w := (0, w)
  readBbm _ w := (none, w)
  writeBbm _ _ w := (.ok, w)
  getPageSize _ := nandPageSize
  readPage _ _ w := (none, w)
  eraseBlock _ w := (w.headD .ok, w.tail)
  writePage _ _ w := (w.headD .ok, w.tail)

def nandBeginFrame : Memory :=
  Memory.ofList (List.replicate 8 0 ++ setU32ToLe 0 ++ setU32ToLe 1)

def nandDataFrame : Memory :=
  Memory.ofList (List.replicate 4 0 ++ setU32ToLe 0xB5 ++ setU32ToLe 1 ++ List.replicate 12 0 ++
    [0x5A])

def nandBeginMem (total : Nat) : Memory :=
  Memory.ofList (List.replicate 8 0 ++ setU32ToLe 0 ++ setU32ToLe total)

def nandDataMem (size : Nat) : Memory := fun a =>
  if a < 24 then
    Memory.ofList (List.replicate 4 0 ++ setU32ToLe (if size % 2 = 0 then 0xEF else 0xB5) ++
      setU32ToLe size ++ List.replicate 12 0) a
  else 0x5A

/-- Two blocks that meet inside the first page; the second one reaches the second page. -/
def nandTwoBlocks : List (NandWriteCommand × Int) :=
  [(.data (nandDataMem 2000) 8 2016, responseSuccess),
    (.data (nandDataMem 51) 8 67, responseSuccess)]

theorem exists_nandTwoBlocks : ∃ resp s₁ s₂ resp' s₃,
    ((NandWriteCommand.begin (nandBeginMem 2051) 8 16).run scriptedNand).Returns ({}, [])
      (responseSuccess, resp) s₁ ∧
    NandSession scriptedNand nandTwoBlocks s₁ s₂ ∧
    ((NandWriteCommand.finish 4).run scriptedNand).Returns s₂ (responseSuccess, resp') s₃ ∧
    s₃.1.calls.length = 3 ∧ AllOk s₃.1.calls := by
  obtain ⟨rets, t, run, checked⟩ := Prog.exists_returns_of_ends
    (nandCommands scriptedNand [.begin (nandBeginMem 2051) 8 16, .data (nandDataMem 2000) 8 2016,
      .data (nandDataMem 51) 8 67, .finish 4]) ({}, []) 10
    (fun rets t => rets = List.replicate 4 responseSuccess ∧
      t.1.calls.length = 3 ∧ AllOk t.1.calls) (by decide +kernel)
  obtain ⟨rfl, count, ok⟩ := of_decide_eq_true checked
  obtain ⟨resp, s₁, begun, r₁, u, first, r₂, s₂, second, resp', s₃, ended, rfl⟩ :=
    nandSession_of_commands scriptedNand run
  exact ⟨resp, s₁, s₂, resp', t, begun, ⟨r₁, u, first, r₂, s₂, second, rfl⟩, ended, count, ok⟩

/-- An erase and two writes, all of them good: the whole image has been written. -/
theorem nand_end_success_two_pages : ∃ s : NandState × List NandResult,
    s.1.calls.length = 3 ∧ AllOk s.1.calls ∧
      ImagePassed 2051 (List.replicate 2051 0x5A) s.1.calls := by
  obtain ⟨resp, s₁, s₂, resp', s₃, begun, blocks, ended, count, ok⟩ := exists_nandTwoBlocks
  obtain ⟨calls, made, passed, -⟩ := nand_end_success_iff_calls_ok scriptedNand begun blocks
    (by simp [nandTwoBlocks, NandWriteCommand.isBegin]) ended
  obtain rfl : s₃.1.calls = calls := made
  have image : imageOf nandTwoBlocks = List.replicate 2051 0x5A := by decide +kernel
  exact ⟨s₃, count, ok, image ▸ passed.mpr ok⟩

/-- The last page is lost with the failed erase, and END is answered SUCCESS when retried. -/
theorem nand_end_success_after_failed_erase :
    ∃ resp resp' s₁ s₂ s₃,
      ((NandWriteCommand.begin nandBeginFrame 8 16).run scriptedNand).Returns
        ({}, [.eraseFailed]) (responseSuccess, resp) s₁ ∧
      NandSession scriptedNand [(.data nandDataFrame 8 17, responseSuccess),
        (.finish 4, responseNandEraseFailed)] s₁ s₂ ∧
      ((NandWriteCommand.finish 4).run scriptedNand).Returns s₂ (responseSuccess, resp') s₃ ∧
      ¬ NandWriteCommand.totalSize nandBeginFrame 8 ≤ (passedBytes s₃.1.calls).length := by
  refine ⟨_, _, _, _, _, ⟨0, 0, rfl⟩, ⟨_, _, ⟨2, 0, rfl⟩, _, _, ⟨0, 0, rfl⟩, rfl⟩,
    ⟨0, 0, rfl⟩, ?_⟩
  decide

end FlasherStub
