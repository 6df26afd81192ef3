import FlasherStub.InflateStream
import FlasherStub.Upload

/-! The same upload with a compressed image. However the host cuts the stream into packets, the chip
holds what it inflates to. -/

namespace FlasherStub

open ByteMemory Budget

variable {W D H S C : Type} {env : Platform W D H S C} {z : Inflation D} {base : List Event}
  {sector regionEnd start : Nat}

/-- The host sends the stream in blocks that are not empty, and announces at least its length. -/
structure Upload.Compressed (u : Upload sector) (z : Inflation D) : Prop where
  kind : u.isCompressed = true
  stream : u.blocks.flatten = z.stream
  image : u.total = z.image.length
  nonempty : ∀ block ∈ u.blocks, block ≠ []
  announced : z.stream.length ≤ u.numBlocks * u.blockSize
  small : u.numBlocks * u.blockSize < 2 ^ 32

namespace Upload.Compressed

variable {u : Upload sector}

theorem beginCommand (h : u.Compressed z) : u.beginCommand = espFlashDeflBegin := by
  rw [Upload.beginCommand, h.kind]
  rfl

theorem dataCommand (h : u.Compressed z) : u.dataCommand = espFlashDeflData := by
  rw [Upload.dataCommand, h.kind]
  rfl

theorem endCommand (h : u.Compressed z) : u.endCommand = espFlashDeflEnd := by
  rw [Upload.endCommand, h.kind]
  rfl

end Upload.Compressed

def StubState.resumed (s : StubState W D S C) (seq : Nat) : StubState W D S C :=
  if seq = 0 then { s with decompressedDataPtr := 0 } else s

/-- Between two packets of an upload: `seq` is the next one, and `rest` is still to come. -/
structure Inflating (z : Inflation D) (base : List Event) (sector regionEnd start seq : Nat)
    (rest : List UInt8) (s : StubState W D S C) : Prop where
  uploading : Uploading s
  kept : Kept base z.image.length (DeflIdle sector regionEnd start z.image.length) (s.resumed seq)
  stands : ∃ out, Ongoing base out (s.resumed seq) ∧ StreamAt z rest out (s.resumed seq) ∧
    (seq = 0 ↔ rest = z.stream ∧ out = [])
  le : rest.length ≤ z.stream.length

section Begin

variable {f : Frame} {u : Upload sector} {s₀ t : StubState W D S C}

theorem Inflater.Follows.stream_pos (follows : env.tinfl.Follows z) (d : D) :
    0 < z.stream.length := List.length_pos_of_ne_nil (follows.more (follows.start d))

theorem Upload.Compressed.announced_eq (compressed : u.Compressed z) (pos : 0 < z.stream.length)
    (asks : f.AsksFor u) : getLeToU32 f.ctx.mem (f.ctx.data + 4) *
      getLeToU32 f.ctx.mem (f.ctx.data + 8) % 2 ^ 32 = u.numBlocks * u.blockSize := by
  have announced := compressed.announced
  have small := compressed.small
  have product : 0 < u.numBlocks * u.blockSize := Nat.lt_of_lt_of_le pos announced
  have numBlocks : 0 < u.numBlocks := Nat.pos_of_mul_pos_right product
  have blockSize : 0 < u.blockSize := Nat.pos_of_mul_pos_left product
  obtain ⟨first, second⟩ := asks.announced
    (lt_of_le_of_lt (Nat.le_mul_of_pos_right _ blockSize) small)
    (lt_of_le_of_lt (Nat.le_mul_of_pos_left _ numBlocks) small)
  rw [first, second, Nat.mod_eq_of_lt small]

theorem streamAt_begun (follows : env.tinfl.Follows z) (compressed : u.Compressed z)
    (asks : f.AsksFor u) (s₀ : StubState W D S C) :
    StreamAt z z.stream []
      ({ f.begun env s₀ with decompressedDataPtr := 0 } : StubState W D S C) := by
  have opcode : Opcode.ofByte f.ctx.command = .flashDeflBegin := by
    rw [asks.command, compressed.beginCommand]
    rfl
  have pos := follows.stream_pos s₀.flash.decompressor
  have announced := compressed.announced_eq pos asks
  have counter : (f.begun env s₀).flash.compressedRemaining = u.numBlocks * u.blockSize := by
    simp only [Frame.begun, beginErase, beginSession, opcode, decide_true, if_true, announced]
  have decompressor : (f.begun env s₀).flash.decompressor =
      env.tinfl.init s₀.flash.decompressor := by
    simp only [Frame.begun, beginErase, beginSession, opcode, decide_true, if_true]
  refine .running (decompressor ▸ follows.start _) (.nil _ _) rfl ?_ ?_ le_rfl
  · exact counter ▸ compressed.announced
  · exact counter ▸ compressed.small

theorem inflating_begin (contract : FlashContract env.lib sector) (succeeds : env.lib.Succeeds)
    (follows : env.tinfl.Follows z) (compressed : u.Compressed z) (asks : f.AsksFor u)
    (clear : s₀.accumulatedResult = responseSuccess) (idle : s₀.pendingPostProcess = none)
    (run : (handleCommand env f.buffer f.size).Returns s₀ () t) :
    AnsweredSuccess s₀ t ∧
      Inflating z s₀.trace sector (f.ctx.regionEnd sector) f.ctx.beginOffset 0 z.stream t := by
  obtain ⟨success, uploading⟩ := uploading_begin succeeds.1 asks.begins clear idle run
  have inChip : f.ctx.regionEnd sector < 2 ^ 32 := by
    rw [CmdCtx.regionEnd, asks.offset, asks.total]
    exact u.inChip
  obtain ⟨r, v, ahead, rfl⟩ := (ensures_handleCommand_begin env asks.begins clear idle).2 () t run
  have total : z.image.length = f.ctx.beginTotal := compressed.image.symm.trans asks.total.symm
  have begun : Ongoing s₀.trace [] (f.begun env s₀) := ⟨rfl, [], (List.append_nil _).symm, rfl⟩
  have answered := (begun.steady ahead.steady).of_eq (answered_flash env v f.ctx (r, {}))
    (answered_trace env v f.ctx (r, {}))
  have kept := answered_data env v f.ctx (r, {})
  have quiet : Steady ({ v with decompressedDataPtr := 0 } : StubState W D S C)
      ({ v.answered env f.ctx (r, {}) with decompressedDataPtr := 0 } : StubState W D S C) :=
    .of_eq (answered_flash env v f.ctx (r, {})) (answered_trace env v f.ctx (r, {})) kept.1 rfl
  refine ⟨success, uploading, total ▸ (begun_ready contract inChip ahead (r, {})).2.2, ?_, le_rfl⟩
  refine ⟨[], answered.of_eq rfl rfl, ?_, by simp⟩
  exact ((streamAt_begun follows compressed asks s₀).steady ahead.reset.steady).steady quiet

end Begin

section Packet

variable {g : Frame} {s t w : StubState W D S C} {c seq : Nat} {chunk future rest : List UInt8}

theorem streamed_eq_resumed (brings : g.Brings c seq chunk) (small : seq < 2 ^ 32)
    (s : StubState W D S C) : s.streamed g.ctx = s.resumed seq := by
  have counted : getLeToU32 g.ctx.mem (g.ctx.data + 4) = seq := brings.seq small
  rw [StubState.streamed, StubState.resumed, counted]

theorem ensures_flashDeflData_success (brings : g.Brings c seq chunk)
    (open_ : s.flash.inProgress = true) :
    (withEmptyResponse (flashDeflData g.ctx)).Ensures s (fun _ => True) fun r u =>
      r.1 = responseSuccess ∧ u = { s with pendingPostProcess := some .flashDeflData } := by
  have header : flashDeflDataHeaderSize = 16 := rfl
  have long : ¬ g.ctx.packetSize < flashDeflDataHeaderSize := by
    rw [brings.size]
    omega
  refine ensures_withEmptyResponse (Prog.Ensures.bind (Prog.Ensures.get ?_))
  rw [if_neg long, if_neg (not_not.mpr ((checkFlashInProgress_eq s).mpr open_)), brings.length,
    header]
  dsimp only
  rw [if_neg (not_not.mpr brings.checksum)]
  exact Prog.Ensures.bind (Prog.Ensures.modify (Prog.Ensures.pure ⟨rfl, rfl⟩))

theorem Inflating.called (h : Inflating z base sector regionEnd start seq rest s)
    (r : Int × CommandResponseData C)
    (hw : w = ({ s with pendingPostProcess := some .flashDeflData } : StubState W D S C).answered
      env g.ctx r) :
    Kept base z.image.length (DeflIdle sector regionEnd start z.image.length) (w.resumed seq) ∧
      ∃ out, Ongoing base out (w.resumed seq) ∧ StreamAt z rest out (w.resumed seq) ∧
        (seq = 0 ↔ rest = z.stream ∧ out = []) := by
  obtain ⟨out, ongoing, here, first⟩ := h.stands
  have flash : w.flash = s.flash := by rw [hw, answered_flash]
  have trace : w.trace = s.trace := by rw [hw, answered_trace]
  have data : w.decompressedData = s.decompressedData ∧
      w.decompressedDataPtr = s.decompressedDataPtr := by
    rw [hw]
    exact answered_data env _ g.ctx r
  have same : (w.resumed seq).flash = (s.resumed seq).flash ∧
      (w.resumed seq).trace = (s.resumed seq).trace ∧
      (w.resumed seq).decompressedData = (s.resumed seq).decompressedData ∧
      (w.resumed seq).decompressedDataPtr = (s.resumed seq).decompressedDataPtr := by
    unfold StubState.resumed
    split_ifs
    · exact ⟨flash, trace, data.1, rfl⟩
    · exact ⟨flash, trace, data⟩
  refine ⟨h.kept.idle_of_eq same.2.1 same.1 same.2.2.1 same.2.2.2, out,
    ongoing.of_eq same.1 same.2.1, ?_, first⟩
  exact here.steady (.of_eq same.1 same.2.1 same.2.2.1 same.2.2.2)

theorem ensures_packet_callback (contract : FlashContract env.lib sector)
    (succeeds : env.lib.Succeeds) (honest : InflaterContract env.tinfl)
    (follows : env.tinfl.Follows z) (bound : start + z.image.length < 2 ^ 32)
    (brings : g.Brings c seq chunk) (small : seq < 2 ^ 32)
    (h : Inflating z base sector regionEnd start seq (chunk ++ future) s)
    (r : Int × CommandResponseData C)
    (hw : w = ({ s with pendingPostProcess := some .flashDeflData } : StubState W D S C).answered
      env g.ctx r) :
    (flashDeflDataPostProcess env g.ctx).Ensures w (WithinImage z base) fun e v =>
      e = responseSuccess ∧ StandsBefore z base future v ∧
        Kept base z.image.length (DeflIdle sector regionEnd start z.image.length) v ∧
          Silent w v := by
  obtain ⟨kept, out, ongoing, here, first⟩ := h.called r hw
  have counted : getLeToU32 g.ctx.mem (g.ctx.data + 4) = seq := brings.seq small
  rw [← streamed_eq_resumed brings small] at kept ongoing here
  have silent : (runPostProcess env g.ctx .flashDeflData : Stub W D S C Int).Ensures w
      (Silent w) fun _ => Silent w :=
    keepsSilent_runPostProcess env g.ctx (p := .flashDeflData) trivial w
  have taken := ensures_flashDeflDataPostProcess_follows succeeds honest follows brings.payload
    brings.length (counted.symm ▸ first) ongoing here
  have written := ensures_flashDeflDataPostProcess contract succeeds honest bound g.ctx kept
  refine ((taken.and written).and silent).mono (fun t h => h.1.1) fun e v h => ?_
  exact ⟨h.1.1.1, h.1.1.2, h.1.2, h.2⟩

theorem inflating_packet (contract : FlashContract env.lib sector)
    (succeeds : env.lib.Succeeds) (honest : InflaterContract env.tinfl)
    (follows : env.tinfl.Follows z) (bound : start + z.image.length < 2 ^ 32)
    (brings : g.Brings espFlashDeflData seq chunk) (small : seq < 2 ^ 32) (nonempty : chunk ≠ [])
    (h : Inflating z base sector regionEnd start seq (chunk ++ future) s)
    (run : (handleCommand env g.buffer g.size).Returns s () t) :
    AnsweredSuccess s t ∧ Inflating z base sector regionEnd start (seq + 1) future t := by
  have opcode : Opcode.ofByte g.ctx.command = .flashDeflData := by
    rw [brings.command]
    rfl
  refine answeredSuccess_of_dispatch brings.ok h.uploading.clear (by simp [opcode]) run
    (P := fun _ u => u = { s with pendingPostProcess := some .flashDeflData }) ?_
    fun r u good registered processed => ?_
  · rw [opcode]
    exact (ensures_flashDeflData_success brings h.uploading.inProgress).post
      fun r u h => ⟨h.1, by rw [h.2], h.2⟩
  · have pending : (u.answered env g.ctx r).pendingPostProcess = some .flashDeflData := by
      rw [registered, StubState.answered, if_pos good]
      rfl
    obtain ⟨e, v, returned, rfl⟩ := (returns_postProcess_some env pending t).mp processed
    have callback := ensures_packet_callback contract succeeds honest follows bound brings small h r
      (congrArg (StubState.answered env · g.ctx r) registered)
    obtain ⟨fine, ⟨out, ongoing, here⟩, kept, silent⟩ := callback.2 e v returned
    have after : Steady v (v.afterCallback e) :=
      ⟨⟨rfl, rfl, rfl, rfl⟩, rfl, _, rfl, List.forall_mem_singleton.mpr id⟩
    have le := h.le
    rw [List.length_append] at le
    have less := List.length_pos_of_ne_nil nonempty
    have next : (v.afterCallback e).resumed (seq + 1) = v.afterCallback e := if_neg (by omega)
    refine ⟨silent.sent, ⟨fine, rfl, ongoing.inProgress⟩, ?_, ?_, by omega⟩
    · rw [next]
      exact kept.step rfl fun tr h _ =>
        h.extend (List.forall_mem_singleton.mpr ⟨id, id⟩) rfl rfl rfl
    · rw [next]
      refine ⟨out, ongoing.steady after, here.steady after, iff_of_false (by omega) ?_⟩
      rintro ⟨rfl, -⟩
      omega

theorem terminates_packet (contract : FlashContract env.lib sector)
    (succeeds : env.lib.Succeeds) (advances : env.lib.EventuallyAdvances sector)
    (honest : InflaterContract env.tinfl) (follows : env.tinfl.Follows z)
    (inRegion : start + z.image.length ≤ regionEnd) (inChip : regionEnd < 2 ^ 32)
    (brings : g.Brings espFlashDeflData seq chunk) (small : seq < 2 ^ 32)
    (h : Inflating z base sector regionEnd start seq (chunk ++ future) s) :
    (handleCommand env g.buffer g.size).Terminates s := by
  have opcode : Opcode.ofByte g.ctx.command = .flashDeflData := by
    rw [brings.command]
    rfl
  obtain ⟨r, u, dispatched⟩ := terminates_flashDeflData g.ctx s
  obtain ⟨good, registered⟩ :=
    (ensures_flashDeflData_success brings h.uploading.inProgress).2 r u dispatched
  have pending : (u.answered env g.ctx r).pendingPostProcess = some .flashDeflData := by
    rw [registered, StubState.answered, if_pos good]
    rfl
  have state := congrArg (StubState.answered env · g.ctx r) registered
  obtain ⟨kept, -⟩ := h.called r state
  rw [← streamed_eq_resumed brings small] at kept
  have callback : (flashDeflDataPostProcess env g.ctx).Terminates (u.answered env g.ctx r) :=
    (terminatesOr_flashDeflDataPostProcess contract succeeds advances honest inRegion inChip g.ctx
      kept).of_ensures (ensures_packet_callback contract succeeds honest follows
        (lt_of_le_of_lt inRegion inChip) brings small h r state) fun _ h => h.not_exceeds
  obtain ⟨e, v, returned⟩ := callback
  have processed := (returns_postProcess_some env pending _).mpr ⟨e, v, returned, rfl⟩
  exact terminates_handleCommand_of_dispatch env ⟨r, u, opcode ▸ dispatched, (), _, processed⟩

theorem Inflating.complete (h : Inflating z base sector regionEnd start seq [] s)
    (follows : env.tinfl.Follows z) :
    s.flash.totalRemaining = 0 ∧ ∃ tr, s.trace = base ++ tr ∧ emitted tr = z.image := by
  have same : (s.resumed seq).flash = s.flash ∧ (s.resumed seq).trace = s.trace := by
    unfold StubState.resumed
    split_ifs <;> exact ⟨rfl, rfl⟩
  obtain ⟨out, ⟨-, tr, trace, rfl⟩, here, -⟩ := h.stands
  obtain ⟨all, pointer⟩ := here.complete follows
  obtain ⟨tr', trace', idle⟩ := h.kept
  obtain rfl := List.append_cancel_left (trace.symm.trans trace')
  have inv := (idle (all ▸ le_rfl)).toDeflInv
  have flow := congrArg List.length inv.flow
  have count := inv.image.count
  rw [List.length_append, length_window, pointer, all] at flow
  rw [same.1] at count
  exact ⟨by omega, tr, same.2.symm.trans trace, all⟩

end Packet

section Session

variable {u : Upload sector} {f g : Frame} {datas : List Frame} {blocks : List (List UInt8)}
  {s s₀ t : StubState W D S C} {seq c : Nat} {future : List UInt8}

theorem BringAll.later (h : BringAll c seq datas blocks) (pos : 0 < seq)
    (small : seq + blocks.length ≤ 2 ^ 32) : ∀ d ∈ datas, d.ctx.command = c ∧ d.seq ≠ 0 := by
  induction h with
  | nil => simp
  | cons first _ ih =>
    rw [List.length_cons] at small
    have counted := first.seq (by omega)
    exact List.forall_mem_cons.mpr ⟨⟨first.command, by omega⟩, ih (by omega) (by omega)⟩

theorem inflating_packets (contract : FlashContract env.lib sector)
    (succeeds : env.lib.Succeeds) (honest : InflaterContract env.tinfl)
    (follows : env.tinfl.Follows z) (bound : start + z.image.length < 2 ^ 32)
    (brings : BringAll espFlashDeflData seq datas blocks)
    (nonempty : ∀ block ∈ blocks, block ≠ []) (small : seq + blocks.length ≤ 2 ^ 32)
    (h : Inflating z base sector regionEnd start seq (blocks.flatten ++ future) s)
    (run : (serve env datas).Returns s () t) :
    AllSucceed env datas s t ∧
      Inflating z base sector regionEnd start (seq + blocks.length) future t := by
  induction brings generalizing s with
  | nil =>
    obtain ⟨-, rfl⟩ := (Prog.returns_pure _ _ _ _).mp run
    exact ⟨rfl, h⟩
  | @cons seq d datas block blocks first _ ih =>
    rw [List.flatten_cons, List.append_assoc] at h
    rw [List.length_cons] at small
    obtain ⟨_, u, handled, rest⟩ := (Prog.returns_bind _ _ _ _ _).mp run
    obtain ⟨success, next⟩ := inflating_packet contract succeeds honest follows bound first
      (by omega) (nonempty block (by simp)) h handled
    obtain ⟨all, last⟩ := ih (fun b mem => nonempty b (by simp [mem])) (by omega) next rest
    refine ⟨⟨u, handled, success, all⟩, ?_⟩
    rwa [Nat.add_right_comm, Nat.add_assoc, ← List.length_cons] at last

theorem upload_next {e : Nat} (byte : c < 2 ^ 8) (byte' : e < 2 ^ 8)
    (fits : ∀ block ∈ blocks, block.length + 24 ≤ frameBufferSize)
    (first : (datas ++ [f]).map Frame.bytes <+:
      (dataFrames c seq blocks ++ [endFrame e]).map Frame.bytes) :
    (∃ before block after, blocks = before ++ block :: after ∧ BringAll c seq datas before ∧
      f.Brings c (seq + before.length) block) ∨ (BringAll c seq datas blocks ∧ f.Closes e) := by
  induction blocks generalizing datas seq with
  | nil =>
    cases datas with
    | nil =>
      have same := (List.cons_prefix_cons.mp first).1
      exact .inr ⟨.nil, closes_of_bytes byte' same⟩
    | cons d datas =>
      have none := List.prefix_nil.mp (List.cons_prefix_cons.mp first).2
      simp at none
  | cons block blocks ih =>
    cases datas with
    | nil =>
      have same := (List.cons_prefix_cons.mp first).1
      exact .inl ⟨[], block, blocks, rfl, .nil, brings_of_bytes byte (fits block (by simp)) same⟩
    | cons d datas =>
      obtain ⟨same, rest⟩ := List.cons_prefix_cons.mp first
      have brings := brings_of_bytes byte (fits block (by simp)) same
      obtain ⟨before, next, after, rfl, all, last⟩ | ⟨all, last⟩ :=
        ih (fun b mem => fits b (by simp [mem])) rest
      · refine .inl ⟨block :: before, next, after, rfl, .cons brings all, ?_⟩
        rwa [Nat.add_right_comm, Nat.add_assoc, ← List.length_cons] at last
      · exact .inr ⟨.cons brings all, last⟩

end Session

section Conversation

variable {u : Upload sector} {f g : Frame} {datas : List Frame} {s₀ t : StubState W D S C}

theorem Upload.Compressed.count (compressed : u.Compressed z) : u.blocks.length ≤ 2 ^ 32 := by
  have short := length_le_flatten compressed.nonempty
  have announced := compressed.announced
  have small := compressed.small
  rw [compressed.stream] at short
  omega

theorem Frame.AsksFor.region (asks : f.AsksFor u) (compressed : u.Compressed z)
    (pos : 0 < sector) : f.ctx.beginOffset + z.image.length ≤ f.ctx.regionEnd sector ∧
      f.ctx.regionEnd sector < 2 ^ 32 := by
  have inChip := u.inChip
  have inside := (f.ctx.image_in_region pos).2
  rw [CmdCtx.regionEnd, asks.offset, asks.total] at inside ⊢
  rw [← compressed.image]
  exact ⟨inside, inChip⟩

theorem Upload.Compressed.returns (compressed : u.Compressed z)
    (contract : FlashContract env.lib sector) (succeeds : env.lib.Succeeds)
    (advances : env.lib.EventuallyAdvances sector) (rounding : WordRounding env.lib)
    (honest : InflaterContract env.tinfl) (follows : env.tinfl.Follows z)
    (clear : s₀.accumulatedResult = responseSuccess) (idle : s₀.pendingPostProcess = none) :
    (stubServer env).Returns Frame.bytes s₀ u.requests := by
  refine returns_of_handleCommand fun frames f t first serves => ?_
  cases frames with
  | nil =>
    obtain ⟨-, rfl⟩ := (Prog.returns_pure _ _ _ _).mp serves
    have asks := asksFor_of_bytes contract.pos (List.cons_prefix_cons.mp first).1
    exact terminates_begin contract asks.begins clear idle
  | cons f₀ datas =>
    obtain ⟨same, rest⟩ := List.cons_prefix_cons.mp first
    have asks := asksFor_of_bytes contract.pos same
    obtain ⟨inRegion, inChip⟩ := asks.region compressed contract.pos
    obtain ⟨_, s₁, begun, packets⟩ := (Prog.returns_bind _ _ _ _ _).mp serves
    have start := (inflating_begin contract succeeds follows compressed asks clear idle begun).2
    have count := compressed.count
    rw [← compressed.stream] at start
    obtain ⟨before, block, after, split, brings, last⟩ | ⟨brings, closes⟩ :=
      upload_next u.dataCommand_lt u.endCommand_lt u.fits rest
    · rw [compressed.dataCommand] at brings last
      rw [split, List.length_append, List.length_cons] at count
      rw [split, List.flatten_append, List.flatten_cons] at start
      have here := (inflating_packets contract succeeds honest follows
        (lt_of_le_of_lt inRegion inChip) brings
        (fun b mem => compressed.nonempty b (split ▸ List.mem_append_left _ mem)) (by omega) start
        packets).2
      exact terminates_packet contract succeeds advances honest follows inRegion inChip last
        (by omega) here
    · rw [compressed.dataCommand] at brings
      rw [← List.append_nil u.blocks.flatten] at start
      have here := (inflating_packets contract succeeds honest follows
        (lt_of_le_of_lt inRegion inChip) brings compressed.nonempty (by omega) start packets).2
      have end_ : (Opcode.ofByte f.ctx.command).IsFlashEnd := closes.command ▸ u.ends
      refine terminates_handleCommand env contract advances rounding (fun _ => ?_)
        here.uploading.idle fun data => ?_
      · constructor
        all_goals obtain h | h := end_ <;> simp [h]
      · obtain h | h := end_ <;> simp [h] at data

/-- Every command of the upload is answered with success, and the inflater has emitted the image. -/
theorem wholeSession_compressed {content : W → Memory} (compressed : u.Compressed z)
    (received : u.Received f datas g) (on : OnChip env content sector f s₀)
    (succeeds : env.lib.Succeeds) (honest : InflaterContract env.tinfl)
    (follows : env.tinfl.Follows z) (clear : s₀.accumulatedResult = responseSuccess)
    (run : (serve env (f :: (datas ++ [g]))).Returns s₀ () t) :
    AllSucceed env (f :: (datas ++ [g])) s₀ t ∧ WholeSession env f s₀ t z.image := by
  obtain ⟨inRegion, inChip⟩ := received.first.region compressed on.contract.pos
  obtain ⟨s₁, v, begun, blocks, handled⟩ := returns_serve_session run
  obtain ⟨success₁, start⟩ := inflating_begin on.contract succeeds follows compressed received.first
    clear on.idle begun
  have brings := received.brings
  have count := compressed.count
  rw [compressed.dataCommand] at brings
  rw [← compressed.stream, ← List.append_nil u.blocks.flatten] at start
  obtain ⟨successes, last⟩ := inflating_packets on.contract succeeds honest follows
    (lt_of_le_of_lt inRegion inChip) brings compressed.nonempty (by omega) start blocks
  obtain ⟨left, tr, trace, image⟩ := last.complete follows
  have success := answeredSuccess_end received.last u.ends last.uploading left handled
  have end_ : (Opcode.ofByte g.ctx.command).IsFlashEnd := received.last.command ▸ u.ends
  have kept := ended_of_success on.nor end_ (last.uploading.clear ▸ isCode_success)
    last.uploading.idle handled success
  have all : AllSucceed env (f :: (datas ++ [g])) s₀ t :=
    ⟨s₁, begun, success₁, successes.append ⟨_, handled, success, rfl⟩⟩
  refine ⟨all, ?_⟩
  have first := received.first.command.trans compressed.beginCommand
  have closing := received.last.command.trans compressed.endCommand
  have fits : (emitted tr).length ≤ f.ctx.beginTotal := by
    rw [image, received.first.total, compressed.image]
  have some := follows.stream_pos env.tinfl.zero
  rw [← compressed.stream] at some
  rw [← image]
  -- The packet that starts the stream apart from those that go on with it.
  generalize u.blocks = blocks at brings count some
  cases brings with
  | nil => exact absurd some (Nat.lt_irrefl 0)
  | @cons _ d rest block blocks block₁ later =>
    rw [List.length_cons] at count
    exact .compressed first ⟨block₁.command, block₁.seq (by decide)⟩
      (later.later Nat.one_pos (by omega)) closing all (kept.trace.trans trace) fits

/-- Over SLIP, where no flash operation fails and the inflater inflates the stream, a compressed
upload always arrives, however the host cuts the stream: in every interleaving there is a bounded
number of steps, apart from polls that find nothing, and it stops only where every command has been
answered with success and the chip holds the image, in sectors that are blank around it. -/
theorem slip_compressed_upload_completes {content : W → Memory}
    (contract : FlashContract env.lib sector) (nor : NorContract env content sector)
    (four : 4 ≤ sector) (succeeds : env.lib.Succeeds)
    (advances : env.lib.EventuallyAdvances sector) (rounding : WordRounding env.lib)
    (honest : InflaterContract env.tinfl) (follows : env.tinfl.Follows z)
    (compressed : u.Compressed z) (statics : S) (w : W) {n : Nat} {c : SlipSession W D S C}
    (run : Mailbox.Run slipLine (stubServer env) n (SlipSession.start env u.requests statics w) c) :
    n ≤ (u.requests.map fun p => 20 * (slipSendFrame p).length + 1).sum ∧
      ((∀ d, ¬Mailbox.Works slipLine (stubServer env) c d) →
        ∃ frames t, frames.map Frame.bytes = u.requests ∧ c.stage = .listening t ∧
          AllSucceed env frames (espMainStart env statics w) t ∧
          content t.world = (Nor.Op.program u.offset z.image).apply
            ((Nor.Op.erase (u.offset / sector * sector)
              ((u.offset + u.total + (sector - 1)) / sector * sector)).apply (content w))) := by
  refine ⟨SlipSession.bounded statics w u.conversational run, fun stuck => ?_⟩
  have returns : (stubServer env).Returns Frame.bytes (espMainStart env statics w) u.requests :=
    compressed.returns contract succeeds advances rounding honest follows rfl rfl
  exact u.stored contract nor four statics w returns
    (fun received on => wholeSession_compressed compressed received on succeeds honest follows rfl)
    run stuck

/-- A stream of two bytes, of which the first makes one byte and the second two. -/
abbrev twoByteScript : List SimInflate := [(.needsMoreInput, 1, [7]), (.done, 1, [8, 9])]

def twoByteInflation : Inflation (List SimInflate) where
  stream := [5, 6]
  image := [7, 8, 9]
  At rest out d :=
    (rest = [5, 6] ∧ out = [] ∧ d = twoByteScript) ∨
      (rest = [6] ∧ out = [7] ∧ d = [(.done, 1, [8, 9])])
  Over rest _ := rest = []

theorem simTinfl_follows : (simTinfl twoByteScript).Follows twoByteInflation where
  start _ := .inl ⟨rfl, rfl, rfl⟩
  more := by
    rintro _ _ _ (⟨rfl, -⟩ | ⟨rfl, -⟩) <;> exact List.cons_ne_nil _ _
  fits := by
    rintro _ _ _ (⟨-, rfl, -⟩ | ⟨-, rfl, -⟩) <;> decide
  step := by
    intro input future out d here nonempty dict next outBytes flags _ hnext space _ _
    obtain ⟨b, input, rfl⟩ := List.exists_cons_of_ne_nil nonempty
    have one : min 1 (b :: input).length = 1 := Nat.min_eq_left (Nat.succ_pos _)
    obtain ⟨all, rfl, rfl⟩ | ⟨all, rfl, rfl⟩ := here
    · obtain ⟨-, rest⟩ := List.cons.inj all
      subst hnext space
      refine .goes (by simp [simTinfl, TinflStatus.aboveDone]) (.inr ⟨?_, rfl, rfl⟩)
      exact (congrArg (fun k => (b :: input).drop k ++ future) one).trans rest
    · obtain ⟨-, rest⟩ := List.cons.inj all
      subst hnext space
      refine .ends ?_ rfl (List.append_eq_nil_iff.mp rest).2
      simp [simTinfl, TinflStatus.aboveDone]
  past := by
    intro input future d ended nonempty
    exact absurd (List.append_eq_nil_iff.mp ended).1 nonempty

def compressedTwoByteUpload : Upload 4 where
  isCompressed := true
  offset := 0
  total := 3
  numBlocks := 2
  blockSize := 1
  blocks := [[5], [6]]
  some := by decide
  inChip := by decide
  fits := by decide

theorem compressed_twoByteUpload : compressedTwoByteUpload.Compressed twoByteInflation where
  kind := rfl
  stream := rfl
  image := rfl
  nonempty := by decide
  announced := by decide
  small := by decide

theorem slip_compressed_upload_completes_two_bytes :
    ∃ (n : Nat) (c : SlipSession SimWorld (List SimInflate) Unit Empty)
      (t : StubState SimWorld (List SimInflate) Unit Empty),
      Mailbox.Run slipLine (stubServer (simPlatform 4 twoByteScript)) n
        (SlipSession.start (simPlatform 4 twoByteScript) compressedTwoByteUpload.requests ()
          ⟨fun _ => 0⟩) c ∧
      c.stage = .listening t ∧ t.world.content.read 0 3 = [7, 8, 9] := by
  obtain ⟨n, c, run, last⟩ := SlipSession.exists_run (simPlatform 4 twoByteScript) ()
    ⟨fun _ => 0⟩ compressedTwoByteUpload.conversational
  obtain ⟨frames, t, -, stage, -, stored⟩ := (slip_compressed_upload_completes
    (simLib_contract (k := 2) (by decide)) (simPlatform_nor 4 _) (by decide) (simLib_succeeds 4)
    (simLib_eventuallyAdvances (by decide)) (simLib_wordRounding 4) (simTinfl_honest _)
    simTinfl_follows compressed_twoByteUpload () ⟨fun _ => 0⟩ run).2 last
  refine ⟨n, c, t, run, stage, ?_⟩
  rw [stored]
  decide

end Conversation

end FlasherStub
