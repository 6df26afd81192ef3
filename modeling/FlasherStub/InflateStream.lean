import FlasherStub.DeflProgress
import FlasherStub.InflateWindow
import FlasherStub.Lib.Ring
import FlasherStub.MainLoop

/-! A compressed stream and the image in it. The window is a ring that holds what the inflater looks
back to; each packet is taken in to its end, and when the stream is over, the image is out. -/

namespace FlasherStub

open ByteMemory Budget

variable {W D H S C : Type}

/-- A stream, its image, and how an inflater gets from one to the other: in a state with
`At rest out` it has emitted `out` and has still to take `rest`, in one with `Over rest` it has seen
the end. -/
structure Inflation (D : Type) where
  stream : List UInt8
  image : List UInt8
  At : (rest out : List UInt8) → D → Prop
  Over : (rest : List UInt8) → D → Prop

/-- What a call makes of `input`, with `future` still to come. -/
inductive Inflation.Takes (z : Inflation D) (input future out : List UInt8) (r : TinflResult D) :
    Prop where
  | goes (above : r.status.aboveDone = true)
      (here : z.At (input.drop r.inBytes ++ future) (out ++ r.out) r.decompressor)
  | ends (done : r.status = .done) (all : out ++ r.out = z.image)
      (past : z.Over future r.decompressor)

/-- However the stream is cut, the inflater makes the image of it. It needs the window to hold what
it has emitted last, to be told where the stream begins, and to be told that more is to come. The
stream does not end before its image: its checksum comes last. -/
structure Inflater.Follows (tinfl : Inflater D) (z : Inflation D) : Prop where
  start : ∀ d, z.At z.stream [] (tinfl.init d)
  more : ∀ {rest out d}, z.At rest out d → rest ≠ []
  fits : ∀ {rest out d}, z.At rest out d → out.length ≤ z.image.length
  step : ∀ {input future out d}, z.At (input ++ future) out d → input ≠ [] →
    ∀ {dict next outBytes flags}, Ring tinflLzDictSize dict out →
      next = out.length % tinflLzDictSize → outBytes = tinflLzDictSize - next →
      (flags.parseZlibHeader = true ↔ input ++ future = z.stream ∧ out = []) →
      (future ≠ [] → flags.hasMoreInput = true) →
      z.Takes input future out (tinfl.decompress d input dict next outBytes flags)
  past : ∀ {input future d}, z.Over (input ++ future) d → input ≠ [] →
    ∀ dict next outBytes flags,
      (tinfl.decompress d input dict next outBytes flags).status = .done ∧
      (tinfl.decompress d input dict next outBytes flags).out = [] ∧
      z.Over future (tinfl.decompress d input dict next outBytes flags).decompressor

structure Steady (s t : StubState W D S C) : Prop where
  same : SameStream s t
  counter : t.flash.compressedRemaining = s.flash.compressedRemaining
  logs : s.Logs (fun e => ¬ e.IsInflate) t

section Steady

variable {lib : StubLib W} {s t u : StubState W D S C}

theorem Steady.trans (h : Steady s t) (h' : Steady t u) : Steady s u where
  same :=
    { decompressor := h'.same.decompressor.trans h.same.decompressor
      inProgress := h'.same.inProgress.trans h.same.inProgress
      window := h'.same.window.trans h.same.window
      pointer := h'.same.pointer.trans h.same.pointer }
  counter := h'.counter.trans h.counter
  logs := h.logs.trans h'.logs

theorem Steady.of_eq (flash : t.flash = s.flash) (trace : t.trace = s.trace)
    (window : t.decompressedData = s.decompressedData)
    (pointer : t.decompressedDataPtr = s.decompressedDataPtr) : Steady s t :=
  ⟨⟨by rw [flash], by rw [flash], window, pointer⟩, by rw [flash], .of_eq trace⟩

theorem EraseAhead.steady {ok : Prop} (h : EraseAhead lib ok s t) : Steady s t := by
  have same := h.sameStream
  obtain ⟨_, _, _, _, tr, rfl, only, -⟩ := h
  exact ⟨same, rfl, tr, rfl, fun e mem => (only e mem).not_inflate⟩

theorem steady_requested (s : StubState W D S C) (data : List UInt8) :
    Steady s (s.requested data) :=
  ⟨⟨rfl, rfl, rfl, rfl⟩, rfl, _, rfl, List.forall_mem_singleton.mpr id⟩

theorem steady_programmed (s : StubState W D S C) (data : List UInt8) (w : W) :
    Steady s (s.programmed data w) :=
  ⟨⟨rfl, rfl, rfl, rfl⟩, rfl, _, rfl, List.forall_mem_singleton.mpr id⟩

end Steady

variable {env : Platform W D H S C} {z : Inflation D} {base : List Event}

theorem ensures_writeFlashData_steady (succeeds : env.lib.Succeeds) (data : List UInt8)
    (s : StubState W D S C) :
    (writeFlashData env data).Ensures s (Steady s) fun r t => r = responseSuccess ∧ Steady s t := by
  refine ((ensures_writeFlashData_success succeeds data s).and
    (ensures_writeFlashData env data s)).mono (fun t h => ?_) fun r t h => ?_
  · exact (steady_requested s data).trans h.2.steady
  · obtain ⟨good, outcome⟩ := h
    cases outcome with
    | stopped error => exact absurd good error
    | failed => exact absurd good (by decide)
    | written w ahead =>
      exact ⟨rfl, ((steady_requested s data).trans ahead.steady).trans (steady_programmed _ _ w)⟩

/-- Where the stream stands when `rest` of it is still to come and `out` has been emitted. -/
inductive StreamAt (z : Inflation D) (rest out : List UInt8) (s : StubState W D S C) : Prop where
  | running (here : z.At rest out s.flash.decompressor)
      (ring : Ring tinflLzDictSize s.decompressedData out)
      (pointer : s.decompressedDataPtr = out.length % tinflLzDictSize)
      (counter : rest.length ≤ s.flash.compressedRemaining)
      (small : s.flash.compressedRemaining < 2 ^ 32) (le : rest.length ≤ z.stream.length)
  | past (here : z.Over rest s.flash.decompressor) (all : out = z.image)
      (pointer : s.decompressedDataPtr = 0)

section StreamAt

variable {rest out : List UInt8} {s t : StubState W D S C}

theorem StreamAt.steady (h : StreamAt z rest out s) (steady : Steady s t) :
    StreamAt z rest out t := by
  cases h with
  | running here ring pointer counter small le =>
    exact .running (steady.same.decompressor ▸ here) (steady.same.window ▸ ring)
      (steady.same.pointer.trans pointer) (steady.counter ▸ counter) (steady.counter ▸ small) le
  | past here all pointer =>
    exact .past (steady.same.decompressor ▸ here) all (steady.same.pointer.trans pointer)

theorem StreamAt.fits (h : StreamAt z rest out s)
    (follows : env.tinfl.Follows z) : out.length ≤ z.image.length := by
  cases h with
  | running here => exact follows.fits here
  | past here all => exact all ▸ le_rfl

theorem StreamAt.complete (h : StreamAt z [] out s)
    (follows : env.tinfl.Follows z) :
    out = z.image ∧ s.decompressedDataPtr = 0 := by
  cases h with
  | running here => exact absurd rfl (follows.more here)
  | past here all pointer => exact ⟨all, pointer⟩

end StreamAt

/-- What a call of the inflater with `input` leaves, before the window is written. -/
inductive AfterCall (z : Inflation D) (input future out : List UInt8) (r : TinflResult D)
    (s : StubState W D S C) : Prop where
  | goes (above : r.status.aboveDone = true)
      (here : z.At (input.drop r.inBytes ++ future) (out ++ r.out) s.flash.decompressor)
      (ring : Ring tinflLzDictSize s.decompressedData (out ++ r.out))
      (pointer : s.decompressedDataPtr = out.length % tinflLzDictSize + r.out.length)
      (room : s.decompressedDataPtr ≤ tinflLzDictSize)
      (counter : (input.drop r.inBytes ++ future).length ≤ s.flash.compressedRemaining)
      (small : s.flash.compressedRemaining < 2 ^ 32)
      (le : (input.drop r.inBytes ++ future).length ≤ z.stream.length)
      (later : ¬(input.drop r.inBytes ++ future = z.stream ∧ out ++ r.out = []))
  | ends (done : r.status = .done) (all : out ++ r.out = z.image)
      (past : z.Over future s.flash.decompressor)

/-- Where the next round starts. -/
inductive Onward (z : Inflation D) (input future out : List UInt8) (r : TinflResult D)
    (s : StubState W D S C) : Prop where
  | goes (above : r.status.aboveDone = true)
      (here : StreamAt z (input.drop r.inBytes ++ future) (out ++ r.out) s)
      (later : ¬(input.drop r.inBytes ++ future = z.stream ∧ out ++ r.out = []))
  | ends (done : r.status = .done) (here : StreamAt z future (out ++ r.out) s)

section Call

variable {input future out : List UInt8} {r : TinflResult D} {s t : StubState W D S C}

theorem afterCall (honest : InflaterContract env.tinfl) (follows : env.tinfl.Follows z)
    (at_ : StreamAt z (input ++ future) out s) (some : input ≠ []) {flags : TinflFlags}
    (header : flags.parseZlibHeader = true ↔ input ++ future = z.stream ∧ out = [])
    (more : future ≠ [] → input.length < s.flash.compressedRemaining → flags.hasMoreInput = true) :
    AfterCall z input future out
      (env.tinfl.decompress s.flash.decompressor input s.decompressedData s.decompressedDataPtr
        (sub32 tinflLzDictSize s.decompressedDataPtr) flags)
      (s.afterInflate (sub32 tinflLzDictSize s.decompressedDataPtr)
        (env.tinfl.decompress s.flash.decompressor input s.decompressedData s.decompressedDataPtr
          (sub32 tinflLzDictSize s.decompressedDataPtr) flags)) := by
  have dict : tinflLzDictSize = 32768 := rfl
  cases at_ with
  | running here ring pointer counter small le =>
    have below : s.decompressedDataPtr < tinflLzDictSize := by
      rw [pointer]
      exact Nat.mod_lt _ (by decide)
    have space : sub32 tinflLzDictSize s.decompressedDataPtr =
        tinflLzDictSize - s.decompressedDataPtr := sub32_of_le (by omega) (by omega)
    have consumed := honest.consumes s.flash.decompressor input s.decompressedData
      s.decompressedDataPtr (sub32 tinflLzDictSize s.decompressedDataPtr) flags
    have emits := honest.emits s.flash.decompressor input s.decompressedData
      s.decompressedDataPtr (sub32 tinflLzDictSize s.decompressedDataPtr) flags
    have progress := honest.progress s.flash.decompressor input s.decompressedData
      s.decompressedDataPtr (sub32 tinflLzDictSize s.decompressedDataPtr) flags
    rw [List.length_append] at counter le
    have takes := follows.step here some ring pointer space header fun future_ =>
      more future_ (by have := List.length_pos_of_ne_nil future_; omega)
    generalize env.tinfl.decompress s.flash.decompressor input s.decompressedData
      s.decompressedDataPtr (sub32 tinflLzDictSize s.decompressedDataPtr) flags = r at *
    have left : sub32 s.flash.compressedRemaining r.inBytes =
        s.flash.compressedRemaining - r.inBytes := sub32_of_le (by omega) small
    have length : (input.drop r.inBytes ++ future).length =
        input.length - r.inBytes + future.length := by
      rw [List.length_append, List.length_drop]
    cases takes with
    | goes above next =>
      refine .goes above next ?_ ?_ ?_ ?_ ?_ ?_ ?_
      · simp only [StubState.afterInflate, pointer]
        exact ring.append (by omega)
      · simp only [StubState.afterInflate, pointer]
      · simp only [StubState.afterInflate]
        omega
      · simp only [StubState.afterInflate, left, length]
        omega
      · simp only [StubState.afterInflate, left]
        omega
      · omega
      -- a call that goes on has taken or made something: the header is behind it
      · rintro ⟨all, none⟩
        have whole := congrArg List.length all
        have silent := congrArg List.length none
        have gain := progress above (List.length_pos_of_ne_nil some) (by omega)
        rw [length] at whole
        simp only [List.length_append, List.length_nil] at silent
        omega
    | ends done all past => exact .ends done all past
  | past here all pointer =>
    obtain ⟨done, nothing, past⟩ := follows.past here some s.decompressedData s.decompressedDataPtr
      (sub32 tinflLzDictSize s.decompressedDataPtr) flags
    exact .ends done (by rw [nothing, List.append_nil, all]) past

theorem AfterCall.waits (h : AfterCall z input future out r s)
    (room : ¬(r.status = .done ∨ tinflLzDictSize ≤ s.decompressedDataPtr)) :
    Onward z input future out r s := by
  obtain ⟨running, below⟩ := not_or.mp room
  cases h with
  | goes above here ring pointer _ counter small le later =>
    refine .goes above (.running here ring ?_ counter small le) later
    rw [pointer] at below
    rw [List.length_append, ← Nat.mod_add_mod, Nat.mod_eq_of_lt (not_le.mp below), pointer]
  | ends done => exact absurd done running

theorem AfterCall.flushed (h : AfterCall z input future out r s)
    (full : r.status = .done ∨ tinflLzDictSize ≤ s.decompressedDataPtr) (steady : Steady s t) :
    Onward z input future out r ({ t with decompressedDataPtr := 0 } : StubState W D S C) := by
  cases h with
  | goes above here ring pointer room counter small le later =>
    have end_ : s.decompressedDataPtr = tinflLzDictSize := by
      refine le_antisymm room (full.resolve_left fun done => ?_)
      rw [done] at above
      cases above
    refine .goes above (.running (steady.same.decompressor ▸ here) (steady.same.window ▸ ring) ?_
      (steady.counter ▸ counter) (steady.counter ▸ small) le) later
    rw [List.length_append, ← Nat.mod_add_mod, ← pointer, end_, Nat.mod_self]
  | ends done all past =>
    exact .ends done (.past (steady.same.decompressor ▸ past) all rfl)

end Call

structure Ongoing (base : List Event) (out : List UInt8) (s : StubState W D S C) : Prop where
  inProgress : s.flash.inProgress = true
  emitted : ∃ tr, s.trace = base ++ tr ∧ emitted tr = out

def StandsBefore (z : Inflation D) (base : List Event) (rest : List UInt8) (s : StubState W D S C) :
    Prop :=
  ∃ out, Ongoing base out s ∧ StreamAt z rest out s

def WithinImage (z : Inflation D) (base : List Event) (s : StubState W D S C) : Prop :=
  ∃ out, Ongoing base out s ∧ out.length ≤ z.image.length

inductive PacketAt (z : Inflation D) (base : List Event) (chunk future : List UInt8)
    (l : DeflLocals) (s : StubState W D S C) : Prop where
  | inflating {taken input out : List UInt8} (split : chunk = taken ++ input)
      (left : l.compressedRemaining = input.length) (above : l.status.aboveDone = true)
      (ongoing : Ongoing base out s) (here : StreamAt z (input ++ future) out s)
      (header : l.flags.parseZlibHeader = true ↔ input ++ future = z.stream ∧ out = [])
  | ended (done : l.status = .done) (here : StandsBefore z base future s)

section Packet

variable {chunk future rest out : List UInt8} {l : DeflLocals} {s t : StubState W D S C}

theorem Ongoing.steady (h : Ongoing base out s) (steady : Steady s t) : Ongoing base out t := by
  obtain ⟨inProgress, tr, trace, rfl⟩ := h
  obtain ⟨ext, grown, none⟩ := steady.logs
  refine ⟨steady.same.inProgress.trans inProgress, tr ++ ext,
    by rw [grown, trace, List.append_assoc], ?_⟩
  rw [emitted_append, emitted_eq_nil none, List.append_nil]

theorem Ongoing.of_eq (h : Ongoing base out s) (flash : t.flash = s.flash)
    (trace : t.trace = s.trace) : Ongoing base out t :=
  ⟨flash ▸ h.inProgress, trace ▸ h.emitted⟩

theorem Ongoing.inflated (h : Ongoing base out s) (space : Nat) (r : TinflResult D) :
    Ongoing base (out ++ r.out) (s.afterInflate space r) := by
  obtain ⟨inProgress, tr, trace, rfl⟩ := h
  refine ⟨inProgress, tr ++ [.inflate space r.out r.status], ?_,
    by rw [emitted_append, emitted_inflate]⟩
  rw [StubState.afterInflate, trace, List.append_assoc]

theorem WithinImage.steady (h : WithinImage z base s) (steady : Steady s t) :
    WithinImage z base t := by
  obtain ⟨out, ongoing, fits⟩ := h
  exact ⟨out, ongoing.steady steady, fits⟩

theorem StandsBefore.within (h : StandsBefore z base rest s) (follows : env.tinfl.Follows z) :
    WithinImage z base s := by
  obtain ⟨out, ongoing, here⟩ := h
  exact ⟨out, ongoing, here.fits follows⟩

theorem AfterCall.fits {input : List UInt8} {r : TinflResult D}
    (h : AfterCall z input future out r s) (follows : env.tinfl.Follows z) :
    (out ++ r.out).length ≤ z.image.length := by
  cases h with
  | goes _ here => exact follows.fits here
  | ends _ all => exact all ▸ le_rfl

theorem PacketAt.next {taken input : List UInt8} {r : TinflResult D}
    (split : chunk = taken ++ input) (small : chunk.length < 2 ^ 32)
    (left : l.compressedRemaining = input.length) (consumed : r.inBytes ≤ input.length)
    (ongoing : Ongoing base (out ++ r.out) s) (onward : Onward z input future out r s) :
    PacketAt z base chunk future
      { compressedRemaining := sub32 l.compressedRemaining r.inBytes
        flags := ⟨false, false⟩
        status := r.status } s := by
  cases onward with
  | goes above here later =>
    have split' : chunk = taken ++ input.take r.inBytes ++ input.drop r.inBytes := by
      rw [List.append_assoc, List.take_append_drop, split]
    refine .inflating split' ?_ above ongoing here ?_
    · have short : input.length ≤ chunk.length := by
        rw [split, List.length_append]
        exact Nat.le_add_left _ _
      rw [left, sub32_of_le consumed (by omega), List.length_drop]
    · exact iff_of_false Bool.false_ne_true later
  | ends done here => exact .ended done ⟨_, ongoing, here⟩

theorem ensures_flushWindow_steady (succeeds : env.lib.Succeeds) (s : StubState W D S C) :
    (flushWindow env).Ensures s (Steady s) fun r t => r = responseSuccess ∧
      ∃ u, Steady s u ∧ t = { u with decompressedDataPtr := 0 } := by
  refine Prog.Ensures.bind (Prog.Ensures.get ?_)
  refine Prog.Ensures.bind ((ensures_writeFlashData_steady succeeds _ s).post fun r u h => ?_)
  rw [if_neg (not_not.mpr h.1)]
  exact Prog.Ensures.bind (Prog.Ensures.modify (Prog.Ensures.pure ⟨rfl, u, h.2, rfl⟩))

theorem ensures_inflate_call (input : List UInt8) (space : Nat) (flags : TinflFlags)
    (s : StubState W D S C) {always : StubState W D S C → Prop} :
    (inflate env input space flags).Ensures s always fun r t =>
      r = env.tinfl.decompress s.flash.decompressor input s.decompressedData s.decompressedDataPtr
        space flags ∧ t = s.afterInflate space r := Prog.Ensures.act ⟨rfl, rfl⟩

theorem ensures_deflDataStep_follows (succeeds : env.lib.Succeeds)
    (honest : InflaterContract env.tinfl) (follows : env.tinfl.Follows z) {ctx : CmdCtx}
    (block : ctx.mem.read (ctx.data + flashDeflDataHeaderSize) chunk.length = chunk)
    (small : chunk.length < 2 ^ 32) (inv : PacketAt z base chunk future l s) :
    (deflDataStep env ctx chunk.length l).Ensures s (WithinImage z base) fun r t =>
      Sum.elim (PacketAt z base chunk future · t)
        (fun e => e = responseSuccess ∧ StandsBefore z base future t) r := by
  rw [deflDataStep]
  cases inv with
  | ended done here =>
    rw [done, if_neg (by simp [TinflStatus.aboveDone]), if_neg (by simp)]
    exact Prog.Ensures.pure ⟨rfl, here⟩
  | @inflating taken input out split left above ongoing here header =>
    have within : WithinImage z base s := ⟨out, ongoing, here.fits follows⟩
    split_ifs with more failed
    · refine Prog.Ensures.bind (Prog.Ensures.get ?_)
      refine Prog.Ensures.bind (((ensures_conditionalEraseNext env s).and
        (ensures_conditionalEraseNext_success env succeeds.1 s)).mono
          (fun t h => within.steady h.1.steady) fun r u h => ?_)
      obtain ⟨ahead, good⟩ := h
      rw [if_neg (not_not.mpr good)]
      have steady := ahead.steady
      have some : input ≠ [] := by
        rintro rfl
        rw [left] at more
        exact absurd more.2 (Nat.lt_irrefl 0)
      -- the call is given what is left of the packet
      have offered : ctx.mem.read (ctx.data + flashDeflDataHeaderSize + chunk.length -
          l.compressedRemaining) l.compressedRemaining = input := by
        rw [left, split, List.length_append, ← Nat.add_assoc, Nat.add_sub_cancel]
        rw [split, List.length_append, Memory.read_add] at block
        exact (List.append_inj block (Memory.length_read _ _ _)).2
      have start : (if s.flash.compressedRemaining > l.compressedRemaining
          then { l.flags with hasMoreInput := true } else l.flags).parseZlibHeader = true ↔
            input ++ future = z.stream ∧ out = [] := by
        split_ifs <;> exact header
      -- the announced size covers the packets to come, so the flag is set before the last one
      have goesOn (_ : future ≠ []) (less : input.length < u.flash.compressedRemaining) :
          (if s.flash.compressedRemaining > l.compressedRemaining
            then { l.flags with hasMoreInput := true } else l.flags).hasMoreInput = true := by
        rw [steady.counter, ← left] at less
        rw [if_pos less]
      dsimp only
      rw [offered, ← steady.same.pointer]
      refine Prog.Ensures.bind ((ensures_inflate_call _ _ _ u).post fun r v h => ?_)
      obtain ⟨result, state⟩ := h
      have call := afterCall honest follows (here.steady steady) some start goesOn
      rw [← result, ← state] at call
      have consumed : r.inBytes ≤ input.length := by
        rw [result]
        exact honest.consumes _ _ _ _ _ _
      have ongoing :=
        (ongoing.steady steady).inflated (sub32 tinflLzDictSize u.decompressedDataPtr) r
      rw [← state] at ongoing
      refine Prog.Ensures.bind (Prog.Ensures.get ?_)
      split_ifs with full
      · have within : WithinImage z base v := ⟨_, ongoing, call.fits follows⟩
        refine Prog.Ensures.bind ((ensures_flushWindow_steady succeeds v).mono
          (fun t h => within.steady h) fun e w h => ?_)
        obtain ⟨good, u', steady', rfl⟩ := h
        rw [if_neg (not_not.mpr good)]
        have ongoing : Ongoing base (out ++ r.out)
            ({ u' with decompressedDataPtr := 0 } : StubState W D S C) :=
          (ongoing.steady steady').of_eq rfl rfl
        exact Prog.Ensures.pure
          (PacketAt.next split small left consumed ongoing (call.flushed full steady'))
      · exact Prog.Ensures.pure
          (PacketAt.next split small left consumed ongoing (call.waits full))
    · rw [failed] at above
      cases above
    · have none : input = [] := by
        refine List.eq_nil_of_length_eq_zero (Nat.eq_zero_of_not_pos fun pos => more ⟨above, ?_⟩)
        rwa [left]
      rw [none, List.nil_append] at here
      exact Prog.Ensures.pure ⟨rfl, out, ongoing, here⟩

theorem PacketAt.within (h : PacketAt z base chunk future l s)
    (follows : env.tinfl.Follows z) : WithinImage z base s := by
  cases h with
  | inflating split left above ongoing here => exact ⟨_, ongoing, here.fits follows⟩
  | ended done here => exact here.within follows

theorem WithinImage.not_exceeds (h : WithinImage z base s) : ¬Exceeds base z.image.length s := by
  obtain ⟨out, ⟨-, tr, trace, rfl⟩, fits⟩ := h
  rintro ⟨tr', trace', more⟩
  obtain rfl := List.append_cancel_left (trace.symm.trans trace')
  omega

/-- A packet is taken in to its end. -/
theorem ensures_flashDeflDataPostProcess_follows (succeeds : env.lib.Succeeds)
    (honest : InflaterContract env.tinfl) (follows : env.tinfl.Follows z) {ctx : CmdCtx}
    (block : ctx.mem.read (ctx.data + flashDeflDataHeaderSize) chunk.length = chunk)
    (length : getLeToU32 ctx.mem ctx.data = chunk.length)
    (header : getLeToU32 ctx.mem (ctx.data + 4) = 0 ↔ chunk ++ future = z.stream ∧ out = [])
    (ongoing : Ongoing base out (s.streamed ctx))
    (here : StreamAt z (chunk ++ future) out (s.streamed ctx)) :
    (flashDeflDataPostProcess env ctx).Ensures s (WithinImage z base) fun e t =>
      e = responseSuccess ∧ StandsBefore z base future t := by
  have small : chunk.length < 2 ^ 32 := length ▸ getLeToU32_lt _ _
  have loop (t : StubState W D S C) (ongoing : Ongoing base out t)
      (here : StreamAt z (chunk ++ future) out t) :
      (Prog.loop (deflDataStep env ctx chunk.length)
        { compressedRemaining := chunk.length
          flags := ⟨getLeToU32 ctx.mem (ctx.data + 4) = 0, false⟩
          status := .needsMoreInput }).Ensures t (WithinImage z base) fun e t =>
            e = responseSuccess ∧ StandsBefore z base future t := by
    refine Prog.Ensures.loop (PacketAt z base chunk future) (fun l u inv => inv.within follows)
      (fun l u inv => ensures_deflDataStep_follows succeeds honest follows block small inv) ?_
    exact .inflating (List.nil_append _).symm rfl rfl ongoing here (decide_eq_true_iff.trans header)
  rw [StubState.streamed] at ongoing here
  rw [flashDeflDataPostProcess, length]
  split_ifs at ongoing here ⊢ with first
  · exact Prog.Ensures.bind (Prog.Ensures.modify (loop _ ongoing here))
  · exact loop _ ongoing here

end Packet

end FlasherStub
