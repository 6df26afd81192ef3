import FlasherStub.Leftover
import FlasherStub.Session
import Mathlib.Order.Interval.Set.Defs

/-! The window of the inflater outlives a session. A stream that starts at the beginning of the
window reads only what it wrote itself, so the bytes left there by an earlier stream are dead. -/

namespace FlasherStub

open ByteMemory Budget

variable {W D H S C : Type} {env : Platform W D H S C} {a b s t : StubState W D S C}

/-- The inflater has come to a state since it was reset, and wrote the window at `A`. -/
inductive Inflater.Wrote (tinfl : Inflater D) : D → Set Nat → Prop where
  | init (d : D) : Wrote tinfl (tinfl.init d) ∅
  | decompress {d A} (before : Wrote tinfl d A) (input : List UInt8) (dict : Memory)
    (next outBytes : Nat) (flags : TinflFlags) :
    Wrote tinfl (tinfl.decompress d input dict next outBytes flags).decompressor
      (A ∪ Set.Ico next
        (next + (tinfl.decompress d input dict next outBytes flags).out.length))

/-- The inflater reads no byte of the window that it did not write since it was reset. -/
def Inflater.ReadsOwn (tinfl : Inflater D) : Prop :=
  ∀ d A, tinfl.Wrote d A → ∀ dict dict' : Memory, (∀ p ∈ A, dict p = dict' p) →
    ∀ input next outBytes flags, tinfl.decompress d input dict next outBytes flags =
      tinfl.decompress d input dict' next outBytes flags

/-- The residue lies in the window, where the stream has not been. -/
structure OwnWindow (tinfl : Inflater D) (ρ : Residue D S) (flash : FlashOperationState D)
    (window : Memory) (ptr : Nat) : Prop where
  compressedRemaining : ρ.compressedRemaining = id
  decompressor : ρ.decompressor = id
  pointer : ρ.decompressedDataPtr = id
  wrote : ∃ A, tinfl.Wrote flash.decompressor A ∧
    (∀ p ∈ A, window p = ρ.decompressedData window p) ∧ ∀ p < ptr, p ∈ A

structure SameStream (s t : StubState W D S C) : Prop where
  decompressor : t.flash.decompressor = s.flash.decompressor
  inProgress : t.flash.inProgress = s.flash.inProgress
  window : t.decompressedData = s.decompressedData
  pointer : t.decompressedDataPtr = s.decompressedDataPtr

theorem SameStream.ownWindow {ρ : Residue D S} {tinfl : Inflater D} (same : SameStream s t)
    (own : OwnWindow tinfl ρ s.flash s.decompressedData s.decompressedDataPtr) :
    OwnWindow tinfl ρ t.flash t.decompressedData t.decompressedDataPtr where
  compressedRemaining := own.compressedRemaining
  decompressor := own.decompressor
  pointer := own.pointer
  wrote := by
    rw [same.decompressor, same.window, same.pointer]
    exact own.wrote

theorem EraseAhead.sameStream {lib : StubLib W} {ok : Prop} (h : EraseAhead lib ok s t) :
    SameStream s t := by
  obtain ⟨_, _, _, _, _, rfl, -⟩ := h
  exact ⟨rfl, rfl, rfl, rfl⟩

theorem WriteOutcome.sameStream {lib : StubLib W} {data : List UInt8} {r : Int}
    (h : WriteOutcome lib s data r t) : SameStream s t := by
  cases h with
  | stopped _ ahead | failed _ ahead | written _ ahead =>
    obtain ⟨_, _, _, _, _, rfl, -⟩ := ahead
    exact ⟨rfl, rfl, rfl, rfl⟩

section Stream

variable {tinfl : Inflater D}

def AlikeStream (tinfl : Inflater D) (a b s t : StubState W D S C) : Prop :=
  Alike (OwnWindow tinfl) a b s t

theorem AlikeStream.pointer (h : AlikeStream tinfl a b s t) :
    t.decompressedDataPtr = s.decompressedDataPtr := by
  obtain ⟨x, ρ, rfl, rfl, -, -, own⟩ := h
  simp [StubState.under, own.pointer, Residue.history]

theorem AlikeStream.compressedRemaining (h : AlikeStream tinfl a b s t) :
    t.flash.compressedRemaining = s.flash.compressedRemaining := by
  obtain ⟨x, ρ, rfl, rfl, -, -, own⟩ := h
  simp [StubState.under, own.compressedRemaining, Residue.history]

theorem AlikeStream.read (h : AlikeStream tinfl a b s t) :
    t.decompressedData.read 0 t.decompressedDataPtr =
      s.decompressedData.read 0 s.decompressedDataPtr := by
  rw [h.pointer]
  obtain ⟨x, ρ, rfl, rfl, -, -, own⟩ := h
  obtain ⟨A, -, agree, filled⟩ := own.wrote
  refine Memory.read_congr fun p _ lt => (agree p (filled p ?_)).symm
  simpa [StubState.under, Residue.history] using lt

theorem AlikeStream.mirrored {α : Type} {p : Stub W D S C α}
    (mirrors : ∀ ρ : Residue D S, p.Mirrors (.under ρ))
    (same : ∀ x, p.Ensures x (fun _ => True) fun _ => SameStream x)
    (h : AlikeStream tinfl a b s t) :
    p.Lockstep p s t (SameEffects a b) fun _ => AlikeStream tinfl a b := by
  obtain ⟨x, ρ, rfl, rfl, sent, trace, own⟩ := h
  refine (lockstep_under mirrors sent trace (same x)).post_mono fun _ u v h => ?_
  obtain ⟨y, same, rfl, rfl⟩ := h
  exact ⟨y, ρ, rfl, rfl, sent, trace, same.ownWindow own⟩

theorem lockstep_conditionalEraseNext (h : AlikeStream tinfl a b s t) :
    (conditionalEraseNext env).Lockstep (conditionalEraseNext env) s t (SameEffects a b)
      fun _ => AlikeStream tinfl a b :=
  h.mirrored (mirrors_conditionalEraseNext env) fun x =>
    (ensures_conditionalEraseNext env x).mono (fun _ _ => trivial) fun _ _ ahead => ahead.sameStream

theorem lockstep_writeFlashData (data : List UInt8) (h : AlikeStream tinfl a b s t) :
    (writeFlashData env data).Lockstep (writeFlashData env data) s t (SameEffects a b)
      fun _ => AlikeStream tinfl a b :=
  h.mirrored (mirrors_writeFlashData env · data) fun x =>
    (ensures_writeFlashData env data x).mono (fun _ _ => trivial) fun _ _ written =>
      written.sameStream

theorem write_agrees {w w' : Memory} {A : Set Nat} (agree : ∀ p ∈ A, w p = w' p) (q : Nat)
    (bytes : List UInt8) : ∀ p ∈ A ∪ Set.Ico q (q + bytes.length),
      w.write q bytes p = w'.write q bytes p := by
  intro p hp
  by_cases inside : q ≤ p ∧ p < q + bytes.length
  · obtain ⟨i, rfl⟩ : ∃ i, p = q + i := ⟨p - q, by omega⟩
    rw [Memory.write_at (by omega), Memory.write_at (by omega)]
  · have old : p ∈ A := hp.resolve_right inside
    by_cases below : p < q
    · rw [Memory.write_below below, Memory.write_below below, agree p old]
    · rw [Memory.write_above (by omega), Memory.write_above (by omega), agree p old]

def StubState.afterInflate (s : StubState W D S C) (outBytes : Nat) (r : TinflResult D) :
    StubState W D S C :=
  { s with
    decompressedData := s.decompressedData.write s.decompressedDataPtr r.out
    decompressedDataPtr := s.decompressedDataPtr + r.out.length
    flash := { s.flash with
      decompressor := r.decompressor
      compressedRemaining := sub32 s.flash.compressedRemaining r.inBytes }
    trace := s.trace ++ [.inflate outBytes r.out r.status] }

theorem lockstep_inflate (reads : env.tinfl.ReadsOwn) (input : List UInt8) (outBytes : Nat)
    (flags : TinflFlags) (h : AlikeStream env.tinfl a b s t) :
    (inflate env input outBytes flags).Lockstep (inflate env input outBytes flags) s t
      (SameEffects a b) fun _ => AlikeStream env.tinfl a b := by
  obtain ⟨x, ρ, rfl, rfl, sent, trace, own⟩ := h
  obtain ⟨A, wrote, agree, filled⟩ := own.wrote
  have same : env.tinfl.decompress (x.under ρ).flash.decompressor input
        (x.under ρ).decompressedData (x.under ρ).decompressedDataPtr outBytes flags =
      env.tinfl.decompress x.flash.decompressor input x.decompressedData x.decompressedDataPtr
        outBytes flags := by
    simp only [StubState.under, own.decompressor, own.pointer, id]
    exact (reads _ A wrote _ _ agree _ _ _ _).symm
  refine Prog.Lockstep.act same ?_
  have wrote := wrote.decompress input x.decompressedData x.decompressedDataPtr outBytes flags
  change AlikeStream env.tinfl a b
    ((x.under (.history a)).afterInflate outBytes (env.tinfl.decompress x.flash.decompressor input
      x.decompressedData x.decompressedDataPtr outBytes flags))
    ((x.under ρ).afterInflate outBytes _)
  rw [same]
  generalize env.tinfl.decompress x.flash.decompressor input x.decompressedData
    x.decompressedDataPtr outBytes flags = r at wrote
  refine ⟨x.afterInflate outBytes r, { ρ with decompressedData := fun _ =>
    (ρ.decompressedData x.decompressedData).write x.decompressedDataPtr r.out }, ?_, ?_,
    sent, trace, own.compressedRemaining, own.decompressor, own.pointer, _, wrote,
    write_agrees agree _ _, fun p lt => ?_⟩
  · simp [StubState.under, StubState.afterInflate, Residue.history]
  · simp [StubState.under, StubState.afterInflate, own.compressedRemaining, own.decompressor,
      own.pointer]
  · by_cases before : p < x.decompressedDataPtr
    · exact .inl (filled p before)
    · exact .inr ⟨not_lt.mp before, lt⟩

theorem lockstep_flushWindow (h : AlikeStream env.tinfl a b s t) :
    (flushWindow env).Lockstep (flushWindow env) s t (SameEffects a b)
      fun _ => AlikeStream env.tinfl a b := by
  refine Prog.Lockstep.get_bind ?_
  rw [h.read]
  refine Prog.Lockstep.bind ((lockstep_writeFlashData _ h).post_mono fun r u v h => ?_)
  refine Prog.Lockstep.ite Iff.rfl (fun _ => Prog.Lockstep.pure h) fun _ => ?_
  refine Prog.Lockstep.modify_bind (Prog.Lockstep.pure ?_)
  obtain ⟨x, ρ, rfl, rfl, sent, trace, own⟩ := h
  obtain ⟨A, wrote, agree, -⟩ := own.wrote
  refine ⟨{ x with decompressedDataPtr := 0 }, ρ, rfl, ?_, sent, trace, own.compressedRemaining,
    own.decompressor, own.pointer, A, wrote, agree, fun p lt => absurd lt (Nat.not_lt_zero p)⟩
  simp [StubState.under, own.pointer]

theorem lockstep_deflDataStep (reads : env.tinfl.ReadsOwn) (ctx : CmdCtx) (dataSize : Nat)
    (l : DeflLocals) (h : AlikeStream env.tinfl a b s t) :
    (deflDataStep env ctx dataSize l).Lockstep (deflDataStep env ctx dataSize l) s t
      (SameEffects a b) fun _ => AlikeStream env.tinfl a b := by
  refine Prog.Lockstep.ite Iff.rfl (fun _ => Prog.Lockstep.get_bind ?_) fun _ =>
    Prog.Lockstep.ite Iff.rfl (fun _ => Prog.Lockstep.pure h) fun _ => Prog.Lockstep.pure h
  rw [h.pointer, h.compressedRemaining]
  refine Prog.Lockstep.bind ((lockstep_conditionalEraseNext h).post_mono fun r u v h => ?_)
  refine Prog.Lockstep.ite Iff.rfl (fun _ => Prog.Lockstep.pure h) fun _ => ?_
  refine Prog.Lockstep.bind ((lockstep_inflate reads _ _ _ h).post_mono fun r u v h => ?_)
  refine Prog.Lockstep.get_bind (Prog.Lockstep.ite ?_ (fun _ => ?_) fun _ => Prog.Lockstep.pure h)
  · rw [h.pointer]
  · refine Prog.Lockstep.bind ((lockstep_flushWindow h).post_mono fun r u v h => ?_)
    exact Prog.Lockstep.ite Iff.rfl (fun _ => Prog.Lockstep.pure h) fun _ => Prog.Lockstep.pure h

theorem lockstep_inflateLoop (reads : env.tinfl.ReadsOwn) (ctx : CmdCtx) (dataSize : Nat)
    (l : DeflLocals) (h : AlikeStream env.tinfl a b s t) :
    (Prog.loop (deflDataStep env ctx dataSize) l).Lockstep
      (Prog.loop (deflDataStep env ctx dataSize) l) s t (SameEffects a b)
        fun _ => AlikeStream env.tinfl a b := by
  refine Prog.Lockstep.loop (fun _ => AlikeStream env.tinfl a b) (fun _ _ _ h => h.effects)
    (fun l s t h => (lockstep_deflDataStep reads ctx dataSize l h).post_mono fun r u v h => ?_) h
  cases r <;> exact h

/-- A residue that the next stream start makes harmless. -/
structure Restartable (tinfl : Inflater D) (ρ : Residue D S) (flash : FlashOperationState D)
    (window : Memory) (_ : Nat) : Prop where
  compressedRemaining : ρ.compressedRemaining = id
  decompressor : ρ.decompressor = id
  wrote : ∃ A, tinfl.Wrote flash.decompressor A ∧
    ∀ p ∈ A, window p = ρ.decompressedData window p

theorem OwnWindow.restartable {ρ : Residue D S} {flash : FlashOperationState D} {window : Memory}
    {ptr : Nat} (own : OwnWindow tinfl ρ flash window ptr) :
    Restartable tinfl ρ flash window ptr where
  compressedRemaining := own.compressedRemaining
  decompressor := own.decompressor
  wrote := by
    obtain ⟨A, wrote, agree, -⟩ := own.wrote
    exact ⟨A, wrote, agree⟩

/-- A block with the number 0 starts the window over. -/
theorem lockstep_firstBlock (reads : env.tinfl.ReadsOwn) {ctx : CmdCtx}
    (seq : getLeToU32 ctx.mem (ctx.data + 4) = 0) (h : Alike (Restartable env.tinfl) a b s t) :
    (flashDeflDataPostProcess env ctx).Lockstep (flashDeflDataPostProcess env ctx) s t
      (SameEffects a b) fun _ => AlikeStream env.tinfl a b := by
  refine Prog.Lockstep.ite Iff.rfl (fun _ => Prog.Lockstep.modify_bind ?_) fun no => absurd seq no
  refine lockstep_inflateLoop reads ctx _ _ ?_
  obtain ⟨x, ρ, rfl, rfl, sent, trace, own⟩ := h
  obtain ⟨A, wrote, agree⟩ := own.wrote
  exact ⟨{ x with decompressedDataPtr := 0 }, { ρ with decompressedDataPtr := id }, rfl, rfl, sent,
    trace, own.compressedRemaining, own.decompressor, rfl, A, wrote, agree,
    fun p lt => absurd lt (Nat.not_lt_zero p)⟩

theorem lockstep_nextBlock (reads : env.tinfl.ReadsOwn) (ctx : CmdCtx)
    (h : AlikeStream env.tinfl a b s t) :
    (flashDeflDataPostProcess env ctx).Lockstep (flashDeflDataPostProcess env ctx) s t
      (SameEffects a b) fun _ => AlikeStream env.tinfl a b := by
  by_cases seq : getLeToU32 ctx.mem (ctx.data + 4) = 0
  · obtain ⟨x, ρ, rfl, rfl, sent, trace, own⟩ := h
    exact lockstep_firstBlock reads seq ⟨x, ρ, rfl, rfl, sent, trace, own.restartable⟩
  · exact Prog.Lockstep.ite Iff.rfl (fun yes => absurd yes seq) fun _ =>
      lockstep_inflateLoop reads ctx _ _ h

end Stream

end FlasherStub
