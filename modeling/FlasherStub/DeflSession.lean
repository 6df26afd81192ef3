import FlasherStub.Content
import FlasherStub.EraseProgress

/-! The compressed session. The inflater fills a window that outlives the packet
and the session; what was programmed, followed by what the window holds, is what
the inflater has emitted. -/

namespace FlasherStub

open ByteMemory Budget

variable {W D H S C : Type} (env : Platform W D H S C)

/-- What `tinfl_decompress` promises: it consumes and emits no more than it is
offered, and does one or the other before it asks to be called again. -/
structure InflaterContract (tinfl : Inflater D) : Prop where
  consumes : ∀ d input dict next outBytes flags,
    (tinfl.decompress d input dict next outBytes flags).inBytes ≤ input.length
  emits : ∀ d input dict next outBytes flags,
    (tinfl.decompress d input dict next outBytes flags).out.length ≤ outBytes
  progress : ∀ d input dict next outBytes flags,
    (tinfl.decompress d input dict next outBytes flags).status.aboveDone = true →
    0 < input.length → 0 < outBytes →
    0 < (tinfl.decompress d input dict next outBytes flags).inBytes ∨
      0 < (tinfl.decompress d input dict next outBytes flags).out.length

def StubLib.Succeeds (lib : StubLib W) : Prop :=
  lib.NeverFails ∧ ∀ addr data encrypt w, (lib.flashWriteBuff addr data encrypt w).1 = .ok

def Event.IsInflate : Event → Prop
  | .inflate _ _ _ => True
  | _ => False

theorem Event.IsEraseStep.not_inflate {e : Event} (h : e.IsEraseStep) : ¬ e.IsInflate := by
  cases e with
  | read | erase => exact id
  | request | program | store | md5Update | inflate | postProcess => exact h.elim

/-- The bytes that the inflater emitted, in order. -/
def emitted (tr : List Event) : List UInt8 :=
  tr.flatMap fun
    | .inflate _ out _ => out
    | _ => []

def inflateStatuses (tr : List Event) : List TinflStatus :=
  tr.filterMap fun
    | .inflate _ _ status => some status
    | _ => none

@[simp] theorem emitted_nil : emitted [] = [] := rfl

@[simp] theorem emitted_append (tr tr' : List Event) :
    emitted (tr ++ tr') = emitted tr ++ emitted tr' := List.flatMap_append

@[simp] theorem emitted_inflate (space : Nat) (out : List UInt8) (status : TinflStatus) :
    emitted [.inflate space out status] = out := by simp [emitted]

theorem emitted_eq_nil {tr : List Event} (h : ∀ e ∈ tr, ¬ e.IsInflate) : emitted tr = [] := by
  refine List.flatMap_eq_nil_iff.mpr fun e he => ?_
  have := h e he
  cases e with
  | inflate => exact absurd trivial this
  | read | erase | request | program | store | md5Update | postProcess => rfl

@[simp] theorem inflateStatuses_append (tr tr' : List Event) :
    inflateStatuses (tr ++ tr') = inflateStatuses tr ++ inflateStatuses tr' :=
  List.filterMap_append

@[simp] theorem inflateStatuses_inflate (space : Nat) (out : List UInt8) (status : TinflStatus) :
    inflateStatuses [.inflate space out status] = [status] := rfl

theorem inflateStatuses_eq_nil {tr : List Event} (h : ∀ e ∈ tr, ¬ e.IsInflate) :
    inflateStatuses tr = [] := by
  refine List.filterMap_eq_nil_iff.mpr fun e he => ?_
  have := h e he
  cases e with
  | inflate => exact absurd trivial this
  | read | erase | request | program | store | md5Update | postProcess => rfl

def StubState.window (s : StubState W D S C) : List UInt8 :=
  s.decompressedData.read 0 s.decompressedDataPtr

@[simp] theorem length_window (s : StubState W D S C) :
    s.window.length = s.decompressedDataPtr := Memory.length_read _ _ _

/-- Every inflater call was offered room for output. -/
def OffersSpace (tr : List Event) : Prop :=
  ∀ space out status, .inflate space out status ∈ tr → 0 < space

theorem OffersSpace.extend {tr ext : List Event} (h : OffersSpace tr)
    (none : ∀ e ∈ ext, ¬ e.IsInflate) : OffersSpace (tr ++ ext) := by
  intro space out status mem
  obtain mem | mem := List.mem_append.mp mem
  · exact h space out status mem
  · exact absurd trivial (none _ mem)

/-- The invariant of a compressed session: nothing emitted is lost or doubled. -/
structure DeflInv (sector regionEnd start total : Nat) (tr : List Event) (s : StubState W D S C) :
    Prop where
  flow : written tr ++ s.window = emitted tr
  image : ImageInv start total tr s
  laid : Laid start tr
  space : OffersSpace tr
  region : RegionInv sector regionEnd s

namespace DeflInv

variable {sector regionEnd start total : Nat} {tr ext : List Event} {s t : StubState W D S C}

theorem extend (h : DeflInv sector regionEnd start total tr s)
    (none : ∀ e ∈ ext, ¬ e.IsProgram ∧ ¬ e.IsInflate)
    (offset : t.flash.offset = s.flash.offset)
    (totalRemaining : t.flash.totalRemaining = s.flash.totalRemaining)
    (window : t.window = s.window) (region : RegionInv sector regionEnd t) :
    DeflInv sector regionEnd start total (tr ++ ext) t where
  flow := by
    rw [written_append, written_eq_nil fun e he => (none e he).1, List.append_nil, emitted_append,
      emitted_eq_nil fun e he => (none e he).2, List.append_nil, window, h.flow]
  image := h.image.extend (fun e he => (none e he).1) offset totalRemaining
  laid := h.laid.extend fun e he => (none e he).1
  space := h.space.extend fun e he => (none e he).2
  region := region

theorem ahead {lib : StubLib W} (contract : FlashContract lib sector) {ok : Prop}
    (h : DeflInv sector regionEnd start total tr s) (ahead : EraseAhead lib ok s t)
    (trace : t.trace = s.trace ++ ext) : DeflInv sector regionEnd start total (tr ++ ext) t := by
  have region := h.region.ahead contract ahead
  obtain ⟨_, _, _, _, ext', rfl, only, -⟩ := ahead
  obtain rfl : ext = ext' := (List.append_cancel_left trace).symm
  exact h.extend (fun e he => ⟨(only e he).not_program, (only e he).not_inflate⟩) rfl rfl rfl region

theorem window_fits (h : DeflInv sector regionEnd start total tr s)
    (enough : (emitted tr).length ≤ total) : s.window.length ≤ s.flash.totalRemaining := by
  have count := h.image.count
  rw [← h.flow, List.length_append] at enough
  omega

theorem flushed (h : DeflInv sector regionEnd start total tr s) (bound : start + total < 2 ^ 32)
    (enough : (emitted tr).length ≤ total) (w : W) :
    DeflInv sector regionEnd start total
      (tr ++ [.program s.flash.offset s.window s.flash.encrypt true])
      { s.programmed s.window w with decompressedDataPtr := 0 } := by
  have written_ := h.image.programmed bound (h.window_fits enough) w
  refine ⟨?_, ⟨written_.offset, written_.count, written_.range⟩, h.laid.program h.image.offset _ _,
    h.space.extend (List.forall_mem_singleton.mpr id),
    h.region.of_eq (programmed_nextEraseAddr s _ w) (programmed_eraseRemaining s _ w)⟩
  rw [written_append, written_program, if_pos rfl, h.flow, emitted_append,
    emitted_eq_nil (List.forall_mem_singleton.mpr id)]
  rfl

theorem inflated (h : DeflInv sector regionEnd start total tr s) {space : Nat} (room : 0 < space)
    {out : List UInt8} (status : TinflStatus) (offset : t.flash.offset = s.flash.offset)
    (totalRemaining : t.flash.totalRemaining = s.flash.totalRemaining)
    (window : t.window = s.window ++ out) (region : RegionInv sector regionEnd t) :
    DeflInv sector regionEnd start total (tr ++ [.inflate space out status]) t where
  flow := by
    rw [written_append, written_eq_nil (List.forall_mem_singleton.mpr id), List.append_nil, window,
      emitted_append, emitted_inflate, ← List.append_assoc, h.flow]
  image := h.image.extend (List.forall_mem_singleton.mpr id) offset totalRemaining
  laid := h.laid.extend (List.forall_mem_singleton.mpr id)
  space space' out' status' mem := by
    obtain mem | mem := List.mem_append.mp mem
    · exact h.space space' out' status' mem
    · injection List.mem_singleton.mp mem with same
      rwa [same]
  region := region

end DeflInv

/-- Between two calls of the inflater there is room in the window, and none of
its content is left over from a finished stream. -/
structure DeflIdle (sector regionEnd start total : Nat) (tr : List Event) (s : StubState W D S C) :
    Prop extends DeflInv sector regionEnd start total tr s where
  room : s.decompressedDataPtr < tinflLzDictSize
  done : (inflateStatuses tr).getLast? = some .done → s.decompressedDataPtr = 0

theorem DeflIdle.extend {sector regionEnd start total : Nat} {tr ext : List Event}
    {s t : StubState W D S C} (h : DeflIdle sector regionEnd start total tr s)
    (none : ∀ e ∈ ext, ¬ e.IsProgram ∧ ¬ e.IsInflate) (flash : t.flash = s.flash)
    (data : t.decompressedData = s.decompressedData)
    (ptr : t.decompressedDataPtr = s.decompressedDataPtr) :
    DeflIdle sector regionEnd start total (tr ++ ext) t where
  toDeflInv := h.toDeflInv.extend none (by rw [flash]) (by rw [flash])
    (by rw [StubState.window, StubState.window, data, ptr])
    (h.region.of_eq (by rw [flash]) (by rw [flash]))
  room := by
    rw [ptr]
    exact h.room
  done := by
    rw [ptr, inflateStatuses_append, inflateStatuses_eq_nil fun e he => (none e he).2,
      List.append_nil]
    exact h.done

/-- `P` holds of the events since `base`, unless more than `total` bytes were emitted. -/
def Kept (base : List Event) (total : Nat) (P : List Event → StubState W D S C → Prop)
    (s : StubState W D S C) : Prop :=
  ∃ tr, s.trace = base ++ tr ∧ ((emitted tr).length ≤ total → P tr s)

theorem Kept.step {base : List Event} {total : Nat} {P Q : List Event → StubState W D S C → Prop}
    {s t : StubState W D S C} (h : Kept base total P s) {ext : List Event}
    (trace : t.trace = s.trace ++ ext)
    (next : ∀ tr, P tr s → (emitted (tr ++ ext)).length ≤ total → Q (tr ++ ext) t) :
    Kept base total Q t := by
  obtain ⟨tr, before, holds⟩ := h
  refine ⟨tr ++ ext, by rw [trace, before, List.append_assoc], fun enough => ?_⟩
  refine next tr (holds ?_) enough
  rw [emitted_append, List.length_append] at enough
  omega

theorem Kept.imp {base : List Event} {total : Nat} {P Q : List Event → StubState W D S C → Prop}
    {s : StubState W D S C} (h : Kept base total P s) (next : ∀ tr, P tr s → Q tr s) :
    Kept base total Q s := by
  obtain ⟨tr, before, holds⟩ := h
  exact ⟨tr, before, fun enough => next tr (holds enough)⟩

section Packet

variable {env} {sector regionEnd start total : Nat} {base : List Event}

abbrev OnTheWay (base : List Event) (total : Nat) : StubState W D S C → Prop :=
  Kept base total fun tr _ => OffersSpace tr

theorem onTheWay_ahead {s t : StubState W D S C} {lib : StubLib W} {ok : Prop}
    (h : OnTheWay base total s) (ahead : EraseAhead lib ok s t) : OnTheWay base total t := by
  obtain ⟨_, _, _, _, ext, rfl, only, -⟩ := ahead
  exact h.step rfl fun tr space _ => space.extend fun e he => (only e he).not_inflate

theorem ensures_writeFlashData_success (succeeds : env.lib.Succeeds) (data : List UInt8)
    (s : StubState W D S C) :
    (writeFlashData env data).Ensures s (fun _ => True) fun r _ => r = responseSuccess := by
  refine Prog.Ensures.bind (Prog.Ensures.get (Prog.Ensures.bind (Prog.Ensures.modify ?_)))
  refine Prog.Ensures.bind ((ensures_ensureFlashErasedTo_success env succeeds.1 _ _).post
    fun r t good => ?_)
  rw [if_neg (not_not.mpr good)]
  refine Prog.Ensures.bind (Prog.Ensures.get (Prog.Ensures.bind (Prog.Ensures.act ?_)))
  have fine := succeeds.2 t.flash.offset data t.flash.encrypt t.world
  dsimp only
  rw [if_neg (not_not.mpr fine)]
  exact Prog.Ensures.bind (Prog.Ensures.modify (Prog.Ensures.pure rfl))

theorem ensures_flushWindow (contract : FlashContract env.lib sector)
    (succeeds : env.lib.Succeeds) (bound : start + total < 2 ^ 32) {s : StubState W D S C}
    (inv : Kept base total (DeflInv sector regionEnd start total) s) :
    (flushWindow env).Ensures s (OnTheWay base total) fun r t => r = responseSuccess ∧
      Kept base total (DeflIdle sector regionEnd start total) t := by
  refine Prog.Ensures.bind (Prog.Ensures.get ?_)
  have asked : Kept base total (DeflInv sector regionEnd start total) (s.requested s.window) := by
    refine inv.step rfl fun tr h _ => h.extend (List.forall_mem_singleton.mpr ⟨id, id⟩) rfl rfl rfl ?_
    exact h.region.of_eq rfl rfl
  have way : OnTheWay base total (s.requested s.window) := asked.imp fun _ h => h.space
  refine Prog.Ensures.bind (((ensures_writeFlashData env s.window s).and
    (ensures_writeFlashData_success succeeds s.window s)).mono (fun t h => onTheWay_ahead way h.1)
      fun r t h => ?_)
  obtain ⟨outcome, good⟩ := h
  rw [if_neg (not_not.mpr good)]
  refine Prog.Ensures.bind (Prog.Ensures.modify (Prog.Ensures.pure ⟨rfl, ?_⟩))
  cases outcome with
  | stopped error => exact absurd good error
  | failed => exact absurd good (by decide)
  | @written u w ahead =>
    obtain ⟨_, _, _, _, ext, hu, -⟩ := id ahead
    have trace : u.trace = (s.requested s.window).trace ++ ext := by
      rw [hu, StubState.erased]
    have cleared := asked.step trace fun tr h _ => h.ahead contract ahead trace
    have window : u.window = s.window := by
      rw [hu]
      rfl
    rw [← window]
    have grown : (u.programmed u.window w).trace =
      u.trace ++ [.program u.flash.offset u.window u.flash.encrypt true] := rfl
    refine cleared.step grown fun tr h enough => ?_
    rw [emitted_append, emitted_eq_nil (List.forall_mem_singleton.mpr id), List.append_nil] at enough
    exact ⟨h.flushed bound enough w, (by decide : 0 < tinflLzDictSize), fun _ => rfl⟩

theorem window_inflated (s : StubState W D S C) (out : List UInt8) :
    (s.decompressedData.write s.decompressedDataPtr out).read 0
      (s.decompressedDataPtr + out.length) = s.window ++ out := by
  have appended := Memory.read_write_append s.decompressedData 0 s.decompressedDataPtr out
  rwa [Nat.zero_add] at appended

theorem ensures_inflate (honest : InflaterContract env.tinfl) {s : StubState W D S C}
    (inv : Kept base total (DeflIdle sector regionEnd start total) s) (input : List UInt8)
    (flags : TinflFlags) :
    (inflate env input (sub32 tinflLzDictSize s.decompressedDataPtr) flags).Ensures s
      (OnTheWay base total) fun r t => r.inBytes ≤ input.length ∧ Kept base total (fun tr u =>
        DeflInv sector regionEnd start total tr u ∧
          u.decompressedDataPtr ≤ tinflLzDictSize ∧
          (inflateStatuses tr).getLast? = some r.status) t := by
  refine Prog.Ensures.act ⟨honest.consumes _ _ _ _ _ _, ?_⟩
  refine inv.step rfl fun tr h enough => ?_
  have dict : tinflLzDictSize = 32768 := rfl
  have room := h.room
  have space : sub32 tinflLzDictSize s.decompressedDataPtr =
      tinflLzDictSize - s.decompressedDataPtr := sub32_of_le (by omega) (by omega)
  have small := honest.emits s.flash.decompressor input s.decompressedData s.decompressedDataPtr
    (sub32 tinflLzDictSize s.decompressedDataPtr) flags
  refine ⟨h.toDeflInv.inflated (by omega) _ rfl rfl (window_inflated s _) (h.region.of_eq rfl rfl),
    ?_, by simp⟩
  dsimp only
  omega

theorem Kept.ahead_idle (contract : FlashContract env.lib sector) {s u : StubState W D S C}
    (inv : Kept base total (DeflIdle sector regionEnd start total) s) {ok : Prop}
    (ahead : EraseAhead env.lib ok s u) :
    Kept base total (DeflIdle sector regionEnd start total) u ∧
      u.decompressedDataPtr = s.decompressedDataPtr := by
  obtain ⟨_, _, _, _, ext, hu, only, -⟩ := id ahead
  have trace : u.trace = s.trace ++ ext := by
    rw [hu, StubState.erased]
  have ptr : u.decompressedDataPtr = s.decompressedDataPtr := by
    rw [hu, StubState.erased]
  refine ⟨inv.step trace fun tr h _ => ⟨h.toDeflInv.ahead contract ahead trace, ?_, ?_⟩, ptr⟩
  · rw [ptr]
    exact h.room
  · rw [ptr, inflateStatuses_append, inflateStatuses_eq_nil fun e he => (only e he).not_inflate,
      List.append_nil]
    exact h.done

def PacketInv (base : List Event) (sector regionEnd start total : Nat) (l : DeflLocals)
    (s : StubState W D S C) : Prop :=
  l.compressedRemaining < 2 ^ 32 ∧ Kept base total (DeflIdle sector regionEnd start total) s

theorem ensures_deflDataStep (contract : FlashContract env.lib sector)
    (succeeds : env.lib.Succeeds) (honest : InflaterContract env.tinfl)
    (bound : start + total < 2 ^ 32) (ctx : CmdCtx) (dataSize : Nat) {l : DeflLocals}
    {s : StubState W D S C} (inv : PacketInv base sector regionEnd start total l s) :
    (deflDataStep env ctx dataSize l).Ensures s (OnTheWay base total) fun r t =>
      Sum.elim (PacketInv base sector regionEnd start total · t)
        (fun _ => Kept base total (DeflIdle sector regionEnd start total) t) r := by
  obtain ⟨small, inv⟩ := inv
  rw [deflDataStep]
  split_ifs with more failed
  · refine Prog.Ensures.bind (Prog.Ensures.get ?_)
    have way : OnTheWay base total s := inv.imp fun _ h => h.space
    refine Prog.Ensures.bind (((ensures_conditionalEraseNext env s).and
      (ensures_conditionalEraseNext_success env succeeds.1 s)).mono
        (fun t h => onTheWay_ahead way h.1) fun r u h => ?_)
    obtain ⟨ahead, good⟩ := h
    rw [if_neg (not_not.mpr good)]
    have cleared := inv.ahead_idle contract ahead
    rw [← cleared.2]
    refine Prog.Ensures.bind ((ensures_inflate honest cleared.1 _ _).post fun r v h => ?_)
    obtain ⟨consumed, inv⟩ := h
    rw [Memory.length_read] at consumed
    have next : sub32 l.compressedRemaining r.inBytes = l.compressedRemaining - r.inBytes :=
      sub32_of_le consumed small
    refine Prog.Ensures.bind (Prog.Ensures.get ?_)
    split_ifs with full
    · refine Prog.Ensures.bind ((ensures_flushWindow contract succeeds bound
        (inv.imp fun _ h => h.1)).post fun r' w h => ?_)
      rw [if_neg (not_not.mpr h.1)]
      exact Prog.Ensures.pure ⟨by dsimp only; omega, h.2⟩
    · refine Prog.Ensures.pure ⟨by dsimp only; omega, inv.imp fun tr h => ⟨h.1, ?_, ?_⟩⟩
      · exact not_le.mp fun h => full (.inr h)
      · intro done
        rw [h.2.2] at done
        exact absurd (.inl (Option.some.inj done)) full
  · exact Prog.Ensures.pure inv
  · exact Prog.Ensures.pure inv

/-- The state in which the loop over a packet starts: `seq` zero resets the window. -/
def StubState.streamed (s : StubState W D S C) (ctx : CmdCtx) : StubState W D S C :=
  if getLeToU32 ctx.mem (ctx.data + 4) = 0 then { s with decompressedDataPtr := 0 } else s

theorem streamed_first {f : Frame} (first : f.seq = 0) (s : StubState W D S C) :
    s.streamed f.ctx = { s with decompressedDataPtr := 0 } := if_pos first

theorem streamed_later {f : Frame} (later : f.seq ≠ 0) (s : StubState W D S C) :
    s.streamed f.ctx = s := if_neg later

theorem ensures_flashDeflDataPostProcess (contract : FlashContract env.lib sector)
    (succeeds : env.lib.Succeeds) (honest : InflaterContract env.tinfl)
    (bound : start + total < 2 ^ 32) (ctx : CmdCtx) {s : StubState W D S C}
    (inv : Kept base total (DeflIdle sector regionEnd start total)
      (s.streamed ctx)) :
    (flashDeflDataPostProcess env ctx).Ensures s (OnTheWay base total) fun _ =>
      Kept base total (DeflIdle sector regionEnd start total) := by
  have loop (t : StubState W D S C) (inv : Kept base total (DeflIdle sector regionEnd start total) t)
      (flags : TinflFlags) : (Prog.loop (deflDataStep env ctx (getLeToU32 ctx.mem ctx.data))
        { compressedRemaining := getLeToU32 ctx.mem ctx.data, flags,
          status := .needsMoreInput }).Ensures t (OnTheWay base total) fun _ =>
            Kept base total (DeflIdle sector regionEnd start total) := by
    refine Prog.Ensures.loop (PacketInv base sector regionEnd start total) ?_ ?_
      ⟨getLeToU32_lt _ _, inv⟩
    · exact fun l u h => h.2.imp fun _ h => h.space
    · exact fun l u h => ensures_deflDataStep contract succeeds honest bound ctx _ h
  rw [StubState.streamed] at inv
  rw [flashDeflDataPostProcess]
  split_ifs at inv ⊢ with first
  · exact Prog.Ensures.bind (Prog.Ensures.modify (loop _ inv _))
  · exact loop _ inv _

theorem Kept.idle_of_eq {s t : StubState W D S C}
    (inv : Kept base total (DeflIdle sector regionEnd start total) s) (trace : t.trace = s.trace)
    (flash : t.flash = s.flash) (data : t.decompressedData = s.decompressedData)
    (ptr : t.decompressedDataPtr = s.decompressedDataPtr) :
    Kept base total (DeflIdle sector regionEnd start total) t :=
  inv.step (by rw [trace, List.append_nil]) fun _ h _ => h.extend (by simp) flash data ptr

variable (env) in
theorem answered_data (s : StubState W D S C) (ctx : CmdCtx) (r : Int × CommandResponseData C) :
    (s.answered env ctx r).decompressedData = s.decompressedData ∧
      (s.answered env ctx r).decompressedDataPtr = s.decompressedDataPtr := by
  unfold StubState.answered
  split_ifs <;> exact ⟨rfl, rfl⟩

def Ready (base : List Event) (sector regionEnd start total : Nat) (s : StubState W D S C) : Prop :=
  s.accumulatedResult = responseSuccess ∧ s.flash.inProgress = true ∧
    Kept base total (DeflIdle sector regionEnd start total)
      ({ s with decompressedDataPtr := 0 } : StubState W D S C)

theorem EraseAhead.reset {lib : StubLib W} {ok : Prop} {s t : StubState W D S C}
    (h : EraseAhead lib ok s t) :
    EraseAhead lib ok ({ s with decompressedDataPtr := 0 } : StubState W D S C)
      { t with decompressedDataPtr := 0 } := by
  obtain ⟨n, r, d, w, tr, rfl, only, fine, advance⟩ := h
  exact ⟨n, r, d, w, tr, rfl, only, fine, fun sector contract aligned =>
    advance sector contract (aligned.of_eq rfl rfl)⟩

theorem deflIdle_begun (contract : FlashContract env.lib sector) {f : Frame}
    (inChip : f.ctx.regionEnd sector < 2 ^ 32) {s₀ u : StubState W D S C} {ok : Prop}
    (ahead : EraseAhead env.lib ok (f.begun env s₀) u) :
    Kept s₀.trace f.ctx.beginTotal
      (DeflIdle sector (f.ctx.regionEnd sector) f.ctx.beginOffset f.ctx.beginTotal)
      ({ u with decompressedDataPtr := 0 } : StubState W D S C) := by
  obtain ⟨aligned, -, region⟩ := begun_aligned env contract inChip s₀
  have fresh : DeflInv sector (f.ctx.regionEnd sector) f.ctx.beginOffset f.ctx.beginTotal []
      ({ f.begun env s₀ with decompressedDataPtr := 0 } : StubState W D S C) := by
    refine ⟨rfl, ⟨rfl, Nat.zero_add _, by simp⟩, fun i b h => by simp at h, ?_,
      ⟨aligned.of_eq rfl rfl, region⟩⟩
    intro space out status mem
    simp at mem
  obtain ⟨_, _, _, _, ext, rfl, only, -⟩ := id ahead
  refine ⟨ext, rfl, fun _ => ⟨?_, (by decide : 0 < tinflLzDictSize), fun _ => rfl⟩⟩
  have cleared := fresh.ahead contract ahead.reset rfl
  rwa [List.nil_append] at cleared

theorem begun_ready (contract : FlashContract env.lib sector) {f : Frame}
    (inChip : f.ctx.regionEnd sector < 2 ^ 32) {s₀ u : StubState W D S C} {ok : Prop}
    (ahead : EraseAhead env.lib ok (f.begun env s₀) u) (r : Int × CommandResponseData C) :
    Ready s₀.trace sector (f.ctx.regionEnd sector) f.ctx.beginOffset f.ctx.beginTotal
      (u.answered env f.ctx r) := by
  have begun := deflIdle_begun contract inChip ahead
  refine ⟨?_, ?_, begun.idle_of_eq (answered_trace env u f.ctx r) (answered_flash env u f.ctx r)
    (answered_data env u f.ctx r).1 rfl⟩
  · unfold StubState.answered
    split_ifs <;> rfl
  · rw [answered_flash]
    obtain ⟨_, _, _, _, _, rfl, -⟩ := ahead
    rfl

end Packet

end FlasherStub
