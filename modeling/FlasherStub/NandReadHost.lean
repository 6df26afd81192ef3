import FlasherStub.ReadHost

/-! The NAND stream against the same host. It comes to its end also when pages cannot be read. -/

namespace FlasherStub

open ByteMemory Budget

variable {W H : Type} (driver : NandDriver W) (md5 : Md5 H) (transport : TransportOps W)

theorem terminates_nandFillSendBuf (offset size : Nat) (s : PluginIo W NandState) :
    (nandFillSendBuf driver offset size).Terminates s := by
  refine Prog.terminates_loop (fun _ _ => True) (fun l _ => size - l.filled.length)
    (fun l t _ => ?_) trivial
  obtain ⟨r, u, run⟩ := (straight_nandFillStep driver size l).ends t
  refine ⟨r, u, run, fun l' next => ⟨trivial, ?_⟩⟩
  obtain ⟨-, rfl, -⟩ | ⟨more, ⟨-, rfl, -⟩ | ⟨page, -, rfl, -⟩⟩ := returns_nandFillStep driver run
  · cases next
  · cases next
  · obtain rfl := Sum.inl.inj next
    have inside := Nat.mod_lt l.currentOffset (show 0 < nandPageSize by decide)
    rw [NandFill.append, List.length_append, Memory.length_read, NandFill.chunk]
    omega

theorem terminates_nandSendPacket (packetSize : Nat) (l : NandReadLocals H)
    (s : PluginIo W NandState) :
    (nandSendPacket driver md5 transport packetSize l).Terminates s := by
  unfold nandSendPacket
  cases failed : l.readFailed with
  | true =>
    simp only [if_true]
    exact (Prog.terminates_pure _ s).bind fun _ t _ =>
      (Prog.terminates_act _ t).bind fun _ u _ => Prog.terminates_pure _ u
  | false =>
    simp only [Bool.false_eq_true, if_false]
    exact (terminates_nandFillSendBuf driver _ _ s).bind fun _ t _ =>
      (Prog.terminates_act _ t).bind fun _ u _ => Prog.terminates_pure _ u

theorem terminates_nandReadStep (readSize packetSize : Nat) (l : NandReadLocals H)
    (s : PluginIo W NandState) :
    (nandReadStep driver md5 transport readSize packetSize l).Terminates s := by
  unfold nandReadStep
  split_ifs
  · refine Prog.Terminates.bind ?_ fun l t _ => ?_
    · refine (Prog.terminates_act _ s).bind fun p t _ => ?_
      cases p with
      | none => exact Prog.terminates_pure _ t
      | error | frame => exact (Prog.terminates_act _ t).bind fun _ u _ => Prog.terminates_pure _ u
    · change (if l.Sends then _ else _ : NandIo W _).Terminates t
      by_cases sends : l.Sends
      · rw [if_pos sends]
        exact (terminates_nandSendPacket driver md5 transport packetSize l t).bind
          fun _ u _ => Prog.terminates_pure _ u
      · rw [if_neg sends]
        exact Prog.terminates_pure _ t
  · exact Prog.terminates_pure _ s

def Readable (driver : NandDriver W) : Prop :=
  ∀ page w, (driver.readPage page nandPageSize w).1 ≠ none

section

variable {driver md5 transport} {content : W → Memory} {host : W → Acknowledging}

theorem FillReads.beside
    (keepsRead : ∀ page w, host (driver.readPage page nandPageSize w).2 = host w)
    {offset size : Nat} {s t : PluginIo W NandState} {reads : List (Option (List UInt8))}
    {r : Option (List UInt8) × Nat} (h : FillReads driver offset size s reads r t) :
    t.sent = s.sent ∧ host t.world = host s.world := by
  obtain ⟨done, l, u, heads, last, rfl⟩ := h
  have before : u.sent = s.sent ∧ host u.world = host s.world := by
    clear last
    induction heads with
    | start => exact ⟨rfl, rfl⟩
    | next before step ih =>
      obtain ⟨-, left, -⟩ | ⟨-, ⟨-, left, -⟩ | ⟨page, good, -, rfl⟩⟩ :=
        returns_nandFillStep driver step
      · exact absurd left (by simp)
      · exact absurd left (by simp)
      · exact ⟨ih.1, (keepsRead _ _).trans ih.2⟩
  obtain ⟨-, -, rfl⟩ | ⟨-, ⟨-, -, rfl⟩ | ⟨page, -, -, rfl⟩⟩ := returns_nandFillStep driver last
  · exact before
  · exact ⟨before.1, (keepsRead _ _).trans before.2⟩
  · exact ⟨before.1, (keepsRead _ _).trans before.2⟩

theorem Fills.beside (keepsRead : ∀ page w, host (driver.readPage page nandPageSize w).2 = host w)
    {packetSize : Nat} {l : NandReadLocals H} {s t : PluginIo W NandState}
    {filled : Option (List UInt8)} {offset : Nat}
    (h : Fills driver packetSize l s filled offset t) :
    t.sent = s.sent ∧ host t.world = host s.world := by
  unfold Fills at h
  split_ifs at h
  · rw [h.2.2]
    exact ⟨rfl, rfl⟩
  · obtain ⟨reads, seen⟩ := returns_nandFillSendBuf driver h
    exact seen.beside keepsRead

theorem Fills.pages (contract : NandReadContract driver transport content) {packetSize : Nat}
    {l : NandReadLocals H} {s t : PluginIo W NandState} {filled : Option (List UInt8)}
    {offset : Nat} (h : Fills driver packetSize l s filled offset t) (tries : l.readFailed = false)
    (bound : l.currentOffset + l.packetLength packetSize < 2 ^ 32) :
    (filled ≠ none ∧ ∀ a < l.packetLength packetSize,
        driver.Reads (nandFillSendBuf driver l.currentOffset (l.packetLength packetSize)) s
          ((l.currentOffset + a) / nandPageSize)) ∨
      (filled = none ∧ ∃ a < l.packetLength packetSize,
        driver.Loses (nandFillSendBuf driver l.currentOffset (l.packetLength packetSize)) s
          ((l.currentOffset + a) / nandPageSize)) := by
  rw [Fills, if_neg (Bool.eq_false_iff.mp tries)] at h
  obtain ⟨reads, seen⟩ := returns_nandFillSendBuf driver h
  obtain ⟨-, ⟨-, value, read⟩ | ⟨-, missing, lost⟩⟩ := seen.outcome contract bound
  · exact .inl ⟨ne_of_eq_of_ne (congrArg Prod.fst value) (Option.some_ne_none _), read⟩
  · exact .inr ⟨missing, lost⟩

theorem host_nandAfterPoll {size : Nat} (acking : AckingHost transport size host) (w : W) :
    host (nandAfterPoll transport w) = host (transport.recvPoll w).2 := by
  unfold nandAfterPoll
  generalize transport.recvPoll w = result
  obtain ⟨p, w'⟩ := result
  cases p with
  | none => rfl
  | error | frame => exact acking.keepsRelease w'

end

structure NandAttended (content : W → Memory) (host : W → Acknowledging) (s : PluginIo W NandState)
    (reads : List (Option (List UInt8))) (l : NandReadLocals H) (good bad : List (List UInt8))
    (outstanding : Nat) (t : PluginIo W NandState) : Prop
    extends NandStreaming md5 content s reads l good bad t where
  counted : l.sentPackets = l.ackedPackets + outstanding
  cutting : Pages.Cutting s.statics.read.packetSize l.readSizeRemaining (good ++ bad)
  read : ∀ a < good.flatten.length, driver.Reads (nandReadFlashPostProcess driver md5 transport) s
    ((s.statics.read.offset + a) / nandPageSize)
  lostPage : bad ≠ [] → good.flatten.length % s.statics.read.packetSize = 0 ∧
    ∃ a < s.statics.read.packetSize, good.flatten.length + a < s.statics.read.readSize ∧
      driver.Loses (nandReadFlashPostProcess driver md5 transport) s
        ((s.statics.read.offset + (good.flatten.length + a)) / nandPageSize)
  step : InStep (good ++ bad).flatten.length l.ackedDataSize (host t.world) outstanding

section

variable {driver md5 transport} {content : W → Memory} {host : W → Acknowledging}
  {s t : PluginIo W NandState} {reads : List (Option (List UInt8))} {l : NandReadLocals H}
  {good bad : List (List UInt8)} {outstanding : Nat}
  (contract : NandReadContract driver transport content)
  (acking : AckingHost transport s.statics.read.readSize host)

include contract acking

theorem NandAttended.start (hash : Incremental md5) (bound : s.statics.read.offset < 2 ^ 32)
    (asked : (host s.world).received = 0) (nothing : (host s.world).owed = []) :
    NandAttended driver md5 transport content host s [] (.start md5 s.statics.read) [] [] 0
      (s.released transport) where
  toNandStreaming := .start contract hash bound
  counted := rfl
  cutting := .nil _ _
  read := by simp
  lostPage := by simp
  step := by
    have same : host (s.released transport).world = host s.world := acking.keepsRelease s.world
    rw [← same] at asked nothing
    exact .settled asked nothing rfl

theorem NandAttended.poll (bound : s.statics.read.readSize < 2 ^ 32)
    (h : NandAttended driver md5 transport content host s reads l good bad outstanding t) :
    ∃ after, NandAttended driver md5 transport content host s reads (l.acked (ioPoll transport t))
        good bad after (t.polled transport) ∧
      (outstanding = 0 ∧ after = 0 ∧ l.ackedDataSize = (good ++ bad).flatten.length ∨
        readRank l.readSizeRemaining (host (t.polled transport).world) <
          readRank l.readSizeRemaining (host t.world)) := by
  obtain ⟨after, found⟩ := h.step.poll acking
  have counted := h.counted
  have bytes := h.bytes
  have streaming := h.toNandStreaming.poll contract bound
  have left := (l.acked_readSizeRemaining (ioPoll transport t)).symm
  have seen : host (t.polled transport).world = host (transport.recvPoll t.world).2 :=
    host_nandAfterPoll acking t.world
  rw [seen]
  cases found with
  | settled found none told step =>
    have polled : (ioPoll transport t).Empty := found
    refine ⟨after, ⟨streaming, ?_, left ▸ h.cutting, h.read, h.lostPage, ?_⟩,
      .inl ⟨none.1, none.2, told⟩⟩
    · rw [polled.nandAcked, none.2, ← none.1]
      exact counted
    · rw [polled.nandAcked, none.2, seen]
      exact step
  | waiting found one later sooner step =>
    have polled : (ioPoll transport t).Empty := found
    refine ⟨after, ⟨streaming, ?_, left ▸ h.cutting, h.read, h.lostPage, ?_⟩,
      .inr (readRank_lt_of_wait later sooner _)⟩
    · rw [polled.nandAcked, one.2, ← one.1]
      exact counted
    · rw [polled.nandAcked, one.2, seen]
      exact step
  | told found one fewer step =>
    have polled : ioPoll transport t = .frame (setU32ToLe (good ++ bad).flatten.length) := found
    have told : getLeToU32 (Memory.ofList (setU32ToLe (good ++ bad).flatten.length)) 0 =
        (good ++ bad).flatten.length := by
      have small : (good ++ bad).flatten.length < 2 ^ 32 := by omega
      simpa using getLeToU32_setU32ToLe [] [] small
    have outstanding : l.ackedPackets < l.sentPackets := by omega
    have next : l.acked (ioPoll transport t) = { l with
        ackedDataSize := (good ++ bad).flatten.length
        ackedPackets := (l.ackedPackets + 1) % 2 ^ 32 } := by
      have size : (setU32ToLe (good ++ bad).flatten.length).length = 4 := rfl
      rw [polled, NandReadLocals.acked, told, if_pos size, if_pos outstanding]
    refine ⟨after, ⟨streaming, ?_, left ▸ h.cutting, h.read, h.lostPage, ?_⟩,
      .inr (readRank_lt_of_owed fewer _)⟩
    · have less := h.count_lt bound
      rw [← h.count] at less
      rw [next]
      dsimp only
      rw [Nat.mod_eq_of_lt (by omega)]
      omega
    · rw [next, one.2, seen]
      exact step

omit acking in
theorem NandAttended.pages (bound : s.statics.read.offset + s.statics.read.readSize < 2 ^ 32)
    (h : NandAttended driver md5 transport content host s reads l good bad outstanding t)
    (sends : l.Sends)
    {filled : Option (List UInt8)} {offset : Nat} {u v : PluginIo W NandState}
    (fills : Fills driver s.statics.read.packetSize l t filled offset u)
    (passed : l.readFailed = false → ∀ w, (nandFillSendBuf driver l.currentOffset
      (l.packetLength s.statics.read.packetSize)).Visits t w →
        (nandReadFlashPostProcess driver md5 transport).Visits s w)
    {reads' : List (Option (List UInt8))} {good' bad' : List (List UInt8)}
    (next : NandStreaming md5 content s reads'
      (l.afterPacket md5 s.statics.read.packetSize filled offset) good' bad' v)
    (kept : filled = none → good' = good) {p : List UInt8}
    (all : good' ++ bad' = good ++ bad ++ [p])
    (length : p.length = l.packetLength s.statics.read.packetSize) :
    (∀ a < good'.flatten.length, driver.Reads (nandReadFlashPostProcess driver md5 transport) s
        ((s.statics.read.offset + a) / nandPageSize)) ∧
      (bad' ≠ [] → good'.flatten.length % s.statics.read.packetSize = 0 ∧
        ∃ a < s.statics.read.packetSize, good'.flatten.length + a < s.statics.read.readSize ∧
          driver.Loses (nandReadFlashPostProcess driver md5 transport) s
            ((s.statics.read.offset + (good'.flatten.length + a)) / nandPageSize)) := by
  by_cases failed : l.readFailed = true
  · have missing : filled = none := by
      rw [Fills, if_pos failed] at fills
      exact fills.1
    have some : bad ≠ [] := fun none => h.lost.mp none (h.latch.mp failed)
    rw [kept missing]
    exact ⟨h.read, fun _ => h.lostPage some⟩
  have tries : l.readFailed = false := by simpa using failed
  have clean : none ∉ reads := fun mem => failed (h.latch.mpr mem)
  obtain rfl : bad = [] := h.lost.mpr clean
  have bytes := h.bytes
  have whole := h.cutting.length_flatten sends.1
  rw [List.append_nil] at bytes whole
  have within := NandReadLocals.packetLength_le s.statics.read.packetSize l
  have position : l.currentOffset = s.statics.read.offset + good.flatten.length := by
    rw [h.position clean, Nat.mod_eq_of_lt (by omega)]
  obtain ⟨some, pages⟩ | ⟨missing, a, inside, lost⟩ :=
    fills.pages contract tries (by omega)
  · have latch : (l.afterPacket md5 s.statics.read.packetSize filled offset).readFailed ≠ true :=
      fun none => some (Option.isNone_iff_eq_none.mp none)
    obtain rfl : bad' = [] := next.lost.mpr (mt next.latch.mpr latch)
    rw [List.append_nil, List.append_nil] at all
    refine ⟨fun a inside => ?_, fun other => absurd rfl other⟩
    rw [all, List.flatten_append, List.length_append, List.flatten_singleton, length] at inside
    by_cases before : a < good.flatten.length
    · exact h.read a before
    · have read := (pages (a - good.flatten.length) (by omega)).of_within (passed tries)
      rwa [position, Nat.add_assoc, Nat.add_sub_cancel' (not_lt.mp before)] at read
  · rw [kept missing]
    have part : l.packetLength s.statics.read.packetSize ≤ s.statics.read.packetSize := by
      unfold NandReadLocals.packetLength
      split_ifs <;> omega
    have lost := lost.of_within (passed tries)
    rw [position, Nat.add_assoc] at lost
    exact ⟨h.read, fun _ => ⟨by rw [whole, Nat.mul_mod_left], a, by omega, by omega, lost⟩⟩

theorem NandAttended.packet (hash : Incremental md5)
    (keepsRead : ∀ page w, host (driver.readPage page nandPageSize w).2 = host w)
    (bound : s.statics.read.offset + s.statics.read.readSize < 2 ^ 32)
    (nonzero : 0 < s.statics.read.packetSize)
    (h : NandAttended driver md5 transport content host s reads l good bad 0 t) (sends : l.Sends)
    {filled : Option (List UInt8)} {offset : Nat} {u : PluginIo W NandState}
    (fills : Fills driver s.statics.read.packetSize l t filled offset u)
    (passed : l.readFailed = false → ∀ w, (nandFillSendBuf driver l.currentOffset
      (l.packetLength s.statics.read.packetSize)).Visits t w →
        (nandReadFlashPostProcess driver md5 transport).Visits s w)
    {roundReads : List (Option (List UInt8))}
    (seen : RoundReads driver s.statics.read.packetSize l t roundReads) :
    ∃ good' bad', NandAttended driver md5 transport content host s (reads ++ roundReads)
        (l.afterPacket md5 s.statics.read.packetSize filled offset) good' bad' 1
        (u.afterSend transport
          (filled.getD (List.replicate (l.packetLength s.statics.read.packetSize) 0))) ∧
      (l.afterPacket md5 s.statics.read.packetSize filled offset).readSizeRemaining <
        l.readSizeRemaining := by
  obtain ⟨good', bad', streaming, kept⟩ :=
    h.toNandStreaming.packet contract hash bound nonzero sends fills seen
  obtain ⟨quiet, same⟩ := fills.beside keepsRead
  have within := NandReadLocals.packetLength_le s.statics.read.packetSize l
  have part := NandReadLocals.packetLength_pos nonzero sends.1
  have least : l.packetLength s.statics.read.packetSize =
      min l.readSizeRemaining s.statics.read.packetSize := by
    unfold NandReadLocals.packetLength
    split_ifs <;> omega
  have before := h.bytes
  have after := streaming.bytes
  have sent := streaming.sent
  have pages {p : List UInt8} := h.pages contract bound sends fills passed streaming kept (p := p)
  generalize filled.getD (List.replicate (l.packetLength s.statics.read.packetSize) 0) = p
    at sent streaming ⊢
  change u.sent ++ [p] = _ at sent
  rw [quiet, h.sent, List.append_assoc] at sent
  have all : good' ++ bad' = good ++ bad ++ [p] := (List.append_cancel_left sent).symm
  have rest : (l.afterPacket md5 s.statics.read.packetSize filled offset).readSizeRemaining =
      l.readSizeRemaining - l.packetLength s.statics.read.packetSize :=
    sub32_of_le within (by omega)
  have whole : (good ++ bad ++ [p]).flatten.length = (good ++ bad).flatten.length + p.length := by
    rw [List.flatten_append, List.length_append, List.flatten_singleton]
  have length : p.length = l.packetLength s.statics.read.packetSize := by
    rw [all, whole, rest] at after
    omega
  have some : p ≠ [] := by
    rw [← List.length_pos_iff]
    omega
  obtain ⟨read, lostPage⟩ := pages all length
  refine ⟨good', bad', ⟨streaming, ?_, ?_, read, lostPage, ?_⟩, by omega⟩
  · rw [streaming.count, all, List.length_append, ← h.count, h.counted]
    rfl
  · rw [all, rest, ← length]
    exact h.cutting.snoc nonzero sends.1 (length.trans least)
  · have step := h.step
    rw [all, whole]
    rw [← same] at step
    exact step.send acking some (by omega)

/-- A round returns; it ends the stream where everything has been acknowledged, or it leaves
less to do. -/
theorem exists_nandReadStep (hash : Incremental md5)
    (keepsRead : ∀ page w, host (driver.readPage page nandPageSize w).2 = host w)
    (bound : s.statics.read.offset + s.statics.read.readSize < 2 ^ 32)
    (nonzero : 0 < s.statics.read.packetSize) {polls : List RecvPoll}
    (head : NandReadHead driver md5 transport s polls reads l t)
    (h : NandAttended driver md5 transport content host s reads l good bad outstanding t) :
    ∃ r u, (nandReadStep driver md5 transport s.statics.read.readSize s.statics.read.packetSize
        l).Returns t r u ∧
      r.elim (fun l' => (∃ polls reads good bad outstanding,
          NandReadHead driver md5 transport s polls reads l' u ∧
          NandAttended driver md5 transport content host s reads l' good bad outstanding u) ∧
          readRank l'.readSizeRemaining (host u.world) <
            readRank l.readSizeRemaining (host t.world))
        fun l' => l' = l ∧ l.readSizeRemaining = 0 ∧ outstanding = 0 ∧ u = t := by
  obtain ⟨r, u, run⟩ := terminates_nandReadStep driver md5 transport s.statics.read.readSize
    s.statics.read.packetSize l t
  refine ⟨r, u, run, ?_⟩
  obtain ⟨after, polled, lower⟩ := h.poll contract acking (by omega)
  have bytes := h.bytes
  have round := returns_nandReadStep driver md5 transport run
  obtain ⟨roundReads, seen⟩ := roundReads_exists driver md5 transport round
  cases round with
  | finished ended =>
    obtain ⟨sent, told⟩ := not_or.mp ended
    refine ⟨rfl, by omega, ?_, rfl⟩
    cases h.step with
    | settled => rfl
    | waiting received owed behind => omega
  | waits more idle =>
    have none : roundReads = [] := by
      rw [RoundReads, if_neg fun sends => idle sends.1] at seen
      exact seen
    have next := head.next run seen
    rw [none, List.append_nil] at next
    refine ⟨⟨_, _, _, _, _, next, polled⟩, ?_⟩
    obtain ⟨-, rfl, told⟩ | lower := lower
    · have left : 0 < l.readSizeRemaining := by
        unfold NandReadLocals.Active at more
        omega
      have even := polled.counted
      refine absurd ⟨by simpa using left, ?_⟩ idle
      rw [if_pos (by omega), show nandMaxUnackedPackets = 1 from rfl]
      omega
    · simpa using lower
  | packet more sends fills =>
    have settled : after = 0 := by
      have even := sends.acknowledged polled.window.1
      have counted := polled.counted
      omega
    subst settled
    obtain ⟨good', bad', next, less⟩ :=
      polled.packet contract acking hash keepsRead bound nonzero sends fills
        (fun tries _ inside => visits_nandReadFlashPostProcess_of_fill driver md5 transport head
          more sends tries inside) seen
    rw [NandReadLocals.acked_readSizeRemaining] at less
    exact ⟨⟨_, _, _, _, _, head.next run seen, next⟩, readRank_lt_of_left less _ _⟩

theorem exists_nandReadFlashPostProcess (hash : Incremental md5)
    (keepsRead : ∀ page w, host (driver.readPage page nandPageSize w).2 = host w)
    (bound : s.statics.read.offset + s.statics.read.readSize < 2 ^ 32)
    (nonzero : 0 < s.statics.read.packetSize)
    (asked : (host s.world).received = 0) (nothing : (host s.world).owed = []) :
    ∃ reads l good bad u, NandAttended driver md5 transport content host s reads l good bad 0 u ∧
      l.readSizeRemaining = 0 ∧
      (nandReadFlashPostProcess driver md5 transport).Returns s responseSuccess
        (u.afterSend transport (if l.readFailed then
          (md5.final l.md5Ctx).map (· ^^^ 0xFF) else md5.final l.md5Ctx)) := by
  have step (l : NandReadLocals H) (t : PluginIo W NandState) :
      (∃ polls reads good bad outstanding, NandReadHead driver md5 transport s polls reads l t ∧
        NandAttended driver md5 transport content host s reads l good bad outstanding t) →
      ∃ r u, (nandReadStep driver md5 transport s.statics.read.readSize s.statics.read.packetSize
          l).Returns t r u ∧
        r.elim (fun l' => (∃ polls reads good bad outstanding,
            NandReadHead driver md5 transport s polls reads l' u ∧
            NandAttended driver md5 transport content host s reads l' good bad outstanding u) ∧
          readRank l'.readSizeRemaining (host u.world) <
            readRank l.readSizeRemaining (host t.world))
          fun l' => ∃ reads good bad,
            NandAttended driver md5 transport content host s reads l' good bad 0 u ∧
              l'.readSizeRemaining = 0 := by
    rintro ⟨polls, reads, good, bad, outstanding, head, h⟩
    obtain ⟨r, u, run, next⟩ :=
      exists_nandReadStep contract acking hash keepsRead bound nonzero head h
    refine ⟨r, u, run, ?_⟩
    cases r with
    | inl l' => exact next
    | inr l' =>
      obtain ⟨rfl, left, rfl, rfl⟩ := next
      exact ⟨reads, good, bad, h, left⟩
  obtain ⟨l, u, loop, reads, good, bad, attended, sent⟩ :=
    Prog.exists_returns_loop _ (fun (l : NandReadLocals H) (t : PluginIo W NandState) =>
      readRank l.readSizeRemaining (host t.world)) step
      ⟨[], [], [], [], 0, .start, .start contract acking hash (by omega) asked nothing⟩
  refine ⟨reads, l, good, bad, u, attended, sent, ?_⟩
  rw [nandReadFlashPostProcess, Prog.returns_get_bind, nandIoRelease, Prog.returns_modify_bind,
    Prog.returns_bind]
  refine ⟨l, u, loop, ?_⟩
  exact (Prog.returns_modify_bind _ _ _ _ _).mpr ((Prog.returns_pure _ _ _ _).mpr ⟨rfl, rfl⟩)

end

theorem exists_nandStream {content : W → Memory}
    (contract : NandReadContract driver transport content) (hash : Incremental md5)
    {s : PluginIo W NandState} {host : W → Acknowledging}
    (acking : AckingHost transport s.statics.read.readSize host)
    (keepsRead : ∀ page w, host (driver.readPage page nandPageSize w).2 = host w)
    (fits : s.statics.read.offset + s.statics.read.readSize < 2 ^ 32)
    (nonzero : 0 < s.statics.read.packetSize)
    (asked : (host s.world).received = 0) (nothing : (host s.world).owed = []) :
    ∃ good bad t, (nandReadFlashPostProcess driver md5 transport).Returns s responseSuccess t ∧
      t.sent = s.sent ++ Pages.cut s.statics.read.packetSize (good ++ bad) ++
        [if bad = [] then md5.final (md5.update md5.init good)
          else (md5.final (md5.update md5.init (good ++ bad))).map (· ^^^ 0xFF)] ∧
      good = (content s.world).read s.statics.read.offset good.length ∧
      bad = List.replicate bad.length 0 ∧
      good.length + bad.length = s.statics.read.readSize ∧
      (∀ a < good.length, driver.Reads (nandReadFlashPostProcess driver md5 transport) s
        ((s.statics.read.offset + a) / nandPageSize)) ∧
      (bad ≠ [] → good.length % s.statics.read.packetSize = 0 ∧
        ∃ a < s.statics.read.packetSize, good.length + a < s.statics.read.readSize ∧
          driver.Loses (nandReadFlashPostProcess driver md5 transport) s
            ((s.statics.read.offset + (good.length + a)) / nandPageSize)) ∧
      (host t.world).owed = [] := by
  obtain ⟨reads, l, good, bad, u, attended, sent, run⟩ := exists_nandReadFlashPostProcess contract
    acking hash keepsRead fits nonzero asked nothing
  have bytes := attended.bytes
  have cut := attended.cutting.eq_cut
  have failed : l.readFailed = true ↔ bad.flatten ≠ [] := by
    rw [attended.latch, ← not_iff_not, ← attended.lost, not_not]
    refine ⟨fun none => by rw [none]; rfl, fun none => ?_⟩
    by_contra some
    obtain ⟨p, rest, rfl⟩ := List.exists_cons_of_ne_nil some
    exact attended.some p (by simp) (List.append_eq_nil_iff.mp none).1
  refine ⟨good.flatten, bad.flatten, _, run, ?_, attended.data, ?_, ?_, attended.read,
    fun some => attended.lostPage fun none => some (by rw [none]; rfl), ?_⟩
  · change u.sent ++ [_] = _
    rw [attended.sent, attended.digest, ← List.flatten_append, ← cut]
    by_cases none : bad.flatten = []
    · rw [if_neg (mt failed.mp (not_not.mpr none)), if_pos none, List.flatten_append, none,
        List.append_nil]
    · rw [if_pos (failed.mpr none), if_neg none]
  · rw [List.eq_replicate_iff]
    refine ⟨rfl, fun b mem => ?_⟩
    obtain ⟨p, within, byte⟩ := List.mem_flatten.mp mem
    rw [attended.zero p within] at byte
    exact List.eq_of_mem_replicate byte
  · rw [← List.length_append, ← List.flatten_append]
    omega
  · cases attended.step with
    | settled received owed told =>
      refine (acking.ignores _ u.world ?_).trans owed
      omega

theorem Readable.not_loses {driver : NandDriver W} (readable : Readable driver) {α : Type}
    (p : NandIo W α) (s : PluginIo W NandState) (page : Nat) : ¬ driver.Loses p s page :=
  fun ⟨t, _, lost⟩ => readable page t.world lost

/-- The NAND stream comes to its end too, also when pages cannot be read. The host gets as many
bytes as it asked for: those that are stored, all of them on pages that were read, followed by zeros
from the first packet with a page that could not be read, and in that case a digest with every bit
flipped. If all pages can be read it gets the whole region. -/
theorem nand_read_completes {content : W → Memory}
    (contract : NandReadContract driver transport content) (hash : Incremental md5)
    {mem : Memory} {data len : Nat} {resp resp' : NandResponse} {s₀ s₁ : NandState × W}
    (accepted : (nandPluginReadFlash driver mem data len resp).Returns s₀
      (responseSuccess, resp') s₁)
    (fits : getLeToU32 mem data + getLeToU32 mem (data + 4) < 2 ^ 32)
    {s : PluginIo W NandState} (started : s.statics = s₁.1) {host : W → Acknowledging}
    (acking : AckingHost transport (getLeToU32 mem (data + 4)) host)
    (keepsRead : ∀ page w, host (driver.readPage page nandPageSize w).2 = host w)
    (asked : (host s.world).received = 0) (nothing : (host s.world).owed = []) :
    ∃ good bad t, (nandReadFlashPostProcess driver md5 transport).Returns s responseSuccess t ∧
      t.sent = s.sent ++ Pages.cut s.statics.read.packetSize (good ++ bad) ++
        [if bad = [] then md5.final (md5.update md5.init good)
          else (md5.final (md5.update md5.init (good ++ bad))).map (· ^^^ 0xFF)] ∧
      good = (content s.world).read (getLeToU32 mem data) good.length ∧
      bad = List.replicate bad.length 0 ∧
      good.length + bad.length = getLeToU32 mem (data + 4) ∧
      (∀ a < good.length, driver.Reads (nandReadFlashPostProcess driver md5 transport) s
        ((getLeToU32 mem data + a) / nandPageSize)) ∧
      (bad ≠ [] → good.length % s.statics.read.packetSize = 0 ∧
        ∃ a < s.statics.read.packetSize, good.length + a < getLeToU32 mem (data + 4) ∧
          driver.Loses (nandReadFlashPostProcess driver md5 transport) s
            ((getLeToU32 mem data + (good.length + a)) / nandPageSize)) ∧
      (Readable driver → bad = []) ∧ (host t.world).owed = [] := by
  obtain ⟨offset, readSize, nonzero⟩ := nandPluginReadFlash_accepted driver accepted
  rw [← started] at offset readSize nonzero
  rw [← offset, ← readSize] at fits ⊢
  rw [← readSize] at acking
  obtain ⟨good, bad, t, run, sent, stored, zero, length, read, lostPage, owed⟩ :=
    exists_nandStream driver md5 transport contract hash acking keepsRead fits nonzero asked nothing
  refine ⟨good, bad, t, run, sent, stored, zero, length, read, lostPage, fun readable => ?_, owed⟩
  by_contra some
  obtain ⟨-, a, -, -, lost⟩ := lostPage some
  exact readable.not_loses _ _ _ lost

theorem simNand_beside_readContract (size late : Nat) :
    NandReadContract simNand.beside (ackTransport size late) Prod.fst where
  read _ _ _ h := (Option.some.inj h).symm
  keepsRead _ _ := rfl
  keepsPoll w := by
    simp only [ackTransport]
    split <;> [rfl; (split_ifs <;> rfl)]
  keepsRelease _ := rfl
  keepsSend frame w := by
    simp only [ackTransport]
    split_ifs <;> rfl

theorem NandDriver.losing_loses {driver : NandDriver W} (readable : Readable driver) {α : Type}
    {p : NandIo W α} {s : PluginIo W NandState} {lost page : Nat}
    (h : (driver.losing lost).Loses p s page) : page = lost := by
  obtain ⟨t, -, missing⟩ := h
  by_contra other
  simp only [losing, if_neg other] at missing
  exact readable page t.world missing

theorem NandDriver.losing_reads {driver : NandDriver W} {α : Type} {p : NandIo W α}
    {s : PluginIo W NandState} {lost page : Nat} (h : (driver.losing lost).Reads p s page) :
    page ≠ lost := by
  obtain ⟨t, -, good⟩ := h
  rintro rfl
  exact good (by simp only [losing, if_true])

theorem simNand_beside_readable :
    Readable (simNand.beside : NandDriver (Memory × Acknowledging)) :=
  fun _ _ missing => Option.some_ne_none _ missing

/-- Page 1 cannot be read: the host gets the packet before it, then zeros. -/
theorem nand_read_completes_lost_page : ∃ t,
    (nandReadFlashPostProcess (simNand.beside.losing 1) echoMd5 (ackTransport 5 4)).Returns
      (nandReadStart (addressed, ⟨0, [], 3⟩)) responseSuccess t ∧
    t.sent = [[0xFD, 0xFE], [0, 0], [0], [0x02, 0x01] ++ List.replicate 14 0xFF] ∧
    t.world.2.owed = [] := by
  obtain ⟨good, bad, t, run, sent, stored, zero, length, read, lostPage, -, owed⟩ :=
    nand_read_completes (simNand.beside.losing 1) echoMd5 (ackTransport 5 4)
      ((simNand_beside_readContract 5 4).losing _ _ 1) echoMd5_incremental
      (show (nandPluginReadFlash (simNand.beside.losing 1) nandReadFrame 8 16 {}).Returns
        ({}, (addressed, ⟨0, [], 3⟩)) (responseSuccess, _) _ from ⟨0, 0, rfl⟩)
      (by decide) (s := nandReadStart (addressed, ⟨0, [], 3⟩)) rfl (ackTransport_acking 5 4)
      (fun page w => by simp only [NandDriver.losing]; split_ifs <;> rfl) rfl rfl
  have five : good.length + bad.length = 5 := length
  have before : good.length ≤ 3 := by
    by_contra beyond
    exact NandDriver.losing_reads (read 3 (by omega)) rfl
  have some : bad ≠ [] := List.length_pos_iff.mp (by omega)
  obtain ⟨even, a, within, -, lost⟩ := lostPage some
  have page : (2045 + (good.length + a)) / 2048 = 1 :=
    NandDriver.losing_loses simNand_beside_readable lost
  have two : good.length = 2 := by
    have even : good.length % 2 = 0 := even
    have within : a < 2 := within
    omega
  have three : bad.length = 3 := by omega
  rw [two] at stored
  rw [three] at zero
  rw [if_neg some, stored, zero] at sent
  exact ⟨t, run, sent.trans (by decide +kernel), owed⟩

end FlasherStub
