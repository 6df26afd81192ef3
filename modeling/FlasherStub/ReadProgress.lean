import FlasherStub.ReadFlash
import FlasherStub.SimulatedDevice

/-! When the stream of READ_FLASH stalls. The window is an unsigned difference of two counters, so
an acknowledgement that comes before its packet closes it; the packet size is only checked from
above. -/

namespace FlasherStub

open ByteMemory Budget

variable {W D H S C : Type} (env : Platform W D H S C)

theorem eq_of_sub32_lt_one {a b : Nat} (ha : a < 2 ^ 32) (hb : b < 2 ^ 32) (h : sub32 a b < 1) :
    a = b := by
  unfold sub32 at h
  omega

theorem length_le_flatten {packets : List (List UInt8)} (some : ∀ p ∈ packets, p ≠ []) :
    packets.length ≤ packets.flatten.length := by
  induction packets with
  | nil => simp
  | cons p packets ih =>
    have rest := ih fun q mem => some q (by simp [mem])
    have first := List.length_pos_iff.mpr (some p (by simp))
    simp only [List.length_cons, List.flatten_cons, List.length_append]
    omega

structure Sending (readSize packetSize : Nat) (s : StubState W D S C) (polls : List RecvPoll)
    (l : ReadLocals H) (packets : List (List UInt8)) (t : StubState W D S C) : Prop where
  sent : t.sent = s.sent ++ packets
  count : l.sentPackets = packets.length
  acked : l.ackedPackets = ackCount polls % 2 ^ 32
  unacked : packets.length ≤ ackCount polls + 1
  bytes : packets.flatten.length + l.readSizeRemaining = readSize
  some : ∀ p ∈ packets, p ≠ []
  whole : ∀ p ∈ packets.dropLast, p.length = packetSize
  full : 0 < l.readSizeRemaining → ∀ p ∈ packets, p.length = packetSize

namespace Sending

variable {readSize packetSize : Nat} {s t : StubState W D S C} {polls : List RecvPoll}
  {l : ReadLocals H} {packets : List (List UInt8)}

theorem start (ctx : CmdCtx) (s : StubState W D S C) (packetSize : Nat) :
    Sending ctx.readSize packetSize s [] (.start env ctx : ReadLocals H) [] (s.released env) where
  sent := by simp [StubState.released]
  count := rfl
  acked := rfl
  unacked := by simp
  bytes := by simp [ReadLocals.start]
  some := by simp
  whole := by simp
  full := by simp

theorem count_lt (h : Sending readSize packetSize s polls l packets t) (bound : readSize < 2 ^ 32) :
    packets.length < 2 ^ 32 := by
  have := length_le_flatten h.some
  have := h.bytes
  omega

theorem poll (h : Sending readSize packetSize s polls l packets t)
    (right : ¬ (pollOf env t).WrongSized) :
    Sending readSize packetSize s (polls ++ [pollOf env t]) (l.acked (pollOf env t)) packets
      (t.polled env) := by
  have same := l.acked_sentPackets (pollOf env t)
  have left := l.acked_readSizeRemaining (pollOf env t)
  have acks : (l.acked (pollOf env t)).ackedPackets =
      ackCount (polls ++ [pollOf env t]) % 2 ^ 32 := by
    have acked := h.acked
    rw [ackCount_snoc]
    revert right
    cases pollOf env t with
    | none | error => simpa [RecvPoll.IsAck, ReadLocals.acked] using fun _ => acked
    | frame ack =>
      intro right
      have size : ack.length = 4 := not_not.mp right
      simp [RecvPoll.IsAck, ReadLocals.acked, size, acked]
  refine ⟨h.sent, same.trans h.count, acks, ?_, ?_, h.some, h.whole, ?_⟩
  · have := h.unacked
    rw [ackCount_snoc]
    omega
  · rw [left, h.bytes]
  · rw [left]
    exact h.full

theorem acknowledged (h : Sending readSize packetSize s polls l packets t)
    (bound : readSize < 2 ^ 32) (sends : l.Sends) : packets.length ≤ ackCount polls := by
  have less := h.count_lt bound
  have window := sends.2
  rw [h.count, h.acked] at window
  have := eq_of_sub32_lt_one less (Nat.mod_lt _ (by decide)) window
  omega

theorem sends (h : Sending readSize packetSize s polls l packets t) (bound : readSize < 2 ^ 32)
    (left : 0 < l.readSizeRemaining) (even : packets.length = ackCount polls) : l.Sends := by
  have less := h.count_lt bound
  refine ⟨left, ?_⟩
  rw [h.count, h.acked, ← even, Nat.mod_eq_of_lt less, sub32_of_le le_rfl less, Nat.sub_self]
  exact Nat.one_pos

theorem packet (h : Sending readSize packetSize s polls l packets t) (bound : readSize < 2 ^ 32)
    (some : 0 < packetSize) (sends : l.Sends) {packet : List UInt8}
    (length : packet.length = l.packetLength packetSize) {u : StubState W D S C}
    (sent : u.sent = t.sent ++ [packet]) :
    Sending readSize packetSize s polls (l.afterPacket env packet) (packets ++ [packet]) u := by
  have bytes := h.bytes
  have left := sends.1
  have part : packet.length ≤ l.readSizeRemaining ∧ 0 < packet.length := by
    rw [length, ReadLocals.packetLength]
    omega
  have rest : (l.afterPacket env packet).readSizeRemaining =
      l.readSizeRemaining - packet.length := sub32_of_le part.1 (by omega)
  have acknowledged := h.acknowledged bound sends
  have bytes' : (packets ++ [packet]).flatten.length +
      (l.afterPacket env packet).readSizeRemaining = readSize := by
    rw [rest, List.flatten_append, List.length_append, List.flatten_singleton]
    omega
  have some' : ∀ p ∈ packets ++ [packet], p ≠ [] :=
    List.forall_mem_append.mpr ⟨h.some, by simpa using List.length_pos_iff.mp part.2⟩
  refine ⟨?_, ?_, h.acked, ?_, bytes', some', ?_, ?_⟩
  · rw [sent, h.sent, List.append_assoc]
  · have := length_le_flatten some'
    rw [List.length_append, List.length_singleton] at this ⊢
    change (l.sentPackets + 1) % 2 ^ 32 = _
    rw [h.count, Nat.mod_eq_of_lt (by omega)]
  · rw [List.length_append, List.length_singleton]
    omega
  · rw [List.dropLast_concat]
    exact h.full left
  · intro more
    rw [rest, length, ReadLocals.packetLength] at more
    refine List.forall_mem_append.mpr ⟨h.full left, ?_⟩
    rw [List.forall_mem_singleton, length, ReadLocals.packetLength]
    omega

end Sending

/-- READ_FLASH with the parameters of `ctx`, started in `s`, cannot stall. -/
structure NeverStalls (ctx : CmdCtx) (s : StubState W D S C) : Prop where
  /-- with data left, and as many acknowledgements as packets, a round sends a packet -/
  progress : ∀ polls l t, ReadHead env ctx s polls l t → 0 < l.readSizeRemaining →
    t.sent.length - s.sent.length ≤ ackCount (polls ++ [pollOf env t]) →
    ∃ l' u packet, (readFlashStep env ctx.readSize ctx.readPacketSize l).Returns t (.inl l') u ∧
      u.sent = t.sent ++ [packet] ∧ packet ≠ [] ∧ l'.readSizeRemaining < l.readSizeRemaining
  /-- finitely many acknowledgements are enough -/
  finite : ∃ n, ∀ polls l t, ReadHead env ctx s polls l t → n ≤ ackCount polls →
    l.readSizeRemaining = 0
  /-- the callback does not end before -/
  complete : ∀ e t, (readFlashPostProcess env ctx).Returns s e t →
    ∃ packets rest, t.sent = s.sent ++ packets ++ rest ∧ packets.flatten.length = ctx.readSize

/-- What keeps it from stalling: a packet size that is checked at both ends, and no
acknowledgement before the first packet. -/
def Startable (ctx : CmdCtx) (s : StubState W D S C) : Prop :=
  ctx.readSize = 0 ∨ 0 < ctx.readPacketSize ∧ ctx.readPacketSize ≤ readBufferSize - 6 ∧
    ¬ (pollOf env (s.released env)).IsAck

theorem ReadHead.first {ctx : CmdCtx} (small : ctx.readPacketSize ≤ readBufferSize - 6)
    (s : StubState W D S C) :
    ReadHead env ctx s [] (.start env ctx : ReadLocals H) (s.released env) := ⟨small, .start⟩

theorem NeverStalls.startable {ctx : CmdCtx} {s : StubState W D S C}
    (h : NeverStalls env ctx s) : Startable env ctx s := by
  by_contra stalls
  obtain ⟨some, bad⟩ := not_or.mp stalls
  have small : ctx.readPacketSize ≤ readBufferSize - 6 := by
    by_contra large
    have refused : (readFlashPostProcess env ctx).Returns s responseBadDataLen s := by
      unfold readFlashPostProcess
      change (if readBufferSize - 6 < ctx.readPacketSize then _ else _ : Stub W D S C Int).Returns
        _ _ _
      rw [if_pos (not_le.mp large), Prog.returns_pure]
      exact ⟨rfl, rfl⟩
    obtain ⟨packets, rest, sent, length⟩ := h.complete _ _ refused
    have nothing := congrArg List.length sent
    simp only [List.length_append] at nothing
    obtain rfl : packets = [] := List.eq_nil_of_length_eq_zero (by omega)
    exact some length.symm
  have first := ReadHead.first env small s
  obtain ⟨l, u, packet, step, sent, full, -⟩ := h.progress _ _ _ first
    (Nat.pos_of_ne_zero some) (by simp [StubState.released])
  have round := returns_readFlashStep env step
  cases round with
  | waits => simp [StubState.polled] at sent
  | packet more right sends good =>
    refine bad ⟨?_, small, ?_⟩
    · by_contra zero
      obtain rfl : packet = _ := (List.cons.inj (List.append_cancel_left sent.symm)).1
      refine full (List.eq_nil_of_length_eq_zero ?_)
      rw [ReadLocals.length_packet, ReadLocals.packetLength]
      omega
    · intro ack
      have window := sends.2
      revert window ack
      cases pollOf env (s.released env) with
      | none | error => exact fun h => h.elim
      | frame bytes =>
        intro _
        change ¬ sub32 0 ((0 + 1) % 2 ^ 32) < 1
        decide

variable {ctx : CmdCtx} {s t : StubState W D S C} {polls : List RecvPoll} {l : ReadLocals H}

/-- At every head the packets that were sent are accounted for. If no acknowledgement came before
the first of them, just one is unacknowledged as long as data are left. -/
theorem ReadHead.sending (some : 0 < ctx.readPacketSize) (head : ReadHead env ctx s polls l t) :
    ∃ packets, Sending ctx.readSize ctx.readPacketSize s polls l packets t ∧
      (¬ (pollOf env (s.released env)).IsAck → 0 < l.readSizeRemaining →
        (polls = [] ∧ packets = [] ∧ t = s.released env) ∨
          packets.length = ackCount polls + 1) := by
  have bound : ctx.readSize < 2 ^ 32 := getLeToU32_lt _ _
  obtain ⟨-, heads⟩ := head
  induction heads with
  | start => exact ⟨[], .start env ctx s _, fun _ _ => .inl ⟨rfl, rfl, rfl⟩⟩
  | @next polls l t l' u before step ih =>
    obtain ⟨packets, sending, outstanding⟩ := ih
    have round := returns_readFlashStep env step
    cases round with
    | waits more right idle =>
      have polled := sending.poll env right
      refine ⟨packets, polled, fun free left => .inr ?_⟩
      have uneven := mt (polled.sends bound left) idle
      rw [ReadLocals.acked_readSizeRemaining] at left
      rw [ackCount_snoc] at uneven ⊢
      obtain ⟨rfl, rfl, rfl⟩ | one := outstanding free left
      · rw [if_neg free] at uneven
        exact absurd rfl uneven
      · split_ifs at uneven ⊢ with ack
        · exact absurd one uneven
        · omega
    | packet more right sends good =>
      have polled := sending.poll env right
      refine ⟨_, polled.packet env bound some sends (ReadLocals.length_packet env _ _ _) rfl,
        fun free _ => .inr ?_⟩
      have left := sends.1
      have lower := polled.acknowledged bound sends
      rw [ReadLocals.acked_readSizeRemaining] at left
      rw [List.length_append, List.length_singleton]
      rw [ackCount_snoc] at lower ⊢
      obtain ⟨rfl, rfl, rfl⟩ | one := outstanding free left
      · rw [if_neg free]
        rfl
      · split_ifs at lower ⊢ <;> omega

theorem ReadHead.sends (some : 0 < ctx.readPacketSize) (head : ReadHead env ctx s polls l t)
    (free : ¬ (pollOf env (s.released env)).IsAck) (right : ¬ (pollOf env t).WrongSized)
    (left : 0 < l.readSizeRemaining)
    (even : t.sent.length - s.sent.length ≤ ackCount (polls ++ [pollOf env t])) :
    (l.acked (pollOf env t)).Sends := by
  obtain ⟨packets, sending, outstanding⟩ := head.sending env some
  rw [sending.sent, List.length_append, Nat.add_sub_cancel_left] at even
  refine (sending.poll env right).sends (getLeToU32_lt _ _) (by simpa using left) ?_
  rw [ackCount_snoc] at even ⊢
  obtain ⟨rfl, rfl, rfl⟩ | one := outstanding free left
  · rw [if_neg free]
    rfl
  · split_ifs at even ⊢ <;> omega

theorem ReadHead.nothing (none : ctx.readSize = 0) (head : ReadHead env ctx s polls l t) :
    l.readSizeRemaining = 0 ∧ t.sent = s.sent := by
  obtain ⟨-, heads⟩ := head
  induction heads with
  | start => exact ⟨none, rfl⟩
  | next before step ih =>
    have round := returns_readFlashStep env step
    cases round with
    | waits more right idle =>
      exact ⟨(ReadLocals.acked_readSizeRemaining _ _).trans ih.1, ih.2⟩
    | packet more right sends good =>
      have left := sends.1
      rw [ReadLocals.acked_readSizeRemaining, ih.1] at left
      exact absurd left (lt_irrefl 0)

section
variable (acksOnly : ∀ w, ¬ (env.transport.recvPoll w).1.WrongSized)
  (reads : ∀ addr size w, ∃ data, (env.lib.flashReadBuff addr size w).1 = some data)

include acksOnly reads

theorem ReadRound.ended {readSize packetSize : Nat} {r : Except Int H} {u : StubState W D S C}
    (round : ReadRound env readSize packetSize l t (.inr r) u) :
    ¬ l.Active readSize ∧ r = .ok l.md5Ctx ∧ u = t := by
  cases round with
  | finished ended => exact ⟨ended, rfl, rfl⟩
  | broken more wrong => exact absurd wrong (acksOnly _)
  | fails more right _ failed =>
    obtain ⟨data, good⟩ := reads _ _ _
    exact absurd (failed.symm.trans good) (Option.some_ne_none data).symm

theorem readFlashPostProcess_ended {e : Int}
    (run : (readFlashPostProcess env ctx).Returns s e t) :
    (readBufferSize - 6 < ctx.readPacketSize ∧ t = s) ∨
      ∃ polls l u, ReadHead env ctx s polls l u ∧ ¬ l.Active ctx.readSize ∧
        t.sent = u.sent ++ [env.md5.final l.md5Ctx] := by
  obtain ⟨large, -, rfl⟩ | ⟨polls, l, u, v, r, head, round, ends⟩ :=
    returns_readFlashPostProcess env run
  · exact .inl ⟨large, rfl⟩
  · obtain ⟨ended, rfl, rfl⟩ := round.ended env acksOnly reads
    exact .inr ⟨polls, l, v, head, ended, by rw [ends.2]; rfl⟩

theorem readFlashStep_progress {readSize packetSize : Nat} (some : 0 < packetSize)
    (bound : l.readSizeRemaining < 2 ^ 32) (sends : (l.acked (pollOf env t)).Sends) :
    ∃ l' u packet, (readFlashStep env readSize packetSize l).Returns t (.inl l') u ∧
      u.sent = t.sent ++ [packet] ∧ packet ≠ [] ∧ l'.readSizeRemaining < l.readSizeRemaining := by
  have left := sends.1
  rw [ReadLocals.acked_readSizeRemaining] at left
  obtain ⟨r, u, run⟩ := (straight_readFlashStep env readSize packetSize l).ends t
  have round := returns_readFlashStep env run
  cases round with
  | finished ended => exact absurd (.inl left) ended
  | broken more wrong => exact absurd wrong (acksOnly _)
  | waits more right idle => exact absurd sends idle
  | fails more right _ failed =>
    obtain ⟨data, good⟩ := reads _ _ _
    exact absurd (failed.symm.trans good) (Option.some_ne_none data).symm
  | packet more right _ good =>
    refine ⟨_, _, _, run, rfl, ?_, ?_⟩
    · rw [← List.length_pos_iff, ReadLocals.length_packet, ReadLocals.packetLength,
        ReadLocals.acked_readSizeRemaining]
      omega
    · change sub32 (l.acked _).readSizeRemaining _ < _
      rw [ReadLocals.acked_readSizeRemaining, ReadLocals.length_packet, ReadLocals.packetLength,
        ReadLocals.acked_readSizeRemaining, sub32_of_le (min_le_left _ _) bound]
      omega

theorem NeverStalls.of_no_data (none : ctx.readSize = 0) : NeverStalls env ctx s where
  progress polls l t head left _ := absurd (head.nothing env none).1 (by omega)
  finite := ⟨0, fun polls l t head _ => (head.nothing env none).1⟩
  complete e t run := by
    obtain ⟨-, rfl⟩ | ⟨polls, l, u, head, -, sent⟩ :=
      readFlashPostProcess_ended env acksOnly reads run
    · exact ⟨[], [], by simp, by simp [none]⟩
    · refine ⟨[], [env.md5.final l.md5Ctx], ?_, by simp [none]⟩
      rw [sent, (head.nothing env none).2, List.append_nil]

theorem NeverStalls.of_startable (startable : Startable env ctx s) : NeverStalls env ctx s := by
  by_cases none : ctx.readSize = 0
  · exact .of_no_data env acksOnly reads none
  have bound : ctx.readSize < 2 ^ 32 := getLeToU32_lt _ _
  obtain ⟨some, small, free⟩ := startable.resolve_left none
  refine ⟨fun polls l t head left even => ?_, ⟨ctx.readSize, fun polls l t head many => ?_⟩,
    fun e t run => ?_⟩
  · obtain ⟨packets, sending, -⟩ := head.sending env some
    have := sending.bytes
    exact readFlashStep_progress env acksOnly reads some (by omega)
      (head.sends env some free (acksOnly _) left even)
  · obtain ⟨packets, sending, outstanding⟩ := head.sending env some
    by_contra left
    have bytes := sending.bytes
    have := length_le_flatten sending.some
    obtain ⟨rfl, -⟩ | one := outstanding free (Nat.pos_of_ne_zero left)
    · exact none (Nat.le_zero.mp many)
    · omega
  · obtain ⟨large, -⟩ | ⟨polls, l, u, head, ended, sent⟩ :=
      readFlashPostProcess_ended env acksOnly reads run
    · omega
    · obtain ⟨packets, sending, -⟩ := head.sending env some
      have bytes := sending.bytes
      have rest := not_or.mp ended
      exact ⟨packets, [env.md5.final l.md5Ctx], by rw [sent, sending.sent], by omega⟩

end

/-- On a device whose reads succeed, and with acknowledgements as the only frames, READ_FLASH
never stalls exactly if its packet size is in range and no acknowledgement comes early. -/
theorem read_flash_never_stalls_iff (acksOnly : ∀ w, ¬ (env.transport.recvPoll w).1.WrongSized)
    (reads : ∀ addr size w, ∃ data, (env.lib.flashReadBuff addr size w).1 = some data)
    (ctx : CmdCtx) (s : StubState W D S C) : NeverStalls env ctx s ↔ Startable env ctx s :=
  ⟨NeverStalls.startable env, NeverStalls.of_startable env acksOnly reads⟩

/-- A READ_FLASH request; the last word is the window that the host asks for. -/
def readFlashFrame (offset size packetSize : Nat) : Frame :=
  mkFrame espReadFlash 0
    (setU32ToLe offset ++ setU32ToLe size ++ setU32ToLe packetSize ++ setU32ToLe 64)

theorem read_flash_never_stalls_one_byte :
    NeverStalls (simPlatform 4096 []) (readFlashFrame 0 1 1).ctx (simStart fun _ => 0xFF) :=
  (read_flash_never_stalls_iff (simPlatform 4096 []) (fun _ => id) (fun _ _ _ => ⟨_, rfl⟩) _ _).mpr
    (.inr ⟨by decide, by decide, id⟩)

/-- A request for packets of no bytes is answered SUCCESS and stalls. -/
theorem read_flash_stalls_without_packet_size :
    ∃ t, (handleCommand (simPlatform 4096 []) (readFlashFrame 0 1 0).buffer
        (readFlashFrame 0 1 0).size).Visits (simStart fun _ => 0xFF) t ∧
      t.sent = [responseFrame espReadFlash responseSuccess (some {})] ∧
      ¬ NeverStalls (simPlatform 4096 []) (readFlashFrame 0 1 0).ctx t := by
  refine ⟨_, ⟨0, rfl⟩, rfl, fun never => ?_⟩
  obtain none | ⟨some, -⟩ := never.startable
  · revert none
    decide
  · revert some
    decide

end FlasherStub
