import FlasherStub.ReadProgress

/-! What READ_FLASH streams: the requested region, packet by packet, and a digest of what was
really sent. Flash reads are aligned outwards and the packet is cut out of what they give. -/

namespace FlasherStub

open ByteMemory Budget

variable {W D H S C : Type} (env : Platform W D H S C)

structure ReadContract (content : W → Memory) (chip : Nat) : Prop where
  size : chip % 4 = 0 ∧ chip ≤ 2 ^ 32
  alignDown : ∀ a, env.lib.alignDown a 4 = a / 4 * 4
  alignUp : ∀ a, a + 3 < 2 ^ 32 → env.lib.alignUp a 4 = (a + 3) / 4 * 4
  read : ∀ addr size w, addr % 4 = 0 → size % 4 = 0 → addr + size ≤ chip →
    (env.lib.flashReadBuff addr size w).1 = some ((content w).read addr size)
  keepsRead : ∀ addr size w, content (env.lib.flashReadBuff addr size w).2 = content w
  keepsPoll : ∀ w, content (env.transport.recvPoll w).2 = content w
  keepsRelease : ∀ w, content (env.transport.recvRelease w) = content w
  keepsSend : ∀ frame w, content (env.transport.sendFrame frame w) = content w

/-- A hash that is computed part by part. -/
structure Incremental (md5 : Md5 H) : Prop where
  nil : ∀ h, md5.update h [] = h
  append : ∀ h xs ys, md5.update (md5.update h xs) ys = md5.update h (xs ++ ys)

/-- A read that the word-aligned interface of the flash and the buffer of the callback allow. -/
def Event.AlignedRead : Event → Prop
  | .read addr size _ => addr % 4 = 0 ∧ size % 4 = 0 ∧ size ≤ readBufferSize
  | _ => False

namespace ReadLocals

variable {env} {content : W → Memory} {chip packetSize : Nat} {l : ReadLocals H}

theorem alignOffset_eq (contract : ReadContract env content chip) (bound : l.offset < 2 ^ 32) :
    l.alignOffset env = l.offset % 4 := by
  rw [alignOffset, contract.alignDown, sub32_of_le (Nat.div_mul_le_self _ _) bound]
  omega

theorem alignedSize_eq (contract : ReadContract env content chip) (bound : l.offset < 2 ^ 32)
    (small : packetSize ≤ 4096) : l.alignedSize env packetSize =
      (l.packetLength packetSize + l.offset % 4 + 3) / 4 * 4 := by
  have length : l.packetLength packetSize ≤ 4096 := (min_le_right _ _).trans small
  rw [alignedSize, alignOffset_eq contract bound, Nat.mod_eq_of_lt (by omega),
    contract.alignUp _ (by omega)]

theorem packet_eq (contract : ReadContract env content chip) (bound : l.offset < 2 ^ 32)
    (small : packetSize ≤ 4096) (fits : l.offset + l.packetLength packetSize ≤ chip) (w : W) :
    ∃ data, (l.read env packetSize w).1 = some data ∧
      l.packet env packetSize data = (content w).read l.offset (l.packetLength packetSize) := by
  have size := contract.size.1
  have good := contract.read (l.offset / 4 * 4) (l.alignedSize env packetSize) w (by omega)
    (by rw [alignedSize_eq contract bound small]; omega)
    (by rw [alignedSize_eq contract bound small]; omega)
  refine ⟨_, by rw [read, contract.alignDown, good], ?_⟩
  rw [packet, alignOffset_eq contract bound, alignedSize_eq contract bound small,
    Memory.read_ofList_read _ (by omega)]
  congr 1
  omega

theorem aligned (contract : ReadContract env content chip) (bound : l.offset < 2 ^ 32)
    (small : packetSize ≤ 4096) (result : Option (List UInt8)) :
    (Event.read (env.lib.alignDown l.offset 4) (l.alignedSize env packetSize) result).AlignedRead := by
  have length : l.packetLength packetSize ≤ 4096 := (min_le_right _ _).trans small
  rw [contract.alignDown, alignedSize_eq contract bound small]
  refine ⟨by omega, by omega, ?_⟩
  change _ ≤ 4102
  omega

end ReadLocals

theorem content_afterPoll {content : W → Memory} {chip : Nat}
    (contract : ReadContract env content chip) (w : W) :
    content (afterPoll env w) = content w := by
  have polled := contract.keepsPoll w
  have released := contract.keepsRelease (env.transport.recvPoll w).2
  unfold afterPoll
  generalize env.transport.recvPoll w = result at polled released
  obtain ⟨p, w'⟩ := result
  cases p with
  | none => exact polled
  | error => exact released.trans polled
  | frame ack =>
    dsimp only
    split_ifs
    · exact polled
    · exact released.trans polled

structure Streams (content : W → Memory) (ctx : CmdCtx) (s : StubState W D S C)
    (polls : List RecvPoll) (l : ReadLocals H) (packets : List (List UInt8))
    (t : StubState W D S C) :
    Prop extends Sending ctx.readSize ctx.readPacketSize s polls l packets t where
  kept : content t.world = content s.world
  data : packets.flatten = (content s.world).read ctx.readOffset packets.flatten.length
  position : l.offset = (ctx.readOffset + packets.flatten.length) % 2 ^ 32
  digest : l.md5Ctx = env.md5.update env.md5.init packets.flatten
  reads : ∃ reads, t.trace = s.trace ++ reads ∧ ∀ e ∈ reads, e.AlignedRead

section Streams

variable {content : W → Memory} {chip : Nat} (contract : ReadContract env content chip)
  (hash : Incremental env.md5) {ctx : CmdCtx} {s t : StubState W D S C} {polls : List RecvPoll}
  {l : ReadLocals H} {packets : List (List UInt8)}

include contract

theorem Streams.start (hash : Incremental env.md5) (ctx : CmdCtx) (s : StubState W D S C) :
    Streams env content ctx s [] (.start env ctx) [] (s.released env) where
  toSending := .start env ctx s _
  kept := contract.keepsRelease _
  data := by simp
  position := (Nat.mod_eq_of_lt (getLeToU32_lt _ _)).symm
  digest := (hash.nil _).symm
  reads := ⟨[], by simp [StubState.released], by simp⟩

theorem Streams.poll (h : Streams env content ctx s polls l packets t)
    (right : ¬ (pollOf env t).WrongSized) :
    Streams env content ctx s (polls ++ [pollOf env t]) (l.acked (pollOf env t)) packets
      (t.polled env) where
  toSending := h.toSending.poll env right
  kept := (content_afterPoll env contract _).trans h.kept
  data := h.data
  position := by rw [ReadLocals.acked_offset, h.position]
  digest := by rw [ReadLocals.acked_md5Ctx, h.digest]
  reads := h.reads

include hash

theorem Streams.packet (h : Streams env content ctx s polls l packets t)
    (nonzero : 0 < ctx.readPacketSize) (small : ctx.readPacketSize ≤ 4096)
    (fits : ctx.readOffset + ctx.readSize ≤ chip) (sends : l.Sends) :
    ∃ data, (l.read env ctx.readPacketSize t.world).1 = some data ∧
      Streams env content ctx s polls
        (l.afterPacket env (l.packet env ctx.readPacketSize data))
        (packets ++ [l.packet env ctx.readPacketSize data])
        ((t.readFor env ctx.readPacketSize l).afterSend env
          (l.packet env ctx.readPacketSize data)) := by
  have bytes := h.bytes
  have left := sends.1
  have size := contract.size.2
  have position : l.offset = ctx.readOffset + packets.flatten.length := by
    rw [h.position, Nat.mod_eq_of_lt (by omega)]
  have part : l.packetLength ctx.readPacketSize ≤ l.readSizeRemaining := min_le_left _ _
  obtain ⟨data, good, packet⟩ := ReadLocals.packet_eq (l := l) contract (by omega) small
    (by omega) t.world
  have sent := h.toSending.packet env (getLeToU32_lt _ _) nonzero sends
    (ReadLocals.length_packet env ctx.readPacketSize l data)
    (u := (t.readFor env ctx.readPacketSize l).afterSend env _) rfl
  refine ⟨data, good, sent, ?_, ?_, ?_, ?_, ?_⟩
  · exact (contract.keepsSend _ _).trans ((contract.keepsRead _ _ _).trans h.kept)
  · rw [List.flatten_append, List.flatten_singleton, List.length_append, Memory.read_add, ← h.data,
      ReadLocals.length_packet, packet, h.kept, position]
  · rw [List.flatten_append, List.flatten_singleton, List.length_append]
    change (l.offset + _) % 2 ^ 32 = _
    rw [position, Nat.add_assoc]
  · change env.md5.update l.md5Ctx _ = _
    rw [h.digest, hash.append, List.flatten_append, List.flatten_singleton]
  · obtain ⟨reads, trace, aligned⟩ := h.reads
    refine ⟨reads ++ [.read (env.lib.alignDown l.offset 4) (l.alignedSize env ctx.readPacketSize)
      (l.read env ctx.readPacketSize t.world).1], ?_,
      List.forall_mem_append.mpr ⟨aligned, List.forall_mem_singleton.mpr ?_⟩⟩
    · rw [← List.append_assoc, ← trace]
      rfl
    · exact ReadLocals.aligned contract (by omega) small _

theorem ReadHead.streams (nonzero : 0 < ctx.readPacketSize) (small : ctx.readPacketSize ≤ 4096)
    (fits : ctx.readOffset + ctx.readSize ≤ chip) (head : ReadHead env ctx s polls l t) :
    ∃ packets, Streams env content ctx s polls l packets t := by
  obtain ⟨-, heads⟩ := head
  induction heads with
  | start => exact ⟨[], .start env contract hash ctx s⟩
  | next before step ih =>
    obtain ⟨packets, streams⟩ := ih
    have round := returns_readFlashStep env step
    cases round with
    | waits more right idle => exact ⟨packets, streams.poll env contract right⟩
    | packet more right sends good =>
      obtain ⟨data, good', next⟩ :=
        (streams.poll env contract right).packet env contract hash nonzero small fits sends
      obtain rfl := Option.some.inj (good.symm.trans good')
      exact ⟨_, next⟩

end Streams

/-- What the host may rely on at any moment: the data frames `packets` since `s`. -/
structure Delivered (content : W → Memory) (ctx : CmdCtx) (s : StubState W D S C)
    (polls : List RecvPoll) (packets : List (List UInt8)) (t : StubState W D S C) : Prop where
  sent : t.sent = s.sent ++ packets
  region : packets.flatten <+: (content s.world).read ctx.readOffset ctx.readSize
  whole : ∀ p ∈ packets.dropLast, p.length = ctx.readPacketSize
  unacked : packets.length ≤ ackCount polls + 1
  reads : ∃ reads, t.trace = s.trace ++ reads ∧ ∀ e ∈ reads, e.AlignedRead

theorem Streams.delivered {content : W → Memory} {ctx : CmdCtx} {s t : StubState W D S C}
    {polls : List RecvPoll} {l : ReadLocals H} {packets : List (List UInt8)}
    (h : Streams env content ctx s polls l packets t) :
    Delivered content ctx s polls packets t where
  sent := h.sent
  region := by
    have bytes := h.bytes
    rw [h.data, ← bytes, Memory.read_add]
    exact List.prefix_append _ _
  whole := h.whole
  unacked := h.unacked
  reads := h.reads

/-- READ_FLASH sends the requested region and nothing else, and the digest of what it sent. The
moments at which it can be observed are the heads of its loop, and its end. -/
theorem read_flash_streams {content : W → Memory} {chip : Nat}
    (contract : ReadContract env content chip) (hash : Incremental env.md5) (ctx : CmdCtx)
    (nonzero : 0 < ctx.readPacketSize) (small : ctx.readPacketSize ≤ 4096)
    (fits : ctx.readOffset + ctx.readSize ≤ chip) (s : StubState W D S C) :
    (∀ t, (readFlashPostProcess env ctx).Visits s t ↔ ∃ polls l, ReadHead env ctx s polls l t) ∧
    (∀ polls l t, ReadHead env ctx s polls l t →
      ∃ packets, Delivered content ctx s polls packets t) ∧
    ∀ e t, (readFlashPostProcess env ctx).Returns s e t → ∃ polls l u packets,
      ReadHead env ctx s polls l u ∧ Delivered content ctx s polls packets u ∧
      e = responseSuccess ∧ t.trace = u.trace ∧
      t.sent = u.sent ++ [env.md5.final (env.md5.update env.md5.init packets.flatten)] ∧
      ((pollOf env u).WrongSized ∨
        packets.flatten = (content s.world).read ctx.readOffset ctx.readSize) := by
  refine ⟨fun t => visits_readFlashPostProcess env, fun polls l t head => ?_, fun e t run => ?_⟩
  · obtain ⟨packets, streams⟩ := head.streams env contract hash nonzero small fits
    exact ⟨packets, streams.delivered env⟩
  obtain ⟨large, -, -⟩ | ⟨polls, l, u, v, r, head, round, ends⟩ :=
    returns_readFlashPostProcess env run
  · have buffer : readBufferSize - 6 = 4096 := rfl
    omega
  obtain ⟨packets, streams⟩ := head.streams env contract hash nonzero small fits
  refine ⟨polls, l, u, packets, head, streams.delivered env, ?_⟩
  cases round with
  | finished ended =>
    have bytes := streams.bytes
    have rest := not_or.mp ended
    rw [ends.2, streams.digest]
    refine ⟨ends.1, rfl, rfl, .inr ?_⟩
    rw [streams.data]
    congr 1
    omega
  | broken more wrong =>
    rw [ends.2, streams.digest]
    exact ⟨ends.1, rfl, rfl, .inl wrong⟩
  | fails more right sends failed =>
    obtain ⟨data, good, -⟩ :=
      (streams.poll env contract right).packet env contract hash nonzero small fits sends
    exact absurd (failed.symm.trans good) (Option.some_ne_none data).symm

def scriptPlatform :
    Platform (SimWorld × List RecvPoll) (List SimInflate) (List UInt8) Unit Empty where
  lib := (simLib 4096).beside
  tinfl := simTinfl []
  md5 := echoMd5
  transport := scriptTransport
  plugin := simPlugin

theorem scriptPlatform_readContract :
    ReadContract scriptPlatform (fun w => w.1.content) (2 ^ 32) where
  size := by decide
  alignDown _ := rfl
  alignUp a bound := by
    change (a + 3) % 2 ^ 32 / 4 * 4 = _
    rw [Nat.mod_eq_of_lt bound]
  read _ _ _ _ _ _ := rfl
  keepsRead _ _ _ := rfl
  keepsPoll w := congrArg SimWorld.content (fst_scriptTransport w)
  keepsRelease _ := rfl
  keepsSend _ _ := rfl

theorem echoMd5_incremental : Incremental echoMd5 :=
  ⟨List.append_nil, fun _ _ _ => List.append_assoc _ _ _⟩

theorem simMd5_incremental : Incremental simMd5 := ⟨fun _ => rfl, fun _ _ _ => rfl⟩

/-- A chip of a few bytes; the host acknowledges two packets, the first after two empty polls and an
error. -/
def readScriptStart : StubState (SimWorld × List RecvPoll) (List SimInflate) Unit Empty :=
  startOn (⟨Memory.ofList [0x10, 0x11, 0x12, 0x13, 0x14, 0x15]⟩,
    [.none, .none, .error, .frame (setU32ToLe 2), .frame (setU32ToLe 3)])

/-- Three bytes from an address that is not aligned, in packets of two bytes, up to the digest. -/
theorem read_flash_streams_two_packets : ∃ t,
    (readFlashPostProcess scriptPlatform (readFlashFrame 3 3 2).ctx).Returns readScriptStart
      responseSuccess t ∧
    t.sent = [[0x13, 0x14], [0x15], [0x13, 0x14, 0x15] ++ List.replicate 13 0] ∧
    ∃ polls l u packets,
      ReadHead scriptPlatform (readFlashFrame 3 3 2).ctx readScriptStart polls l u ∧
      Delivered (fun w => w.1.content) (readFlashFrame 3 3 2).ctx readScriptStart polls packets u ∧
      t.sent = u.sent ++ [echoMd5.final (echoMd5.update echoMd5.init packets.flatten)] := by
  obtain ⟨t, run, sent⟩ : ∃ t,
      (readFlashPostProcess scriptPlatform (readFlashFrame 3 3 2).ctx).Returns readScriptStart
        responseSuccess t ∧
      t.sent = [[0x13, 0x14], [0x15], [0x13, 0x14, 0x15] ++ List.replicate 13 0] :=
    ⟨_, ⟨20, _, rfl⟩, rfl⟩
  obtain ⟨polls, l, u, packets, head, delivered, -, -, digest, -⟩ :=
    (read_flash_streams scriptPlatform scriptPlatform_readContract echoMd5_incremental _
      (by decide) (by decide) (by decide) _).2.2 _ _ run
  exact ⟨t, run, sent, polls, l, u, packets, head, delivered, digest⟩

end FlasherStub
