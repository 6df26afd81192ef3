import FlasherStub.NandRead
import Mathlib.Data.Prod.Lex

/-! READ_FLASH and its NAND twin against a host that acknowledges each packet with the number of
bytes it has, after any number of polls that find nothing or report an error. -/

namespace FlasherStub

open ByteMemory Budget

variable {W D H S C : Type}

/-- A poll that brings no frame. -/
def RecvPoll.Empty (p : RecvPoll) : Prop := p = .none ∨ p = .error

namespace RecvPoll.Empty

variable {H : Type} {p : RecvPoll} (empty : p.Empty)

include empty

theorem right : ¬ p.WrongSized := by
  obtain rfl | rfl := empty <;> exact id

theorem ackCount_snoc (polls : List RecvPoll) : ackCount (polls ++ [p]) = ackCount polls := by
  rw [FlasherStub.ackCount_snoc, if_neg, Nat.add_zero]
  obtain rfl | rfl := empty <;> exact id

theorem acked (l : ReadLocals H) : l.acked p = l := by
  obtain rfl | rfl := empty <;> rfl

theorem nandAcked (l : NandReadLocals H) : l.acked p = l := by
  obtain rfl | rfl := empty <;> rfl

end RecvPoll.Empty

/-- A host that reads: the bytes it has taken in, the acknowledgements that are on their way, and
a bound on the polls that come before the next of them. -/
structure Acknowledging where
  received : Nat
  owed : List Nat
  wait : Nat

/-- Across `transport` there is a host that reads `size` bytes. Between its acknowledgements polls
may find nothing or report an error. What comes after the bytes it does not acknowledge. -/
structure AckingHost (transport : TransportOps W) (size : Nat) (host : W → Acknowledging) :
    Prop where
  silent : ∀ w, (host w).owed = [] → (transport.recvPoll w).1.Empty ∧
    (host (transport.recvPoll w).2).received = (host w).received ∧
    (host (transport.recvPoll w).2).owed = []
  acknowledges : ∀ w total rest, (host w).owed = total :: rest →
    (host (transport.recvPoll w).2).received = (host w).received ∧
    ((transport.recvPoll w).1.Empty ∧ (host (transport.recvPoll w).2).owed = total :: rest ∧
        (host (transport.recvPoll w).2).wait < (host w).wait ∨
      (transport.recvPoll w).1 = .frame (setU32ToLe total) ∧
        (host (transport.recvPoll w).2).owed = rest)
  keepsRelease : ∀ w, host (transport.recvRelease w) = host w
  takes : ∀ packet w, packet ≠ [] → (host w).received + packet.length ≤ size →
    (host (transport.sendFrame packet w)).received = (host w).received + packet.length ∧
    (host (transport.sendFrame packet w)).owed =
      (host w).owed ++ [(host w).received + packet.length]
  ignores : ∀ frame w, (host w).received = size →
    (host (transport.sendFrame frame w)).owed = (host w).owed

/-- Host and stub agree on `sent` bytes, of which the stub knows `acked` to have arrived; at most
one packet is outstanding. -/
inductive InStep (sent acked : Nat) (h : Acknowledging) : (outstanding : Nat) → Prop where
  | settled (received : h.received = sent) (owed : h.owed = []) (told : acked = sent) :
    InStep sent acked h 0
  | waiting (received : h.received = sent) (owed : h.owed = [sent]) (behind : acked < sent) :
    InStep sent acked h 1

inductive Polled (sent acked : Nat) (h h' : Acknowledging) (p : RecvPoll) (before after : Nat) :
    Prop where
  | settled (found : p.Empty) (none : before = 0 ∧ after = 0) (told : acked = sent)
    (step : InStep sent acked h' 0)
  | waiting (found : p.Empty) (one : before = 1 ∧ after = 1)
    (later : h'.owed.length = h.owed.length) (sooner : h'.wait < h.wait)
    (step : InStep sent acked h' 1)
  | told (found : p = .frame (setU32ToLe sent)) (one : before = 1 ∧ after = 0)
    (fewer : h'.owed.length < h.owed.length) (step : InStep sent sent h' 0)

theorem InStep.poll {transport : TransportOps W} {size : Nat} {host : W → Acknowledging}
    (acking : AckingHost transport size host) {sent acked outstanding : Nat} {w : W}
    (step : InStep sent acked (host w) outstanding) :
    ∃ after, Polled sent acked (host w) (host (transport.recvPoll w).2)
      (transport.recvPoll w).1 outstanding after := by
  cases step with
  | settled received owed told =>
    obtain ⟨nothing, same, silent⟩ := acking.silent w owed
    exact ⟨0, .settled nothing ⟨rfl, rfl⟩ told (.settled (same.trans received) silent told)⟩
  | waiting received owed behind =>
    obtain ⟨same, ⟨nothing, kept, sooner⟩ | ⟨arrived, rest⟩⟩ := acking.acknowledges w sent [] owed
    · exact ⟨1, .waiting nothing ⟨rfl, rfl⟩ (by rw [kept, owed]) sooner
        (.waiting (same.trans received) kept behind)⟩
    · exact ⟨0, .told arrived ⟨rfl, rfl⟩ (by rw [rest, owed]; simp)
        (.settled (same.trans received) rest rfl)⟩

theorem InStep.send {transport : TransportOps W} {size : Nat} {host : W → Acknowledging}
    (acking : AckingHost transport size host) {sent acked : Nat} {w : W}
    (step : InStep sent acked (host w) 0) {packet : List UInt8} (some : packet ≠ [])
    (fits : sent + packet.length ≤ size) :
    InStep (sent + packet.length) acked (host (transport.sendFrame packet w)) 1 := by
  cases step with
  | settled received owed told =>
    obtain ⟨more, next⟩ := acking.takes packet w some (received ▸ fits)
    have length := List.length_pos_iff.mpr some
    exact .waiting (by rw [more, received]) (by rw [next, owed, received]; rfl) (by omega)

/-- What is left of a stream of which `left` bytes are still to be sent. -/
def readRank (left : Nat) (h : Acknowledging) : ℕ ×ₗ ℕ ×ₗ ℕ :=
  toLex (left, toLex (h.owed.length, h.wait))

theorem readRank_lt_of_left {left left' : Nat} (less : left' < left) (h h' : Acknowledging) :
    readRank left' h' < readRank left h :=
  Prod.Lex.toLex_lt_toLex.mpr (.inl less)

theorem readRank_lt_of_owed {h h' : Acknowledging} (fewer : h'.owed.length < h.owed.length)
    (left : Nat) : readRank left h' < readRank left h :=
  Prod.Lex.toLex_lt_toLex.mpr (.inr ⟨rfl, Prod.Lex.toLex_lt_toLex.mpr (.inl fewer)⟩)

theorem readRank_lt_of_wait {h h' : Acknowledging} (same : h'.owed.length = h.owed.length)
    (sooner : h'.wait < h.wait) (left : Nat) : readRank left h' < readRank left h :=
  Prod.Lex.toLex_lt_toLex.mpr (.inr ⟨rfl, Prod.Lex.toLex_lt_toLex.mpr (.inr ⟨same, sooner⟩)⟩)

section ReadFlash

variable (env : Platform W D H S C)

theorem host_afterPoll {size : Nat} {host : W → Acknowledging}
    (acking : AckingHost env.transport size host) {w : W}
    (right : ¬ (env.transport.recvPoll w).1.WrongSized) :
    host (afterPoll env w) = host (env.transport.recvPoll w).2 := by
  unfold afterPoll
  generalize env.transport.recvPoll w = result at right
  obtain ⟨p, w'⟩ := result
  cases p with
  | none => rfl
  | error => exact acking.keepsRelease w'
  | frame ack =>
    have size : ack.length = 4 := not_not.mp right
    simp only [size, ne_eq, not_true, if_false]
    exact acking.keepsRelease w'

structure Attended (content : W → Memory) (host : W → Acknowledging) (ctx : CmdCtx)
    (s : StubState W D S C) (polls : List RecvPoll) (l : ReadLocals H)
    (packets : List (List UInt8)) (outstanding : Nat) (t : StubState W D S C) : Prop
    extends Streams env content ctx s polls l packets t where
  counted : packets.length = ackCount polls + outstanding
  cutting : Pages.Cutting ctx.readPacketSize l.readSizeRemaining packets
  step : InStep packets.flatten.length l.ackedDataSize (host t.world) outstanding

section

variable {env} {content : W → Memory} {chip : Nat} {host : W → Acknowledging} {ctx : CmdCtx}
  {s t : StubState W D S C} {polls : List RecvPoll} {l : ReadLocals H}
  {packets : List (List UInt8)} {outstanding : Nat}
  (contract : ReadContract env content chip)
  (acking : AckingHost env.transport ctx.readSize host)

include contract acking

theorem Attended.start (hash : Incremental env.md5) (asked : (host s.world).received = 0)
    (nothing : (host s.world).owed = []) :
    Attended env content host ctx s [] (.start env ctx) [] 0 (s.released env) where
  toStreams := .start env contract hash ctx s
  counted := rfl
  cutting := .nil _ _
  step := by
    have same : host (s.released env).world = host s.world := acking.keepsRelease s.world
    rw [← same] at asked nothing
    exact .settled asked nothing rfl

/-- A poll leaves them in step, and either nothing is outstanding or the rank is lower. -/
theorem Attended.poll (h : Attended env content host ctx s polls l packets outstanding t) :
    ¬ (pollOf env t).WrongSized ∧ ∃ after,
      Attended env content host ctx s (polls ++ [pollOf env t]) (l.acked (pollOf env t)) packets
        after (t.polled env) ∧
      (outstanding = 0 ∧ after = 0 ∧ l.ackedDataSize = packets.flatten.length ∨
        readRank l.readSizeRemaining (host (t.polled env).world) <
          readRank l.readSizeRemaining (host t.world)) := by
  obtain ⟨after, found⟩ := h.step.poll acking
  have counted := h.counted
  have bytes := h.bytes
  have left := (l.acked_readSizeRemaining (pollOf env t)).symm
  have bound : ctx.readSize < 2 ^ 32 := getLeToU32_lt _ _
  have right : ¬ (pollOf env t).WrongSized := by
    change ¬ (env.transport.recvPoll t.world).1.WrongSized
    cases found with
    | settled found | waiting found => exact found.right
    | told found =>
      rw [found]
      exact fun wrong => wrong rfl
  have streams := h.toStreams.poll env contract right
  have seen : host (t.polled env).world = host (env.transport.recvPoll t.world).2 :=
    host_afterPoll env acking right
  rw [seen]
  cases found with
  | settled found none told step =>
    have polled : (pollOf env t).Empty := found
    refine ⟨right, after, ⟨streams, ?_, left ▸ h.cutting, ?_⟩, .inl ⟨none.1, none.2, told⟩⟩
    · rw [polled.ackCount_snoc, none.2, counted, none.1]
    · rw [polled.acked, none.2, seen]
      exact step
  | waiting found one later sooner step =>
    have polled : (pollOf env t).Empty := found
    refine ⟨right, after, ⟨streams, ?_, left ▸ h.cutting, ?_⟩,
      .inr (readRank_lt_of_wait later sooner _)⟩
    · rw [polled.ackCount_snoc, one.2, counted, one.1]
    · rw [polled.acked, one.2, seen]
      exact step
  | told found one fewer step =>
    have polled : pollOf env t = .frame (setU32ToLe packets.flatten.length) := found
    refine ⟨right, after, ⟨streams, ?_, left ▸ h.cutting, ?_⟩, .inr (readRank_lt_of_owed fewer _)⟩
    · rw [ackCount_snoc, polled, one.2, counted, one.1]
      rfl
    · have told : getLeToU32 (Memory.ofList (setU32ToLe packets.flatten.length)) 0 =
          packets.flatten.length := by
        have small : packets.flatten.length < 2 ^ 32 := by omega
        simpa using getLeToU32_setU32ToLe [] [] small
      rw [polled, one.2, seen, ReadLocals.acked, told]
      exact step

theorem Attended.packet (hash : Incremental env.md5)
    (keepsRead : ∀ addr size w, host (env.lib.flashReadBuff addr size w).2 = host w)
    (h : Attended env content host ctx s polls l packets 0 t)
    (nonzero : 0 < ctx.readPacketSize) (small : ctx.readPacketSize ≤ 4096)
    (fits : ctx.readOffset + ctx.readSize ≤ chip) (sends : l.Sends) :
    ∃ data, (l.read env ctx.readPacketSize t.world).1 = some data ∧
      Attended env content host ctx s polls
        (l.afterPacket env (l.packet env ctx.readPacketSize data))
        (packets ++ [l.packet env ctx.readPacketSize data]) 1
        ((t.readFor env ctx.readPacketSize l).afterSend env
          (l.packet env ctx.readPacketSize data)) ∧
      (l.afterPacket env (l.packet env ctx.readPacketSize data)).readSizeRemaining <
        l.readSizeRemaining := by
  obtain ⟨data, good, streams⟩ :=
    h.toStreams.packet env contract hash nonzero small fits sends
  have before := h.bytes
  have after := streams.bytes
  have whole : (packets ++ [l.packet env ctx.readPacketSize data]).flatten.length =
      packets.flatten.length + (l.packet env ctx.readPacketSize data).length := by
    simp
  have some : l.packet env ctx.readPacketSize data ≠ [] := streams.some _ (by simp)
  have length := List.length_pos_iff.mpr some
  refine ⟨data, good, ⟨streams, ?_, ?_, ?_⟩, by omega⟩
  · rw [List.length_append, h.counted, List.length_singleton, Nat.add_zero]
  · have next := h.cutting.snoc nonzero sends.1 (ReadLocals.length_packet env _ l data)
    have rest : l.readSizeRemaining - (l.packet env ctx.readPacketSize data).length =
        (l.afterPacket env (l.packet env ctx.readPacketSize data)).readSizeRemaining := by omega
    exact rest ▸ next
  · have step := h.step
    rw [← keepsRead (env.lib.alignDown l.offset 4) (l.alignedSize env ctx.readPacketSize)] at step
    rw [whole]
    exact step.send acking some (by omega)

theorem exists_readFlashStep (hash : Incremental env.md5)
    (keepsRead : ∀ addr size w, host (env.lib.flashReadBuff addr size w).2 = host w)
    (nonzero : 0 < ctx.readPacketSize) (small : ctx.readPacketSize ≤ 4096)
    (fits : ctx.readOffset + ctx.readSize ≤ chip)
    (h : Attended env content host ctx s polls l packets outstanding t) :
    ∃ r u, (readFlashStep env ctx.readSize ctx.readPacketSize l).Returns t r u ∧
      r.elim (fun l' => (∃ polls packets outstanding,
          Attended env content host ctx s polls l' packets outstanding u) ∧
          readRank l'.readSizeRemaining (host u.world) <
            readRank l.readSizeRemaining (host t.world))
        fun e => e = .ok l.md5Ctx ∧ l.readSizeRemaining = 0 ∧ outstanding = 0 ∧ u = t := by
  have bound : ctx.readSize < 2 ^ 32 := getLeToU32_lt _ _
  obtain ⟨r, u, run⟩ := (straight_readFlashStep env ctx.readSize ctx.readPacketSize l).ends t
  refine ⟨r, u, run, ?_⟩
  obtain ⟨right, after, polled, lower⟩ := h.poll contract acking
  have bytes := h.bytes
  cases returns_readFlashStep env run with
  | finished ended =>
    obtain ⟨sent, told⟩ := not_or.mp ended
    refine ⟨rfl, by omega, ?_, rfl⟩
    cases h.step with
    | settled => rfl
    | waiting received owed behind => omega
  | broken more wrong => exact absurd wrong right
  | waits more _ idle =>
    refine ⟨⟨_, _, _, polled⟩, ?_⟩
    obtain ⟨-, rfl, told⟩ | lower := lower
    · have left : 0 < l.readSizeRemaining := by
        unfold ReadLocals.Active at more
        omega
      exact absurd (polled.sends bound (by simpa using left) polled.counted) idle
    · simpa using lower
  | fails more _ sends failed =>
    obtain ⟨data, good, -⟩ :=
      polled.toStreams.packet env contract hash nonzero small fits sends
    exact absurd (failed.symm.trans good) (Option.some_ne_none data).symm
  | @packet more _ sends data good =>
    have settled : after = 0 := by
      have even := polled.acknowledged bound sends
      have counted := polled.counted
      omega
    subst settled
    obtain ⟨data', good', next, less⟩ :=
      polled.packet contract acking hash keepsRead nonzero small fits sends
    obtain rfl := Option.some.inj (good.symm.trans good')
    rw [ReadLocals.acked_readSizeRemaining] at less
    exact ⟨⟨_, _, _, next⟩, readRank_lt_of_left less _ _⟩

theorem exists_readFlashPostProcess (hash : Incremental env.md5)
    (keepsRead : ∀ addr size w, host (env.lib.flashReadBuff addr size w).2 = host w)
    (nonzero : 0 < ctx.readPacketSize) (small : ctx.readPacketSize ≤ 4096)
    (fits : ctx.readOffset + ctx.readSize ≤ chip)
    (asked : (host s.world).received = 0) (nothing : (host s.world).owed = []) :
    ∃ t, (readFlashPostProcess env ctx).Returns s responseSuccess t ∧
      t.sent = s.sent ++
        Pages.cut ctx.readPacketSize ((content s.world).read ctx.readOffset ctx.readSize) ++
        [env.md5.final (env.md5.update env.md5.init
          ((content s.world).read ctx.readOffset ctx.readSize))] ∧
      (host t.world).owed = [] := by
  have step (l : ReadLocals H) (t : StubState W D S C) : (∃ polls packets outstanding,
      Attended env content host ctx s polls l packets outstanding t) →
      ∃ r u, (readFlashStep env ctx.readSize ctx.readPacketSize l).Returns t r u ∧
        r.elim (fun l' => (∃ polls packets outstanding,
            Attended env content host ctx s polls l' packets outstanding u) ∧
          readRank l'.readSizeRemaining (host u.world) <
            readRank l.readSizeRemaining (host t.world))
          fun e => ∃ polls packets l, Attended env content host ctx s polls l packets 0 u ∧
            e = .ok l.md5Ctx ∧ l.readSizeRemaining = 0 := by
    rintro ⟨polls, packets, outstanding, h⟩
    obtain ⟨r, u, run, next⟩ :=
      exists_readFlashStep contract acking hash keepsRead nonzero small fits h
    refine ⟨r, u, run, ?_⟩
    cases r with
    | inl l' => exact next
    | inr e =>
      obtain ⟨digest, left, rfl, rfl⟩ := next
      exact ⟨polls, packets, l, h, digest, left⟩
  obtain ⟨e, u, loop, polls, packets, l, attended, rfl, sent⟩ :=
    Prog.exists_returns_loop _ (fun (l : ReadLocals H) (t : StubState W D S C) =>
      readRank l.readSizeRemaining (host t.world)) step
      ⟨[], [], 0, .start contract acking hash asked nothing⟩
  have bytes := attended.bytes
  have region : packets.flatten = (content s.world).read ctx.readOffset ctx.readSize := by
    rw [attended.data]
    congr 1
    omega
  have cut := attended.cutting.eq_cut
  refine ⟨u.afterSend env (env.md5.final l.md5Ctx), ?_, ?_, ?_⟩
  · unfold readFlashPostProcess
    have inRange : ¬ readBufferSize - 6 < getLeToU32 ctx.mem (ctx.data + 8) := not_lt.mpr small
    simp only [inRange, if_false]
    rw [Stub.device, Prog.returns_modify_bind, Prog.returns_bind]
    refine ⟨_, u, loop, ?_⟩
    exact (Prog.returns_modify_bind _ _ _ _ _).mpr ((Prog.returns_pure _ _ _ _).mpr ⟨rfl, rfl⟩)
  · change u.sent ++ [_] = _
    rw [region] at cut
    rw [attended.sent, attended.digest, region, ← cut]
  · cases attended.step with
    | settled received owed told =>
      refine (acking.ignores _ u.world ?_).trans owed
      omega

end

theorem exists_readFlashAnswered {f : Frame} (ok : f.HeaderOk)
    (opcode : Opcode.ofByte f.ctx.command = .readFlash) (size : f.ctx.packetSize = readFlashSize)
    {s : StubState W D S C} (clear : s.accumulatedResult = responseSuccess) {response : List UInt8}
    (sends : response = responseFrame f.ctx.command responseSuccess (some {})) :
    ∃ v : StubState W D S C, v.world = env.transport.sendFrame response s.world ∧
      v.sent = s.sent ++ [response] ∧ ∀ e t, (readFlashPostProcess env f.ctx).Returns v e t →
        (handleCommand env f.buffer f.size).Returns s () (t.afterCallback e) := by
  subst sends
  have dispatched : (dispatch env f.ctx (Opcode.ofByte f.ctx.command)).Returns s
      (responseSuccess, {}) { s with pendingPostProcess := some .readFlash } := by
    rw [opcode]
    simp [dispatch, withEmptyResponse, readFlash, size, setPendingPostProcess, Prog.returns_bind]
  obtain ⟨v, answered, pending, world, before⟩ : ∃ v : StubState W D S C,
      (answer env f.ctx).Returns s () v ∧ v.pendingPostProcess = some .readFlash ∧
      v.world = env.transport.sendFrame (responseFrame f.ctx.command responseSuccess (some {}))
        s.world ∧
      v.sent = s.sent ++ [responseFrame f.ctx.command responseSuccess (some {})] :=
    ⟨_, returns_answer env dispatched, rfl, rfl, rfl⟩
  refine ⟨v, world, before, fun e t run => ?_⟩
  rw [returns_handleCommand_execute env ok clear, execute, if_neg (by rw [opcode]; decide),
    Prog.returns_bind]
  exact ⟨(), v, answered, (returns_postProcess_some env pending _).mpr ⟨e, t, run, rfl⟩⟩

/-- READ_FLASH comes to its end with a host that acknowledges each packet, however late and with
whatever errors in between. It is
answered, the region goes out cut into packets, the digest follows, and no acknowledgement is left
behind that the main loop would take for a command. -/
theorem read_flash_completes {content : W → Memory} {chip : Nat}
    (contract : ReadContract env content chip) (hash : Incremental env.md5) {f : Frame}
    {host : W → Acknowledging} (acking : AckingHost env.transport f.ctx.readSize host)
    (keepsRead : ∀ addr size w, host (env.lib.flashReadBuff addr size w).2 = host w)
    (ok : f.HeaderOk) (opcode : Opcode.ofByte f.ctx.command = .readFlash)
    (size : f.ctx.packetSize = readFlashSize)
    (nonzero : 0 < f.ctx.readPacketSize) (small : f.ctx.readPacketSize ≤ 4096)
    (fits : f.ctx.readOffset + f.ctx.readSize ≤ chip) {s : StubState W D S C}
    (clear : s.accumulatedResult = responseSuccess) {response : List UInt8}
    (answer : response = responseFrame f.ctx.command responseSuccess (some {}))
    (asked : (host (env.transport.sendFrame response s.world)).received = 0)
    (nothing : (host (env.transport.sendFrame response s.world)).owed = []) :
    ∃ t, (handleCommand env f.buffer f.size).Returns s () t ∧
      t.sent = s.sent ++ [response] ++
        Pages.cut f.ctx.readPacketSize
          ((content s.world).read f.ctx.readOffset f.ctx.readSize) ++
        [env.md5.final (env.md5.update env.md5.init
          ((content s.world).read f.ctx.readOffset f.ctx.readSize))] ∧
      (host t.world).owed = [] ∧ t.pendingPostProcess = none ∧
      t.accumulatedResult = responseSuccess := by
  obtain ⟨v, world, before, callback⟩ := exists_readFlashAnswered env ok opcode size clear answer
  rw [← world] at asked nothing
  obtain ⟨t, run, sent, owed⟩ := exists_readFlashPostProcess contract acking hash keepsRead nonzero
    small fits asked nothing
  refine ⟨t.afterCallback responseSuccess, callback _ t run, ?_, owed, rfl, rfl⟩
  have kept : content v.world = content s.world := by rw [world, contract.keepsSend]
  rw [kept, before] at sent
  exact sent

end ReadFlash

/-- A host that reads `size` bytes and lets the stub poll `late` times for each acknowledgement;
every other one of these polls reports an error. -/
def ackTransport (size late : Nat) : TransportOps (W × Acknowledging) where
  recvPoll w :=
    match w.2.owed with
    | [] => (.none, w)
    | total :: rest =>
      if w.2.wait = 0 then (.frame (setU32ToLe total), w.1, { w.2 with owed := rest, wait := late })
      else (if w.2.wait % 2 = 0 then .error else .none, w.1, { w.2 with wait := w.2.wait - 1 })
  recvRelease w := w
  sendFrame packet w :=
    if packet ≠ [] ∧ w.2.received + packet.length ≤ size then
      (w.1, { w.2 with
        received := w.2.received + packet.length
        owed := w.2.owed ++ [w.2.received + packet.length] })
    else w

theorem ackTransport_acking (size late : Nat) :
    AckingHost (ackTransport (W := W) size late) size Prod.snd where
  silent w owed := by simp [ackTransport, owed, RecvPoll.Empty]
  acknowledges w total rest owed := by
    by_cases now : w.2.wait = 0
    · simp [ackTransport, owed, now]
    · have empty : (if w.2.wait % 2 = 0 then RecvPoll.error else RecvPoll.none).Empty := by
        split_ifs
        · exact .inr rfl
        · exact .inl rfl
      refine ⟨?_, .inl ⟨?_, ?_, ?_⟩⟩
      all_goals simp [ackTransport, owed, now, empty]
      omega
  keepsRelease _ := rfl
  takes packet w some fits := by simp [ackTransport, some, fits]
  ignores frame w done := by
    have full : ¬ (frame ≠ [] ∧ w.2.received + frame.length ≤ size) := by
      rintro ⟨some, fits⟩
      have length := List.length_pos_iff.mpr some
      omega
    simp [ackTransport, full]

def ackPlatform (size late : Nat) :
    Platform (SimWorld × Acknowledging) (List SimInflate) Unit Unit Empty where
  lib := (simLib 4096).beside
  tinfl := simTinfl []
  md5 := simMd5
  transport := ackTransport size late
  plugin := simPlugin

theorem ackPlatform_readContract (size late : Nat) :
    ReadContract (ackPlatform size late) (fun w => w.1.content) (2 ^ 32) where
  size := by decide
  alignDown _ := rfl
  alignUp a bound := by
    change (a + 3) % 2 ^ 32 / 4 * 4 = _
    rw [Nat.mod_eq_of_lt bound]
  read _ _ _ _ _ _ := rfl
  keepsRead _ _ _ := rfl
  keepsPoll w := by
    simp only [ackPlatform, ackTransport]
    split <;> [rfl; (split_ifs <;> rfl)]
  keepsRelease _ := rfl
  keepsSend frame w := by
    simp only [ackPlatform, ackTransport]
    split_ifs <;> rfl

def ackStart (content : Memory) :
    StubState (SimWorld × Acknowledging) (List SimInflate) Unit Empty :=
  startOn (⟨content⟩, ⟨0, [], 5⟩)

/-- Two packets of one byte, each acknowledged at the sixth poll, after two errors. -/
theorem read_flash_completes_two_packets :
    ∃ t, (handleCommand (ackPlatform 2 5) (readFlashFrame 1 2 1).buffer
        (readFlashFrame 1 2 1).size).Returns (ackStart (Memory.ofList [0x10, 0x11, 0x12])) () t ∧
      t.sent = [responseFrame espReadFlash responseSuccess (some {}), [0x11], [0x12],
        List.replicate 16 0] ∧ t.world.2.owed = [] := by
  obtain ⟨t, run, sent, owed, -, -⟩ := read_flash_completes (ackPlatform 2 5)
    (ackPlatform_readContract 2 5) simMd5_incremental (f := readFlashFrame 1 2 1)
    (ackTransport_acking 2 5) (fun _ _ _ => rfl) (by decide) (by decide) (by decide) (by decide)
    (by decide) (by decide) (s := ackStart (Memory.ofList [0x10, 0x11, 0x12])) rfl rfl rfl rfl
  exact ⟨t, run, sent, owed⟩

end FlasherStub
