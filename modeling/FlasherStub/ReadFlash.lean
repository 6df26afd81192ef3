import FlasherStub.HandleCommand

/-! The stream of READ_FLASH, round by round. A round takes the acknowledgement that has arrived,
if there is one, and sends the next packet if none is outstanding. -/

namespace FlasherStub

open ByteMemory Budget

variable {W D H S C : Type} (env : Platform W D H S C)

/-- A frame that has the size of an acknowledgement. -/
def RecvPoll.IsAck : RecvPoll → Prop
  | .frame bytes => bytes.length = 4
  | .none | .error => False

def RecvPoll.WrongSized : RecvPoll → Prop
  | .frame bytes => bytes.length ≠ 4
  | .none | .error => False

instance (p : RecvPoll) : Decidable p.IsAck := by
  unfold RecvPoll.IsAck
  split <;> infer_instance

instance (p : RecvPoll) : Decidable p.WrongSized := by
  unfold RecvPoll.WrongSized
  split <;> infer_instance

/-- How many of the polls gave an acknowledgement. -/
def ackCount (polls : List RecvPoll) : Nat := polls.countP (·.IsAck)

theorem ackCount_snoc (polls : List RecvPoll) (p : RecvPoll) :
    ackCount (polls ++ [p]) = ackCount polls + if p.IsAck then 1 else 0 := by
  simp [ackCount, List.countP_append, List.countP_singleton]

def pollOf (s : StubState W D S C) : RecvPoll := (env.transport.recvPoll s.world).1

/-- The device after a poll; a frame of the wrong size is not released. -/
def afterPoll (w : W) : W :=
  let (polled, world) := env.transport.recvPoll w
  match polled with
  | .none => world
  | .error => env.transport.recvRelease world
  | .frame ack => if ack.length ≠ 4 then world else env.transport.recvRelease world

def StubState.polled (s : StubState W D S C) : StubState W D S C :=
  { s with world := afterPoll env s.world }

namespace ReadLocals

def acked (l : ReadLocals H) (p : RecvPoll) : ReadLocals H :=
  match p with
  | .frame ack => { l with
      ackedDataSize := getLeToU32 (Memory.ofList ack) 0
      ackedPackets := (l.ackedPackets + 1) % 2 ^ 32 }
  | .none | .error => l

@[simp] theorem acked_sentPackets (l : ReadLocals H) (p : RecvPoll) :
    (l.acked p).sentPackets = l.sentPackets := by
  cases p <;> rfl

@[simp] theorem acked_readSizeRemaining (l : ReadLocals H) (p : RecvPoll) :
    (l.acked p).readSizeRemaining = l.readSizeRemaining := by
  cases p <;> rfl

@[simp] theorem acked_offset (l : ReadLocals H) (p : RecvPoll) : (l.acked p).offset = l.offset := by
  cases p <;> rfl

@[simp] theorem acked_md5Ctx (l : ReadLocals H) (p : RecvPoll) : (l.acked p).md5Ctx = l.md5Ctx := by
  cases p <;> rfl

def packetLength (packetSize : Nat) (l : ReadLocals H) : Nat := min l.readSizeRemaining packetSize

def alignOffset (l : ReadLocals H) : Nat := sub32 l.offset (env.lib.alignDown l.offset 4)

def alignedSize (packetSize : Nat) (l : ReadLocals H) : Nat :=
  env.lib.alignUp ((l.packetLength packetSize + l.alignOffset env) % 2 ^ 32) 4

def read (packetSize : Nat) (l : ReadLocals H) (w : W) : Option (List UInt8) × W :=
  env.lib.flashReadBuff (env.lib.alignDown l.offset 4) (l.alignedSize env packetSize) w

def packet (packetSize : Nat) (l : ReadLocals H) (data : List UInt8) : List UInt8 :=
  (Memory.ofList data).read (l.alignOffset env) (l.packetLength packetSize)

@[simp] theorem length_packet (packetSize : Nat) (l : ReadLocals H) (data : List UInt8) :
    (l.packet env packetSize data).length = l.packetLength packetSize := Memory.length_read _ _ _

def afterPacket (l : ReadLocals H) (packet : List UInt8) : ReadLocals H :=
  { l with
    offset := (l.offset + packet.length) % 2 ^ 32
    readSizeRemaining := sub32 l.readSizeRemaining packet.length
    sentPackets := (l.sentPackets + 1) % 2 ^ 32
    md5Ctx := env.md5.update l.md5Ctx packet }

def Active (readSize : Nat) (l : ReadLocals H) : Prop :=
  0 < l.readSizeRemaining ∨ l.ackedDataSize < readSize

def Sends (l : ReadLocals H) : Prop :=
  0 < l.readSizeRemaining ∧ sub32 l.sentPackets l.ackedPackets < maxUnackedPackets

instance (l : ReadLocals H) : Decidable l.Sends := inferInstanceAs (Decidable (_ ∧ _))

end ReadLocals

theorem returns_pollAck {l : ReadLocals H} {s t : StubState W D S C} {r : Option (ReadLocals H)}
    (run : (pollAck env l).Returns s r t) :
    r = (if (pollOf env s).WrongSized then none else some (l.acked (pollOf env s))) ∧
      t = s.polled env := by
  simp only [pollAck, recvPoll, Prog.returns_act_bind] at run
  unfold StubState.polled afterPoll pollOf
  cases polled : (env.transport.recvPoll s.world).1 with
  | none =>
    simp only [polled, Prog.returns_pure] at run
    simpa [RecvPoll.WrongSized, ReadLocals.acked, polled] using run
  | error =>
    simp only [polled, Stub.device, Prog.returns_modify_bind, Prog.returns_pure] at run
    simpa [RecvPoll.WrongSized, ReadLocals.acked, polled] using run
  | frame ack =>
    by_cases size : ack.length = 4
    · simp only [polled, size, ne_eq, not_true, if_false, Stub.device, Prog.returns_modify_bind,
        Prog.returns_pure] at run
      simpa [RecvPoll.WrongSized, ReadLocals.acked, polled, size] using run
    · simp only [polled, ne_eq, size, not_false_eq_true, if_true, Prog.returns_pure] at run
      simpa [RecvPoll.WrongSized, ReadLocals.acked, polled, size] using run

def StubState.readFor (s : StubState W D S C) (packetSize : Nat) (l : ReadLocals H) :
    StubState W D S C :=
  { s with
    world := (l.read env packetSize s.world).2
    trace := s.trace ++ [.read (env.lib.alignDown l.offset 4) (l.alignedSize env packetSize)
      (l.read env packetSize s.world).1] }

theorem returns_sendReadPacket {packetSize : Nat} {l : ReadLocals H} {s t : StubState W D S C}
    {r : Option (ReadLocals H)} (run : (sendReadPacket env packetSize l).Returns s r t) :
    ((l.read env packetSize s.world).1 = none ∧ r = none ∧ t = s.readFor env packetSize l) ∨
      ∃ data, (l.read env packetSize s.world).1 = some data ∧
        r = some (l.afterPacket env (l.packet env packetSize data)) ∧
        t = (s.readFor env packetSize l).afterSend env (l.packet env packetSize data) := by
  rw [sendReadPacket, Stub.flashReadBuff, Prog.returns_act_bind] at run
  have unfolded : env.lib.flashReadBuff (env.lib.alignDown l.offset 4)
      (env.lib.alignUp ((min l.readSizeRemaining packetSize +
        sub32 l.offset (env.lib.alignDown l.offset 4)) % 2 ^ 32) 4) s.world =
        l.read env packetSize s.world := rfl
  rw [unfolded] at run
  cases result : (l.read env packetSize s.world).1 with
  | none =>
    simp only [result, Prog.returns_pure] at run
    refine .inl ⟨rfl, run.1, ?_⟩
    rw [run.2, StubState.readFor, result]
    rfl
  | some data =>
    simp only [result, Stub.sendFrame, Prog.returns_modify_bind, Prog.returns_pure] at run
    refine .inr ⟨data, rfl, ?_, ?_⟩
    · rw [run.1, ReadLocals.afterPacket, ReadLocals.length_packet]
      rfl
    · rw [run.2, StubState.readFor, result]
      rfl

/-- What a round of the loop does. -/
inductive ReadRound (readSize packetSize : Nat) (l : ReadLocals H) (s : StubState W D S C) :
    ReadLocals H ⊕ Except Int H → StubState W D S C → Prop where
  | finished (ended : ¬ l.Active readSize) : ReadRound readSize packetSize l s (.inr (.ok l.md5Ctx)) s
  | broken (more : l.Active readSize) (wrong : (pollOf env s).WrongSized) :
      ReadRound readSize packetSize l s (.inr (.ok l.md5Ctx)) (s.polled env)
  | waits (more : l.Active readSize) (right : ¬ (pollOf env s).WrongSized)
      (idle : ¬ (l.acked (pollOf env s)).Sends) :
      ReadRound readSize packetSize l s (.inl (l.acked (pollOf env s))) (s.polled env)
  | fails (more : l.Active readSize) (right : ¬ (pollOf env s).WrongSized)
      (sends : (l.acked (pollOf env s)).Sends)
      (failed : ((l.acked (pollOf env s)).read env packetSize (s.polled env).world).1 = none) :
      ReadRound readSize packetSize l s (.inr (.error responseFailedSpiOp))
        ((s.polled env).readFor env packetSize (l.acked (pollOf env s)))
  | packet (more : l.Active readSize) (right : ¬ (pollOf env s).WrongSized)
      (sends : (l.acked (pollOf env s)).Sends) {data : List UInt8}
      (good : ((l.acked (pollOf env s)).read env packetSize (s.polled env).world).1 = some data) :
      ReadRound readSize packetSize l s
        (.inl ((l.acked (pollOf env s)).afterPacket env
          ((l.acked (pollOf env s)).packet env packetSize data)))
        (((s.polled env).readFor env packetSize (l.acked (pollOf env s))).afterSend env
          ((l.acked (pollOf env s)).packet env packetSize data))

theorem returns_readFlashStep {readSize packetSize : Nat} {l : ReadLocals H}
    {s t : StubState W D S C} {r : ReadLocals H ⊕ Except Int H}
    (run : (readFlashStep env readSize packetSize l).Returns s r t) :
    ReadRound env readSize packetSize l s r t := by
  unfold readFlashStep at run
  split_ifs at run with more
  · rw [Prog.returns_bind] at run
    obtain ⟨polled, u, poll, run⟩ := run
    obtain ⟨rfl, rfl⟩ := returns_pollAck env poll
    by_cases wrong : (pollOf env s).WrongSized
    · rw [if_pos wrong] at run
      obtain ⟨rfl, rfl⟩ := (Prog.returns_pure _ _ _ _).mp run
      exact .broken more wrong
    · rw [if_neg wrong] at run
      change (if (l.acked (pollOf env s)).Sends then _ else _ : Stub W D S C _).Returns _ _ _ at run
      by_cases sends : (l.acked (pollOf env s)).Sends
      · rw [if_pos sends, Prog.returns_bind] at run
        obtain ⟨sent, v, send, run⟩ := run
        obtain ⟨failed, rfl, rfl⟩ | ⟨data, good, rfl, rfl⟩ := returns_sendReadPacket env send
        · obtain ⟨rfl, rfl⟩ := (Prog.returns_pure _ _ _ _).mp run
          exact .fails more wrong sends failed
        · obtain ⟨rfl, rfl⟩ := (Prog.returns_pure _ _ _ _).mp run
          exact .packet more wrong sends good
      · rw [if_neg sends] at run
        obtain ⟨rfl, rfl⟩ := (Prog.returns_pure _ _ _ _).mp run
        exact .waits more wrong sends
  · obtain ⟨rfl, rfl⟩ := (Prog.returns_pure _ _ _ _).mp run
    exact .finished more

theorem straight_readFlashStep (readSize packetSize : Nat) (l : ReadLocals H) :
    (readFlashStep env readSize packetSize l : Stub W D S C _).Straight := by
  refine Prog.straight_ite ?_ (Prog.straight_pure _)
  refine Prog.Straight.bind ?_ fun r => ?_
  · refine (Prog.straight_act _).bind fun p => ?_
    cases p with
    | none => exact Prog.straight_pure _
    | error => exact (Prog.straight_modify _).bind fun _ => Prog.straight_pure _
    | frame ack =>
      exact Prog.straight_ite (Prog.straight_pure _)
        ((Prog.straight_modify _).bind fun _ => Prog.straight_pure _)
  · cases r with
    | none => exact Prog.straight_pure _
    | some l =>
      refine Prog.straight_ite ?_ (Prog.straight_pure _)
      refine Prog.Straight.bind ?_ fun r => ?_
      · refine (Prog.straight_act _).bind fun data => ?_
        cases data with
        | none => exact Prog.straight_pure _
        | some data => exact (Prog.straight_modify _).bind fun _ => Prog.straight_pure _
      · cases r <;> exact Prog.straight_pure _

/-! The request, and the heads of its loop. -/

def CmdCtx.readOffset (ctx : CmdCtx) : Nat := getLeToU32 ctx.mem ctx.data

def CmdCtx.readSize (ctx : CmdCtx) : Nat := getLeToU32 ctx.mem (ctx.data + 4)

def CmdCtx.readPacketSize (ctx : CmdCtx) : Nat := getLeToU32 ctx.mem (ctx.data + 8)

def StubState.released (s : StubState W D S C) : StubState W D S C :=
  { s with world := env.transport.recvRelease s.world }

def ReadLocals.start (ctx : CmdCtx) : ReadLocals H where
  offset := ctx.readOffset
  readSizeRemaining := ctx.readSize
  sentPackets := 0
  ackedDataSize := 0
  ackedPackets := 0
  md5Ctx := env.md5.init

/-- The callback, started in `s`, stands at the head of its loop with `l` and in `t`; `polls` is
what it has polled. -/
def ReadHead (ctx : CmdCtx) (s : StubState W D S C) (polls : List RecvPoll) (l : ReadLocals H)
    (t : StubState W D S C) : Prop :=
  ctx.readPacketSize ≤ readBufferSize - 6 ∧
    Prog.Iterates (readFlashStep env ctx.readSize ctx.readPacketSize) (fun _ => pollOf env)
      (.start env ctx) (s.released env) polls l t

/-- Where the callback can be cut off is at the heads of its loop. -/
theorem visits_readFlashPostProcess {ctx : CmdCtx} {s t : StubState W D S C} :
    (readFlashPostProcess env ctx).Visits s t ↔ ∃ polls l, ReadHead env ctx s polls l t := by
  unfold readFlashPostProcess
  change (if readBufferSize - 6 < ctx.readPacketSize then _ else _ : Stub W D S C Int).Visits
    _ _ ↔ _
  split_ifs with large
  · refine iff_of_false (Prog.not_visits_act _ _ _) ?_
    rintro ⟨polls, l, small, -⟩
    exact absurd large (not_lt.mpr small)
  rw [Stub.device, Prog.visits_modify_bind]
  refine (Prog.visits_bind_straight fun r => ?_).trans
    ((Prog.visits_loop_iterates fun _ => pollOf env).trans ?_)
  · cases r with
    | error code => exact Prog.straight_pure _
    | ok h => exact (Prog.straight_modify _).bind fun _ => Prog.straight_pure _
  constructor
  · rintro ⟨polls, l, v, heads, rfl | inside⟩
    · exact ⟨polls, l, not_lt.mp large, heads⟩
    · exact absurd inside ((straight_readFlashStep env _ _ l).not_visits v t)
  · rintro ⟨polls, l, -, heads⟩
    exact ⟨polls, l, t, heads, .inl rfl⟩

theorem returns_readFlashPostProcess {ctx : CmdCtx} {s t : StubState W D S C} {e : Int}
    (run : (readFlashPostProcess env ctx).Returns s e t) :
    (readBufferSize - 6 < ctx.readPacketSize ∧ e = responseBadDataLen ∧ t = s) ∨
      ∃ polls l u v r, ReadHead env ctx s polls l u ∧
        ReadRound env ctx.readSize ctx.readPacketSize l u (.inr r) v ∧
        match r with
        | .error code => e = code ∧ t = v
        | .ok h => e = responseSuccess ∧ t = v.afterSend env (env.md5.final h) := by
  unfold readFlashPostProcess at run
  change (if readBufferSize - 6 < ctx.readPacketSize then _ else _ : Stub W D S C Int).Returns
    _ _ _ at run
  split_ifs at run with large
  · exact .inl ⟨large, (Prog.returns_pure _ _ _ _).mp run⟩
  · rw [Stub.device, Prog.returns_modify_bind, Prog.returns_bind] at run
    obtain ⟨r, v, loop, run⟩ := run
    obtain ⟨polls, l, u, heads, last⟩ := (Prog.returns_loop_iterates fun _ => pollOf env).mp loop
    refine .inr ⟨polls, l, u, v, r, ⟨not_lt.mp large, heads⟩, returns_readFlashStep env last, ?_⟩
    cases r with
    | error code => exact (Prog.returns_pure _ _ _ _).mp run
    | ok h =>
      simp only [Stub.sendFrame, Prog.returns_modify_bind, Prog.returns_pure] at run
      exact run

end FlasherStub
