import FlasherStub.NandContent
import FlasherStub.ReadStream

/-! The read stream of the NAND plugin. Packets straddle pages; after a page that cannot be read the
stream goes on with zeros and ends in a digest that no host accepts. -/

namespace FlasherStub

open ByteMemory Budget

variable {W H : Type} (driver : NandDriver W) (md5 : Md5 H) (transport : TransportOps W)

/-- A NAND chip with the given content; a page read either fails or gives the page. -/
structure NandReadContract (content : W → Memory) : Prop where
  read : ∀ page w bytes, (driver.readPage page nandPageSize w).1 = some bytes →
    bytes = (content w).read (page * nandPageSize) nandPageSize
  keepsRead : ∀ page w, content (driver.readPage page nandPageSize w).2 = content w
  keepsPoll : ∀ w, content (transport.recvPoll w).2 = content w
  keepsRelease : ∀ w, content (transport.recvRelease w) = content w
  keepsSend : ∀ frame w, content (transport.sendFrame frame w) = content w

/-- The page can be read at some loop head that a run of `p` from `s` passes. -/
def NandDriver.Reads {α : Type} (p : NandIo W α) (s : PluginIo W NandState) (page : Nat) : Prop :=
  ∃ t, p.Visits s t ∧ (driver.readPage page nandPageSize t.world).1 ≠ none

/-- The page cannot be read at some loop head that a run of `p` from `s` passes. -/
def NandDriver.Loses {α : Type} (p : NandIo W α) (s : PluginIo W NandState) (page : Nat) : Prop :=
  ∃ t, p.Visits s t ∧ (driver.readPage page nandPageSize t.world).1 = none

section Within

variable {α β : Type} {driver} {p : NandIo W α} {q : NandIo W β} {s t : PluginIo W NandState}
  (within : ∀ u, p.Visits s u → q.Visits t u)

include within

theorem NandDriver.Reads.of_within {page : Nat} (h : driver.Reads p s page) :
    driver.Reads q t page := by
  obtain ⟨u, here, good⟩ := h
  exact ⟨u, within u here, good⟩

theorem NandDriver.Loses.of_within {page : Nat} (h : driver.Loses p s page) :
    driver.Loses q t page := by
  obtain ⟨u, here, failed⟩ := h
  exact ⟨u, within u here, failed⟩

end Within

def pageRead (l : NandFill) (s : PluginIo W NandState) : Option (List UInt8) :=
  (driver.readPage (l.currentOffset / nandPageSize) nandPageSize s.world).1

/-- `reads` are the page reads of one call of `nand_fill_send_buf` that ends with `r` in `t`. -/
def FillReads (offset size : Nat) (s : PluginIo W NandState) (reads : List (Option (List UInt8)))
    (r : Option (List UInt8) × Nat) (t : PluginIo W NandState) : Prop :=
  ∃ done l u, Prog.Iterates (nandFillStep driver size) (pageRead driver)
      { filled := [], currentOffset := offset } s done l u ∧
    (nandFillStep driver size l).Returns u (.inr r) t ∧
    reads = done ++ if l.filled.length < size then [pageRead driver l u] else []

theorem returns_nandFillSendBuf {offset size : Nat} {s t : PluginIo W NandState}
    {r : Option (List UInt8) × Nat} (run : (nandFillSendBuf driver offset size).Returns s r t) :
    ∃ reads, FillReads driver offset size s reads r t := by
  obtain ⟨done, l, u, heads, last⟩ := (Prog.returns_loop_iterates (pageRead driver)).mp run
  exact ⟨_, done, l, u, heads, last, rfl⟩

theorem FillReads.returns {offset size : Nat} {s t : PluginIo W NandState}
    {reads : List (Option (List UInt8))} {r : Option (List UInt8) × Nat}
    (h : FillReads driver offset size s reads r t) :
    (nandFillSendBuf driver offset size).Returns s r t := by
  obtain ⟨done, l, u, heads, last, -⟩ := h
  exact (Prog.returns_loop_iterates _).mpr ⟨done, l, u, heads, last⟩

def PluginIo.afterRead (s : PluginIo W NandState) (l : NandFill) : PluginIo W NandState :=
  { s with world := (driver.readPage (l.currentOffset / nandPageSize) nandPageSize s.world).2 }

def NandFill.chunk (size : Nat) (l : NandFill) : Nat :=
  min (nandPageSize - l.currentOffset % nandPageSize) (size - l.filled.length)

def NandFill.append (size : Nat) (l : NandFill) (page : List UInt8) : NandFill where
  filled := l.filled ++
    (Memory.ofList page).read (l.currentOffset % nandPageSize) (l.chunk size)
  currentOffset := (l.currentOffset + l.chunk size) % 2 ^ 32

theorem returns_nandFillStep {size : Nat} {l : NandFill} {s t : PluginIo W NandState}
    {r : NandFill ⊕ (Option (List UInt8) × Nat)}
    (run : (nandFillStep driver size l).Returns s r t) :
    (size ≤ l.filled.length ∧ r = .inr (some l.filled, l.currentOffset) ∧ t = s) ∨
      l.filled.length < size ∧
        ((pageRead driver l s = none ∧ r = .inr (none, l.currentOffset) ∧
            t = s.afterRead driver l) ∨
          ∃ page, pageRead driver l s = some page ∧ r = .inl (l.append size page) ∧
            t = s.afterRead driver l) := by
  unfold nandFillStep at run
  split_ifs at run with more
  · refine .inr ⟨more, ?_⟩
    simp only [Prog.returns_act_bind] at run
    cases result : pageRead driver l s with
    | none =>
      have read : (driver.readPage (l.currentOffset / nandPageSize) nandPageSize s.world).1 = none :=
        result
      simp only [read] at run
      exact .inl ⟨rfl, (Prog.returns_pure _ _ _ _).mp run⟩
    | some page =>
      have read : (driver.readPage (l.currentOffset / nandPageSize) nandPageSize s.world).1 =
        some page := result
      simp only [read] at run
      exact .inr ⟨page, rfl, (Prog.returns_pure _ _ _ _).mp run⟩
  · exact .inl ⟨not_lt.mp more, (Prog.returns_pure _ _ _ _).mp run⟩

structure Filling (content : W → Memory) (offset size : Nat) (s : PluginIo W NandState)
    (reads : List (Option (List UInt8))) (l : NandFill) (t : PluginIo W NandState) : Prop where
  quiet : t.statics = s.statics ∧ t.sent = s.sent
  kept : content t.world = content s.world
  good : none ∉ reads
  pages : ∀ a < l.filled.length,
    driver.Reads (nandFillSendBuf driver offset size) s ((offset + a) / nandPageSize)
  short : l.filled.length ≤ size
  filled : l.filled = (content s.world).read offset l.filled.length
  position : l.currentOffset = (offset + l.filled.length) % 2 ^ 32

section Fill

variable {driver transport} {content : W → Memory}

theorem Filling.append (contract : NandReadContract driver transport content)
    {offset size : Nat} {s t : PluginIo W NandState} {reads : List (Option (List UInt8))}
    {l : NandFill} (h : Filling driver content offset size s reads l t)
    (here : (nandFillSendBuf driver offset size).Visits s t) (bound : offset + size < 2 ^ 32)
    (more : l.filled.length < size) {page : List UInt8} (good : pageRead driver l t = some page) :
    Filling driver content offset size s (reads ++ [pageRead driver l t]) (l.append size page)
      (t.afterRead driver l) := by
  have position : l.currentOffset = offset + l.filled.length := by
    rw [h.position, Nat.mod_eq_of_lt (by omega)]
  have inside : l.currentOffset % nandPageSize + l.chunk size ≤ nandPageSize := by
    have := Nat.mod_lt l.currentOffset (show 0 < nandPageSize by decide)
    unfold NandFill.chunk
    omega
  have stored : (Memory.ofList page).read (l.currentOffset % nandPageSize) (l.chunk size) =
      (content s.world).read (offset + l.filled.length) (l.chunk size) := by
    rw [contract.read _ _ _ good, Memory.read_ofList_read _ inside, h.kept, Nat.div_add_mod',
      position]
  have length : (l.append size page).filled.length = l.filled.length + l.chunk size := by
    rw [NandFill.append, List.length_append, Memory.length_read]
  refine ⟨h.quiet, (contract.keepsRead _ _).trans h.kept, ?_, fun a within => ?_, ?_, ?_, ?_⟩
  · rw [good]
    simpa using h.good
  · rw [length] at within
    by_cases before : a < l.filled.length
    · exact h.pages a before
    -- the new bytes are all on the page that was read
    have page : (offset + a) / nandPageSize = l.currentOffset / nandPageSize := by
      rw [position] at inside ⊢
      change _ % 2048 + _ ≤ 2048 at inside
      change _ / 2048 = _ / 2048
      omega
    rw [page]
    exact ⟨t, here, ne_of_eq_of_ne good (Option.some_ne_none _)⟩
  · rw [length, NandFill.chunk]
    omega
  · rw [length, Memory.read_add, ← h.filled, ← stored]
    rfl
  · rw [length, ← Nat.add_assoc, ← position]
    rfl

/-- What a fill gives: the bytes at the offset, or nothing after a failed read of a page with one of
them. -/
theorem FillReads.outcome (contract : NandReadContract driver transport content)
    {offset size : Nat} {s t : PluginIo W NandState} {reads : List (Option (List UInt8))}
    {r : Option (List UInt8) × Nat} (h : FillReads driver offset size s reads r t)
    (bound : offset + size < 2 ^ 32) :
    (t.statics = s.statics ∧ t.sent = s.sent ∧ content t.world = content s.world) ∧
      ((none ∉ reads ∧ r = (some ((content s.world).read offset size), (offset + size) % 2 ^ 32) ∧
          ∀ a < size,
            driver.Reads (nandFillSendBuf driver offset size) s ((offset + a) / nandPageSize)) ∨
        (none ∈ reads ∧ r.1 = none ∧ ∃ a < size,
          driver.Loses (nandFillSendBuf driver offset size) s ((offset + a) / nandPageSize))) := by
  obtain ⟨done, l, u, heads, last, rfl⟩ := h
  have filling : Filling driver content offset size s done l u := by
    clear last
    induction heads with
    | start => exact ⟨⟨rfl, rfl⟩, rfl, by simp, by simp, by simp, by simp, by simp; omega⟩
    | next before step ih =>
      obtain ⟨-, left, -⟩ | ⟨more, ⟨-, left, -⟩ | ⟨page, good, next, rfl⟩⟩ :=
        returns_nandFillStep driver step
      · exact absurd left (by simp)
      · exact absurd left (by simp)
      · obtain rfl := Sum.inl.inj next
        exact ih.append contract (before.visits (Prog.visits_loop_head _ _ _)) bound more good
  obtain ⟨enough, end_, rfl⟩ | ⟨more, ⟨failed, end_, rfl⟩ | ⟨page, good, next, rfl⟩⟩ :=
    returns_nandFillStep driver last
  · obtain rfl := Sum.inr.inj end_
    have length : l.filled.length = size := le_antisymm filling.short enough
    refine ⟨⟨filling.quiet.1, filling.quiet.2, filling.kept⟩, .inl ⟨?_, ?_, ?_⟩⟩
    · rw [if_neg (not_lt.mpr enough), List.append_nil]
      exact filling.good
    · rw [filling.position, length, filling.filled, length]
    · intro a inside
      exact filling.pages a (length ▸ inside)
  · obtain rfl := Sum.inr.inj end_
    refine ⟨⟨filling.quiet.1, filling.quiet.2, (contract.keepsRead _ _).trans filling.kept⟩,
      .inr ⟨?_, rfl, l.filled.length, more, u, heads.visits (Prog.visits_loop_head _ _ _), ?_⟩⟩
    · rw [if_pos more, failed]
      simp
    · rw [← Nat.mod_eq_of_lt (by omega : offset + l.filled.length < 2 ^ 32), ← filling.position]
      exact failed
  · exact absurd next (by simp)

end Fill

def ioPoll (s : PluginIo W NandState) : RecvPoll := (transport.recvPoll s.world).1

def nandAfterPoll (w : W) : W :=
  let (polled, world) := transport.recvPoll w
  match polled with
  | .none => world
  | .error | .frame _ => transport.recvRelease world

def PluginIo.polled (s : PluginIo W NandState) : PluginIo W NandState :=
  { s with world := nandAfterPoll transport s.world }

def PluginIo.afterSend (s : PluginIo W NandState) (frame : List UInt8) : PluginIo W NandState :=
  { s with world := transport.sendFrame frame s.world, sent := s.sent ++ [frame] }

namespace NandReadLocals

/-- An acknowledgement counts only if a packet is outstanding. -/
def acked (l : NandReadLocals H) (p : RecvPoll) : NandReadLocals H :=
  match p with
  | .frame ack =>
    if ack.length = 4 then
      { l with
        ackedDataSize := getLeToU32 (Memory.ofList ack) 0
        ackedPackets :=
          if l.ackedPackets < l.sentPackets then (l.ackedPackets + 1) % 2 ^ 32
          else l.ackedPackets }
    else l
  | .none | .error => l

@[simp] theorem acked_sentPackets (l : NandReadLocals H) (p : RecvPoll) :
    (l.acked p).sentPackets = l.sentPackets := by
  unfold acked
  split <;> [split_ifs <;> rfl; rfl; rfl]

@[simp] theorem acked_readSizeRemaining (l : NandReadLocals H) (p : RecvPoll) :
    (l.acked p).readSizeRemaining = l.readSizeRemaining := by
  unfold acked
  split <;> [split_ifs <;> rfl; rfl; rfl]

@[simp] theorem acked_currentOffset (l : NandReadLocals H) (p : RecvPoll) :
    (l.acked p).currentOffset = l.currentOffset := by
  unfold acked
  split <;> [split_ifs <;> rfl; rfl; rfl]

@[simp] theorem acked_readFailed (l : NandReadLocals H) (p : RecvPoll) :
    (l.acked p).readFailed = l.readFailed := by
  unfold acked
  split <;> [split_ifs <;> rfl; rfl; rfl]

@[simp] theorem acked_md5Ctx (l : NandReadLocals H) (p : RecvPoll) :
    (l.acked p).md5Ctx = l.md5Ctx := by
  unfold acked
  split <;> [split_ifs <;> rfl; rfl; rfl]

theorem acked_window {l : NandReadLocals H}
    (window : l.ackedPackets ≤ l.sentPackets ∧ l.sentPackets ≤ l.ackedPackets + 1)
    (bound : l.sentPackets < 2 ^ 32) (p : RecvPoll) :
    (l.acked p).ackedPackets ≤ l.sentPackets ∧ l.sentPackets ≤ (l.acked p).ackedPackets + 1 := by
  cases p with
  | none | error => exact window
  | frame ack =>
    simp only [acked]
    by_cases size : ack.length = 4
    · simp only [size, if_true]
      split_ifs with outstanding
      · omega
      · exact window
    · simp only [size, if_false]
      exact window

def packetLength (packetSize : Nat) (l : NandReadLocals H) : Nat :=
  if packetSize < l.readSizeRemaining then packetSize else l.readSizeRemaining

theorem packetLength_le (packetSize : Nat) (l : NandReadLocals H) :
    l.packetLength packetSize ≤ l.readSizeRemaining := by
  unfold packetLength
  split_ifs with less
  · exact less.le
  · exact le_rfl

theorem packetLength_pos {packetSize : Nat} (nonzero : 0 < packetSize) {l : NandReadLocals H}
    (left : 0 < l.readSizeRemaining) : 0 < l.packetLength packetSize := by
  unfold packetLength
  split_ifs
  · exact nonzero
  · exact left

def Active (readSize : Nat) (l : NandReadLocals H) : Prop :=
  0 < l.readSizeRemaining ∨ l.ackedDataSize < readSize

def Sends (l : NandReadLocals H) : Prop :=
  0 < l.readSizeRemaining ∧
    (if l.ackedPackets ≤ l.sentPackets then l.sentPackets - l.ackedPackets else 0) <
      nandMaxUnackedPackets

instance (l : NandReadLocals H) : Decidable l.Sends := inferInstanceAs (Decidable (_ ∧ _))

theorem Sends.acknowledged {l : NandReadLocals H} (sends : l.Sends)
    (window : l.ackedPackets ≤ l.sentPackets) : l.sentPackets = l.ackedPackets := by
  have unacked := sends.2
  rw [if_pos window, show nandMaxUnackedPackets = 1 from rfl] at unacked
  omega

def afterPacket (packetSize : Nat) (l : NandReadLocals H) (filled : Option (List UInt8))
    (currentOffset : Nat) : NandReadLocals H :=
  { l with
    readSizeRemaining := sub32 l.readSizeRemaining (l.packetLength packetSize)
    sentPackets := (l.sentPackets + 1) % 2 ^ 32
    currentOffset
    readFailed := filled.isNone
    md5Ctx := md5.update l.md5Ctx
      (filled.getD (List.replicate (l.packetLength packetSize) 0)) }

end NandReadLocals

/-- The filling of the next packet; after a failure none is tried. -/
def Fills (packetSize : Nat) (l : NandReadLocals H) (s : PluginIo W NandState)
    (filled : Option (List UInt8)) (offset : Nat) (t : PluginIo W NandState) : Prop :=
  if l.readFailed then filled = none ∧ offset = l.currentOffset ∧ t = s
  else (nandFillSendBuf driver l.currentOffset (l.packetLength packetSize)).Returns s
    (filled, offset) t

inductive NandReadRound (readSize packetSize : Nat) (l : NandReadLocals H)
    (s : PluginIo W NandState) : NandReadLocals H ⊕ NandReadLocals H → PluginIo W NandState →
      Prop where
  | finished (ended : ¬ l.Active readSize) : NandReadRound readSize packetSize l s (.inr l) s
  | waits (more : l.Active readSize) (idle : ¬ (l.acked (ioPoll transport s)).Sends) :
      NandReadRound readSize packetSize l s (.inl (l.acked (ioPoll transport s)))
        (s.polled transport)
  | packet (more : l.Active readSize) (sends : (l.acked (ioPoll transport s)).Sends)
      {filled : Option (List UInt8)} {offset : Nat} {u : PluginIo W NandState}
      (fills : Fills driver packetSize (l.acked (ioPoll transport s)) (s.polled transport) filled
        offset u) :
      NandReadRound readSize packetSize l s
        (.inl ((l.acked (ioPoll transport s)).afterPacket md5 packetSize filled offset))
        (u.afterSend transport (filled.getD (List.replicate
          ((l.acked (ioPoll transport s)).packetLength packetSize) 0)))

theorem returns_nandPollAck {l r : NandReadLocals H} {s t : PluginIo W NandState}
    (run : (nandPollAck transport l).Returns s r t) :
    r = l.acked (ioPoll transport s) ∧ t = s.polled transport := by
  simp only [nandPollAck, Prog.returns_act_bind] at run
  unfold PluginIo.polled nandAfterPoll ioPoll
  cases polled : (transport.recvPoll s.world).1 with
  | none =>
    simp only [polled, Prog.returns_pure] at run
    simpa [NandReadLocals.acked, polled] using run
  | error =>
    simp only [polled, nandIoRelease, Prog.returns_modify_bind, Prog.returns_pure] at run
    simpa [NandReadLocals.acked, polled] using run
  | frame ack =>
    simp only [polled, nandIoRelease, Prog.returns_modify_bind, Prog.returns_pure] at run
    simpa [NandReadLocals.acked, polled] using run

theorem returns_nandSendPacket {packetSize : Nat} {l r : NandReadLocals H}
    {s t : PluginIo W NandState}
    (run : (nandSendPacket driver md5 transport packetSize l).Returns s r t) :
    ∃ filled offset u, Fills driver packetSize l s filled offset u ∧
      r = l.afterPacket md5 packetSize filled offset ∧
      t = u.afterSend transport (filled.getD (List.replicate (l.packetLength packetSize) 0)) := by
  unfold nandSendPacket at run
  unfold Fills
  cases failed : l.readFailed with
  | true =>
    simp only [failed, if_true, Prog.returns_pure_bind, nandIoSend, Prog.returns_modify_bind,
      Prog.returns_pure] at run
    exact ⟨none, l.currentOffset, s, ⟨rfl, rfl, rfl⟩, run⟩
  | false =>
    simp only [failed, Bool.false_eq_true, if_false, Prog.returns_bind] at run
    obtain ⟨⟨filled, offset⟩, u, fill, run⟩ := run
    simp only [nandIoSend, Prog.returns_modify, Prog.returns_pure] at run
    obtain ⟨_, _, rfl, run⟩ := run
    exact ⟨filled, offset, u, fill, run⟩

theorem returns_nandReadStep {readSize packetSize : Nat} {l : NandReadLocals H}
    {s t : PluginIo W NandState} {r : NandReadLocals H ⊕ NandReadLocals H}
    (run : (nandReadStep driver md5 transport readSize packetSize l).Returns s r t) :
    NandReadRound driver md5 transport readSize packetSize l s r t := by
  unfold nandReadStep at run
  split_ifs at run with more
  · rw [Prog.returns_bind] at run
    obtain ⟨polled, u, poll, run⟩ := run
    obtain ⟨rfl, rfl⟩ := returns_nandPollAck transport poll
    change (if (l.acked (ioPoll transport s)).Sends then _ else _ : NandIo W _).Returns _ _ _ at run
    by_cases sends : (l.acked (ioPoll transport s)).Sends
    · rw [if_pos sends, Prog.returns_bind] at run
      obtain ⟨next, v, send, run⟩ := run
      obtain ⟨filled, offset, u, fills, rfl, rfl⟩ := returns_nandSendPacket driver md5 transport send
      obtain ⟨rfl, rfl⟩ := (Prog.returns_pure _ _ _ _).mp run
      exact .packet more sends fills
    · rw [if_neg sends] at run
      obtain ⟨rfl, rfl⟩ := (Prog.returns_pure _ _ _ _).mp run
      exact .waits more sends
  · obtain ⟨rfl, rfl⟩ := (Prog.returns_pure _ _ _ _).mp run
    exact .finished more

/-- The page reads of a round: those of its packet, if it fills one. -/
def RoundReads (packetSize : Nat) (l : NandReadLocals H) (s : PluginIo W NandState)
    (reads : List (Option (List UInt8))) : Prop :=
  if l.Sends ∧ l.readFailed = false then
    ∃ r t, FillReads driver l.currentOffset (l.packetLength packetSize) s reads r t
  else reads = []

def NandReadLocals.start (read : NandReadState) : NandReadLocals H where
  readSizeRemaining := read.readSize
  sentPackets := 0
  ackedDataSize := 0
  ackedPackets := 0
  currentOffset := read.offset
  readFailed := false
  md5Ctx := md5.init

def PluginIo.released (s : PluginIo W NandState) : PluginIo W NandState :=
  { s with world := transport.recvRelease s.world }

/-- The callback, started in `s`, stands at the head of its loop with `l` and in `t`; so far it has
polled `polls` and read the pages `reads`. -/
inductive NandReadHead (s : PluginIo W NandState) : List RecvPoll → List (Option (List UInt8)) →
    NandReadLocals H → PluginIo W NandState → Prop where
  | start : NandReadHead s [] [] (.start md5 s.statics.read) (s.released transport)
  | next {polls reads roundReads l l' t u} (before : NandReadHead s polls reads l t)
      (step : (nandReadStep driver md5 transport s.statics.read.readSize
        s.statics.read.packetSize l).Returns t (.inl l') u)
      (seen : RoundReads driver s.statics.read.packetSize (l.acked (ioPoll transport t))
        (t.polled transport) roundReads) :
      NandReadHead s (polls ++ [ioPoll transport t]) (reads ++ roundReads) l' u

theorem roundReads_exists {readSize packetSize : Nat} {l : NandReadLocals H}
    {s t : PluginIo W NandState} {r : NandReadLocals H ⊕ NandReadLocals H}
    (round : NandReadRound driver md5 transport readSize packetSize l s r t) :
    ∃ reads, RoundReads driver packetSize (l.acked (ioPoll transport s)) (s.polled transport)
      reads := by
  unfold RoundReads
  split_ifs with fills
  · cases round with
    | finished ended => exact absurd fills.1.1 (by simpa using (not_or.mp ended).1)
    | waits more idle => exact absurd fills.1 idle
    | packet more sends filling =>
      rw [Fills, if_neg (Bool.eq_false_iff.mp fills.2)] at filling
      obtain ⟨reads, seen⟩ := returns_nandFillSendBuf driver filling
      exact ⟨reads, _, _, seen⟩
  · exact ⟨[], rfl⟩

theorem NandReadHead.iterates {s t : PluginIo W NandState} {polls : List RecvPoll}
    {reads : List (Option (List UInt8))} {l : NandReadLocals H}
    (head : NandReadHead driver md5 transport s polls reads l t) :
    Prog.Iterates (nandReadStep driver md5 transport s.statics.read.readSize
      s.statics.read.packetSize) (fun _ => ioPoll transport) (.start md5 s.statics.read)
      (s.released transport) polls l t := by
  induction head with
  | start => exact .start
  | next _ step _ ih => exact ih.next step

theorem exists_nandReadHead {s t : PluginIo W NandState} {polls : List RecvPoll}
    {l : NandReadLocals H} (heads : Prog.Iterates (nandReadStep driver md5 transport
      s.statics.read.readSize s.statics.read.packetSize) (fun _ => ioPoll transport)
      (.start md5 s.statics.read) (s.released transport) polls l t) :
    ∃ reads, NandReadHead driver md5 transport s polls reads l t := by
  induction heads with
  | start => exact ⟨[], .start⟩
  | next before step ih =>
    obtain ⟨reads, head⟩ := ih
    obtain ⟨roundReads, seen⟩ :=
      roundReads_exists driver md5 transport (returns_nandReadStep driver md5 transport step)
    exact ⟨_, head.next step seen⟩

theorem straight_nandFillStep (size : Nat) (l : NandFill) :
    (nandFillStep driver size l).Straight := by
  refine Prog.straight_ite ?_ (Prog.straight_pure _)
  refine (Prog.straight_act _).bind fun page => ?_
  cases page <;> exact Prog.straight_pure _

theorem straight_nandPollAck (l : NandReadLocals H) : (nandPollAck transport l).Straight := by
  refine (Prog.straight_act _).bind fun p => ?_
  cases p with
  | none => exact Prog.straight_pure _
  | error | frame => exact (Prog.straight_modify _).bind fun _ => Prog.straight_pure _

theorem ensures_nandFillSendBuf_sent (offset size : Nat) (s : PluginIo W NandState) :
    (nandFillSendBuf driver offset size).Ensures s (fun t => t.sent = s.sent)
      fun _ t => t.sent = s.sent := by
  refine Prog.Ensures.loop (fun _ t => t.sent = s.sent) (fun _ _ same => same)
    (fun l t same => ⟨fun u inside => ?_, fun r u step => ?_⟩) rfl
  · exact absurd inside ((straight_nandFillStep driver size l).not_visits t u)
  · have next : u.sent = s.sent := by
      obtain ⟨-, -, rfl⟩ | ⟨-, ⟨-, -, rfl⟩ | ⟨page, -, -, rfl⟩⟩ :=
        returns_nandFillStep driver step <;> exact same
    cases r <;> exact next

theorem sent_of_visits_nandSendPacket {packetSize : Nat} {l : NandReadLocals H}
    {s u : PluginIo W NandState}
    (inside : (nandSendPacket driver md5 transport packetSize l).Visits s u) : u.sent = s.sent := by
  have passed {p : NandIo W (Option (List UInt8) × Nat)} {send : _ → NandIo W Unit}
      {next : _ → NandReadLocals H} (sends : ∀ r, (send r).Straight)
      (visits : (p >>= fun r => send r >>= fun _ => pure (next r)).Visits s u) : p.Visits s u :=
    (Prog.visits_bind_straight fun r => (sends r).bind fun _ => Prog.straight_pure _).mp visits
  unfold nandSendPacket at inside
  cases failed : l.readFailed with
  | true =>
    simp only [failed, if_true] at inside
    exact absurd (passed (fun _ => Prog.straight_modify _) inside) (Prog.not_visits_act _ _ _)
  | false =>
    simp only [failed, Bool.false_eq_true, if_false] at inside
    exact (ensures_nandFillSendBuf_sent driver _ _ _).1 u
      (passed (fun _ => Prog.straight_modify _) inside)

theorem sent_of_visits_nandReadStep {readSize packetSize : Nat} {l : NandReadLocals H}
    {s u : PluginIo W NandState}
    (inside : (nandReadStep driver md5 transport readSize packetSize l).Visits s u) :
    u.sent = s.sent := by
  unfold nandReadStep at inside
  split_ifs at inside
  · obtain polling | ⟨l', t, poll, rest⟩ := Prog.visits_bind inside
    · exact absurd polling ((straight_nandPollAck transport l).not_visits s u)
    obtain ⟨rfl, rfl⟩ := returns_nandPollAck transport poll
    change (if (l.acked (ioPoll transport s)).Sends then _ else _ : NandIo W _).Visits _ _ at rest
    split_ifs at rest
    · rw [Prog.visits_bind_straight fun _ => Prog.straight_pure _] at rest
      exact (sent_of_visits_nandSendPacket driver md5 transport rest :)
    · exact absurd rest (Prog.not_visits_act _ _ _)
  · exact absurd inside (Prog.not_visits_act _ _ _)

/-- The callback can be cut off at the heads of its loop, and inside a round that follows one. -/
theorem visits_nandReadFlashPostProcess {s u : PluginIo W NandState} :
    (nandReadFlashPostProcess driver md5 transport).Visits s u ↔
      ∃ polls reads l t, NandReadHead driver md5 transport s polls reads l t ∧
        (u = t ∨ (nandReadStep driver md5 transport s.statics.read.readSize
          s.statics.read.packetSize l).Visits t u) := by
  rw [nandReadFlashPostProcess, Prog.visits_get_bind, nandIoRelease, Prog.visits_modify_bind]
  refine (Prog.visits_bind_straight fun _ =>
    (Prog.straight_modify _).bind fun _ => Prog.straight_pure _).trans
      ((Prog.visits_loop_iterates fun _ => ioPoll transport).trans ?_)
  constructor
  · rintro ⟨polls, l, t, heads, here⟩
    obtain ⟨reads, head⟩ := exists_nandReadHead driver md5 transport heads
    exact ⟨polls, reads, l, t, head, here⟩
  · rintro ⟨polls, reads, l, t, head, here⟩
    exact ⟨polls, l, t, head.iterates, here⟩

/-- What a fill passes the callback passes. -/
theorem visits_nandReadFlashPostProcess_of_fill {s t u : PluginIo W NandState}
    {polls : List RecvPoll} {reads : List (Option (List UInt8))} {l : NandReadLocals H}
    (head : NandReadHead driver md5 transport s polls reads l t)
    (more : l.Active s.statics.read.readSize) (sends : (l.acked (ioPoll transport t)).Sends)
    (tries : (l.acked (ioPoll transport t)).readFailed = false)
    (inside : (nandFillSendBuf driver (l.acked (ioPoll transport t)).currentOffset
      ((l.acked (ioPoll transport t)).packetLength s.statics.read.packetSize)).Visits
        (t.polled transport) u) :
    (nandReadFlashPostProcess driver md5 transport).Visits s u := by
  refine (visits_nandReadFlashPostProcess driver md5 transport).mpr
    ⟨polls, reads, l, t, head, .inr ?_⟩
  obtain ⟨l', v, poll⟩ := (straight_nandPollAck transport l).ends t
  obtain ⟨rfl, rfl⟩ := returns_nandPollAck transport poll
  have packet : (nandSendPacket driver md5 transport s.statics.read.packetSize
      (l.acked (ioPoll transport t))).Visits (t.polled transport) u := by
    unfold nandSendPacket
    rw [tries]
    exact Prog.visits_bind_left _ inside
  unfold NandReadLocals.Active at more
  rw [nandReadStep, if_pos more]
  refine Prog.visits_bind_right poll ?_
  change (if (l.acked (ioPoll transport t)).Sends then _ else _ : NandIo W _).Visits _ _
  rw [if_pos sends]
  exact Prog.visits_bind_left _ packet

theorem returns_nandReadFlashPostProcess {s t : PluginIo W NandState} {e : Int}
    (run : (nandReadFlashPostProcess driver md5 transport).Returns s e t) :
    ∃ polls reads l u, NandReadHead driver md5 transport s polls reads l u ∧
      ¬ l.Active s.statics.read.readSize ∧ e = responseSuccess ∧
      t = u.afterSend transport (if l.readFailed then
        (md5.final l.md5Ctx).map (· ^^^ 0xFF) else md5.final l.md5Ctx) := by
  rw [nandReadFlashPostProcess, Prog.returns_get_bind, nandIoRelease, Prog.returns_modify_bind,
    Prog.returns_bind] at run
  obtain ⟨l, v, loop, run⟩ := run
  obtain ⟨polls, l', u, heads, last⟩ :=
    (Prog.returns_loop_iterates fun _ => ioPoll transport).mp loop
  obtain ⟨reads, head⟩ := exists_nandReadHead driver md5 transport heads
  cases returns_nandReadStep driver md5 transport last with
  | finished ended =>
    simp only [nandIoSend, Prog.returns_modify_bind, Prog.returns_pure] at run
    exact ⟨polls, reads, l, v, head, ended, run⟩

/-- The account of a stream since `s`: the packets before the first failed read and those after. -/
structure NandStreaming (content : W → Memory) (s : PluginIo W NandState)
    (reads : List (Option (List UInt8))) (l : NandReadLocals H) (good bad : List (List UInt8))
    (t : PluginIo W NandState) : Prop where
  sent : t.sent = s.sent ++ (good ++ bad)
  kept : t.statics = s.statics ∧ content t.world = content s.world
  count : l.sentPackets = (good ++ bad).length
  window : l.ackedPackets ≤ l.sentPackets ∧ l.sentPackets ≤ l.ackedPackets + 1
  bytes : (good ++ bad).flatten.length + l.readSizeRemaining = s.statics.read.readSize
  some : ∀ p ∈ good ++ bad, p ≠ []
  data : good.flatten = (content s.world).read s.statics.read.offset good.flatten.length
  zero : ∀ p ∈ bad, p = List.replicate p.length 0
  latch : l.readFailed = true ↔ none ∈ reads
  lost : bad = [] ↔ none ∉ reads
  position : none ∉ reads →
    l.currentOffset = (s.statics.read.offset + good.flatten.length) % 2 ^ 32
  digest : l.md5Ctx = md5.update md5.init (good ++ bad).flatten

section Streaming

variable {driver md5 transport} {content : W → Memory} {s t : PluginIo W NandState}
  {reads : List (Option (List UInt8))} {l : NandReadLocals H} {good bad : List (List UInt8)}

theorem NandStreaming.start (contract : NandReadContract driver transport content)
    (hash : Incremental md5) (bound : s.statics.read.offset < 2 ^ 32) :
    NandStreaming md5 content s [] (.start md5 s.statics.read) [] [] (s.released transport) where
  sent := by simp [PluginIo.released]
  kept := ⟨rfl, contract.keepsRelease _⟩
  count := rfl
  window := by simp [NandReadLocals.start]
  bytes := by simp [NandReadLocals.start]
  some := by simp
  data := by simp
  zero := by simp
  latch := by simp [NandReadLocals.start]
  lost := by simp
  position _ := (Nat.mod_eq_of_lt bound).symm
  digest := (hash.nil _).symm

theorem content_nandAfterPoll (contract : NandReadContract driver transport content) (w : W) :
    content (nandAfterPoll transport w) = content w := by
  have polled := contract.keepsPoll w
  have released := contract.keepsRelease (transport.recvPoll w).2
  unfold nandAfterPoll
  generalize transport.recvPoll w = result at polled released
  obtain ⟨p, w'⟩ := result
  cases p with
  | none => exact polled
  | error | frame => exact released.trans polled

theorem NandStreaming.count_lt (h : NandStreaming md5 content s reads l good bad t)
    (bound : s.statics.read.readSize < 2 ^ 32) : (good ++ bad).length < 2 ^ 32 := by
  have := length_le_flatten h.some
  have := h.bytes
  omega

theorem NandStreaming.poll (contract : NandReadContract driver transport content)
    (h : NandStreaming md5 content s reads l good bad t)
    (bound : s.statics.read.readSize < 2 ^ 32) :
    NandStreaming md5 content s reads (l.acked (ioPoll transport t)) good bad
      (t.polled transport) where
  sent := h.sent
  kept := ⟨h.kept.1, (content_nandAfterPoll contract _).trans h.kept.2⟩
  count := by rw [NandReadLocals.acked_sentPackets, h.count]
  window := by
    have window := h.window
    have less := h.count_lt bound
    rw [← h.count] at less
    rw [NandReadLocals.acked_sentPackets]
    exact NandReadLocals.acked_window window less _
  bytes := by rw [NandReadLocals.acked_readSizeRemaining, h.bytes]
  some := h.some
  data := h.data
  zero := h.zero
  latch := by rw [NandReadLocals.acked_readFailed, h.latch]
  lost := h.lost
  position good := by rw [NandReadLocals.acked_currentOffset, h.position good]
  digest := by rw [NandReadLocals.acked_md5Ctx, h.digest]

theorem NandStreaming.send (contract : NandReadContract driver transport content)
    (hash : Incremental md5) (h : NandStreaming md5 content s reads l good bad t)
    (bound : s.statics.read.readSize < 2 ^ 32) {packetSize : Nat} (nonzero : 0 < packetSize)
    (sends : l.Sends) {filled : Option (List UInt8)} {offset : Nat} {u : PluginIo W NandState}
    (same : u.statics = t.statics ∧ u.sent = t.sent ∧ content u.world = content t.world)
    {p : List UInt8} (packet : filled.getD (List.replicate (l.packetLength packetSize) 0) = p)
    (length : p.length = l.packetLength packetSize) {reads' : List (Option (List UInt8))}
    {good' bad' : List (List UInt8)} (all : good' ++ bad' = good ++ bad ++ [p])
    (data : good'.flatten = (content s.world).read s.statics.read.offset good'.flatten.length)
    (zero : ∀ p ∈ bad', p = List.replicate p.length 0)
    (latch : filled.isNone = true ↔ none ∈ reads') (lost : bad' = [] ↔ none ∉ reads')
    (position : none ∉ reads' →
      offset = (s.statics.read.offset + good'.flatten.length) % 2 ^ 32) :
    NandStreaming md5 content s reads' (l.afterPacket md5 packetSize filled offset) good' bad'
      (u.afterSend transport p) := by
  have bytes := h.bytes
  have within := NandReadLocals.packetLength_le packetSize l
  have part := NandReadLocals.packetLength_pos nonzero sends.1
  have acknowledged := sends.acknowledged h.window.1
  have some' : ∀ q ∈ good ++ bad ++ [p], q ≠ [] :=
    List.forall_mem_append.mpr ⟨h.some, by
      rw [List.forall_mem_singleton, ← List.length_pos_iff, length]
      exact part⟩
  have whole : (good ++ bad ++ [p]).flatten.length =
      (good ++ bad).flatten.length + l.packetLength packetSize := by
    rw [List.flatten_append, List.length_append, List.flatten_singleton, length]
  have count : (l.sentPackets + 1) % 2 ^ 32 = l.sentPackets + 1 := by
    have := length_le_flatten some'
    rw [whole, List.length_append, List.length_singleton, ← h.count] at this
    exact Nat.mod_eq_of_lt (by omega)
  refine ⟨?_, ?_, ?_, ?_, ?_, all ▸ some', data, zero, latch, lost, position, ?_⟩
  · rw [all, ← List.append_assoc, ← h.sent, ← same.2.1]
    rfl
  · exact ⟨same.1.trans h.kept.1, (contract.keepsSend _ _).trans (same.2.2.trans h.kept.2)⟩
  · rw [all, List.length_append, List.length_singleton, ← h.count]
    exact count
  · change l.ackedPackets ≤ (l.sentPackets + 1) % 2 ^ 32 ∧
      (l.sentPackets + 1) % 2 ^ 32 ≤ l.ackedPackets + 1
    rw [count]
    omega
  · change _ + sub32 l.readSizeRemaining (l.packetLength packetSize) = _
    rw [all, whole, sub32_of_le within (by omega)]
    omega
  · change md5.update l.md5Ctx (filled.getD _) = _
    rw [packet, h.digest, hash.append, all]
    simp only [List.flatten_append, List.flatten_singleton]

theorem NandStreaming.zeroPacket (contract : NandReadContract driver transport content)
    (hash : Incremental md5) (h : NandStreaming md5 content s reads l good bad t)
    (bound : s.statics.read.readSize < 2 ^ 32) {packetSize : Nat} (nonzero : 0 < packetSize)
    (sends : l.Sends) {offset : Nat} {u : PluginIo W NandState}
    (same : u.statics = t.statics ∧ u.sent = t.sent ∧ content u.world = content t.world)
    {roundReads : List (Option (List UInt8))} (failed : none ∈ reads ++ roundReads) :
    NandStreaming md5 content s (reads ++ roundReads) (l.afterPacket md5 packetSize none offset)
      good (bad ++ [List.replicate (l.packetLength packetSize) 0])
      (u.afterSend transport (List.replicate (l.packetLength packetSize) 0)) := by
  refine h.send contract hash bound nonzero sends same rfl (by simp)
    (List.append_assoc _ _ _).symm h.data ?_ (by simp [failed]) (by simp [failed])
    (fun clean => absurd failed clean)
  exact List.forall_mem_append.mpr ⟨h.zero, by simp⟩

theorem NandStreaming.storedPacket (contract : NandReadContract driver transport content)
    (hash : Incremental md5) (h : NandStreaming md5 content s reads l good [] t)
    (bound : s.statics.read.readSize < 2 ^ 32) {packetSize : Nat} (nonzero : 0 < packetSize)
    (sends : l.Sends) {u : PluginIo W NandState}
    (same : u.statics = t.statics ∧ u.sent = t.sent ∧ content u.world = content t.world)
    {roundReads : List (Option (List UInt8))} (clean : none ∉ reads ++ roundReads)
    (position : l.currentOffset = s.statics.read.offset + good.flatten.length) :
    NandStreaming md5 content s (reads ++ roundReads)
      (l.afterPacket md5 packetSize
        (.some ((content t.world).read l.currentOffset (l.packetLength packetSize)))
        ((l.currentOffset + l.packetLength packetSize) % 2 ^ 32))
      (good ++ [(content t.world).read l.currentOffset (l.packetLength packetSize)]) []
      (u.afterSend transport
        ((content t.world).read l.currentOffset (l.packetLength packetSize))) := by
  have stored : (content t.world).read l.currentOffset (l.packetLength packetSize) =
      (content s.world).read (s.statics.read.offset + good.flatten.length)
        (l.packetLength packetSize) := by
    rw [h.kept.2, position]
  have whole : (good ++ [(content t.world).read l.currentOffset
      (l.packetLength packetSize)]).flatten.length =
        good.flatten.length + l.packetLength packetSize := by
    rw [List.flatten_append, List.length_append, List.flatten_singleton, Memory.length_read]
  refine h.send contract hash bound nonzero sends same rfl ?_ (by simp) ?_ (by simp)
    (by simpa using clean) (by simpa using clean) fun _ => ?_
  · exact Memory.length_read _ _ _
  · rw [whole, Memory.read_add, ← h.data, ← stored, List.flatten_append, List.flatten_singleton]
  · rw [whole, position, Nat.add_assoc]

theorem NandStreaming.packet (contract : NandReadContract driver transport content)
    (hash : Incremental md5) (h : NandStreaming md5 content s reads l good bad t)
    (bound : s.statics.read.offset + s.statics.read.readSize < 2 ^ 32) {packetSize : Nat}
    (nonzero : 0 < packetSize) (sends : l.Sends) {filled : Option (List UInt8)} {offset : Nat}
    {u : PluginIo W NandState} (fills : Fills driver packetSize l t filled offset u)
    {roundReads : List (Option (List UInt8))}
    (seen : RoundReads driver packetSize l t roundReads) :
    ∃ good' bad', NandStreaming md5 content s (reads ++ roundReads)
        (l.afterPacket md5 packetSize filled offset) good' bad'
        (u.afterSend transport (filled.getD (List.replicate (l.packetLength packetSize) 0))) ∧
      (filled = none → good' = good) := by
  have size : s.statics.read.readSize < 2 ^ 32 := by omega
  unfold Fills at fills
  unfold RoundReads at seen
  by_cases failed : l.readFailed = true
  · rw [if_pos failed] at fills
    obtain ⟨rfl, -, rfl⟩ := fills
    exact ⟨_, _, h.zeroPacket contract hash size nonzero sends ⟨rfl, rfl, rfl⟩
      (List.mem_append_left _ (h.latch.mp failed)), fun _ => rfl⟩
  rw [if_neg failed] at fills
  rw [if_pos ⟨sends, by simpa using failed⟩] at seen
  obtain ⟨r, v, reading⟩ := seen
  obtain ⟨rfl, rfl⟩ := reading.returns.unique fills
  have clean : none ∉ reads := fun mem => failed (h.latch.mpr mem)
  obtain rfl : bad = [] := h.lost.mpr clean
  have bytes := h.bytes
  have within := NandReadLocals.packetLength_le packetSize l
  rw [List.append_nil] at bytes
  have position : l.currentOffset = s.statics.read.offset + good.flatten.length := by
    rw [h.position clean, Nat.mod_eq_of_lt (by omega)]
  obtain ⟨same, ⟨read, value, -⟩ | ⟨missed, missing, -⟩⟩ := reading.outcome contract (by omega)
  · obtain ⟨rfl, rfl⟩ := Prod.mk.inj value
    exact ⟨_, _, h.storedPacket contract hash size nonzero sends same
      (by simp [clean, read]) position, fun missing => absurd missing (Option.some_ne_none _)⟩
  · subst missing
    exact ⟨_, _, h.zeroPacket contract hash size nonzero sends same
      (List.mem_append_right _ missed), fun _ => rfl⟩

theorem NandReadHead.streaming (contract : NandReadContract driver transport content)
    (hash : Incremental md5) (nonzero : 0 < s.statics.read.packetSize)
    (bound : s.statics.read.offset + s.statics.read.readSize < 2 ^ 32) {polls : List RecvPoll}
    (head : NandReadHead driver md5 transport s polls reads l t) :
    ∃ good bad, NandStreaming md5 content s reads l good bad t := by
  induction head with
  | start => exact ⟨[], [], .start contract hash (by omega)⟩
  | next before step seen ih =>
    obtain ⟨good, bad, streaming⟩ := ih
    have polled := streaming.poll contract (by omega)
    have round := returns_nandReadStep driver md5 transport step
    cases round with
    | waits more idle =>
      rw [RoundReads, if_neg fun h => idle h.1] at seen
      rw [seen, List.append_nil]
      exact ⟨good, bad, polled⟩
    | packet more sends fills =>
      obtain ⟨good', bad', next, -⟩ := polled.packet contract hash bound nonzero sends fills seen
      exact ⟨good', bad', next⟩

end Streaming

/-- What the host has received at some moment since `s`: the packets `good` before the first page
that could not be read, and the packets `bad` from there on. -/
structure NandDelivered (content : W → Memory) (s : PluginIo W NandState)
    (reads : List (Option (List UInt8))) (l : NandReadLocals H) (good bad : List (List UInt8))
    (t : PluginIo W NandState) : Prop where
  sent : t.sent = s.sent ++ (good ++ bad)
  count : l.sentPackets = (good ++ bad).length
  window : l.ackedPackets ≤ l.sentPackets ∧ l.sentPackets - l.ackedPackets ≤ 1
  data : good.flatten = (content s.world).read s.statics.read.offset good.flatten.length
  zero : ∀ p ∈ bad, p = List.replicate p.length 0
  lost : bad = [] ↔ none ∉ reads

theorem NandStreaming.delivered {content : W → Memory} {s t : PluginIo W NandState}
    {reads : List (Option (List UInt8))} {l : NandReadLocals H} {good bad : List (List UInt8)}
    (h : NandStreaming md5 content s reads l good bad t) :
    NandDelivered content s reads l good bad t where
  sent := h.sent
  count := h.count
  window := ⟨h.window.1, Nat.sub_le_iff_le_add'.mpr h.window.2⟩
  data := h.data
  zero := h.zero
  lost := h.lost

theorem complement_ne {digest : List UInt8} (some : digest ≠ []) :
    digest.map (· ^^^ 0xFF) ≠ digest := by
  intro same
  obtain ⟨b, rest, rfl⟩ := List.exists_cons_of_ne_nil some
  have flipped := (List.cons.inj same).1
  have zero : b ^^^ (b ^^^ 0xFF) = b ^^^ b := congrArg (b ^^^ ·) flipped
  rw [← UInt8.xor_assoc, UInt8.xor_self, UInt8.zero_xor] at zero
  exact absurd zero (by decide)

theorem nandPluginReadFlash_accepted {mem : Memory} {data len : Nat} {resp resp' : NandResponse}
    {s t : NandState × W}
    (run : (nandPluginReadFlash driver mem data len resp).Returns s (responseSuccess, resp') t) :
    t.1.read.offset = getLeToU32 mem data ∧ t.1.read.readSize = getLeToU32 mem (data + 4) ∧
      0 < t.1.read.packetSize := by
  unfold nandPluginReadFlash at run
  have refused {code : Int} {r : NandResponse} {u : NandState × W} (bad : code ≠ responseSuccess)
      (h : (pure (code, r) : NandStub W (Int × NandResponse)).Returns u (responseSuccess, resp')
        t) : False := bad (congrArg Prod.fst ((Prog.returns_pure _ _ _ _).mp h).1).symm
  split_ifs at run with size
  · exact (refused (by decide) run).elim
  · rw [Prog.returns_get_bind] at run
    dsimp only at run
    split_ifs at run with page packet
    · exact (refused (by decide) run).elim
    · exact (refused (by decide) run).elim
    · rw [Prog.returns_modify_bind, Prog.returns_pure] at run
      rw [run.2]
      exact ⟨rfl, rfl, Nat.pos_of_ne_zero (not_or.mp packet).1⟩

/-- An accepted read streams the requested bytes up to the first page that cannot be read, then
zeros, and ends in a digest that fits what was sent exactly if every page could be read. At any
moment before its end as much has been sent as at the last head of its loop. -/
theorem nand_read_streams {content : W → Memory}
    (contract : NandReadContract driver transport content) (hash : Incremental md5)
    (size : ∀ h, (md5.final h).length = 16) {mem : Memory} {data len : Nat}
    {resp resp' : NandResponse} {s₀ s₁ : NandState × W}
    (accepted : (nandPluginReadFlash driver mem data len resp).Returns s₀
      (responseSuccess, resp') s₁)
    (fits : getLeToU32 mem data + getLeToU32 mem (data + 4) < 2 ^ 32)
    {s : PluginIo W NandState} (started : s.statics = s₁.1) :
    (∀ t, (nandReadFlashPostProcess driver md5 transport).Visits s t →
      ∃ polls reads l u, NandReadHead driver md5 transport s polls reads l u ∧ t.sent = u.sent) ∧
    (∀ polls reads l t, NandReadHead driver md5 transport s polls reads l t →
      (nandReadFlashPostProcess driver md5 transport).Visits s t ∧
      ∃ good bad, NandDelivered content s reads l good bad t) ∧
    ∀ e t, (nandReadFlashPostProcess driver md5 transport).Returns s e t →
      ∃ polls reads l u good bad digest, NandReadHead driver md5 transport s polls reads l u ∧
        NandDelivered content s reads l good bad u ∧ t.sent = u.sent ++ [digest] ∧
        (good ++ bad).flatten.length = getLeToU32 mem (data + 4) ∧
        digest = (if none ∈ reads
          then (md5.final (md5.update md5.init (good ++ bad).flatten)).map (· ^^^ 0xFF)
          else md5.final (md5.update md5.init (good ++ bad).flatten)) ∧
        (digest = md5.final (md5.update md5.init (good ++ bad).flatten) ↔ none ∉ reads) := by
  obtain ⟨offset, readSize, nonzero⟩ := nandPluginReadFlash_accepted driver accepted
  rw [← started] at offset readSize nonzero
  rw [← offset, ← readSize] at fits
  refine ⟨fun t visits => ?_, fun polls reads l t head => ⟨?_, ?_⟩, fun e t run => ?_⟩
  · obtain ⟨polls, reads, l, u, head, here⟩ :=
      (visits_nandReadFlashPostProcess driver md5 transport).mp visits
    refine ⟨polls, reads, l, u, head, ?_⟩
    obtain rfl | inside := here
    · rfl
    · exact sent_of_visits_nandReadStep driver md5 transport inside
  · exact (visits_nandReadFlashPostProcess driver md5 transport).mpr
      ⟨polls, reads, l, t, head, .inl rfl⟩
  · obtain ⟨good, bad, streaming⟩ := head.streaming contract hash nonzero fits
    exact ⟨good, bad, streaming.delivered md5⟩
  obtain ⟨polls, reads, l, u, head, ended, -, rfl⟩ :=
    returns_nandReadFlashPostProcess driver md5 transport run
  obtain ⟨good, bad, streaming⟩ := head.streaming contract hash nonzero fits
  have bytes := streaming.bytes
  have latch := streaming.latch
  have rest := (not_or.mp ended).1
  refine ⟨polls, reads, l, u, good, bad, _, head, streaming.delivered md5, rfl, by omega, ?_⟩
  rw [streaming.digest]
  by_cases failed : none ∈ reads
  · rw [if_pos (latch.mpr failed), if_pos failed]
    refine ⟨rfl, fun same => absurd same (complement_ne ?_), fun good => absurd failed good⟩
    exact List.ne_nil_of_length_eq_add_one (size _)
  · rw [if_neg (mt latch.mp failed), if_neg failed]
    exact ⟨rfl, fun _ => failed, fun _ => rfl⟩

def silentTransport : TransportOps W where
  recvPoll w := (.none, w)
  recvRelease w := w
  sendFrame _ w := w

def NandDriver.losing (lost : Nat) : NandDriver W :=
  { driver with readPage := fun page size w =>
      if page = lost then (none, w) else driver.readPage page size w }

/-- A request for five bytes around the start of page 1, in packets of two bytes. -/
def nandReadFrame : Memory :=
  Memory.ofList (List.replicate 8 0 ++ setU32ToLe 2045 ++ setU32ToLe 5 ++ setU32ToLe 2)

def nandReadStart (w : W) : PluginIo W NandState where
  statics := { read := { offset := 2045, readSize := 5, packetSize := 2 } }
  world := w
  sent := []

def addressed : Memory := fun a => UInt8.ofNat a

/-- A host that acknowledges three packets, the first one late. -/
def nandReadScript : Memory × List RecvPoll :=
  (addressed,
    [.none, .none, .error, .frame (setU32ToLe 2), .frame (setU32ToLe 4), .frame (setU32ToLe 5)])

theorem NandReadContract.losing {content : W → Memory}
    (contract : NandReadContract driver transport content) (lost : Nat) :
    NandReadContract (driver.losing lost) transport content where
  read page w bytes h := by
    simp only [NandDriver.losing] at h
    split_ifs at h
    exact contract.read page w bytes h
  keepsRead page w := by
    simp only [NandDriver.losing]
    split_ifs
    · rfl
    · exact contract.keepsRead page w
  keepsPoll := contract.keepsPoll
  keepsRelease := contract.keepsRelease
  keepsSend := contract.keepsSend

theorem simNand_script_readContract : NandReadContract simNand.beside scriptTransport Prod.fst where
  read _ _ _ h := (Option.some.inj h).symm
  keepsRead _ _ := rfl
  keepsPoll := fst_scriptTransport
  keepsRelease _ := rfl
  keepsSend _ _ := rfl

/-- Page 1 cannot be read: the second packet has one byte before it, and is all zeros. -/
theorem nand_read_streams_lost_page : ∃ t,
    (nandReadFlashPostProcess (simNand.beside.losing 1) echoMd5 scriptTransport).Returns
      (nandReadStart nandReadScript) responseSuccess t ∧
    t.sent = [[0xFD, 0xFE], [0, 0], [0], [0x02, 0x01] ++ List.replicate 14 0xFF] ∧
    ∃ polls reads l u good bad, NandReadHead (simNand.beside.losing 1) echoMd5 scriptTransport
        (nandReadStart nandReadScript) polls reads l u ∧
      NandDelivered Prod.fst (nandReadStart nandReadScript) reads l good bad u ∧
      (good ++ bad).flatten.length = 5 := by
  obtain ⟨e, t, run, checked⟩ := Prog.exists_returns_of_ends
    (nandReadFlashPostProcess (simNand.beside.losing 1) echoMd5 scriptTransport)
    (nandReadStart nandReadScript) 40
    (fun e t => e = responseSuccess ∧
      t.sent = [[0xFD, 0xFE], [0, 0], [0], [0x02, 0x01] ++ List.replicate 14 0xFF])
    (by decide +kernel)
  obtain ⟨rfl, sent⟩ := of_decide_eq_true checked
  obtain ⟨polls, reads, l, u, good, bad, -, head, delivered, -, length, -⟩ :=
    (nand_read_streams (simNand.beside.losing 1) echoMd5 scriptTransport
      (simNand_script_readContract.losing _ _ 1) echoMd5_incremental (fun _ => by simp [echoMd5])
      (show (nandPluginReadFlash (simNand.beside.losing 1) nandReadFrame 8 16 {}).Returns
        ({}, nandReadScript) (responseSuccess, _) _ from ⟨0, 0, rfl⟩)
      (by decide) (s := nandReadStart nandReadScript) rfl).2.2 _ _ run
  exact ⟨t, run, sent, polls, reads, l, u, good, bad, head, delivered, length⟩

end FlasherStub
