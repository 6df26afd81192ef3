import FlasherStub.ReadStream

/-! The loop of SPI_FLASH_MD5, round by round. A round reads whole words, skips the bytes before
the region in the first chunk, and hashes what is left of the region in the chunk. -/

namespace FlasherStub

open ByteMemory Budget

variable {W D H S C : Type} (env : Platform W D H S C)

/-- How `ALIGN_DOWN` and `ALIGN_UP` round to words. -/
structure WordRounding (lib : StubLib W) : Prop where
  alignDown : ∀ a, lib.alignDown a 4 = a / 4 * 4
  alignUp : ∀ a, a + 3 < 2 ^ 32 → lib.alignUp a 4 = (a + 3) / 4 * 4

def CmdCtx.md5Addr (ctx : CmdCtx) : Nat := getLeToU32 ctx.mem ctx.data

def CmdCtx.md5ReadSize (ctx : CmdCtx) : Nat := getLeToU32 ctx.mem (ctx.data + 4)

namespace Md5Locals

def start (ctx : CmdCtx) : Md5Locals H where
  alignedAddr := env.lib.alignDown ctx.md5Addr 4
  offset := sub32 ctx.md5Addr (env.lib.alignDown ctx.md5Addr 4)
  remaining := ctx.md5ReadSize
  md5Ctx := env.md5.init

/-- `aligned_chunk_size` -/
def chunk (l : Md5Locals H) : Nat :=
  env.lib.alignUp (min ((l.remaining + l.offset) % 2 ^ 32) md5BufferSize) 4

/-- `bytes_to_hash` -/
def slice (l : Md5Locals H) : Nat := min l.remaining (sub32 (l.chunk env) l.offset)

def read (l : Md5Locals H) (w : W) : Option (List UInt8) × W :=
  env.lib.flashReadBuff l.alignedAddr (l.chunk env) w

def part (l : Md5Locals H) (data : List UInt8) : List UInt8 :=
  (Memory.ofList data).read l.offset (l.slice env)

def next (l : Md5Locals H) (data : List UInt8) : Md5Locals H where
  alignedAddr := (l.alignedAddr + l.chunk env) % 2 ^ 32
  offset := 0
  remaining := sub32 l.remaining (l.slice env)
  md5Ctx := env.md5.update l.md5Ctx (l.part env data)

end Md5Locals

def StubState.readForMd5 (s : StubState W D S C) (l : Md5Locals H) : StubState W D S C :=
  { s with
    world := (l.read env s.world).2
    trace := s.trace ++ [.read l.alignedAddr (l.chunk env) (l.read env s.world).1] }

def StubState.hashed (s : StubState W D S C) (l : Md5Locals H) : StubState W D S C :=
  { s.readForMd5 env l with
    trace := (s.readForMd5 env l).trace ++ [.md5Update l.offset (l.slice env) (l.chunk env)] }

inductive Md5Round (l : Md5Locals H) (s : StubState W D S C) :
    Md5Locals H ⊕ (Int × List UInt8) → StubState W D S C → Prop where
  | finished (ended : l.remaining = 0) :
      Md5Round l s (.inr (responseSuccess, env.md5.final l.md5Ctx)) s
  | fails (more : 0 < l.remaining) (failed : (l.read env s.world).1 = none) :
      Md5Round l s (.inr (responseFailedSpiOp, [])) (s.readForMd5 env l)
  | hashes (more : 0 < l.remaining) {data : List UInt8}
      (good : (l.read env s.world).1 = some data) :
      Md5Round l s (.inl (l.next env data)) (s.hashed env l)

theorem returns_md5Step {l : Md5Locals H} {s t : StubState W D S C}
    {r : Md5Locals H ⊕ (Int × List UInt8)} (run : (md5Step env l).Returns s r t) :
    Md5Round env l s r t := by
  have unfolded : env.lib.flashReadBuff l.alignedAddr
      (env.lib.alignUp (min ((l.remaining + l.offset) % 2 ^ 32) md5BufferSize) 4) s.world =
        l.read env s.world := rfl
  unfold md5Step at run
  split_ifs at run with more
  · simp only [Stub.flashReadBuff, Prog.returns_act_bind, unfolded] at run
    cases result : (l.read env s.world).1 with
    | none =>
      simp only [result, Prog.returns_pure] at run
      have after : t = s.readForMd5 env l := by
        rw [run.2, StubState.readForMd5, result]
        rfl
      rw [run.1, after]
      exact .fails more result
    | some data =>
      simp only [result, Stub.log, Prog.returns_modify_bind, Prog.returns_pure] at run
      have after : t = s.hashed env l := by
        rw [run.2, StubState.hashed, StubState.readForMd5, result]
        rfl
      rw [run.1, after]
      exact .hashes more result
  · obtain ⟨rfl, rfl⟩ := (Prog.returns_pure _ _ _ _).mp run
    exact .finished (by omega)

theorem terminates_md5Step (l : Md5Locals H) (s : StubState W D S C) :
    (md5Step env l).Terminates s := by
  unfold md5Step
  split_ifs
  · refine (Prog.terminates_act _ s).bind fun result t _ => ?_
    cases result with
    | none => exact Prog.terminates_pure _ t
    | some data => exact (Prog.terminates_act _ t).bind fun _ u _ => Prog.terminates_pure _ u
  · exact Prog.terminates_pure _ s

theorem not_visits_md5Step (l : Md5Locals H) (s t : StubState W D S C) :
    ¬ (md5Step env l).Visits s t := by
  have never : (md5Step env l).Ensures s (fun _ => False) fun _ _ => True := by
    unfold md5Step
    split_ifs
    · refine Prog.Ensures.bind (Prog.Ensures.act ?_)
      dsimp only
      cases (env.lib.flashReadBuff l.alignedAddr _ s.world).1 with
      | none => exact Prog.Ensures.pure trivial
      | some data => exact Prog.Ensures.bind (Prog.Ensures.modify (Prog.Ensures.pure trivial))
    · exact Prog.Ensures.pure trivial
  exact never.1 t

theorem spiFlashMd5_eq {ctx : CmdCtx} (size : ctx.packetSize = spiFlashMd5Size) :
    (spiFlashMd5 env ctx : Stub W D S C _) = (do
      let r ← .loop (md5Step env) (.start env ctx)
      pure (r.1, { data := Memory.ofList r.2, dataSize := 16 })) := by
  rw [spiFlashMd5, if_neg (not_not.mpr size)]
  rfl

/-- The hash takes bytes of the buffer that were just read, and at least one. -/
def Event.InBuffer : Event → Prop
  | .md5Update offset size filled => 0 < size ∧ offset + size ≤ filled ∧ filled ≤ md5BufferSize
  | _ => True

namespace Md5Locals

structure Sane (l : Md5Locals H) : Prop where
  offset : l.offset < 4
  remaining : l.remaining < 2 ^ 32

/-- The sum that gives the size of the chunk wraps around to zero. -/
def Wraps (l : Md5Locals H) : Prop := l.remaining + l.offset = 2 ^ 32

section Arithmetic

variable {env} {l : Md5Locals H} (rounding : WordRounding env.lib)

include rounding

theorem chunk_eq : l.chunk env = (min ((l.remaining + l.offset) % 2 ^ 32) 4096 + 3) / 4 * 4 := by
  have le : min ((l.remaining + l.offset) % 2 ^ 32) md5BufferSize ≤ 4096 := min_le_right _ _
  exact rounding.alignUp _ (by omega)

theorem chunk_le : l.chunk env ≤ 4096 := by
  rw [chunk_eq rounding]
  omega

theorem slice_eq (sane : l.Sane) (more : 0 < l.remaining) (small : ¬ l.Wraps) :
    l.slice env = min l.remaining (l.chunk env - l.offset) ∧ l.offset < l.chunk env := by
  have offset := sane.offset
  have remaining := sane.remaining
  have chunk := chunk_eq (l := l) rounding
  unfold Wraps at small
  have inside : l.offset < l.chunk env := by omega
  rw [slice, sub32_of_le inside.le (by omega)]
  exact ⟨rfl, inside⟩

theorem inBuffer (sane : l.Sane) (more : 0 < l.remaining) (small : ¬ l.Wraps) :
    (Event.md5Update l.offset (l.slice env) (l.chunk env)).InBuffer := by
  obtain ⟨slice, inside⟩ := slice_eq rounding sane more small
  have le := chunk_le (l := l) rounding
  exact ⟨by omega, by omega, le⟩

theorem start_offset (ctx : CmdCtx) : (start env ctx).offset = ctx.md5Addr % 4 := by
  have bound : ctx.md5Addr < 2 ^ 32 := getLeToU32_lt _ _
  change sub32 ctx.md5Addr (env.lib.alignDown ctx.md5Addr 4) = _
  rw [rounding.alignDown, sub32_of_le (Nat.div_mul_le_self _ _) bound]
  omega

theorem start_sane (ctx : CmdCtx) : (start env ctx).Sane where
  offset := by
    rw [start_offset rounding]
    exact Nat.mod_lt _ (by decide)
  remaining := getLeToU32_lt _ _

end Arithmetic

variable {env}

theorem slice_le (l : Md5Locals H) : l.slice env ≤ l.remaining := min_le_left _ _

theorem next_remaining {l : Md5Locals H} (sane : l.Sane) (data : List UInt8) :
    (l.next env data).remaining = l.remaining - l.slice env :=
  sub32_of_le l.slice_le sane.remaining

theorem next_sane (l : Md5Locals H) (data : List UInt8) : (l.next env data).Sane :=
  ⟨Nat.succ_pos 3, sub32_lt _ _⟩

theorem next_small (l : Md5Locals H) (data : List UInt8) : ¬ (l.next env data).Wraps :=
  (sub32_lt _ _).ne

end Md5Locals

/-- Every slice that SPI_FLASH_MD5 hashes is in the buffer and was just read, and every round
that goes on makes `remaining` smaller. -/
def HashesInBuffer (ctx : CmdCtx) (s : StubState W D S C) : Prop :=
  (∀ t, (spiFlashMd5 env ctx).Reaches s t → s.Logs Event.InBuffer t) ∧
  ∀ rs l t l' u,
    Prog.Iterates (md5Step env) (fun l _ => l.remaining) (.start env ctx) s rs l t →
    (md5Step env l).Returns t (.inl l') u → l'.remaining < l.remaining

/-- What holds at a head: only good slices so far, and no wrap unless the read then fails. -/
structure Md5Locals.Confined (s : StubState W D S C) (l : Md5Locals H) (t : StubState W D S C) :
    Prop where
  sane : l.Sane
  wraps : l.Wraps → (l.read env t.world).1 = none
  logs : s.Logs Event.InBuffer t

section Confined

variable {env} (rounding : WordRounding env.lib) {l : Md5Locals H} {s t u : StubState W D S C}

include rounding

theorem Md5Locals.Confined.round (confined : l.Confined env s t)
    {r : Md5Locals H ⊕ (Int × List UInt8)} (round : Md5Round env l t r u) :
    r.elim (fun l' => l'.Confined env s u ∧ l'.remaining < l.remaining)
      fun _ => s.Logs Event.InBuffer u := by
  cases round with
  | finished ended => exact confined.logs
  | fails more failed => exact confined.logs.snoc rfl trivial
  | hashes more good =>
    have small : ¬ l.Wraps := fun wraps =>
      Option.some_ne_none _ (good.symm.trans (confined.wraps wraps))
    have slice := l.inBuffer rounding confined.sane more small
    have read : s.Logs Event.InBuffer (t.readForMd5 env l) := confined.logs.snoc rfl trivial
    refine ⟨⟨l.next_sane _, fun wraps => absurd wraps (l.next_small _), read.snoc rfl slice⟩, ?_⟩
    have hashed := slice.1
    rw [Md5Locals.next_remaining confined.sane]
    omega

theorem Md5Locals.Confined.iterates {rs : List Nat} {b : Md5Locals H} {s₀ : StubState W D S C}
    (start : b.Confined env s₀ s)
    (heads : Prog.Iterates (md5Step env) (fun l _ => l.remaining) b s rs l t) :
    l.Confined env s₀ t := by
  induction heads with
  | start => exact start
  | next before step ih => exact (ih.round rounding (returns_md5Step env step)).1

theorem hashesInBuffer_of_start {ctx : CmdCtx} (size : ctx.packetSize = spiFlashMd5Size)
    (start : (Md5Locals.start env ctx).Confined env s s) : HashesInBuffer env ctx s := by
  refine ⟨fun t reaches => ?_, fun rs l t l' u heads step => ?_⟩
  · have ensures : (spiFlashMd5 env ctx).Ensures s (s.Logs Event.InBuffer)
        fun _ => s.Logs Event.InBuffer := by
      rw [spiFlashMd5_eq env size]
      refine Prog.Ensures.bind ((Prog.Ensures.loop (Md5Locals.Confined env s)
        (fun _ _ confined => confined.logs) (fun l t confined => ?_) start).post
          fun r t logs => Prog.Ensures.pure logs)
      refine ⟨fun u visits => (not_visits_md5Step env l t u visits).elim, fun r u step => ?_⟩
      have round := confined.round rounding (returns_md5Step env step)
      cases r with
      | inl l' => exact round.1
      | inr result => exact round
    exact ensures.reaches (fun _ _ logs => logs) reaches
  · exact ((start.iterates rounding heads).round rounding (returns_md5Step env step)).2

end Confined

/-- If the sum wraps and the empty read succeeds, the hash runs off the buffer. -/
theorem not_hashesInBuffer_of_wraps (rounding : WordRounding env.lib) {ctx : CmdCtx}
    (size : ctx.packetSize = spiFlashMd5Size) {s : StubState W D S C} {data : List UInt8}
    (wraps : (Md5Locals.start env ctx).Wraps)
    (good : ((Md5Locals.start env ctx).read env s.world).1 = some data) :
    ¬ HashesInBuffer env ctx s := by
  intro hashes
  have sane := Md5Locals.start_sane rounding ctx
  have offset := sane.offset
  have sum : (Md5Locals.start env ctx).remaining +
    (Md5Locals.start env ctx).offset = 2 ^ 32 := wraps
  obtain ⟨r, t, step⟩ := terminates_md5Step env (Md5Locals.start env ctx) s
  have round := returns_md5Step env step
  cases round with
  | finished ended => omega
  | fails more failed => exact absurd (failed.symm.trans good) (Option.some_ne_none data).symm
  | hashes more good =>
    have visits : (spiFlashMd5 env ctx).Visits s (s.hashed env (.start env ctx)) := by
      rw [spiFlashMd5_eq env size]
      exact Prog.visits_bind_left _ (Prog.visits_loop_next step (Prog.visits_loop_head _ _ _))
    have trace : (s.hashed env (.start env ctx)).trace = s.trace ++
        [.read (Md5Locals.start env ctx).alignedAddr _ _, .md5Update _ _ _] :=
      List.append_assoc _ [_] [_]
    have bad := (hashes.1 _ (.inl visits)).of_trace trace _
      (List.mem_cons_of_mem _ (List.mem_singleton_self _))
    have chunk := Md5Locals.chunk_eq (l := Md5Locals.start env ctx) rounding
    have inside := bad.2.1
    have some := bad.1
    rw [sum] at chunk
    omega

theorem start_wraps_iff (rounding : WordRounding env.lib) (ctx : CmdCtx) :
    (Md5Locals.start env ctx).Wraps ↔ ctx.md5Addr % 4 + ctx.md5ReadSize = 2 ^ 32 := by
  rw [Md5Locals.Wraps, Md5Locals.start_offset rounding, Nat.add_comm]
  rfl

/-- The buffer is safe exactly if the size of the first chunk is not computed as zero, or the
read of no bytes then fails. -/
theorem md5_in_buffer_iff (rounding : WordRounding env.lib) {ctx : CmdCtx}
    (size : ctx.packetSize = spiFlashMd5Size) (s : StubState W D S C) :
    HashesInBuffer env ctx s ↔ ctx.md5Addr % 4 + ctx.md5ReadSize ≠ 2 ^ 32 ∨
      (env.lib.flashReadBuff (ctx.md5Addr / 4 * 4) 0 s.world).1 = none := by
  have empty (wraps : (Md5Locals.start env ctx).Wraps) :
      (Md5Locals.start env ctx).read env s.world =
        env.lib.flashReadBuff (ctx.md5Addr / 4 * 4) 0 s.world := by
    have chunk : (Md5Locals.start env ctx).chunk env = 0 := by
      rw [Md5Locals.chunk_eq rounding, wraps]
      rfl
    rw [Md5Locals.read, chunk, Md5Locals.start, rounding.alignDown]
  constructor
  · intro hashes
    by_contra bad
    obtain ⟨wraps, good⟩ := not_or.mp bad
    have wraps := (start_wraps_iff env rounding ctx).mpr (not_not.mp wraps)
    rw [← empty wraps] at good
    obtain ⟨data, good⟩ := Option.ne_none_iff_exists'.mp good
    exact not_hashesInBuffer_of_wraps env rounding size wraps good hashes
  · intro safe
    refine hashesInBuffer_of_start rounding size
      ⟨Md5Locals.start_sane rounding ctx, fun wraps => ?_, .refl s⟩
    obtain small | fails := safe
    · exact absurd ((start_wraps_iff env rounding ctx).mp wraps) small
    · rw [empty wraps]
      exact fails

def md5Frame (addr readSize : Nat) : Frame :=
  mkFrame espSpiFlashMd5 0 (setU32ToLe addr ++ setU32ToLe readSize ++ List.replicate 8 0)

theorem simLib_wordRounding (sector : Nat) : WordRounding (simLib sector) where
  alignDown _ := rfl
  alignUp a bound := by
    change (a + 3) % 2 ^ 32 / 4 * 4 = _
    rw [Nat.mod_eq_of_lt bound]

/-- A region of one byte less than all addresses, from the middle of a word. -/
theorem md5_in_buffer_iff_unaligned :
    HashesInBuffer (simPlatform 4096 []) (md5Frame 1 0xFFFFFFFE).ctx (simStart fun _ => 0xFF) :=
  (md5_in_buffer_iff _ (simLib_wordRounding 4096) (by decide) _).mpr (.inl (by decide))

/-- One byte more, and the first chunk is empty. -/
theorem md5_runs_off_buffer : ¬ HashesInBuffer (simPlatform 4096 [])
    (md5Frame 1 0xFFFFFFFF).ctx (simStart fun _ => 0xFF) := by
  have wraps := (start_wraps_iff (simPlatform 4096 []) (simLib_wordRounding 4096)
    (md5Frame 1 0xFFFFFFFF).ctx).mpr (by decide)
  exact not_hashesInBuffer_of_wraps (simPlatform 4096 []) (simLib_wordRounding 4096) (by decide)
    wraps rfl

/-! What is hashed. -/

/-- A chip of `chip` bytes with the given content: a read of whole words inside of it gives its
content, or fails. -/
structure Md5Contract (content : W → Memory) (chip : Nat) : Prop extends
    WordRounding env.lib where
  size : chip % 4 = 0 ∧ chip < 2 ^ 32
  read : ∀ addr size w data, addr % 4 = 0 → size % 4 = 0 → addr + size ≤ chip →
    (env.lib.flashReadBuff addr size w).1 = some data → data = (content w).read addr size
  keepsRead : ∀ addr size w, content (env.lib.flashReadBuff addr size w).2 = content w

def Event.FailedRead : Event → Prop
  | .read _ _ none => True
  | _ => False

def Event.ReadsChip (chip : Nat) : Event → Prop
  | .read addr size _ => addr % 4 = 0 ∧ size % 4 = 0 ∧ size ≤ md5BufferSize ∧ addr + size ≤ chip
  | _ => True

def hashEvent : List UInt8 × List UInt8 → Event → List UInt8 × List UInt8
  | (_, bytes), .read _ _ (some data) => (data, bytes)
  | (buffer, bytes), .md5Update offset size _ =>
    (buffer, bytes ++ (Memory.ofList buffer).read offset size)
  | state, _ => state

/-- The bytes passed to `stub_lib_md5_update` in these events, one call after the other. -/
def hashedBytes (events : List Event) : List UInt8 := (events.foldl hashEvent ([], [])).2

theorem hashedBytes_round (events : List Event) (addr size : Nat) (data : List UInt8)
    (offset slice filled : Nat) :
    hashedBytes (events ++ [.read addr size (some data), .md5Update offset slice filled]) =
      hashedBytes events ++ (Memory.ofList data).read offset slice := by
  simp [hashedBytes, hashEvent]

structure Md5Locals.Hashed (content : W → Memory) (chip : Nat) (ctx : CmdCtx)
    (s : StubState W D S C) (new : List Event) (l : Md5Locals H) (t : StubState W D S C) :
    Prop where
  sane : l.Sane
  small : ¬ l.Wraps
  kept : content t.world = content s.world
  trace : t.trace = s.trace ++ new
  reads : ∀ e ∈ new, e.ReadsChip chip ∧ ¬ e.FailedRead
  left : l.remaining ≤ ctx.md5ReadSize
  aligned : l.alignedAddr % 4 = 0
  /-- the next byte to hash is the next one to read -/
  position : 0 < l.remaining →
    l.alignedAddr + l.offset = ctx.md5Addr + (ctx.md5ReadSize - l.remaining)
  bytes : hashedBytes new =
    (content s.world).read ctx.md5Addr (ctx.md5ReadSize - l.remaining)
  digest : l.md5Ctx = env.md5.update env.md5.init (hashedBytes new)

/-- How the handler ends: at a failed read, or with the digest of the region. -/
inductive Md5Result (content : W → Memory) (ctx : CmdCtx) (s : StubState W D S C)
    (new : List Event) : Int × List UInt8 → Prop where
  | failed (read : ∃ e ∈ new, e.FailedRead) : Md5Result content ctx s new (responseFailedSpiOp, [])
  | digest (reads : ∀ e ∈ new, ¬ e.FailedRead)
      (bytes : hashedBytes new = (content s.world).read ctx.md5Addr ctx.md5ReadSize) :
      Md5Result content ctx s new
        (responseSuccess, env.md5.final (env.md5.update env.md5.init (hashedBytes new)))

section Region

variable {env} {content : W → Memory} {chip : Nat} (contract : Md5Contract env content chip)
  (hash : Incremental env.md5) {ctx : CmdCtx} {s t : StubState W D S C} {new : List Event}
  {l : Md5Locals H}

include contract

theorem Md5Locals.Hashed.start (hash : Incremental env.md5) (ctx : CmdCtx)
    (fits : ctx.md5Addr + ctx.md5ReadSize ≤ chip) (s : StubState W D S C) :
    Hashed env content chip ctx s [] (.start env ctx) s where
  sane := start_sane contract.toWordRounding ctx
  small wraps := by
    have := (start_wraps_iff env contract.toWordRounding ctx).mp wraps
    have := contract.size
    omega
  kept := rfl
  trace := by simp
  reads := by simp
  left := le_rfl
  aligned := by
    change env.lib.alignDown ctx.md5Addr 4 % 4 = 0
    rw [contract.alignDown]
    omega
  position _ := by
    rw [start_offset contract.toWordRounding]
    change env.lib.alignDown ctx.md5Addr 4 + _ = _ + (ctx.md5ReadSize - ctx.md5ReadSize)
    rw [contract.alignDown]
    omega
  bytes := by
    change [] = (content s.world).read _ (ctx.md5ReadSize - ctx.md5ReadSize)
    simp
  digest := (hash.nil _).symm

theorem Md5Locals.Hashed.readsChip (hashed : l.Hashed env content chip ctx s new t)
    (fits : ctx.md5Addr + ctx.md5ReadSize ≤ chip) (more : 0 < l.remaining)
    (result : Option (List UInt8)) :
    (Event.read l.alignedAddr (l.chunk env) result).ReadsChip chip := by
  have chunk := chunk_eq (l := l) contract.toWordRounding
  have position := hashed.position more
  have left := hashed.left
  have aligned := hashed.aligned
  have chip := contract.size
  have sum : l.remaining + l.offset < 2 ^ 32 := by omega
  rw [Nat.mod_eq_of_lt sum] at chunk
  exact ⟨aligned, by omega, chunk_le contract.toWordRounding, by omega⟩

theorem Md5Locals.Hashed.part_eq (hashed : l.Hashed env content chip ctx s new t)
    (fits : ctx.md5Addr + ctx.md5ReadSize ≤ chip) (more : 0 < l.remaining) {data : List UInt8}
    (good : (l.read env t.world).1 = some data) : l.part env data =
      (content s.world).read (ctx.md5Addr + (ctx.md5ReadSize - l.remaining)) (l.slice env) := by
  obtain ⟨slice, inside⟩ := slice_eq contract.toWordRounding hashed.sane more hashed.small
  have reads := hashed.readsChip contract fits more (some data)
  have read := contract.read _ _ _ _ hashed.aligned reads.2.1 reads.2.2.2 good
  rw [Md5Locals.part, read, Memory.read_ofList_read _ (by omega), hashed.kept,
    hashed.position more]

include hash

theorem Md5Locals.Hashed.next (hashed : l.Hashed env content chip ctx s new t)
    (fits : ctx.md5Addr + ctx.md5ReadSize ≤ chip) (more : 0 < l.remaining) {data : List UInt8}
    (good : (l.read env t.world).1 = some data) :
    (l.next env data).Hashed env content chip ctx s
      (new ++ [.read l.alignedAddr (l.chunk env) (some data),
        .md5Update l.offset (l.slice env) (l.chunk env)]) (t.hashed env l) := by
  obtain ⟨slice, inside⟩ := slice_eq contract.toWordRounding hashed.sane more hashed.small
  have reads := hashed.readsChip contract fits more (some data)
  have position := hashed.position more
  have left := hashed.left
  have chip := contract.size
  have remaining : (l.next env data).remaining = l.remaining - l.slice env :=
    Md5Locals.next_remaining hashed.sane data
  have sum : l.alignedAddr + l.chunk env < 2 ^ 32 := by
    have := reads.2.2.2
    omega
  have region := hashed.part_eq contract fits more good
  have bytes := hashedBytes_round new l.alignedAddr (l.chunk env) data l.offset (l.slice env)
    (l.chunk env)
  refine ⟨l.next_sane data, l.next_small data, ?_, ?_, ?_, ?_, ?_, ?_, ?_, ?_⟩
  · exact (contract.keepsRead _ _ _).trans hashed.kept
  · rw [StubState.hashed, StubState.readForMd5, good, hashed.trace]
    simp
  · exact List.forall_mem_append.mpr ⟨hashed.reads, by
      simpa [Event.FailedRead, Event.ReadsChip] using reads⟩
  · omega
  · change (l.alignedAddr + l.chunk env) % 2 ^ 32 % 4 = 0
    have := hashed.aligned
    have := reads.2.1
    omega
  · intro again
    change (l.alignedAddr + l.chunk env) % 2 ^ 32 + 0 = _
    omega
  · have grown : ctx.md5ReadSize - (l.next env data).remaining =
        ctx.md5ReadSize - l.remaining + l.slice env := by omega
    rw [bytes, hashed.bytes, grown, Memory.read_add, ← region]
    rfl
  · change env.md5.update l.md5Ctx (l.part env data) = _
    rw [hashed.digest, hash.append, bytes]
    rfl

theorem Md5Locals.Hashed.round (hashed : l.Hashed env content chip ctx s new t)
    (fits : ctx.md5Addr + ctx.md5ReadSize ≤ chip) {r : Md5Locals H ⊕ (Int × List UInt8)}
    {u : StubState W D S C} (round : Md5Round env l t r u) :
    r.elim (fun l' => (∃ new', l'.Hashed env content chip ctx s new' u) ∧
        l'.remaining < l.remaining)
      fun result => ∃ new', u.trace = s.trace ++ new' ∧ (∀ e ∈ new', e.ReadsChip chip) ∧
        Md5Result env content ctx s new' result := by
  cases round with
  | finished ended =>
    refine ⟨new, hashed.trace, fun e mem => (hashed.reads e mem).1, ?_⟩
    rw [hashed.digest]
    refine .digest (fun e mem => (hashed.reads e mem).2) ?_
    rw [hashed.bytes, ended, Nat.sub_zero]
  | fails more failed =>
    refine ⟨new ++ [.read l.alignedAddr (l.chunk env) none], ?_, ?_,
      .failed ⟨.read l.alignedAddr (l.chunk env) none, by simp, trivial⟩⟩
    · rw [StubState.readForMd5, failed, hashed.trace, List.append_assoc]
    · exact List.forall_mem_append.mpr ⟨fun e mem => (hashed.reads e mem).1,
        List.forall_mem_singleton.mpr (hashed.readsChip contract fits more none)⟩
  | hashes more good =>
    have slice := (inBuffer contract.toWordRounding hashed.sane more hashed.small).1
    refine ⟨⟨_, hashed.next contract hash fits more good⟩, ?_⟩
    rw [Md5Locals.next_remaining hashed.sane]
    omega

/-- SPI_FLASH_MD5 ends, and has hashed exactly the region unless a read has failed. -/
theorem md5_hashes_region (size : ctx.packetSize = spiFlashMd5Size)
    (fits : ctx.md5Addr + ctx.md5ReadSize ≤ chip) (s : StubState W D S C) :
    ∃ result response t new, (spiFlashMd5 env ctx).Returns s (result, response) t ∧
      t.trace = s.trace ++ new ∧ (∀ e ∈ new, e.ReadsChip chip) ∧
      ((∃ e ∈ new, e.FailedRead) ∧ result = responseFailedSpiOp ∨
        (∀ e ∈ new, ¬ e.FailedRead) ∧ result = responseSuccess ∧
          hashedBytes new = (content s.world).read ctx.md5Addr ctx.md5ReadSize ∧
          response.dataSize = 16 ∧ response.data = Memory.ofList (env.md5.final
            (env.md5.update env.md5.init
              ((content s.world).read ctx.md5Addr ctx.md5ReadSize)))) := by
  have start := Md5Locals.Hashed.start contract hash ctx fits s
  obtain ⟨result, t, run, new, trace, reads, correct⟩ : ∃ result t,
      (Prog.loop (md5Step env) (.start env ctx)).Returns s result t ∧ ∃ new,
        t.trace = s.trace ++ new ∧ (∀ e ∈ new, e.ReadsChip chip) ∧
        Md5Result env content ctx s new result := by
    refine Prog.exists_returns_loop
      (fun l t => ∃ new, Md5Locals.Hashed env content chip ctx s new l t)
      (fun l _ => l.remaining) (fun l t inv => ?_) ⟨[], start⟩
    obtain ⟨new, hashed⟩ := inv
    obtain ⟨r, u, step⟩ := terminates_md5Step env l t
    exact ⟨r, u, step, hashed.round contract hash fits (returns_md5Step env step)⟩
  have returns : (spiFlashMd5 env ctx).Returns s
      (result.1, { data := Memory.ofList result.2, dataSize := 16 }) t := by
    rw [spiFlashMd5_eq env size, Prog.returns_bind]
    exact ⟨result, t, run, (Prog.returns_pure _ _ _ _).mpr ⟨rfl, rfl⟩⟩
  refine ⟨_, _, t, new, returns, trace, reads, ?_⟩
  cases correct with
  | failed read => exact .inl ⟨read, rfl⟩
  | digest reads bytes => exact .inr ⟨reads, rfl, bytes, rfl, by rw [bytes]⟩

end Region

theorem simPlatform_md5Contract (script : List SimInflate) :
    Md5Contract (simPlatform 4096 script) SimWorld.content (2 ^ 32 - 4) where
  toWordRounding := simLib_wordRounding 4096
  size := by decide
  read _ _ _ _ _ _ _ good := (Option.some.inj good).symm
  keepsRead _ _ _ := rfl

/-- Two bytes from the middle of a word. -/
theorem md5_hashes_region_unaligned : ∃ result response t new,
    (spiFlashMd5 (simPlatform 4096 []) (md5Frame 1 2).ctx).Returns
      (simStart (Memory.ofList [0x10, 0x11, 0x12, 0x13])) (result, response) t ∧
      t.trace = new ∧ ((∃ e ∈ new, e.FailedRead) ∨ hashedBytes new = [0x11, 0x12]) := by
  have size : (md5Frame 1 2).ctx.packetSize = spiFlashMd5Size := by decide
  obtain ⟨result, response, t, new, run, trace, -, correct⟩ := md5_hashes_region
    (simPlatform_md5Contract []) simMd5_incremental size (by decide)
    (simStart (Memory.ofList [0x10, 0x11, 0x12, 0x13]))
  exact ⟨result, response, t, new, run, trace,
    correct.imp (fun failed => failed.1) fun success => success.2.2.1⟩

end FlasherStub
