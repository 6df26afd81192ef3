import FlasherStub.FlashLedger
import FlasherStub.MainLoop
import FlasherStub.StaleBytes

/-! The requests of a flash session as the host encodes them, and what the stub reads off each of
them, whatever the receive buffer held before. -/

namespace FlasherStub

open ByteMemory Budget

/-- The stub finds this command, checksum and payload in the frame. -/
structure Frame.Carries (f : Frame) (command checksum : Nat) (payload : List UInt8) : Prop where
  ok : f.HeaderOk
  command : f.ctx.command = command
  checksum : f.ctx.checksum = checksum
  size : f.ctx.packetSize = payload.length
  payload : f.ctx.mem.read f.ctx.data payload.length = payload

variable {W S C : Type}

namespace Frame

variable {f : Frame} {command checksum : Nat} {payload : List UInt8}

theorem length_bytes (f : Frame) : f.bytes.length = f.size := Memory.length_read _ _ _

theorem carries_of_bytes (byte : command < 2 ^ 8) (word : checksum < 2 ^ 32)
    (small : payload.length < 2 ^ 16) (same : f.bytes = (mkFrame command checksum payload).bytes) :
    f.Carries command checksum payload := by
  have size : f.size = headerSize + payload.length := by
    rw [← f.length_bytes, same, length_bytes]
    rfl
  have agree (a : Nat) (inside : a < headerSize + payload.length) :
      f.buffer a = (mkFrame command checksum payload).buffer a := by
    have read : f.buffer.read 0 (headerSize + payload.length) =
        (mkFrame command checksum payload).buffer.read 0 (headerSize + payload.length) := by
      rw [← size]
      exact same.trans (by rw [Frame.bytes, size]; rfl)
    have here := congrArg (fun l => l[a]?) read
    simpa [List.getElem?_eq_getElem, inside] using here
  have packet : f.ctx.packetSize = payload.length := by
    have header : (getLeToU16 (mkFrame command checksum payload).buffer 2) = payload.length := by
      simpa [mkFrame] using getLeToU16_setU16ToLe [0, UInt8.ofNat command]
        (setU32ToLe checksum ++ payload) small
    rw [← header]
    exact getLeToU16_congr fun a _ less => agree a (by change a < 8 + _; omega)
  refine ⟨⟨?_, ?_⟩, ?_, ?_, packet, ?_⟩
  · change (f.buffer 0).toNat = _
    rw [agree 0 (by change 0 < 8 + _; omega)]
    rfl
  · rw [size, packet]
    exact Nat.add_comm _ _
  · change (f.buffer 1).toNat = _
    rw [agree 1 (by change 1 < 8 + _; omega)]
    exact UInt8.toNat_ofNat_of_lt' byte
  · have header : getLeToU32 (mkFrame command checksum payload).buffer 4 = checksum := by
      simpa [mkFrame, setU16ToLe] using getLeToU32_setU32ToLe
        ([0, UInt8.ofNat command] ++ setU16ToLe payload.length) payload word
    rw [← header]
    exact getLeToU32_congr fun a _ less => agree a (by change a < 8 + _; omega)
  · have body : (mkFrame command checksum payload).buffer.read headerSize payload.length =
        payload := by
      simpa [mkFrame, setU16ToLe, setU32ToLe] using Memory.read_ofList_append
        ([0, UInt8.ofNat command] ++ setU16ToLe payload.length ++ setU32ToLe checksum) payload []
    refine Eq.trans (Memory.read_congr fun a _ less => agree a less) body

theorem Carries.word (h : f.Carries command checksum payload) {k : Nat}
    (inside : k + 4 ≤ payload.length) :
    getLeToU32 f.ctx.mem (f.ctx.data + k) = getLeToU32 (Memory.ofList payload) k := by
  have byte (i : Nat) (less : i < payload.length) :
      f.ctx.mem (f.ctx.data + i) = Memory.ofList payload i := by
    have here := congrArg (fun l => l.getD i 0) h.payload
    simpa [Memory.ofList, less] using here
  simp only [getLeToU32, Nat.add_assoc, byte k (by omega), byte (k + 1) (by omega),
    byte (k + 2) (by omega), byte (k + 3) (by omega)]

end Frame

/-- The payload of a BEGIN that asks for no encryption. -/
def beginPayload (total numBlocks blockSize offset : Nat) : List UInt8 :=
  setU32ToLe total ++ setU32ToLe numBlocks ++ setU32ToLe blockSize ++ setU32ToLe offset

def dataFrames (command : Nat) : (seq : Nat) → List (List UInt8) → List Frame
  | _, [] => []
  | seq, block :: blocks => dataFrame command seq block :: dataFrames command (seq + 1) blocks

/-- What a host asks of the stub in a session, in blocks that fit a frame. -/
structure Upload (sector : Nat) where
  isCompressed : Bool
  offset : Nat
  total : Nat
  numBlocks : Nat
  blockSize : Nat
  blocks : List (List UInt8)
  some : 0 < total
  inChip : (offset + total + (sector - 1)) / sector * sector < 2 ^ 32
  fits : ∀ block ∈ blocks, block.length + 24 ≤ frameBufferSize

namespace Upload

variable {sector : Nat} (u : Upload sector)

def beginCommand : Nat := if u.isCompressed then espFlashDeflBegin else espFlashBegin

def dataCommand : Nat := if u.isCompressed then espFlashDeflData else espFlashData

def endCommand : Nat := if u.isCompressed then espFlashDeflEnd else espFlashEnd

def beginRequest : Frame :=
  mkFrame u.beginCommand 0 (beginPayload u.total u.numBlocks u.blockSize u.offset)

def requests : List (List UInt8) :=
  (u.beginRequest :: (dataFrames u.dataCommand 0 u.blocks ++ [endFrame u.endCommand])).map
    Frame.bytes

theorem below (pos : 0 < sector) : u.offset + u.total < 2 ^ 32 :=
  lt_of_le_of_lt (le_roundUp pos _) u.inChip

theorem beginCommand_lt : u.beginCommand < 2 ^ 8 := by
  unfold beginCommand
  split_ifs <;> decide

theorem dataCommand_lt : u.dataCommand < 2 ^ 8 := by
  unfold dataCommand
  split_ifs <;> decide

theorem endCommand_lt : u.endCommand < 2 ^ 8 := by
  unfold endCommand
  split_ifs <;> decide

theorem begins : Opcode.ofByte u.beginCommand = .flashBegin ∨
    Opcode.ofByte u.beginCommand = .flashDeflBegin := by
  unfold beginCommand
  split_ifs
  · exact .inr rfl
  · exact .inl rfl

theorem ends : (Opcode.ofByte u.endCommand).IsFlashEnd := by
  unfold endCommand
  split_ifs
  · exact .inr rfl
  · exact .inl rfl

end Upload

structure Frame.AsksFor {sector : Nat} (f : Frame) (u : Upload sector) : Prop where
  command : f.ctx.command = u.beginCommand
  begins : f.Begins
  total : f.ctx.beginTotal = u.total
  offset : f.ctx.beginOffset = u.offset
  plain : f.ctx.beginEncrypt = false
  carries : f.Carries u.beginCommand 0 (beginPayload u.total u.numBlocks u.blockSize u.offset)

structure Frame.Brings (f : Frame) (command seq : Nat) (block : List UInt8) : Prop where
  command : f.ctx.command = command
  ok : f.HeaderOk
  size : f.ctx.packetSize = 16 + block.length
  length : getLeToU32 f.ctx.mem f.ctx.data = block.length
  seq : seq < 2 ^ 32 → f.seq = seq
  payload : f.ctx.mem.read (f.ctx.data + 16) block.length = block
  checksum : validateChecksum f.ctx.mem (f.ctx.data + 16) block.length f.ctx.checksum =
    responseSuccess

/-- END, with no data of its own. -/
structure Frame.Closes (f : Frame) (command : Nat) : Prop where
  command : f.ctx.command = command
  ok : f.HeaderOk
  size : f.ctx.packetSize = flashEndSize

section Parse

variable {f : Frame} {sector : Nat} {u : Upload sector}

theorem asksFor_of_bytes (pos : 0 < sector) (same : f.bytes = u.beginRequest.bytes) :
    f.AsksFor u := by
  have below := u.below pos
  have carries := f.carries_of_bytes u.beginCommand_lt (by decide)
    (by simp [beginPayload, setU32ToLe]) same
  have size : f.ctx.packetSize = flashBeginSize := carries.size
  have opcode : Opcode.ofByte f.ctx.command = .flashBegin ∨
      Opcode.ofByte f.ctx.command = .flashDeflBegin := carries.command ▸ u.begins
  refine ⟨carries.command, ⟨carries.ok, opcode, .inl size⟩, ?_, ?_, ?_, carries⟩
  · have word := carries.word (k := 0) (by simp [beginPayload, setU32ToLe])
    refine word.trans ?_
    have total := getLeToU32_setU32ToLe []
      (setU32ToLe u.numBlocks ++ setU32ToLe u.blockSize ++ setU32ToLe u.offset)
      (by omega : u.total < 2 ^ 32)
    simpa only [beginPayload, List.append_assoc, List.nil_append, List.length_nil] using total
  · have word := carries.word (k := 12) (by simp [beginPayload, setU32ToLe])
    refine word.trans ?_
    have offset := getLeToU32_setU32ToLe
      (setU32ToLe u.total ++ setU32ToLe u.numBlocks ++ setU32ToLe u.blockSize) []
      (by omega : u.offset < 2 ^ 32)
    rw [List.append_nil] at offset
    exact offset
  · rw [CmdCtx.beginEncrypt, size]
    rfl

theorem Frame.AsksFor.announced (h : f.AsksFor u) (small : u.numBlocks < 2 ^ 32)
    (small' : u.blockSize < 2 ^ 32) :
    getLeToU32 f.ctx.mem (f.ctx.data + 4) = u.numBlocks ∧
      getLeToU32 f.ctx.mem (f.ctx.data + 8) = u.blockSize := by
  refine ⟨?_, ?_⟩
  · refine (h.carries.word (k := 4) (by simp [beginPayload, setU32ToLe])).trans ?_
    have word := getLeToU32_setU32ToLe (setU32ToLe u.total)
      (setU32ToLe u.blockSize ++ setU32ToLe u.offset) small
    rwa [← List.append_assoc, ← List.append_assoc] at word
  · refine (h.carries.word (k := 8) (by simp [beginPayload, setU32ToLe])).trans ?_
    exact getLeToU32_setU32ToLe (setU32ToLe u.total ++ setU32ToLe u.numBlocks)
      (setU32ToLe u.offset) small'

theorem length_dataPayload (seq : Nat) (block : List UInt8) :
    (setU32ToLe block.length ++ setU32ToLe seq ++ List.replicate 8 0 ++ block).length =
      16 + block.length := by
  simp only [List.length_append, List.length_replicate]
  exact congrArg (· + block.length) (rfl : 4 + 4 + 8 = 16)

theorem brings_of_bytes {command seq : Nat} {block : List UInt8} (byte : command < 2 ^ 8)
    (fits : block.length + 24 ≤ frameBufferSize)
    (same : f.bytes = (dataFrame command seq block).bytes) : f.Brings command seq block := by
  have buffer : frameBufferSize = 16647 := rfl
  have sum : block.foldl (fun checksum b => checksum ^^^ b.toNat) 0xEF < 2 ^ 8 :=
    xorSum_lt block (by decide)
  have long := length_dataPayload seq block
  have carries := f.carries_of_bytes byte (sum.trans (by decide)) (by omega) same
  have body : f.ctx.mem.read (f.ctx.data + 16) block.length = block := by
    have whole := carries.payload
    rw [long, Memory.read_add] at whole
    exact (List.append_inj whole (by simp [setU32ToLe])).2
  have below : block.length < 2 ^ 32 := by omega
  refine ⟨carries.command, carries.ok, carries.size.trans long, ?_, fun small => ?_, body, ?_⟩
  · refine (carries.word (k := 0) (by omega)).trans ?_
    simpa only [List.append_assoc, List.nil_append, List.length_nil] using
      getLeToU32_setU32ToLe [] (setU32ToLe seq ++ (List.replicate 8 0 ++ block)) below
  · refine (carries.word (k := 4) (by omega)).trans ?_
    have word := getLeToU32_setU32ToLe (setU32ToLe block.length) (List.replicate 8 0 ++ block) small
    rwa [← List.append_assoc, ← List.append_assoc] at word
  · rw [validateChecksum, body, carries.checksum]
    exact if_neg (not_not.mpr rfl)

theorem closes_of_bytes {command : Nat} (byte : command < 2 ^ 8)
    (same : f.bytes = (endFrame command).bytes) : f.Closes command := by
  have carries := f.carries_of_bytes byte (by decide) (by simp [setU32ToLe]) same
  exact ⟨carries.command, carries.ok, carries.size⟩

end Parse

/-- The frames bring the blocks, counted from `seq`. -/
inductive BringAll (command : Nat) : (seq : Nat) → List Frame → List (List UInt8) → Prop where
  | nil {seq : Nat} : BringAll command seq [] []
  | cons {seq : Nat} {d : Frame} {datas : List Frame} {block : List UInt8}
      {blocks : List (List UInt8)} (first : d.Brings command seq block)
      (later : BringAll command (seq + 1) datas blocks) :
    BringAll command seq (d :: datas) (block :: blocks)

section Session

variable {command seq : Nat} {datas : List Frame} {blocks : List (List UInt8)}

theorem bringAll_of_bytes (byte : command < 2 ^ 8)
    (fits : ∀ block ∈ blocks, block.length + 24 ≤ frameBufferSize)
    (same : datas.map Frame.bytes = (dataFrames command seq blocks).map Frame.bytes) :
    BringAll command seq datas blocks := by
  induction blocks generalizing datas seq with
  | nil =>
    obtain rfl := List.map_eq_nil_iff.mp same
    exact .nil
  | cons block blocks ih =>
    obtain ⟨d, rest, rfl, first, later⟩ := List.map_eq_cons_iff.mp same
    exact .cons (brings_of_bytes byte (fits block (by simp)) first)
      (ih (fun b mem => fits b (by simp [mem])) later)

theorem BringAll.commands (h : BringAll command seq datas blocks) :
    ∀ d ∈ datas, d.ctx.command = command := by
  induction h with
  | nil => simp
  | cons first _ ih => exact List.forall_mem_cons.mpr ⟨first.command, ih⟩

structure Upload.Received {sector : Nat} (u : Upload sector) (f : Frame) (datas : List Frame)
    (g : Frame) : Prop where
  first : f.AsksFor u
  brings : BringAll u.dataCommand 0 datas u.blocks
  last : g.Closes u.endCommand

theorem session_of_bytes {begin_ : Frame} {c e : Nat} (byte : c < 2 ^ 8) (byte' : e < 2 ^ 8)
    (fits : ∀ block ∈ blocks, block.length + 24 ≤ frameBufferSize) {frames : List Frame}
    (same : frames.map Frame.bytes =
      (begin_ :: (dataFrames c 0 blocks ++ [endFrame e])).map Frame.bytes) :
    ∃ f datas g, frames = f :: (datas ++ [g]) ∧ f.bytes = begin_.bytes ∧
      BringAll c 0 datas blocks ∧ g.Closes e := by
  rw [List.map_cons, List.map_append] at same
  obtain ⟨f, rest, rfl, first, rest_⟩ := List.map_eq_cons_iff.mp same
  obtain ⟨datas, last, rfl, brings, last_⟩ := List.map_eq_append_iff.mp rest_
  obtain ⟨g, none, rfl, last, none_⟩ := List.map_eq_cons_iff.mp last_
  obtain rfl := List.map_eq_nil_iff.mp none_
  exact ⟨f, datas, g, rfl, first, bringAll_of_bytes byte fits brings, closes_of_bytes byte' last⟩

theorem Upload.received {sector : Nat} (u : Upload sector) (pos : 0 < sector)
    {frames : List Frame} (same : frames.map Frame.bytes = u.requests) :
    ∃ f datas g, frames = f :: (datas ++ [g]) ∧ u.Received f datas g := by
  obtain ⟨f, datas, g, rfl, first, brings, last⟩ :=
    session_of_bytes u.dataCommand_lt u.endCommand_lt u.fits same
  exact ⟨f, datas, g, rfl, asksFor_of_bytes pos first, brings, last⟩

end Session

section Shape

theorem opcodeOf_mkFrame {command : Nat} (byte : command < 2 ^ 8) (checksum : Nat)
    (payload : List UInt8) : opcodeOf (mkFrame command checksum payload).bytes =
      Opcode.ofByte command := by
  have long : 1 < (mkFrame command checksum payload).bytes.length := by
    rw [Frame.length_bytes]
    exact Nat.lt_add_right _ (by decide)
  rw [opcodeOf, List.getD_eq_getElem _ _ long]
  simp only [Frame.bytes, Memory.getElem_read]
  exact congrArg Opcode.ofByte (UInt8.toNat_ofNat_of_lt' byte)

theorem length_mkFrame (command checksum : Nat) (payload : List UInt8) :
    (mkFrame command checksum payload).bytes.length = headerSize + payload.length :=
  Frame.length_bytes _

/-- A request that a frame of the SLIP receiver can hold. -/
structure FitsFrame (p : List UInt8) : Prop where
  header : headerSize ≤ p.length
  buffer : p.length ≤ frameBufferSize

theorem FitsFrame.isFrame {p : List UInt8} (h : FitsFrame p) : IsFrame p := by
  refine ⟨?_, h.buffer⟩
  rintro rfl
  exact absurd h.header (by decide)

theorem fitsFrame_dataFrames {command seq : Nat} (byte : command < 2 ^ 8)
    {blocks : List (List UInt8)}
    (fits : ∀ block ∈ blocks, block.length + 24 ≤ frameBufferSize) :
    ∀ d ∈ dataFrames command seq blocks,
      FitsFrame d.bytes ∧ opcodeOf d.bytes = Opcode.ofByte command := by
  induction blocks generalizing seq with
  | nil => simp [dataFrames]
  | cons block blocks ih =>
    refine List.forall_mem_cons.mpr ⟨⟨?_, opcodeOf_mkFrame byte _ _⟩,
      ih fun b mem => fits b (by simp [mem])⟩
    have here := fits block (by simp)
    have header : headerSize = 8 := rfl
    have length := length_mkFrame command
      (block.foldl (fun checksum b => checksum ^^^ b.toNat) 0xEF)
      (setU32ToLe block.length ++ setU32ToLe seq ++ List.replicate 8 0 ++ block)
    rw [length_dataPayload] at length
    exact ⟨by rw [dataFrame, length]; omega, by rw [dataFrame, length]; omega⟩

theorem session_kind {command checksum c e : Nat} {payload : List UInt8}
    (byte : command < 2 ^ 8) (byte' : c < 2 ^ 8) (byte'' : e < 2 ^ 8) (words : payload.length = 16)
    {blocks : List (List UInt8)} (fits : ∀ block ∈ blocks, block.length + 24 ≤ frameBufferSize)
    {p : List UInt8}
    (mem : p ∈ (mkFrame command checksum payload :: (dataFrames c 0 blocks ++ [endFrame e])).map
      Frame.bytes) :
    FitsFrame p ∧ (p = (mkFrame command checksum payload).bytes ∧
        opcodeOf p = Opcode.ofByte command ∨
      opcodeOf p = Opcode.ofByte c ∨ opcodeOf p = Opcode.ofByte e) := by
  obtain ⟨f, sent, rfl⟩ := List.mem_map.mp mem
  obtain rfl | later := List.mem_cons.mp sent
  · refine ⟨?_, .inl ⟨rfl, opcodeOf_mkFrame byte _ _⟩⟩
    have length := length_mkFrame command checksum payload
    rw [words] at length
    exact ⟨length ▸ by decide, length ▸ by decide⟩
  obtain block | last := List.mem_append.mp later
  · obtain ⟨fits, opcode⟩ := fitsFrame_dataFrames byte' fits f block
    exact ⟨fits, .inr (.inl opcode)⟩
  · obtain rfl := List.mem_singleton.mp last
    have length : (endFrame e).bytes.length = 12 := length_mkFrame _ _ _
    exact ⟨⟨length ▸ by decide, length ▸ by decide⟩, .inr (.inr (opcodeOf_mkFrame byte'' _ _))⟩

theorem Upload.request_kind {sector : Nat} (u : Upload sector) {p : List UInt8}
    (mem : p ∈ u.requests) : FitsFrame p ∧
      (p = u.beginRequest.bytes ∧ opcodeOf p = Opcode.ofByte u.beginCommand ∨
        opcodeOf p = Opcode.ofByte u.dataCommand ∨ opcodeOf p = Opcode.ofByte u.endCommand) :=
  session_kind u.beginCommand_lt u.dataCommand_lt u.endCommand_lt rfl u.fits mem

theorem Upload.conversational {sector : Nat} (u : Upload sector) {plugin : Plugin W S C} :
    ∀ p ∈ u.requests, Conversational plugin p := by
  intro p mem
  obtain ⟨fits, kind⟩ := u.request_kind mem
  have data : Opcode.ofByte u.dataCommand = .flashData ∨
      Opcode.ofByte u.dataCommand = .flashDeflData := by
    unfold dataCommand
    split_ifs
    · exact .inr rfl
    · exact .inl rfl
  have session : opcodeOf p = .flashBegin ∨ opcodeOf p = .flashDeflBegin ∨
      opcodeOf p = .flashData ∨ opcodeOf p = .flashDeflData ∨ (opcodeOf p).IsFlashEnd := by
    obtain ⟨-, h⟩ | h | h := kind
    · exact h ▸ u.begins.imp_right .inl
    · exact h ▸ .inr (.inr (data.imp_right .inl))
    · exact h ▸ .inr (.inr (.inr (.inr u.ends)))
  refine ⟨fits.isFrame, ?_, ?_, fun idx => ?_⟩
  all_goals obtain h | h | h | h | h | h := session <;> simp [h]

end Shape

end FlasherStub
