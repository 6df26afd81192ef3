import FlasherStub.Platform

/-! The flash session of `command_handler.c`: erase-ahead, the plain and the
compressed write path, and BEGIN and END. -/

namespace FlasherStub

open ByteMemory Budget

def sub32 (a b : Nat) : Nat := (a + (2 ^ 32 - b)) % 2 ^ 32

theorem sub32_of_le {a b : Nat} (h : b ≤ a) (ha : a < 2 ^ 32) : sub32 a b = a - b := by
  unfold sub32
  omega

theorem sub32_lt (a b : Nat) : sub32 a b < 2 ^ 32 := Nat.mod_lt _ (by omega)

/-- `TINFL_LZ_DICT_SIZE` -/
abbrev tinflLzDictSize : Nat := 32768

/-- `sizeof(buf)` in `s_sector_is_blank` -/
abbrev blankChunkSize : Nat := 4096

variable {W D H S C : Type} (env : Platform W D H S C)

def checkFlashInProgress (s : StubState W D S C) : Int :=
  if s.flash.inProgress then responseSuccess else responseNotInFlashMode

def wordsBlank (bytes : List UInt8) (count : Nat) : Bool :=
  (List.range count).all fun i => getLeToU32 (Memory.ofList bytes) (4 * i) == 0xFFFFFFFF

/-- The result code and `*is_blank`. -/
def sectorIsBlank (addr sectorSize : Nat) : Stub W D S C (Int × Bool) :=
  .loop (fun off => do
    if off < sectorSize then
      let chunk := min (sectorSize - off) blankChunkSize
      match ← Stub.flashReadBuff env ((addr + off) % 2 ^ 32) chunk with
      | none => pure (.inr (responseFailedSpiOp, true))
      | some bytes =>
        if wordsBlank bytes (chunk / 4) then pure (.inl ((off + blankChunkSize) % 2 ^ 32))
        else pure (.inr (responseSuccess, false))
    else pure (.inr (responseSuccess, true))) 0

/-- The last step of `s_conditional_erase_next`. -/
def startErase : Stub W D S C Int := do
  let s ← .get
  let next ← Stub.flashStartNextErase env s.flash.nextEraseAddr s.flash.eraseRemaining
  .modify fun s => { s with flash :=
    { s.flash with nextEraseAddr := next.addr, eraseRemaining := next.remaining } }
  if next.result ≠ .ok ∧ next.result ≠ .errTimeout then pure responseFailedSpiOp
  else pure responseSuccess

/-- The blank branch of `s_conditional_erase_next`. -/
def skipSector (sectorSize : Nat) : Stub W D S C Unit := .modify fun s =>
  let step := min s.flash.eraseRemaining sectorSize
  { s with flash := { s.flash with
      nextEraseAddr := (s.flash.nextEraseAddr + sectorSize) % 2 ^ 32
      eraseRemaining := sub32 s.flash.eraseRemaining step } }

def conditionalEraseNext : Stub W D S C Int := do
  let s ← .get
  if s.flash.eraseRemaining = 0 then pure responseSuccess
  else if s.dirtySeen then startErase env
  else
    let config := env.lib.flashGetConfig s.world
    let (readResult, blank) ← sectorIsBlank env s.flash.nextEraseAddr config.sectorSize
    if readResult ≠ responseSuccess then pure readResult
    else if blank then
      skipSector config.sectorSize
      pure responseSuccess
    else
      .modify fun s => { s with dirtySeen := true }
      startErase env

def ensureFlashErasedTo (targetAddr : Nat) : Stub W D S C Int :=
  .loop (fun _ : Unit => do
    let s ← .get
    if s.flash.nextEraseAddr < targetAddr then
      let result ← conditionalEraseNext env
      if result ≠ responseSuccess then pure (.inr result) else pure (.inl ())
    else pure (.inr responseSuccess)) ()

/-- The session fields that BEGIN reads from its payload. -/
def beginSession (ctx : CmdCtx) (isCompressed : Bool) (s : StubState W D S C) :
    StubState W D S C :=
  let numBlocks := getLeToU32 ctx.mem (ctx.data + 4)
  let blockSize := getLeToU32 ctx.mem (ctx.data + 8)
  { s with flash :=
    { s.flash with
      totalRemaining := getLeToU32 ctx.mem ctx.data
      numBlocks, blockSize
      offset := getLeToU32 ctx.mem (ctx.data + 12)
      encrypt := ctx.packetSize = flashBeginEncSize ∧ getLeToU32 ctx.mem (ctx.data + 16) ≠ 0
      inProgress := true
      compressedRemaining :=
        if isCompressed then numBlocks * blockSize % 2 ^ 32 else s.flash.compressedRemaining
      decompressor :=
        if isCompressed then env.tinfl.init s.flash.decompressor else s.flash.decompressor } }

/-- The sector-rounded region to erase, and the reset of the blank heuristic. -/
def beginErase (s : StubState W D S C) : StubState W D S C :=
  let config := env.lib.flashGetConfig s.world
  let eraseStart := env.lib.alignDown s.flash.offset config.sectorSize
  let eraseEnd := env.lib.alignUp ((s.flash.offset + s.flash.totalRemaining) % 2 ^ 32)
    config.sectorSize
  { s with
    dirtySeen := false
    flash := { s.flash with
      eraseRemaining := sub32 eraseEnd eraseStart
      nextEraseAddr := eraseStart } }

def initFlashOperation (ctx : CmdCtx) (isCompressed : Bool) : Stub W D S C Int := do
  if ctx.packetSize ≠ flashBeginSize ∧ ctx.packetSize ≠ flashBeginEncSize then
    pure responseBadDataLen
  else
    .modify (beginSession env ctx isCompressed)
    .modify (beginErase env)
    conditionalEraseNext env

/-- The reboot flag is read by the source and not used. -/
def handleFlashEnd (ctx : CmdCtx) : Stub W D S C Int := do
  let s ← .get
  if ctx.packetSize ≠ flashEndSize then pure responseBadDataLen
  else if checkFlashInProgress s ≠ responseSuccess then pure (checkFlashInProgress s)
  else if s.flash.totalRemaining ≠ 0 then pure responseBadDataLen
  else
    .modify fun s => { s with flash := { decompressor := env.tinfl.zero } }
    pure responseSuccess

def writeFlashData (data : List UInt8) : Stub W D S C Int := do
  let size := data.length
  let s ← .get
  Stub.log (.request s.flash.offset size s.flash.totalRemaining)
  let result ← ensureFlashErasedTo env ((s.flash.offset + size) % 2 ^ 32)
  if result ≠ responseSuccess then pure result
  else
    let s ← .get
    let libResult ← Stub.flashWriteBuff env s.flash.offset data s.flash.encrypt
    if libResult ≠ .ok then pure responseFailedSpiOp
    else
      .modify fun s => { s with flash :=
        { s.flash with
          totalRemaining := sub32 s.flash.totalRemaining size
          offset := (s.flash.offset + size) % 2 ^ 32 } }
      pure responseSuccess

/-- `(uint16_t)(ctx->packet_size - FLASH_DATA_HEADER_SIZE)` -/
def actualDataSize (ctx : CmdCtx) : Nat :=
  (ctx.packetSize + 2 ^ 16 - flashDataHeaderSize) % 2 ^ 16

def flashDataPostProcess (ctx : CmdCtx) : Stub W D S C Int := do
  let s ← .get
  let writeSize := min (actualDataSize ctx) s.flash.totalRemaining
  writeFlashData env (ctx.mem.read (ctx.data + flashDataHeaderSize) writeSize)

structure DeflLocals where
  compressedRemaining : Nat
  flags : TinflFlags
  status : TinflStatus

/-- One `tinfl_decompress` call and the update of the window. -/
def inflate (input : List UInt8) (outBytes : Nat) (flags : TinflFlags) :
    Stub W D S C (TinflResult D) := .act fun s =>
  let r := env.tinfl.decompress s.flash.decompressor input s.decompressedData
    s.decompressedDataPtr outBytes flags
  (r, { s with
    decompressedData := s.decompressedData.write s.decompressedDataPtr r.out
    decompressedDataPtr := s.decompressedDataPtr + r.out.length
    flash := { s.flash with
      decompressor := r.decompressor
      compressedRemaining := sub32 s.flash.compressedRemaining r.inBytes }
    trace := s.trace ++ [.inflate outBytes r.out r.status] })

def flushWindow : Stub W D S C Int := do
  let s ← .get
  let writeResult ← writeFlashData env (s.decompressedData.read 0 s.decompressedDataPtr)
  if writeResult ≠ responseSuccess then pure writeResult
  else
    .modify fun s => { s with decompressedDataPtr := 0 }
    pure responseSuccess

def deflDataStep (ctx : CmdCtx) (dataSize : Nat) (l : DeflLocals) :
    Stub W D S C (DeflLocals ⊕ Int) := do
  if l.status.aboveDone ∧ 0 < l.compressedRemaining then
    let s ← .get
    let outBytes := sub32 tinflLzDictSize s.decompressedDataPtr
    let flags := if s.flash.compressedRemaining > l.compressedRemaining
      then { l.flags with hasMoreInput := true } else l.flags
    -- opportunistic conditional erase during decompression
    let result ← conditionalEraseNext env
    if result ≠ responseSuccess then pure (.inr result)
    else
      let compressedData := ctx.data + flashDeflDataHeaderSize
      let r ← inflate env (ctx.mem.read (compressedData + dataSize - l.compressedRemaining)
        l.compressedRemaining) outBytes flags
      let next : DeflLocals :=
        { compressedRemaining := sub32 l.compressedRemaining r.inBytes
          flags := ⟨false, false⟩
          status := r.status }
      let s ← .get
      if r.status = .done ∨ tinflLzDictSize ≤ s.decompressedDataPtr then
        let writeResult ← flushWindow env
        if writeResult ≠ responseSuccess then pure (.inr writeResult) else pure (.inl next)
      else pure (.inl next)
  else if l.status = .failed then pure (.inr responseInflateError)
  else pure (.inr responseSuccess)

def flashDeflDataPostProcess (ctx : CmdCtx) : Stub W D S C Int := do
  let dataSize := getLeToU32 ctx.mem ctx.data
  let seq := getLeToU32 ctx.mem (ctx.data + 4)
  if seq = 0 then .modify fun s => { s with decompressedDataPtr := 0 }
  .loop (deflDataStep env ctx dataSize)
    { compressedRemaining := dataSize
      flags := { parseZlibHeader := seq = 0, hasMoreInput := false }
      status := .needsMoreInput }

end FlasherStub
