import FlasherStub.Flash

/-! The remaining command handlers of `command_handler.c` and their post-process
callbacks. A handler gives its response code; those that fill the response give
it as well. -/

namespace FlasherStub

open ByteMemory Budget

variable {W D H S C : Type} (env : Platform W D H S C)

/-- `s_validate_checksum` over `size` bytes from `p` on. -/
def validateChecksum (mem : Memory) (p size expected : Nat) : Int :=
  let checksum := (mem.read p size).foldl (fun checksum b => checksum ^^^ b.toNat) 0xEF
  if checksum ≠ expected then responseBadDataChecksum else responseSuccess

/-- The frame built by `s_send_response`. -/
def responseFrame (command : Nat) (responseCode : Int) (responseData : Option ResponseData) :
    List UInt8 :=
  let resp := responseData.getD {}
  let dataSize := min resp.dataSize maxResponseDataSize
  [UInt8.ofNat directionResponse, UInt8.ofNat command] ++ setU16ToLe (dataSize + 2) ++
    setU32ToLe resp.value ++ resp.data.read 0 dataSize ++
    setU16ToBe (responseCode % 2 ^ 16).toNat

def sendResponse (command : Nat) (responseCode : Int) (responseData : Option ResponseData) :
    Stub W D S C Unit :=
  Stub.sendFrame env (responseFrame command responseCode responseData)

def setPendingPostProcess (p : PostProcess C) : Stub W D S C Unit :=
  .modify fun s => { s with pendingPostProcess := some p }

/-- The first `n` of the eight SYNC responses. -/
def sendSyncs : Nat → Stub W D S C Unit
  | 0 => pure ()
  | n + 1 => do
    sendResponse env espSync responseSuccess none
    sendSyncs n

def sync (ctx : CmdCtx) : Stub W D S C Int := do
  if ctx.packetSize ≠ syncSize then pure responseBadDataLen
  else
    sendSyncs env 7
    pure responseSuccess

def flashBegin (ctx : CmdCtx) : Stub W D S C Int := initFlashOperation env ctx false

def flashData (ctx : CmdCtx) : Stub W D S C Int := do
  let s ← .get
  if ctx.packetSize < flashDataHeaderSize then pure responseNotEnoughData
  else if checkFlashInProgress s ≠ responseSuccess then pure (checkFlashInProgress s)
  else if getLeToU32 ctx.mem ctx.data ≠ actualDataSize ctx then pure responseTooMuchData
  else
    let checksumResult := validateChecksum ctx.mem (ctx.data + flashDataHeaderSize)
      (actualDataSize ctx) ctx.checksum
    if checksumResult ≠ responseSuccess then pure checksumResult
    else
      setPendingPostProcess .flashData
      pure responseSuccess

def flashEnd (ctx : CmdCtx) : Stub W D S C Int := handleFlashEnd env ctx

def flashDeflBegin (ctx : CmdCtx) : Stub W D S C Int := initFlashOperation env ctx true

def flashDeflData (ctx : CmdCtx) : Stub W D S C Int := do
  let s ← .get
  if ctx.packetSize < flashDeflDataHeaderSize then pure responseBadDataLen
  else if checkFlashInProgress s ≠ responseSuccess then pure (checkFlashInProgress s)
  else
    let dataSize := getLeToU32 ctx.mem ctx.data
    let checksumResult := validateChecksum ctx.mem (ctx.data + flashDeflDataHeaderSize)
      dataSize ctx.checksum
    if checksumResult ≠ responseSuccess then pure checksumResult
    else
      setPendingPostProcess .flashDeflData
      pure responseSuccess

def flashDeflEnd (ctx : CmdCtx) : Stub W D S C Int := handleFlashEnd env ctx

def memBegin (ctx : CmdCtx) : Stub W D S C Int := do
  if ctx.packetSize ≠ memBeginSize then pure responseBadDataLen
  else
    .modify fun s => { s with memory :=
      { totalRemaining := getLeToU32 ctx.mem ctx.data
        numBlocks := getLeToU32 ctx.mem (ctx.data + 4)
        blockSize := getLeToU32 ctx.mem (ctx.data + 8)
        offset := getLeToU32 ctx.mem (ctx.data + 12)
        inProgress := true } }
    pure responseSuccess

def checkMemoryInProgress (s : StubState W D S C) : Int :=
  if s.memory.inProgress then responseSuccess else responseNotInFlashMode

def memData (ctx : CmdCtx) : Stub W D S C Int := do
  let s ← .get
  let dataLen := getLeToU32 ctx.mem ctx.data
  if ctx.packetSize < memDataHeaderSize then pure responseNotEnoughData
  else if checkMemoryInProgress s ≠ responseSuccess then pure (checkMemoryInProgress s)
  else if s.memory.totalRemaining < dataLen then pure responseTooMuchData
  else if dataLen ≠ actualDataSize ctx then pure responseTooMuchData
  else
    let size := actualDataSize ctx
    let memData := ctx.mem.read (ctx.data + memDataHeaderSize) size
    .modify fun s => { s with
      world := env.lib.memcpy s.memory.offset memData s.world
      trace := s.trace ++ [.store s.memory.offset memData]
      memory := { s.memory with
        offset := (s.memory.offset + size) % 2 ^ 32
        totalRemaining := sub32 s.memory.totalRemaining size } }
    pure responseSuccess

/-- The code at the entry point may change the device; it is taken to return. -/
def memEndPostProcess (ctx : CmdCtx) : Stub W D S C Int := do
  let flag := getLeToU32 ctx.mem ctx.data
  let entrypoint := getLeToU32 ctx.mem (ctx.data + 4)
  if flag = 0 then
    Stub.device env.lib.uartTxFlush
    Stub.device (env.lib.runUserRamCode entrypoint)
  pure responseSuccess

def memEnd (ctx : CmdCtx) : Stub W D S C Int := do
  let s ← .get
  if ctx.packetSize ≠ memEndSize then pure responseBadDataLen
  else if checkMemoryInProgress s ≠ responseSuccess then pure (checkMemoryInProgress s)
  else
    .modify fun s => { s with memory := {} }
    setPendingPostProcess .memEnd
    pure responseSuccess

/-- `count` entries from the `i`-th on. -/
def writeRegEntries (ctx : CmdCtx) : (i count : Nat) → Stub W D S C Unit
  | _, 0 => pure ()
  | i, count + 1 => do
    let p := ctx.data + i * writeRegEntrySize
    let addr := getLeToU32 ctx.mem p
    let value := getLeToU32 ctx.mem (p + 4)
    let mask := getLeToU32 ctx.mem (p + 8)
    let delayUs := getLeToU32 ctx.mem (p + 12)
    .modify fun s =>
      let w := env.lib.delayUs delayUs s.world
      if mask ≠ 0xFFFFFFFF then
        let (old, w) := env.lib.regRead addr w
        let writeValue := value &&& mask ||| old &&& (mask ^^^ 0xFFFFFFFF)
        { s with world := env.lib.regWrite addr writeValue w }
      else { s with world := env.lib.regWrite addr (value &&& mask) w }
    writeRegEntries ctx (i + 1) count

def writeReg (ctx : CmdCtx) : Stub W D S C Int := do
  if ctx.packetSize = 0 ∨ ctx.packetSize % writeRegEntrySize ≠ 0 then pure responseNotEnoughData
  else
    writeRegEntries env ctx 0 (ctx.packetSize / writeRegEntrySize)
    pure responseSuccess

def readReg (ctx : CmdCtx) : Stub W D S C (Int × CommandResponseData C) := do
  if ctx.packetSize ≠ readRegSize then pure (responseBadDataLen, {})
  else
    let value ← .act fun s =>
      let (value, world) := env.lib.regRead (getLeToU32 ctx.mem ctx.data) s.world
      (value, { s with world })
    pure (responseSuccess, { value })

def spiAttach (ctx : CmdCtx) : Stub W D S C Int := do
  if ctx.packetSize ≠ spiAttachSize then pure responseBadDataLen
  else
    Stub.device (env.lib.flashAttach (getLeToU32 ctx.mem ctx.data))
    pure responseSuccess

def spiSetParams (ctx : CmdCtx) : Stub W D S C Int := do
  if ctx.packetSize ≠ spiSetParamsSize then pure responseBadDataLen
  else
    let config : FlashConfig :=
      { flashId := getLeToU32 ctx.mem ctx.data
        flashSize := getLeToU32 ctx.mem (ctx.data + 4)
        blockSize := getLeToU32 ctx.mem (ctx.data + 8)
        sectorSize := getLeToU32 ctx.mem (ctx.data + 12)
        pageSize := getLeToU32 ctx.mem (ctx.data + 16)
        statusMask := getLeToU32 ctx.mem (ctx.data + 20) }
    let result ← .act fun s =>
      let (result, world) := env.lib.flashUpdateConfig config s.world
      (result, { s with world })
    if result ≠ .ok then pure responseFailedSpiOp else pure responseSuccess

def changeBaudratePostProcess (ctx : CmdCtx) : Stub W D S C Int := do
  Stub.device (env.lib.uartSetBaudrate (getLeToU32 ctx.mem ctx.data))
  pure responseSuccess

def changeBaudrate (ctx : CmdCtx) : Stub W D S C Int := do
  if ctx.packetSize ≠ changeBaudrateSize then pure responseBadDataLen
  else
    setPendingPostProcess .changeBaudrate
    pure responseSuccess

structure Md5Locals (H : Type) where
  alignedAddr : Nat
  offset : Nat
  remaining : Nat
  md5Ctx : H

/-- `sizeof(data)` in `s_spi_flash_md5` -/
abbrev md5BufferSize : Nat := 4096

def md5Step (l : Md5Locals H) : Stub W D S C (Md5Locals H ⊕ (Int × List UInt8)) := do
  if 0 < l.remaining then
    let chunkSize := min ((l.remaining + l.offset) % 2 ^ 32) md5BufferSize
    let alignedChunkSize := env.lib.alignUp chunkSize 4
    match ← Stub.flashReadBuff env l.alignedAddr alignedChunkSize with
    | none => pure (.inr (responseFailedSpiOp, []))
    | some data =>
      let bytesToHash := min l.remaining (sub32 alignedChunkSize l.offset)
      Stub.log (.md5Update l.offset bytesToHash alignedChunkSize)
      pure (.inl
        { alignedAddr := (l.alignedAddr + alignedChunkSize) % 2 ^ 32
          offset := 0
          remaining := sub32 l.remaining bytesToHash
          md5Ctx := env.md5.update l.md5Ctx ((Memory.ofList data).read l.offset bytesToHash) })
  else pure (.inr (responseSuccess, env.md5.final l.md5Ctx))

def spiFlashMd5 (ctx : CmdCtx) : Stub W D S C (Int × CommandResponseData C) := do
  if ctx.packetSize ≠ spiFlashMd5Size then pure (responseBadDataLen, { dataSize := 16 })
  else
    let addr := getLeToU32 ctx.mem ctx.data
    let alignedAddr := env.lib.alignDown addr 4
    let (result, md5Hash) ← .loop (md5Step env)
      { alignedAddr
        offset := sub32 addr alignedAddr
        remaining := getLeToU32 ctx.mem (ctx.data + 4)
        md5Ctx := env.md5.init }
    pure (result, { data := Memory.ofList md5Hash, dataSize := 16 })

def getSecurityInfo (ctx : CmdCtx) : Stub W D S C (Int × CommandResponseData C) := do
  if ctx.packetSize ≠ getSecurityInfoSize then pure (responseBadDataLen, {})
  else
    let size := env.lib.securityInfoSize
    let (ret, info) ← .act fun s =>
      let (result, world) := env.lib.getSecurityInfo s.world
      (result, { s with world })
    match ret with
    | .ok => pure (responseSuccess,
        { data := Memory.ofList (info.take size), dataSize := size % 2 ^ 16 })
    | .errNotSupported => pure (responseCmdNotImplemented, {})
    | .errInvalidArg => pure (responseBadDataLen, {})
    | .fail | .errTimeout => pure (responseBadDataLen, {})

structure ReadLocals (H : Type) where
  offset : Nat
  readSizeRemaining : Nat
  sentPackets : Nat
  ackedDataSize : Nat
  ackedPackets : Nat
  md5Ctx : H

/-- `sizeof(data)` in `s_read_flash_post_process` -/
abbrev readBufferSize : Nat := 4102

abbrev maxUnackedPackets : Nat := 1

def recvPoll : Stub W D S C RecvPoll := .act fun s =>
  let (polled, world) := env.transport.recvPoll s.world
  (polled, { s with world })

/-- Take an acknowledgement if one arrived; `none` for a frame of another size. -/
def pollAck (l : ReadLocals H) : Stub W D S C (Option (ReadLocals H)) := do
  match ← recvPoll env with
  | .none => pure (some l)
  | .error =>
    Stub.device env.transport.recvRelease
    pure (some l)
  | .frame ack =>
    if ack.length ≠ 4 then pure none
    else
      Stub.device env.transport.recvRelease
      pure (some { l with
        ackedDataSize := getLeToU32 (Memory.ofList ack) 0
        ackedPackets := (l.ackedPackets + 1) % 2 ^ 32 })

/-- Read, hash and send the next packet; `none` if the flash read fails. -/
def sendReadPacket (packetSize : Nat) (l : ReadLocals H) :
    Stub W D S C (Option (ReadLocals H)) := do
  let actualReadSize := min l.readSizeRemaining packetSize
  let alignedOffset := env.lib.alignDown l.offset 4
  let alignOffset := sub32 l.offset alignedOffset
  let alignedSize := env.lib.alignUp ((actualReadSize + alignOffset) % 2 ^ 32) 4
  match ← Stub.flashReadBuff env alignedOffset alignedSize with
  | none => pure none
  | some data =>
    let actualData := (Memory.ofList data).read alignOffset actualReadSize
    Stub.sendFrame env actualData
    pure (some { l with
      offset := (l.offset + actualReadSize) % 2 ^ 32
      readSizeRemaining := sub32 l.readSizeRemaining actualReadSize
      sentPackets := (l.sentPackets + 1) % 2 ^ 32
      md5Ctx := env.md5.update l.md5Ctx actualData })

/-- The loop ends with a digest, or with the code of a failed read. -/
def readFlashStep (readSize packetSize : Nat) (l : ReadLocals H) :
    Stub W D S C (ReadLocals H ⊕ Except Int H) := do
  if 0 < l.readSizeRemaining ∨ l.ackedDataSize < readSize then
    match ← pollAck env l with
    | none => pure (.inr (.ok l.md5Ctx))
    | some l =>
      if 0 < l.readSizeRemaining ∧ sub32 l.sentPackets l.ackedPackets < maxUnackedPackets then
        match ← sendReadPacket env packetSize l with
        | none => pure (.inr (.error responseFailedSpiOp))
        | some l => pure (.inl l)
      else pure (.inl l)
  else pure (.inr (.ok l.md5Ctx))

def readFlashPostProcess (ctx : CmdCtx) : Stub W D S C Int := do
  let offset := getLeToU32 ctx.mem ctx.data
  let readSize := getLeToU32 ctx.mem (ctx.data + 4)
  let packetSize := getLeToU32 ctx.mem (ctx.data + 8)
  if readBufferSize - 6 < packetSize then pure responseBadDataLen
  else
    Stub.device env.transport.recvRelease
    let exit ← .loop (readFlashStep env readSize packetSize)
      { offset
        readSizeRemaining := readSize
        sentPackets := 0
        ackedDataSize := 0
        ackedPackets := 0
        md5Ctx := env.md5.init }
    match exit with
    | .error code => pure code
    | .ok md5Ctx =>
      Stub.sendFrame env (env.md5.final md5Ctx)
      pure responseSuccess

def readFlash (ctx : CmdCtx) : Stub W D S C Int := do
  if ctx.packetSize ≠ readFlashSize then pure responseBadDataLen
  else
    setPendingPostProcess .readFlash
    pure responseSuccess

def eraseFlash : Stub W D S C Int := do
  let result ← .act fun s =>
    let (result, world) := env.lib.flashEraseChip s.world
    (result, { s with world })
  if result ≠ .ok then pure responseFailedSpiOp else pure responseSuccess

abbrev erasePerSectorTimeoutUs : Nat := 120000

/-- The variables `addr`, `erase_size` and `timeout_us` of the erase loop. -/
structure EraseLocals where
  addr : Nat
  eraseSize : Nat
  timeoutUs : Nat

def eraseRegionStep (l : EraseLocals) : Stub W D S C (EraseLocals ⊕ Nat) := do
  if 0 < l.eraseSize ∧ 0 < l.timeoutUs then
    let next ← Stub.flashStartNextErase env l.addr l.eraseSize
    Stub.device (env.lib.delayUs 1)
    pure (.inl
      { addr := next.addr, eraseSize := next.remaining, timeoutUs := l.timeoutUs - 1 })
  else pure (.inr l.timeoutUs)

def eraseRegion (ctx : CmdCtx) : Stub W D S C Int := do
  if ctx.packetSize ≠ eraseRegionSize then pure responseBadDataLen
  else
    let s ← .get
    let addr := getLeToU32 ctx.mem ctx.data
    let eraseSize := getLeToU32 ctx.mem (ctx.data + 4)
    let config := env.lib.flashGetConfig s.world
    -- all `uint32_t`, widened to `uint64_t` only when stored
    let sectors := sub32 ((eraseSize + config.sectorSize) % 2 ^ 32) 1 / config.sectorSize
    let timeoutUs := sectors * erasePerSectorTimeoutUs % 2 ^ 32
    if addr % config.sectorSize ≠ 0 ∨ eraseSize % config.sectorSize ≠ 0 then
      pure responseBadDataLen
    else
      let left ← .loop (eraseRegionStep env) { addr, eraseSize, timeoutUs }
      let result ← .act fun s =>
        let (result, world) := env.lib.flashWaitReady left s.world
        (result, { s with world })
      if result ≠ .ok then pure responseFailedSpiOp else pure responseSuccess

end FlasherStub
