import FlasherStub.Dispatch

/-! The NAND plugin of `nand_plugin.c`. The driver functions
`stub_target_nand_*` are parameters; the ghost list `calls` records, in order,
the erase and write calls and their results. -/

namespace FlasherStub

open ByteMemory Budget

abbrev nandPageSize : Nat := 2048
abbrev nandPagesPerBlock : Nat := 64
abbrev nandBlockSize : Nat := nandPageSize * nandPagesPerBlock
abbrev nandBlockCount : Nat := 1024
abbrev nandChecksumInit : Nat := 0xEF
abbrev writeBbmIsBadOffset : Nat := 4
abbrev readPageDebugPreviewSize : Nat := 16
abbrev nandMaxUnackedPackets : Nat := 1

/-- Results of the driver: 0, the two chip-level failures, any other code. -/
inductive NandResult where
  | ok
  | programFailed
  | eraseFailed
  | otherError
deriving DecidableEq

inductive NandReg where
  | status
  | protect

structure NandDriver (W : Type) where
  attach : Nat → W → Int × W
  readId : W → (Nat × Nat) × W
  readRegister : NandReg → W → Nat × W
  readBbm : (page : Nat) → W → Option (List UInt8) × W
  writeBbm : (page isBad : Nat) → W → NandResult × W
  getPageSize : W → Nat
  readPage : (page size : Nat) → W → Option (List UInt8) × W
  eraseBlock : (page : Nat) → W → NandResult × W
  writePage : (page : Nat) → (data : List UInt8) → W → NandResult × W

inductive NandCall where
  | eraseBlock (page : Nat) (result : NandResult)
  | writePage (page : Nat) (data : List UInt8) (result : NandResult)
deriving DecidableEq

def NandCall.result : NandCall → NandResult
  | .eraseBlock _ r | .writePage _ _ r => r

structure NandWriteState where
  offset : Nat := 0
  totalRemaining : Nat := 0
  pageBuf : Memory := fun _ => 0
  pageBufFilled : Nat := 0
  inProgress : Bool := false

structure NandReadState where
  offset : Nat := 0
  readSize : Nat := 0
  packetSize : Nat := 0

structure NandState where
  write : NandWriteState := {}
  read : NandReadState := {}
  calls : List NandCall := []

/-- The plugin registers one post-process callback. -/
inductive NandCallback where
  | readFlash

abbrev NandResponse := CommandResponseData NandCallback

abbrev NandStub (W α : Type) := Prog (NandState × W) α

variable {W H : Type} (driver : NandDriver W)

namespace NandStub

def call {α : Type} (f : W → α × W) : NandStub W α := .act fun s =>
  let (a, w) := f s.2
  (a, (s.1, w))

def eraseBlock (page : Nat) : NandStub W NandResult := .act fun s =>
  let (r, w) := driver.eraseBlock page s.2
  (r, ({ s.1 with calls := s.1.calls ++ [.eraseBlock page r] }, w))

def writePage (page : Nat) (data : List UInt8) : NandStub W NandResult := .act fun s =>
  let (r, w) := driver.writePage page data s.2
  (r, ({ s.1 with calls := s.1.calls ++ [.writePage page data r] }, w))

def modifyWrite (f : NandWriteState → NandWriteState) : NandStub W Unit := .modify fun s =>
  ({ s.1 with write := f s.1.write }, s.2)

end NandStub

def nandErrToResponse : NandResult → Int
  | .ok => responseSuccess
  | .programFailed => responseNandProgramFailed
  | .eraseFailed => responseNandEraseFailed
  | .otherError => responseFailedSpiOp

/-- The `write_page` half of `s_nand_write_flush_page`. -/
def nandWriteFullPage (pageNumber : Nat) : NandStub W Int := do
  let s ← .get
  let ret ← NandStub.writePage driver pageNumber (s.1.write.pageBuf.read 0 nandPageSize)
  if ret ≠ .ok then pure (nandErrToResponse ret)
  else
    NandStub.modifyWrite fun w =>
      { w with offset := (w.offset + nandPageSize) % 2 ^ 32, pageBufFilled := 0 }
    pure responseSuccess

def nandWriteFlushPage : NandStub W Int := do
  let s ← .get
  let pageNumber := s.1.write.offset / nandPageSize
  if pageNumber % nandPagesPerBlock = 0 then
    let ret ← NandStub.eraseBlock driver pageNumber
    if ret ≠ .ok then pure (nandErrToResponse ret) else nandWriteFullPage driver pageNumber
  else nandWriteFullPage driver pageNumber

def nandPluginAttach (mem : Memory) (data len : Nat) (resp : NandResponse) :
    NandStub W (Int × NandResponse) := do
  if len ≠ spiNandAttachSize then pure (responseBadDataLen, resp)
  else
    let result ← NandStub.call (driver.attach (getLeToU32 mem data))
    if result ≠ 0 then
      pure (responseFailedSpiOp, { resp with value := (result % 2 ^ 32).toNat })
    else
      let (mfrId, devId) ← NandStub.call driver.readId
      let statusReg ← NandStub.call (driver.readRegister .status)
      let protReg ← NandStub.call (driver.readRegister .protect)
      pure (responseSuccess, { resp with
        value := (statusReg <<< 24 ||| mfrId <<< 16 ||| devId) % 2 ^ 32
        data := resp.data.write 0 [UInt8.ofNat protReg]
        dataSize := 1 })

def nandPluginReadBbm (mem : Memory) (data len : Nat) (resp : NandResponse) :
    NandStub W (Int × NandResponse) := do
  if len ≠ spiNandReadBbmSize then pure (responseBadDataLen, resp)
  else
    match ← NandStub.call (driver.readBbm (getLeToU32 mem data)) with
    | none => pure (responseFailedSpiOp, resp)
    | some spare =>
      pure (responseSuccess, { resp with value := getLeToU32 (Memory.ofList spare) 0 })

def nandPluginWriteBbm (mem : Memory) (data len : Nat) (resp : NandResponse) :
    NandStub W (Int × NandResponse) := do
  if len ≠ spiNandWriteBbmSize then pure (responseBadDataLen, resp)
  else
    let isBad := (mem (data + writeBbmIsBadOffset)).toNat
    let ret ← NandStub.call (driver.writeBbm (getLeToU32 mem data) isBad)
    if ret ≠ .ok then pure (responseFailedSpiOp, resp) else pure (responseSuccess, resp)

def nandPluginReadFlash (mem : Memory) (data len : Nat) (resp : NandResponse) :
    NandStub W (Int × NandResponse) := do
  if len ≠ spiNandReadFlashSize then pure (responseBadDataLen, resp)
  else
    let offset := getLeToU32 mem data
    let readSize := getLeToU32 mem (data + 4)
    let packetSize := getLeToU32 mem (data + 8)
    let s ← .get
    let pageSize := driver.getPageSize s.2
    if pageSize = 0 ∨ pageSize ≠ nandPageSize then pure (responseFailedSpiOp, resp)
    else if packetSize = 0 ∨ nandPageSize * 2 < packetSize then pure (responseBadDataLen, resp)
    else
      .modify fun s => ({ s.1 with read := { offset, readSize, packetSize } }, s.2)
      pure (responseSuccess, { resp with postProcess := some .readFlash })

def nandPluginWriteFlashBegin (mem : Memory) (data len : Nat) (resp : NandResponse) :
    NandStub W (Int × NandResponse) := do
  if len ≠ spiNandWriteFlashBeginSize then pure (responseBadDataLen, resp)
  else
    let offset := getLeToU32 mem data
    let totalSize := getLeToU32 mem (data + 4)
    if offset % nandPageSize ≠ 0 then pure (responseBadDataLen, resp)
    else
      NandStub.modifyWrite fun w => { w with
        offset, totalRemaining := totalSize, pageBufFilled := 0, inProgress := true }
      pure (responseSuccess, resp)

structure NandCopy where
  src : Nat
  toProcess : Nat

/-- Move as much of the payload as fits into the page buffer. -/
def nandFillChunk (mem : Memory) (l : NandCopy) : NandStub W NandCopy := do
  let s ← .get
  let space := sub32 nandPageSize s.1.write.pageBufFilled
  let chunk := if l.toProcess < space then l.toProcess else space
  NandStub.modifyWrite fun w => { w with
    pageBuf := w.pageBuf.write w.pageBufFilled (mem.read l.src chunk)
    pageBufFilled := (w.pageBufFilled + chunk) % 2 ^ 32
    totalRemaining := sub32 w.totalRemaining chunk }
  pure { src := l.src + chunk, toProcess := sub32 l.toProcess chunk }

def nandCopyStep (mem : Memory) (l : NandCopy) : NandStub W (NandCopy ⊕ Int) := do
  if 0 < l.toProcess then
    let next ← nandFillChunk mem l
    let s ← .get
    if nandPageSize ≤ s.1.write.pageBufFilled then
      let ret ← nandWriteFlushPage driver
      if ret ≠ responseSuccess then
        NandStub.modifyWrite fun w => { w with pageBufFilled := 0 }
        pure (.inr ret)
      else pure (.inl next)
    else pure (.inl next)
  else pure (.inr responseSuccess)

/-- The checksum is read from the frame header, 4 bytes before the payload. -/
def nandPluginWriteFlashData (mem : Memory) (data len : Nat) (resp : NandResponse) :
    NandStub W (Int × NandResponse) := do
  let s ← .get
  if len < spiNandWriteFlashDataHeaderSize then pure (responseNotEnoughData, resp)
  else if ¬ s.1.write.inProgress then pure (responseNotInFlashMode, resp)
  else
    let dataLen := getLeToU32 mem data
    let flashData := data + spiNandWriteFlashDataHeaderSize
    let actualDataSize := len - spiNandWriteFlashDataHeaderSize
    if dataLen ≠ actualDataSize then pure (responseTooMuchData, resp)
    else if s.1.write.totalRemaining < actualDataSize then pure (responseTooMuchData, resp)
    else
      let checksum := (mem.read flashData actualDataSize).foldl
        (fun checksum b => checksum ^^^ b.toNat) nandChecksumInit
      if checksum ≠ getLeToU32 mem (data - 4) then pure (responseBadDataChecksum, resp)
      else
        let toProcess := min actualDataSize s.1.write.totalRemaining
        let ret ← .loop (nandCopyStep driver mem) { src := flashData, toProcess }
        pure (ret, resp)

/-- Pad the last page with `0xFF` and write it. -/
def nandFlushPadded : NandStub W Int := do
  NandStub.modifyWrite fun w => { w with
    pageBuf := w.pageBuf.write w.pageBufFilled
      (List.replicate (nandPageSize - w.pageBufFilled) 0xFF)
    pageBufFilled := nandPageSize }
  let ret ← nandWriteFlushPage driver
  if ret ≠ responseSuccess then
    NandStub.modifyWrite fun w => { w with pageBufFilled := 0 }
    pure ret
  else pure responseSuccess

def nandPluginWriteFlashEnd (len : Nat) (resp : NandResponse) :
    NandStub W (Int × NandResponse) := do
  let s ← .get
  if len ≠ spiNandWriteFlashEndSize then pure (responseBadDataLen, resp)
  else if ¬ s.1.write.inProgress then pure (responseNotInFlashMode, resp)
  else if s.1.write.totalRemaining ≠ 0 then pure (responseBadDataLen, resp)
  else
    let ret ← if 0 < s.1.write.pageBufFilled then nandFlushPadded driver
      else pure responseSuccess
    if ret ≠ responseSuccess then pure (ret, resp)
    else
      NandStub.modifyWrite fun _ => {}
      pure (responseSuccess, resp)

/-- Erase `count` blocks from `page` on, up to the first failure. -/
def nandEraseBlocks (page : Nat) : (count : Nat) → NandStub W Int
  | 0 => pure responseSuccess
  | count + 1 => do
    let ret ← NandStub.eraseBlock driver page
    if ret ≠ .ok then pure (nandErrToResponse ret)
    else nandEraseBlocks ((page + nandPagesPerBlock) % 2 ^ 32) count

def nandPluginEraseFlash (resp : NandResponse) : NandStub W (Int × NandResponse) := do
  let ret ← nandEraseBlocks driver 0 nandBlockCount
  pure (ret, resp)

def nandPluginEraseRegion (mem : Memory) (data len : Nat) (resp : NandResponse) :
    NandStub W (Int × NandResponse) := do
  if len ≠ eraseRegionSize then pure (responseBadDataLen, resp)
  else
    let offset := getLeToU32 mem data
    let eraseSize := getLeToU32 mem (data + 4)
    if offset % nandBlockSize ≠ 0 ∨ eraseSize % nandBlockSize ≠ 0 then
      pure (responseBadDataLen, resp)
    else
      let ret ← nandEraseBlocks driver (offset / nandPageSize) (eraseSize / nandBlockSize)
      pure (ret, resp)

def nandPluginReadPageDebug (mem : Memory) (data len : Nat) (resp : NandResponse) :
    NandStub W (Int × NandResponse) := do
  if len ≠ spiNandReadPageDebugSize then pure (responseBadDataLen, resp)
  else
    let pageNumber := getLeToU32 mem data
    let s ← .get
    let pageSize := driver.getPageSize s.2
    if pageSize = 0 ∨ pageSize ≠ nandPageSize then pure (responseFailedSpiOp, resp)
    else
      match ← NandStub.call (driver.readPage pageNumber pageSize) with
      | none => pure (responseFailedSpiOp, resp)
      | some pageBuf => pure (responseSuccess, { resp with
          value := pageNumber
          data := resp.data.write 0 ((Memory.ofList pageBuf).read 0 readPageDebugPreviewSize)
          dataSize := readPageDebugPreviewSize })

/-! The read stream runs as a post-process callback, with the transport. -/

abbrev NandIo (W α : Type) := Prog (PluginIo W NandState) α

/-- `bytes_filled` and `*current_offset` of `nand_fill_send_buf`. -/
structure NandFill where
  filled : List UInt8
  currentOffset : Nat

/-- `none` for a failed page read; `current_offset` stays where it got to. -/
def nandFillStep (actualReadSize : Nat) (l : NandFill) :
    NandIo W (NandFill ⊕ (Option (List UInt8) × Nat)) := do
  if l.filled.length < actualReadSize then
    let pageNumber := l.currentOffset / nandPageSize
    let pageOffset := l.currentOffset % nandPageSize
    let chunk := min (nandPageSize - pageOffset) (actualReadSize - l.filled.length)
    let page ← .act fun s =>
      let (page, world) := driver.readPage pageNumber nandPageSize s.world
      (page, { s with world })
    match page with
    | none => pure (.inr (none, l.currentOffset))
    | some pageBuf => pure (.inl
        { filled := l.filled ++ (Memory.ofList pageBuf).read pageOffset chunk
          currentOffset := (l.currentOffset + chunk) % 2 ^ 32 })
  else pure (.inr (some l.filled, l.currentOffset))

def nandFillSendBuf (currentOffset actualReadSize : Nat) :
    NandIo W (Option (List UInt8) × Nat) :=
  .loop (nandFillStep driver actualReadSize) { filled := [], currentOffset }

structure NandReadLocals (H : Type) where
  readSizeRemaining : Nat
  sentPackets : Nat
  ackedDataSize : Nat
  ackedPackets : Nat
  currentOffset : Nat
  readFailed : Bool
  md5Ctx : H

section
variable (md5 : Md5 H) (transport : TransportOps W)

def nandIoSend (frame : List UInt8) : NandIo W Unit := .modify fun s =>
  { s with world := transport.sendFrame frame s.world, sent := s.sent ++ [frame] }

def nandIoRelease : NandIo W Unit := .modify fun s =>
  { s with world := transport.recvRelease s.world }

def nandPollAck (l : NandReadLocals H) : NandIo W (NandReadLocals H) := do
  let polled ← .act fun s =>
    let (polled, world) := transport.recvPoll s.world
    (polled, { s with world })
  match polled with
  | .none => pure l
  | .error =>
    nandIoRelease transport
    pure l
  | .frame ack =>
    let l := if ack.length = 4 then
        { l with
          ackedDataSize := getLeToU32 (Memory.ofList ack) 0
          ackedPackets :=
            if l.ackedPackets < l.sentPackets then (l.ackedPackets + 1) % 2 ^ 32
            else l.ackedPackets }
      else l
    nandIoRelease transport
    pure l

def nandSendPacket (packetSize : Nat) (l : NandReadLocals H) : NandIo W (NandReadLocals H) := do
  let actualReadSize :=
    if packetSize < l.readSizeRemaining then packetSize else l.readSizeRemaining
  let (filled, currentOffset) ←
    if l.readFailed then pure (none, l.currentOffset)
    else nandFillSendBuf driver l.currentOffset actualReadSize
  let sendBuf := filled.getD (List.replicate actualReadSize 0)
  nandIoSend transport sendBuf
  pure { l with
    readSizeRemaining := sub32 l.readSizeRemaining actualReadSize
    sentPackets := (l.sentPackets + 1) % 2 ^ 32
    currentOffset
    readFailed := filled.isNone
    md5Ctx := md5.update l.md5Ctx sendBuf }

def nandReadStep (readSize packetSize : Nat) (l : NandReadLocals H) :
    NandIo W (NandReadLocals H ⊕ NandReadLocals H) := do
  if 0 < l.readSizeRemaining ∨ l.ackedDataSize < readSize then
    let l ← nandPollAck transport l
    let unackedPackets := if l.ackedPackets ≤ l.sentPackets
      then l.sentPackets - l.ackedPackets else 0
    if 0 < l.readSizeRemaining ∧ unackedPackets < nandMaxUnackedPackets then
      let l ← nandSendPacket driver md5 transport packetSize l
      pure (.inl l)
    else pure (.inl l)
  else pure (.inr l)

/-- After a failed page read the digest is sent complemented. -/
def nandReadFlashPostProcess : NandIo W Int := do
  let s ← .get
  let read := s.statics.read
  nandIoRelease transport
  let l ← .loop (nandReadStep driver md5 transport read.readSize read.packetSize)
    { readSizeRemaining := read.readSize
      sentPackets := 0
      ackedDataSize := 0
      ackedPackets := 0
      currentOffset := read.offset
      readFailed := false
      md5Ctx := md5.init }
  let digest := md5.final l.md5Ctx
  nandIoSend transport (if l.readFailed then digest.map (· ^^^ 0xFF) else digest)
  pure responseSuccess

/-- The default content of every slot. -/
def pluginUnsupported {σ R : Type} (resp : R) : Prog σ (Int × R) :=
  pure (responseCmdNotImplemented, resp)

/-- The slots esptool patches when it loads the plugin. -/
def nandHandler (idx : Nat) (mem : Memory) (data len : Nat) (resp : NandResponse) :
    NandStub W (Int × NandResponse) :=
  match idx with
  | 0 => nandPluginAttach driver mem data len resp
  | 1 => nandPluginReadBbm driver mem data len resp
  | 2 => nandPluginWriteBbm driver mem data len resp
  | 3 => nandPluginReadFlash driver mem data len resp
  | 4 => nandPluginWriteFlashBegin mem data len resp
  | 5 => nandPluginWriteFlashData driver mem data len resp
  | 6 => nandPluginEraseFlash driver resp
  | 7 => nandPluginEraseRegion driver mem data len resp
  | 8 => nandPluginReadPageDebug driver mem data len resp
  | 9 => nandPluginWriteFlashEnd driver len resp
  | _ => pluginUnsupported resp

/-- The plugin table in which the slots selected by `patched` hold the NAND
handlers and the others their default. -/
def nandPlugin (patched : Nat → Bool) : Plugin W NandState NandCallback where
  table idx _ mem data len resp :=
    if patched idx then nandHandler driver idx mem data len resp else pluginUnsupported resp
  postProcess _ _ := nandReadFlashPostProcess driver md5 transport

end

end FlasherStub
