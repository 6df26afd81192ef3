import FlasherStub.Handlers

/-! `handle_command`: header checks, the report of a deferred error, the switch
over the opcodes, the response and the post-process step. -/

namespace FlasherStub

open ByteMemory Budget

inductive Opcode where
  | sync
  | flashBegin
  | flashData
  | flashEnd
  | memBegin
  | memData
  | memEnd
  | writeReg
  | readReg
  | spiAttach
  | spiSetParams
  | changeBaudrate
  | flashDeflBegin
  | flashDeflData
  | flashDeflEnd
  | spiFlashMd5
  | getSecurityInfo
  | readFlash
  | eraseFlash
  | eraseRegion
  | runUserCode
  | plugin (idx : Nat)
  | unknown
deriving DecidableEq

/-- The `switch (command)` of `handle_command`. -/
def Opcode.ofByte (command : Nat) : Opcode :=
  if command = espSync then .sync
  else if command = espFlashBegin then .flashBegin
  else if command = espFlashData then .flashData
  else if command = espFlashEnd then .flashEnd
  else if command = espMemBegin then .memBegin
  else if command = espMemData then .memData
  else if command = espMemEnd then .memEnd
  else if command = espWriteReg then .writeReg
  else if command = espReadReg then .readReg
  else if command = espSpiAttach then .spiAttach
  else if command = espSpiSetParams then .spiSetParams
  else if command = espChangeBaudrate then .changeBaudrate
  else if command = espFlashDeflBegin then .flashDeflBegin
  else if command = espFlashDeflData then .flashDeflData
  else if command = espFlashDeflEnd then .flashDeflEnd
  else if command = espSpiFlashMd5 then .spiFlashMd5
  else if command = espGetSecurityInfo then .getSecurityInfo
  else if command = espReadFlash then .readFlash
  else if command = espEraseFlash then .eraseFlash
  else if command = espEraseRegion then .eraseRegion
  else if command = espRunUserCode then .runUserCode
  else if pluginFirstOpcode ≤ command ∧ command ≤ pluginLastOpcode then
    .plugin (command - pluginFirstOpcode)
  else .unknown

variable {W D H S C : Type} (env : Platform W D H S C)

def CmdCtx.parse (buffer : Memory) : CmdCtx where
  direction := (buffer 0).toNat
  command := (buffer 1).toNat
  packetSize := getLeToU16 buffer 2
  checksum := getLeToU32 buffer 4
  mem := buffer
  data := headerSize

/-- A plugin handler sees its own statics and the device only. -/
def callPlugin (idx : Nat) (ctx : CmdCtx) : Stub W D S C (Int × CommandResponseData C) := do
  let (result, response) ← .focus (fun s => (s.plugin, s.world))
    (fun s t => { s with plugin := t.1, world := t.2 })
    (env.plugin.table idx ctx.command ctx.mem ctx.data ctx.packetSize {})
  match response.postProcess with
  | some callback => setPendingPostProcess (.plugin callback)
  | none => pure ()
  pure (result, response)

def withEmptyResponse (handler : Stub W D S C Int) :
    Stub W D S C (Int × CommandResponseData C) := do
  let result ← handler
  pure (result, {})

/-- The handler of a command. RUN_USER_CODE returns from the switch and
is left to `execute`. -/
def dispatch (ctx : CmdCtx) : Opcode → Stub W D S C (Int × CommandResponseData C)
  | .sync => withEmptyResponse (sync env ctx)
  | .flashBegin => withEmptyResponse (flashBegin env ctx)
  | .flashData => withEmptyResponse (flashData ctx)
  | .flashEnd => withEmptyResponse (flashEnd env ctx)
  | .memBegin => withEmptyResponse (memBegin ctx)
  | .memData => withEmptyResponse (memData env ctx)
  | .memEnd => withEmptyResponse (memEnd ctx)
  | .writeReg => withEmptyResponse (writeReg env ctx)
  | .readReg => readReg env ctx
  | .spiAttach => withEmptyResponse (spiAttach env ctx)
  | .spiSetParams => withEmptyResponse (spiSetParams env ctx)
  | .changeBaudrate => withEmptyResponse (changeBaudrate ctx)
  | .flashDeflBegin => withEmptyResponse (flashDeflBegin env ctx)
  | .flashDeflData => withEmptyResponse (flashDeflData ctx)
  | .flashDeflEnd => withEmptyResponse (flashDeflEnd env ctx)
  | .spiFlashMd5 => spiFlashMd5 env ctx
  | .getSecurityInfo => getSecurityInfo env ctx
  | .readFlash => withEmptyResponse (readFlash ctx)
  | .eraseFlash => withEmptyResponse (eraseFlash env)
  | .eraseRegion => withEmptyResponse (eraseRegion env ctx)
  | .plugin idx => callPlugin env idx ctx
  | .runUserCode | .unknown => pure (responseInvalidCommand, {})

def runPostProcess (ctx : CmdCtx) : PostProcess C → Stub W D S C Int
  | .flashData => flashDataPostProcess env ctx
  | .flashDeflData => flashDeflDataPostProcess env ctx
  | .memEnd => memEndPostProcess env ctx
  | .changeBaudrate => changeBaudratePostProcess env ctx
  | .readFlash => readFlashPostProcess env ctx
  | .plugin callback => .focus (fun s => ⟨s.plugin, s.world, s.sent⟩)
      (fun s t => { s with plugin := t.statics, world := t.world, sent := t.sent })
      (env.plugin.postProcess callback ctx)

def setAccumulatedResult (result : Int) : Stub W D S C Unit :=
  .modify fun s => { s with accumulatedResult := result }

/-- The primary response, and the loss of the callback if the command failed. -/
def respond (ctx : CmdCtx) (result : Int) (response : CommandResponseData C) :
    Stub W D S C Unit := do
  if result = responseSuccess then
    sendResponse env ctx.command responseSuccess (some response.toResponseData)
  else
    sendResponse env ctx.command result none
    .modify fun s => { s with pendingPostProcess := none }

/-- Run the registered callback; its result is carried over to the next command. -/
def postProcess (ctx : CmdCtx) : Stub W D S C Unit := do
  let s ← .get
  match s.pendingPostProcess with
  | none => pure ()
  | some callback =>
    let result ← runPostProcess env ctx callback
    .modify fun s => { s with
      accumulatedResult := result
      pendingPostProcess := none
      trace := s.trace ++ [.postProcess result] }

def answer (ctx : CmdCtx) : Stub W D S C Unit := do
  let (result, response) ← dispatch env ctx (Opcode.ofByte ctx.command)
  setAccumulatedResult result
  respond env ctx result response
  setAccumulatedResult responseSuccess

/-- `handle_command` from the switch on. -/
def execute (ctx : CmdCtx) : Stub W D S C Unit := do
  if Opcode.ofByte ctx.command = .runUserCode then pure ()
  else
    answer env ctx
    postProcess env ctx

def handleCommand (buffer : Memory) (size : Nat) : Stub W D S C Unit := do
  let ctx := CmdCtx.parse buffer
  if ctx.direction ≠ directionRequest then
    sendResponse env ctx.command responseInvalidCommand none
  else if size ≠ ctx.packetSize + headerSize then
    sendResponse env ctx.command responseBadDataLen none
  else
    let s ← .get
    -- an error left by the previous command's callback is reported instead
    if s.accumulatedResult ≠ responseSuccess then
      sendResponse env ctx.command s.accumulatedResult none
      setAccumulatedResult responseSuccess
    else execute env ctx

/-- A received frame: the memory from the receive buffer on, and its length. -/
structure Frame where
  buffer : Memory
  size : Nat

def Frame.ctx (f : Frame) : CmdCtx := CmdCtx.parse f.buffer

def Frame.seq (f : Frame) : Nat := getLeToU32 f.ctx.mem (f.ctx.data + 4)

def Frame.HeaderOk (f : Frame) : Prop :=
  f.ctx.direction = directionRequest ∧ f.size = f.ctx.packetSize + headerSize

instance (f : Frame) : Decidable f.HeaderOk := inferInstanceAs (Decidable (_ ∧ _))

def serve : List Frame → Stub W D S C Unit
  | [] => pure ()
  | f :: frames => do
    handleCommand env f.buffer f.size
    serve frames

end FlasherStub
