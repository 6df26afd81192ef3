import FlasherStub.Commands
import FlasherStub.Endian
import FlasherStub.Lib.Program

/-! What the stub runs on. `esp-stub-lib`, the transport and the loaded plugin
are parameters: functions on a device state `W` about which a theorem assumes
only what it names. The stub's own statics are `StubState`; its ghost fields
record, in order, what was sent to the host and asked of the flash. -/

namespace FlasherStub

open ByteMemory Budget

structure FlashConfig where
  flashId : Nat
  flashSize : Nat
  blockSize : Nat
  sectorSize : Nat
  pageSize : Nat
  statusMask : Nat

inductive StubLibResult where
  | ok
  | fail
  | errTimeout
  | errNotSupported
  | errInvalidArg
deriving DecidableEq

/-- A started erase: its result and the address and size left behind in the
caller's variables. -/
structure NextErase where
  result : StubLibResult
  addr : Nat
  remaining : Nat

/-- `flashReadBuff` gives the bytes read, or `none` for any other result than
`STUB_LIB_OK`. -/
structure StubLib (W : Type) where
  alignDown : Nat → Nat → Nat
  alignUp : Nat → Nat → Nat
  flashGetConfig : W → FlashConfig
  flashUpdateConfig : FlashConfig → W → StubLibResult × W
  flashReadBuff : (addr size : Nat) → W → Option (List UInt8) × W
  flashWriteBuff : (addr : Nat) → (data : List UInt8) → (encrypt : Bool) → W → StubLibResult × W
  flashStartNextErase : (addr remaining : Nat) → W → NextErase × W
  flashEraseChip : W → StubLibResult × W
  flashWaitReady : (timeoutUs : Nat) → W → StubLibResult × W
  flashAttach : (ishspi : Nat) → W → W
  securityInfoSize : Nat
  getSecurityInfo : W → (StubLibResult × List UInt8) × W
  delayUs : Nat → W → W
  regRead : Nat → W → Nat × W
  regWrite : Nat → Nat → W → W
  memcpy : Nat → List UInt8 → W → W
  uartTxFlush : W → W
  uartSetBaudrate : Nat → W → W
  runUserRamCode : Nat → W → W

structure TinflFlags where
  parseZlibHeader : Bool
  hasMoreInput : Bool

inductive TinflStatus where
  | failed
  | done
  | needsMoreInput
  | hasMoreOutput
deriving DecidableEq

/-- `status > TINFL_STATUS_DONE` -/
def TinflStatus.aboveDone : TinflStatus → Bool
  | .failed | .done => false
  | .needsMoreInput | .hasMoreOutput => true

structure TinflResult (D : Type) where
  status : TinflStatus
  inBytes : Nat
  out : List UInt8
  decompressor : D

/-- `zero` is the all-zero `tinfl_decompressor`. -/
structure Inflater (D : Type) where
  zero : D
  init : D → D
  decompress : D → (input : List UInt8) → (dict : Memory) → (next outBytes : Nat) →
    TinflFlags → TinflResult D

structure Md5 (H : Type) where
  init : H
  update : H → List UInt8 → H
  final : H → List UInt8

/-- What `recv_poll` hands to its caller. -/
inductive RecvPoll where
  | none
  | error
  | frame (bytes : List UInt8)

structure TransportOps (W : Type) where
  recvPoll : W → RecvPoll × W
  recvRelease : W → W
  sendFrame : List UInt8 → W → W

/-- The parsed frame header. `data` is the offset of the payload in the memory
that starts at the receive buffer. -/
structure CmdCtx where
  command : Nat
  direction : Nat
  packetSize : Nat
  checksum : Nat
  mem : Memory
  data : Nat

/-- The part of `struct command_response_data` that goes out on the wire. -/
structure ResponseData where
  value : Nat := 0
  data : Memory := fun _ => 0
  dataSize : Nat := 0

structure CommandResponseData (C : Type) extends ResponseData where
  postProcess : Option C := none

/-- What a plugin's post-process callback can reach: its own statics, the device
and, through the transport, the host. -/
structure PluginIo (W S : Type) where
  statics : S
  world : W
  sent : List (List UInt8)

/-- `S` are the plugin's statics and `C` names its post-process callbacks. -/
structure Plugin (W S C : Type) where
  table : (idx : Nat) → (command : Nat) → (mem : Memory) → (data len : Nat) →
    CommandResponseData C → Prog (S × W) (Int × CommandResponseData C)
  postProcess : C → CmdCtx → Prog (PluginIo W S) Int

structure Platform (W D H S C : Type) where
  lib : StubLib W
  tinfl : Inflater D
  md5 : Md5 H
  transport : TransportOps W
  plugin : Plugin W S C

structure MemoryOperationState where
  totalRemaining : Nat := 0
  numBlocks : Nat := 0
  blockSize : Nat := 0
  offset : Nat := 0
  inProgress : Bool := false

structure FlashOperationState (D : Type) where
  totalRemaining : Nat := 0
  numBlocks : Nat := 0
  blockSize : Nat := 0
  offset : Nat := 0
  compressedRemaining : Nat := 0
  decompressor : D
  encrypt : Bool := false
  inProgress : Bool := false
  nextEraseAddr : Nat := 0
  eraseRemaining : Nat := 0

/-- The callbacks that `s_pending_post_process` can point to. -/
inductive PostProcess (C : Type) where
  | flashData
  | flashDeflData
  | memEnd
  | changeBaudrate
  | readFlash
  | plugin (callback : C)

inductive Event where
  /-- a flash read and the bytes it gave, if it succeeded -/
  | read (addr size : Nat) (result : Option (List UInt8))
  /-- a started erase that moved the erase address from `first` to `next` -/
  | erase (first next : Nat) (result : StubLibResult)
  /-- `s_write_flash_data` entered with `left` bytes of the image to go -/
  | request (addr size left : Nat)
  | program (addr : Nat) (data : List UInt8) (encrypt ok : Bool)
  /-- a `memcpy` to an address of the host's choice -/
  | store (addr : Nat) (data : List UInt8)
  /-- `size` bytes hashed from `offset` in a buffer of which `filled` bytes were just read -/
  | md5Update (offset size filled : Nat)
  /-- an inflater call that was offered `space` bytes of output -/
  | inflate (space : Nat) (out : List UInt8) (status : TinflStatus)
  /-- a post-process callback that returned `result` -/
  | postProcess (result : Int)

structure StubState (W D S C : Type) where
  flash : FlashOperationState D
  memory : MemoryOperationState
  dirtySeen : Bool
  pendingPostProcess : Option (PostProcess C)
  accumulatedResult : Int
  decompressedData : Memory
  decompressedDataPtr : Nat
  plugin : S
  world : W
  sent : List (List UInt8)
  trace : List Event

namespace StubState

variable {W D S C : Type} {P : Event → Prop} {s t u : StubState W D S C}

/-- From `s` to `t` only events in `P` have been added to the trace. -/
def Logs (P : Event → Prop) (s t : StubState W D S C) : Prop :=
  ∃ new, t.trace = s.trace ++ new ∧ ∀ e ∈ new, P e

theorem Logs.of_eq (trace : t.trace = s.trace) : s.Logs P t :=
  ⟨[], by rw [trace, List.append_nil], by simp⟩

theorem Logs.refl (s : StubState W D S C) : s.Logs P s := .of_eq rfl

theorem Logs.snoc (logs : s.Logs P t) {e : Event} (trace : u.trace = t.trace ++ [e]) (he : P e) :
    s.Logs P u := by
  obtain ⟨new, grown, all⟩ := logs
  refine ⟨new ++ [e], by rw [trace, grown, List.append_assoc], ?_⟩
  exact List.forall_mem_append.mpr ⟨all, List.forall_mem_singleton.mpr he⟩

theorem Logs.trans (logs : s.Logs P t) (logs' : t.Logs P u) : s.Logs P u := by
  obtain ⟨new, grown, all⟩ := logs
  obtain ⟨new', grown', all'⟩ := logs'
  exact ⟨new ++ new', by rw [grown', grown, List.append_assoc],
    List.forall_mem_append.mpr ⟨all, all'⟩⟩

theorem Logs.of_trace (logs : s.Logs P t) {new : List Event} (trace : t.trace = s.trace ++ new) :
    ∀ e ∈ new, P e := by
  obtain ⟨new', trace', all⟩ := logs
  obtain rfl : new = new' := List.append_cancel_left (trace.symm.trans trace')
  exact all

end StubState

abbrev Stub (W D S C α : Type) := Prog (StubState W D S C) α

namespace Stub

variable {W D H S C : Type} (env : Platform W D H S C)

def log (e : Event) : Stub W D S C Unit := .modify fun s => { s with trace := s.trace ++ [e] }

def device (f : W → W) : Stub W D S C Unit := .modify fun s => { s with world := f s.world }

def sendFrame (frame : List UInt8) : Stub W D S C Unit := .modify fun s =>
  { s with world := env.transport.sendFrame frame s.world, sent := s.sent ++ [frame] }

def flashReadBuff (addr size : Nat) : Stub W D S C (Option (List UInt8)) := .act fun s =>
  let (result, world) := env.lib.flashReadBuff addr size s.world
  (result, { s with world, trace := s.trace ++ [.read addr size result] })

def flashWriteBuff (addr : Nat) (data : List UInt8) (encrypt : Bool) :
    Stub W D S C StubLibResult := .act fun s =>
  let (result, world) := env.lib.flashWriteBuff addr data encrypt s.world
  (result, { s with world, trace := s.trace ++ [.program addr data encrypt (result = .ok)] })

def flashStartNextErase (addr remaining : Nat) : Stub W D S C NextErase := .act fun s =>
  let (next, world) := env.lib.flashStartNextErase addr remaining s.world
  (next, { s with world, trace := s.trace ++ [.erase addr next.addr next.result] })

end Stub

end FlasherStub
