import FlasherStub.Nand
import FlasherStub.Session

/-! A device on which the model can be run: a NOR chip whose erases advance by
one sector and whose calls succeed, and an inflater that plays back a script. -/

namespace FlasherStub

open ByteMemory Budget

/-- The content of the chip. -/
structure SimWorld where
  content : Memory

def SimWorld.apply (w : SimWorld) (op : Nor.Op) : SimWorld := ⟨op.apply w.content⟩

def simFlashConfig (sector : Nat) : FlashConfig where
  flashId := 0
  flashSize := 2 ^ 32 - sector
  blockSize := sector
  sectorSize := sector
  pageSize := sector
  statusMask := 0xFFFF

/-- The functions of `esp-stub-lib` on a chip with the given sector size. -/
def simLib (sector : Nat) : StubLib SimWorld where
  alignDown a n := a / n * n
  alignUp a n := (a + (n - 1)) % 2 ^ 32 / n * n
  flashGetConfig _ := simFlashConfig sector
  flashUpdateConfig _ w := (.ok, w)
  flashReadBuff addr size w := (some (w.content.read addr size), w)
  flashWriteBuff addr data _ w := (.ok, w.apply (.program addr data))
  flashStartNextErase addr remaining w :=
    if remaining < sector then ({ result := .ok, addr, remaining }, w)
    else ({ result := .ok, addr := addr + sector, remaining := remaining - sector },
      w.apply (.erase addr (addr + sector)))
  flashEraseChip w := (.ok, w.apply (.erase 0 (2 ^ 32)))
  flashWaitReady _ w := (.ok, w)
  flashAttach _ w := w
  securityInfoSize := 0
  getSecurityInfo w := ((.ok, []), w)
  delayUs _ w := w
  regRead _ w := (0, w)
  regWrite _ _ w := w
  memcpy _ _ w := w
  uartTxFlush w := w
  uartSetBaudrate _ w := w
  runUserRamCode _ w := w

/-- One scripted inflater call: status, bytes consumed and bytes emitted, each as
far as input and space allow. A call that does nothing and asks for another fails. -/
abbrev SimInflate := TinflStatus × Nat × List UInt8

def simTinfl (script : List SimInflate) : Inflater (List SimInflate) where
  zero := []
  init _ := script
  decompress d input _ _ outBytes _ :=
    match d with
    | [] => { status := .failed, inBytes := 0, out := [], decompressor := [] }
    | (status, inBytes, out) :: rest =>
      { status :=
          if status.aboveDone ∧ min inBytes input.length = 0 ∧ (out.take outBytes).length = 0
          then .failed else status
        inBytes := min inBytes input.length
        out := out.take outBytes
        decompressor := rest }

def simMd5 : Md5 Unit where
  init := ()
  update _ _ := ()
  final _ := List.replicate 16 0

def simTransport : TransportOps SimWorld where
  recvPoll w := (.none, w)
  recvRelease w := w
  sendFrame _ w := w

/-- The plugin table as the stub is linked: every slot is unsupported. -/
def simPlugin {W : Type} : Plugin W Unit Empty where
  table _ _ _ _ _ resp := pure (responseCmdNotImplemented, resp)
  postProcess callback _ := nomatch callback

def simPlatform (sector : Nat) (script : List SimInflate) :
    Platform SimWorld (List SimInflate) Unit Unit Empty where
  lib := simLib sector
  tinfl := simTinfl script
  md5 := simMd5
  transport := simTransport
  plugin := simPlugin

/-- The stub after its start on the device `w`. -/
def startOn {W : Type} (w : W) : StubState W (List SimInflate) Unit Empty where
  flash := { decompressor := [] }
  memory := {}
  dirtySeen := false
  pendingPostProcess := none
  accumulatedResult := responseSuccess
  decompressedData := fun _ => 0
  decompressedDataPtr := 0
  plugin := ()
  world := w
  sent := []
  trace := []

def simStart (content : Memory) : StubState SimWorld (List SimInflate) Unit Empty :=
  startOn ⟨content⟩

/-- A NAND chip that answers every call with success and keeps nothing. -/
def simNandDriver : NandDriver SimWorld where
  attach _ w := (0, w)
  readId w := ((0, 0), w)
  readRegister _ w := (0, w)
  readBbm _ w := (some [0xFF, 0xFF, 0xFF, 0xFF], w)
  writeBbm _ _ w := (.ok, w)
  getPageSize _ := nandPageSize
  readPage _ size w := (some (List.replicate size 0xFF), w)
  eraseBlock _ w := (.ok, w)
  writePage _ _ w := (.ok, w)

def simNandPlatform (sector : Nat) (script : List SimInflate) :
    Platform SimWorld (List SimInflate) Unit NandState NandCallback where
  lib := simLib sector
  tinfl := simTinfl script
  md5 := simMd5
  transport := simTransport
  plugin := nandPlugin simNandDriver simMd5 simTransport fun _ => true

def simNandStart (content : Memory) :
    StubState SimWorld (List SimInflate) NandState NandCallback where
  flash := { decompressor := [] }
  memory := {}
  dirtySeen := false
  pendingPostProcess := none
  accumulatedResult := responseSuccess
  decompressedData := fun _ => 0
  decompressedDataPtr := 0
  plugin := {}
  world := ⟨content⟩
  sent := []
  trace := []

/-! Devices beside which something else is at work: a host, or the script of one. -/

section Beside

variable {W V : Type}

def StubLib.beside (lib : StubLib W) : StubLib (W × V) where
  alignDown := lib.alignDown
  alignUp := lib.alignUp
  flashGetConfig w := lib.flashGetConfig w.1
  flashUpdateConfig config w := (lib.flashUpdateConfig config w.1).map id (·, w.2)
  flashReadBuff addr size w := (lib.flashReadBuff addr size w.1).map id (·, w.2)
  flashWriteBuff addr data encrypt w := (lib.flashWriteBuff addr data encrypt w.1).map id (·, w.2)
  flashStartNextErase addr remaining w :=
    (lib.flashStartNextErase addr remaining w.1).map id (·, w.2)
  flashEraseChip w := (lib.flashEraseChip w.1).map id (·, w.2)
  flashWaitReady timeoutUs w := (lib.flashWaitReady timeoutUs w.1).map id (·, w.2)
  flashAttach ishspi w := (lib.flashAttach ishspi w.1, w.2)
  securityInfoSize := lib.securityInfoSize
  getSecurityInfo w := (lib.getSecurityInfo w.1).map id (·, w.2)
  delayUs us w := (lib.delayUs us w.1, w.2)
  regRead addr w := (lib.regRead addr w.1).map id (·, w.2)
  regWrite addr value w := (lib.regWrite addr value w.1, w.2)
  memcpy addr data w := (lib.memcpy addr data w.1, w.2)
  uartTxFlush w := (lib.uartTxFlush w.1, w.2)
  uartSetBaudrate baudrate w := (lib.uartSetBaudrate baudrate w.1, w.2)
  runUserRamCode entrypoint w := (lib.runUserRamCode entrypoint w.1, w.2)

def NandDriver.beside (driver : NandDriver W) : NandDriver (W × V) where
  attach hspi w := (driver.attach hspi w.1).map id (·, w.2)
  readId w := (driver.readId w.1).map id (·, w.2)
  readRegister reg w := (driver.readRegister reg w.1).map id (·, w.2)
  readBbm page w := (driver.readBbm page w.1).map id (·, w.2)
  writeBbm page isBad w := (driver.writeBbm page isBad w.1).map id (·, w.2)
  getPageSize w := driver.getPageSize w.1
  readPage page size w := (driver.readPage page size w.1).map id (·, w.2)
  eraseBlock page w := (driver.eraseBlock page w.1).map id (·, w.2)
  writePage page data w := (driver.writePage page data w.1).map id (·, w.2)

def scriptTransport : TransportOps (W × List RecvPoll) where
  recvPoll w :=
    match w.2 with
    | [] => (.none, w)
    | p :: rest => (p, w.1, rest)
  recvRelease w := w
  sendFrame _ w := w

theorem fst_scriptTransport (w : W × List RecvPoll) :
    (scriptTransport.recvPoll w).2.1 = w.1 := by
  obtain ⟨w, _ | _⟩ := w <;> rfl

end Beside

/-- A hash that gives back the first 16 bytes it was given. -/
def echoMd5 : Md5 (List UInt8) where
  init := []
  update h bytes := h ++ bytes
  final h := (h ++ List.replicate 16 0).take 16

theorem simLib_contract {k : Nat} (hk : k < 32) : FlashContract (simLib (2 ^ k)) (2 ^ k) where
  config _ := rfl
  power := ⟨k, hk, rfl⟩
  alignDown _ := rfl
  alignUp a h := by
    simp only [simLib]
    rw [Nat.mod_eq_of_lt h]
  nextErase addr remaining w _ _ _ := by
    simp only [simLib]
    split_ifs with less
    · exact ⟨0, by simp, by simp⟩
    · exact ⟨1, by simp, by simp; omega⟩

def mkFrame (command checksum : Nat) (payload : List UInt8) : Frame where
  buffer := Memory.ofList ([0, UInt8.ofNat command] ++ setU16ToLe payload.length ++
    setU32ToLe checksum ++ payload)
  size := headerSize + payload.length

def beginFrame (command total offset : Nat) : Frame :=
  mkFrame command 0 (setU32ToLe total ++ setU32ToLe 1 ++ setU32ToLe 1024 ++ setU32ToLe offset)

def dataFrame (command seq : Nat) (data : List UInt8) : Frame :=
  mkFrame command (data.foldl (fun checksum b => checksum ^^^ b.toNat) 0xEF)
    (setU32ToLe data.length ++ setU32ToLe seq ++ List.replicate 8 0 ++ data)

def endFrame (command : Nat) : Frame := mkFrame command 0 (setU32ToLe 0)

end FlasherStub
