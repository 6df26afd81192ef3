import Mathlib.Tactic.Common

/-! Opcodes, response codes and payload sizes of `commands.h`, and the opcode
range of `plugin_table.h`. Response codes are C `int`s: a plugin may return any. -/

namespace FlasherStub

abbrev headerSize : Nat := 8
abbrev maxResponseDataSize : Nat := 64
abbrev directionRequest : Nat := 0x00
abbrev directionResponse : Nat := 0x01

abbrev espFlashBegin : Nat := 0x02
abbrev espFlashData : Nat := 0x03
abbrev espFlashEnd : Nat := 0x04
abbrev espMemBegin : Nat := 0x05
abbrev espMemEnd : Nat := 0x06
abbrev espMemData : Nat := 0x07
abbrev espSync : Nat := 0x08
abbrev espWriteReg : Nat := 0x09
abbrev espReadReg : Nat := 0x0A
abbrev espSpiSetParams : Nat := 0x0B
abbrev espSpiAttach : Nat := 0x0D
abbrev espChangeBaudrate : Nat := 0x0F
abbrev espFlashDeflBegin : Nat := 0x10
abbrev espFlashDeflData : Nat := 0x11
abbrev espFlashDeflEnd : Nat := 0x12
abbrev espSpiFlashMd5 : Nat := 0x13
abbrev espGetSecurityInfo : Nat := 0x14
abbrev espEraseFlash : Nat := 0xD0
abbrev espEraseRegion : Nat := 0xD1
abbrev espReadFlash : Nat := 0xD2
abbrev espRunUserCode : Nat := 0xD3
abbrev pluginFirstOpcode : Nat := 0xD5
abbrev pluginLastOpcode : Nat := 0xEF

abbrev responseSuccess : Int := 0x0000
abbrev responseBadDataLen : Int := 0xC000
abbrev responseBadDataChecksum : Int := 0xC100
abbrev responseInvalidCommand : Int := 0xC300
abbrev responseFailedSpiOp : Int := 0xC400
abbrev responseNotInFlashMode : Int := 0xC600
abbrev responseInflateError : Int := 0xC700
abbrev responseNotEnoughData : Int := 0xC800
abbrev responseTooMuchData : Int := 0xC900
abbrev responseNandProgramFailed : Int := 0xCA00
abbrev responseNandEraseFailed : Int := 0xCB00
abbrev responseCmdNotImplemented : Int := 0xFF00

abbrev syncSize : Nat := 36
abbrev flashBeginSize : Nat := 16
abbrev flashBeginEncSize : Nat := 20
abbrev flashDataHeaderSize : Nat := 16
abbrev flashEndSize : Nat := 4
abbrev memBeginSize : Nat := 16
abbrev memDataHeaderSize : Nat := 16
abbrev memEndSize : Nat := 8
abbrev writeRegEntrySize : Nat := 16
abbrev readRegSize : Nat := 4
abbrev spiAttachSize : Nat := 4
abbrev spiSetParamsSize : Nat := 24
abbrev changeBaudrateSize : Nat := 8
abbrev flashDeflDataHeaderSize : Nat := 16
abbrev spiFlashMd5Size : Nat := 16
abbrev getSecurityInfoSize : Nat := 0
abbrev readFlashSize : Nat := 16
abbrev eraseRegionSize : Nat := 8
abbrev spiNandAttachSize : Nat := 4
abbrev spiNandReadBbmSize : Nat := 4
abbrev spiNandWriteBbmSize : Nat := 5
abbrev spiNandReadFlashSize : Nat := 16
abbrev spiNandWriteFlashBeginSize : Nat := 16
abbrev spiNandWriteFlashDataHeaderSize : Nat := 16
abbrev spiNandReadPageDebugSize : Nat := 4
abbrev spiNandWriteFlashEndSize : Nat := 4

end FlasherStub
