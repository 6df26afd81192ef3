import FlasherStub.Codec
import FlasherStub.CompressedUpload
import FlasherStub.Confined
import FlasherStub.Deferred
import FlasherStub.EraseRegion
import FlasherStub.Interleaving
import FlasherStub.Isolation
import FlasherStub.NandImage
import FlasherStub.NandUpload
import FlasherStub.RamDownload
import FlasherStub.ReadBack
import FlasherStub.Rejection
import FlasherStub.Resync
import FlasherStub.Sdio
import FlasherStub.StaleBytes
import FlasherStub.Wire
