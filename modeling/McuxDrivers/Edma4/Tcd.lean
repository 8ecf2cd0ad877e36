import Mathlib.Data.BitVec

/-!
# Transfer control descriptors of the eDMA4

The fields of a descriptor and the functions of `fsl_edma.c` that fill them. Pointers are addresses, with 0
for `NULL`; `CONVERT_TO_DMA_ADDRESS` and the supported widths are those of the `Soc`.
-/

namespace McuxDrivers.Edma4

abbrev Word := BitVec 32
abbrev HalfWord := BitVec 16

def kCsrIntMajor : HalfWord := 0x2
def kCsrIntHalf : HalfWord := 0x4
def kCsrDreq : HalfWord := 0x8
def kCsrEsg : HalfWord := 0x10
def kCsrMajorElink : HalfWord := 0x20
def kCsrMajorLinkCh : HalfWord := 0x1F00
def kIterElink : HalfWord := 0x8000
def kIterLinkCh : HalfWord := 0x3E00
def kIterCount : HalfWord := 0x7FFF
def kAttrSsize : HalfWord := 0x700
def kAttrDsize : HalfWord := 0x7
def kAttrSmod : HalfWord := 0xF800
def kAttrDmod : HalfWord := 0xF8
def kErrorInterruptEnable : HalfWord := 0x1

/-- `edma_tcd_t`. -/
structure Tcd where
  saddr : Word
  soff : HalfWord
  attr : HalfWord
  nbytes : Word
  slast : Word
  daddr : Word
  doff : HalfWord
  citer : HalfWord
  dlastSga : Word
  csr : HalfWord
  biter : HalfWord
  deriving DecidableEq, Repr

/-- `edma_transfer_size_t`. -/
inductive TransferSize
  | bytes1
  | bytes2
  | bytes4
  | bytes8
  | bytes16
  | bytes32
  | bytes64
  | bytes128
  deriving DecidableEq, Repr

def TransferSize.code : TransferSize → HalfWord
  | .bytes1 => 0
  | .bytes2 => 1
  | .bytes4 => 2
  | .bytes8 => 3
  | .bytes16 => 4
  | .bytes32 => 5
  | .bytes64 => 6
  | .bytes128 => 7

/-- What depends on the chip: the `FSL_FEATURE_EDMA_SUPPORT_*_BYTES_TRANSFER`, the erratum of the instance,
the size of a descriptor and `CONVERT_TO_DMA_ADDRESS`. -/
structure Soc where
  support8Bytes : Bool
  support16Bytes : Bool
  support64Bytes : Bool
  support128Bytes : Bool
  hasErrata51327 : Bool
  tcdBytes : Nat
  convertToDmaAddress : Word → Word

/-- `edma_transfer_config_t`; the modulos are numbers of bits. -/
structure TransferConfig where
  srcAddr : Word
  destAddr : Word
  srcTransferSize : TransferSize
  destTransferSize : TransferSize
  srcOffset : HalfWord
  destOffset : HalfWord
  minorLoopBytes : Word
  majorLoopCounts : Word
  enabledInterruptMask : HalfWord
  srcAddrModulo : BitVec 5
  srcMajorLoopOffset : Word
  dstAddrModulo : BitVec 5
  dstMajorLoopOffset : Word
  enableSrcMinorLoopOffset : Bool
  enableDstMinorLoopOffset : Bool
  minorLoopOffset : Word
  enableChannelMajorLoopLink : Bool
  majorLoopLinkChannel : Word
  enableChannelMinorLoopLink : Bool
  minorLoopLinkChannel : Word
  linkTCD : Word
  deriving DecidableEq, Repr

/-- `memset(config, 0, sizeof(*config))`. -/
def TransferConfig.zero : TransferConfig where
  srcAddr := 0
  destAddr := 0
  srcTransferSize := .bytes1
  destTransferSize := .bytes1
  srcOffset := 0
  destOffset := 0
  minorLoopBytes := 0
  majorLoopCounts := 0
  enabledInterruptMask := 0
  srcAddrModulo := 0
  srcMajorLoopOffset := 0
  dstAddrModulo := 0
  dstMajorLoopOffset := 0
  enableSrcMinorLoopOffset := false
  enableDstMinorLoopOffset := false
  minorLoopOffset := 0
  enableChannelMajorLoopLink := false
  majorLoopLinkChannel := 0
  enableChannelMinorLoopLink := false
  minorLoopLinkChannel := 0
  linkTCD := 0

variable (soc : Soc)

/-- `EDMA_TransferWidthMapping`. -/
def transferWidthMapping (width : Word) : TransferSize :=
  match width.toNat with
  | 2 => .bytes2
  | 4 => .bytes4
  | 8 => if soc.support8Bytes then .bytes8 else .bytes1
  | 16 => if soc.support16Bytes then .bytes16 else .bytes1
  | 32 => .bytes32
  | 64 => if soc.support64Bytes then .bytes64 else .bytes1
  | 128 => if soc.support128Bytes then .bytes128 else .bytes1
  | _ => .bytes1

/-- `EDMA_TcdResetExt`. -/
def tcdReset : Tcd where
  saddr := 0
  soff := 0
  attr := 0
  nbytes := 0
  slast := 0
  daddr := 0
  doff := 0
  citer := 0
  dlastSga := 0
  csr := kCsrDreq
  biter := 0

/-- `DMA_ATTR_SSIZE(src) | DMA_ATTR_DSIZE(dest)`. -/
def attrSizes (src dest : TransferSize) : HalfWord :=
  (src.code <<< 8 &&& kAttrSsize) ||| (dest.code &&& kAttrDsize)

def nbytesMloffNo (bytes : Word) : Word :=
  bytes &&& 0x3FFFFFFF

def nbytesMloffYes (t : TransferConfig) : Word :=
  (t.minorLoopBytes &&& 0x3FF) ||| (t.minorLoopOffset <<< 10 &&& 0x3FFFFC00) |||
    (if t.enableDstMinorLoopOffset then 0x40000000 else 0) ||| (if t.enableSrcMinorLoopOffset then 0x80000000 else 0)

/-- `ESG` set and `DREQ` cleared. -/
def chained (csr : HalfWord) : HalfWord :=
  (csr ||| kCsrEsg) &&& ~~~kCsrDreq

/-- `linkTCD`, or the offset of the destination. -/
def configLink (t : TransferConfig) (tcd : Tcd) : Tcd :=
  if t.linkTCD ≠ 0 then { tcd with dlastSga := soc.convertToDmaAddress t.linkTCD, csr := chained tcd.csr }
  else { tcd with csr := tcd.csr &&& ~~~kCsrEsg, dlastSga := t.dstMajorLoopOffset }

/-- The count with the channel that is linked after each minor loop. -/
def linkedIter (t : TransferConfig) (iter : HalfWord) : HalfWord :=
  ((iter ||| kIterElink) &&& ~~~kIterLinkCh) ||| (t.minorLoopLinkChannel.setWidth 16 <<< 9 &&& kIterLinkCh)

def configMinorLink (t : TransferConfig) (tcd : Tcd) : Tcd :=
  if t.enableChannelMinorLoopLink then { tcd with citer := linkedIter t tcd.citer, biter := linkedIter t tcd.biter }
  else tcd

def configMajorLink (t : TransferConfig) (tcd : Tcd) : Tcd :=
  if t.enableChannelMajorLoopLink then
    { tcd with csr := ((tcd.csr ||| kCsrMajorElink) &&& ~~~kCsrMajorLinkCh) |||
        (t.majorLoopLinkChannel.setWidth 16 <<< 8 &&& kCsrMajorLinkCh) }
  else tcd

def clearLinks (t : TransferConfig) (tcd : Tcd) : Tcd :=
  if !t.enableChannelMajorLoopLink && !t.enableChannelMinorLoopLink then
    { tcd with
      citer := tcd.citer &&& ~~~kIterElink
      biter := tcd.biter &&& ~~~kIterElink
      csr := tcd.csr &&& ~~~kCsrMajorElink }
  else tcd

/-- The fields that `EDMA_ConfigChannelSoftwareTCDExt` writes first. -/
def configFields (t : TransferConfig) : Tcd where
  saddr := soc.convertToDmaAddress t.srcAddr
  soff := t.srcOffset
  attr := attrSizes t.srcTransferSize t.destTransferSize
  nbytes :=
    if t.enableSrcMinorLoopOffset || t.enableDstMinorLoopOffset then nbytesMloffYes t else nbytesMloffNo t.minorLoopBytes
  slast := t.srcMajorLoopOffset
  daddr := soc.convertToDmaAddress t.destAddr
  doff := t.destOffset
  citer := t.majorLoopCounts.setWidth 16
  dlastSga := 0
  csr := kCsrDreq
  biter := t.majorLoopCounts.setWidth 16

def configInterrupts (t : TransferConfig) (tcd : Tcd) : Tcd :=
  { tcd with csr := tcd.csr ||| (t.enabledInterruptMask &&& ~~~kErrorInterruptEnable) }

/-- `DMA_ATTR_DMOD(dst) | DMA_ATTR_SMOD(src)`. -/
def configModulo (t : TransferConfig) (tcd : Tcd) : Tcd :=
  { tcd with attr := (tcd.attr &&& ~~~(kAttrSmod ||| kAttrDmod)) ||| (t.dstAddrModulo.setWidth 16 <<< 3 &&& kAttrDmod) |||
      (t.srcAddrModulo.setWidth 16 <<< 11 &&& kAttrSmod) }

/-- `EDMA_ConfigChannelSoftwareTCDExt`; it writes every field. -/
def configChannelSoftwareTCD (t : TransferConfig) : Tcd :=
  configModulo t
    (clearLinks t (configMajorLink t (configMinorLink t (configInterrupts t (configLink soc t (configFields soc t))))))

/-- `EDMA_TcdSetTransferConfigExt`. -/
def tcdSetTransferConfig (config : TransferConfig) (nextTcd : Word) : Tcd :=
  let tcd := configChannelSoftwareTCD soc config
  if nextTcd ≠ 0 then { tcd with dlastSga := soc.convertToDmaAddress nextTcd, csr := chained tcd.csr } else tcd

/-- `EDMA_PrepareTransferConfig`. -/
def prepareTransferConfig (srcAddr srcWidth : Word) (srcOffset : HalfWord) (destAddr destWidth : Word)
    (destOffset : HalfWord) (bytesEachRequest transferBytes : Word) : TransferConfig :=
  { TransferConfig.zero with
    destAddr := soc.convertToDmaAddress destAddr
    srcAddr := soc.convertToDmaAddress srcAddr
    minorLoopBytes := bytesEachRequest
    majorLoopCounts := transferBytes / bytesEachRequest
    srcTransferSize := transferWidthMapping soc srcWidth
    destTransferSize := transferWidthMapping soc destWidth
    destOffset := destOffset
    srcOffset := srcOffset
    enabledInterruptMask := kCsrIntMajor }

/-- `EDMA_PrepareTransferTCD`. Both sizes are those of the source. -/
def prepareTransferTCD (srcAddr srcWidth : Word) (srcOffset : HalfWord) (destAddr _destWidth : Word)
    (destOffset : HalfWord) (bytesEachRequest transferBytes nextTcd : Word) : Tcd :=
  let srcTransferSize := transferWidthMapping soc srcWidth
  let destTransferSize := transferWidthMapping soc srcWidth
  let tcd := { tcdReset with
    saddr := soc.convertToDmaAddress srcAddr
    daddr := soc.convertToDmaAddress destAddr
    attr := attrSizes srcTransferSize destTransferSize
    soff := srcOffset
    doff := destOffset
    nbytes := nbytesMloffNo bytesEachRequest
    citer := (transferBytes / bytesEachRequest).setWidth 16
    biter := (transferBytes / bytesEachRequest).setWidth 16
    csr := kCsrDreq }
  let tcd := if nextTcd ≠ 0 then { tcd with dlastSga := soc.convertToDmaAddress nextTcd, csr := chained tcd.csr } else tcd
  { tcd with csr := tcd.csr ||| ((tcd.csr &&& ~~~kErrorInterruptEnable) ||| kCsrIntMajor) }

end McuxDrivers.Edma4
