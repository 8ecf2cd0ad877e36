import Mathlib.Data.Nat.Bitwise
import McuxDrivers.Lib.Regions

/-!
# The message RAM of the MCAN driver

`MCAN_SetMessageRamConfig` of `fsl_mcan.c`, the functions that write the sections to the registers and the functions that read
the addresses of the elements back. A register is the record of its fields; a field is written with the bits that it has.
-/

namespace McuxDrivers.Mcan
open McuxDrivers.Lib

inductive IdFormat where
  | standard
  | extend
deriving DecidableEq

/-- `mcan_frame_filter_config_t`. -/
structure FrameFilterConfig where
  address : Nat
  listSize : Nat
  idFormat : IdFormat
  remFrame : Bool
  nmFrame : Fin 4
  address_lt : address < 2 ^ 32
  listSize_le : listSize ≤ 128

/-- `mcan_rx_fifo_config_t`. -/
structure RxFifoConfig where
  address : Nat
  elementSize : Nat
  watermark : Nat
  opmode : Bool
  datafieldSize : Fin 8
  address_lt : address < 2 ^ 32
  elementSize_le : elementSize ≤ 64

/-- `mcan_rx_buffer_config_t`. -/
structure RxBufferConfig where
  address : Nat
  datafieldSize : Fin 8
  address_lt : address < 2 ^ 32

/-- `mcan_tx_fifo_config_t`. -/
structure TxFifoConfig where
  address : Nat
  elementSize : Nat
  watermark : Nat
  address_lt : address < 2 ^ 32
  elementSize_le : elementSize ≤ 32

/-- `mcan_tx_buffer_config_t`. -/
structure TxBufferConfig where
  address : Nat
  dedicatedSize : Nat
  fqSize : Nat
  mode : Bool
  datafieldSize : Fin 8
  address_lt : address < 2 ^ 32
  size_le : dedicatedSize + fqSize ≤ 32

/-- `mcan_memory_config_t`. -/
structure MemoryConfig where
  baseAddr : Nat
  stdFilterCfg : Option FrameFilterConfig
  extFilterCfg : Option FrameFilterConfig
  rxFifo0Cfg : Option RxFifoConfig
  rxFifo1Cfg : Option RxFifoConfig
  rxBufferCfg : Option RxBufferConfig
  txFifoCfg : Option TxFifoConfig
  txBufferCfg : Option TxBufferConfig

/-- The fields of GFC, SIDFC, XIDFC, RXF0C, RXF1C, RXESC, RXBC, TXEFC, TXBC and TXESC. -/
structure RamRegs where
  mrba : Nat
  rrfs : Nat
  anfs : Nat
  rrfe : Nat
  anfe : Nat
  flssa : Nat
  lss : Nat
  flesa : Nat
  lse : Nat
  f0sa : Nat
  f0s : Nat
  f0wm : Nat
  f0om : Nat
  f1sa : Nat
  f1s : Nat
  f1wm : Nat
  f1om : Nat
  f0ds : Nat
  f1ds : Nat
  rbds : Nat
  rbsa : Nat
  efsa : Nat
  efs : Nat
  efwm : Nat
  tbsa : Nat
  ndtb : Nat
  tfqs : Nat
  tfqm : Nat
  tbds : Nat

/-- The reset values. -/
def RamRegs.reset : RamRegs :=
  ⟨0, 0, 0, 0, 0, 0, 0, 0, 0, 0, 0, 0, 0, 0, 0, 0, 0, 0, 0, 0, 0, 0, 0, 0, 0, 0, 0, 0, 0⟩

namespace RamRegs

/-- A start address field holds the address without its last two bits, in 14 bits. -/
def startAddress (field address : Nat) : Nat :=
  field ||| (address >>> 2) % 2 ^ 14

/-- `MCAN_SetFilterConfig`. -/
def setFilterConfig (r : RamRegs) (config : FrameFilterConfig) : RamRegs :=
  match config.idFormat with
  | .standard =>
    { r with
      rrfs := r.rrfs ||| config.remFrame.toNat
      anfs := r.anfs ||| config.nmFrame
      flssa := startAddress r.flssa config.address
      lss := r.lss ||| config.listSize % 2 ^ 8 }
  | .extend =>
    { r with
      rrfe := r.rrfe ||| config.remFrame.toNat
      anfe := r.anfe ||| config.nmFrame
      flesa := startAddress r.flesa config.address
      lse := r.lse ||| config.listSize % 2 ^ 7 }

/-- `MCAN_SetRxFifo0Config`. -/
def setRxFifo0Config (r : RamRegs) (config : RxFifoConfig) : RamRegs :=
  { r with
    f0sa := startAddress r.f0sa config.address
    f0s := r.f0s ||| config.elementSize % 2 ^ 7
    f0wm := r.f0wm ||| config.watermark % 2 ^ 7
    f0om := r.f0om ||| config.opmode.toNat
    f0ds := r.f0ds ||| config.datafieldSize }

/-- `MCAN_SetRxFifo1Config`. -/
def setRxFifo1Config (r : RamRegs) (config : RxFifoConfig) : RamRegs :=
  { r with
    f1sa := startAddress r.f1sa config.address
    f1s := r.f1s ||| config.elementSize % 2 ^ 7
    f1wm := r.f1wm ||| config.watermark % 2 ^ 7
    f1om := r.f1om ||| config.opmode.toNat
    f1ds := r.f1ds ||| config.datafieldSize }

/-- `MCAN_SetRxBufferConfig`. -/
def setRxBufferConfig (r : RamRegs) (config : RxBufferConfig) : RamRegs :=
  { r with
    rbsa := startAddress r.rbsa config.address
    rbds := r.rbds ||| config.datafieldSize }

/-- `MCAN_SetTxEventFifoConfig`. -/
def setTxEventFifoConfig (r : RamRegs) (config : TxFifoConfig) : RamRegs :=
  { r with
    efsa := startAddress r.efsa config.address
    efs := r.efs ||| config.elementSize % 2 ^ 6
    efwm := r.efwm ||| config.watermark % 2 ^ 6 }

/-- `MCAN_SetTxBufferConfig`. -/
def setTxBufferConfig (r : RamRegs) (config : TxBufferConfig) : RamRegs :=
  { r with
    tbsa := startAddress r.tbsa config.address
    ndtb := r.ndtb ||| config.dedicatedSize % 2 ^ 6
    tfqs := r.tfqs ||| config.fqSize % 2 ^ 6
    tfqm := r.tfqm ||| config.mode.toNat
    tbds := r.tbds ||| config.datafieldSize }

end RamRegs

/-- The words of an element with a data field of this size. -/
def eSize (datafieldSize : Nat) : Nat :=
  if datafieldSize < 5 then datafieldSize + 4 else datafieldSize * 4 - 10

/-- The registers, the end of the last section and whether all the sections could be placed. -/
structure Placing where
  regs : RamRegs
  temp : Nat
  ok : Bool

namespace Placing

/-- One of the sections: nothing when it is absent or an earlier one failed. -/
def place {α : Type} (p : Placing) (cfg : Option α) (admits : α → Bool) (next : α → Nat) (set : RamRegs → α → RamRegs) :
    Placing :=
  match cfg with
  | none => p
  | some config =>
    if p.ok then
      if admits config then ⟨set p.regs config, next config % 2 ^ 32, true⟩ else { p with ok := false }
    else p

def placeStdFilter (p : Placing) (cfg : Option FrameFilterConfig) : Placing :=
  p.place cfg (fun c => c.idFormat = .standard && c.address % 4 = 0) (fun c => c.listSize * 4) RamRegs.setFilterConfig

def placeExtFilter (p : Placing) (cfg : Option FrameFilterConfig) : Placing :=
  p.place cfg (fun c => c.idFormat = .extend && p.temp ≤ c.address && c.address % 4 = 0)
    (fun c => c.address + c.listSize * 8) RamRegs.setFilterConfig

def placeRxFifo0 (p : Placing) (cfg : Option RxFifoConfig) : Placing :=
  p.place cfg (fun c => p.temp ≤ c.address && c.address % 4 = 0)
    (fun c => c.address + c.elementSize * eSize c.datafieldSize * 4) RamRegs.setRxFifo0Config

def placeRxFifo1 (p : Placing) (cfg : Option RxFifoConfig) : Placing :=
  p.place cfg (fun c => p.temp ≤ c.address && c.address % 4 = 0)
    (fun c => c.address + c.elementSize * eSize c.datafieldSize * 4) RamRegs.setRxFifo1Config

def placeRxBuffer (p : Placing) (cfg : Option RxBufferConfig) : Placing :=
  p.place cfg (fun c => p.temp ≤ c.address && c.address % 4 = 0)
    (fun c => c.address + 64 * eSize c.datafieldSize * 4) RamRegs.setRxBufferConfig

def placeTxEventFifo (p : Placing) (cfg : Option TxFifoConfig) : Placing :=
  p.place cfg (fun c => p.temp ≤ c.address && c.address % 4 = 0) (fun c => c.address + c.elementSize * 8)
    RamRegs.setTxEventFifoConfig

/-- The last section: its end is not recorded. -/
def placeTxBuffer (p : Placing) (cfg : Option TxBufferConfig) : Placing :=
  p.place cfg (fun c => !(c.address < p.temp || c.address % 4 != 0)) (fun _ => p.temp) RamRegs.setTxBufferConfig

end Placing

/-- `MCAN_SetMessageRamConfig`: the registers, and whether it returns `kStatus_Success`. -/
def setMessageRamConfig (r : RamRegs) (config : MemoryConfig) : RamRegs × Bool :=
  let base : Placing := if config.baseAddr % 4096 = 0 then ⟨{ r with mrba := config.baseAddr }, 0, true⟩ else ⟨r, 0, false⟩
  let placed := ((((((base.placeStdFilter config.stdFilterCfg).placeExtFilter config.extFilterCfg).placeRxFifo0
    config.rxFifo0Cfg).placeRxFifo1 config.rxFifo1Cfg).placeRxBuffer config.rxBufferCfg).placeTxEventFifo
      config.txFifoCfg).placeTxBuffer config.txBufferCfg
  (placed.regs, placed.ok)

namespace RamRegs

/-- `MCAN_GetRxFifo0ElementAddress`, with the get index of RXF0S. -/
def getRxFifo0ElementAddress (r : RamRegs) (getIndex : Nat) : Nat :=
  (r.f0sa <<< 2 + getIndex * eSize r.f0ds * 4) % 2 ^ 32

/-- `MCAN_GetRxFifo1ElementAddress`, with the get index of RXF1S. -/
def getRxFifo1ElementAddress (r : RamRegs) (getIndex : Nat) : Nat :=
  (r.f1sa <<< 2 + getIndex * eSize r.f1ds * 4) % 2 ^ 32

/-- `MCAN_GetRxBufferElementAddress`. -/
def getRxBufferElementAddress (r : RamRegs) (idx : Nat) : Nat :=
  (r.rbsa <<< 2 + idx * eSize r.rbds * 4) % 2 ^ 32

/-- `MCAN_GetTxBufferElementAddress`. -/
def getTxBufferElementAddress (r : RamRegs) (idx : Nat) : Nat :=
  (r.tbsa <<< 2 + idx * eSize r.tbds * 4) % 2 ^ 32

end RamRegs

end McuxDrivers.Mcan
