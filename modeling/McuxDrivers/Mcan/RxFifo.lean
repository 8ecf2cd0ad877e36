import Mathlib.Logic.Function.Basic
import McuxDrivers.Lib.Runs

/-!
# The receive FIFOs of the MCAN driver

The interrupt driven reception of `fsl_mcan.c`. A receive FIFO is a queue of messages, and a message arrives at any moment,
also between two accesses of the interrupt handler, so the handler is a sequence of steps. A message is one value, and the
transmit buffers do not appear.
-/

namespace McuxDrivers.Mcan

/-- The two FIFO blocks. -/
abbrev FifoBlock := Fin 2

/-- The interrupt register: the flags that the handler looks at, and one for all the others. -/
structure Ir where
  errorFlags : Bool
  txTransmitComplete : Bool
  rxFifoNew : FifoBlock → Bool
  rxFifoLost : FifoBlock → Bool
  unsupported : Bool

/-- No flag is set. -/
def Ir.isZero (ir : Ir) : Bool :=
  !ir.errorFlags && !ir.txTransmitComplete && !ir.rxFifoNew 0 && !ir.rxFifoNew 1 && !ir.rxFifoLost 0 &&
    !ir.rxFifoLost 1 && !ir.unsupported

/-- The flags that one round of the handler takes care of. -/
inductive Cause where
  | errorFlags
  | txTransmitComplete
  | rxFifoNew (fifoBlock : FifoBlock)
  | rxFifoLost (fifoBlock : FifoBlock)
  | unsupported
deriving DecidableEq

/-- The order in which the handler looks at the flags. -/
def Ir.cause (ir : Ir) : Cause :=
  if ir.errorFlags then .errorFlags
  else if ir.txTransmitComplete then .txTransmitComplete
  else if ir.rxFifoNew 0 then .rxFifoNew 0
  else if ir.rxFifoLost 0 then .rxFifoLost 0
  else if ir.rxFifoNew 1 then .rxFifoNew 1
  else if ir.rxFifoLost 1 then .rxFifoLost 1
  else .unsupported

/-- `MCAN_ClearStatusFlag` with the flags of a cause. -/
def Ir.clear (ir : Ir) : Cause → Ir
  | .errorFlags => { ir with errorFlags := false }
  | .txTransmitComplete => { ir with txTransmitComplete := false }
  | .rxFifoNew n => { ir with rxFifoNew := Function.update ir.rxFifoNew n false }
  | .rxFifoLost n => { ir with rxFifoLost := Function.update ir.rxFifoLost n false }
  | .unsupported => { ir with unsupported := false }

/-- Where the handler is. -/
inductive Phase where
  | outside
  -- the flags have been read
  | sampled (valueIR : Ir)
  -- the cause has been taken care of, and its flags are to be cleared
  | handled (cause : Cause)
  -- the callback is called, and the flags are to be read again
  | callback

/-- A receive that the application waits for: the block and the frame that it asked for. -/
structure Request where
  fifoBlock : FifoBlock
  frame : Nat
deriving DecidableEq

/-- A message that was taken from a FIFO, the frame that it was copied to and the receive that was waiting. -/
structure Delivery (μ : Type) where
  fifoBlock : FifoBlock
  message : μ
  frame : Option Nat
  request : Option Request

/-- The registers, the handle, the position of the handler and what has happened. -/
structure Reception (μ : Type) where
  fifo : FifoBlock → List μ
  ir : Ir
  ie : FifoBlock → Bool
  -- the handle
  rxFifoBusy : Bool
  rxFifoFrameBuf : Option Nat
  phase : Phase
  -- the receive that the application waits for, and whether it found messages in its FIFO
  request : Option Request
  due : Bool
  -- the due receive was there when the handler was entered
  dueInRun : Bool
  arrived : FifoBlock → List μ
  deliveries : List (Delivery μ)
  -- the reads of a FIFO for which no receive was waiting
  strayReads : Nat
  -- the handler runs that left a due receive behind
  missed : Nat

variable {μ : Type}

namespace Reception

/-- `MCAN_ReadRxFifo`, with the frame that may be missing. -/
def readRxFifo (s : Reception μ) (n : FifoBlock) (frame : Option Nat) : Reception μ :=
  match s.fifo n with
  | [] => s
  | message :: rest =>
    { s with fifo := Function.update s.fifo n rest, deliveries := s.deliveries ++ [⟨n, message, frame, s.request⟩] }

/-- `MCAN_TransferAbortReceiveFifo`. The one frame of the handle is given up, whichever block is named. -/
def transferAbortReceiveFifo (s : Reception μ) (n : FifoBlock) : Reception μ :=
  { s with
    ie := Function.update s.ie n false
    rxFifoFrameBuf := none
    rxFifoBusy := false
    request := none
    due := false
    dueInRun := false }

/-- `MCAN_TransferReceiveFifoNonBlocking`. Nothing changes when a receive is already waiting. -/
def transferReceiveFifoNonBlocking (s : Reception μ) (n : FifoBlock) (frame : Nat) : Reception μ :=
  if s.rxFifoBusy then s
  else
    { s with
      rxFifoBusy := true
      rxFifoFrameBuf := some frame
      ie := Function.update s.ie n true
      request := some ⟨n, frame⟩
      due := !(s.fifo n).isEmpty
      dueInRun := false }

/-- `MCAN_TransferHandleIRQ` begins, and reads the flags for the first time. -/
def handleIRQ (s : Reception μ) : Reception μ :=
  { s with phase := .sampled s.ir, dueInRun := s.due }

/-- The branches of the loop body. -/
def handleCause (s : Reception μ) (cause : Cause) : Reception μ :=
  match cause with
  | .rxFifoNew n =>
    let s := { s with strayReads := if s.request.map Request.fifoBlock = some n then s.strayReads else s.strayReads + 1 }
    (s.readRxFifo n s.rxFifoFrameBuf).transferAbortReceiveFifo n
  | .errorFlags | .txTransmitComplete | .rxFifoLost _ | .unsupported => s

/-- The loop ends when no flag is set. -/
def nextRound (s : Reception μ) : Reception μ :=
  if s.ir.isZero then
    { s with phase := .outside, missed := if s.dueInRun then s.missed + 1 else s.missed, dueInRun := false }
  else { s with phase := .sampled s.ir }

/-- The next step of the handler. -/
def handlerStep (s : Reception μ) : Reception μ :=
  match s.phase with
  | .outside => s
  | .sampled valueIR => { s.handleCause valueIR.cause with phase := .handled valueIR.cause }
  | .handled cause => { s with ir := s.ir.clear cause, phase := .callback }
  | .callback => s.nextRound

/-- A message arrives. -/
def arrive (s : Reception μ) (n : FifoBlock) (message : μ) : Reception μ :=
  { s with
    fifo := Function.update s.fifo n (s.fifo n ++ [message])
    arrived := Function.update s.arrived n (s.arrived n ++ [message])
    ir := { s.ir with rxFifoNew := Function.update s.ir.rxFifoNew n true } }

/-- Other flags are set. -/
def raise (s : Reception μ) (errorFlags txTransmitComplete : Bool) (rxFifoLost : FifoBlock → Bool) (unsupported : Bool) : Reception μ :=
  { s with ir := { s.ir with
      errorFlags := s.ir.errorFlags || errorFlags
      txTransmitComplete := s.ir.txTransmitComplete || txTransmitComplete
      rxFifoLost := fun n => s.ir.rxFifoLost n || rxFifoLost n
      unsupported := s.ir.unsupported || unsupported } }

/-- `MCAN_TransferCreateHandle`, with empty FIFOs. -/
def transferCreateHandle : Reception μ where
  fifo := fun _ => []
  ir := ⟨false, false, fun _ => false, fun _ => false, false⟩
  ie := fun _ => false
  rxFifoBusy := false
  rxFifoFrameBuf := none
  phase := .outside
  request := none
  due := false
  dueInRun := false
  arrived := fun _ => []
  deliveries := []
  strayReads := 0
  missed := 0

end Reception

/-- What happens: on the bus, in the application and in the handler. -/
inductive FifoEvent (μ : Type) where
  | arrive (fifoBlock : FifoBlock) (message : μ)
  | raise (errorFlags txTransmitComplete : Bool) (rxFifoLost : FifoBlock → Bool) (unsupported : Bool)
  | receive (fifoBlock : FifoBlock) (frame : Nat)
  | abort (fifoBlock : FifoBlock)
  | handleIRQ
  | handlerStep

/-- The calls of the application are made outside of the handler or in its callback. -/
def Reception.mayCall (s : Reception μ) : Bool :=
  match s.phase with
  | .outside | .callback => true
  | .sampled _ | .handled _ => false

def Reception.step (s : Reception μ) : FifoEvent μ → Reception μ
  | .arrive n message => s.arrive n message
  | .raise errorFlags txTransmitComplete rxFifoLost unsupported =>
    s.raise errorFlags txTransmitComplete rxFifoLost unsupported
  | .receive n frame => if s.mayCall then s.transferReceiveFifoNonBlocking n frame else s
  | .abort n => if s.mayCall then s.transferAbortReceiveFifo n else s
  | .handleIRQ =>
    match s.phase with
    | .outside => s.handleIRQ
    | _ => s
  | .handlerStep => s.handlerStep

end McuxDrivers.Mcan
