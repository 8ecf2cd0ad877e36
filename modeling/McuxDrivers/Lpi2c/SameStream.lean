import Mathlib.Logic.Relation
import McuxDrivers.Lpi2c.Handler

/-!
# One transfer, polled or by interrupts

For every timing of the controller and of the interrupts both masters write the same words, and the
interrupt-driven one ends with one completion, unless the transfer is one of those that its counter, its
read command or its start cannot express, or its read commands do not fit into the FIFO of the blocking one.
-/

namespace McuxDrivers.Lpi2c
open Lib

/-- The controller moves, or an enabled interrupt is served. -/
inductive Step (bus : Bus) : Sys → Sys → Prop
  | controller (s : Sys) (hmove : CanMove bus s.machine) : Step bus s (s.setMachine (advance bus s.machine))
  | interrupt (s s' : Sys) (hpending : interruptPending s = true)
      (hreturns : Returns (fun fuel => handleIRQ bus fuel s) s') : Step bus s s'

/-- The states of the interrupt-driven transfer. -/
def Reachable (bus : Bus) (t : Transfer) (start : Sys) : Sys → Prop :=
  Relation.ReflTransGen (Step bus) (masterTransferNonBlocking bus t start).1

/-- A master with nothing to do. -/
structure Ready (start : Sys) : Prop where
  machine : Fresh start.machine
  idle : start.handle.state = .idle
  completions : start.completions = 0
  wrapped : start.wrapped = false

/-- The transfers that both masters take in the same way. -/
structure Regular (fifoSize : Nat) (t : Transfer) : Prop where
  size : t.dataSize.toNat < 65536
  noStart : t.noStart = true →
    t.subaddressSize = 0 ∧ t.dataSize ≠ 0 ∧ (t.direction = .read → t.dataSize.toNat ≤ 256)
  fits : ReadFits fifoSize t

/-- Both masters do the transfer, and no more. -/
structure SameTransfer (bus : Bus) (t : Transfer) (start : Sys) : Prop where
  covers : requested (stream t start.machine.memory) = readSize t
  blocking : Yields (fun fuel => masterTransferBlocking bus fuel t start.machine)
    (fun (m, status) => status = .success ∧ m.mtdr = stream t start.machine.memory ∧ m.lost = false ∧
      m.memory = filled bus start.machine.memory (readSize t))
  accepted : (masterTransferNonBlocking bus t start).2 = .success
  reached : ∀ s, Reachable bus t start s → s.machine.mtdr <+: stream t start.machine.memory ∧
    s.machine.lost = false ∧ s.wrapped = false ∧ s.completions ≤ 1
  completed : ∀ s, Reachable bus t start s → s.completions = 1 →
    s.machine.mtdr = stream t start.machine.memory ∧
      s.machine.memory = filled bus start.machine.memory (readSize t)
  goesOn : ∀ s, Reachable bus t start s → s.completions = 0 → ∃ s', Step bus s s'
  ends : Acc (fun s' s => Step bus s s') (masterTransferNonBlocking bus t start).1

variable {bus : Bus} {t : Transfer} {memory : Nat → Byte} {s s' : Sys}

lemma Streams.step (hc : Countable bus.fifoSize t) (hfifo : 0 < bus.fifoSize) (h : Streams bus t memory s)
    (hrest : Rest t s) (hstep : Step bus s s') :
    Streams bus t memory s' ∧ Rest t s' ∧ work t memory s' < work t memory s := by
  cases hstep with
  | controller hmove =>
    have hlater := advance_later bus s.machine
    obtain ⟨hstreams, -⟩ := h.later hlater h.flow.advance
    refine ⟨hstreams, ⟨hrest.stop, hrest.wait⟩, ?_⟩
    have hless := hmove.load_lt
    show 258 * ((stream t memory).length - (advance bus s.machine).mtdr.length) + load (advance bus s.machine) +
      (readSize t - bytesRead s.handle) + rank s.handle.state < _
    rw [hlater.mtdr, work]
    omega
  | interrupt _ hpending hreturns =>
    have hhandled := handleIRQ_yields hc hfifo h hrest hpending
    exact hhandled.holds hreturns

lemma Streams.acc (hc : Countable bus.fifoSize t) (hfifo : 0 < bus.fifoSize) (h : Streams bus t memory s)
    (hrest : Rest t s) : Acc (fun s' s => Step bus s s') s := by
  induction hwork : work t memory s using Nat.strong_induction_on generalizing s with
  | _ n ih =>
    constructor
    intro s' hstep
    obtain ⟨hstreams, hrest', hless⟩ := h.step hc hfifo hrest hstep
    exact ih (work t memory s') (by omega) hstreams hrest' rfl

lemma Regular.countable (h : Regular bus.fifoSize t) (hsub : t.subaddressSize ≤ 4) (haccepted : tooLong bus t = false) :
    Countable bus.fifoSize t where
  size := h.size
  noStart := fun hnoStart => (h.noStart hnoStart).2
  subaddress := hsub
  accepted := by
    intro hdirection
    have hnot := of_decide_eq_false (p := t.dataSize.toNat > 256 * bus.fifoSize) (by
      simpa [tooLong, hdirection] using haccepted)
    omega

lemma Regular.blockingWords_eq (h : Regular bus.fifoSize t) : blockingWords t memory = stream t memory := by
  rw [blockingWords, stream]
  congr 2
  rw [blockingCommands, addressWords]
  cases hnoStart : t.noStart with
  | false => rfl
  | true =>
    have hsub := (h.noStart hnoStart).1
    have hrepeated : repeatedStart t = [] := by
      rw [repeatedStart, startDirection, hsub, if_neg (by decide : ¬ 0 ≠ 0), if_neg]
      rintro ⟨-, hread, hwrite⟩
      rw [hread] at hwrite
      cases hwrite
    rw [hsub, hrepeated]
    rfl

/-- For every timing, both masters write the words of the transfer, and the interrupt-driven one completes it
once. -/
theorem same_stream (bus : Bus) (t : Transfer) (start : Sys) (hfifo : 0 < bus.fifoSize) (hsub : t.subaddressSize ≤ 4)
    (haccepted : tooLong bus t = false) (hready : Ready start) (hregular : Regular bus.fifoSize t) :
    SameTransfer bus t start := by
  have hc := hregular.countable hsub haccepted
  obtain ⟨hsuccess, hstreams, hrest⟩ := masterTransferNonBlocking_streams hc hready.machine hready.idle
    hready.completions hready.wrapped haccepted
  have hreached (s : Sys) (hs : Reachable bus t start s) : Streams bus t start.machine.memory s ∧ Rest t s := by
    induction hs with
    | refl => exact ⟨hstreams, hrest⟩
    | tail _ hstep ih =>
      obtain ⟨hstreams', hrest', -⟩ := ih.1.step hc hfifo ih.2 hstep
      exact ⟨hstreams', hrest'⟩
  exact {
    covers := requested_stream t _
    blocking := by
      have hyields := masterTransferBlocking_yields hready.machine hfifo haccepted hregular.fits
      rw [hregular.blockingWords_eq] at hyields
      exact hyields
    accepted := hsuccess
    reached := by
      intro s hs
      obtain ⟨h, -⟩ := hreached s hs
      refine ⟨?_, h.flow.lost, h.notWrapped, ?_⟩
      · rw [h.mtdr]
        exact written_le_stream h.handle
      · rw [h.completions]
        split
        · exact le_refl 1
        · exact Nat.zero_le 1
    completed := by
      intro s hs hdone
      obtain ⟨h, -⟩ := hreached s hs
      have hidle : s.handle.state = .idle := by
        by_contra hne
        rw [h.completions, if_neg hne] at hdone
        cases hdone
      refine ⟨?_, ?_⟩
      · rw [h.mtdr, written, hidle]
      · rw [h.memory, bytesRead, hidle, h.handle.transfer]
        rfl
    goesOn := by
      intro s hs hrunning
      obtain ⟨h, hrest'⟩ := hreached s hs
      have hne : s.handle.state ≠ .idle := by
        intro hidle
        rw [h.completions, if_pos hidle] at hrunning
        cases hrunning
      rcases h.live hfifo hrest' hne with hmove | hpending
      · exact ⟨_, Step.controller s hmove⟩
      · obtain ⟨s', hreturns, -⟩ := handleIRQ_yields hc hfifo h hrest' hpending
        exact ⟨s', Step.interrupt s s' hpending hreturns⟩
    ends := hstreams.acc hc hfifo hrest }

section Examples

/-- A controller that only moves between the runs of the handler. -/
def slowBus (fifoSize : Nat) : Bus where
  fifoSize := fifoSize
  slave := fun i => BitVec.ofNat 8 i
  ticks := fun _ => 0

def idleMachine : Machine where
  txFifo := []
  reading := 0
  rxFifo := []
  stopDetect := false
  busBusy := false
  taken := 0
  now := 0
  memory := fun i => BitVec.ofNat 8 (i + 1)
  mtdr := []
  lost := false

def registerRead (dataSize : BitVec 32) : Transfer where
  noStart := false
  noStop := false
  slaveAddress := 0x50
  direction := .read
  subaddress := 0x12
  subaddressSize := 1
  dataSize := dataSize

def longWrite : Transfer where
  noStart := false
  noStop := false
  slaveAddress := 0x50
  direction := .write
  subaddress := 0
  subaddressSize := 0
  dataSize := 65536

def idleSys : Sys where
  machine := idleMachine
  handle := { state := .idle, remainingBytes := 0, buf := 0, commandBuffer := [], transfer := longWrite }
  irqEnabled := false
  txIrqEnabled := false
  completions := 0
  wrapped := false

lemma ready_idleSys : Ready idleSys where
  machine := ⟨rfl, rfl, rfl, rfl, rfl, rfl, rfl⟩
  idle := rfl
  completions := rfl
  wrapped := rfl

/-- A read of 300 bytes from a register. -/
theorem same_stream_registerRead : SameTransfer (slowBus 8) (registerRead 300) idleSys :=
  same_stream (slowBus 8) (registerRead 300) idleSys (by decide) (by decide) (by decide) ready_idleSys
    ⟨by decide, by decide, by unfold ReadFits; decide⟩

/-- The counter of the handle does not hold 65536: it is zero when the data begin. -/
theorem not_same_stream : ¬ ∀ (bus : Bus) (t : Transfer) (start : Sys), 0 < bus.fifoSize → t.subaddressSize ≤ 4 →
    tooLong bus t = false → Ready start → SameTransfer bus t start := by
  intro hall
  have hsame := hall (slowBus 4) longWrite idleSys (by decide) (by decide) (by decide) ready_idleSys
  obtain ⟨s', hs'⟩ : ∃ s', handleIRQ (slowBus 4) 7 (masterTransferNonBlocking (slowBus 4) longWrite idleSys).1 = some s' :=
    ⟨_, rfl⟩
  have hreturns : Returns (fun fuel => handleIRQ (slowBus 4) fuel
      (masterTransferNonBlocking (slowBus 4) longWrite idleSys).1) s' := by
    refine ⟨7, fun fuel hfuel => ?_⟩
    obtain ⟨k, rfl⟩ := Nat.exists_eq_add_of_le' hfuel
    rw [← hs']
    rfl
  have hstep : Step (slowBus 4) (masterTransferNonBlocking (slowBus 4) longWrite idleSys).1 s' :=
    Step.interrupt _ s' (by decide) hreturns
  have hwrapped : (handleIRQ (slowBus 4) 7 (masterTransferNonBlocking (slowBus 4) longWrite idleSys).1).map
      (·.wrapped) = some true := rfl
  obtain ⟨-, -, hnot, -⟩ := hsame.reached s' (Relation.ReflTransGen.single hstep)
  rw [hs', Option.map_some, hnot] at hwrapped
  cases hwrapped

end Examples

end McuxDrivers.Lpi2c
