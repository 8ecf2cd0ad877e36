import McuxDrivers.Lib.Ring
import McuxDrivers.Edma.Driver

/-!
# The chain of descriptors

Submissions are numbered from 0 and submission `k` uses slot `k % tcdSize`. `Chain s count` says that the
channel is going to execute exactly the submissions from the completed ones up to `count`, and
`Submitting` what holds at each access of a submission: its descriptor is either linked already, or
the channel is at the end of the chain before it.
-/

namespace McuxDrivers.Edma
open McuxDrivers.Lib

/-- The transfers submitted so far. -/
def wanted (s : Sys) : List Transfer :=
  s.submitted.map TransferConfig.transfer

/-- The descriptor of submission `k` when `count` submissions are linked. -/
structure Holds (w : List Transfer) (size k count : Nat) (tcd : Tcd) : Prop where
  transfer : w[k]? = some tcd.transfer
  next : tcd.dlastSga = some ((k + 1) % size)
  esg : tcd.csr.esg = decide (k + 1 < count)
  done : tcd.csr.done = false

/-- The channel executes a submission and the following ones are linked. -/
structure Running (s : Sys) (count : Nat) : Prop where
  lt : s.executed.length < count
  active : s.active = true
  regs : Holds (wanted s) s.tcdSize s.executed.length count s.regs
  pool : ∀ k, s.executed.length < k → k < count →
    Holds (wanted s) s.tcdSize k count (s.tcdPool (k % s.tcdSize))

/-- The last descriptor in the registers, if there was one, is completed. -/
structure Stopped (s : Sys) : Prop where
  active : s.active = false
  esg : s.regs.csr.esg = false
  next : s.regs.dlastSga =
    if s.executed.length = 0 then none else some (s.executed.length % s.tcdSize)

structure Finished (s : Sys) (count : Nat) : Prop where
  eq : s.executed.length = count
  stopped : Stopped s
  done : s.regs.csr.done = decide (s.executed.length ≠ 0)

/-- The channel executes the submissions up to `count`. -/
def Chain (s : Sys) (count : Nat) : Prop :=
  Running s count ∨ Finished s count

/-- The slot of the submission in progress is written. -/
def Filled (s : Sys) : Prop :=
  Holds (wanted s) s.tcdSize (s.submitted.length - 1) s.submitted.length
    (s.tcdPool ((s.submitted.length - 1) % s.tcdSize))

/-- The submission in progress has to be installed. -/
structure Unlinked (s : Sys) : Prop where
  eq : s.executed.length + 1 = s.submitted.length
  stopped : Stopped s
  filled : Filled s

/-- The registers hold the predecessor of the submission in progress, which may be completed before it is
linked. -/
def Linking (s : Sys) : Prop :=
  2 ≤ s.tcdSize ∧ 2 ≤ s.submitted.length ∧
    (Chain s s.submitted.length ∧ s.executed.length + 2 = s.submitted.length ∨
      Chain s (s.submitted.length - 1) ∧ s.submitted.length ≤ s.executed.length + 2 ∧ Filled s)

/-- What holds before each access of a submission. -/
def Submitting (s : Sys) : Prop :=
  match s.pc with
  | .idle => Chain s s.submitted.length
  | .fill config =>
    Chain s (s.submitted.length - 1) ∧ (wanted s)[s.submitted.length - 1]? = some config.transfer
  | .chain => 2 ≤ s.tcdSize ∧ Chain s (s.submitted.length - 1) ∧ Filled s
  | .checkPrevious =>
    2 ≤ s.tcdSize ∧ (Chain s s.submitted.length ∨
      Chain s (s.submitted.length - 1) ∧ s.submitted.length ≤ s.executed.length + 2 ∧ Filled s)
  | .checkFirst => Chain s s.submitted.length ∨ s.submitted.length = 1 ∧ Chain s 0 ∧ Filled s
  | .readDreq | .readEsg | .writeEsg _ => Linking s
  | .writeDreq csr => Linking s ∧ csr = s.regs.csr
  | .checkEsg => 2 ≤ s.tcdSize ∧ (Chain s s.submitted.length ∨ Unlinked s)
  | .checkNext =>
    2 ≤ s.tcdSize ∧ (Chain s s.submitted.length ∧ s.submitted.length ≤ s.executed.length + 1 ∨ Unlinked s)
  | .install => Unlinked s
  | .readClear => Chain s s.submitted.length
  | .writeClear csr => Chain s s.submitted.length ∧ csr = s.regs.csr

/-- The local variables of the submission in progress. -/
structure Locals (s : Sys) : Prop where
  pos : 0 < s.submitted.length
  current : s.currentTcd = (s.submitted.length - 1) % s.tcdSize
  previous : s.previousTcd = (s.submitted.length - 1 + (s.tcdSize - 1)) % s.tcdSize
  next : s.nextTcd = s.submitted.length % s.tcdSize

lemma Locals.congr {s s' : Sys} (h : Locals s) (hsub : s'.submitted = s.submitted) (hsize : s'.tcdSize = s.tcdSize)
    (hcurrent : s'.currentTcd = s.currentTcd) (hprevious : s'.previousTcd = s.previousTcd)
    (hnext : s'.nextTcd = s.nextTcd) : Locals s' := by
  refine ⟨?_, ?_, ?_, ?_⟩
  · rw [hsub]
    exact h.pos
  · rw [hcurrent, hsub, hsize]
    exact h.current
  · rw [hprevious, hsub, hsize]
    exact h.previous
  · rw [hnext, hsub, hsize]
    exact h.next

section Slots

variable {size : Nat}

/-- Submissions less than `size` apart have different slots. -/
lemma slot_inj {i j : Nat} (hle : i ≤ j) (hlt : j < i + size) (h : i % size = j % size) : i = j := by
  have hsame : (i + 0) % size = (i + (j - i)) % size := by rwa [Nat.add_zero, Nat.add_sub_cancel' hle]
  have hoffset : 0 = j - i := ring_offset_inj (by omega) (by omega) hsame
  omega

lemma slot_ne_succ (htwo : 2 ≤ size) (k : Nat) : k % size ≠ (k + 1) % size := by
  intro heq
  have := slot_inj (Nat.le_succ k) (by omega) heq
  omega

lemma slot_pred (hpos : 0 < size) (k : Nat) : (k + 1 + (size - 1)) % size = k % size := by
  have hsum : k + 1 + (size - 1) = k + size := by omega
  rw [hsum, Nat.add_mod_right]

end Slots

section Frames

variable {s s' : Sys} {count : Nat}

lemma Holds.mono {w : List Transfer} {size k : Nat} {tcd : Tcd} (h : Holds w size k count tcd) {count' : Nat}
    (hlt : k + 1 < count) (hle : count ≤ count') : Holds w size k count' tcd := by
  refine ⟨h.transfer, h.next, ?_, h.done⟩
  rw [h.esg, decide_eq_true hlt, decide_eq_true (by omega : k + 1 < count')]

/-- A chain depends on the queue's history, the pool and the registers, but not on `DREQ`. -/
lemma Chain.congr (h : Chain s count) (hsub : s'.submitted = s.submitted) (hexec : s'.executed = s.executed)
    (hsize : s'.tcdSize = s.tcdSize) (hpool : s'.tcdPool = s.tcdPool) (hactive : s'.active = s.active)
    (htransfer : s'.regs.transfer = s.regs.transfer) (hnext : s'.regs.dlastSga = s.regs.dlastSga)
    (hesg : s'.regs.csr.esg = s.regs.csr.esg) (hdone : s'.regs.csr.done = s.regs.csr.done) : Chain s' count := by
  have hwanted : wanted s' = wanted s := by rw [wanted, hsub, wanted]
  rcases h with h | h
  · refine Or.inl ⟨by rw [hexec]; exact h.lt, hactive.trans h.active, ?_, ?_⟩
    · rw [hwanted, hsize, hexec]
      exact ⟨htransfer ▸ h.regs.transfer, hnext.trans h.regs.next, hesg.trans h.regs.esg,
        hdone.trans h.regs.done⟩
    · rw [hwanted, hsize, hexec, hpool]
      exact h.pool
  · refine Or.inr ⟨by rw [hexec]; exact h.eq, ⟨hactive.trans h.stopped.active, hesg.trans h.stopped.esg, ?_⟩, ?_⟩
    · rw [hnext, hexec, hsize]
      exact h.stopped.next
    · rw [hdone, hexec]
      exact h.done

lemma Filled.congr (h : Filled s) (hsub : s'.submitted = s.submitted) (hsize : s'.tcdSize = s.tcdSize)
    (hpool : s'.tcdPool = s.tcdPool) : Filled s' := by
  unfold Filled wanted at *
  rwa [hsub, hsize, hpool]

lemma Unlinked.congr (h : Unlinked s) (hsub : s'.submitted = s.submitted) (hexec : s'.executed = s.executed)
    (hsize : s'.tcdSize = s.tcdSize) (hpool : s'.tcdPool = s.tcdPool) (hactive : s'.active = s.active)
    (hregs : s'.regs = s.regs) : Unlinked s' := by
  refine ⟨?_, ⟨hactive.trans h.stopped.active, ?_, ?_⟩, h.filled.congr hsub hsize hpool⟩
  · rw [hexec, hsub]
    exact h.eq
  · rw [hregs]
    exact h.stopped.esg
  · rw [hregs, hexec, hsize]
    exact h.stopped.next

lemma Linking.congr (h : Linking s) (hsub : s'.submitted = s.submitted) (hexec : s'.executed = s.executed)
    (hsize : s'.tcdSize = s.tcdSize) (hpool : s'.tcdPool = s.tcdPool) (hactive : s'.active = s.active)
    (htransfer : s'.regs.transfer = s.regs.transfer) (hnext : s'.regs.dlastSga = s.regs.dlastSga)
    (hesg : s'.regs.csr.esg = s.regs.csr.esg) (hdone : s'.regs.csr.done = s.regs.csr.done) : Linking s' := by
  unfold Linking
  rw [hsub, hexec, hsize]
  obtain ⟨htwo, hlen, ⟨hchain, hprev⟩ | ⟨hchain, hlate, hfilled⟩⟩ := h
  · exact ⟨htwo, hlen, Or.inl
      ⟨hchain.congr hsub hexec hsize hpool hactive htransfer hnext hesg hdone, hprev⟩⟩
  · exact ⟨htwo, hlen, Or.inr
      ⟨hchain.congr hsub hexec hsize hpool hactive htransfer hnext hesg hdone, hlate,
        hfilled.congr hsub hsize hpool⟩⟩

lemma Chain.executed_le (h : Chain s count) : s.executed.length ≤ count := by
  rcases h with h | h
  · exact h.lt.le
  · exact h.eq.le

end Frames

lemma Chain.complete {s : Sys} {count : Nat} (h : Chain s count) : Chain (complete s) count := by
  rcases h with h | h
  · unfold Edma.complete
    by_cases hlast : s.executed.length + 1 < count
    · have hesg : s.regs.csr.esg = true := by rw [h.regs.esg, decide_eq_true hlast]
      have hload := h.pool (s.executed.length + 1) (Nat.lt_succ_self _) hlast
      simp only [h.active, hesg, h.regs.next, if_true]
      refine Or.inl ⟨?_, rfl, ?_, fun k hk hcount => ?_⟩
      · rw [List.length_append]
        exact hlast
      · rw [List.length_append]
        exact hload
      · rw [List.length_append] at hk
        exact h.pool k (by omega) hcount
    · have hesg : s.regs.csr.esg = false := by rw [h.regs.esg, decide_eq_false hlast]
      have heq : s.executed.length + 1 = count := by
        have := h.lt
        omega
      simp only [h.active, hesg, if_true, Bool.false_eq_true, if_false]
      refine Or.inr ⟨?_, ⟨rfl, rfl, ?_⟩, ?_⟩
      · rw [List.length_append]
        exact heq
      · rw [List.length_append]
        exact h.regs.next
      · rw [List.length_append]
        rfl
  · have hinactive : Edma.complete s = s := by
      rw [Edma.complete, h.stopped.active, if_neg Bool.false_ne_true]
    rw [hinactive]
    exact Or.inr h

/-- The transfers executed are the first ones submitted. -/
def ExecutedInOrder (s : Sys) : Prop :=
  s.executed = (wanted s).take s.executed.length

lemma ExecutedInOrder.complete {s : Sys} (h : ExecutedInOrder s)
    (htransfer : s.active = true → (wanted s)[s.executed.length]? = some s.regs.transfer) :
    ExecutedInOrder (complete s) := by
  by_cases hactive : s.active = true
  · have hnext : (wanted s).take (s.executed.length + 1) = s.executed ++ [s.regs.transfer] := by
      rw [List.take_add_one, htransfer hactive, ← h]
      rfl
    have hframe : (Edma.complete s).executed = s.executed ++ [s.regs.transfer] ∧
        wanted (Edma.complete s) = wanted s := by
      unfold Edma.complete
      rw [if_pos hactive]
      dsimp only
      split
      · split <;> exact ⟨rfl, rfl⟩
      · exact ⟨rfl, rfl⟩
    unfold ExecutedInOrder
    rw [hframe.1, hframe.2, List.length_append]
    exact hnext.symm
  · rwa [Edma.complete, if_neg hactive]

/-- Writing a slot that no linked submission uses. -/
lemma Chain.update {s : Sys} {count : Nat} (h : Chain s count) (slot : Nat) (tcd : Tcd) (pc : Pc)
    (hfree : ∀ k, s.executed.length < k → k < count → k % s.tcdSize ≠ slot) :
    Chain { s with tcdPool := Function.update s.tcdPool slot tcd, pc := pc } count := by
  rcases h with h | h
  · refine Or.inl ⟨h.lt, h.active, h.regs, fun k hk hcount => ?_⟩
    dsimp only
    rw [Function.update_of_ne (hfree k hk hcount)]
    exact h.pool k hk hcount
  · exact Or.inr ⟨h.eq, ⟨h.stopped.active, h.stopped.esg, h.stopped.next⟩, h.done⟩

/-- The last link of a chain that ends before the submission in progress. -/
lemma Chain.extend {s : Sys} (hchain : Chain s (s.submitted.length - 1))
    (hlast : s.executed.length + 2 < s.submitted.length) (hfilled : Filled s)
    (hsize : 2 ≤ s.tcdSize) (hroom : s.submitted.length ≤ s.executed.length + 1 + s.tcdSize) (pc : Pc) :
    Chain { s with
      tcdPool := Function.update s.tcdPool ((s.submitted.length - 2) % s.tcdSize)
        { s.tcdPool ((s.submitted.length - 2) % s.tcdSize) with
          csr := { (s.tcdPool ((s.submitted.length - 2) % s.tcdSize)).csr with esg := true, dreq := false } }
      pc := pc } s.submitted.length := by
  rcases hchain with h | h
  · refine Or.inl ⟨by dsimp only; omega, h.active, h.regs.mono (by omega) (Nat.sub_le _ _),
      fun k hk hcount => ?_⟩
    dsimp only at hk ⊢
    obtain hlt | rfl | rfl : k < s.submitted.length - 2 ∨ k = s.submitted.length - 2 ∨
        k = s.submitted.length - 1 := by omega
    · have hne : k % s.tcdSize ≠ (s.submitted.length - 2) % s.tcdSize := by
        intro heq
        have := slot_inj (by omega) (by omega) heq
        omega
      rw [Function.update_of_ne hne]
      exact (h.pool k hk (by omega)).mono (by omega) (Nat.sub_le _ _)
    · have hlink := h.pool (s.submitted.length - 2) hk (by omega)
      rw [Function.update_self]
      refine ⟨hlink.transfer, hlink.next, ?_, hlink.done⟩
      rw [decide_eq_true (by omega : s.submitted.length - 2 + 1 < s.submitted.length)]
    · have hsucc : s.submitted.length - 1 = s.submitted.length - 2 + 1 := by omega
      have hne : (s.submitted.length - 1) % s.tcdSize ≠ (s.submitted.length - 2) % s.tcdSize := by
        rw [hsucc]
        exact (slot_ne_succ hsize _).symm
      rw [Function.update_of_ne hne]
      exact hfilled
  · exact absurd h.eq (by omega)

section Access

variable {s : Sys} (hlocals : Locals s)

include hlocals

/-- Only in a pool of one slot a submission is its own predecessor. -/
lemma Locals.previous_eq_current_iff (hpos : 0 < s.tcdSize) :
    s.currentTcd = s.previousTcd ↔ s.tcdSize = 1 := by
  rw [hlocals.current, hlocals.previous]
  constructor
  · intro heq
    have := slot_inj (Nat.le_add_right _ _) (by omega) heq
    omega
  · intro hone
    rw [hone, Nat.mod_one, Nat.mod_one]

lemma Locals.previous_eq (hpos : 0 < s.tcdSize) (htwo : 2 ≤ s.submitted.length) :
    s.previousTcd = (s.submitted.length - 2) % s.tcdSize := by
  have hsucc : s.submitted.length - 1 = s.submitted.length - 2 + 1 := by omega
  rw [hlocals.previous, hsucc, slot_pred hpos]

/-- Writing the slot of the new submission leaves the chain before it. -/
lemma Submitting.fill {config : TransferConfig} (hpc : s.pc = .fill config) (h : Submitting s)
    (hpos : 0 < s.tcdSize) (hroom : s.submitted.length ≤ s.executed.length + 1 + s.tcdSize)
    (hone : s.tcdSize = 1 → s.submitted.length ≤ s.executed.length + 1) :
    Submitting (submitTransferStep s) := by
  have hsub := hlocals.pos
  obtain ⟨hchain, hconfig⟩ : Chain s (s.submitted.length - 1) ∧
      (wanted s)[s.submitted.length - 1]? = some config.transfer := by
    simpa only [Submitting, hpc] using h
  have hfree : ∀ k, s.executed.length < k → k < s.submitted.length - 1 → k % s.tcdSize ≠ s.currentTcd := by
    intro k hk hlt heq
    rw [hlocals.current] at heq
    have := slot_inj hlt.le (by omega) heq
    omega
  have hnew : Holds (wanted s) s.tcdSize (s.submitted.length - 1) s.submitted.length
      { tcdSetTransferConfig tcdReset config with dlastSga := some s.nextTcd } := by
    refine ⟨hconfig, ?_, ?_, rfl⟩
    · rw [hlocals.next, Nat.sub_add_cancel hsub]
    · rw [decide_eq_false (by omega)]
      rfl
  unfold submitTransferStep
  simp only [hpc]
  have hkept := hchain.update s.currentTcd
    { tcdSetTransferConfig tcdReset config with dlastSga := some s.nextTcd }
    (if s.currentTcd ≠ s.previousTcd then .chain else .install) hfree
  have hfilled : Filled { s with
      tcdPool := Function.update s.tcdPool s.currentTcd
        { tcdSetTransferConfig tcdReset config with dlastSga := some s.nextTcd }
      pc := if s.currentTcd ≠ s.previousTcd then .chain else .install } := by
    unfold Filled
    dsimp only
    rw [← hlocals.current, Function.update_self]
    exact hnew
  by_cases hself : s.currentTcd = s.previousTcd
  · have hsize := (hlocals.previous_eq_current_iff hpos).mp hself
    have hle := hone hsize
    simp only [hself, ne_eq, not_true_eq_false, if_false] at hkept hfilled ⊢
    have hstopped : Stopped s := by
      rcases hchain with hrun | hfin
      · exact absurd hrun.lt (by omega)
      · exact hfin.stopped
    have hexec := hchain.executed_le
    exact ⟨by dsimp only; omega, ⟨hstopped.active, hstopped.esg, hstopped.next⟩, hfilled⟩
  · have hsize : s.tcdSize ≠ 1 := fun heq => hself ((hlocals.previous_eq_current_iff hpos).mpr heq)
    simp only [hself, ne_eq, not_false_eq_true, if_true] at hkept hfilled ⊢
    exact ⟨by dsimp only; omega, hkept, hfilled⟩

/-- Setting `ESG` in the predecessor's slot links the submission, or comes too late for that. -/
lemma Submitting.chain (hpc : s.pc = .chain) (h : Submitting s)
    (hroom : s.submitted.length ≤ s.executed.length + 1 + s.tcdSize) :
    Submitting (submitTransferStep s) := by
  have hsub := hlocals.pos
  obtain ⟨hsize, hchain, hfilled⟩ : 2 ≤ s.tcdSize ∧ Chain s (s.submitted.length - 1) ∧ Filled s := by
    simpa only [Submitting, hpc] using h
  unfold submitTransferStep
  simp only [hpc]
  refine ⟨hsize, ?_⟩
  by_cases hlast : s.executed.length + 2 < s.submitted.length
  · left
    have hextended := hchain.extend hlast hfilled hsize hroom .checkPrevious
    rw [← hlocals.previous_eq (by omega) (by omega)] at hextended
    exact hextended
  · right
    have hne : (s.submitted.length - 1) % s.tcdSize ≠ s.previousTcd := by
      rw [← hlocals.current]
      intro heq
      have := (hlocals.previous_eq_current_iff (by omega)).mp heq
      omega
    refine ⟨hchain.update _ _ _ (fun k hk hlt => ?_), by dsimp only; omega, ?_⟩
    · omega
    · unfold Filled
      dsimp only
      rw [Function.update_of_ne hne]
      exact hfilled

/-- The registers link to the submission's slot only if they hold its predecessor. -/
lemma Submitting.checkPrevious (hpc : s.pc = .checkPrevious) (h : Submitting s)
    (hroom : s.submitted.length ≤ s.executed.length + 1 + s.tcdSize) :
    Submitting (submitTransferStep s) := by
  have hsub := hlocals.pos
  obtain ⟨hsize, hcases⟩ : 2 ≤ s.tcdSize ∧ (Chain s s.submitted.length ∨
      Chain s (s.submitted.length - 1) ∧ s.submitted.length ≤ s.executed.length + 2 ∧ Filled s) := by
    simpa only [Submitting, hpc] using h
  have hwrap : s.submitted.length % s.tcdSize ≠ (s.submitted.length - 1) % s.tcdSize := by
    have hne := slot_ne_succ hsize (s.submitted.length - 1)
    rw [Nat.sub_add_cancel hsub] at hne
    exact hne.symm
  unfold submitTransferStep
  simp only [hpc]
  by_cases hcurrent : s.regs.dlastSga = some s.currentTcd
  · simp only [hcurrent, if_true]
    rw [hlocals.current] at hcurrent
    rcases hcases with (hrun | hfin) | ⟨hchain, hlate, hfilled⟩
    · have heq : (s.executed.length + 1) % s.tcdSize = (s.submitted.length - 1) % s.tcdSize :=
        Option.some.inj (hrun.regs.next.symm.trans hcurrent)
      have hlt := hrun.lt
      have hne : s.executed.length + 1 ≠ s.submitted.length := by
        intro hall
        rw [hall] at heq
        exact hwrap heq
      have hprev := slot_inj (by omega) (by omega) heq
      have hchain : Chain s s.submitted.length := Or.inl hrun
      exact ⟨hsize, by dsimp only; omega, Or.inl ⟨hchain.congr rfl rfl rfl rfl rfl rfl rfl rfl rfl,
        by dsimp only; omega⟩⟩
    · exfalso
      have hnext := hfin.stopped.next
      rw [if_neg (by have := hfin.eq; omega), hfin.eq, hcurrent] at hnext
      exact hwrap (Option.some.inj hnext).symm
    · have htwo : 2 ≤ s.submitted.length := by
        by_contra hlt
        rcases hchain with hrun | hfin
        · exact absurd hrun.lt (by omega)
        · have hnext := hfin.stopped.next
          rw [if_pos (by have := hfin.eq; omega), hcurrent] at hnext
          nomatch hnext
      exact ⟨hsize, htwo, Or.inr ⟨hchain.congr rfl rfl rfl rfl rfl rfl rfl rfl rfl, hlate,
        hfilled.congr rfl rfl rfl⟩⟩
  · simp only [hcurrent, if_false]
    rw [hlocals.current] at hcurrent
    rcases hcases with hchain | ⟨hrun | hfin, hlate, hfilled⟩
    · exact Or.inl (hchain.congr rfl rfl rfl rfl rfl rfl rfl rfl rfl)
    · exfalso
      have hlt := hrun.lt
      have hprev : s.executed.length + 1 = s.submitted.length - 1 := by omega
      exact hcurrent (hprev ▸ hrun.regs.next)
    · have hzero : s.executed.length = 0 := by
        by_contra hne
        have hnext := hfin.stopped.next
        rw [if_neg hne, hfin.eq] at hnext
        exact hcurrent hnext
      have heq := hfin.eq
      have hchain : Chain s 0 := Or.inr ⟨hzero, hfin.stopped, hfin.done⟩
      exact Or.inr ⟨by dsimp only; omega, hchain.congr rfl rfl rfl rfl rfl rfl rfl rfl rfl,
        hfilled.congr rfl rfl rfl⟩

/-- Only before the first submission the registers link to nothing. -/
lemma Submitting.checkFirst (hpc : s.pc = .checkFirst) (h : Submitting s) :
    Submitting (submitTransferStep s) := by
  have hsub := hlocals.pos
  have hcases : Chain s s.submitted.length ∨ s.submitted.length = 1 ∧ Chain s 0 ∧ Filled s := by
    simpa only [Submitting, hpc] using h
  unfold submitTransferStep
  simp only [hpc]
  rcases hcases with hchain | ⟨hfirst, hchain, hfilled⟩
  · have hsome : s.regs.dlastSga ≠ none := by
      rcases hchain with hrun | hfin
      · rw [hrun.regs.next]
        exact Option.some_ne_none _
      · rw [hfin.stopped.next, if_neg (by have := hfin.eq; omega)]
        exact Option.some_ne_none _
    simp only [ne_eq, hsome, not_false_eq_true, if_true]
    exact hchain.congr rfl rfl rfl rfl rfl rfl rfl rfl rfl
  · rcases hchain with hrun | hfin
    · exact absurd hrun.lt (Nat.not_lt_zero _)
    · have hnone : s.regs.dlastSga = none := by rw [hfin.stopped.next, if_pos hfin.eq]
      simp only [ne_eq, hnone, not_true_eq_false, if_false]
      have heq := hfin.eq
      exact ⟨by dsimp only; omega, ⟨hfin.stopped.active, hfin.stopped.esg, hfin.stopped.next⟩,
        hfilled.congr rfl rfl rfl⟩

omit hlocals in
/-- `ESG` is set in the predecessor, or the predecessor is completed and `ESG` stays clear. -/
lemma Submitting.writeEsg {csr : Csr} (hpc : s.pc = .writeEsg csr) (h : Submitting s) :
    Submitting (submitTransferStep s) := by
  obtain ⟨hsize, htwo, hcases⟩ : Linking s := by
    simpa only [Submitting, hpc] using h
  unfold submitTransferStep
  simp only [hpc]
  refine ⟨hsize, ?_⟩
  rcases hcases with ⟨hrun | hfin, hprev⟩ | ⟨hrun | hfin, hlate, hfilled⟩
  · left
    have hesg : s.regs.csr.esg = true := by rw [hrun.regs.esg, decide_eq_true (by omega)]
    have hchain : Chain s s.submitted.length := Or.inl hrun
    refine hchain.congr rfl rfl rfl rfl rfl rfl rfl ?_ ?_
    · simp only [writeCsr, hrun.regs.done, Bool.false_eq_true, if_false, hesg]
    · simp only [writeCsr, hrun.regs.done, Bool.false_and]
  · exact absurd hfin.eq (by omega)
  · left
    have hlt := hrun.lt
    refine Or.inl ⟨by dsimp only; omega, hrun.active, ⟨hrun.regs.transfer, hrun.regs.next, ?_, ?_⟩,
      fun k hk hcount => ?_⟩
    · simp only [writeCsr, hrun.regs.done, Bool.false_eq_true, if_false]
      rw [decide_eq_true (by omega : s.executed.length + 1 < s.submitted.length)]
    · simp only [writeCsr, hrun.regs.done, Bool.false_and]
    · dsimp only at hk hcount
      obtain rfl : k = s.submitted.length - 1 := by omega
      exact hfilled
  · right
    have heq := hfin.eq
    have hdone : s.regs.csr.done = true := by rw [hfin.done, decide_eq_true (by omega)]
    refine ⟨by dsimp only; omega, ⟨hfin.stopped.active, ?_, hfin.stopped.next⟩, hfilled.congr rfl rfl rfl⟩
    simp only [writeCsr, hdone, if_true, hfin.stopped.esg]

omit hlocals in
/-- With `ESG` clear the submission itself is in the registers, or it has to be installed. -/
lemma Submitting.checkEsg (hpc : s.pc = .checkEsg) (h : Submitting s) : Submitting (submitTransferStep s) := by
  obtain ⟨hsize, hcases⟩ : 2 ≤ s.tcdSize ∧ (Chain s s.submitted.length ∨ Unlinked s) := by
    simpa only [Submitting, hpc] using h
  unfold submitTransferStep
  simp only [hpc]
  by_cases hesg : s.regs.csr.esg = true
  · simp only [hesg, if_true]
    rcases hcases with hchain | hunlinked
    · exact hchain.congr rfl rfl rfl rfl rfl rfl rfl rfl rfl
    · exact absurd (hunlinked.stopped.esg.symm.trans hesg) Bool.false_ne_true
  · simp only [hesg, if_false, Bool.false_eq_true]
    refine ⟨hsize, ?_⟩
    rcases hcases with hchain | hunlinked
    · left
      refine ⟨hchain.congr rfl rfl rfl rfl rfl rfl rfl rfl rfl, ?_⟩
      rcases hchain with hrun | hfin
      · by_contra hmore
        rw [hrun.regs.esg, decide_eq_true (by dsimp only at hmore; omega)] at hesg
        exact hesg rfl
      · exact hfin.eq.ge.trans (Nat.le_succ _)
    · right
      exact ⟨hunlinked.eq, ⟨hunlinked.stopped.active, hunlinked.stopped.esg, hunlinked.stopped.next⟩,
        hunlinked.filled.congr rfl rfl rfl⟩

/-- The registers link to the slot after the submission's exactly if they hold it. -/
lemma Submitting.checkNext (hpc : s.pc = .checkNext) (h : Submitting s) : Submitting (submitTransferStep s) := by
  have hsub := hlocals.pos
  obtain ⟨hsize, hcases⟩ : 2 ≤ s.tcdSize ∧
      (Chain s s.submitted.length ∧ s.submitted.length ≤ s.executed.length + 1 ∨ Unlinked s) := by
    simpa only [Submitting, hpc] using h
  unfold submitTransferStep
  simp only [hpc]
  rcases hcases with ⟨hchain, hle⟩ | hunlinked
  · have hnext : s.regs.dlastSga = some s.nextTcd := by
      rw [hlocals.next]
      rcases hchain with hrun | hfin
      · have hlt := hrun.lt
        have heq : s.executed.length + 1 = s.submitted.length := by omega
        rw [hrun.regs.next, heq]
      · rw [hfin.stopped.next, if_neg (by have := hfin.eq; omega), hfin.eq]
    simp only [hnext, if_true]
    exact hchain.congr rfl rfl rfl rfl rfl rfl rfl rfl rfl
  · have hne : s.regs.dlastSga ≠ some s.nextTcd := by
      rw [hlocals.next, hunlinked.stopped.next]
      split
      · exact (Option.some_ne_none _).symm
      · intro heq
        have hslot := Option.some.inj heq
        rw [← hunlinked.eq] at hslot
        exact slot_ne_succ hsize _ hslot
    simp only [hne, if_false]
    exact ⟨hunlinked.eq, ⟨hunlinked.stopped.active, hunlinked.stopped.esg, hunlinked.stopped.next⟩,
      hunlinked.filled.congr rfl rfl rfl⟩

lemma Submitting.install (hpc : s.pc = .install) (h : Submitting s) : Submitting (submitTransferStep s) := by
  have hunlinked : Unlinked s := by simpa only [Submitting, hpc] using h
  have heq := hunlinked.eq
  have hlast : s.submitted.length - 1 = s.executed.length := by omega
  have hfilled : Holds (wanted s) s.tcdSize s.executed.length s.submitted.length (s.tcdPool s.currentTcd) := by
    have hholds := hunlinked.filled
    unfold Filled at hholds
    rw [← hlocals.current, hlast] at hholds
    exact hholds
  unfold submitTransferStep
  simp only [hpc]
  refine Or.inl ⟨by dsimp only [installTCD]; omega, rfl, ⟨hfilled.transfer, hfilled.next, ?_, ?_⟩,
    fun k hk hcount => ?_⟩
  · simp only [installTCD, writeCsr, Bool.and_false, Bool.false_eq_true, if_false]
    exact hfilled.esg
  · simp only [installTCD, writeCsr, Bool.and_false, Bool.false_and]
  · dsimp only [installTCD] at hk hcount
    omega

end Access

lemma writeCsr_dreq (regs : Tcd) (b : Bool) :
    writeCsr regs { regs.csr with dreq := b } = { regs with csr := { regs.csr with dreq := b } } := by
  cases hdone : regs.csr.done <;> simp [writeCsr, hdone]

/-- Every access of a submission keeps what holds there, if there is room for the submission. -/
lemma Submitting.access {s : Sys} (h : Submitting s) (hlocals : s.pc ≠ .idle → Locals s) (hpos : 0 < s.tcdSize)
    (hroom : s.submitted.length ≤ s.executed.length + 1 + s.tcdSize)
    (hone : s.tcdSize = 1 → s.submitted.length ≤ s.executed.length + 1) :
    Submitting (submitTransferStep s) := by
  cases hpc : s.pc with
  | idle =>
    have hsame : submitTransferStep s = s := by simp only [submitTransferStep, hpc]
    rwa [hsame]
  | fill config => exact h.fill (hlocals (by rw [hpc]; nofun)) hpc hpos hroom hone
  | chain => exact h.chain (hlocals (by rw [hpc]; nofun)) hpc hroom
  | checkPrevious => exact h.checkPrevious (hlocals (by rw [hpc]; nofun)) hpc hroom
  | checkFirst => exact h.checkFirst (hlocals (by rw [hpc]; nofun)) hpc
  | readDreq =>
    have hlinking : Linking s := by simpa only [Submitting, hpc] using h
    simp only [submitTransferStep, hpc]
    exact ⟨hlinking.congr rfl rfl rfl rfl rfl rfl rfl rfl rfl, rfl⟩
  | writeDreq csr =>
    obtain ⟨hlinking, rfl⟩ : Linking s ∧ csr = s.regs.csr := by simpa only [Submitting, hpc] using h
    simp only [submitTransferStep, hpc, writeCsr_dreq]
    exact hlinking.congr rfl rfl rfl rfl rfl rfl rfl rfl rfl
  | readEsg =>
    have hlinking : Linking s := by simpa only [Submitting, hpc] using h
    simp only [submitTransferStep, hpc]
    exact hlinking.congr rfl rfl rfl rfl rfl rfl rfl rfl rfl
  | writeEsg csr => exact h.writeEsg hpc
  | checkEsg => exact h.checkEsg hpc
  | checkNext => exact h.checkNext (hlocals (by rw [hpc]; nofun)) hpc
  | install => exact h.install (hlocals (by rw [hpc]; nofun)) hpc
  | readClear =>
    have hchain : Chain s s.submitted.length := by simpa only [Submitting, hpc] using h
    simp only [submitTransferStep, hpc]
    exact ⟨hchain.congr rfl rfl rfl rfl rfl rfl rfl rfl rfl, rfl⟩
  | writeClear csr =>
    obtain ⟨hchain, rfl⟩ : Chain s s.submitted.length ∧ csr = s.regs.csr := by
      simpa only [Submitting, hpc] using h
    simp only [submitTransferStep, hpc, writeCsr_dreq]
    exact hchain.congr rfl rfl rfl rfl rfl rfl rfl rfl rfl

/-- What an access of a submission leaves alone. -/
structure SameQueue (s s' : Sys) : Prop where
  header : s'.header = s.header
  tail : s'.tail = s.tail
  tcdUsed : s'.tcdUsed = s.tcdUsed
  tcdSize : s'.tcdSize = s.tcdSize
  int : s'.int = s.int
  currentTcd : s'.currentTcd = s.currentTcd
  previousTcd : s'.previousTcd = s.previousTcd
  nextTcd : s'.nextTcd = s.nextTcd
  submitted : s'.submitted = s.submitted
  executed : s'.executed = s.executed
  reported : s'.reported = s.reported

lemma sameQueue_submitTransferStep (s : Sys) : SameQueue s (submitTransferStep s) := by
  unfold submitTransferStep
  split <;> exact ⟨rfl, rfl, rfl, rfl, rfl, rfl, rfl, rfl, rfl, rfl, rfl⟩

/-- What a completion leaves alone. -/
structure SameSubmission (s s' : Sys) : Prop where
  header : s'.header = s.header
  tail : s'.tail = s.tail
  tcdUsed : s'.tcdUsed = s.tcdUsed
  tcdSize : s'.tcdSize = s.tcdSize
  tcdPool : s'.tcdPool = s.tcdPool
  pc : s'.pc = s.pc
  currentTcd : s'.currentTcd = s.currentTcd
  previousTcd : s'.previousTcd = s.previousTcd
  nextTcd : s'.nextTcd = s.nextTcd
  submitted : s'.submitted = s.submitted
  reported : s'.reported = s.reported

lemma sameSubmission_complete (s : Sys) : SameSubmission s (complete s) := by
  unfold complete
  split
  · dsimp only
    split
    · split <;> exact ⟨rfl, rfl, rfl, rfl, rfl, rfl, rfl, rfl, rfl, rfl, rfl⟩
    · exact ⟨rfl, rfl, rfl, rfl, rfl, rfl, rfl, rfl, rfl, rfl, rfl⟩
  · exact ⟨rfl, rfl, rfl, rfl, rfl, rfl, rfl, rfl, rfl, rfl, rfl⟩

lemma complete_executed_length {s : Sys} (hactive : s.active = true) :
    (complete s).executed.length = s.executed.length + 1 := by
  unfold complete
  rw [if_pos hactive]
  dsimp only
  split
  · split <;> exact List.length_append
  · exact List.length_append

/-- Whether a completion of a descriptor with this `ESG` may come before the next access: not between the
reading and the writing back of `DREQ`, and between the check of the link and the writing of `ESG` only
if there is none. -/
def Pc.tolerates (esg : Bool) : Pc → Bool
  | .writeDreq _ | .writeClear _ => false
  | .readDreq | .readEsg | .writeEsg _ => !esg
  | _ => true

/-- A completion, if there is one, does not disturb the accesses to `CSR`. -/
def Undisturbed (s : Sys) : Prop :=
  s.active = true → s.pc.tolerates s.regs.csr.esg = true

instance (s : Sys) : Decidable (Undisturbed s) :=
  inferInstanceAs (Decidable (s.active = true → s.pc.tolerates s.regs.csr.esg = true))

lemma Linking.complete {s : Sys} (h : Linking s) (hactive : s.active = true) (hesg : s.regs.csr.esg = false) :
    Linking (complete s) := by
  have hsame := sameSubmission_complete s
  obtain ⟨hsize, htwo, ⟨hrun | hfin, hprev⟩ | ⟨hchain, hlate, hfilled⟩⟩ := h
  · rw [hrun.regs.esg, decide_eq_false_iff_not] at hesg
    omega
  · exact absurd hfin.eq (by omega)
  · unfold Linking
    rw [hsame.tcdSize, hsame.submitted, complete_executed_length hactive]
    exact ⟨hsize, htwo, Or.inr ⟨hchain.complete, by omega,
      hfilled.congr hsame.submitted hsame.tcdSize hsame.tcdPool⟩⟩

/-- Undisturbed completions keep what holds at each access. -/
lemma Submitting.complete {s : Sys} (h : Submitting s) (hundisturbed : Undisturbed s) :
    Submitting (complete s) := by
  by_cases hactive : s.active = true
  · have hsame := sameSubmission_complete s
    have hlength := complete_executed_length hactive
    have hcond := hundisturbed hactive
    have hfilled (hf : Filled s) : Filled (Edma.complete s) :=
      hf.congr hsame.submitted hsame.tcdSize hsame.tcdPool
    have hstopped (hs : Stopped s) : False := Bool.false_ne_true (hs.active.symm.trans hactive)
    unfold Submitting at h ⊢
    rw [hsame.pc, hsame.submitted, hsame.tcdSize]
    cases hpc : s.pc with rw [hpc] at h hcond
    | idle => exact h.complete
    | fill config =>
      refine ⟨h.1.complete, ?_⟩
      rw [wanted, hsame.submitted]
      exact h.2
    | chain => exact ⟨h.1, h.2.1.complete, hfilled h.2.2⟩
    | checkPrevious =>
      obtain ⟨hsize, hchain | ⟨hchain, hlate, hf⟩⟩ := h
      · exact ⟨hsize, Or.inl hchain.complete⟩
      · exact ⟨hsize, Or.inr ⟨hchain.complete, by omega, hfilled hf⟩⟩
    | checkFirst =>
      obtain hchain | ⟨hfirst, hchain, hf⟩ := h
      · exact Or.inl hchain.complete
      · exact Or.inr ⟨hfirst, hchain.complete, hfilled hf⟩
    | readDreq => exact h.complete hactive (by simpa [Pc.tolerates] using hcond)
    | writeDreq csr => exact absurd hcond Bool.false_ne_true
    | readEsg => exact h.complete hactive (by simpa [Pc.tolerates] using hcond)
    | writeEsg csr => exact h.complete hactive (by simpa [Pc.tolerates] using hcond)
    | checkEsg =>
      obtain ⟨hsize, hchain | hunlinked⟩ := h
      · exact ⟨hsize, Or.inl hchain.complete⟩
      · exact absurd hunlinked.stopped hstopped
    | checkNext =>
      obtain ⟨hsize, ⟨hchain, hle⟩ | hunlinked⟩ := h
      · exact ⟨hsize, Or.inl ⟨hchain.complete, by omega⟩⟩
      · exact absurd hunlinked.stopped hstopped
    | install => exact absurd h.stopped hstopped
    | readClear => exact h.complete
    | writeClear csr => exact absurd hcond Bool.false_ne_true
  · have hidle : Edma.complete s = s := by rw [Edma.complete, if_neg hactive]
    rwa [hidle]

/-- What holds of a submission does not depend on the queue's counters. -/
lemma Submitting.congr {s s' : Sys} (h : Submitting s) (hpc : s'.pc = s.pc) (hsub : s'.submitted = s.submitted)
    (hexec : s'.executed = s.executed) (hsize : s'.tcdSize = s.tcdSize) (hpool : s'.tcdPool = s.tcdPool)
    (hactive : s'.active = s.active) (hregs : s'.regs = s.regs) : Submitting s' := by
  have hchain {count : Nat} (hc : Chain s count) : Chain s' count :=
    hc.congr hsub hexec hsize hpool hactive (by rw [hregs]) (by rw [hregs]) (by rw [hregs]) (by rw [hregs])
  have hlinking (hl : Linking s) : Linking s' :=
    hl.congr hsub hexec hsize hpool hactive (by rw [hregs]) (by rw [hregs]) (by rw [hregs]) (by rw [hregs])
  have hfilled (hf : Filled s) : Filled s' := hf.congr hsub hsize hpool
  have hunlinked (hu : Unlinked s) : Unlinked s' := hu.congr hsub hexec hsize hpool hactive hregs
  have hwanted : wanted s' = wanted s := by rw [wanted, hsub, wanted]
  unfold Submitting at h ⊢
  rw [hpc, hsub, hexec, hsize, hregs, hwanted]
  cases hcase : s.pc with rw [hcase] at h
  | idle => exact hchain h
  | fill config => exact ⟨hchain h.1, h.2⟩
  | chain => exact ⟨h.1, hchain h.2.1, hfilled h.2.2⟩
  | checkPrevious => exact ⟨h.1, h.2.imp hchain (fun hr => ⟨hchain hr.1, hr.2.1, hfilled hr.2.2⟩)⟩
  | checkFirst => exact h.imp hchain (fun hr => ⟨hr.1, hchain hr.2.1, hfilled hr.2.2⟩)
  | readDreq => exact hlinking h
  | writeDreq csr => exact ⟨hlinking h.1, h.2⟩
  | readEsg => exact hlinking h
  | writeEsg csr => exact hlinking h
  | checkEsg => exact ⟨h.1, h.2.imp hchain hunlinked⟩
  | checkNext => exact ⟨h.1, h.2.imp (fun hl => ⟨hchain hl.1, hl.2⟩) hunlinked⟩
  | install => exact hunlinked h
  | readClear => exact hchain h
  | writeClear csr => exact ⟨hchain h.1, h.2⟩

lemma Chain.begin {s : Sys} {count : Nat} (h : Chain s count) (hcount : count ≤ s.submitted.length)
    (config : TransferConfig) : Chain (submitTransferBegin s config) count := by
  have hholds {k : Nat} {tcd : Tcd} (hk : k < count) (hh : Holds (wanted s) s.tcdSize k count tcd) :
      Holds (wanted s ++ [config.transfer]) s.tcdSize k count tcd := by
    refine ⟨?_, hh.next, hh.esg, hh.done⟩
    rw [List.getElem?_append_left (by rw [wanted, List.length_map]; omega)]
    exact hh.transfer
  have hwanted : (s.submitted ++ [config]).map TransferConfig.transfer = wanted s ++ [config.transfer] := by
    rw [List.map_append, List.map_singleton, wanted]
  unfold submitTransferBegin
  split
  · exact h
  · rcases h with h | h
    · refine Or.inl ⟨h.lt, h.active, ?_, fun k hk hlt => ?_⟩
      · unfold wanted
        rw [hwanted]
        exact hholds h.lt h.regs
      · unfold wanted
        rw [hwanted]
        exact hholds hlt (h.pool k hk hlt)
    · exact Or.inr ⟨h.eq, ⟨h.stopped.active, h.stopped.esg, h.stopped.next⟩, h.done⟩

lemma linked_eq_drop {w : List Transfer} {size : Nat} {tcdPool : Nat → Tcd} (fuel : Nat) {k : Nat} {tcd : Tcd}
    (hk : k < w.length) (htcd : Holds w size k w.length tcd)
    (hpool : ∀ j, k < j → j < w.length → Holds w size j w.length (tcdPool (j % size)))
    (hfuel : w.length ≤ k + fuel) : linked tcdPool fuel tcd = w.drop k := by
  induction fuel generalizing k tcd with
  | zero => omega
  | succ fuel ih =>
    obtain ⟨hlt, hget⟩ := List.getElem?_eq_some_iff.mp htcd.transfer
    rw [List.drop_eq_getElem_cons hk, hget, linked]
    congr 1
    by_cases hmore : k + 1 < w.length
    · rw [htcd.esg, decide_eq_true hmore, if_pos rfl, htcd.next]
      exact ih hmore (hpool (k + 1) (Nat.lt_succ_self k) hmore) (fun j hj => hpool j (by omega)) (by omega)
    · rw [htcd.esg, decide_eq_false hmore, if_neg Bool.false_ne_true, List.drop_of_length_le (by omega)]

/-- The channel is going to make exactly the transfers submitted and not yet executed. -/
lemma Chain.pending_eq {s : Sys} (h : Chain s s.submitted.length)
    (hroom : s.submitted.length ≤ s.executed.length + 1 + s.tcdSize) :
    pending s = (wanted s).drop s.executed.length := by
  have hlength : (wanted s).length = s.submitted.length := by rw [wanted, List.length_map]
  rcases h with h | h
  · rw [pending, if_pos h.active]
    rw [← hlength] at h
    exact linked_eq_drop _ h.lt h.regs h.pool (by omega)
  · rw [pending, if_neg (by rw [h.stopped.active]; exact Bool.false_ne_true), List.drop_of_length_le]
    rw [hlength, h.eq]

end McuxDrivers.Edma
