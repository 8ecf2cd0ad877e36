import McuxDrivers.Edma.Chain

/-!
# The counts of the interrupt handler

`EDMA_HandleIRQ` infers how many descriptors are finished from the slot in the registers and its own
`header`. The header is the slot of a submission number that either equals the sum reported or is one
behind it. The sum is right as long as the handler, when it finds another slot than the header's,
finds a channel that is done exactly if the header is behind.
-/

namespace McuxDrivers.Edma
open McuxDrivers.Lib

/-- The number of the submission whose descriptor is in the registers. -/
def ordinal (s : Sys) : Nat :=
  if s.active then s.executed.length else s.executed.length - 1

/-- What the registers of the channel say about the submissions. -/
structure Hardware (s : Sys) : Prop where
  lt : s.active = true → s.executed.length < s.submitted.length
  transfer : s.active = true → (wanted s)[s.executed.length]? = some s.regs.transfer
  next : s.active = true → s.regs.dlastSga = some ((s.executed.length + 1) % s.tcdSize)
  done : s.active = true → s.regs.csr.done = false
  stopped : s.active = false → Stopped s
  le : s.executed.length ≤ s.submitted.length

/-- The header stands for submission `h`. -/
structure Account (s : Sys) (h : Nat) : Prop where
  header : s.header = h % s.tcdSize
  le_reported : (h : Int) ≤ s.reported
  reported_le : s.reported ≤ h + 1
  behind : h ≤ ordinal s
  tcdUsed : s.tcdUsed = s.submitted.length - s.reported
  released : s.reported ≤ s.submitted.length
  room : (s.submitted.length : Int) ≤ s.reported + s.tcdSize

lemma Stopped.hardware {s : Sys} (h : Stopped s) (hle : s.executed.length ≤ s.submitted.length) :
    Hardware s := by
  have hno : ¬ s.active = true := by
    rw [h.active]
    exact Bool.false_ne_true
  exact ⟨fun hact => absurd hact hno, fun hact => absurd hact hno, fun hact => absurd hact hno,
    fun hact => absurd hact hno, fun _ => h, hle⟩

lemma Chain.hardware {s : Sys} {count : Nat} (h : Chain s count) (hcount : count ≤ s.submitted.length) :
    Hardware s := by
  rcases h with h | h
  · have hlt := h.lt
    exact ⟨fun _ => by omega, fun _ => h.regs.transfer, fun _ => h.regs.next, fun _ => h.regs.done,
      fun hstop => absurd (hstop.symm.trans h.active) Bool.false_ne_true, by omega⟩
  · exact h.stopped.hardware (h.eq.le.trans hcount)

section Arithmetic

lemma int8_eq {x : Int} (hlo : -128 ≤ x) (hhi : x < 128) : Int.bmod x 256 = x := by
  rw [Int.bmod_eq_of_le] <;> omega

/-- The slot before the one the descriptor of submission `k` links to. -/
lemma slot_of_next {size : Nat} (hsize : 0 < size) (k : Nat) :
    (if (k + 1) % size ≠ 0 then (k + 1) % size - 1 else size - 1) = k % size := by
  have hlt := Nat.mod_lt k hsize
  rw [← Nat.mod_add_mod]
  by_cases hwrap : k % size + 1 = size
  · rw [hwrap, Nat.mod_self, if_neg (not_not_intro rfl)]
    omega
  · rw [Nat.mod_eq_of_lt (by omega : k % size + 1 < size), if_pos (Nat.succ_ne_zero _)]
    rfl

/-- The distance of two slots, from the first to the second around the pool. -/
lemma slot_distance {size h k : Nat} (hle : h ≤ k) (hlt : k < h + size) :
    (if (((k % size : Nat) : Int) - (h % size : Nat)) < 0 then ((k % size : Nat) : Int) - (h % size : Nat) + size
      else ((k % size : Nat) : Int) - (h % size : Nat)) = (k : Int) - h := by
  obtain ⟨d, rfl⟩ := Nat.exists_eq_add_of_le hle
  have hmod := Nat.mod_lt h (by omega : 0 < size)
  rw [← Nat.mod_add_mod]
  by_cases hwrap : h % size + d < size
  · rw [Nat.mod_eq_of_lt hwrap]
    split <;> omega
  · have hsub : (h % size + d) % size = h % size + d - size := by
      rw [Nat.mod_eq_sub_mod (by omega), Nat.mod_eq_of_lt (by omega)]
    rw [hsub]
    split <;> omega

end Arithmetic

section Handler

variable {s : Sys} {h : Nat}

lemma Hardware.newHeader_eq (hw : Hardware s) (hsize : 0 < s.tcdSize) (hne : s.executed.length ≠ 0) :
    newHeader s = ordinal s % s.tcdSize := by
  have hnext : s.regs.dlastSga = some ((ordinal s + 1) % s.tcdSize) := by
    unfold ordinal
    cases hactive : s.active with
    | true => exact hw.next hactive
    | false =>
      have hstopped := (hw.stopped hactive).next
      rw [if_neg hne] at hstopped
      rw [hstopped, if_neg Bool.false_ne_true, Nat.sub_add_cancel (Nat.pos_of_ne_zero hne)]
  unfold newHeader
  rw [hnext]
  exact slot_of_next hsize _

lemma Hardware.ordinal_lt (hw : Hardware s) (hne : s.executed.length ≠ 0) :
    ordinal s < s.submitted.length := by
  have hle := hw.le
  unfold ordinal
  split
  next hactive => exact hw.lt hactive
  · omega

lemma Hardware.inactive_of_done (hw : Hardware s) (hdone : s.regs.csr.done = true) : s.active = false := by
  by_contra hactive
  rw [hw.done (by simpa using hactive)] at hdone
  exact Bool.false_ne_true hdone

/-- The handler moves the header, releases the finished descriptors and, when it finds another slot in a
channel that is done, clears `DONE`. -/
lemma Hardware.handleIRQ_eq (hw : Hardware s) :
    handleIRQ s = { s with
      int := false, header := newHeader s, tcdUsed := Int.bmod (s.tcdUsed - tcdsDone s) 256
      reported := s.reported + tcdsDone s
      regs := if newHeader s ≠ s.header ∧ s.regs.csr.done = true then
          { s.regs with csr := { s.regs.csr with done := false } }
        else s.regs } := by
  have hesg : s.regs.csr.done = true → s.regs.csr.esg = false := fun hdone =>
    (hw.stopped (hw.inactive_of_done hdone)).esg
  have hnew : newHeader { s with int := false } = newHeader s := rfl
  have hcount : tcdsDone { s with int := false } = tcdsDone s := rfl
  unfold handleIRQ clearDone
  by_cases hdone : s.regs.csr.done = true
  · by_cases hslot : newHeader s = s.header
    · simp [hnew, hcount, hdone, hslot, hesg hdone]
    · simp [hnew, hcount, hdone, hslot, hesg hdone]
  · simp [hnew, hcount, hdone]

lemma tcdsDone_eq_zero (hslot : newHeader s = s.header) (hdone : s.regs.csr.done = false) : tcdsDone s = 0 := by
  rw [tcdsDone, if_pos hslot, if_neg (by rw [hdone]; exact fun hand => Bool.false_ne_true hand.2)]

lemma Hardware.tcdsDone_eq_tcdUsed (hw : Hardware s) (hslot : newHeader s = s.header)
    (hdone : s.regs.csr.done = true) : tcdsDone s = s.tcdUsed := by
  have hesg : s.regs.csr.esg = false := (hw.stopped (hw.inactive_of_done hdone)).esg
  rw [tcdsDone, if_pos hslot, if_pos ⟨Or.inr (by rw [hesg]; exact Bool.false_ne_true), hdone⟩]

/-- Another slot: the submissions from the header's up to the one in the registers. -/
lemma Account.tcdsDone_eq_sub (hacc : Account s h) (hw : Hardware s) (hsize : 0 < s.tcdSize)
    (hne : s.executed.length ≠ 0) (hslot : newHeader s ≠ s.header) :
    tcdsDone s = (ordinal s : Int) - h := by
  have hnew := hw.newHeader_eq hsize hne
  have hlt := hw.ordinal_lt hne
  have hle := hacc.behind
  have hroom := hacc.room
  have hrep := hacc.reported_le
  have hfar : ordinal s ≠ h + s.tcdSize := by
    intro heq
    apply hslot
    rw [hnew, hacc.header, heq, Nat.add_mod_right]
  rw [tcdsDone, if_neg hslot, hnew, hacc.header]
  exact slot_distance hle (by omega)

end Handler

section Account

variable {s : Sys} {h : Nat} (hacc : Account s h) (hw : Hardware s) (hmax : s.tcdSize ≤ 127)

include hacc hw hmax

/-- The handler keeps the account when its count is one that the header's new submission `k` explains. -/
lemma Account.release {k : Nat} (hheader : newHeader s = k % s.tcdSize) (hnonneg : 0 ≤ tcdsDone s)
    (hle : (k : Int) ≤ s.reported + tcdsDone s) (hge : s.reported + tcdsDone s ≤ k + 1)
    (hbehind : k ≤ ordinal s) (hrel : s.reported + tcdsDone s ≤ s.submitted.length) :
    Account (handleIRQ s) k := by
  have hused := hacc.tcdUsed
  have hroom := hacc.room
  rw [hw.handleIRQ_eq]
  refine ⟨hheader, hle, hge, hbehind, ?_, hrel, ?_⟩
  · dsimp only
    rw [int8_eq (by omega) (by omega)]
    omega
  · dsimp only
    omega

/-- No other slot and not done: the account stays as it is. -/
lemma Account.handleIRQ_same (hslot : newHeader s = s.header) (hdone : s.regs.csr.done = false) :
    Account (handleIRQ s) h := by
  have hzero := tcdsDone_eq_zero hslot hdone
  have hle := hacc.le_reported
  have hge := hacc.reported_le
  have hrel := hacc.released
  exact hacc.release hw hmax (hslot.trans hacc.header) (by omega) (by omega) (by omega) hacc.behind (by omega)

variable (hsize : 0 < s.tcdSize) (hne : s.executed.length ≠ 0)

include hsize hne

/-- No other slot and done: everything submitted is reported, and the header falls one behind. -/
lemma Account.handleIRQ_done (hslot : newHeader s = s.header) (hdone : s.regs.csr.done = true)
    (hlast : s.executed.length = s.submitted.length) : Account (handleIRQ s) (ordinal s) := by
  have htcds := hw.tcdsDone_eq_tcdUsed hslot hdone
  have hused := hacc.tcdUsed
  have hrel := hacc.released
  have hordinal : ordinal s = s.executed.length - 1 := by
    rw [ordinal, hw.inactive_of_done hdone, if_neg Bool.false_ne_true]
  exact hacc.release hw hmax (hw.newHeader_eq hsize hne) (by omega) (by omega) (by omega) le_rfl (by omega)

/-- Another slot: the header moves on to the submission in the registers. -/
lemma Account.handleIRQ_moved (hslot : newHeader s ≠ s.header) : Account (handleIRQ s) (ordinal s) := by
  have htcds := hacc.tcdsDone_eq_sub hw hsize hne hslot
  have hle := hacc.le_reported
  have hge := hacc.reported_le
  have hbehind := hacc.behind
  have hlt := hw.ordinal_lt hne
  exact hacc.release hw hmax (hw.newHeader_eq hsize hne) (by omega) (by omega) (by omega) le_rfl (by omega)

end Account

lemma Account.mono {s s' : Sys} {h : Nat} (hacc : Account s h) (hheader : s'.header = s.header)
    (hreported : s'.reported = s.reported) (hused : s'.tcdUsed = s.tcdUsed) (hsub : s'.submitted = s.submitted)
    (hsize : s'.tcdSize = s.tcdSize) (hordinal : ordinal s ≤ ordinal s') : Account s' h := by
  refine ⟨?_, ?_, ?_, hacc.behind.trans hordinal, ?_, ?_, ?_⟩
  · rw [hheader, hsize]
    exact hacc.header
  · rw [hreported]
    exact hacc.le_reported
  · rw [hreported]
    exact hacc.reported_le
  · rw [hused, hsub, hreported]
    exact hacc.tcdUsed
  · rw [hsub, hreported]
    exact hacc.released
  · rw [hsub, hreported, hsize]
    exact hacc.room

/-- An access can only start the channel. -/
lemma ordinal_submitTransferStep (s : Sys) : ordinal s ≤ ordinal (submitTransferStep s) := by
  have hactive : s.active = true → (submitTransferStep s).active = true := by
    intro hactive
    unfold submitTransferStep
    split
    all_goals first
      | exact hactive
      | rfl
  unfold ordinal
  rw [(sameQueue_submitTransferStep s).executed]
  split
  next hrunning => rw [if_pos (hactive hrunning)]
  · split <;> omega

lemma Account.access {s : Sys} {h : Nat} (hacc : Account s h) : Account (submitTransferStep s) h :=
  let hsame := sameQueue_submitTransferStep s
  hacc.mono hsame.header hsame.reported hsame.tcdUsed hsame.submitted hsame.tcdSize
    (ordinal_submitTransferStep s)

lemma ordinal_complete (s : Sys) : ordinal s ≤ ordinal (complete s) := by
  by_cases hactive : s.active = true
  · have hlength := complete_executed_length hactive
    unfold ordinal
    rw [if_pos hactive, hlength]
    split <;> omega
  · rw [complete, if_neg hactive]

lemma Account.complete {s : Sys} {h : Nat} (hacc : Account s h) : Account (complete s) h :=
  let hsame := sameSubmission_complete s
  hacc.mono hsame.header hsame.reported hsame.tcdUsed hsame.submitted hsame.tcdSize (ordinal_complete s)

lemma Account.begin {s : Sys} {h : Nat} (hacc : Account s h) (hmax : s.tcdSize ≤ 127)
    (config : TransferConfig) : Account (submitTransferBegin s config) h := by
  unfold submitTransferBegin
  split
  · exact hacc
  next hfull =>
    have hused := hacc.tcdUsed
    have hrel := hacc.released
    have hroom := hacc.room
    refine ⟨hacc.header, hacc.le_reported, hacc.reported_le, hacc.behind, ?_, ?_, ?_⟩
    · rw [int8_eq (by omega) (by omega), List.length_append, List.length_singleton]
      dsimp only
      omega
    · rw [List.length_append, List.length_singleton]
      dsimp only
      omega
    · rw [List.length_append, List.length_singleton]
      dsimp only
      omega

end McuxDrivers.Edma
