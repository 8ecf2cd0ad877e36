import McuxDrivers.Edma.ScatterGather

/-!
# The finished descriptors are counted once

The sum of the counts the interrupt handler reports never exceeds the number of completed descriptors and
catches up with it when the channel is idle, if no completion disturbs the accesses to `CSR` and every
interrupt that moves the header finds the channel done exactly when the header is one behind the sum. An
interrupt may come between any two accesses of a submission.
-/

namespace McuxDrivers.Edma
open McuxDrivers.Lib

/-- The descriptor of the header's slot is reported already: the first one that is not is in another slot. -/
def HeaderBehind (s : Sys) : Prop :=
  (s.header : Int) ≠ (s.tail - s.tcdUsed) % s.tcdSize

instance (s : Sys) : Decidable (HeaderBehind s) :=
  inferInstanceAs (Decidable ((s.header : Int) ≠ (s.tail - s.tcdUsed) % s.tcdSize))

/-- A completion that does not disturb the accesses to `CSR`, and an interrupt whose count is right: with the header's slot in
the registers of a channel that is done, everything submitted is completed, and with another slot the channel is done exactly if
the header is behind. -/
def CountsRight (s : Sys) : Event → Prop
  | .complete => Undisturbed s
  | .irq => s.int = true →
    (newHeader s = s.header → s.regs.csr.done = true → s.executed.length = s.submitted.length) ∧
      (newHeader s ≠ s.header → (s.regs.csr.done = true ↔ HeaderBehind s))
  | _ => True

instance : (s : Sys) → (e : Event) → Decidable (CountsRight s e)
  | s, .complete => inferInstanceAs (Decidable (Undisturbed s))
  | s, .irq => inferInstanceAs (Decidable (s.int = true →
      (newHeader s = s.header → s.regs.csr.done = true → s.executed.length = s.submitted.length) ∧
        (newHeader s ≠ s.header → (s.regs.csr.done = true ↔ HeaderBehind s))))
  | _, .submit _ | _, .access => isTrue trivial

section Lost

/-- The channel has stopped without `DONE`, so that a submission that has not read it will be linked to a completed
descriptor. -/
structure Lost (s : Sys) : Prop where
  active : s.active = false
  int : s.int = false
  done : s.regs.csr.done = false
  next : s.regs.dlastSga ≠ none
  two : 2 ≤ s.tcdSize

/-- The submission does not come to the point where it installs its descriptor. -/
def Pc.Linked (s : Sys) : Pc → Prop
  | .fill _ => s.currentTcd ≠ s.previousTcd
  | .checkEsg => s.regs.csr.esg = true ∨ s.regs.dlastSga = some s.nextTcd
  | .checkNext => s.regs.dlastSga = some s.nextTcd
  | .install => False
  | _ => True

lemma Lost.access {s : Sys} (h : Lost s) (hlinked : s.pc.Linked s) :
    Lost (submitTransferStep s) ∧ (submitTransferStep s).pc.Linked (submitTransferStep s) := by
  have hnext := h.next
  have hwrite (csr : Csr) (pc : Pc) : Lost { s with regs := writeCsr s.regs csr, pc := pc } :=
    ⟨h.active, h.int, by simp [writeCsr, h.done], h.next, h.two⟩
  have hread (pc : Pc) : Lost { s with pc := pc } := ⟨h.active, h.int, h.done, h.next, h.two⟩
  unfold submitTransferStep
  cases hpc : s.pc with rw [hpc] at hlinked
  | idle => exact ⟨h, by rw [hpc]; trivial⟩
  | fill config =>
    have hne : s.currentTcd ≠ s.previousTcd := hlinked
    simp only [ne_eq, hne, not_false_eq_true, if_true]
    exact ⟨⟨h.active, h.int, h.done, h.next, h.two⟩, trivial⟩
  | chain => exact ⟨⟨h.active, h.int, h.done, h.next, h.two⟩, trivial⟩
  | checkPrevious =>
    refine ⟨hread _, ?_⟩
    dsimp only
    split <;> trivial
  | checkFirst =>
    simp only [ne_eq, hnext, not_false_eq_true, if_true]
    exact ⟨hread _, trivial⟩
  | readDreq => exact ⟨hread _, trivial⟩
  | writeDreq csr => exact ⟨hwrite _ _, trivial⟩
  | readEsg => exact ⟨hread _, trivial⟩
  | writeEsg csr =>
    refine ⟨hwrite _ _, Or.inl ?_⟩
    simp [writeCsr, h.done]
  | checkEsg =>
    have hlink : s.regs.csr.esg = true ∨ s.regs.dlastSga = some s.nextTcd := hlinked
    refine ⟨hread _, ?_⟩
    dsimp only
    split
    · trivial
    next hesg => exact hlink.resolve_left hesg
  | checkNext =>
    have hlink : s.regs.dlastSga = some s.nextTcd := hlinked
    simp only [hlink, if_true]
    exact ⟨hread _, trivial⟩
  | install => exact hlinked.elim
  | readClear => exact ⟨hread _, trivial⟩
  | writeClear csr => exact ⟨hwrite _ _, trivial⟩

lemma Lost.begin {s : Sys} (h : Lost s) (hpc : s.pc = .idle) (config : TransferConfig) :
    Lost (submitTransferBegin s config) ∧ (submitTransferBegin s config).pc.Linked (submitTransferBegin s config) := by
  have htwo := h.two
  unfold submitTransferBegin
  split
  · exact ⟨h, by rw [hpc]; trivial⟩
  · refine ⟨⟨h.active, h.int, h.done, h.next, h.two⟩, ?_⟩
    dsimp only [Pc.Linked]
    split <;> omega

/-- A submission that finds the channel stopped installs its descriptor, or it has been linked already or will be. -/
lemma Submitting.unlinked_or_linked {s : Sys} (h : Submitting s) (hlocals : s.pc ≠ .idle → Locals s) (htwo : 2 ≤ s.tcdSize)
    (hactive : s.active = false) :
    (s.pc = .checkEsg ∨ s.pc = .checkNext ∨ s.pc = .install) ∧ Unlinked s ∨ s.pc.Linked s := by
  have hfinished {count : Nat} (hchain : Chain s count) : Finished s count := by
    rcases hchain with hrun | hfin
    · exact absurd (hactive.symm.trans hrun.active) Bool.false_ne_true
    · exact hfin
  have hlast (hl : Locals s) (hchain : Chain s s.submitted.length) : s.regs.dlastSga = some s.nextTcd := by
    have heq := (hfinished hchain).eq
    have hpos := hl.pos
    rw [hl.next, (hfinished hchain).stopped.next, heq, if_neg (by omega)]
  unfold Submitting at h
  cases hpc : s.pc with rw [hpc] at h hlocals
  | fill config =>
    have hl := hlocals Pc.noConfusion
    right
    have hne : s.currentTcd ≠ s.previousTcd := by
      rw [hl.current, hl.previous]
      intro heq
      have := slot_inj (Nat.le_add_right _ _) (by omega) heq
      omega
    exact hne
  | checkEsg =>
    obtain ⟨-, hchain | hunlinked⟩ := h
    · exact Or.inr (Or.inr (hlast (hlocals Pc.noConfusion) hchain))
    · exact Or.inl ⟨Or.inl rfl, hunlinked⟩
  | checkNext =>
    obtain ⟨-, hchain | hunlinked⟩ := h
    · exact Or.inr (hlast (hlocals Pc.noConfusion) hchain.1)
    · exact Or.inl ⟨Or.inr (Or.inl rfl), hunlinked⟩
  | install => exact Or.inl ⟨Or.inr (Or.inr rfl), h⟩
  | _ => exact Or.inr trivial

/-- A channel that has made everything is done. -/
lemma Submitting.done_of_all {s : Sys} (h : Submitting s) (hlocals : s.pc ≠ .idle → Locals s)
    (hall : s.executed.length = s.submitted.length) (hne : s.executed.length ≠ 0) : s.regs.csr.done = true := by
  have hchain (hc : Chain s s.submitted.length) : s.regs.csr.done = true := by
    rcases hc with hrun | hfin
    · have := hrun.lt
      omega
    · rw [hfin.done, decide_eq_true hne]
  have hshort {count : Nat} (hc : Chain s count) (hlt : count < s.submitted.length) : s.regs.csr.done = true := by
    have := hc.executed_le
    omega
  have hunlinked (hu : Unlinked s) : s.regs.csr.done = true := by
    have := hu.eq
    omega
  have hlinking (hl : Linking s) : s.regs.csr.done = true := by
    obtain ⟨-, htwo, hl | hl⟩ := hl
    · omega
    · exact hshort hl.1 (by omega)
  have hpos (hpc : s.pc ≠ .idle) := (hlocals hpc).pos
  unfold Submitting at h
  cases hpc : s.pc with rw [hpc] at h hpos
  | idle => exact hchain h
  | fill config => exact hshort h.1 (by have := hpos Pc.noConfusion; omega)
  | chain => exact hshort h.2.1 (by have := hpos Pc.noConfusion; omega)
  | checkPrevious =>
    obtain ⟨-, h | h⟩ := h
    · exact hchain h
    · exact hshort h.1 (by have := hpos Pc.noConfusion; omega)
  | checkFirst =>
    obtain h | h := h
    · exact hchain h
    · exact hshort h.2.1 (by omega)
  | readDreq => exact hlinking h
  | writeDreq csr => exact hlinking h.1
  | readEsg => exact hlinking h
  | writeEsg csr => exact hlinking h
  | checkEsg => exact h.2.elim hchain hunlinked
  | checkNext => exact h.2.elim (fun hc => hchain hc.1) hunlinked
  | install => exact hunlinked h
  | readClear => exact hchain h
  | writeClear csr => exact hchain h.1

end Lost

/-- The sum is right: it does not exceed the completed descriptors, and without a raised interrupt an idle
channel has nothing left to report. -/
structure Counted (s : Sys) : Prop where
  le : s.reported ≤ s.executed.length
  idle : s.int = false → s.executed.length = s.submitted.length → s.reported = s.submitted.length
  tcdUsed : s.tcdUsed = s.submitted.length - s.reported
  released : s.reported ≤ s.submitted.length
  room : (s.submitted.length : Int) ≤ s.reported + s.tcdSize

structure Counting (size : Nat) (s : Sys) : Prop where
  size_eq : s.tcdSize = size
  counted : Counted s
  channel : Inv s ∨ (Lost s ∧ s.pc.Linked s) ∧ s.reported = s.executed.length

section Step

variable {size : Nat} {s : Sys}

lemma Counting.executed_le (h : Counting size s) : s.executed.length ≤ s.submitted.length := by
  have hrel := h.counted.released
  rcases h.channel with hinv | ⟨-, hall⟩
  · exact hinv.submitting.hardware.le
  · omega

lemma Counted.begin (h : Counted s) (hmax : s.tcdSize ≤ 127) (hexec : s.executed.length ≤ s.submitted.length)
    (config : TransferConfig) : Counted (submitTransferBegin s config) := by
  have hused := h.tcdUsed
  have hrel := h.released
  have hroom := h.room
  unfold submitTransferBegin
  split
  · exact h
  next hfull =>
    refine ⟨h.le, fun _ hall => ?_, ?_, ?_, ?_⟩
    all_goals rw [List.length_append, List.length_singleton] at *
    · dsimp only at hall
      omega
    · dsimp only
      rw [int8_eq (by omega) (by omega)]
      omega
    · dsimp only
      omega
    · dsimp only
      omega

lemma Counted.congr {s' : Sys} (h : Counted s) (hsame : SameQueue s s') : Counted s' := by
  constructor
  · rw [hsame.reported, hsame.executed]
    exact h.le
  · rw [hsame.int, hsame.executed, hsame.submitted, hsame.reported]
    exact h.idle
  · rw [hsame.tcdUsed, hsame.submitted, hsame.reported]
    exact h.tcdUsed
  · rw [hsame.submitted, hsame.reported]
    exact h.released
  · rw [hsame.submitted, hsame.reported, hsame.tcdSize]
    exact h.room

lemma Counting.begin (hmax : size ≤ 127) (h : Counting size s) (hpc : s.pc = .idle) (config : TransferConfig) :
    Counting size (submitTransferBegin s config) := by
  have hframe : (submitTransferBegin s config).tcdSize = s.tcdSize ∧
      (submitTransferBegin s config).reported = s.reported ∧
      (submitTransferBegin s config).executed = s.executed := by
    unfold submitTransferBegin
    split <;> exact ⟨rfl, rfl, rfl⟩
  refine ⟨?_, ?_, ?_⟩
  · rw [hframe.1]
    exact h.size_eq
  · exact h.counted.begin (h.size_eq ▸ hmax) h.executed_le config
  · rw [hframe.2.1, hframe.2.2]
    exact h.channel.imp (fun hinv => hinv.begin hpc config) (fun hlost => ⟨hlost.1.1.begin hpc config, hlost.2⟩)

lemma Counting.access (h : Counting size s) : Counting size (submitTransferStep s) := by
  have hsame := sameQueue_submitTransferStep s
  refine ⟨hsame.tcdSize.trans h.size_eq, h.counted.congr hsame, ?_⟩
  rw [hsame.reported, hsame.executed]
  exact h.channel.imp Inv.access (fun hlost => ⟨hlost.1.1.access hlost.1.2, hlost.2⟩)

lemma complete_int (hactive : s.active = true) : (complete s).int = true := by
  unfold complete
  rw [if_pos hactive]
  dsimp only
  split
  · split <;> rfl
  · rfl

lemma Counting.complete (h : Counting size s) (hundisturbed : Undisturbed s) : Counting size (complete s) := by
  by_cases hactive : s.active = true
  · have hsame := sameSubmission_complete s
    have hlength := complete_executed_length hactive
    have hint := complete_int hactive
    have hle := h.counted.le
    have hinv : Inv s := by
      rcases h.channel with hinv | ⟨hlost, -⟩
      · exact hinv
      · exact absurd (hlost.1.active.symm.trans hactive) Bool.false_ne_true
    refine ⟨hsame.tcdSize.trans h.size_eq, ⟨?_, ?_, ?_, ?_, ?_⟩,
      Or.inl (hinv.complete hundisturbed)⟩
    · rw [hsame.reported, hlength]
      omega
    · intro hno
      exact absurd (hno.symm.trans hint) Bool.false_ne_true
    · rw [hsame.tcdUsed, hsame.submitted, hsame.reported]
      exact h.counted.tcdUsed
    · rw [hsame.reported, hsame.submitted]
      exact h.counted.released
    · rw [hsame.submitted, hsame.reported, hsame.tcdSize]
      exact h.counted.room
  · rwa [Edma.complete, if_neg hactive]

/-- The header is behind exactly if it stands for the submission before the first one not reported. -/
lemma Account.headerBehind_iff {h : Nat} (hacc : Account s h) (htwo : 2 ≤ s.tcdSize)
    (htail : s.tail = s.submitted.length % s.tcdSize) : HeaderBehind s ↔ s.reported = h + 1 := by
  have hle := hacc.le_reported
  have hge := hacc.reported_le
  have hfirst : ((s.tail : Int) - s.tcdUsed) % s.tcdSize = s.reported % s.tcdSize := by
    rw [htail, hacc.tcdUsed, Int.natCast_mod, Int.emod_sub_emod]
    congr 1
    omega
  unfold HeaderBehind
  rw [hfirst, hacc.header]
  constructor
  · intro hne
    by_contra hnot
    apply hne
    have heq : s.reported = h := by omega
    rw [heq, Int.natCast_mod]
  · intro heq hslot
    rw [heq] at hslot
    exact slot_ne_succ htwo h (by exact_mod_cast hslot)

/-- What the handler leaves alone and what it counts. -/
lemma Hardware.handleIRQ_frame (hw : Hardware s) :
    (handleIRQ s).tcdSize = s.tcdSize ∧ (handleIRQ s).pc = s.pc ∧ (handleIRQ s).int = false ∧
      (handleIRQ s).submitted = s.submitted ∧ (handleIRQ s).executed = s.executed ∧
      (handleIRQ s).reported = s.reported + tcdsDone s := by
  rw [hw.handleIRQ_eq]
  exact ⟨rfl, rfl, rfl, rfl, rfl, rfl⟩

/-- A sum that is right again after the interrupt. -/
lemma Account.counted_handleIRQ {k : Nat} (hw : Hardware s) (hacc : Account (handleIRQ s) k)
    (hle : s.reported + tcdsDone s ≤ s.executed.length)
    (hidle : s.executed.length = s.submitted.length → s.reported + tcdsDone s = s.submitted.length) :
    Counted (handleIRQ s) := by
  obtain ⟨-, -, -, hsub, hexec, hrep⟩ := hw.handleIRQ_frame
  refine ⟨?_, fun _ => ?_, hacc.tcdUsed, hacc.released, hacc.room⟩
  · rw [hrep, hexec]
    exact hle
  · rw [hexec, hsub, hrep]
    exact hidle

/-- The handler clears `DONE` where it finds another slot: a submission that has read `DONE` installs its descriptor all the
same, and any other is lost. -/
lemma Inv.handleIRQ_cleared (h : Inv s) (hint : s.int = true) (hslot : newHeader s ≠ s.header)
    (hdone : s.regs.csr.done = true) (htwo : 2 ≤ s.tcdSize) :
    Inv (Edma.handleIRQ s) ∨ Lost (Edma.handleIRQ s) ∧ (Edma.handleIRQ s).pc.Linked (Edma.handleIRQ s) := by
  have hw := h.submitting.hardware
  have hne := h.raised hint
  have hinactive := hw.inactive_of_done hdone
  obtain ⟨k, hacc⟩ := h.account
  have hmoved := hacc.handleIRQ_moved hw h.max h.size hne hslot
  have heq := hw.handleIRQ_eq
  rw [if_pos ⟨hslot, hdone⟩] at heq
  rcases h.submitting.unlinked_or_linked h.locals htwo hinactive with ⟨hpc, hunlinked⟩ | hlinked
  · left
    have hstopped : Stopped (Edma.handleIRQ s) := by
      rw [heq]
      exact ⟨hinactive, hunlinked.stopped.esg, hunlinked.stopped.next⟩
    have hfilled : Filled (Edma.handleIRQ s) := by
      rw [heq]
      exact hunlinked.filled.congr rfl rfl rfl
    have hsub : Submitting (Edma.handleIRQ s) := by
      have hlater : Unlinked (Edma.handleIRQ s) := ⟨by rw [heq]; exact hunlinked.eq, hstopped, hfilled⟩
      have hsize : 2 ≤ (Edma.handleIRQ s).tcdSize := by rwa [heq]
      have hsame : (Edma.handleIRQ s).pc = s.pc := by rw [heq]
      unfold Submitting
      rw [hsame]
      rcases hpc with hpc | hpc | hpc
      all_goals rw [hpc]
      · exact ⟨hsize, Or.inr hlater⟩
      · exact ⟨hsize, Or.inr hlater⟩
      · exact hlater
    rw [heq] at hmoved hsub ⊢
    refine ⟨h.size, h.max, h.tail, fun hpc => (h.locals hpc).congr rfl rfl rfl rfl rfl, h.order, hsub, ⟨_, hmoved⟩, ?_, nofun⟩
    exact fun hone => absurd hone (by dsimp only; omega)
  · right
    have hnext : s.regs.dlastSga ≠ none := by
      rw [(hw.stopped hinactive).next, if_neg hne]
      exact Option.some_ne_none _
    rw [heq]
    refine ⟨⟨hinactive, rfl, rfl, hnext, htwo⟩, ?_⟩
    cases hpc : s.pc with rw [hpc] at hlinked
    | _ => exact hlinked

lemma Counting.handleIRQ (h : Counting size s) (hint : s.int = true)
    (hsame : newHeader s = s.header → s.regs.csr.done = true → s.executed.length = s.submitted.length)
    (hright : newHeader s ≠ s.header → (s.regs.csr.done = true ↔ HeaderBehind s)) :
    Counting size (handleIRQ s) := by
  have hinv : Inv s := by
    rcases h.channel with hinv | ⟨hlost, -⟩
    · exact hinv
    · exact absurd (hlost.1.int.symm.trans hint) Bool.false_ne_true
  have hw := hinv.submitting.hardware
  have hne := hinv.raised hint
  have hmore (hdone : s.regs.csr.done = false) : s.executed.length ≠ s.submitted.length := by
    intro hall
    exact absurd (hdone.symm.trans (hinv.submitting.done_of_all hinv.locals hall hne)) Bool.false_ne_true
  have hused := h.counted.tcdUsed
  have hle := h.counted.le
  obtain ⟨k, hacc⟩ := hinv.account
  obtain ⟨hsize', -, hint', hsub', hexec', hrep'⟩ := hw.handleIRQ_frame
  by_cases hslot : newHeader s = s.header
  · have hnext := hinv.handleIRQ hint (fun hdone => ⟨hsame hslot hdone, hslot⟩)
    obtain ⟨k', hacc'⟩ := hnext.account
    refine ⟨hsize'.trans h.size_eq, ?_, Or.inl hnext⟩
    cases hdone : s.regs.csr.done with
    | false =>
      have hcount := tcdsDone_eq_zero hslot hdone
      exact hacc'.counted_handleIRQ hw (by omega) (fun hall => absurd hall (hmore hdone))
    | true =>
      have hcount := hw.tcdsDone_eq_tcdUsed hslot hdone
      have hall := hsame hslot hdone
      exact hacc'.counted_handleIRQ hw (by omega) (fun _ => by omega)
  · have htwo : 2 ≤ s.tcdSize := by
      by_contra hlt
      have hone : s.tcdSize = 1 := by
        have := hinv.size
        omega
      apply hslot
      rw [hw.newHeader_eq hinv.size hne, hacc.header, hone, Nat.mod_one, Nat.mod_one]
    have hcount := hacc.tcdsDone_eq_sub hw hinv.size hne hslot
    have hbehind := hacc.headerBehind_iff htwo hinv.tail
    have hacc' := hacc.handleIRQ_moved hw hinv.max hinv.size hne hslot
    have hiff := hright hslot
    have hle' := hacc.le_reported
    have hge' := hacc.reported_le
    cases hdone : s.regs.csr.done with
    | false =>
      -- the header moves to a submission that is not completed
      have hsync : s.reported = k := by
        have hnot : ¬ s.reported = k + 1 := fun heq =>
          Bool.false_ne_true (hdone.symm.trans (hiff.mpr (hbehind.mpr heq)))
        omega
      have hordinal : ordinal s ≤ s.executed.length := by
        unfold ordinal
        split <;> omega
      have hnext := hinv.handleIRQ hint (fun htrue => absurd (hdone.symm.trans htrue) Bool.false_ne_true)
      exact ⟨hsize'.trans h.size_eq, hacc'.counted_handleIRQ hw (by omega) (fun hall => absurd hall (hmore hdone)),
        Or.inl hnext⟩
    | true =>
      -- what is completed is reported and `DONE` is cleared
      have hlag : s.reported = k + 1 := hbehind.mp (hiff.mp hdone)
      have hinactive := hw.inactive_of_done hdone
      have hordinal : ordinal s = s.executed.length - 1 := by
        rw [ordinal, hinactive, if_neg Bool.false_ne_true]
      refine ⟨hsize'.trans h.size_eq, hacc'.counted_handleIRQ hw (by omega) (fun _ => by omega), ?_⟩
      refine (hinv.handleIRQ_cleared hint hslot hdone htwo).imp_right (fun hlost => ⟨hlost, ?_⟩)
      rw [hrep', hexec']
      omega

end Step

lemma Counting.step {size : Nat} (hmax : size ≤ 127) {s : Sys} (h : Counting size s) (e : Event)
    (hright : CountsRight s e) : Counting size (step s e) := by
  cases e with
  | submit config =>
    dsimp only [Edma.step]
    split
    next hpc => exact h.begin hmax hpc config
    · exact h
  | access => exact h.access
  | complete => exact h.complete hright
  | irq =>
    dsimp only [Edma.step]
    split
    next hint => exact h.handleIRQ hint (hright hint).1 (hright hint).2
    · exact h

/-- In every run of submissions, completions and interrupts that counts right, one access of a submission at a time, the
slots in use are between 0 and the size of the pool and the sum reported never exceeds the descriptors completed; and
when no interrupt is raised, as when the handler returns, and everything submitted is completed, then no
slot is in use and the sum is the number of accepted submissions. -/
theorem reported_sum_of_counts_right (tcdPool : Nat → Tcd) (tcdSize : Nat) (hpos : 1 ≤ tcdSize)
    (hmax : tcdSize ≤ 127) (events : List Event)
    (hright : EachStep step CountsRight (installTCDMemory tcdPool tcdSize) events) :
    let s := events.foldl step (installTCDMemory tcdPool tcdSize)
    (0 ≤ s.tcdUsed ∧ s.tcdUsed ≤ tcdSize) ∧ s.reported ≤ s.executed.length ∧
      (s.int = false → s.executed.length = s.submitted.length →
        s.tcdUsed = 0 ∧ s.reported = s.submitted.length) := by
  intro s
  have hsize : (Int.bmod tcdSize 256).toNat = tcdSize := by
    rw [int8_eq (by omega) (by omega), Int.toNat_natCast]
  have hinit : Counting tcdSize (installTCDMemory tcdPool tcdSize) := by
    have hinv := inv_installTCDMemory tcdPool (by omega : 0 < (Int.bmod tcdSize 256).toNat)
    unfold installTCDMemory at hinv ⊢
    rw [hsize] at hinv ⊢
    exact ⟨rfl, ⟨le_rfl, fun _ _ => rfl, rfl, le_rfl, Int.natCast_nonneg _⟩, Or.inl hinv⟩
  have hcounting : Counting tcdSize s :=
    EachStep.invariant (fun s e hs he => hs.step hmax e he) events hright hinit
  have hused := hcounting.counted.tcdUsed
  have hrel := hcounting.counted.released
  have hroom := hcounting.counted.room
  rw [hcounting.size_eq] at hroom
  refine ⟨⟨by omega, by omega⟩, hcounting.counted.le, fun hint hall => ?_⟩
  have hsum := hcounting.counted.idle hint hall
  exact ⟨by omega, hsum⟩

/-- Three transfers in a pool of two slots. The first is completed and its interrupt served during the submission of the
second. -/
theorem reported_sum_of_counts_right_three :
    let events := submission ⟨1, 0, 0, 0, 0, 0, 0, 1⟩ ++ [.submit ⟨2, 0, 0, 0, 0, 0, 0, 1⟩] ++ List.replicate 8 .access ++
      [.complete, .irq, .access, .access] ++ submission ⟨3, 0, 0, 0, 0, 0, 0, 1⟩ ++ [.complete, .irq, .complete, .irq]
    let s := events.foldl step (installTCDMemory (fun _ => tcdReset) 2)
    s.tcdUsed = 0 ∧ s.reported = s.submitted.length := by
  intro events
  exact (reported_sum_of_counts_right (fun _ => tcdReset) 2 (by decide) (by decide) events (by decide)).2.2 rfl rfl

/-- A transfer is completed and reported, then two are linked and the first of them is completed: the
handler counts from the slot of the one reported already, and its sum is 3 when 2 are completed. -/
theorem reported_exceeds_completed :
    ¬ ∀ (tcdPool : Nat → Tcd) (tcdSize : Nat), 1 ≤ tcdSize → tcdSize ≤ 127 → ∀ events : List Event,
      let s := events.foldl step (installTCDMemory tcdPool tcdSize)
      s.reported ≤ s.executed.length := by
  intro h
  have hsum := h (fun _ => tcdReset) 3 (by decide) (by decide)
    (submission ⟨1, 0, 0, 0, 0, 0, 0, 1⟩ ++ [.complete, .irq] ++ submission ⟨2, 0, 0, 0, 0, 0, 0, 1⟩ ++
      submission ⟨3, 0, 0, 0, 0, 0, 0, 1⟩ ++ [.complete, .irq])
  exact absurd hsum (by decide)

end McuxDrivers.Edma
