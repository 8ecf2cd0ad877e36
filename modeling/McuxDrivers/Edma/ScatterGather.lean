import McuxDrivers.Edma.Account

/-!
# Dynamic scatter/gather loses no transfer

The channel executes the submitted transfers in order, each once. A completion must not fall between
certain accesses to `CSR`, and the interrupt handler must not clear the `DONE` of a descriptor that is
completed: then the next submission would be linked to it and never be executed.
-/

namespace McuxDrivers.Edma
open McuxDrivers.Lib

/-- An event that keeps the chain: the completions do not disturb the accesses to `CSR`, and an interrupt
handler that finds the channel done finds everything submitted completed and its own header's slot in
the registers. -/
def Spared (s : Sys) : Event → Prop
  | .complete => Undisturbed s
  | .irq => s.int = true → s.regs.csr.done = true →
      s.executed.length = s.submitted.length ∧ newHeader s = s.header
  | _ => True

instance : (s : Sys) → (e : Event) → Decidable (Spared s e)
  | s, .complete => inferInstanceAs (Decidable (Undisturbed s))
  | s, .irq => inferInstanceAs (Decidable (s.int = true → s.regs.csr.done = true →
      s.executed.length = s.submitted.length ∧ newHeader s = s.header))
  | _, .submit _ | _, .access => isTrue trivial

structure Inv (s : Sys) : Prop where
  size : 0 < s.tcdSize
  max : s.tcdSize ≤ 127
  tail : s.tail = s.submitted.length % s.tcdSize
  locals : s.pc ≠ .idle → Locals s
  order : ExecutedInOrder s
  submitting : Submitting s
  account : ∃ h, Account s h
  one : s.tcdSize = 1 → s.reported ≤ s.executed.length
  raised : s.int = true → s.executed.length ≠ 0

/-- At each access the registers hold what the submissions say. -/
lemma Submitting.hardware {s : Sys} (h : Submitting s) : Hardware s := by
  have hchain {count : Nat} (hc : Chain s count) (hle : count ≤ s.submitted.length) : Hardware s := hc.hardware hle
  have hunlinked (hu : Unlinked s) : Hardware s := hu.stopped.hardware (by have := hu.eq; omega)
  have hlinking (hl : Linking s) : Hardware s := by
    obtain ⟨-, -, hl | hl⟩ := hl
    · exact hchain hl.1 le_rfl
    · exact hchain hl.1 (Nat.sub_le _ _)
  unfold Submitting at h
  cases hpc : s.pc with rw [hpc] at h
  | idle => exact hchain h le_rfl
  | fill config => exact hchain h.1 (Nat.sub_le _ _)
  | chain => exact hchain h.2.1 (Nat.sub_le _ _)
  | checkPrevious =>
    obtain ⟨-, h | h⟩ := h
    · exact hchain h le_rfl
    · exact hchain h.1 (Nat.sub_le _ _)
  | checkFirst =>
    obtain h | h := h
    · exact hchain h le_rfl
    · exact hchain h.2.1 (Nat.zero_le _)
  | readDreq => exact hlinking h
  | writeDreq csr => exact hlinking h.1
  | readEsg => exact hlinking h
  | writeEsg csr => exact hlinking h
  | checkEsg =>
    obtain ⟨-, h | h⟩ := h
    · exact hchain h le_rfl
    · exact hunlinked h
  | checkNext =>
    obtain ⟨-, h | h⟩ := h
    · exact hchain h.1 le_rfl
    · exact hunlinked h
  | install => exact hunlinked h
  | readClear => exact hchain h le_rfl
  | writeClear csr => exact hchain h.1 le_rfl

section Step

variable {s : Sys} (h : Inv s)

include h

/-- At most one submission more than the pool has slots is not completed. -/
lemma Inv.room : s.submitted.length ≤ s.executed.length + 1 + s.tcdSize := by
  obtain ⟨k, hacc⟩ := h.account
  have hroom := hacc.room
  have hge := hacc.reported_le
  have hbehind := hacc.behind
  have hordinal : ordinal s ≤ s.executed.length := by
    unfold ordinal
    split <;> omega
  omega

lemma Inv.access : Inv (submitTransferStep s) := by
  have hsame := sameQueue_submitTransferStep s
  obtain ⟨k, hacc⟩ := h.account
  have hroom := hacc.room
  have hone : s.tcdSize = 1 → s.submitted.length ≤ s.executed.length + 1 := by
    intro hsize
    have := h.one hsize
    omega
  refine ⟨?_, ?_, ?_, fun hpc => ?_, ?_, h.submitting.access h.locals h.size h.room hone, ⟨k, hacc.access⟩,
    ?_, ?_⟩
  · rw [hsame.tcdSize]
    exact h.size
  · rw [hsame.tcdSize]
    exact h.max
  · rw [hsame.tail, hsame.submitted, hsame.tcdSize]
    exact h.tail
  · have hbusy : s.pc ≠ .idle := by
      intro hidle
      apply hpc
      simp only [submitTransferStep, hidle]
    exact (h.locals hbusy).congr hsame.submitted hsame.tcdSize hsame.currentTcd hsame.previousTcd hsame.nextTcd
  · unfold ExecutedInOrder wanted
    rw [hsame.executed, hsame.submitted]
    exact h.order
  · rw [hsame.tcdSize, hsame.reported, hsame.executed]
    exact h.one
  · rw [hsame.int, hsame.executed]
    exact h.raised

lemma Inv.complete (hspared : Undisturbed s) : Inv (complete s) := by
  have hsame := sameSubmission_complete s
  obtain ⟨k, hacc⟩ := h.account
  have hmore : s.executed.length ≤ (Edma.complete s).executed.length := by
    by_cases hactive : s.active = true
    · rw [complete_executed_length hactive]
      exact Nat.le_succ _
    · rw [Edma.complete, if_neg hactive]
  refine ⟨?_, ?_, ?_, fun hpc => ?_, h.order.complete h.submitting.hardware.transfer,
    h.submitting.complete hspared, ⟨k, hacc.complete⟩, fun hsize => ?_, fun hint => ?_⟩
  · rw [hsame.tcdSize]
    exact h.size
  · rw [hsame.tcdSize]
    exact h.max
  · rw [hsame.tail, hsame.submitted, hsame.tcdSize]
    exact h.tail
  · rw [hsame.pc] at hpc
    exact (h.locals hpc).congr hsame.submitted hsame.tcdSize hsame.currentTcd hsame.previousTcd hsame.nextTcd
  · rw [hsame.tcdSize] at hsize
    have := h.one hsize
    rw [hsame.reported]
    omega
  · by_cases hactive : s.active = true
    · rw [complete_executed_length hactive]
      exact Nat.succ_ne_zero _
    · rw [Edma.complete, if_neg hactive] at hint ⊢
      exact h.raised hint

lemma Inv.handleIRQ (hint : s.int = true)
    (hspared : s.regs.csr.done = true → s.executed.length = s.submitted.length ∧ newHeader s = s.header) :
    Inv (handleIRQ s) := by
  have hw := h.submitting.hardware
  have hne := h.raised hint
  obtain ⟨k, hacc⟩ := h.account
  -- the handler does not touch the registers
  have heq : Edma.handleIRQ s = { s with
      int := false, header := newHeader s, tcdUsed := Int.bmod (s.tcdUsed - tcdsDone s) 256
      reported := s.reported + tcdsDone s } := by
    rw [hw.handleIRQ_eq, if_neg (fun hand => hand.1 (hspared hand.2).2)]
  have haccount : ∃ k, Account (Edma.handleIRQ s) k := by
    by_cases hslot : newHeader s = s.header
    · cases hdone : s.regs.csr.done with
      | false => exact ⟨k, hacc.handleIRQ_same hw h.max hslot hdone⟩
      | true => exact ⟨_, hacc.handleIRQ_done hw h.max h.size hne hslot hdone (hspared hdone).1⟩
    · exact ⟨_, hacc.handleIRQ_moved hw h.max h.size hne hslot⟩
  have hone : s.tcdSize = 1 → s.reported + tcdsDone s ≤ s.executed.length := by
    intro hsize
    have hslot : newHeader s = s.header := by
      rw [hw.newHeader_eq h.size hne, hacc.header, hsize, Nat.mod_one, Nat.mod_one]
    have hused := hacc.tcdUsed
    cases hdone : s.regs.csr.done with
    | false =>
      have := tcdsDone_eq_zero hslot hdone
      have := h.one hsize
      omega
    | true =>
      have := hw.tcdsDone_eq_tcdUsed hslot hdone
      have := (hspared hdone).1
      omega
  rw [heq] at haccount ⊢
  exact ⟨h.size, h.max, h.tail, fun hpc => (h.locals hpc).congr rfl rfl rfl rfl rfl, h.order,
    h.submitting.congr rfl rfl rfl rfl rfl rfl rfl, haccount, hone, nofun⟩

lemma Inv.begin (hpc : s.pc = .idle) (config : TransferConfig) : Inv (submitTransferBegin s config) := by
  obtain ⟨k, hacc⟩ := h.account
  have hchain : Chain s s.submitted.length := by
    simpa only [Submitting, hpc] using h.submitting
  have hbegin := hchain.begin le_rfl config
  have haccount := hacc.begin h.max config
  have htail := h.tail
  have hlt := Nat.mod_lt s.submitted.length h.size
  unfold submitTransferBegin at hbegin haccount ⊢
  split
  · exact h
  next hfull =>
    rw [if_neg hfull] at hbegin haccount
    have hnext : (if s.tail + 1 = s.tcdSize then 0 else s.tail + 1) = (s.submitted.length + 1) % s.tcdSize := by
      rw [← Nat.mod_add_mod, ← htail]
      exact ringNext_eq_mod (htail ▸ hlt)
    have hprevious : (if s.tail ≠ 0 then s.tail - 1 else s.tcdSize - 1) =
        (s.submitted.length + (s.tcdSize - 1)) % s.tcdSize := by
      have hslot := slot_of_next h.size (s.submitted.length + (s.tcdSize - 1))
      rwa [Nat.add_assoc, Nat.sub_add_cancel h.size, Nat.add_mod_right, ← htail] at hslot
    have hle : s.executed.length ≤ (wanted s).length := by
      rw [wanted, List.length_map]
      exact hchain.executed_le
    have hwanted : (s.submitted ++ [config]).map TransferConfig.transfer = wanted s ++ [config.transfer] := by
      rw [List.map_append, List.map_singleton, wanted]
    refine ⟨h.size, h.max, ?_, fun _ => ⟨?_, ?_, ?_, ?_⟩, ?_, ⟨?_, ?_⟩, ⟨k, haccount⟩, h.one, h.raised⟩
    · rw [List.length_append]
      exact hnext
    · rw [List.length_append]
      exact Nat.succ_pos _
    · rw [List.length_append]
      exact htail
    · rw [List.length_append]
      exact hprevious
    · rw [List.length_append]
      exact hnext
    · unfold ExecutedInOrder wanted
      rw [hwanted, List.take_append_of_le_length hle]
      exact h.order
    · rw [List.length_append]
      exact hbegin
    · unfold wanted
      rw [hwanted, List.length_append, List.length_singleton, Nat.add_sub_cancel, ← List.length_map, ← wanted,
        List.getElem?_concat_length]

end Step

lemma Inv.step {s : Sys} (h : Inv s) (e : Event) (hspared : Spared s e) : Inv (step s e) := by
  cases e with
  | submit config =>
    dsimp only [Edma.step]
    split
    next hpc => exact h.begin hpc config
    · exact h
  | access => exact h.access
  | complete => exact h.complete hspared
  | irq =>
    dsimp only [Edma.step]
    split
    next hint => exact h.handleIRQ hint (hspared hint)
    · exact h

lemma inv_installTCDMemory (tcdPool : Nat → Tcd) {tcdSize : Nat} (hsize : 0 < (Int.bmod tcdSize 256).toNat) :
    Inv (installTCDMemory tcdPool tcdSize) := by
  have hlt := @Int.bmod_lt tcdSize 256 (by decide)
  have hmax : (Int.bmod tcdSize 256).toNat ≤ 127 := by omega
  unfold installTCDMemory
  generalize (Int.bmod tcdSize 256).toNat = size at *
  exact ⟨hsize, hmax, (Nat.zero_mod _).symm, fun hpc => absurd rfl hpc, rfl,
    Or.inr ⟨rfl, ⟨rfl, rfl, rfl⟩, rfl⟩, ⟨0, (Nat.zero_mod _).symm, le_rfl, Int.zero_le_ofNat 1, le_rfl, rfl, le_rfl,
      Int.natCast_nonneg _⟩, fun _ => le_rfl, nofun⟩

/-- A queue without slots stays as it is. -/
lemma step_of_no_slots (tcdPool : Nat → Tcd) {tcdSize : Nat} (hsize : (Int.bmod tcdSize 256).toNat = 0)
    (e : Event) : step (installTCDMemory tcdPool tcdSize) e = installTCDMemory tcdPool tcdSize := by
  cases e with
  | submit config =>
    have hfull : (installTCDMemory tcdPool tcdSize).tcdUsed ≥ (installTCDMemory tcdPool tcdSize).tcdSize := by
      simp only [installTCDMemory, hsize]
      exact le_rfl
    simp only [step, submitTransferBegin, hfull, if_true]
    rfl
  | access => rfl
  | complete => rfl
  | irq => rfl

/-- In every run of submissions, completions and interrupts that spares the chain, whatever the size of
the pool, the transfers executed are the first ones submitted, and between two submissions the
channel is going to make exactly the others, in order. -/
theorem executed_append_pending_eq_submitted (tcdPool : Nat → Tcd) (tcdSize : Nat) (events : List Event)
    (hspared : EachStep step Spared (installTCDMemory tcdPool tcdSize) events) :
    let s := events.foldl step (installTCDMemory tcdPool tcdSize)
    s.executed <+: wanted s ∧ (s.pc = .idle → s.executed ++ pending s = wanted s) := by
  intro s
  by_cases hsize : (Int.bmod tcdSize 256).toNat = 0
  · have hsame : s = installTCDMemory tcdPool tcdSize :=
      EachStep.invariant (I := (· = installTCDMemory tcdPool tcdSize))
        (fun s e hs _ => by rw [hs]; exact step_of_no_slots tcdPool hsize e) events hspared rfl
    rw [hsame]
    exact ⟨List.prefix_refl _, fun _ => rfl⟩
  · have hinv : Inv s :=
      EachStep.invariant (fun s e hs he => hs.step e he) events hspared
        (inv_installTCDMemory tcdPool (Nat.pos_of_ne_zero hsize))
    have horder : s.executed = (wanted s).take s.executed.length := hinv.order
    constructor
    · rw [horder]
      exact List.take_prefix _ _
    · intro hpc
      have hchain : Chain s s.submitted.length := by
        simpa only [Submitting, hpc] using hinv.submitting
      rw [hchain.pending_eq hinv.room]
      nth_rewrite 1 [horder]
      exact List.take_append_drop _ _

/-- A whole submission without an event in between. It makes at most ten accesses. -/
def submission (config : TransferConfig) : List Event :=
  .submit config :: List.replicate 10 .access

/-- Two transfers are linked and the first is completed during the submission of the third. -/
theorem executed_append_pending_eq_submitted_three :
    let events := submission ⟨1, 0, 0, 0, 0, 0, 0, 1⟩ ++ submission ⟨2, 0, 0, 0, 0, 0, 0, 1⟩ ++
      [.submit ⟨3, 0, 0, 0, 0, 0, 0, 1⟩, .access, .complete] ++ List.replicate 9 .access ++ [.irq, .complete]
    let s := events.foldl step (installTCDMemory (fun _ => tcdReset) 2)
    s.executed ++ pending s = wanted s :=
  (executed_append_pending_eq_submitted (fun _ => tcdReset) 2
    (submission ⟨1, 0, 0, 0, 0, 0, 0, 1⟩ ++ submission ⟨2, 0, 0, 0, 0, 0, 0, 1⟩ ++
      [.submit ⟨3, 0, 0, 0, 0, 0, 0, 1⟩, .access, .complete] ++ List.replicate 9 .access ++ [.irq, .complete])
    (by decide)).2 rfl

/-- Three transfers, each submitted when the ones before it are completed and their interrupts served. The
second interrupt clears `DONE`, and the third submission is linked to a completed descriptor. -/
theorem submission_linked_to_completed_transfer :
    ¬ ∀ (tcdPool : Nat → Tcd) (tcdSize : Nat) (events : List Event),
      let s := events.foldl step (installTCDMemory tcdPool tcdSize)
      s.pc = .idle → s.executed ++ pending s = wanted s := by
  intro h
  have hlost := h (fun _ => tcdReset) 4
    (submission ⟨1, 0, 0, 0, 0, 0, 0, 1⟩ ++ [.complete, .irq] ++ submission ⟨2, 0, 0, 0, 0, 0, 0, 1⟩ ++
      [.complete, .irq] ++ submission ⟨3, 0, 0, 0, 0, 0, 0, 1⟩) rfl
  exact absurd hlost (by decide)

end McuxDrivers.Edma
