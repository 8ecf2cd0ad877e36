import McuxDrivers.Edma4.Driver

/-!
# Failed submissions to the queue

A full queue leaves everything as it is. The check for the erratum comes when the slot is already taken.
-/

namespace McuxDrivers.Edma4

variable (soc : Soc)

/-- The slot that a descriptor links to. -/
def linkedSlot (handle : Handle) (tcd : Tcd) : Option Nat :=
  (List.range handle.tcdSize.toNat).find? fun i => slotAddress soc handle i = tcd.dlastSga

/-- The descriptors that the hardware follows from one on: the registers and the pool hold no more than
`tcdSize + 1`. -/
def follow (handle : Handle) : Nat → Tcd → List Tcd
  | 0, _ => []
  | fuel + 1, tcd =>
    tcd ::
      if tcd.csr &&& kCsrEsg = 0 then []
      else
        match linkedSlot soc handle tcd with
        | none => []
        | some i => follow handle fuel (handle.tcdPool i)

def chain (s : Sys) : List Tcd :=
  follow soc s.handle (s.handle.tcdSize.toNat + 1) s.channel.tcd

/-- The queue is as it was. -/
structure Unchanged (s s' : Sys) : Prop where
  tail : s'.handle.tail = s.handle.tail
  tcdUsed : s'.handle.tcdUsed = s.handle.tcdUsed
  chain : chain soc s' = chain soc s

/-- The check for the erratum is not made, or finds nothing. -/
def PredecessorPasses (s : Sys) : Prop :=
  s.handle.hasTcdPool = false ∨ queueFull s.handle = true ∨ s.handle.tail = previousTcd s.handle ∨
    checkErrata soc (s.handle.tcdPool (previousTcd s.handle).toNat) = .success

variable {soc}

lemma Unchanged.refl (s : Sys) : Unchanged soc s s :=
  ⟨rfl, rfl, rfl⟩

lemma chainCurrent_success {currentTcd nextTcd previousTcd : BitVec 8} {s : Sys}
    (h : currentTcd = previousTcd ∨ checkErrata soc (s.handle.tcdPool previousTcd.toNat) = .success) :
    (chainCurrent soc currentTcd nextTcd previousTcd s).2 = .success := by
  unfold chainCurrent
  dsimp only
  split
  · rfl
  next hne =>
    have hpasses := h.resolve_left hne
    rw [if_neg (not_not.mpr hpasses)]
    split
    · split
      · rfl
      · split <;> rfl
    · split <;> rfl

lemma chainCurrent_fails {currentTcd nextTcd previousTcd : BitVec 8} {s : Sys} (hne : currentTcd ≠ previousTcd)
    (h : checkErrata soc (s.handle.tcdPool previousTcd.toNat) ≠ .success) :
    chainCurrent soc currentTcd nextTcd previousTcd s = (s, .invalidArgument) := by
  unfold chainCurrent
  dsimp only
  rw [if_neg hne, if_pos h]

/-- The slot that is filled is not the one before it. -/
lemma tcdPool_previous {currentTcd previousTcd : BitVec 8} (s : Sys) (tcd : Tcd) (hne : currentTcd ≠ previousTcd) :
    (setSlot currentTcd tcd s).handle.tcdPool previousTcd.toNat = s.handle.tcdPool previousTcd.toNat := by
  have hindex : previousTcd.toNat ≠ currentTcd.toNat := fun heq => hne (BitVec.eq_of_toNat_eq heq).symm
  exact Function.update_of_ne hindex tcd s.handle.tcdPool

/-- A submission to the queue fails after it has taken a slot exactly when the erratum's check fails. -/
lemma submitQueued_iff (fill : Word → Tcd) (s : Sys) :
    ((submitQueued soc fill s).2 ≠ .success → Unchanged soc s (submitQueued soc fill s).1) ↔
      queueFull s.handle = true ∨ s.handle.tail = previousTcd s.handle ∨
        checkErrata soc (s.handle.tcdPool (previousTcd s.handle).toNat) = .success := by
  unfold submitQueued
  by_cases hfull : queueFull s.handle = true
  · rw [if_pos hfull]
    exact ⟨fun _ => Or.inl hfull, fun _ _ => Unchanged.refl s⟩
  · rw [if_neg hfull]
    dsimp only
    by_cases hsame : s.handle.tail = previousTcd s.handle
    · rw [chainCurrent_success (Or.inl hsame)]
      exact ⟨fun _ => Or.inr (Or.inl hsame), fun _ hf => absurd rfl hf⟩
    · have hprevious (tcd : Tcd) : (setSlot s.handle.tail tcd (takeSlot s)).handle.tcdPool (previousTcd s.handle).toNat =
          s.handle.tcdPool (previousTcd s.handle).toNat := tcdPool_previous (takeSlot s) tcd hsame
      by_cases hpasses : checkErrata soc (s.handle.tcdPool (previousTcd s.handle).toNat) = .success
      · rw [chainCurrent_success (Or.inr (by rw [hprevious]; exact hpasses))]
        exact ⟨fun _ => Or.inr (Or.inr hpasses), fun _ hf => absurd rfl hf⟩
      · rw [chainCurrent_fails hsame (by rw [hprevious]; exact hpasses)]
        constructor
        · intro h
          have hused : s.handle.tcdUsed + 1 = s.handle.tcdUsed := (h nofun).tcdUsed
          exact absurd hused (by bv_omega)
        · rintro (h | h | h)
          · exact absurd h hfull
          · exact absurd h hsame
          · exact absurd h hpasses

lemma submitDirect_unchanged (write : Channel → Channel) (s : Sys) (h : (submitDirect write s).2 ≠ .success) :
    Unchanged soc s (submitDirect write s).1 := by
  unfold submitDirect at h ⊢
  split
  · exact Unchanged.refl s
  next hfree =>
    rw [if_neg hfree] at h
    exact absurd rfl h

/-- When a submission that fails leaves the queue as it was. -/
theorem submissions_atomic_iff (soc : Soc) (s : Sys) (config : TransferConfig) (tcd : Tcd) :
    (((submitTransfer soc config s).2 ≠ .success → Unchanged soc s (submitTransfer soc config s).1) ↔
      PredecessorPasses soc s) ∧
    (((submitTransferTCD soc tcd s).2 ≠ .success → Unchanged soc s (submitTransferTCD soc tcd s).1) ↔
      PredecessorPasses soc s) := by
  unfold submitTransfer submitTransferTCD PredecessorPasses
  cases hpool : s.handle.hasTcdPool with
  | false =>
    simp only [Bool.false_eq_true, if_false, true_or, iff_true]
    exact ⟨submitDirect_unchanged _ s, submitDirect_unchanged _ s⟩
  | true =>
    simp only [if_true, Bool.true_eq_false, false_or]
    exact ⟨submitQueued_iff _ s, submitQueued_iff _ s⟩

/-- A channel with the erratum, and a queue of two slots whose second one moves 4 bytes in a minor loop. -/
def errataSoc : Soc where
  support8Bytes := true
  support16Bytes := false
  support64Bytes := false
  support128Bytes := false
  hasErrata51327 := true
  tcdBytes := 32
  convertToDmaAddress := id

def errataSys : Sys where
  handle := {
    hasTcdPool := true
    tcdPool := fun _ => { tcdReset with nbytes := 4 }
    poolAddress := 0x20000000
    tail := 0
    tcdUsed := 1
    tcdSize := 2 }
  channel := { tcd := { tcdReset with nbytes := 4 }, active := false, done := false, errorInterrupt := false }

theorem not_submissions_atomic : ¬ ∀ (soc : Soc) (s : Sys) (config : TransferConfig) (tcd : Tcd),
    s.handle.hasTcdPool = true →
    ((submitTransfer soc config s).2 ≠ .success → Unchanged soc s (submitTransfer soc config s).1) ∧
    ((submitTransferTCD soc tcd s).2 ≠ .success → Unchanged soc s (submitTransferTCD soc tcd s).1) := by
  intro h
  have hunchanged := (h errataSoc errataSys TransferConfig.zero tcdReset rfl).1 (by decide)
  exact absurd hunchanged.tcdUsed (by decide)

end McuxDrivers.Edma4
