import McuxDrivers.Glikey.Driver

/-!
# The lock of the GLIKEY registers

A locked SFR stays locked through any calls, and the calls that need an open lock are refused.
-/

namespace McuxDrivers.Glikey

section Fields

variable (f : Field)

lemma Field.mask_getLsbD {i : Nat} (hi : i < 32) :
    f.mask.getLsbD i = (decide (f.shift ≤ i) && decide (i - f.shift < f.width)) := by
  rw [mask, BitVec.getLsbD_shiftLeft, BitVec.getLsbD_setWidth, BitVec.getLsbD_allOnes]
  by_cases hle : f.shift ≤ i
  · simp [hi, hle, show i - f.shift < 32 by omega, show ¬ i < f.shift by omega]
  · simp [hle, show i < f.shift by omega]

lemma Field.set_of_disjoint (g : Field) (h : f.mask &&& g.mask = 0) (register x : BitVec 32) :
    g.get (f.set register x) = g.get register := by
  have hbit : ∀ i < 32, f.mask.getLsbD i = true → g.mask.getLsbD i = false := by
    intro i _ hf
    have hand := congrArg (fun b => b.getLsbD i) h
    simpa [hf] using hand
  rw [get, get]
  congr 1
  apply BitVec.eq_of_getLsbD_eq
  intro i hi
  simp only [set, val, BitVec.getLsbD_and, BitVec.getLsbD_or, BitVec.getLsbD_not, hi, decide_true, Bool.true_and]
  cases hf : f.mask.getLsbD i with
  | true => simp [hbit i hi hf]
  | false => simp

lemma Field.set_outside (register x : BitVec 32) : f.set register x &&& ~~~f.mask = register &&& ~~~f.mask := by
  apply BitVec.eq_of_getLsbD_eq
  intro i hi
  simp only [set, val, BitVec.getLsbD_and, BitVec.getLsbD_or, BitVec.getLsbD_not, hi, decide_true, Bool.true_and]
  cases f.mask.getLsbD i <;> simp

end Fields

namespace Regs

variable {L : Layout} {r : Regs}

/-- SFR_LOCK has not the pattern that opens the registers. -/
def Locked (L : Layout) (r : Regs) : Prop :=
  L.sfrLock.get r.ctrl1 ≠ 0x0A

lemma Locked.checkLock (h : Locked L r) : r.checkLock L = .lockedError :=
  if_pos h

lemma Locked.whenNotLocked (h : Locked L r) (body : Regs × Status) : r.whenNotLocked L body = (r, .lockedError) := by
  rw [Regs.whenNotLocked, h.checkLock, if_pos (by decide)]

/-- The lock pattern differs from the open one in its lowest bit. -/
lemma locked_lock (L : Layout) (ctrl1 : BitVec 32) : L.sfrLock.get (L.sfrLock.set ctrl1 0x05) ≠ 0x0A := by
  have hfits := L.sfrLock_fits
  intro heq
  have hbit := congrArg (fun b => b.getLsbD 0) heq
  have hmask : L.sfrLock.mask.getLsbD L.sfrLock.shift = true := by
    rw [Field.mask_getLsbD _ (by omega), L.sfrLock_width]
    simp
  have hval : (L.sfrLock.get (L.sfrLock.set ctrl1 0x05)).getLsbD 0 = true := by
    simp only [Field.get, Field.set, Field.val, BitVec.getLsbD_ushiftRight, Nat.add_zero, BitVec.getLsbD_and,
      BitVec.getLsbD_or, hmask, Bool.and_true, BitVec.getLsbD_shiftLeft, Nat.sub_self, lt_irrefl, decide_false,
      Bool.not_false]
    rw [decide_eq_true (show L.sfrLock.shift < 32 by omega)]
    exact Bool.or_true _
  rw [hval] at hbit
  exact absurd hbit (by decide)

/-- The calls that check the lock. -/
def Guarded : Call → Prop
  | .lock => False
  | .isIndexLocked _ _ _ => False
  | _ => True

/-- A locked SFR refuses the calls that check the lock. -/
lemma Locked.refuses (h : Locked L r) {c : Call} (hc : Guarded c) : r.call L c = (r, .lockedError) := by
  cases c with
  | lock => exact hc.elim
  | isIndexLocked _ _ _ => exact hc.elim
  | _ => exact h.whenNotLocked _

lemma Locked.step (h : Locked L r) (c : Call) : Locked L (r.step L c) := by
  by_cases hc : Guarded c
  · rw [Regs.step, h.refuses hc]
    exact h
  · cases c with
    | lock =>
      rw [Regs.step, Regs.call, lock, h.checkLock, if_pos (by decide)]
      exact locked_lock L r.ctrl1
    | isIndexLocked index status status' =>
      have hctrl : (r.step L (.isIndexLocked index status status')).ctrl1 = L.readIndex.set r.ctrl1 index := by
        rw [Regs.step, Regs.call, isIndexLocked]
        split
        next => rfl
        next => split <;> rfl
      rw [Locked, hctrl, Field.set_of_disjoint _ _ L.readIndex_sfrLock]
      exact h
    | _ => exact absurd trivial hc

lemma Locked.run (h : Locked L r) (calls : List Call) : Locked L (calls.foldl (Regs.step L) r) := by
  induction calls generalizing r with
  | nil => exact h
  | cons c calls ih => exact ih (h.step c)

/-- A codeword that fails its check is never a success, and at most the fields WR_EN are written. -/
lemma continueEnable_malformed {codeword : BitVec 32} (hbad : wellFormed codeword = false) (r : Regs)
    (status : BitVec 32) :
    (r.continueEnable L codeword status).2 ≠ .success ∧
      (r.continueEnable L codeword status).1.ctrl0 &&& ~~~L.wrEn0.mask = r.ctrl0 &&& ~~~L.wrEn0.mask ∧
      (r.continueEnable L codeword status).1.ctrl1 &&& ~~~L.wrEn1.mask = r.ctrl1 &&& ~~~L.wrEn1.mask ∧
      (r.continueEnable L codeword status).1.intrCtrl = r.intrCtrl := by
  rw [continueEnable, whenNotLocked]
  split_ifs with hlock hfirst herror hsecond herror
  · refine ⟨?_, rfl, rfl, rfl⟩
    rw [checkLock]
    split <;> nofun
  · exact ⟨nofun, rfl, Field.set_outside _ _ _, rfl⟩
  · exact ⟨nofun, rfl, Field.set_outside _ _ _, rfl⟩
  · exact ⟨nofun, Field.set_outside _ _ _, rfl, rfl⟩
  · exact ⟨nofun, Field.set_outside _ _ _, rfl, rfl⟩
  · exact ⟨nofun, rfl, rfl, rfl⟩

/-- From a locked SFR on, after any calls the SFR is locked, and the next call that checks the lock returns an error and
writes nothing; and a malformed codeword is never accepted and reaches at most the fields WR_EN. -/
theorem lock_permanent (L : Layout) (r : Regs) (calls : List Call) :
    (Locked L r → (calls.foldl (Regs.step L) r).isLocked L = .locked ∧
      ∀ c, Guarded c → (calls.foldl (Regs.step L) r).call L c = (calls.foldl (Regs.step L) r, .lockedError)) ∧
      ∀ codeword status, wellFormed codeword = false →
        ((calls.foldl (Regs.step L) r).continueEnable L codeword status).2 ≠ .success ∧
          ((calls.foldl (Regs.step L) r).continueEnable L codeword status).1.ctrl0 &&& ~~~L.wrEn0.mask =
            (calls.foldl (Regs.step L) r).ctrl0 &&& ~~~L.wrEn0.mask ∧
          ((calls.foldl (Regs.step L) r).continueEnable L codeword status).1.ctrl1 &&& ~~~L.wrEn1.mask =
            (calls.foldl (Regs.step L) r).ctrl1 &&& ~~~L.wrEn1.mask ∧
          ((calls.foldl (Regs.step L) r).continueEnable L codeword status).1.intrCtrl =
            (calls.foldl (Regs.step L) r).intrCtrl := by
  constructor
  · intro hlocked
    have hrun := hlocked.run calls
    refine ⟨?_, fun c hc => hrun.refuses hc⟩
    rw [isLocked, hrun.checkLock]
    rfl
  · intro codeword status hbad
    exact continueEnable_malformed hbad _ status

/-- The places of the fields in a device. -/
def device : Layout where
  writeIndex := ⟨0, 8⟩
  wrEn0 := ⟨16, 2⟩
  sftRst := ⟨18, 1⟩
  readIndex := ⟨0, 8⟩
  wrEn1 := ⟨16, 2⟩
  sfrLock := ⟨18, 4⟩
  intEn := ⟨0, 1⟩
  intClr := ⟨1, 1⟩
  intSet := ⟨2, 1⟩
  lockStatus := ⟨1, 1⟩
  errorStatus := ⟨2, 3⟩
  fsmState := ⟨19, 13⟩
  sfrLock_width := rfl
  sfrLock_fits := by decide
  readIndex_sfrLock := by decide

theorem lock_permanent_device :
    Locked device ⟨0, 0x140000, 0⟩ ∧
      ([Call.lock, .isIndexLocked 3 0 0].foldl (Regs.step device) ⟨0, 0x140000, 0⟩).isLocked device = .locked := by
  have hlocked : Locked device ⟨0, 0x140000, 0⟩ := by
    rw [Locked]
    decide
  exact ⟨hlocked, ((lock_permanent device ⟨0, 0x140000, 0⟩ [.lock, .isIndexLocked 3 0 0]).1 hlocked).1⟩

/-- An open SFR: a codeword that fails its check is rejected, and WR_EN_1 is written all the same. -/
theorem continueEnable_writes_malformed :
    wellFormed 0xF0010000 = false ∧
      (Regs.continueEnable device ⟨0, 0x280000, 0⟩ 0xF0010000 0).2 = .fail ∧
      device.wrEn1.get (Regs.continueEnable device ⟨0, 0x280000, 0⟩ 0xF0010000 0).1.ctrl1 ≠
        device.wrEn1.get 0x280000 := by
  decide

end Regs

end McuxDrivers.Glikey
