import McuxDrivers.Casper.Field
import McuxDrivers.Casper.Reduction

/-!
# The multiplication in the prime fields

`multiply_casper` calls `MultprecCiosMul_ct`, for P-521 `MultprecCiosMul521_ct`. Other than `MultprecCiosMul` they
subtract the modulus always and take the difference back by a select, so that no word is left out of the
comparison.
-/

namespace McuxDrivers.Casper
open McuxDrivers.Lib

/-- The end of both multiplications. `T1` has one word more than the modulus. -/
def ctFinish (d w nmod : Nat) : Nat :=
  let t1 := w % (2 ^ 32) ^ (2 * d + 1)
  let w := (w + (2 ^ 64) ^ (d + 1) - nmod) % (2 ^ 64) ^ (d + 1)
  let borrow : Bool := word w (2 * d) > word t1 (2 * d)
  (if borrow then t1 else w) % (2 ^ 64) ^ d

/-- `MultprecCiosMul_ct`, where `w` is what the output buffer holds. -/
def multprecCiosMulCt (d w : Nat) (ab : Option (Nat × Nat)) (nmod np64 : Nat) : Nat :=
  ctFinish d (ciosLoop d ab nmod np64 d 0 { w := if ab.isSome then 0 else w, upper := 0 }).w nmod

/-- The reduction in a round of `MultprecCiosMul521_ct`, from `w64[0..9]`. -/
def reduce521 (w : Nat) : Nat :=
  let c := w % 2 ^ 64
  let p64 := c * 2 ^ 9 % 2 ^ 64 + 2 ^ 64 * (c / 2 ^ (64 - 9))
  let p64 := (p64 + w / (2 ^ 64) ^ 8) % (2 ^ 64) ^ 2
  w / 2 ^ 64 % (2 ^ 64) ^ 7 + (2 ^ 64) ^ 7 * p64

/-- A round of `MultprecCiosMul521_ct`. The carry that it stores in `w64[10]` is not read. -/
def ciosStep521 (ab : Option (Nat × Nat)) (i w : Nat) : Nat :=
  match ab with
  | some (a, b) => reduce521 (fullSum 9 w (a * (b / (2 ^ 64) ^ i % 2 ^ 64))).1
  | none => reduce521 w

def ciosLoop521 (ab : Option (Nat × Nat)) : Nat → Nat → Nat → Nat
  | 0, _, w => w
  | count + 1, i, w => ciosLoop521 ab count (i + 1) (ciosStep521 ab i w)

/-- `MultprecCiosMul521_ct`. -/
def multprecCiosMul521Ct (w : Nat) (ab : Option (Nat × Nat)) (nmod : Nat) : Nat :=
  ctFinish 9 (ciosLoop521 ab 9 0 (if ab.isSome then 0 else w)) nmod

/-- `multiply_casper` with `Np256`, `Np384` and `Np521`. -/
def Curve.multiplyWords (c : Curve) (w a b : Nat) : Nat :=
  match c with
  | .p256 => multprecCiosMulCt 4 w (some (a, b)) c.p 1
  | .p384 => multprecCiosMulCt 6 w (some (a, b)) c.p (2 ^ 32 + 1)
  | .p521 => multprecCiosMul521Ct w (some (a, b)) c.p

section Finish

variable {d nmod t : Nat}

lemma word_upper (x : Nat) : word x (2 * d) = x / (2 ^ 64) ^ d % 2 ^ 32 := by
  unfold word
  rw [pow_words]

lemma mod_t1 (ht : t < 2 * (2 ^ 64) ^ d) : t % (2 ^ 32) ^ (2 * d + 1) = t := by
  apply Nat.mod_eq_of_lt
  rw [Nat.pow_succ, pow_words]
  omega

/-- The subtraction at the end reduces. -/
lemma ctFinish_eq (hnmod : nmod < (2 ^ 64) ^ d) (ht : t < 2 * nmod) :
    ctFinish d t nmod = if t < nmod then t else t - nmod := by
  have hpos : 0 < (2 ^ 64) ^ d := by positivity
  have hpow : (2 ^ 64) ^ (d + 1) = (2 ^ 64) ^ d * 2 ^ 64 := Nat.pow_succ _ _
  unfold ctFinish
  dsimp only
  rw [mod_t1 (by omega), word_upper, word_upper, hpow]
  generalize (2 ^ 64) ^ d = r at *
  by_cases hlt : t < nmod
  · -- the difference wraps, and its upper double word is all ones
    have hwrap : (t + r * 2 ^ 64 - nmod) % (r * 2 ^ 64) = t + r - nmod + r * (2 ^ 64 - 1) := by
      rw [Nat.mod_eq_of_lt (by omega)]
      omega
    have hupper : (t + r - nmod + r * (2 ^ 64 - 1)) / r = 2 ^ 64 - 1 := by
      rw [Nat.add_mul_div_left _ _ hpos, Nat.div_eq_of_lt (by omega), Nat.zero_add]
    rw [hwrap, hupper, Nat.div_eq_of_lt (by omega : t < r), if_pos hlt, if_pos (by decide),
      Nat.mod_eq_of_lt (by omega)]
  · have hsub : (t + r * 2 ^ 64 - nmod) % (r * 2 ^ 64) = t - nmod := wrapped_sub (by omega) (by omega)
    rw [hsub, Nat.div_eq_of_lt (by omega : t - nmod < r), if_neg hlt, if_neg (by simp), Nat.mod_eq_of_lt (by omega)]

/-- What a run of rounds leaves is reduced to the residue. -/
lemma ctFinish_run {x : Nat} (hnmod : nmod < (2 ^ 64) ^ d) (hrun : MontgomeryRun ((2 ^ 64) ^ d) nmod x t)
    (hx : x < (2 ^ 64) ^ d * nmod) :
    ctFinish d t nmod < nmod ∧ ctFinish d t nmod * (2 ^ 64) ^ d ≡ x [MOD nmod] := by
  have ht := hrun.lt_two_mul hx
  rw [ctFinish_eq hnmod ht]
  split_ifs with hlt
  · exact ⟨hlt, hrun.modEq⟩
  · have hsub : t - nmod ≡ t [MOD nmod] := (Nat.modEq_iff_dvd' (Nat.sub_le _ _)).mpr ⟨1, by omega⟩
    exact ⟨by omega, (hsub.mul_right _).trans hrun.modEq⟩

end Finish

/-- `MultprecCiosMul_ct` reduces for every odd modulus. -/
lemma multprecCiosMulCt_spec {d nmod np64 w : Nat} {ab : Option (Nat × Nat)} (hnmod : nmod < (2 ^ 64) ^ d)
    (hpos : 0 < nmod) (hnp : 2 ^ 64 ∣ np64 * nmod + 1) (hab : ∀ f ∈ ab, f.1 < (2 ^ 64) ^ d ∧ f.2 < nmod)
    (hw : ab = none → w < (2 ^ 64) ^ d) :
    multprecCiosMulCt d w ab nmod np64 < nmod ∧
      multprecCiosMulCt d w ab nmod np64 * (2 ^ 64) ^ d ≡ ciosOperand w ab [MOD nmod] := by
  apply ctFinish_run hnmod
  · cases ab with
    | none =>
      have hrun := ciosLoop_run hnmod hnp none (w := w) (by simpa using hw rfl) d 0 { w := w, upper := 0 }
        (by simpa [Nat.mod_one] using MontgomeryRun.start w nmod) (fun _ => rfl)
      rw [Nat.zero_add, Option.getD_none, Nat.zero_mul, Nat.add_zero] at hrun
      exact hrun
    | some f =>
      obtain ⟨ha, hb⟩ := hab f rfl
      have hrun := ciosLoop_run hnmod hnp (some f) (w := 0) (by simpa using ha) d 0 { w := 0, upper := 0 }
        (by simpa [Nat.mod_one] using MontgomeryRun.start 0 nmod) (fun _ => rfl)
      rw [Nat.zero_add, Option.getD_some, Nat.zero_add, Nat.mod_eq_of_lt (hb.trans hnmod)] at hrun
      exact hrun
  · cases ab with
    | none => exact (hw rfl).trans_le (Nat.le_mul_of_pos_right _ hpos)
    | some f => exact Nat.mul_lt_mul_of_lt_of_le (hab f rfl).1 (hab f rfl).2.le hpos

section Shifted

variable {n : Nat} (hn : n + 1 = (2 ^ 64) ^ 8 * 2 ^ 9)

include hn

/-- The lowest double word of the modulus is all ones, so a round adds the multiple that the lowest double word of the
sum says. -/
lemma reduce521_mul {w : Nat} (hw : w < (2 ^ 64) ^ 8 * 2 ^ 127) : reduce521 w * 2 ^ 64 = w + w % 2 ^ 64 * n := by
  have hc : w % 2 ^ 64 < 2 ^ 64 := Nat.mod_lt _ (by decide)
  have hh : w / (2 ^ 64) ^ 8 < 2 ^ 127 := Nat.div_lt_of_lt_mul hw
  have hshift : w % 2 ^ 64 * 2 ^ 9 % 2 ^ 64 + 2 ^ 64 * (w % 2 ^ 64 / 2 ^ (64 - 9)) = w % 2 ^ 64 * 2 ^ 9 := by
    omega
  have hfit : w % 2 ^ 64 * 2 ^ 9 + w / (2 ^ 64) ^ 8 < (2 ^ 64) ^ 2 := by
    omega
  have hsplit : w = w % 2 ^ 64 + 2 ^ 64 * (w / 2 ^ 64 % (2 ^ 64) ^ 7 + (2 ^ 64) ^ 7 * (w / (2 ^ 64) ^ 8)) := by
    rw [Nat.pow_succ' (n := 7), ← Nat.div_div_eq_div_mul, Nat.mod_add_div, Nat.mod_add_div]
  have hmul (c : Nat) : c * n + c = c * ((2 ^ 64) ^ 7 * 2 ^ 64 * 2 ^ 9) := by
    rw [← Nat.mul_succ, Nat.succ_eq_add_one, hn, ← Nat.pow_succ]
  unfold reduce521
  dsimp only
  rw [hshift, Nat.mod_eq_of_lt hfit]
  have hlow := hmul (w % 2 ^ 64)
  generalize w % 2 ^ 64 = c, w / (2 ^ 64) ^ 8 = h, w / 2 ^ 64 % (2 ^ 64) ^ 7 = m, (2 ^ 64) ^ 7 = r at *
  linarith

lemma ciosStep521_mul {ab : Option (Nat × Nat)} {i w : Nat} (ha : (ab.getD (0, 0)).1 ≤ n) (hw : w < (2 ^ 64) ^ 9) :
    ∃ m < 2 ^ 64, ciosStep521 ab i w * 2 ^ 64 =
      w + (ab.getD (0, 0)).1 * ((ab.getD (0, 0)).2 / (2 ^ 64) ^ i % 2 ^ 64) + m * n := by
  have hm (w : Nat) : w % 2 ^ 64 < 2 ^ 64 := Nat.mod_lt _ (by decide)
  cases ab with
  | none =>
    refine ⟨_, hm w, ?_⟩
    rw [Option.getD_none, Nat.zero_mul, Nat.add_zero]
    exact reduce521_mul hn (hw.trans (by norm_num))
  | some f =>
    obtain ⟨a, b⟩ := f
    rw [Option.getD_some] at ha ⊢
    dsimp only [ciosStep521] at ha ⊢
    have hy := hm (b / (2 ^ 64) ^ i)
    generalize b / (2 ^ 64) ^ i % 2 ^ 64 = y at *
    have hsmall : w + a * y < (2 ^ 64) ^ 8 * 2 ^ 127 := by
      calc w + a * y < (2 ^ 64) ^ 9 + (2 ^ 64) ^ 8 * 2 ^ 9 * 2 ^ 64 :=
            Nat.add_lt_add_of_lt_of_le hw (Nat.mul_le_mul (by omega) hy.le)
        _ ≤ (2 ^ 64) ^ 8 * 2 ^ 127 := by norm_num
    have hsum : (fullSum 9 w (a * y)).1 = w + a * y := Nat.mod_eq_of_lt (hsmall.trans (by norm_num))
    refine ⟨_, hm (w + a * y), ?_⟩
    rw [hsum]
    exact reduce521_mul hn hsmall

lemma ciosLoop521_run (ab : Option (Nat × Nat)) {w : Nat} (ha : (ab.getD (0, 0)).1 ≤ n)
    (hw : w < (2 ^ 64) ^ 8 * 2 ^ 63) (count i v : Nat) (hrun : MontgomeryRun ((2 ^ 64) ^ i) n
      (w + (ab.getD (0, 0)).1 * ((ab.getD (0, 0)).2 % (2 ^ 64) ^ i)) v) :
    MontgomeryRun ((2 ^ 64) ^ (i + count)) n
      (w + (ab.getD (0, 0)).1 * ((ab.getD (0, 0)).2 % (2 ^ 64) ^ (i + count))) (ciosLoop521 ab count i v) := by
  induction count generalizing i v with
  | zero => exact hrun
  | succ count ih =>
    have hfit : v < (2 ^ 64) ^ 9 := by
      calc v ≤ w + (ab.getD (0, 0)).1 + n := hrun.le_add (Nat.mod_lt _ (by positivity))
        _ < (2 ^ 64) ^ 8 * 2 ^ 63 + (2 ^ 64) ^ 8 * 2 ^ 9 + (2 ^ 64) ^ 8 * 2 ^ 9 := by omega
        _ ≤ (2 ^ 64) ^ 9 := by norm_num
    obtain ⟨m, hm, hround⟩ := ciosStep521_mul hn (i := i) ha hfit
    have hnext := ih (i + 1) (ciosStep521 ab i v) ?_
    · rw [Nat.add_right_comm] at hnext
      exact hnext
    · have hstep := hrun.round hm hround
      rw [← Nat.pow_succ (2 ^ 64) i] at hstep
      rw [Nat.mod_pow_succ]
      convert hstep using 1
      ring

/-- `MultprecCiosMul521_ct` reduces too. -/
lemma multprecCiosMul521Ct_spec {w : Nat} {ab : Option (Nat × Nat)} (hab : ∀ f ∈ ab, f.1 ≤ n ∧ f.2 < n)
    (hw : ab = none → w < (2 ^ 64) ^ 8 * 2 ^ 63) :
    multprecCiosMul521Ct w ab n < n ∧ multprecCiosMul521Ct w ab n * (2 ^ 64) ^ 9 ≡ ciosOperand w ab [MOD n] := by
  have hpos : 0 < (2 ^ 64) ^ 8 := by positivity
  have hmod : n < (2 ^ 64) ^ 9 := by
    have hpow : (2 ^ 64) ^ 9 = (2 ^ 64) ^ 8 * 2 ^ 64 := Nat.pow_succ _ _
    omega
  apply ctFinish_run hmod
  · cases ab with
    | none =>
      have hrun := ciosLoop521_run hn none (Nat.zero_le n) (hw rfl) 9 0 w
        (by simpa [Nat.mod_one] using MontgomeryRun.start w n)
      rw [Nat.zero_add, Option.getD_none, Nat.zero_mul, Nat.add_zero] at hrun
      exact hrun
    | some f =>
      obtain ⟨ha, hb⟩ := hab f rfl
      have hrun := ciosLoop521_run hn (some f) (w := 0) ha (by positivity) 9 0 0
        (by simpa [Nat.mod_one] using MontgomeryRun.start 0 n)
      rw [Nat.zero_add, Option.getD_some, Nat.zero_add, Nat.mod_eq_of_lt (hb.trans hmod)] at hrun
      exact hrun
  · cases ab with
    | none =>
      calc w < (2 ^ 64) ^ 8 * 2 ^ 63 := hw rfl
        _ ≤ (2 ^ 64) ^ 9 * 1 := by norm_num
        _ ≤ (2 ^ 64) ^ 9 * n := Nat.mul_le_mul_left _ (by omega)
    | some f => exact Nat.mul_lt_mul_of_lt_of_le ((hab f rfl).1.trans_lt hmod) (hab f rfl).2.le (by omega)

end Shifted

namespace Curve

variable {c : Curve} {a b : Nat}

/-- A reduced number that times `2 ^ (32 * wordlen)` is the product is the Montgomery product. -/
lemma eq_multiplyCasper {t : Nat} (ht : t < c.p) (h : t * (2 ^ 32) ^ c.wordlen ≡ a * b [MOD c.p]) :
    t = c.multiplyCasper a b := by
  have hinv : t * ((2 ^ 32) ^ c.wordlen * c.rInv) ≡ t * 1 [MOD c.p] := by
    apply Nat.ModEq.mul_left
    unfold Nat.ModEq
    rw [c.r_mul_rInv, Nat.mod_eq_of_lt (by have := c.two_lt_p; omega)]
  have hmul : t ≡ a * b * c.rInv [MOD c.p] := by
    rw [Nat.mul_one, ← Nat.mul_assoc] at hinv
    exact hinv.symm.trans (h.mul_right _)
  unfold multiplyCasper
  rw [← hmul, Nat.mod_eq_of_lt ht]

/-- `multiply_casper` computes the Montgomery product, whatever its output buffer held. -/
theorem multiplyWords_eq (w : Nat) (ha : a < c.p) (hb : b < c.p) : c.multiplyWords w a b = c.multiplyCasper a b := by
  have hspec (d np64 : Nat) (hnmod : c.p < (2 ^ 64) ^ d) (hnp : 2 ^ 64 ∣ np64 * c.p + 1) :
      multprecCiosMulCt d w (some (a, b)) c.p np64 < c.p ∧
        multprecCiosMulCt d w (some (a, b)) c.p np64 * (2 ^ 64) ^ d ≡ ciosOperand w (some (a, b)) [MOD c.p] :=
    multprecCiosMulCt_spec hnmod c.p_pos hnp
      (by rintro f ⟨⟩; exact ⟨ha.trans hnmod, hb⟩) (by simp)
  cases c with
  | p256 =>
    obtain ⟨hlt, hmod⟩ := hspec 4 1 (by decide +kernel) (by decide +kernel)
    exact eq_multiplyCasper hlt hmod
  | p384 =>
    obtain ⟨hlt, hmod⟩ := hspec 6 (2 ^ 32 + 1) (by decide +kernel) (by decide +kernel)
    exact eq_multiplyCasper hlt hmod
  | p521 =>
    have hfactors : ∀ f ∈ some (a, b), f.1 ≤ p521.p ∧ f.2 < p521.p := by
      rintro f ⟨⟩
      exact ⟨ha.le, hb⟩
    obtain ⟨hlt, hmod⟩ := multprecCiosMul521Ct_spec (n := p521.p) (by decide +kernel) (w := w) hfactors (by simp)
    exact eq_multiplyCasper hlt hmod

theorem multiplyWords_eq_one : p521.multiplyWords 0 p521.one p521.one = p521.multiplyCasper p521.one p521.one :=
  multiplyWords_eq 0 p521.one_lt_p p521.one_lt_p

end Curve

end McuxDrivers.Casper
