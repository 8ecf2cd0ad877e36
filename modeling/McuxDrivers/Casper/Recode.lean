import McuxDrivers.Casper.FieldWords
import McuxDrivers.Casper.ScalarMultiplication
import Mathlib.Algebra.BigOperators.Group.Finset.Basic

/-!
# Recoding of scalars on arrays in system RAM

`recode` as it works on the words of `K`, with the digits in an array of `CASPER_RECODE_LENGTH_MAX`. A round
takes a digit off the number in `K`, as a round of the recoding of numbers does.
-/

namespace McuxDrivers.Casper.Sysram
open McuxDrivers.Lib

def recodeLengthMax : Nat := 175

/-- `memcpy` of `len` bytes of `k` into an array of zeros. -/
def memcpy (k : Nat → Nat) (len : Nat) : Nat → Nat :=
  fun i => if 4 * (i + 1) ≤ len then k i else k i % 2 ^ (8 * (len - 4 * i))

/-- `shiftrightSysram` of an array onto itself. -/
def shiftrightSysram (x : Nat → Nat) (n c : Nat) : Nat → Nat :=
  shiftright x n 0 0 c

def addN1Loop : Nat → Nat → (Nat → Nat) → Nat → (Nat → Nat) × Nat
  | 0, _, a, carry => (a, carry)
  | count + 1, i, a, carry =>
    let t := a i + carry
    addN1Loop count (i + 1) (Function.update a i (t % 2 ^ 32)) (t / 2 ^ 32)

/-- `add_n_1` on one array, and the carry that it returns. -/
def addN1 (a : Nat → Nat) (b n : Nat) : (Nat → Nat) × Nat :=
  let t := (a 0 + b) % 2 ^ 32
  addN1Loop (n - 1) 1 (Function.update a 0 t) (if t < a 0 then 1 else 0)

/-- The variables of `recode`. It drops the `carries` that `add_n_1` returns. -/
structure Recoding where
  acc : Nat → Nat
  digits : List Int
  carries : List Nat

/-- `c[i] = digit`, for an index of the array. -/
def setDigit (c : List Int) (i : Nat) (digit : Int) : Option (List Int) :=
  if i < c.length then some (c.set i digit) else none

def recodeRound (nWordlen w i : Nat) (s : Recoding) : Option Recoding :=
  let digit := toInt8 (wsub32 (s.acc 0 &&& 2 ^ w - 1) (2 ^ (w - 1)))
  (setDigit s.digits i digit).map fun digits =>
    -- the conversion of a digit to `uint32_t` extends its sign
    let (acc, carry) := addN1 (shiftrightSysram s.acc nWordlen (w - 1)) ((digit % 2 ^ 32).toNat / 2 ^ 31) nWordlen
    ⟨acc, digits, s.carries ++ [carry]⟩

def recodeLoop (nWordlen w : Nat) : Nat → Nat → Recoding → Option Recoding
  | 0, _, s => some s
  | count + 1, i, s => (recodeRound nWordlen w i s).bind (recodeLoop nWordlen w count (i + 1))

def recode (nWordlen : Nat) (k : Nat → Nat) (n w : Nat) : Option Recoding :=
  let t := (n + (w - 2)) / (w - 1)
  (recodeLoop nWordlen w t 0 ⟨memcpy k ((n + 7) / 8), List.replicate recodeLengthMax 0, []⟩).bind fun s =>
    (setDigit s.digits t (toInt8 (s.acc 0))).map fun digits => { s with digits := digits }

section Copy

variable {k : Nat → Nat}

lemma memcpy_lt (hk : ∀ i, k i < 2 ^ 32) (len i : Nat) : memcpy k len i < 2 ^ 32 := by
  unfold memcpy
  split_ifs
  · exact hk i
  · exact (Nat.mod_le _ _).trans_lt (hk i)

/-- The copied bytes are the lowest of the number. -/
lemma held_memcpy (hk : ∀ i, k i < 2 ^ 32) (len n : Nat) :
    held (memcpy k len) 0 n = held k 0 n % 2 ^ (8 * len) := by
  induction n with
  | zero => rw [held, limbs, held, limbs, Nat.zero_mod]
  | succ n ih =>
    have hlt := held_lt hk 0 n
    rw [held_succ, held_succ, ih, Nat.zero_add]
    have hpow : (2 ^ 32 : Nat) ^ n = 2 ^ (8 * (4 * n)) := by
      rw [← Nat.pow_mul]
      congr 1
      omega
    rw [hpow] at hlt ⊢
    unfold memcpy
    split_ifs with hall
    · -- the word is copied whole
      have hle : 2 ^ (8 * (4 * (n + 1))) ≤ 2 ^ (8 * len) := Nat.pow_le_pow_right (by decide) (by omega)
      have htop : 2 ^ (8 * (4 * n)) * k n ≤ 2 ^ (8 * (4 * n)) * (2 ^ 32 - 1) :=
        Nat.mul_le_mul_left _ (Nat.le_sub_one_of_lt (hk n))
      have hsum : 2 ^ (8 * (4 * (n + 1))) = 2 ^ (8 * (4 * n)) * 2 ^ 32 := by
        rw [← Nat.pow_add]
        congr 1
      rw [Nat.mod_eq_of_lt (by omega), Nat.mod_eq_of_lt (by omega)]
    · obtain hle | hlt' := Nat.le_total (4 * n) len
      · have hsplit : 2 ^ (8 * len) = 2 ^ (8 * (4 * n)) * 2 ^ (8 * (len - 4 * n)) := by
          rw [← Nat.pow_add]
          congr 1
          omega
        have hlow : held k 0 n < 2 ^ (8 * len) := hlt.trans_le (Nat.pow_le_pow_right (by decide) (by omega))
        rw [Nat.mod_eq_of_lt hlow, hsplit, Nat.mod_mul, Nat.add_mul_mod_self_left, Nat.mod_eq_of_lt hlt,
          Nat.add_mul_div_left _ _ (by positivity), Nat.div_eq_of_lt hlt, Nat.zero_add]
      · have hdvd : 2 ^ (8 * len) ∣ 2 ^ (8 * (4 * n)) * k n := (pow_dvd_pow 2 (by omega)).mul_right _
        rw [Nat.sub_eq_zero_of_le hlt', Nat.mul_zero, pow_zero, Nat.mod_one, Nat.mul_zero, Nat.add_zero,
          Nat.add_mod, Nat.mod_eq_zero_of_dvd hdvd, Nat.add_zero, Nat.mod_mod]

end Copy

section Addition

variable {a : Nat → Nat}

lemma addN1Loop_of_lt {j i : Nat} (count : Nat) (carry : Nat) (hj : j < i) : (addN1Loop count i a carry).1 j = a j := by
  induction count generalizing i a carry with
  | zero => rfl
  | succ count ih =>
    rw [addN1Loop]
    exact (ih _ (by omega)).trans (Function.update_of_ne (by omega) _ _)

lemma addN1Loop_lt (ha : ∀ i, a i < 2 ^ 32) (count i carry j : Nat) : (addN1Loop count i a carry).1 j < 2 ^ 32 := by
  induction count generalizing i a carry with
  | zero => exact ha j
  | succ count ih => exact ih (update_lt ha i (Nat.mod_lt _ (by decide))) _ _

/-- The loop adds the carry to the words from `i` on. -/
lemma held_addN1Loop (count i carry : Nat) (a : Nat → Nat) :
    held (addN1Loop count i a carry).1 i count + (2 ^ 32) ^ count * (addN1Loop count i a carry).2 =
      held a i count + carry := by
  induction count generalizing i a carry with
  | zero => rw [addN1Loop, pow_zero, Nat.one_mul]
  | succ count ih =>
    have hrest := ih (i + 1) ((a i + carry) / 2 ^ 32) (Function.update a i ((a i + carry) % 2 ^ 32))
    have hkept : held (Function.update a i ((a i + carry) % 2 ^ 32)) (i + 1) count = held a (i + 1) count :=
      held_congr (fun j _ => Function.update_of_ne (by omega) _ _)
    rw [hkept] at hrest
    rw [addN1Loop, held_succ', held_succ', addN1Loop_of_lt _ _ (Nat.lt_succ_self i), Function.update_self, pow_succ]
    have hword := Nat.mod_add_div (a i + carry) (2 ^ 32)
    linear_combination (2 ^ 32) * hrest + hword

lemma held_addN1 (ha : ∀ i, a i < 2 ^ 32) {b n : Nat} (hb : b ≤ 1) (hn : 0 < n) :
    held (addN1 a b n).1 0 n + (2 ^ 32) ^ n * (addN1 a b n).2 = held a 0 n + b := by
  obtain ⟨n, rfl⟩ := Nat.exists_eq_succ_of_ne_zero hn.ne'
  have hloop := held_addN1Loop n 1 (if (a 0 + b) % 2 ^ 32 < a 0 then 1 else 0) (Function.update a 0 ((a 0 + b) % 2 ^ 32))
  have hkept : held (Function.update a 0 ((a 0 + b) % 2 ^ 32)) 1 n = held a 1 n :=
    held_congr (fun j _ => Function.update_of_ne (by omega) _ _)
  have hword : (a 0 + b) % 2 ^ 32 + 2 ^ 32 * (if (a 0 + b) % 2 ^ 32 < a 0 then 1 else 0) = a 0 + b := by
    have h0 := ha 0
    split_ifs <;> omega
  rw [hkept] at hloop
  unfold addN1
  dsimp only
  rw [Nat.succ_eq_add_one, Nat.add_sub_cancel, held_succ', held_succ', addN1Loop_of_lt _ _ Nat.one_pos,
    Function.update_self, pow_succ]
  linear_combination (2 ^ 32) * hloop + hword

lemma addN1_lt (ha : ∀ i, a i < 2 ^ 32) (b n i : Nat) : (addN1 a b n).1 i < 2 ^ 32 :=
  addN1Loop_lt (update_lt ha 0 (Nat.mod_lt _ (by decide))) _ _ _ i

end Addition

section Rounds

variable {c : Curve} {k : Nat}

lemma setDigit_of_lt {digits : List Int} {i : Nat} (d : Int) (hi : i < digits.length) :
    setDigit digits i d = some (digits.set i d) :=
  if_pos hi

/-- The digit from the lowest word. -/
lemma toInt8_low (x : Nat) : toInt8 (wsub32 (x &&& 2 ^ 4 - 1) (2 ^ (4 - 1))) = recodeDigit x := by
  rw [Nat.and_two_pow_sub_one_eq_mod]
  unfold toInt8 wsub32 recodeDigit
  split_ifs <;> omega

lemma recodeDigit_held {acc : Nat → Nat} (n : Nat) : recodeDigit (acc 0) = recodeDigit (held acc 0 (n + 1)) := by
  rw [held_succ']
  unfold recodeDigit
  omega

/-- A digit that is negative adds one. -/
lemma signBit_eq (x : Nat) : (recodeDigit x % 2 ^ 32).toNat / 2 ^ 31 = if recodeDigit x < 0 then 1 else 0 := by
  have hlow : -8 ≤ recodeDigit x ∧ recodeDigit x < 8 := by
    unfold recodeDigit
    omega
  split_ifs <;> omega

/-- The state after `i` rounds that started with the number `k`. -/
structure Recoded (c : Curve) (k i : Nat) (s : Recoding) : Prop where
  words : ∀ j, s.acc j < 2 ^ 32
  number : held s.acc 0 c.wordlen = (recodeStep c)^[i] k
  length : s.digits.length = recodeLengthMax
  digits : ∀ j < recodeLengthMax, s.digits[j]? = some (if j < i then recodeDigit ((recodeStep c)^[j] k) else 0)
  carries : s.carries = List.replicate i 0

/-- One addition after a shift, on words that hold `x`. -/
lemma shift_add {acc : Nat → Nat} {x : Nat} (hacc : ∀ j, acc j < 2 ^ 32) (hx : held acc 0 c.wordlen = x) :
    let r := addN1 (shiftrightSysram acc c.wordlen 3) (if recodeDigit x < 0 then 1 else 0) c.wordlen
    held r.1 0 c.wordlen = recodeStep c x ∧ r.2 = 0 ∧ ∀ j, r.1 j < 2 ^ 32 := by
  intro r
  have hpos : 0 < c.wordlen := by cases c <;> decide
  have hxlt : x < (2 ^ 32) ^ c.wordlen := hx ▸ held_lt hacc 0 c.wordlen
  have hshift : held (shiftrightSysram acc c.wordlen 3) 0 c.wordlen = x / 8 := by
    rw [← hx]
    exact held_shiftright (by decide) hpos hacc (Or.inl rfl)
  have hwords : ∀ j, shiftrightSysram acc c.wordlen 3 j < 2 ^ 32 := shiftrightLoop_lt _ _ _ hacc
  have hbit : (if recodeDigit x < 0 then 1 else 0) ≤ 1 := by split_ifs <;> decide
  have hsum := held_addN1 hwords hbit hpos
  rw [hshift, ← recodeStep_eq hxlt] at hsum
  change held r.1 0 c.wordlen + (2 ^ 32) ^ c.wordlen * r.2 = recodeStep c x at hsum
  have hlt : recodeStep c x < (2 ^ 32) ^ c.wordlen := Nat.mod_lt _ (by positivity)
  have hcarry : r.2 = 0 := by
    by_contra hne
    have hle := Nat.le_mul_of_pos_right ((2 ^ 32) ^ c.wordlen) (Nat.pos_of_ne_zero hne)
    omega
  rw [hcarry, Nat.mul_zero, Nat.add_zero] at hsum
  exact ⟨hsum, hcarry, addN1_lt hwords _ _⟩

namespace Recoded

variable {i : Nat} {s : Recoding}

lemma round (h : Recoded c k i s) (hi : i < recodeLengthMax) :
    ∃ s', recodeRound c.wordlen 4 i s = some s' ∧ Recoded c k (i + 1) s' := by
  obtain ⟨hnumber, hcarry, hwords⟩ := shift_add h.words h.number
  have hsucc : c.wordlen = c.wordlen - 1 + 1 := by cases c <;> rfl
  have hdigit : recodeDigit (s.acc 0) = recodeDigit ((recodeStep c)^[i] k) := by
    rw [recodeDigit_held (c.wordlen - 1), ← hsucc, h.number]
  unfold recodeRound
  rw [toInt8_low, hdigit]
  dsimp only
  rw [signBit_eq, setDigit_of_lt _ (h.length ▸ hi)]
  refine ⟨_, rfl, hwords, ?_, ?_, ?_, ?_⟩
  · rw [Function.iterate_succ_apply']
    exact hnumber
  · rw [List.length_set]
    exact h.length
  · intro j hj
    dsimp only
    by_cases hji : j = i
    · subst hji
      rw [if_pos (Nat.lt_succ_self j)]
      exact List.getElem?_set_self (h.length ▸ hj)
    · rw [List.getElem?_set_ne (Ne.symm hji), h.digits j hj]
      congr 1
      exact if_congr (by omega) rfl rfl
  · rw [List.replicate_succ', h.carries]
    exact congrArg (fun carry => List.replicate i 0 ++ [carry]) hcarry

lemma loop (count : Nat) (h : Recoded c k i s) (hi : i + count ≤ recodeLengthMax) :
    ∃ s', recodeLoop c.wordlen 4 count i s = some s' ∧ Recoded c k (i + count) s' := by
  induction count generalizing i s with
  | zero => exact ⟨s, rfl, h⟩
  | succ count ih =>
    obtain ⟨s₁, hround, h₁⟩ := h.round (by omega)
    obtain ⟨s₂, hloop, h₂⟩ := ih h₁ (by omega)
    refine ⟨s₂, ?_, ?_⟩
    · rw [recodeLoop, hround]
      exact hloop
    · rwa [Nat.add_right_comm] at h₂

end Recoded

/-- The digits taken so far and what is left make up the number. -/
lemma sum_recodeDigit (hk : k < (2 ^ 32) ^ c.wordlen) (hodd : k % 2 = 1) (i : Nat) :
    ∑ j ∈ Finset.range i, recodeDigit ((recodeStep c)^[j] k) * 8 ^ j + (recodeStep c)^[i] k * 8 ^ i = k := by
  induction i with
  | zero => simp
  | succ i ih =>
    obtain ⟨hi, -, hlt⟩ := recode_iterate hk hodd i
    have hstep := (recodeStep_spec hlt hi).2
    rw [Finset.sum_range_succ, Function.iterate_succ_apply']
    linear_combination ih - 8 ^ i * hstep

lemma Recoded.start {words : Nat → Nat} (hwords : ∀ i, words i < 2 ^ 32) (hk : held words 0 c.wordlen < 2 ^ c.bitlen) :
    Recoded c (held words 0 c.wordlen) 0
      ⟨memcpy words ((c.bitlen + 7) / 8), List.replicate recodeLengthMax 0, []⟩ := by
  have hbytes : 2 ^ c.bitlen ≤ 2 ^ (8 * ((c.bitlen + 7) / 8)) := Nat.pow_le_pow_right (by decide) (by omega)
  refine ⟨memcpy_lt hwords _, ?_, List.length_replicate, ?_, rfl⟩
  · exact (held_memcpy hwords _ _).trans (Nat.mod_eq_of_lt (hk.trans_le hbytes))
  · intro j hj
    rw [if_neg (Nat.not_lt_zero j)]
    exact List.getElem?_replicate_of_lt hj

/-- `recode` on the array gives the digits that the number has. -/
theorem recode_refines {words : Nat → Nat} (hwords : ∀ i, words i < 2 ^ 32) (hodd : held words 0 c.wordlen % 2 = 1)
    (hk : held words 0 c.wordlen < 2 ^ c.bitlen) :
    ∃ s, recode c.wordlen words c.bitlen 4 = some s ∧ s.carries = List.replicate ((c.bitlen + 2) / 3) 0 ∧
      s.digits.length = recodeLengthMax ∧
      ∀ i < recodeLengthMax, s.digits[i]? = some (Casper.recode c (held words 0 c.wordlen) c.bitlen i) := by
  have hbits : 2 ^ c.bitlen ≤ 2 ^ (8 * ((c.bitlen + 7) / 8)) ∧ (c.bitlen + 2) / 3 < recodeLengthMax ∧
      c.wordlen = c.wordlen - 1 + 1 := by
    cases c <;> decide +kernel
  obtain ⟨hbytes, hlast, hsucc⟩ := hbits
  obtain ⟨s, hloop, hs⟩ := (Recoded.start hwords hk).loop ((c.bitlen + 2) / 3) (by omega)
  rw [Nat.zero_add] at hs
  have htop : toInt8 (s.acc 0) = toInt8 ((recodeStep c)^[(c.bitlen + 2) / 3] (held words 0 c.wordlen)) := by
    rw [← hs.number, hsucc, held_succ']
    unfold toInt8
    rw [show (s.acc 0 + 2 ^ 32 * held s.acc (0 + 1) (c.wordlen - 1)) % 2 ^ 8 = s.acc 0 % 2 ^ 8 by omega]
  refine ⟨{ s with digits := s.digits.set ((c.bitlen + 2) / 3) (toInt8 (s.acc 0)) }, ?_, hs.carries, ?_, ?_⟩
  · unfold recode
    dsimp only
    rw [show (c.bitlen + (4 - 2)) / (4 - 1) = (c.bitlen + 2) / 3 from rfl, hloop, Option.bind_some,
      setDigit_of_lt _ (hs.length ▸ hlast)]
    rfl
  · exact List.length_set.trans hs.length
  · intro i hi
    dsimp only
    rw [Casper.recode, Nat.mod_eq_of_lt (hk.trans_le hbytes)]
    by_cases hit : i = (c.bitlen + 2) / 3
    · rw [if_neg (by omega), if_pos hit, hit, List.getElem?_set_self (hs.length ▸ hlast), htop]
    · rw [List.getElem?_set_ne (Ne.symm hit), hs.digits i hi, if_neg hit]

end Rounds

section Result

variable (c : Curve) (k : Nat → UInt32)

/-- `recode` of an odd scalar: odd digits of absolute value at most 7 that make up the scalar, inside the array, and
no carry out of the accumulator. -/
theorem recode_digits (hodd : held (fun i => (k i).toNat) 0 c.wordlen % 2 = 1)
    (hk : held (fun i => (k i).toNat) 0 c.wordlen < 2 ^ c.bitlen) :
    let t := (c.bitlen + 2) / 3
    t < recodeLengthMax ∧ ∃ s, recode c.wordlen (fun i => (k i).toNat) c.bitlen 4 = some s ∧
      s.carries = List.replicate t 0 ∧ s.digits.length = recodeLengthMax ∧
      (∀ i ≤ t, s.digits.getD i 0 % 2 = 1 ∧ |s.digits.getD i 0| ≤ 7) ∧
      ∑ i ∈ Finset.range (t + 1), s.digits.getD i 0 * 8 ^ i = held (fun i => (k i).toNat) 0 c.wordlen := by
  intro t
  have hbits : 2 ^ c.bitlen ≤ 2 ^ (8 * ((c.bitlen + 7) / 8)) ∧ 2 ^ c.bitlen ≤ 8 ^ ((c.bitlen + 2) / 3) ∧
      2 ^ c.bitlen ≤ (2 ^ 32) ^ c.wordlen ∧ (c.bitlen + 2) / 3 < recodeLengthMax := by
    cases c <;> decide +kernel
  obtain ⟨hbytes, hwindows, hwords, hlast⟩ := hbits
  obtain ⟨s, hrecode, hcarries, hlength, hdigits⟩ := recode_refines (fun i => (k i).toNat_lt) hodd hk
  generalize held (fun i => (k i).toNat) 0 c.wordlen = x at hodd hk hdigits ⊢
  have hone := recode_iterate_last (hk.trans_le hwords) hodd (hk.trans_le hwindows)
  have hdigit : ∀ i < t, s.digits.getD i 0 = recodeDigit ((recodeStep c)^[i] x) := by
    intro i hi
    rw [List.getD_eq_getElem?_getD, hdigits i (by omega), Casper.recode, Nat.mod_eq_of_lt (hk.trans_le hbytes)]
    exact if_pos hi
  have htop : s.digits.getD t 0 = 1 := by
    rw [List.getD_eq_getElem?_getD, hdigits t hlast, Casper.recode, Nat.mod_eq_of_lt (hk.trans_le hbytes),
      if_neg (lt_irrefl _), if_pos rfl, hone]
    rfl
  refine ⟨hlast, s, hrecode, hcarries, hlength, ?_, ?_⟩
  · intro i hi
    obtain rfl | hlt := Nat.eq_or_lt_of_le hi
    · rw [htop]
      decide
    · have hi_odd := (recode_iterate (hk.trans_le hwords) hodd i).1
      rw [hdigit i hlt]
      unfold recodeDigit
      rw [abs_le]
      omega
  · rw [Finset.sum_range_succ, htop, Finset.sum_congr rfl (fun i hi => by rw [hdigit i (Finset.mem_range.mp hi)])]
    have hsum := sum_recodeDigit (hk.trans_le hwords) hodd t
    rw [hone] at hsum
    exact_mod_cast hsum

/-- A scalar of 2^520 + 9. -/
def sparseScalar (i : Nat) : UInt32 :=
  if i = 0 then 9 else if i = 16 then 256 else 0

theorem recode_digits_p521 :
    (Curve.p521.bitlen + 2) / 3 < recodeLengthMax ∧
      ∃ s, recode Curve.p521.wordlen (fun i => (sparseScalar i).toNat) Curve.p521.bitlen 4 = some s ∧
      s.carries = List.replicate ((Curve.p521.bitlen + 2) / 3) 0 ∧ s.digits.length = recodeLengthMax ∧
      (∀ i ≤ (Curve.p521.bitlen + 2) / 3, s.digits.getD i 0 % 2 = 1 ∧ |s.digits.getD i 0| ≤ 7) ∧
      ∑ i ∈ Finset.range ((Curve.p521.bitlen + 2) / 3 + 1), s.digits.getD i 0 * 8 ^ i =
        held (fun i => (sparseScalar i).toNat) 0 Curve.p521.wordlen :=
  recode_digits .p521 sparseScalar (by decide +kernel) (by decide +kernel)

end Result

end McuxDrivers.Casper.Sysram
