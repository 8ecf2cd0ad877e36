import McuxDrivers.Casper.Field
import McuxDrivers.Lib.Limbs
import Mathlib.Data.Nat.Bitwise
import Mathlib.Logic.Function.Basic

/-!
# Field addition, subtraction and halving in the CASPER's RAM

`CASPER_montadd`, `CASPER_montsub` and `CASPER_half` on the words of the RAM, where the output may be one of
the operands. The accelerator's additions and subtractions are exact; the driver finds out about a carry
or a borrow from one word of the result.
-/

namespace McuxDrivers.Casper
open McuxDrivers.Lib

/-- The number in `n` words from `x` on. -/
def held (mem : Nat → Nat) (x n : Nat) : Nat :=
  limbs (2 ^ 32) mem x n

/-- `CASPER_MEMCPY` of `n` words. -/
def copyWords (mem : Nat → Nat) (dst src n : Nat) : Nat → Nat :=
  fun i => if dst ≤ i ∧ i < dst + n then mem (src + (i - dst)) else mem i

/-- `SET_DWORD(x, 0)`. -/
def clearDword (mem : Nat → Nat) (x : Nat) : Nat → Nat :=
  Function.update (Function.update mem x 0) (x + 1) 0

/-- A `kCASPER_OpAdd64` of `n` words at `b` to those at `res`. -/
def accelAdd64 (mem : Nat → Nat) (n b res : Nat) : Nat → Nat :=
  store (2 ^ 32) mem res n (held mem res n + held mem b n)

/-- A `kCASPER_OpSub64`. -/
def accelSub64 (mem : Nat → Nat) (n b res : Nat) : Nat → Nat :=
  store (2 ^ 32) mem res n (held mem res n + (2 ^ 32) ^ n - held mem b n)

def selectLoop (c a b m1 m2 : Nat) : Nat → Nat → (Nat → Nat) → Nat → Nat
  | 0, _, mem => mem
  | count + 1, i, mem =>
    selectLoop c a b m1 m2 count (i + 1)
      (Function.update mem (c + i) (mem (a + i) &&& m2 ||| mem (b + i) &&& m1))

/-- `casper_select`. -/
def casperSelect (mem : Nat → Nat) (c a b m n : Nat) : Nat → Nat :=
  let m1 := wsub32 0 m
  let m2 := 2 ^ 32 - 1 - m1
  selectLoop c a b m1 m2 n 0 mem

def shiftrightLoop (z x c : Nat) : Nat → Nat → (Nat → Nat) → Nat → Nat
  | 0, i, mem => Function.update mem (z + i) (mem (x + i) / 2 ^ c)
  | count + 1, i, mem =>
    shiftrightLoop z x c count (i + 1)
      (Function.update mem (z + i) (mem (x + (i + 1)) * 2 ^ (32 - c) % 2 ^ 32 ||| mem (x + i) / 2 ^ c))

/-- `shiftright` of `n` words. -/
def shiftright (mem : Nat → Nat) (n z x c : Nat) : Nat → Nat :=
  shiftrightLoop z x c (n - 1) 0 mem

section Words

variable {mem mem' : Nat → Nat}

lemma held_congr {x x' n : Nat} (h : ∀ i < n, mem (x + i) = mem' (x' + i)) : held mem x n = held mem' x' n :=
  limbs_congr_at h

lemma held_succ (mem : Nat → Nat) (x n : Nat) : held mem x (n + 1) = held mem x n + (2 ^ 32) ^ n * mem (x + n) :=
  rfl

lemma held_succ' (mem : Nat → Nat) (x n : Nat) : held mem x (n + 1) = mem x + 2 ^ 32 * held mem (x + 1) n :=
  limbs_succ' _ _ _ _

lemma held_one (mem : Nat → Nat) (x : Nat) : held mem x 1 = mem x :=
  limbs_one _ _ _

lemma held_lt (hmem : ∀ i, mem i < 2 ^ 32) (x n : Nat) : held mem x n < (2 ^ 32) ^ n :=
  limbs_lt (fun k _ _ => hmem k)

lemma copyWords_of_not_mem {dst src n i : Nat} (h : i < dst ∨ dst + n ≤ i) : copyWords mem dst src n i = mem i :=
  if_neg (by omega)

lemma copyWords_lt (hmem : ∀ i, mem i < 2 ^ 32) (dst src n i : Nat) : copyWords mem dst src n i < 2 ^ 32 := by
  unfold copyWords
  split_ifs
  · exact hmem _
  · exact hmem _

lemma held_copyWords (dst src n : Nat) : held (copyWords mem dst src n) dst n = held mem src n := by
  apply held_congr
  intro i hi
  rw [copyWords, if_pos ⟨by omega, by omega⟩, Nat.add_sub_cancel_left]

lemma clearDword_lt (hmem : ∀ i, mem i < 2 ^ 32) (x i : Nat) : clearDword mem x i < 2 ^ 32 := by
  unfold clearDword
  rw [Function.update_apply, Function.update_apply]
  split_ifs
  · decide
  · decide
  · exact hmem i

lemma clearDword_of_not_mem {x i : Nat} (h : i < x ∨ x + 2 ≤ i) : clearDword mem x i = mem i := by
  unfold clearDword
  rw [Function.update_of_ne (by omega), Function.update_of_ne (by omega)]

lemma clearDword_of_mem {x i : Nat} (h : x ≤ i ∧ i < x + 2) : clearDword mem x i = 0 := by
  unfold clearDword
  rw [Function.update_apply, Function.update_apply]
  split_ifs
  · rfl
  · rfl
  · omega

lemma update_lt (hmem : ∀ i, mem i < 2 ^ 32) (x : Nat) {v : Nat} (hv : v < 2 ^ 32) (i : Nat) :
    Function.update mem x v i < 2 ^ 32 := by
  rw [Function.update_apply]
  split_ifs
  · exact hv
  · exact hmem i

/-- The source of a selection is the place it is written to, or apart from it. -/
lemma selectLoop_apply {c a b m1 m2 : Nat} (count i : Nat) (mem : Nat → Nat)
    (ha : a = c ∨ a + (i + count) ≤ c ∨ c + (i + count) ≤ a) (hb : b = c ∨ b + (i + count) ≤ c ∨ c + (i + count) ≤ b)
    (k : Nat) :
    selectLoop c a b m1 m2 count i mem k =
      if c + i ≤ k ∧ k < c + i + count then mem (a + (k - c)) &&& m2 ||| mem (b + (k - c)) &&& m1 else mem k := by
  induction count generalizing i mem with
  | zero => rw [if_neg (by omega), selectLoop]
  | succ count ih =>
    rw [selectLoop, ih (i + 1) _ (by omega) (by omega)]
    by_cases hk : k = c + i
    · subst hk
      rw [if_neg (by omega), if_pos (by omega), Function.update_self, Nat.add_sub_cancel_left]
    · by_cases hin : c + i ≤ k ∧ k < c + i + (count + 1)
      · rw [if_pos (by omega), if_pos hin, Function.update_of_ne (by omega), Function.update_of_ne (by omega)]
      · rw [if_neg (by omega), if_neg hin, Function.update_of_ne hk]

lemma held_casperSelect (hmem : ∀ i, mem i < 2 ^ 32) {c a b n : Nat} (ha : a = c ∨ a + n ≤ c ∨ c + n ≤ a)
    (hb : b = c ∨ b + n ≤ c ∨ c + n ≤ b) (m : Nat) (hm : m ≤ 1) :
    held (casperSelect mem c a b m n) c n = if m = 0 then held mem a n else held mem b n := by
  have hones {x : Nat} (hx : x < 2 ^ 32) : x &&& 2 ^ 32 - 1 = x := by
    rw [Nat.and_two_pow_sub_one_eq_mod, Nat.mod_eq_of_lt hx]
  have hword (i : Nat) (hi : i < n) : casperSelect mem c a b m n (c + i) = if m = 0 then mem (a + i) else mem (b + i) := by
    unfold casperSelect
    rw [selectLoop_apply n 0 mem (by omega) (by omega), if_pos (by omega), Nat.add_sub_cancel_left]
    obtain rfl | rfl : m = 0 ∨ m = 1 := by omega
    · rw [if_pos rfl, show wsub32 0 0 = 0 from rfl, Nat.and_zero, Nat.or_zero, Nat.sub_zero, hones (hmem _)]
    · rw [if_neg Nat.one_ne_zero, show wsub32 0 1 = 2 ^ 32 - 1 from rfl, Nat.sub_self, Nat.and_zero, Nat.zero_or,
        hones (hmem _)]
  split_ifs with h
  · apply held_congr
    intro i hi
    rw [hword i hi, if_pos h]
  · apply held_congr
    intro i hi
    rw [hword i hi, if_neg h]

/-- A selection with the flag that the driver infers. -/
lemma held_casperSelect_flag (hmem : ∀ i, mem i < 2 ^ 32) {c a b n : Nat} (ha : a = c ∨ a + n ≤ c ∨ c + n ≤ a)
    (hb : b = c ∨ b + n ≤ c ∨ c + n ≤ b) (flag : Prop) [Decidable flag] :
    held (casperSelect mem c a b (if flag then 1 else 0) n) c n = if flag then held mem b n else held mem a n := by
  by_cases h : flag
  · rw [if_pos h, if_pos h, held_casperSelect hmem ha hb 1 le_rfl, if_neg Nat.one_ne_zero]
  · rw [if_neg h, if_neg h, held_casperSelect hmem ha hb 0 (Nat.zero_le 1), if_pos rfl]

lemma shiftrightLoop_of_not_mem {z x c k : Nat} (count i : Nat) (mem : Nat → Nat) (hk : k < z + i ∨ z + i + count < k) :
    shiftrightLoop z x c count i mem k = mem k := by
  induction count generalizing i mem with
  | zero => exact Function.update_of_ne (by omega) _ _
  | succ count ih =>
    rw [shiftrightLoop, ih (i + 1) _ (by omega)]
    exact Function.update_of_ne (by omega) _ _

/-- The lowest word of a number shifted right, from its two lowest words. -/
lemma shiftright_word {c x y rest : Nat} (hc : c ≤ 32) (hx : x < 2 ^ 32) :
    (y * 2 ^ (32 - c) % 2 ^ 32 ||| x / 2 ^ c) + 2 ^ 32 * ((y + 2 ^ 32 * rest) / 2 ^ c) =
      (x + 2 ^ 32 * (y + 2 ^ 32 * rest)) / 2 ^ c := by
  have hsplit : 2 ^ 32 = 2 ^ c * 2 ^ (32 - c) := by
    rw [← Nat.pow_add, Nat.add_sub_cancel' hc]
  have hupper : y * 2 ^ (32 - c) % 2 ^ 32 = 2 ^ (32 - c) * (y % 2 ^ c) := by
    rw [hsplit, Nat.mul_mod_mul_right, Nat.mul_comm]
  have hlower : x / 2 ^ c < 2 ^ (32 - c) := by
    rw [Nat.div_lt_iff_lt_mul (by positivity), Nat.mul_comm, ← hsplit]
    exact hx
  have hmod : (y + 2 ^ 32 * rest) % 2 ^ c = y % 2 ^ c := by
    rw [hsplit, Nat.mul_assoc, Nat.add_mul_mod_self_left]
  have hdigits := Nat.div_add_mod (y + 2 ^ 32 * rest) (2 ^ c)
  rw [hmod] at hdigits
  rw [hupper, ← Nat.two_pow_add_eq_or_of_lt hlower]
  generalize y + 2 ^ 32 * rest = l at *
  generalize l / 2 ^ c = q at *
  calc 2 ^ (32 - c) * (y % 2 ^ c) + x / 2 ^ c + 2 ^ 32 * q
      = x / 2 ^ c + 2 ^ (32 - c) * (2 ^ c * q + y % 2 ^ c) := by rw [hsplit]; ring
    _ = x / 2 ^ c + 2 ^ (32 - c) * l := by rw [hdigits]
    _ = (x + 2 ^ c * (2 ^ (32 - c) * l)) / 2 ^ c := (Nat.add_mul_div_left _ _ (by positivity)).symm
    _ = (x + 2 ^ 32 * l) / 2 ^ c := by rw [← Nat.mul_assoc, ← hsplit]

lemma held_shiftrightLoop {z x c : Nat} (hc : c ≤ 32) (count i : Nat) (mem : Nat → Nat) (hmem : ∀ k, mem k < 2 ^ 32)
    (h : x = z ∨ x + (i + count) < z ∨ z + (i + count) < x) :
    held (shiftrightLoop z x c count i mem) (z + i) (count + 1) = held mem (x + i) (count + 1) / 2 ^ c := by
  induction count generalizing i mem with
  | zero => rw [held_one, held_one, shiftrightLoop, Function.update_self]
  | succ count ih =>
    rw [shiftrightLoop]
    have hword := shiftrightLoop_of_not_mem (x := x) (c := c) count (i + 1) (Function.update mem (z + i)
      (mem (x + (i + 1)) * 2 ^ (32 - c) % 2 ^ 32 ||| mem (x + i) / 2 ^ c)) (Or.inl (Nat.lt_succ_self (z + i)))
    have hlt := update_lt hmem (z + i)
      (Nat.or_lt_two_pow (Nat.mod_lt (mem (x + (i + 1)) * 2 ^ (32 - c)) (by decide))
        ((Nat.div_le_self _ (2 ^ c)).trans_lt (hmem (x + i))))
    have hrest := ih (i + 1) _ hlt (by omega)
    have hkept : held (Function.update mem (z + i) (mem (x + (i + 1)) * 2 ^ (32 - c) % 2 ^ 32 ||| mem (x + i) / 2 ^ c))
        (x + (i + 1)) (count + 1) = held mem (x + (i + 1)) (count + 1) :=
      held_congr (fun k _ => Function.update_of_ne (by omega) _ _)
    rw [hkept] at hrest
    rw [Function.update_self] at hword
    rw [held_succ', hword, Nat.add_assoc z, hrest, held_succ' mem (x + i), Nat.add_assoc x, held_succ' mem (x + (i + 1))]
    exact shiftright_word hc (hmem _)

lemma held_shiftright {n z x c : Nat} (hc : c ≤ 32) (hn : 0 < n) (hmem : ∀ k, mem k < 2 ^ 32)
    (h : x = z ∨ x + n ≤ z ∨ z + n ≤ x) : held (shiftright mem n z x c) z n = held mem x n / 2 ^ c := by
  have hloop := held_shiftrightLoop hc (n - 1) 0 mem hmem (by omega : x = z ∨ x + (0 + (n - 1)) < z ∨ _)
  rwa [Nat.sub_add_cancel hn] at hloop

lemma shiftrightLoop_lt {z x c : Nat} (count i : Nat) (mem : Nat → Nat) (hmem : ∀ k, mem k < 2 ^ 32) (k : Nat) :
    shiftrightLoop z x c count i mem k < 2 ^ 32 := by
  have hlow (k : Nat) : mem k / 2 ^ c < 2 ^ 32 := (Nat.div_le_self _ _).trans_lt (hmem k)
  induction count generalizing i mem with
  | zero => exact update_lt hmem (z + i) (hlow _) k
  | succ count ih =>
    rw [shiftrightLoop]
    apply ih
    · exact update_lt hmem (z + i) (Nat.or_lt_two_pow (Nat.mod_lt _ (by decide)) (hlow _))
    · intro k
      exact (Nat.div_le_self _ _).trans_lt
        (update_lt hmem (z + i) (Nat.or_lt_two_pow (Nat.mod_lt _ (by decide)) (hlow _)) k)

lemma shiftright_of_not_mem {n z x c k : Nat} (hn : 0 < n) (hk : k < z ∨ z + n ≤ k) :
    shiftright mem n z x c k = mem k :=
  shiftrightLoop_of_not_mem _ _ _ (by omega)

lemma held_accelAdd64 (mem : Nat → Nat) (n b res : Nat) :
    held (accelAdd64 mem n b res) res n = (held mem res n + held mem b n) % (2 ^ 32) ^ n :=
  limbs_store _ _ _ _ _

lemma held_accelSub64 (mem : Nat → Nat) (n b res : Nat) :
    held (accelSub64 mem n b res) res n = (held mem res n + (2 ^ 32) ^ n - held mem b n) % (2 ^ 32) ^ n :=
  limbs_store _ _ _ _ _

lemma accelAdd64_of_not_mem {n b res i : Nat} (h : i < res ∨ res + n ≤ i) : accelAdd64 mem n b res i = mem i :=
  store_of_not_mem h

lemma accelSub64_of_not_mem {n b res i : Nat} (h : i < res ∨ res + n ≤ i) : accelSub64 mem n b res i = mem i :=
  store_of_not_mem h

lemma accelAdd64_lt (hmem : ∀ i, mem i < 2 ^ 32) (n b res i : Nat) : accelAdd64 mem n b res i < 2 ^ 32 :=
  store_lt (by decide) hmem _ _ _ i

lemma accelSub64_lt (hmem : ∀ i, mem i < 2 ^ 32) (n b res i : Nat) : accelSub64 mem n b res i < 2 ^ 32 :=
  store_lt (by decide) hmem _ _ _ i

lemma held_div (hmem : ∀ i, mem i < 2 ^ 32) (x m n : Nat) : held mem x (m + n) / (2 ^ 32) ^ m = held mem (x + m) n :=
  limbs_div (fun k _ _ => hmem k)

lemma held_mod (hmem : ∀ i, mem i < 2 ^ 32) (x m n : Nat) : held mem x (m + n) % (2 ^ 32) ^ m = held mem x m :=
  limbs_mod (fun k _ _ => hmem k)

lemma held_top (hmem : ∀ i, mem i < 2 ^ 32) (x n : Nat) : held mem x (n + 1) / (2 ^ 32) ^ n = mem (x + n) := by
  rw [held_div hmem, held_one]

/-- The lower word of the double word above a number. -/
lemma held_next (hmem : ∀ i, mem i < 2 ^ 32) (x n : Nat) :
    held mem x (n + 2) / (2 ^ 32) ^ n % 2 ^ 32 = mem (x + n) := by
  rw [held_div hmem, held_succ', Nat.add_mul_mod_self_left, Nat.mod_eq_of_lt (hmem _)]

lemma held_extended {x n : Nat} (hlow : mem (x + n) = 0) (hhigh : mem (x + n + 1) = 0) :
    held mem x (n + 2) = held mem x n := by
  rw [held_succ, held_succ, hlow, ← Nat.add_assoc x, hhigh, Nat.mul_zero, Nat.mul_zero, Nat.add_zero]

lemma held_clearDword (mem : Nat → Nat) (x n : Nat) : held (clearDword mem (x + n)) x (n + 2) = held mem x n := by
  rw [held_extended (clearDword_of_mem (by omega)) (clearDword_of_mem (by omega))]
  exact held_congr (fun i hi => clearDword_of_not_mem (Or.inl (by omega)))

lemma held_clearDword_of_apart {x y n : Nat} (h : y + 2 ≤ x ∨ x + n ≤ y) : held (clearDword mem y) x n = held mem x n :=
  held_congr (fun i hi => clearDword_of_not_mem (by omega))

lemma words_with_dword (n : Nat) : (2 ^ 32) ^ (n + 2) = (2 ^ 32) ^ n * 2 ^ 64 := by
  rw [Nat.pow_add, show (2 ^ 32) ^ 2 = 2 ^ 64 by norm_num]

/-- The carry of a sum moved into the half of its lower words. -/
lemma half_with_carry (s v : Nat) : s % (v * 2) / 2 + v * (s / (v * 2)) = s / 2 := by
  have hsplit := Nat.mod_add_div s (v * 2)
  generalize s / (v * 2) = q, s % (v * 2) = r at *
  rw [← hsplit, Nat.mul_right_comm, Nat.mul_comm (v * q), Nat.add_mul_div_left _ _ (by decide)]

/-- `shiftright` of a sum by one, with the carry put in. -/
lemma held_halved (hmem : ∀ i, mem i < 2 ^ 32) {x n : Nat} (hlt : held mem x (n + 1 + 2) < 2 * (2 ^ 32) ^ (n + 1)) :
    held (Function.update (shiftright mem (n + 1) x x 1) (x + n) (shiftright mem (n + 1) x x 1 (x + n) |||
      shiftright mem (n + 1) x x 1 (x + (n + 1)) * 2 ^ 31 % 2 ^ 32)) x (n + 1) = held mem x (n + 1 + 2) / 2 := by
  have hshift := held_shiftright (x := x) (c := 1) (by decide) (by omega : 0 < n + 1) hmem (Or.inl rfl)
  have hnext : shiftright mem (n + 1) x x 1 (x + (n + 1)) = mem (x + (n + 1)) :=
    shiftright_of_not_mem (by omega) (Or.inr (by omega))
  have hmem' (i : Nat) : shiftright mem (n + 1) x x 1 i < 2 ^ 32 := shiftrightLoop_lt _ _ _ hmem i
  have hcarry := held_next hmem x (n + 1)
  have hlow := held_mod hmem x (n + 1) 2
  have hsmall : held mem x (n + 1 + 2) / (2 ^ 32) ^ (n + 1) < 2 := by
    rw [Nat.div_lt_iff_lt_mul (by positivity)]
    exact hlt
  have hwhole : (2 ^ 32) ^ (n + 1) = (2 ^ 32) ^ n * 2 ^ 31 * 2 := by
    rw [Nat.pow_succ, Nat.mul_assoc, show 2 ^ 31 * 2 = 2 ^ 32 from rfl]
  rw [Nat.mod_eq_of_lt (by omega)] at hcarry
  rw [hnext, ← hcarry]
  rw [← hlow, pow_one] at hshift
  generalize shiftright mem (n + 1) x x 1 = mem' at *
  have htop : mem' (x + n) < 2 ^ 31 := by
    rw [← held_top hmem', hshift, Nat.div_lt_iff_lt_mul (by positivity), Nat.div_lt_iff_lt_mul (by decide),
      Nat.mul_comm (2 ^ 31), ← hwhole]
    exact Nat.mod_lt _ (by positivity)
  have hrest : held (Function.update mem' (x + n) (mem' (x + n) |||
      held mem x (n + 1 + 2) / (2 ^ 32) ^ (n + 1) * 2 ^ 31 % 2 ^ 32)) x n = held mem' x n :=
    held_congr (fun i _ => Function.update_of_ne (by omega) _ _)
  have hor : mem' (x + n) ||| held mem x (n + 1 + 2) / (2 ^ 32) ^ (n + 1) * 2 ^ 31 % 2 ^ 32 =
      2 ^ 31 * (held mem x (n + 1 + 2) / (2 ^ 32) ^ (n + 1)) + mem' (x + n) := by
    rw [Nat.mod_eq_of_lt (by omega), Nat.or_comm, Nat.mul_comm, Nat.two_pow_add_eq_or_of_lt htop]
  have hsplit := held_succ mem' x n
  rw [held_succ _ x n, hrest, Function.update_self, hor, ← half_with_carry _ ((2 ^ 32) ^ n * 2 ^ 31), ← hwhole, ← hshift,
    hsplit, Nat.mul_add, Nat.mul_assoc]
  omega

end Words

namespace Curve

variable (c : Curve)

/-- Where the RAM holds the modulus; the scratch area of the operations is at 0. -/
def modAddr : Nat :=
  c.wordlen + 4

/-- `CASPER_ecc_init`. -/
def eccInit (mem : Nat → Nat) : Nat → Nat :=
  store (2 ^ 32) (store (2 ^ 32) mem c.modAddr c.wordlen c.p) (c.modAddr + c.wordlen) 4 0

/-- `CASPER_montsub`. -/
def montsub (mem : Nat → Nat) (C A B : Nat) : Nat → Nat :=
  let n := c.wordlen
  let mem := copyWords mem 0 A n
  let mem := accelSub64 mem n B 0
  let borrow := if mem (n - 1) > mem (A + (n - 1)) then 1 else 0
  let mem := copyWords mem C 0 n
  let mem := accelAdd64 mem n c.modAddr C
  casperSelect mem C 0 C borrow n

/-- `CASPER_montadd`. -/
def montadd (mem : Nat → Nat) (C A B : Nat) : Nat → Nat :=
  let n := c.wordlen
  let mem := copyWords mem 0 A n
  let mem := clearDword (clearDword (clearDword mem n) (B + n)) (c.modAddr + n)
  let mem := accelAdd64 mem (n + 2) B 0
  let mem := copyWords mem C 0 (n + 2)
  let mem := accelSub64 mem (n + 2) c.modAddr C
  let borrow := if mem (C + n) > mem n then 1 else 0
  casperSelect mem C C 0 borrow n

/-- `CASPER_half`. -/
def casperHalf (mem : Nat → Nat) (C A B : Nat) : Nat → Nat :=
  let n := c.wordlen
  let mem := shiftright mem n B A 1
  let mem := copyWords mem C A n
  let mem := clearDword mem (C + n)
  let mem := accelAdd64 mem (n + 2) c.modAddr C
  let mem := shiftright mem n C C 1
  let mem := Function.update mem (C + (n - 1)) (mem (C + (n - 1)) ||| mem (C + n) * 2 ^ 31 % 2 ^ 32)
  let mem := Function.update mem (C + n) 0
  casperSelect mem C B C (mem A &&& 1) n

/-- `CASPER_ecc_init` has run: the modulus is in its place, with a double word of 0 above. -/
structure ModulusLoaded (mem : Nat → Nat) : Prop where
  modulus : held mem c.modAddr c.wordlen = c.p
  low : mem (c.modAddr + c.wordlen) = 0
  high : mem (c.modAddr + c.wordlen + 1) = 0

/-- Buffers with two spare words each. -/
def Apart (x y : Nat) : Prop :=
  x + (c.wordlen + 2) ≤ y ∨ y + (c.wordlen + 2) ≤ x

/-- A buffer above the modulus. -/
def Above (x : Nat) : Prop :=
  c.modAddr + c.wordlen + 4 ≤ x

instance (x y : Nat) : Decidable (c.Apart x y) :=
  inferInstanceAs (Decidable (_ ∨ _))

instance (x : Nat) : Decidable (c.Above x) :=
  inferInstanceAs (Decidable (_ ≤ _))

/-- The output, the operand and the scratch space of a halving. -/
structure HalfOperands (C A B : Nat) : Prop where
  aboveC : c.Above C
  aboveA : c.Above A
  aboveB : c.Above B
  apartCA : c.Apart C A
  apartCB : c.Apart C B
  apartAB : c.Apart A B

lemma p_lt (c : Curve) : c.p < (2 ^ 32) ^ c.wordlen :=
  c.constants.2.1

lemma wordlen_pos (c : Curve) : 0 < c.wordlen := by
  cases c <;> decide

section Subtraction

/-- The borrow of a subtraction shows in the upper word unless that of the subtrahend is all ones and the lower
words borrow. -/
lemma upper_lt_iff (a0 a1 : Nat) {w b0 b1 : Nat} (hb : b0 < w) (hb1 : b1 < 2 ^ 32) :
    a1 < (a0 + w * a1 + w * 2 ^ 32 - (b0 + w * b1)) / w ↔ ¬ (b1 = 2 ^ 32 - 1 ∧ a0 < b0) := by
  obtain ⟨k, hk⟩ : ∃ k, b1 + k = 2 ^ 32 - 1 := ⟨2 ^ 32 - 1 - b1, by omega⟩
  have hwhole : w * 2 ^ 32 = w * b1 + w * k + w := by
    rw [← Nat.mul_add, hk]
    omega
  rw [Nat.lt_iff_add_one_le, Nat.le_div_iff_mul_le (by omega), Nat.add_mul, Nat.one_mul, Nat.mul_comm a1, hwhole]
  rcases Nat.eq_zero_or_pos k with rfl | hpos
  · omega
  · have hle : w ≤ w * k := Nat.le_mul_of_pos_right w hpos
    omega

variable {c} {mem : Nat → Nat} {C A B : Nat}

/-- `CASPER_ecc_init` loads what the multiplications rely on. -/
theorem modulusLoaded_eccInit (c : Curve) (mem : Nat → Nat) : c.ModulusLoaded (c.eccInit mem) where
  modulus := by
    have hkept : held (c.eccInit mem) c.modAddr c.wordlen =
        held (store (2 ^ 32) mem c.modAddr c.wordlen c.p) c.modAddr c.wordlen :=
      held_congr (fun i hi => store_of_not_mem (Or.inl (by omega)))
    rw [hkept, held, limbs_store, Nat.mod_eq_of_lt c.p_lt]
  low := by
    unfold eccInit store
    rw [if_pos ⟨le_rfl, by omega⟩, Nat.zero_div, Nat.zero_mod]
  high := by
    unfold eccInit store
    rw [if_pos ⟨by omega, by omega⟩, Nat.zero_div, Nat.zero_mod]

/-- What `CASPER_montsub` writes, with the borrow that the driver sees. -/
lemma held_montsub (hmem : ∀ i, mem i < 2 ^ 32) (hload : c.ModulusLoaded mem) (hC : c.Above C) (hA : c.Above A)
    (hB : c.Above B) :
    held (c.montsub mem C A B) C c.wordlen =
      let w := (2 ^ 32) ^ c.wordlen
      let t := (held mem A c.wordlen + w - held mem B c.wordlen) % w
      if mem (A + (c.wordlen - 1)) < t / (2 ^ 32) ^ (c.wordlen - 1) then (t + c.p) % w else t := by
  unfold Above modAddr at hC hA hB
  have hn := c.wordlen_pos
  obtain ⟨mem1, hmem1⟩ : ∃ m, copyWords mem 0 A c.wordlen = m := ⟨_, rfl⟩
  obtain ⟨mem2, hmem2⟩ : ∃ m, accelSub64 mem1 c.wordlen B 0 = m := ⟨_, rfl⟩
  obtain ⟨mem3, hmem3⟩ : ∃ m, copyWords mem2 C 0 c.wordlen = m := ⟨_, rfl⟩
  obtain ⟨mem4, hmem4⟩ : ∃ m, accelAdd64 mem3 c.wordlen c.modAddr C = m := ⟨_, rfl⟩
  have hlt1 (i : Nat) : mem1 i < 2 ^ 32 := hmem1 ▸ copyWords_lt hmem _ _ _ i
  have hlt2 (i : Nat) : mem2 i < 2 ^ 32 := hmem2 ▸ accelSub64_lt hlt1 _ _ _ i
  have hlt3 (i : Nat) : mem3 i < 2 ^ 32 := hmem3 ▸ copyWords_lt hlt2 _ _ _ i
  have hlt4 (i : Nat) : mem4 i < 2 ^ 32 := hmem4 ▸ accelAdd64_lt hlt3 _ _ _ i
  have hkept1 (i : Nat) (hi : c.wordlen ≤ i) : mem1 i = mem i := hmem1 ▸ copyWords_of_not_mem (Or.inr (by omega))
  have hkept2 (i : Nat) (hi : c.wordlen ≤ i) : mem2 i = mem i := by
    rw [← hmem2, accelSub64_of_not_mem (Or.inr (by omega)), hkept1 i hi]
  have hkept3 (i : Nat) (hi : i < C) : mem3 i = mem2 i := hmem3 ▸ copyWords_of_not_mem (Or.inl hi)
  have hkept4 (i : Nat) (hi : i < C) : mem4 i = mem2 i := by
    rw [← hmem4, accelAdd64_of_not_mem (Or.inl hi), hkept3 i hi]
  have hsub : held mem2 0 c.wordlen =
      (held mem A c.wordlen + (2 ^ 32) ^ c.wordlen - held mem B c.wordlen) % (2 ^ 32) ^ c.wordlen := by
    rw [← hmem2, held_accelSub64, ← hmem1, held_copyWords, hmem1]
    congr 2
    exact held_congr (fun i _ => hkept1 _ (by omega))
  have hadd : held mem4 C c.wordlen = (held mem2 0 c.wordlen + c.p) % (2 ^ 32) ^ c.wordlen := by
    rw [← hmem4, held_accelAdd64, ← hmem3, held_copyWords, hmem3, ← hload.modulus]
    congr 2
    apply held_congr
    intro i hi
    rw [hkept3 _ (by unfold modAddr; omega), hkept2 _ (by unfold modAddr; omega)]
  have htop : mem2 (c.wordlen - 1) = held mem2 0 c.wordlen / (2 ^ 32) ^ (c.wordlen - 1) := by
    have htop' := held_top hlt2 0 (c.wordlen - 1)
    rwa [Nat.sub_add_cancel hn, Nat.zero_add, eq_comm] at htop'
  have hfinish : c.montsub mem C A B =
      casperSelect mem4 C 0 C (if mem2 (c.wordlen - 1) > mem2 (A + (c.wordlen - 1)) then 1 else 0) c.wordlen := by
    unfold montsub
    simp only [hmem1, hmem2, hmem3, hmem4]
  have hlow : held mem4 0 c.wordlen = held mem2 0 c.wordlen := held_congr (fun i _ => hkept4 _ (by omega))
  rw [hfinish, held_casperSelect_flag hlt4 (by omega) (by omega), hkept2 (A + (c.wordlen - 1)) (by omega), htop, hlow,
    hadd, hsub]

/-- A number by its upper word and the words below. -/
lemma held_wordlen (mem : Nat → Nat) (x : Nat) : held mem x c.wordlen =
    held mem x (c.wordlen - 1) + (2 ^ 32) ^ (c.wordlen - 1) * mem (x + (c.wordlen - 1)) := by
  rw [← held_succ, Nat.sub_add_cancel c.wordlen_pos]

/-- `CASPER_montsub` misses the borrow exactly when the upper word of the subtrahend is all ones and the lower
words borrow. -/
lemma montsub_eq_iff (hmem : ∀ i, mem i < 2 ^ 32) (hload : c.ModulusLoaded mem) (hC : c.Above C) (hA : c.Above A)
    (hB : c.Above B) (ha : held mem A c.wordlen < c.p) (hb : held mem B c.wordlen < c.p) :
    held (c.montsub mem C A B) C c.wordlen = c.subCasper (held mem A c.wordlen) (held mem B c.wordlen) ↔
      ¬ (mem (B + (c.wordlen - 1)) = 2 ^ 32 - 1 ∧
        held mem A (c.wordlen - 1) < held mem B (c.wordlen - 1)) := by
  have hborrow := upper_lt_iff (held mem A (c.wordlen - 1)) (mem (A + (c.wordlen - 1)))
    (held_lt hmem B (c.wordlen - 1)) (hmem (B + (c.wordlen - 1)))
  have hupper : (2 ^ 32) ^ (c.wordlen - 1) * 2 ^ 32 = (2 ^ 32) ^ c.wordlen := by
    rw [← Nat.pow_succ, Nat.succ_eq_add_one, Nat.sub_add_cancel c.wordlen_pos]
  rw [← held_wordlen, ← held_wordlen, hupper] at hborrow
  have hp := c.p_lt
  rw [held_montsub hmem hload hC hA hB, subCasper, Nat.mod_eq_of_lt hb]
  dsimp only
  by_cases hle : held mem B c.wordlen ≤ held mem A c.wordlen
  · have ht : (held mem A c.wordlen + (2 ^ 32) ^ c.wordlen - held mem B c.wordlen) % (2 ^ 32) ^ c.wordlen =
        held mem A c.wordlen - held mem B c.wordlen := wrapped_sub hle (by omega)
    have htop := held_top hmem A (c.wordlen - 1)
    rw [Nat.sub_add_cancel c.wordlen_pos] at htop
    have hnone : ¬ mem (A + (c.wordlen - 1)) <
        (held mem A c.wordlen - held mem B c.wordlen) / (2 ^ 32) ^ (c.wordlen - 1) := by
      rw [← htop]
      exact not_lt.mpr (Nat.div_le_div_right (Nat.sub_le _ _))
    rw [ht, if_neg hnone, ← Nat.add_sub_assoc hb.le, Nat.sub_add_comm hle, Nat.add_mod_right,
      Nat.mod_eq_of_lt (by omega)]
    refine iff_of_true rfl ?_
    rintro ⟨hones, hlow⟩
    have hwords : mem (A + (c.wordlen - 1)) ≤ mem (B + (c.wordlen - 1)) :=
      hones ▸ Nat.le_pred_of_lt (hmem (A + (c.wordlen - 1)))
    have hmul := Nat.mul_le_mul_left ((2 ^ 32) ^ (c.wordlen - 1)) hwords
    rw [held_wordlen mem A, held_wordlen mem B] at hle
    omega
  · have ht : (held mem A c.wordlen + (2 ^ 32) ^ c.wordlen - held mem B c.wordlen) % (2 ^ 32) ^ c.wordlen =
        held mem A c.wordlen + (2 ^ 32) ^ c.wordlen - held mem B c.wordlen := Nat.mod_eq_of_lt (by omega)
    rw [ht, Nat.mod_eq_of_lt (by omega : held mem A c.wordlen + (c.p - held mem B c.wordlen) < c.p)]
    split_ifs with hseen
    · refine iff_of_true ?_ (hborrow.mp hseen)
      rw [Nat.mod_eq_sub_mod (by omega), Nat.mod_eq_of_lt (by omega)]
      omega
    · refine iff_of_false ?_ (hborrow.not.mp hseen)
      omega

end Subtraction

section Addition

variable {c} {mem : Nat → Nat} {C A B : Nat}

/-- A subtraction that does not go below 0 leaves no more in the word above than there was. -/
lemma reduce_once {s p w : Nat} (hp : p < w) (hs : s < 2 * p) :
    (if s / w % 2 ^ 32 < (s + w * 2 ^ 64 - p) % (w * 2 ^ 64) / w % 2 ^ 32 then s % w
      else (s + w * 2 ^ 64 - p) % (w * 2 ^ 64) % w) = s % p := by
  have hw : 0 < w := by omega
  by_cases hle : p ≤ s
  · have ht : (s + w * 2 ^ 64 - p) % (w * 2 ^ 64) = s - p := wrapped_sub hle (by omega)
    have hzero : (s - p) / w = 0 := Nat.div_eq_of_lt (by omega)
    rw [ht, hzero, Nat.zero_mod, if_neg (Nat.not_lt_zero _), Nat.mod_eq_of_lt (by omega), Nat.mod_eq_sub_mod hle,
      Nat.mod_eq_of_lt (by omega)]
  · have ht : (s + w * 2 ^ 64 - p) % (w * 2 ^ 64) = s + w * 2 ^ 64 - p := Nat.mod_eq_of_lt (by omega)
    have hones : (s + w * 2 ^ 64 - p) / w = 2 ^ 64 - 1 := by
      apply Nat.div_eq_of_lt_le
      · rw [Nat.sub_mul, Nat.one_mul, Nat.mul_comm (2 ^ 64)]
        omega
      · rw [Nat.sub_add_cancel (by decide), Nat.mul_comm (2 ^ 64)]
        omega
    have hzero : s / w = 0 := Nat.div_eq_of_lt (by omega)
    rw [ht, hones, hzero, if_pos (by decide), Nat.mod_eq_of_lt (by omega), Nat.mod_eq_of_lt (by omega)]

/-- `CASPER_montadd` with one more double word. -/
lemma montadd_eq (hmem : ∀ i, mem i < 2 ^ 32) (hload : c.ModulusLoaded mem) (hC : c.Above C) (hB : c.Above B)
    (ha : held mem A c.wordlen < c.p) (hb : held mem B c.wordlen < c.p) :
    held (c.montadd mem C A B) C c.wordlen = c.addCasper (held mem A c.wordlen) (held mem B c.wordlen) := by
  unfold Above modAddr at hC hB
  obtain ⟨mem1, hmem1⟩ : ∃ m, copyWords mem 0 A c.wordlen = m := ⟨_, rfl⟩
  obtain ⟨mem2, hmem2⟩ : ∃ m, clearDword (clearDword (clearDword mem1 c.wordlen) (B + c.wordlen))
    (c.modAddr + c.wordlen) = m := ⟨_, rfl⟩
  obtain ⟨mem3, hmem3⟩ : ∃ m, accelAdd64 mem2 (c.wordlen + 2) B 0 = m := ⟨_, rfl⟩
  obtain ⟨mem4, hmem4⟩ : ∃ m, copyWords mem3 C 0 (c.wordlen + 2) = m := ⟨_, rfl⟩
  obtain ⟨mem5, hmem5⟩ : ∃ m, accelSub64 mem4 (c.wordlen + 2) c.modAddr C = m := ⟨_, rfl⟩
  have hlt1 (i : Nat) : mem1 i < 2 ^ 32 := hmem1 ▸ copyWords_lt hmem _ _ _ i
  have hlt2 (i : Nat) : mem2 i < 2 ^ 32 :=
    hmem2 ▸ clearDword_lt (clearDword_lt (clearDword_lt hlt1 _) _) _ i
  have hlt3 (i : Nat) : mem3 i < 2 ^ 32 := hmem3 ▸ accelAdd64_lt hlt2 _ _ _ i
  have hlt4 (i : Nat) : mem4 i < 2 ^ 32 := hmem4 ▸ copyWords_lt hlt3 _ _ _ i
  have hlt5 (i : Nat) : mem5 i < 2 ^ 32 := hmem5 ▸ accelSub64_lt hlt4 _ _ _ i
  have hkept1 (i : Nat) (hi : c.wordlen ≤ i) : mem1 i = mem i := hmem1 ▸ copyWords_of_not_mem (Or.inr (by omega))
  have hkept3 (i : Nat) (hi : c.wordlen + 2 ≤ i) : mem3 i = mem2 i := by
    rw [← hmem3, accelAdd64_of_not_mem (Or.inr (by omega))]
  have hkept4 (i : Nat) (hi : i < C) : mem4 i = mem3 i := hmem4 ▸ copyWords_of_not_mem (Or.inl hi)
  have hkept5 (i : Nat) (hi : i < C) : mem5 i = mem3 i := by
    rw [← hmem5, accelSub64_of_not_mem (Or.inl hi), hkept4 i hi]
  have hscratch : held mem2 0 (c.wordlen + 2) = held mem A c.wordlen := by
    have hextend := held_clearDword mem1 0 c.wordlen
    rw [Nat.zero_add] at hextend
    rw [← hmem2, held_clearDword_of_apart (Or.inr (by unfold modAddr; omega)),
      held_clearDword_of_apart (Or.inr (by omega)), hextend, ← hmem1, held_copyWords]
  have hsecond : held mem2 B (c.wordlen + 2) = held mem B c.wordlen := by
    rw [← hmem2, held_clearDword_of_apart (Or.inl (by unfold modAddr; omega)), held_clearDword,
      held_clearDword_of_apart (Or.inl (by omega))]
    exact held_congr (fun i _ => hkept1 _ (by omega))
  have hmod : held mem4 c.modAddr (c.wordlen + 2) = c.p := by
    have hkept : held mem4 c.modAddr (c.wordlen + 2) = held mem2 c.modAddr (c.wordlen + 2) := by
      apply held_congr
      intro i hi
      rw [hkept4 _ (by unfold modAddr; omega), hkept3 _ (by unfold modAddr; omega)]
    rw [hkept, ← hmem2, held_clearDword, held_clearDword_of_apart (Or.inr (by unfold modAddr; omega)),
      held_clearDword_of_apart (Or.inl (by unfold modAddr; omega)), ← hload.modulus]
    exact held_congr (fun i _ => hkept1 _ (by unfold modAddr; omega))
  have hp := c.p_lt
  have hwide := words_with_dword c.wordlen
  have hsum : held mem3 0 (c.wordlen + 2) = held mem A c.wordlen + held mem B c.wordlen := by
    rw [← hmem3, held_accelAdd64, hscratch, hsecond, Nat.mod_eq_of_lt (by omega)]
  have hdiff : held mem5 C (c.wordlen + 2) = (held mem A c.wordlen + held mem B c.wordlen +
      (2 ^ 32) ^ c.wordlen * 2 ^ 64 - c.p) % ((2 ^ 32) ^ c.wordlen * 2 ^ 64) := by
    rw [← hmem5, held_accelSub64, hmod, ← hmem4, held_copyWords, hsum, hwide]
  have hfinish : c.montadd mem C A B =
      casperSelect mem5 C C 0 (if mem5 (C + c.wordlen) > mem5 c.wordlen then 1 else 0) c.wordlen := by
    unfold montadd
    simp only [hmem1, hmem2, hmem3, hmem4, hmem5]
  have hlow : held mem5 0 c.wordlen = held mem3 0 c.wordlen := held_congr (fun i _ => hkept5 _ (by omega))
  have hnext := held_next hlt3 0 c.wordlen
  rw [Nat.zero_add] at hnext
  rw [hfinish, held_casperSelect_flag hlt5 (Or.inl rfl) (by omega), hkept5 c.wordlen (by omega), ← hnext,
    ← held_next hlt5, ← held_mod hlt5 C c.wordlen 2, hlow, ← held_mod hlt3 0 c.wordlen 2, hsum, hdiff]
  exact reduce_once hp (by omega)

end Addition

section Halving

variable {c} {mem : Nat → Nat} {C A B : Nat}

lemma casperHalf_eq (hmem : ∀ i, mem i < 2 ^ 32) (hload : c.ModulusLoaded mem) (h : c.HalfOperands C A B)
    (ha : held mem A c.wordlen < c.p) :
    held (c.casperHalf mem C A B) C c.wordlen = c.half (held mem A c.wordlen) := by
  obtain ⟨hC, hA, hB, hCA, hCB, hAB⟩ := h
  unfold Above modAddr at hC hA hB
  unfold Apart at hCA hCB hAB
  have hn := c.wordlen_pos
  obtain ⟨mem1, hmem1⟩ : ∃ m, shiftright mem c.wordlen B A 1 = m := ⟨_, rfl⟩
  obtain ⟨mem2, hmem2⟩ : ∃ m, copyWords mem1 C A c.wordlen = m := ⟨_, rfl⟩
  obtain ⟨mem3, hmem3⟩ : ∃ m, clearDword mem2 (C + c.wordlen) = m := ⟨_, rfl⟩
  obtain ⟨mem4, hmem4⟩ : ∃ m, accelAdd64 mem3 (c.wordlen + 2) c.modAddr C = m := ⟨_, rfl⟩
  obtain ⟨mem5, hmem5⟩ : ∃ m, shiftright mem4 c.wordlen C C 1 = m := ⟨_, rfl⟩
  obtain ⟨mem6, hmem6⟩ : ∃ m, Function.update mem5 (C + (c.wordlen - 1))
    (mem5 (C + (c.wordlen - 1)) ||| mem5 (C + c.wordlen) * 2 ^ 31 % 2 ^ 32) = m := ⟨_, rfl⟩
  obtain ⟨mem7, hmem7⟩ : ∃ m, Function.update mem6 (C + c.wordlen) 0 = m := ⟨_, rfl⟩
  have hlt1 (i : Nat) : mem1 i < 2 ^ 32 := hmem1 ▸ shiftrightLoop_lt _ _ _ hmem i
  have hlt2 (i : Nat) : mem2 i < 2 ^ 32 := hmem2 ▸ copyWords_lt hlt1 _ _ _ i
  have hlt3 (i : Nat) : mem3 i < 2 ^ 32 := hmem3 ▸ clearDword_lt hlt2 _ i
  have hlt4 (i : Nat) : mem4 i < 2 ^ 32 := hmem4 ▸ accelAdd64_lt hlt3 _ _ _ i
  have hlt5 (i : Nat) : mem5 i < 2 ^ 32 := hmem5 ▸ shiftrightLoop_lt _ _ _ hlt4 i
  have hlt6 (i : Nat) : mem6 i < 2 ^ 32 :=
    hmem6 ▸ update_lt hlt5 _ (Nat.or_lt_two_pow (hlt5 _) (Nat.mod_lt _ (by decide))) i
  have hlt7 (i : Nat) : mem7 i < 2 ^ 32 := hmem7 ▸ update_lt hlt6 _ (by decide) i
  have hkept1 (i : Nat) (hi : i < B ∨ B + c.wordlen ≤ i) : mem1 i = mem i := hmem1 ▸ shiftright_of_not_mem hn hi
  have hkept4 (i : Nat) (hi : i < C ∨ C + c.wordlen + 2 ≤ i) : mem4 i = mem1 i := by
    rw [← hmem4, accelAdd64_of_not_mem (by omega), ← hmem3, clearDword_of_not_mem (by omega), ← hmem2,
      copyWords_of_not_mem (by omega)]
  have hkept7 (i : Nat) (hi : i < C ∨ C + c.wordlen + 2 ≤ i) : mem7 i = mem1 i := by
    rw [← hmem7, Function.update_of_ne (by omega), ← hmem6, Function.update_of_ne (by omega), ← hmem5,
      shiftright_of_not_mem hn (by omega), hkept4 i hi]
  have hhalf : held mem7 B c.wordlen = held mem A c.wordlen / 2 := by
    have hkept : held mem7 B c.wordlen = held mem1 B c.wordlen := held_congr (fun i _ => hkept7 _ (by omega))
    rw [hkept, ← hmem1, held_shiftright (by decide) hn hmem (by omega), pow_one]
  have hcopy : held mem3 C (c.wordlen + 2) = held mem A c.wordlen := by
    rw [← hmem3, held_clearDword, ← hmem2, held_copyWords]
    exact held_congr (fun i _ => hkept1 _ (by omega))
  have hmod : held mem3 c.modAddr (c.wordlen + 2) = c.p := by
    rw [← hload.modulus, ← held_extended hload.low hload.high]
    apply held_congr
    intro i hi
    unfold modAddr
    rw [← hmem3, clearDword_of_not_mem (by omega), ← hmem2, copyWords_of_not_mem (by omega), hkept1 _ (by omega)]
  have hp := c.p_lt
  have hwide := words_with_dword c.wordlen
  have hsum : held mem4 C (c.wordlen + 2) = held mem A c.wordlen + c.p := by
    rw [← hmem4, held_accelAdd64, hcopy, hmod, Nat.mod_eq_of_lt (by omega)]
  have hsumhalf : held mem7 C c.wordlen = (held mem A c.wordlen + c.p) / 2 := by
    have hkept : held mem7 C c.wordlen = held mem6 C c.wordlen :=
      held_congr (fun i _ => hmem7 ▸ Function.update_of_ne (by omega) _ _)
    obtain ⟨n, hlen⟩ : ∃ n, c.wordlen = n + 1 := ⟨c.wordlen - 1, by omega⟩
    rw [hkept, ← hsum, ← hmem6, ← hmem5, hlen]
    exact held_halved hlt4 (by rw [← hlen]; omega)
  have hfinish : c.casperHalf mem C A B = casperSelect mem7 C B C (mem7 A &&& 1) c.wordlen := by
    unfold casperHalf
    simp only [hmem1, hmem2, hmem3, hmem4, hmem5, hmem6, hmem7]
  have hbit : mem7 A &&& 1 = held mem A c.wordlen % 2 := by
    obtain ⟨n, hlen⟩ : ∃ n, c.wordlen = n + 1 := ⟨c.wordlen - 1, by omega⟩
    rw [Nat.and_one_is_mod, hkept7 A (by omega), hkept1 A (by omega), hlen, held_succ']
    omega
  rw [hfinish, hbit, held_casperSelect hlt7 (by omega) (Or.inl rfl) _ (by omega), hhalf, hsumhalf, half]

end Halving

lemma subCasper_eq {a b : Nat} (hb : b < c.p) : (c.subCasper a b : ℤ) = (a - b : ℤ) % c.p := by
  unfold subCasper
  rw [Nat.mod_eq_of_lt hb]
  push_cast [hb.le]
  rw [← Int.add_emod_right (a - b : ℤ)]
  congr 1
  ring

lemma half_lt {a : Nat} (ha : a < c.p) : c.half a < c.p := by
  unfold half
  split_ifs <;> omega

lemma two_mul_half {a : Nat} (ha : a < c.p) : 2 * c.half a % c.p = a := by
  have hodd : c.p % 2 = 1 := c.constants.2.2.1
  unfold half
  split_ifs
  · rw [Nat.mul_div_cancel' (by omega), Nat.mod_eq_of_lt ha]
  · rw [Nat.mul_div_cancel' (by omega), Nat.add_mod_right, Nat.mod_eq_of_lt ha]

/-- The field operations on the operands `A` and `B` are exact and reduced, the subtraction only if its borrow
shows in the upper word. -/
theorem fieldOperations_exact_iff (c : Curve) {mem : Nat → Nat} {C A B D E : Nat} (hmem : ∀ i, mem i < 2 ^ 32)
    (hload : c.ModulusLoaded mem) (hC : c.Above C) (hA : c.Above A) (hB : c.Above B) (hD : c.HalfOperands D A E)
    (ha : held mem A c.wordlen < c.p) (hb : held mem B c.wordlen < c.p) :
    (held (c.montsub mem C A B) C c.wordlen : ℤ) = (held mem A c.wordlen - held mem B c.wordlen : ℤ) % c.p ∧
        held (c.montadd mem C A B) C c.wordlen = (held mem A c.wordlen + held mem B c.wordlen) % c.p ∧
        held (c.casperHalf mem D A E) D c.wordlen < c.p ∧
        2 * held (c.casperHalf mem D A E) D c.wordlen % c.p = held mem A c.wordlen ↔
      ¬ (mem (B + (c.wordlen - 1)) = 2 ^ 32 - 1 ∧
        held mem A (c.wordlen - 1) < held mem B (c.wordlen - 1)) := by
  have hsub := montsub_eq_iff hmem hload hC hA hB ha hb
  rw [← hsub, montadd_eq hmem hload hC hB ha hb, casperHalf_eq hmem hload hD ha, ← subCasper_eq c hb, Nat.cast_inj]
  constructor
  · rintro ⟨hexact, -⟩
    exact hexact
  · intro hexact
    exact ⟨hexact, rfl, half_lt c ha, two_mul_half c ha⟩

/-- The RAM after `CASPER_ecc_init` with operands at 24 and 36. -/
def operandsAt (a b : Nat) : Nat → Nat :=
  store (2 ^ 32) (store (2 ^ 32) (p256.eccInit (fun _ => 0)) 24 8 a) 36 8 b

lemma operandsAt_lt (a b i : Nat) : operandsAt a b i < 2 ^ 32 := by
  unfold operandsAt eccInit
  apply store_lt (by decide)
  apply store_lt (by decide)
  apply store_lt (by decide)
  apply store_lt (by decide)
  exact fun _ => by decide

theorem fieldOperations_exact_iff_small :
    (held (p256.montsub (operandsAt 3 5) 48 24 36) 48 8 : ℤ) = (3 - 5) % p256.p ∧
      held (p256.montadd (operandsAt 3 5) 48 24 36) 48 8 = 8 ∧
      held (p256.casperHalf (operandsAt 3 5) 60 24 72) 60 8 < p256.p ∧
      2 * held (p256.casperHalf (operandsAt 3 5) 60 24 72) 60 8 % p256.p = 3 := by
  have hA : held (operandsAt 3 5) 24 8 = 3 := by decide +kernel
  have hB : held (operandsAt 3 5) 36 8 = 5 := by decide +kernel
  have hexact := (fieldOperations_exact_iff p256 (C := 48) (A := 24) (B := 36) (D := 60) (E := 72)
    (operandsAt_lt 3 5) ⟨by decide +kernel, by decide +kernel, by decide +kernel⟩ (by decide) (by decide)
    (by decide) ⟨by decide, by decide, by decide, by decide, by decide, by decide⟩
    (by decide +kernel) (by decide +kernel)).mpr (by decide +kernel)
  rw [show p256.wordlen = 8 from rfl, hA, hB] at hexact
  exact hexact

/-- Nothing less a number whose upper word is all ones. -/
theorem montsub_misses_borrow :
    let b := 0xffffffff * 2 ^ 224 + 1
    let mem := operandsAt 0 b
    p256.ModulusLoaded mem ∧ held mem 24 8 = 0 ∧ held mem 36 8 = b ∧ b < p256.p ∧
      held (p256.montsub mem 48 24 36) 48 8 = 2 ^ 224 - 1 ∧
      (held (p256.montsub mem 48 24 36) 48 8 : ℤ) ≠ (0 - b) % p256.p := by
  refine ⟨⟨?_, ?_, ?_⟩, ?_⟩
  · decide +kernel
  · decide +kernel
  · decide +kernel
  · decide +kernel

end Curve

end McuxDrivers.Casper
