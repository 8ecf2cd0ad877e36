import McuxDrivers.Lib.Pratt
import McuxDrivers.Lib.Countdown
import Mathlib.NumberTheory.LucasLehmer
import Mathlib.Tactic.LinearCombination
import Mathlib.Tactic.FieldSimp

/-!
# The prime fields of the CASPER driver

The driver keeps the elements of a field in Montgomery form, as numbers of `wordlen` words. Its field operations
are taken as exact here. `Curve.val` is the element that such a number stands for.
-/

namespace McuxDrivers.Casper
open McuxDrivers.Lib

/-- `casper_algo_t`. -/
inductive Curve where
  | p256
  | p384
  | p521
deriving DecidableEq

namespace Curve

/-- `N_wordlen`. -/
def wordlen : Curve → Nat
  | p256 => 8
  | p384 => 12
  | p521 => 18

/-- `NISTp256`, `NISTp384`, `NISTp521`. -/
def p : Curve → Nat
  | p256 => 0xffffffff00000001000000000000000000000000ffffffffffffffffffffffff
  | p384 => 0xfffffffffffffffffffffffffffffffffffffffffffffffffffffffffffffffeffffffff0000000000000000ffffffff
  | p521 => 2 ^ 521 - 1

/-- `NISTp256_q`, `NISTp384_q`, `NISTp521_q`. -/
def q : Curve → Nat
  | p256 => 0xffffffff00000000ffffffffffffffffbce6faada7179e84f3b9cac2fc632551
  | p384 => 0xffffffffffffffffffffffffffffffffffffffffffffffffc7634d81f4372ddf581a0db248b0a77aecec196accc52973
  | p521 => 0x1fffffffffffffffffffffffffffffffffffffffffffffffffffffffffffffffffa51868783bf2f966b7fcc0148f709a5d03bb5c9b8899c47aebb6fb71e91386409

/-- `NISTr256`, `NISTr384`, `NISTr521`: the value 1 in Montgomery form. -/
def one : Curve → Nat
  | p256 => 0x00000000fffffffeffffffffffffffffffffffff000000000000000000000001
  | p384 => 0x0000000100000000ffffffffffffffff00000001
  | p521 => 0x80000000000000

/-- The inverse of `2 ^ (32 * wordlen)`, which a Montgomery multiplication divides by. -/
def rInv : Curve → Nat
  | p256 => 0xfffffffe00000003fffffffd0000000200000001fffffffe0000000300000000
  | p384 => 0x14000000140000000c00000002fffffffcfffffffafffffffbfffffffdffffffebffffffd8ffffffe100000006
  | p521 => 0x400000000000000000000000000000000000000000000000000000000000000000000000000000000000000000000000000000000000000000000

/-- What the words of the constants say. -/
lemma constants (c : Curve) : 2 < c.p ∧ c.p < (2 ^ 32) ^ c.wordlen ∧ c.p % 2 = 1 ∧
    (2 ^ 32) ^ c.wordlen * c.rInv % c.p = 1 ∧ c.one < c.p ∧ c.one * c.rInv % c.p = 1 := by
  cases c <;> decide +kernel

end Curve

/-- Lucas's tests for the first prime and the large factors that they need. -/
def p256Tests : List LucasTest :=
  [⟨115792089210356248762697446949407573530086143415290314195533631308867097853951, 6,
     [2, 3, 5, 5, 17, 257, 641, 1531, 65537, 490463, 6700417, 835945042244614951780389953367877943453916927241]⟩,
   ⟨835945042244614951780389953367877943453916927241, 11,
     [2, 2, 2, 3, 3, 3, 5, 774023187263532362759620327192479577272145303]⟩,
   ⟨774023187263532362759620327192479577272145303, 3,
     [2, 3, 3, 2411, 34282281433, 11290956913871, 46076956964474543]⟩,
   ⟨46076956964474543, 5,
     [2, 23, 18169, 78283, 704251]⟩,
   ⟨11290956913871, 13,
     [2, 5, 17, 66417393611]⟩,
   ⟨66417393611, 6,
     [2, 5, 53, 173, 197, 3677]⟩,
   ⟨34282281433, 17,
     [2, 2, 2, 3, 7, 204061199]⟩,
   ⟨204061199, 11,
     [2, 11, 23, 107, 3769]⟩,
   ⟨6700417, 5,
     [2, 2, 2, 2, 2, 2, 2, 3, 17449]⟩]
/-- The same for the second prime. -/
def p384Tests : List LucasTest :=
  [⟨39402006196394479212279040100143613805079739270465446667948293404245721771496870329047266088258938001861606973112319, 19,
     [2, 19, 67, 807145746439, 19173790298027098165721053155794528970226934547887232785722672956982046098136719667167519737147526097]⟩,
   ⟨19173790298027098165721053155794528970226934547887232785722672956982046098136719667167519737147526097, 3,
     [2, 2, 2, 2, 11, 11, 11, 8389, 38557, 312289, 1357291859799823621, 529709925838459440593, 12397338596863679689524759770405177749801411]⟩,
   ⟨12397338596863679689524759770405177749801411, 2,
     [2, 3, 5, 413244619895455989650825325680172591660047]⟩,
   ⟨413244619895455989650825325680172591660047, 5,
     [2, 17, 97, 6051631, 20705423504133292078628634597817]⟩,
   ⟨20705423504133292078628634597817, 5,
     [2, 2, 2, 3, 862725979338887169942859774909]⟩,
   ⟨862725979338887169942859774909, 2,
     [2, 2, 3, 3, 23964610537191310276190549303]⟩,
   ⟨23964610537191310276190549303, 5,
     [2, 336757, 35581458644053887931343]⟩,
   ⟨35581458644053887931343, 5,
     [2, 17, 41, 568151, 44925942675193]⟩,
   ⟨529709925838459440593, 3,
     [2, 2, 2, 2, 7, 181, 105957871, 246608641]⟩,
   ⟨1357291859799823621, 2,
     [2, 2, 3, 5, 67, 6317, 53448597593]⟩,
   ⟨44925942675193, 5,
     [2, 2, 2, 3, 3517, 532247449]⟩,
   ⟨807145746439, 3,
     [2, 3, 47, 2862218959]⟩,
   ⟨53448597593, 3,
     [2, 2, 2, 13, 513928823]⟩,
   ⟨2862218959, 3,
     [2, 3, 157, 1373, 2213]⟩,
   ⟨532247449, 7,
     [2, 2, 2, 3, 61, 363557]⟩,
   ⟨513928823, 5,
     [2, 11, 59, 599, 661]⟩,
   ⟨246608641, 19,
     [2, 2, 2, 2, 2, 2, 2, 2, 3, 3, 5, 21407]⟩,
   ⟨105957871, 3,
     [2, 3, 5, 19, 211, 881]⟩,
   ⟨6051631, 6,
     [2, 3, 5, 13, 59, 263]⟩]

lemma p256Tests_certified : Certified 256 p256Tests := by
  have hsmall : Certified 64 (p256Tests.drop 3) := by decide +kernel
  refine And.intro ?_ (And.intro ?_ (And.intro ?_ (hsmall.mono (by decide))))
  all_goals decide +kernel

lemma p384Tests_certified : Certified 384 p384Tests := by
  have hsmall : Certified 144 (p384Tests.drop 2) := by decide +kernel
  refine And.intro ?_ (And.intro ?_ (hsmall.mono (by decide)))
  all_goals decide +kernel

lemma mersenne_521_prime : (mersenne 521).Prime :=
  lucas_lehmer_sufficiency 521 (by norm_num) (by norm_num)

namespace Curve

theorem prime_p (c : Curve) : c.p.Prime := by
  cases c with
  | p256 => exact p256Tests_certified.prime _ List.mem_cons_self
  | p384 => exact p384Tests_certified.prime _ List.mem_cons_self
  | p521 => exact mersenne_521_prime

instance (c : Curve) : Fact c.p.Prime :=
  ⟨c.prime_p⟩

section Operations

variable (c : Curve)

/-- `multiply_casper`. -/
def multiplyCasper (a b : Nat) : Nat :=
  a * b * c.rInv % c.p

/-- `square_casper`. -/
def squareCasper (a : Nat) : Nat :=
  c.multiplyCasper a a

/-- `add_casper`. -/
def addCasper (a b : Nat) : Nat :=
  (a + b) % c.p

/-- `mul2_casper`. -/
def mul2Casper (a : Nat) : Nat :=
  c.addCasper a a

/-- `sub_casper`. -/
def subCasper (a b : Nat) : Nat :=
  (a + (c.p - b % c.p)) % c.p

def half (a : Nat) : Nat :=
  if a % 2 = 0 then a / 2 else (a + c.p) / 2

/-- `sub_n` on `N_wordlen` words. -/
def subN (a b : Nat) : Nat :=
  if b ≤ a then a - b else a + (2 ^ 32) ^ c.wordlen - b

/-- The element that a number in Montgomery form stands for. -/
def val (a : Nat) : ZMod c.p :=
  a * c.rInv

end Operations

variable {c : Curve} {a b : Nat}

lemma p_pos (c : Curve) : 0 < c.p :=
  c.prime_p.pos

lemma two_lt_p (c : Curve) : 2 < c.p :=
  c.constants.1

lemma two_ne_zero (c : Curve) : (2 : ZMod c.p) ≠ 0 := by
  intro h
  have hdvd := (ZMod.natCast_eq_zero_iff 2 c.p).mp h
  exact absurd (Nat.le_of_dvd (by decide) hdvd) (not_le.mpr c.two_lt_p)

lemma r_mul_rInv (c : Curve) : (2 ^ 32) ^ c.wordlen * c.rInv % c.p = 1 :=
  c.constants.2.2.2.1

lemma rInv_ne_zero (c : Curve) : (c.rInv : ZMod c.p) ≠ 0 := by
  intro h
  have hdvd := (ZMod.natCast_eq_zero_iff c.rInv c.p).mp h
  have hone := c.r_mul_rInv
  rw [Nat.mod_eq_zero_of_dvd (hdvd.mul_left _)] at hone
  exact absurd hone (by decide)

lemma multiplyCasper_lt : c.multiplyCasper a b < c.p :=
  Nat.mod_lt _ c.p_pos

lemma subCasper_lt : c.subCasper a b < c.p :=
  Nat.mod_lt _ c.p_pos

lemma one_lt_p (c : Curve) : c.one < c.p :=
  c.constants.2.2.2.2.1

@[simp]
lemma val_multiplyCasper : c.val (c.multiplyCasper a b) = c.val a * c.val b := by
  unfold val multiplyCasper
  rw [ZMod.natCast_mod]
  push_cast
  ring

@[simp]
lemma val_squareCasper : c.val (c.squareCasper a) = c.val a * c.val a :=
  val_multiplyCasper

@[simp]
lemma val_addCasper : c.val (c.addCasper a b) = c.val a + c.val b := by
  unfold val addCasper
  rw [ZMod.natCast_mod]
  push_cast
  ring

@[simp]
lemma val_mul2Casper : c.val (c.mul2Casper a) = 2 * c.val a := by
  rw [mul2Casper, val_addCasper, two_mul]

@[simp]
lemma val_subCasper : c.val (c.subCasper a b) = c.val a - c.val b := by
  unfold val subCasper
  rw [ZMod.natCast_mod, Nat.cast_add, Nat.cast_sub (Nat.mod_lt _ c.p_pos).le, ZMod.natCast_mod, ZMod.natCast_self]
  ring

@[simp]
lemma val_half : c.val (c.half a) = c.val a / 2 := by
  have hodd : c.p % 2 = 1 := by
    rcases c.prime_p.eq_two_or_odd with h | h
    · exact absurd h c.two_lt_p.ne'
    · exact h
  have hdouble : ((c.half a * 2 : Nat) : ZMod c.p) = a := by
    unfold half
    split_ifs with heven
    · rw [Nat.div_mul_cancel (Nat.dvd_of_mod_eq_zero heven)]
    · rw [Nat.div_mul_cancel (Nat.dvd_of_mod_eq_zero (by omega)), Nat.cast_add, ZMod.natCast_self, add_zero]
  rw [eq_div_iff c.two_ne_zero, val, val, ← hdouble]
  push_cast
  ring

lemma val_subN (hb : b ≤ c.p) : c.val (c.subN c.p b) = -c.val b := by
  unfold val subN
  rw [if_pos hb, Nat.cast_sub hb, ZMod.natCast_self]
  ring

@[simp]
lemma val_one (c : Curve) : c.val c.one = 1 := by
  have hone : c.one * c.rInv % c.p = 1 := c.constants.2.2.2.2.2
  rw [val, ← Nat.cast_mul, ← ZMod.natCast_mod, hone, Nat.cast_one]

lemma val_inj (ha : a < c.p) (hb : b < c.p) : c.val a = c.val b ↔ a = b := by
  refine ⟨fun h => ?_, fun h => h ▸ rfl⟩
  have hcast : (a : ZMod c.p) = b := mul_right_cancel₀ c.rInv_ne_zero h
  have hmod := (ZMod.natCast_eq_natCast_iff' a b c.p).mp hcast
  rwa [Nat.mod_eq_of_lt ha, Nat.mod_eq_of_lt hb] at hmod

lemma val_eq_zero_iff (ha : a < c.p) : c.val a = 0 ↔ a = 0 := by
  have hzero : c.val 0 = 0 := by simp [val]
  rw [← hzero, val_inj ha c.p_pos]

end Curve

end McuxDrivers.Casper
