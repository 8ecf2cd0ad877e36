import McuxDrivers.Casper.Field
import McuxDrivers.Lib.JacobianCurve

/-!
# Points in Jacobian coordinates

`Jac_double`, `Jac_addition` and `Jac_add_affine`, with the case distinctions of the driver. For every two
points, equal, opposite or at infinity, the result represents the sum.
-/

namespace McuxDrivers.Casper
open McuxDrivers.Lib

/-- A triple of coordinates in Montgomery form. -/
structure Jac where
  x : Nat
  y : Nat
  z : Nat

variable (c : Curve)

/-- `Jac_double`. -/
def jacDouble (s : Jac) : Jac :=
  let t1 := c.squareCasper s.z
  let t3 := c.subCasper s.x t1
  let t1 := c.addCasper s.x t1
  let t4 := c.multiplyCasper t3 t1
  let t3 := c.mul2Casper t4
  let t2 := c.addCasper t3 t4
  let y3 := c.mul2Casper s.y
  let t5 := s.z
  let z3 := c.multiplyCasper y3 t5
  let t5 := c.squareCasper y3
  let t3 := c.multiplyCasper t5 s.x
  let y3 := c.squareCasper t5
  let t5 := c.half y3
  let x3 := c.squareCasper t2
  let t1 := c.mul2Casper t3
  let x3 := c.subCasper x3 t1
  let t1 := c.subCasper t3 x3
  let t3 := c.multiplyCasper t1 t2
  let y3 := c.subCasper t3 t5
  { x := x3, y := y3, z := z3 }

/-- `Jac_addition`. -/
def jacAddition (s t : Jac) : Jac :=
  if s.z = 0 then t
  else if t.z = 0 then s
  else
    let z1z1 := c.squareCasper s.z
    let z2z2 := c.squareCasper t.z
    let u1 := c.multiplyCasper s.x z2z2
    let h := c.multiplyCasper t.x z1z1
    let t0 := c.multiplyCasper t.z z2z2
    let s1 := c.multiplyCasper s.y t0
    let t0 := c.multiplyCasper s.z z1z1
    let j := c.multiplyCasper t.y t0
    if h = u1 ∧ s1 = j then jacDouble c s
    else
      let h := c.subCasper h u1
      let t0 := c.mul2Casper h
      let t1 := c.squareCasper t0
      let t0 := c.subCasper j s1
      let j := c.multiplyCasper h t1
      let v := c.multiplyCasper u1 t1
      let u1 := c.mul2Casper t0
      let t0 := c.squareCasper u1
      let t1 := c.mul2Casper v
      let t0 := c.subCasper t0 j
      let x3 := c.subCasper t0 t1
      let t0 := c.subCasper v x3
      let t1 := c.multiplyCasper s1 j
      let t1 := c.mul2Casper t1
      let v := c.multiplyCasper u1 t0
      let y3 := c.subCasper v t1
      let v := c.addCasper s.z t.z
      let t1 := c.squareCasper v
      let t1 := c.subCasper t1 z1z1
      let t1 := c.subCasper t1 z2z2
      { x := x3, y := y3, z := c.multiplyCasper t1 h }

/-- `Jac_add_affine`. -/
def jacAddAffine (s : Jac) (x2 y2 : Nat) : Jac :=
  if s.z = 0 then { x := x2, y := y2, z := c.one }
  else
    let t5 := s.z
    let t3 := c.squareCasper s.z
    let t2 := c.multiplyCasper t3 s.z
    let t4 := c.multiplyCasper t3 x2
    let t3 := c.multiplyCasper t2 y2
    if t4 = s.x ∧ t3 = s.y then jacDouble c s
    else
      let t1 := c.subCasper t4 s.x
      let t2 := c.subCasper t3 s.y
      let z3 := c.multiplyCasper t5 t1
      let t3 := c.squareCasper t1
      let t4 := c.multiplyCasper t3 t1
      let t5 := c.multiplyCasper t3 s.x
      let t1 := c.mul2Casper t5
      let x3 := c.squareCasper t2
      let x3 := c.subCasper x3 t1
      let x3 := c.subCasper x3 t4
      let t3 := c.subCasper t5 x3
      let t1 := c.multiplyCasper t3 t2
      let t2 := c.multiplyCasper t4 s.y
      { x := x3, y := c.subCasper t1 t2, z := z3 }

/-- The triple represents the point, and the third coordinate is reduced. -/
def Jac.Represents (c : Curve) {b : ZMod c.p} (s : Jac) (P : (shortCurve b).Point) : Prop :=
  s.z < c.p ∧ IsJacobian (c.val s.x) (c.val s.y) (c.val s.z) P

variable {c} {b : ZMod c.p} {s t : Jac} {P Q : (shortCurve b).Point}

lemma Jac.Represents.z_eq_zero_iff (h : Jac.Represents c s P) : s.z = 0 ↔ P = 0 :=
  (Curve.val_eq_zero_iff h.1).symm.trans h.2.eq_zero_iff

lemma represents_affine {x1 y1 : Nat} (hP : IsJacobian (c.val x1) (c.val y1) 1 P) :
    Jac.Represents c { x := x1, y := y1, z := c.one } P := by
  refine ⟨c.one_lt_p, ?_⟩
  rw [Curve.val_one]
  exact hP

/-- All coordinates are reduced. -/
def Jac.Reduced (c : Curve) (s : Jac) : Prop :=
  s.x < c.p ∧ s.y < c.p ∧ s.z < c.p

lemma jacDouble_reduced : Jac.Reduced c (jacDouble c s) :=
  ⟨Curve.subCasper_lt, Curve.subCasper_lt, Curve.multiplyCasper_lt⟩

lemma jacAddition_reduced (hs : Jac.Reduced c s) (ht : Jac.Reduced c t) : Jac.Reduced c (jacAddition c s t) := by
  unfold jacAddition
  dsimp only
  split_ifs
  · exact ht
  · exact hs
  · exact jacDouble_reduced
  · exact ⟨Curve.subCasper_lt, Curve.subCasper_lt, Curve.multiplyCasper_lt⟩

lemma jacAddAffine_reduced {x2 y2 : Nat} (hx : x2 < c.p) (hy : y2 < c.p) :
    Jac.Reduced c (jacAddAffine c s x2 y2) := by
  unfold jacAddAffine
  dsimp only
  split_ifs
  · exact ⟨hx, hy, c.one_lt_p⟩
  · exact jacDouble_reduced
  · exact ⟨Curve.subCasper_lt, Curve.subCasper_lt, Curve.multiplyCasper_lt⟩

theorem jacDouble_represents (h : Jac.Represents c s P) : Jac.Represents c (jacDouble c s) (P + P) := by
  refine ⟨Curve.multiplyCasper_lt, ?_⟩
  have hdouble := h.2.double c.two_ne_zero
  unfold jacDouble
  simp only [Curve.val_multiplyCasper, Curve.val_squareCasper, Curve.val_subCasper, Curve.val_addCasper,
    Curve.val_mul2Casper, Curve.val_half]
  convert hdouble using 1
  all_goals ring

/-- The sum, whether the operands are equal, opposite, at infinity or none of these. -/
theorem jacAddition_represents (hP : Jac.Represents c s P) (hQ : Jac.Represents c t Q) :
    Jac.Represents c (jacAddition c s t) (P + Q) := by
  obtain ⟨hsz, hs⟩ := hP
  obtain ⟨htz, ht⟩ := hQ
  unfold jacAddition
  by_cases hs0 : s.z = 0
  · have hP0 : P = 0 := Jac.Represents.z_eq_zero_iff ⟨hsz, hs⟩ |>.mp hs0
    rw [if_pos hs0, hP0, zero_add]
    exact ⟨htz, ht⟩
  rw [if_neg hs0]
  by_cases ht0 : t.z = 0
  · have hQ0 : Q = 0 := Jac.Represents.z_eq_zero_iff ⟨htz, ht⟩ |>.mp ht0
    rw [if_pos ht0, hQ0, add_zero]
    exact ⟨hsz, hs⟩
  rw [if_neg ht0]
  have hz₁ : c.val s.z ≠ 0 := (Curve.val_eq_zero_iff hsz).not.mpr hs0
  have hz₂ : c.val t.z ≠ 0 := (Curve.val_eq_zero_iff htz).not.mpr ht0
  -- the comparisons are between reduced numbers, so they compare the elements
  have hcross : (c.multiplyCasper t.x (c.squareCasper s.z) = c.multiplyCasper s.x (c.squareCasper t.z) ∧
      c.multiplyCasper s.y (c.multiplyCasper t.z (c.squareCasper t.z)) =
        c.multiplyCasper t.y (c.multiplyCasper s.z (c.squareCasper s.z))) ↔
      (c.val t.x * c.val s.z ^ 2 = c.val s.x * c.val t.z ^ 2 ∧
        c.val s.y * c.val t.z ^ 3 = c.val t.y * c.val s.z ^ 3) := by
    rw [← Curve.val_inj Curve.multiplyCasper_lt Curve.multiplyCasper_lt,
      ← Curve.val_inj Curve.multiplyCasper_lt Curve.multiplyCasper_lt]
    simp only [Curve.val_multiplyCasper, Curve.val_squareCasper]
    ring_nf
  dsimp only
  split_ifs with heq
  · obtain rfl : P = Q := hs.eq_of_cross_eq ht hz₁ hz₂ (hcross.mp heq).1 (hcross.mp heq).2
    exact jacDouble_represents ⟨hsz, hs⟩
  · refine ⟨Curve.multiplyCasper_lt, ?_⟩
    have hadd := hs.add c.two_ne_zero ht hz₁ hz₂ (hcross.not.mp heq)
    simp only [Curve.val_multiplyCasper, Curve.val_squareCasper, Curve.val_subCasper, Curve.val_addCasper,
      Curve.val_mul2Casper]
    convert hadd using 1
    all_goals ring

/-- The sum with an affine point. -/
theorem jacAddAffine_represents {x2 y2 : Nat} (hP : Jac.Represents c s P) (hx : s.x < c.p) (hy : s.y < c.p)
    (hQ : IsJacobian (c.val x2) (c.val y2) 1 Q) : Jac.Represents c (jacAddAffine c s x2 y2) (P + Q) := by
  obtain ⟨hsz, hs⟩ := hP
  unfold jacAddAffine
  by_cases hs0 : s.z = 0
  · have hP0 : P = 0 := Jac.Represents.z_eq_zero_iff ⟨hsz, hs⟩ |>.mp hs0
    rw [if_pos hs0, hP0, zero_add]
    exact represents_affine hQ
  rw [if_neg hs0]
  have hz₁ : c.val s.z ≠ 0 := (Curve.val_eq_zero_iff hsz).not.mpr hs0
  have hcross : (c.multiplyCasper (c.squareCasper s.z) x2 = s.x ∧
      c.multiplyCasper (c.multiplyCasper (c.squareCasper s.z) s.z) y2 = s.y) ↔
      (c.val s.z ^ 2 * c.val x2 = c.val s.x ∧ c.val s.z ^ 3 * c.val y2 = c.val s.y) := by
    rw [← Curve.val_inj Curve.multiplyCasper_lt hx, ← Curve.val_inj Curve.multiplyCasper_lt hy]
    simp only [Curve.val_multiplyCasper, Curve.val_squareCasper]
    ring_nf
  dsimp only
  split_ifs with heq
  · obtain ⟨hxeq, hyeq⟩ := hcross.mp heq
    obtain rfl : P = Q := by
      refine hs.eq_of_cross_eq hQ hz₁ one_ne_zero ?_ ?_
      · linear_combination hxeq
      · linear_combination -hyeq
    exact jacDouble_represents ⟨hsz, hs⟩
  · refine ⟨Curve.multiplyCasper_lt, ?_⟩
    have hadd := hs.add_affine hQ hz₁ (hcross.not.mp heq)
    simp only [Curve.val_multiplyCasper, Curve.val_squareCasper, Curve.val_subCasper, Curve.val_mul2Casper]
    convert hadd using 1
    all_goals ring

end McuxDrivers.Casper
