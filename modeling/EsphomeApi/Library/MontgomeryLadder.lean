/-
EsphomeApi.Library.MontgomeryLadder — scalar multiplication on a Montgomery
curve `y² = x³ + A x² + x` by its x-coordinates alone.

The ladder holds `m P` and `(m + 1) P` as fractions and takes in the scalar
bit by bit from the top. Two formulas are behind it, doubling and the addition
of two points whose difference is known; each is proved for every case there
is, the point at infinity and the points of order two included
(`Represents.double`, `Represents.add`). From them, one step keeps the two
multiples (`Holds.step`) and the whole ladder gives the multiple
(`ladder_eq`). The one base for which the formulas fail is `x = 0`, and there
the ladder gives 0, which is right again (`xCoord_nsmul_of_zero`).
-/
import Mathlib.AlgebraicGeometry.EllipticCurve.Affine.Point
import Mathlib.FieldTheory.IsAlgClosed.Basic
import Mathlib.Tactic.FieldSimp
import Mathlib.Tactic.LinearCombination

namespace EsphomeApi.Library.MontgomeryLadder

open WeierstrassCurve

variable {K : Type*} [Field K]

/-! ## The curve -/

/-- The curve `y² = x³ + A x² + x`. -/
def curve (A : K) : Affine K := { a₁ := 0, a₂ := A, a₃ := 0, a₄ := 1, a₆ := 0 }

theorem equation_iff {A x y : K} : (curve A).Equation x y ↔ y ^ 2 = x ^ 3 + A * x ^ 2 + x := by
  rw [Affine.equation_iff]
  simp [curve]

theorem negY_eq {A x y : K} : (curve A).negY x y = -y := by
  simp [curve]

/-- The x-coordinate, 0 at infinity. -/
def xCoord {A : K} : (curve A).Point → K
  | .zero => 0
  | .some x _ _ => x

@[simp] theorem xCoord_zero {A : K} : xCoord (0 : (curve A).Point) = 0 := rfl

@[simp] theorem xCoord_some {A x y : K} (h : (curve A).Nonsingular x y) :
    xCoord (.some x y h) = x := rfl

theorem xCoord_neg {A : K} (P : (curve A).Point) : xCoord (-P) = xCoord P := by
  cases P with
  | zero => rfl
  | some x y h => rfl

/-- The fraction `X / Z` is the x-coordinate, and infinity is `X / 0`. -/
def Represents {A : K} (X Z : K) : (curve A).Point → Prop
  | .zero => X ≠ 0 ∧ Z = 0
  | .some x _ _ => Z ≠ 0 ∧ X = x * Z

theorem represents_zero {A X Z : K} :
    Represents X Z (0 : (curve A).Point) ↔ X ≠ 0 ∧ Z = 0 := Iff.rfl

theorem represents_some {A X Z x y : K} (h : (curve A).Nonsingular x y) :
    Represents X Z (.some x y h) ↔ Z ≠ 0 ∧ X = x * Z := Iff.rfl

theorem Represents.div_eq {A X Z : K} {P : (curve A).Point} (h : Represents X Z P) :
    X / Z = xCoord P := by
  cases P with
  | zero =>
      obtain ⟨-, rfl⟩ := h
      exact div_zero X
  | some x y hP =>
      obtain ⟨hZ, rfl⟩ := h
      exact mul_div_cancel_right₀ x hZ

/-! ## The ladder -/

/-- Two fractions, side by side. -/
@[ext] structure Rungs (R : Type*) where
  x₂ : R
  z₂ : R
  x₃ : R
  z₃ : R

section Ladder

variable {R S : Type*} [CommRing R] [CommRing S]

/-- The swap of the two fractions. -/
def Rungs.swap (bit : Bool) (s : Rungs R) : Rungs R :=
  if bit then ⟨s.x₃, s.z₃, s.x₂, s.z₂⟩ else s

/-- The arithmetic of a step, with `a24 = (A - 2) / 4`: the first fraction
doubled, the two added. -/
def Rungs.advance (a24 x₁ : R) (s : Rungs R) : Rungs R :=
  let a := s.x₂ + s.z₂
  let aa := a ^ 2
  let b := s.x₂ - s.z₂
  let bb := b ^ 2
  let e := aa - bb
  let da := (s.x₃ - s.z₃) * a
  let cb := (s.x₃ + s.z₃) * b
  { x₂ := aa * bb
    z₂ := e * (aa + a24 * e)
    x₃ := (da + cb) ^ 2
    z₃ := x₁ * (da - cb) ^ 2 }

/-- One step, for one bit of the scalar. -/
def Rungs.step (a24 x₁ : R) (s : Rungs R) (bit : Bool) : Rungs R :=
  ((s.swap bit).advance a24 x₁).swap bit

/-- The ladder over the bits of a scalar, the highest first. -/
def ladder (a24 x₁ : R) (bits : List Bool) : Rungs R :=
  bits.foldl (Rungs.step a24 x₁) ⟨1, 0, x₁, 1⟩

/-- The number of a list of bits, the highest first. -/
def ofBits (bits : List Bool) : Nat := bits.foldl (fun n bit => 2 * n + bit.toNat) 0

theorem foldl_testBit (n : Nat) : ∀ k m : Nat,
    ((List.range k).reverse.map n.testBit).foldl (fun n bit => 2 * n + bit.toNat) m =
      2 ^ k * m + n % 2 ^ k
  | 0, m => by simp [Nat.mod_one]
  | k + 1, m => by
      rw [List.range_succ, List.reverse_append, List.reverse_singleton, List.singleton_append,
        List.map_cons, List.foldl_cons, foldl_testBit n k, Nat.toNat_testBit, Nat.mod_pow_succ,
        Nat.pow_succ]
      ring

/-- The lowest bits of a number. -/
theorem ofBits_testBit (n k : Nat) : ofBits ((List.range k).reverse.map n.testBit) = n % 2 ^ k := by
  rw [ofBits, foldl_testBit, Nat.mul_zero, Nat.zero_add]

def Rungs.map (f : R →+* S) (s : Rungs R) : Rungs S := ⟨f s.x₂, f s.z₂, f s.x₃, f s.z₃⟩

theorem Rungs.map_step (f : R →+* S) (a24 x₁ : R) (s : Rungs R) (bit : Bool) :
    (s.step a24 x₁ bit).map f = (s.map f).step (f a24) (f x₁) bit := by
  cases bit <;> simp [step, swap, advance, map]

/-- A ladder in a larger ring is the same ladder. -/
theorem map_ladder (f : R →+* S) (a24 x₁ : R) (bits : List Bool) :
    (ladder a24 x₁ bits).map f = ladder (f a24) (f x₁) bits := by
  have hfold : ∀ (bits : List Bool) (s : Rungs R),
      (bits.foldl (Rungs.step a24 x₁) s).map f =
        bits.foldl (Rungs.step (f a24) (f x₁)) (s.map f) := by
    intro bits
    induction bits with
    | nil => exact fun s => rfl
    | cons bit bits ih =>
        intro s
        rw [List.foldl_cons, List.foldl_cons, ih, Rungs.map_step]
  rw [ladder, hfold, ladder, Rungs.map, map_one, map_zero]

end Ladder

/-- Over `x = 0` one part of each fraction is always 0. -/
theorem foldl_step_zero (a24 : K) : ∀ (bits : List Bool) (s : Rungs K),
    s.x₂ * s.z₂ = 0 → s.x₃ * s.z₃ = 0 →
      (bits.foldl (Rungs.step a24 0) s).x₂ * (bits.foldl (Rungs.step a24 0) s).z₂ = 0
  | [], _, h, _ => h
  | bit :: bits, s, h, h' => by
      have hadvance : ∀ t : Rungs K, t.x₂ * t.z₂ = 0 →
          (t.advance a24 0).x₂ * (t.advance a24 0).z₂ = 0 ∧
            (t.advance a24 0).x₃ * (t.advance a24 0).z₃ = 0 := by
        intro t ht
        have he : (t.x₂ + t.z₂) ^ 2 - (t.x₂ - t.z₂) ^ 2 = 0 := by linear_combination 4 * ht
        constructor
        · simp only [Rungs.advance, he, zero_mul, mul_zero]
        · simp only [Rungs.advance, zero_mul, mul_zero]
      cases bit with
      | false =>
          obtain ⟨hlow, hhigh⟩ := hadvance s h
          exact foldl_step_zero a24 bits _ hlow hhigh
      | true =>
          obtain ⟨hlow, hhigh⟩ := hadvance (s.swap true) h'
          exact foldl_step_zero a24 bits _ hhigh hlow

/-! ## Doubling -/

/-- A point of the curve over `x = 1` or `x = -1` has `y ≠ 0`. -/
theorem sq_ne_one_of_y_eq_zero {A x : K} (hA : A ^ 2 ≠ 4)
    (h : (curve A).Nonsingular x 0) : x ^ 2 ≠ 1 := by
  intro hx
  have hcurve := equation_iff.mp h.1
  have hzero : A + 2 * x = 0 := by
    linear_combination -hcurve - (A + x) * hx
  exact hA (by linear_combination (A - 2 * x) * hzero + 4 * hx)

variable [DecidableEq K]

/-- Twice a point with `y ≠ 0`. -/
theorem double_some {A x y : K} (h2 : (2 : K) ≠ 0) (h : (curve A).Nonsingular x y) (hy : y ≠ 0) :
    ∃ x' y' h', Affine.Point.some x y h + .some x y h = .some x' y' h' ∧
      x' * (4 * y ^ 2) = (x ^ 2 - 1) ^ 2 := by
  have hcurve := equation_iff.mp h.1
  have h2y : y - -y ≠ 0 := by
    rw [sub_neg_eq_add, ← two_mul]
    exact mul_ne_zero h2 hy
  have hne : y ≠ (curve A).negY x y := by
    rw [negY_eq]
    exact sub_ne_zero.mp h2y
  refine ⟨_, _, _, Affine.Point.add_self_of_Y_ne hne, ?_⟩
  have hslope : (curve A).slope x x y y * (y - -y) = 3 * x ^ 2 + 2 * A * x + 1 := by
    rw [Affine.slope_of_Y_ne rfl hne, negY_eq, div_mul_cancel₀ _ h2y]
    simp [curve]
  generalize (curve A).slope x x y y = l at hslope ⊢
  simp only [curve, Affine.addX]
  linear_combination (l * (y - -y) + (3 * x ^ 2 + 2 * A * x + 1)) * hslope -
    4 * (A + 2 * x) * hcurve

/-- Twice a point with `y = 0`. -/
theorem double_of_y_eq_zero {A x : K} (h : (curve A).Nonsingular x 0) :
    Affine.Point.some x 0 h + .some x 0 h = 0 :=
  Affine.Point.add_self_of_Y_eq (by rw [negY_eq, neg_zero])

/-- The doubling formula. -/
theorem Represents.double {A X Z : K} (h2 : (2 : K) ≠ 0) (hA : A ^ 2 ≠ 4) {P : (curve A).Point}
    (h : Represents X Z P) :
    Represents ((X ^ 2 - Z ^ 2) ^ 2) (4 * X * Z * (X ^ 2 + A * X * Z + Z ^ 2)) (P + P) := by
  have h4 : (4 : K) ≠ 0 := by
    rw [show (4 : K) = 2 * 2 by norm_num]
    exact mul_ne_zero h2 h2
  cases P with
  | zero =>
      obtain ⟨hX, rfl⟩ := h
      refine (represents_zero (A := A)).mpr ⟨?_, by ring⟩
      simpa using pow_ne_zero 4 hX
  | some x y hP =>
      obtain ⟨hZ, rfl⟩ := h
      have hcurve := equation_iff.mp hP.1
      by_cases hy : y = 0
      · subst hy
        have hx := sq_ne_one_of_y_eq_zero hA hP
        rw [double_of_y_eq_zero hP, represents_zero]
        constructor
        · rw [show ((x * Z) ^ 2 - Z ^ 2) ^ 2 = ((x ^ 2 - 1) * Z ^ 2) ^ 2 by ring]
          exact pow_ne_zero 2 (mul_ne_zero (sub_ne_zero.mpr hx) (pow_ne_zero 2 hZ))
        · linear_combination -4 * Z ^ 4 * hcurve
      · obtain ⟨x', y', h', hsum, hx'⟩ := double_some h2 hP hy
        rw [hsum, represents_some]
        have hden : 4 * (x * Z) * Z * ((x * Z) ^ 2 + A * (x * Z) * Z + Z ^ 2) =
            4 * y ^ 2 * Z ^ 4 := by
          linear_combination -4 * Z ^ 4 * hcurve
        rw [hden]
        constructor
        · exact mul_ne_zero (mul_ne_zero h4 (pow_ne_zero 2 hy)) (pow_ne_zero 4 hZ)
        · linear_combination -Z ^ 4 * hx'

/-! ## Adding two points with a known difference -/

/-- The sum and the difference of two points over different x-coordinates. -/
theorem add_some {A x y x' y' : K} (h : (curve A).Nonsingular x y)
    (h' : (curve A).Nonsingular x' y') (hx : x ≠ x') :
    xCoord (.some x y h + Affine.Point.some x' y' h') *
        xCoord (.some x' y' h' - Affine.Point.some x y h) * (x - x') ^ 2 = (x * x' - 1) ^ 2 := by
  have hcurve := equation_iff.mp h.1
  have hcurve' := equation_iff.mp h'.1
  have hsum : (curve A).slope x x' y y' * (x - x') = y - y' := by
    rw [Affine.slope_of_X_ne hx, div_mul_cancel₀ _ (sub_ne_zero.mpr hx)]
  have hdiff : (curve A).slope x' x y' ((curve A).negY x y) * (x - x') = -(y + y') := by
    rw [Affine.slope_of_X_ne hx.symm, negY_eq, sub_neg_eq_add, ← neg_sub x' x, mul_neg,
      div_mul_cancel₀ _ (sub_ne_zero.mpr hx.symm), add_comm]
  rw [sub_eq_add_neg, Affine.Point.neg_some, Affine.Point.add_of_X_ne hx,
    Affine.Point.add_of_X_ne hx.symm, xCoord_some, xCoord_some]
  generalize (curve A).slope x x' y y' = l at hsum ⊢
  generalize (curve A).slope x' x y' ((curve A).negY x y) = m at hdiff ⊢
  simp only [curve, Affine.addX]
  have hS : (l ^ 2 + 0 * l - A - x - x') * (x - x') ^ 2 =
      (y - y') ^ 2 - (A + x + x') * (x - x') ^ 2 := by
    linear_combination (l * (x - x') + (y - y')) * hsum
  have hD : (m ^ 2 + 0 * m - A - x' - x) * (x - x') ^ 2 =
      (y + y') ^ 2 - (A + x + x') * (x - x') ^ 2 := by
    linear_combination (m * (x - x') - (y + y')) * hdiff
  refine mul_right_cancel₀ (pow_ne_zero 2 (sub_ne_zero.mpr hx)) ?_
  linear_combination (m ^ 2 + 0 * m - A - x' - x) * (x - x') ^ 2 * hS +
    ((y - y') ^ 2 - (A + x + x') * (x - x') ^ 2) * hD +
    (y ^ 2 + (x ^ 3 + A * x ^ 2 + x) - 2 * y' ^ 2 - 2 * ((A + x + x') * (x - x') ^ 2)) * hcurve +
    (y' ^ 2 + (x' ^ 3 + A * x' ^ 2 + x') - 2 * (x ^ 3 + A * x ^ 2 + x) -
      2 * ((A + x + x') * (x - x') ^ 2)) * hcurve'

/-- The formula for the sum of two points whose difference lies over `x₁`. -/
theorem Represents.add {A x₁ X₂ Z₂ X₃ Z₃ : K} (h2 : (2 : K) ≠ 0) (hx₁ : x₁ ≠ 0)
    {Q R : (curve A).Point} (hQ : Represents X₂ Z₂ Q) (hR : Represents X₃ Z₃ R)
    (hdiff : xCoord (R - Q) = x₁) :
    Represents (4 * (X₂ * X₃ - Z₂ * Z₃) ^ 2) (x₁ * (4 * (X₂ * Z₃ - X₃ * Z₂) ^ 2)) (Q + R) := by
  have h4 : (4 : K) ≠ 0 := by
    rw [show (4 : K) = 2 * 2 by norm_num]
    exact mul_ne_zero h2 h2
  cases Q with
  | zero =>
      obtain ⟨hX₂, rfl⟩ := hQ
      have hR' : Affine.Point.zero + R = R := zero_add R
      have hsub : R - Affine.Point.zero = R := sub_zero R
      rw [hsub] at hdiff
      rw [hR']
      cases R with
      | zero => exact absurd hdiff.symm hx₁
      | some x y h =>
          obtain ⟨hZ₃, rfl⟩ := hR
          rw [xCoord_some] at hdiff
          subst hdiff
          refine (represents_some h).mpr ⟨?_, by ring⟩
          rw [mul_zero, sub_zero]
          exact mul_ne_zero hx₁ (mul_ne_zero h4 (pow_ne_zero 2 (mul_ne_zero hX₂ hZ₃)))
  | some x y h =>
      obtain ⟨hZ₂, rfl⟩ := hQ
      cases R with
      | zero =>
          obtain ⟨hX₃, rfl⟩ := hR
          have hsub : (Affine.Point.zero : (curve A).Point) - .some x y h = -.some x y h :=
            zero_sub _
          rw [hsub, xCoord_neg, xCoord_some] at hdiff
          subst hdiff
          have hsum : Affine.Point.some x y h + .zero = .some x y h := add_zero _
          rw [hsum]
          refine (represents_some h).mpr ⟨?_, by ring⟩
          rw [mul_zero, zero_sub, neg_sq]
          exact mul_ne_zero hx₁ (mul_ne_zero h4 (pow_ne_zero 2 (mul_ne_zero hX₃ hZ₂)))
      | some x' y' h' =>
          obtain ⟨hZ₃, rfl⟩ := hR
          by_cases hx : x = x'
          · -- the points are opposite: equal ones have difference 0
            rcases Affine.Point.X_eq_iff.mp hx with heq | hopp
            · rw [heq, sub_self, xCoord_zero] at hdiff
              exact absurd hdiff.symm hx₁
            · have hR' : Affine.Point.some x' y' h' = -.some x y h := by rw [hopp, neg_neg]
              have hdouble : xCoord (.some x y h + Affine.Point.some x y h) = x₁ := by
                rw [hR', ← neg_add', xCoord_neg] at hdiff
                exact hdiff
              have hsum : Affine.Point.some x y h + .some x' y' h' = 0 := by
                rw [hR', add_neg_cancel]
              have hx2 : x ^ 2 - 1 ≠ 0 := by
                intro hzero
                by_cases hy : y = 0
                · subst hy
                  rw [double_of_y_eq_zero h, xCoord_zero] at hdouble
                  exact hx₁ hdouble.symm
                · obtain ⟨x'', y'', h'', hsome, hmul⟩ := double_some h2 h hy
                  rw [hsome, xCoord_some] at hdouble
                  rw [hdouble, hzero, zero_pow two_ne_zero] at hmul
                  exact mul_ne_zero hx₁ (mul_ne_zero h4 (pow_ne_zero 2 hy)) hmul
              rw [hsum, represents_zero, ← hx]
              constructor
              · have hcross : x * Z₂ * (x * Z₃) - Z₂ * Z₃ = (x ^ 2 - 1) * (Z₂ * Z₃) := by ring
                rw [hcross]
                exact mul_ne_zero h4 (pow_ne_zero 2 (mul_ne_zero hx2 (mul_ne_zero hZ₂ hZ₃)))
              · ring
          · have hmul := add_some h h' hx
            rw [hdiff, Affine.Point.add_of_X_ne hx, xCoord_some] at hmul
            rw [Affine.Point.add_of_X_ne hx, represents_some]
            constructor
            · have hcross : x * Z₂ * Z₃ - x' * Z₃ * Z₂ = (x - x') * (Z₂ * Z₃) := by ring
              rw [hcross]
              exact mul_ne_zero hx₁ (mul_ne_zero h4 (pow_ne_zero 2
                (mul_ne_zero (sub_ne_zero.mpr hx) (mul_ne_zero hZ₂ hZ₃))))
            · linear_combination -4 * (Z₂ * Z₃) ^ 2 * hmul

/-! ## The multiples -/

/-- The two fractions are those of two points that are one step apart. -/
structure Holds {A : K} (P : (curve A).Point) (m : Nat) (s : Rungs K) : Prop where
  low : Represents s.x₂ s.z₂ (m • P)
  high : Represents s.x₃ s.z₃ ((m + 1) • P)

theorem Represents.advance {A a24 : K} (ha : 4 * a24 = A - 2) (h2 : (2 : K) ≠ 0)
    (hA : A ^ 2 ≠ 4) {x₁ : K} (hx₁ : x₁ ≠ 0) {Q R : (curve A).Point} {s : Rungs K}
    (hQ : Represents s.x₂ s.z₂ Q) (hR : Represents s.x₃ s.z₃ R) (hdiff : xCoord (R - Q) = x₁) :
    Represents (s.advance a24 x₁).x₂ (s.advance a24 x₁).z₂ (Q + Q) ∧
      Represents (s.advance a24 x₁).x₃ (s.advance a24 x₁).z₃ (Q + R) := by
  constructor
  · convert hQ.double h2 hA using 1
    · simp only [Rungs.advance]
      ring
    · simp only [Rungs.advance]
      linear_combination 4 * s.x₂ ^ 2 * s.z₂ ^ 2 * ha
  · convert hQ.add h2 hx₁ hR hdiff using 1
    · simp only [Rungs.advance]
      ring
    · simp only [Rungs.advance]
      ring

theorem Holds.step {A a24 : K} (ha : 4 * a24 = A - 2) (h2 : (2 : K) ≠ 0) (hA : A ^ 2 ≠ 4)
    {P : (curve A).Point} (hP : xCoord P ≠ 0) {m : Nat} {s : Rungs K} (h : Holds P m s)
    (bit : Bool) : Holds P (2 * m + bit.toNat) (s.step a24 (xCoord P) bit) := by
  obtain ⟨hlow, hhigh⟩ := h
  cases bit with
  | false =>
      have hdiff : xCoord ((m + 1) • P - m • P) = xCoord P := by
        rw [succ_nsmul, add_sub_cancel_left]
      obtain ⟨hdouble, hsum⟩ := Represents.advance ha h2 hA hP hlow hhigh hdiff
      constructor
      · rw [Bool.toNat_false, Nat.add_zero, two_mul, add_nsmul]
        exact hdouble
      · rw [Bool.toNat_false, Nat.add_zero, show 2 * m + 1 = m + (m + 1) by ring, add_nsmul]
        exact hsum
  | true =>
      have hdiff : xCoord (m • P - (m + 1) • P) = xCoord P := by
        rw [succ_nsmul, sub_add_cancel_left, xCoord_neg]
      obtain ⟨hdouble, hsum⟩ := Represents.advance (s := s.swap true) ha h2 hA hP hhigh hlow hdiff
      constructor
      · rw [Bool.toNat_true, show 2 * m + 1 = m + 1 + m by ring, add_nsmul]
        exact hsum
      · rw [Bool.toNat_true, show 2 * m + 1 + 1 = m + 1 + (m + 1) by ring, add_nsmul]
        exact hdouble

theorem Holds.foldl {A a24 : K} (ha : 4 * a24 = A - 2) (h2 : (2 : K) ≠ 0) (hA : A ^ 2 ≠ 4)
    {P : (curve A).Point} (hP : xCoord P ≠ 0) :
    ∀ (bits : List Bool) {m : Nat} {s : Rungs K}, Holds P m s →
      Holds P (bits.foldl (fun n bit => 2 * n + bit.toNat) m)
        (bits.foldl (Rungs.step a24 (xCoord P)) s)
  | [], _, _, h => h
  | bit :: bits, _, _, h => Holds.foldl ha h2 hA hP bits (h.step ha h2 hA hP bit)

theorem Holds.start {A : K} {P : (curve A).Point} (hP : xCoord P ≠ 0) :
    Holds P 0 ⟨1, 0, xCoord P, 1⟩ := by
  constructor
  · rw [zero_nsmul]
    exact ⟨one_ne_zero, rfl⟩
  · rw [Nat.zero_add, one_nsmul]
    cases P with
    | zero => exact absurd rfl hP
    | some x y h => exact ⟨one_ne_zero, (mul_one x).symm⟩

/-- A point over `x = 0` is at infinity or of order two. -/
theorem two_nsmul_of_zero {A : K} {P : (curve A).Point} (hP : xCoord P = 0) : 2 • P = 0 := by
  rw [two_nsmul]
  cases P with
  | zero => exact zero_add 0
  | some x y h =>
      rw [xCoord_some] at hP
      subst hP
      have hcurve := equation_iff.mp h.1
      obtain rfl : y = 0 := by simpa using hcurve
      exact double_of_y_eq_zero h

theorem xCoord_nsmul_of_zero {A : K} {P : (curve A).Point} (hP : xCoord P = 0) (n : Nat) :
    xCoord (n • P) = 0 := by
  obtain ⟨k, rfl | rfl⟩ : ∃ k, n = 2 * k ∨ n = 2 * k + 1 := ⟨n / 2, by omega⟩
  · rw [mul_nsmul, two_nsmul_of_zero hP, nsmul_zero, xCoord_zero]
  · rw [succ_nsmul, mul_nsmul, two_nsmul_of_zero hP, nsmul_zero, zero_add, hP]

/-- The ladder gives the x-coordinate of the multiple, for every point and
every scalar. -/
theorem ladder_eq {A a24 : K} (ha : 4 * a24 = A - 2) (h2 : (2 : K) ≠ 0) (hA : A ^ 2 ≠ 4)
    (P : (curve A).Point) (bits : List Bool) :
    (ladder a24 (xCoord P) bits).x₂ / (ladder a24 (xCoord P) bits).z₂ =
      xCoord (ofBits bits • P) := by
  by_cases hP : xCoord P = 0
  · have hzero := foldl_step_zero a24 bits ⟨1, 0, 0, 1⟩ (mul_zero 1) (zero_mul 1)
    rw [xCoord_nsmul_of_zero hP, hP, ladder, div_eq_zero_iff]
    exact mul_eq_zero.mp hzero
  · exact (Holds.foldl ha h2 hA hP bits (Holds.start hP)).low.div_eq

/-- A fraction over 0 is infinity. -/
theorem nsmul_eq_zero_of_ladder {A a24 : K} (ha : 4 * a24 = A - 2) (h2 : (2 : K) ≠ 0)
    (hA : A ^ 2 ≠ 4) {P : (curve A).Point} (hP : xCoord P ≠ 0) {bits : List Bool}
    (h : (ladder a24 (xCoord P) bits).z₂ = 0) : ofBits bits • P = 0 := by
  have hlow : Represents (ladder a24 (xCoord P) bits).x₂ (ladder a24 (xCoord P) bits).z₂
      (ofBits bits • P) := (Holds.foldl ha h2 hA hP bits (Holds.start hP)).low
  cases hQ : ofBits bits • P with
  | zero => rfl
  | some x y hxy =>
      rw [hQ, represents_some] at hlow
      exact absurd h hlow.1

omit [DecidableEq K] in
theorem nonsingular {A x y : K} (h2 : (2 : K) ≠ 0) (hA : A ^ 2 ≠ 4)
    (h : y ^ 2 = x ^ 3 + A * x ^ 2 + x) : (curve A).Nonsingular x y := by
  have hdisc : (curve A).Δ = 2 ^ 4 * (A ^ 2 - 4) := by
    simp only [curve, WeierstrassCurve.Δ, WeierstrassCurve.b₂, WeierstrassCurve.b₄,
      WeierstrassCurve.b₆, WeierstrassCurve.b₈]
    ring
  have hΔ : (curve A).Δ ≠ 0 := by
    rw [hdisc]
    exact mul_ne_zero (pow_ne_zero 4 h2) (sub_ne_zero.mpr hA)
  exact ((curve A).equation_iff_nonsingular_of_Δ_ne_zero hΔ).mp (equation_iff.mpr h)

omit [DecidableEq K] in
/-- Over an algebraically closed field there is a point over every `x`. -/
theorem exists_xCoord_eq [IsAlgClosed K] {A : K} (h2 : (2 : K) ≠ 0) (hA : A ^ 2 ≠ 4) (x : K) :
    ∃ P : (curve A).Point, xCoord P = x := by
  obtain ⟨y, hy⟩ := IsAlgClosed.exists_pow_nat_eq (x ^ 3 + A * x ^ 2 + x) two_pos
  exact ⟨.some x y (nonsingular h2 hA hy), rfl⟩

end EsphomeApi.Library.MontgomeryLadder
