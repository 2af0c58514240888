/-
EsphomeApi.Crypto.Curve25519 — the numbers behind Curve25519: the prime of its
field, the prime order of its base point.

Both primes have a certificate. That `order25519` is the order of the base point
is seen by a run of the ladder, so it holds for every point over the coordinate
9, in every field above. What the clamped scalars need of it is
`xCoord_nsmul_ne_zero`: a multiple by a number that the order does not divide
never has the coordinate 0.
-/
import EsphomeApi.Library.MontgomeryLadder
import EsphomeApi.Library.PrimeCertificate
import Mathlib.Algebra.CharP.Algebra
import Mathlib.GroupTheory.OrderOfElement

namespace EsphomeApi.Noise

open Library Library.MontgomeryLadder

/-- The prime of the field. -/
def prime25519 : Nat := 2 ^ 255 - 19

/-- The order of the base point. -/
def order25519 : Nat := 2 ^ 252 + 27742317777372353535851937790883648493

/-- `prime25519`, `order25519` and the primes that their certificates need. -/
def certificate25519 : List PrimeCertificate.Entry :=
  [⟨57896044618658097711785492504343953926634992332820282019728792003956564819949, 2,
    [(2, 2), (3, 1), (65147, 1),
     (74058212732561358302231226437062788676166966415465897661863160754340907, 1)]⟩,
   ⟨7237005577332262213973186563042994240857116359379907606001950938285454250989, 2,
    [(2, 2), (3, 1), (11, 1), (198211423230930754013084525763697, 1),
     (276602624281642239937218680557139826668747, 1)]⟩,
   ⟨74058212732561358302231226437062788676166966415465897661863160754340907, 2,
    [(2, 1), (3, 1), (353, 1), (57467, 1), (132049, 1), (1923133, 1), (31757755568855353, 1),
     (75445702479781427272750846543864801, 1)]⟩,
   ⟨276602624281642239937218680557139826668747, 2,
    [(2, 1), (7, 1), (19757330305831588566944191468367130476339, 1)]⟩,
   ⟨19757330305831588566944191468367130476339, 2,
    [(2, 1), (269, 1), (213441916511, 1), (172054593956031949258510691, 1)]⟩,
   ⟨75445702479781427272750846543864801, 7,
    [(2, 5), (3, 2), (5, 2), (75707, 1), (72106336199, 1), (1919519569386763, 1)]⟩,
   ⟨198211423230930754013084525763697, 5,
    [(2, 4), (3, 1), (23, 1), (58964693, 1), (3044861653679985063343, 1)]⟩,
   ⟨172054593956031949258510691, 2,
    [(2, 1), (5, 1), (1361, 1), (2851, 1), (4434155615661930479, 1)]⟩,
   ⟨3044861653679985063343, 5,
    [(2, 1), (3, 1), (11, 1), (30703, 1), (82163, 1), (132667, 1), (137849, 1)]⟩,
   ⟨4434155615661930479, 17, [(2, 1), (41, 1), (43, 1), (1257559732178653, 1)]⟩,
   ⟨31757755568855353, 10, [(2, 3), (3, 1), (31, 1), (107, 1), (223, 1), (4153, 1), (430751, 1)]⟩,
   ⟨1919519569386763, 2, [(2, 1), (3, 1), (7, 1), (19, 1), (47, 2), (127, 1), (8574133, 1)]⟩,
   ⟨1257559732178653, 2, [(2, 2), (3, 1), (7, 1), (23, 1), (531581, 1), (1224481, 1)]⟩,
   ⟨213441916511, 13, [(2, 1), (5, 1), (73, 1), (292386187, 1)]⟩,
   ⟨72106336199, 7, [(2, 1), (13, 1), (2773320623, 1)]⟩,
   ⟨2773320623, 5, [(2, 1), (2437, 1), (569003, 1)]⟩,
   ⟨292386187, 2, [(2, 1), (3, 4), (307, 1), (5879, 1)]⟩,
   ⟨58964693, 2, [(2, 2), (14741173, 1)]⟩,
   ⟨14741173, 2, [(2, 2), (3, 2), (409477, 1)]⟩,
   ⟨8574133, 2, [(2, 2), (3, 1), (7, 1), (103, 1), (991, 1)]⟩,
   ⟨1923133, 2, [(2, 2), (3, 1), (43, 1), (3727, 1)]⟩,
   ⟨1224481, 13, [(2, 5), (3, 1), (5, 1), (2551, 1)]⟩,
   ⟨569003, 2, [(2, 1), (7, 1), (97, 1), (419, 1)]⟩,
   ⟨531581, 2, [(2, 2), (5, 1), (7, 1), (3797, 1)]⟩,
   ⟨430751, 17, [(2, 1), (5, 3), (1723, 1)]⟩,
   ⟨409477, 2, [(2, 2), (3, 1), (34123, 1)]⟩,
   ⟨137849, 3, [(2, 3), (17231, 1)]⟩,
   ⟨132667, 5, [(2, 1), (3, 1), (22111, 1)]⟩,
   ⟨132049, 26, [(2, 4), (3, 2), (7, 1), (131, 1)]⟩,
   ⟨82163, 2, [(2, 1), (41081, 1)]⟩,
   ⟨75707, 2, [(2, 1), (37853, 1)]⟩,
   ⟨65147, 2, [(2, 1), (32573, 1)]⟩,
   ⟨57467, 2, [(2, 1), (59, 1), (487, 1)]⟩,
   ⟨41081, 3, [(2, 3), (5, 1), (13, 1), (79, 1)]⟩,
   ⟨37853, 2, [(2, 2), (9463, 1)]⟩,
   ⟨34123, 2, [(2, 1), (3, 1), (11, 2), (47, 1)]⟩,
   ⟨32573, 2, [(2, 2), (17, 1), (479, 1)]⟩,
   ⟨30703, 3, [(2, 1), (3, 1), (7, 1), (17, 1), (43, 1)]⟩,
   ⟨22111, 6, [(2, 1), (3, 1), (5, 1), (11, 1), (67, 1)]⟩,
   ⟨17231, 13, [(2, 1), (5, 1), (1723, 1)]⟩,
   ⟨9463, 3, [(2, 1), (3, 1), (19, 1), (83, 1)]⟩,
   ⟨5879, 11, [(2, 1), (2939, 1)]⟩,
   ⟨4153, 5, [(2, 3), (3, 1), (173, 1)]⟩,
   ⟨3797, 2, [(2, 2), (13, 1), (73, 1)]⟩,
   ⟨3727, 3, [(2, 1), (3, 4), (23, 1)]⟩,
   ⟨2939, 2, [(2, 1), (13, 1), (113, 1)]⟩,
   ⟨2851, 2, [(2, 1), (3, 1), (5, 2), (19, 1)]⟩,
   ⟨2551, 6, [(2, 1), (3, 1), (5, 2), (17, 1)]⟩,
   ⟨2437, 2, [(2, 2), (3, 1), (7, 1), (29, 1)]⟩,
   ⟨1723, 3, [(2, 1), (3, 1), (7, 1), (41, 1)]⟩,
   ⟨1361, 3, [(2, 4), (5, 1), (17, 1)]⟩,
   ⟨991, 6, [(2, 1), (3, 2), (5, 1), (11, 1)]⟩,
   ⟨487, 3, [(2, 1), (3, 5)]⟩,
   ⟨479, 13, [(2, 1), (239, 1)]⟩,
   ⟨419, 2, [(2, 1), (11, 1), (19, 1)]⟩,
   ⟨353, 3, [(2, 5), (11, 1)]⟩,
   ⟨307, 5, [(2, 1), (3, 2), (17, 1)]⟩,
   ⟨269, 2, [(2, 2), (67, 1)]⟩,
   ⟨239, 7, [(2, 1), (7, 1), (17, 1)]⟩,
   ⟨223, 3, [(2, 1), (3, 1), (37, 1)]⟩,
   ⟨173, 2, [(2, 2), (43, 1)]⟩,
   ⟨131, 2, [(2, 1), (5, 1), (13, 1)]⟩,
   ⟨127, 3, [(2, 1), (3, 2), (7, 1)]⟩,
   ⟨113, 3, [(2, 4), (7, 1)]⟩,
   ⟨107, 2, [(2, 1), (53, 1)]⟩,
   ⟨103, 5, [(2, 1), (3, 1), (17, 1)]⟩,
   ⟨97, 5, [(2, 5), (3, 1)]⟩,
   ⟨83, 2, [(2, 1), (41, 1)]⟩,
   ⟨79, 3, [(2, 1), (3, 1), (13, 1)]⟩,
   ⟨73, 5, [(2, 3), (3, 2)]⟩,
   ⟨67, 2, [(2, 1), (3, 1), (11, 1)]⟩,
   ⟨59, 2, [(2, 1), (29, 1)]⟩,
   ⟨53, 2, [(2, 2), (13, 1)]⟩,
   ⟨47, 5, [(2, 1), (23, 1)]⟩,
   ⟨43, 3, [(2, 1), (3, 1), (7, 1)]⟩,
   ⟨41, 6, [(2, 3), (5, 1)]⟩,
   ⟨37, 2, [(2, 2), (3, 2)]⟩,
   ⟨31, 3, [(2, 1), (3, 1), (5, 1)]⟩,
   ⟨29, 2, [(2, 2), (7, 1)]⟩,
   ⟨23, 5, [(2, 1), (11, 1)]⟩,
   ⟨19, 2, [(2, 1), (3, 2)]⟩,
   ⟨17, 3, [(2, 4)]⟩,
   ⟨13, 2, [(2, 2), (3, 1)]⟩,
   ⟨11, 2, [(2, 1), (5, 1)]⟩,
   ⟨7, 3, [(2, 1), (3, 1)]⟩,
   ⟨5, 2, [(2, 2)]⟩,
   ⟨3, 2, [(2, 1)]⟩,
   ⟨2, 1, []⟩]

theorem check_certificate25519 : PrimeCertificate.check 256 certificate25519 = true := by
  decide +kernel

theorem prime_prime25519 : prime25519.Prime :=
  PrimeCertificate.prime_of_check check_certificate25519 _ (by decide)

theorem prime_order25519 : order25519.Prime :=
  PrimeCertificate.prime_of_check check_certificate25519 _ (by decide)

instance fact_prime25519 : Fact prime25519.Prime := ⟨prime_prime25519⟩

/-! ## The curve over any field above -/

section

variable {K : Type*} [Field K]

theorem a24_eq : 4 * (121665 : K) = 486662 - 2 := by norm_num

variable [CharP K prime25519]

theorem natCast_ne_zero {n : Nat} (h : ¬prime25519 ∣ n) : (n : K) ≠ 0 :=
  fun hzero => h ((CharP.cast_eq_zero_iff K prime25519 n).mp hzero)

theorem two_ne_zero25519 : (2 : K) ≠ 0 := by
  have h := natCast_ne_zero (K := K) (n := 2) (by decide)
  exact_mod_cast h

theorem sq_ne_four : (486662 : K) ^ 2 ≠ 4 := by
  have h := natCast_ne_zero (K := K) (n := 486662 ^ 2 - 4) (by decide)
  intro heq
  rw [Nat.cast_sub (by decide), Nat.cast_pow] at h
  exact h (sub_eq_zero.mpr heq)

/-- The ladder over the bits of the order ends at infinity. -/
theorem ladder_order25519 :
    (ladder (121665 : ZMod prime25519) 9 ((List.range 253).reverse.map order25519.testBit)).z₂ =
      0 := by
  decide +kernel

variable [DecidableEq K]

theorem order25519_nsmul {P : (curve (486662 : K)).Point} (hP : xCoord P = 9) :
    order25519 • P = 0 := by
  have hnine : (9 : K) ≠ 0 := by
    have h := natCast_ne_zero (K := K) (n := 9) (by decide)
    exact_mod_cast h
  have hbits : ofBits ((List.range 253).reverse.map order25519.testBit) = order25519 := by
    rw [ofBits_testBit]
    exact Nat.mod_eq_of_lt (by decide)
  have hmap := map_ladder (ZMod.castHom dvd_rfl K) 121665 9
    ((List.range 253).reverse.map order25519.testBit)
  rw [map_ofNat, map_ofNat] at hmap
  rw [← hbits]
  refine nsmul_eq_zero_of_ladder a24_eq two_ne_zero25519 sq_ne_four (by rwa [hP]) ?_
  rw [hP, ← hmap, Rungs.map, ladder_order25519, map_zero]

/-- A multiple of the base point has the coordinate 0 only where the order
divides the scalar. -/
theorem xCoord_nsmul_ne_zero {P : (curve (486662 : K)).Point} (hP : xCoord P = 9) {n : Nat}
    (hn : ¬order25519 ∣ n) : xCoord (n • P) ≠ 0 := by
  have hne : P ≠ 0 := by
    intro h
    have hnine := natCast_ne_zero (K := K) (n := 9) (by decide)
    rw [h, xCoord_zero] at hP
    exact hnine (by exact_mod_cast hP.symm)
  have hfact : Fact order25519.Prime := ⟨prime_order25519⟩
  have horder : addOrderOf P = order25519 := addOrderOf_eq_prime (order25519_nsmul hP) hne
  intro hzero
  have hdvd : order25519 ∣ 2 * n := by
    rw [← horder, addOrderOf_dvd_iff_nsmul_eq_zero, mul_comm, mul_nsmul]
    exact two_nsmul_of_zero hzero
  rcases prime_order25519.dvd_mul.mp hdvd with h | h
  · exact absurd h (by decide)
  · exact hn h

end

end EsphomeApi.Noise
