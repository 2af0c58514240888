/-
EsphomeApi.Crypto.X25519Theorems — the scalar multiplication is that of
Curve25519.

A turn of the loop is a step of the Montgomery ladder over the field
(`LadderState.turn_spec`), and the loop reads the clamped scalar bit by bit, so
the function always has a result and it is the canonical encoding of the ladder's
fraction (`x25519ScalarmultLimbs_spec`). By `MontgomeryLadder.ladder_eq` that is the
x-coordinate of a multiple, for every point over the peer's coordinate.
-/
import EsphomeApi.Crypto.X25519Packing
import EsphomeApi.Library.MontgomeryLadder
import Mathlib.FieldTheory.Finite.Basic
import Mathlib.FieldTheory.IsAlgClosed.AlgebraicClosure

namespace EsphomeApi.Noise

open Library Library.MontgomeryLadder Gf

/-! ## A turn -/

/-- All four arrays are carried. -/
structure LadderState.Carried (s : LadderState) : Prop where
  a : s.a.Carried
  b : s.b.Carried
  c : s.c.Carried
  d : s.d.Carried

/-- The two fractions in the four arrays. -/
def LadderState.rungs (s : LadderState) : Rungs (ZMod prime25519) :=
  ⟨fe s.a, fe s.c, fe s.b, fe s.d⟩

def LadderState.swap (bit : Bool) (s : LadderState) : LadderState :=
  if bit then ⟨s.b, s.a, s.d, s.c⟩ else s

theorem LadderState.Carried.swap {s : LadderState} (h : s.Carried) (bit : Bool) :
    (s.swap bit).Carried := by
  cases bit with
  | false => exact h
  | true => exact ⟨h.b, h.a, h.d, h.c⟩

theorem LadderState.rungs_swap (bit : Bool) (s : LadderState) :
    (s.swap bit).rungs = s.rungs.swap bit := by
  cases bit <;> rfl

/-- The word that a bit becomes. -/
def bitWord (bit : Bool) : Int32 := if bit then 1 else 0

theorem sel25519_ab (bit : Bool) (s : LadderState) :
    sel25519 s.a s.b (bitWord bit) = ((s.swap bit).a, (s.swap bit).b) := by
  cases bit with
  | false => exact sel25519_zero s.a s.b
  | true => exact sel25519_one s.a s.b

theorem sel25519_cd (bit : Bool) (s : LadderState) :
    sel25519 s.c s.d (bitWord bit) = ((s.swap bit).c, (s.swap bit).d) := by
  cases bit with
  | false => exact sel25519_zero s.c s.d
  | true => exact sel25519_one s.c s.d

theorem carried_zero : zero.Carried :=
  ⟨by decide, by decide⟩

theorem carried_one : one.Carried :=
  ⟨by decide, by decide⟩

theorem fe_zero : fe zero = 0 := by
  have hvalue : value zero = 0 := by decide
  rw [fe, hvalue, Int.cast_zero]

theorem fe_one : fe one = 1 := by
  have hvalue : value one = 1 := by decide
  rw [fe, hvalue, Int.cast_one]

theorem carried_c121665 : c121665.Carried :=
  ⟨by decide, by decide⟩

theorem fe_c121665 : fe c121665 = 121665 := by
  have hvalue : value c121665 = 121665 := by decide
  rw [fe, hvalue]
  rfl

/-- A turn is a step of the ladder. -/
theorem LadderState.turn_spec {x : Gf} (hx : x.Carried) {s : LadderState} (hs : s.Carried)
    (bit : Bool) :
    ∃ s', s.turn x (bitWord bit) = some s' ∧ s'.Carried ∧
      s'.rungs = s.rungs.step 121665 (fe x) bit := by
  have hw := hs.swap bit
  obtain ⟨e, he, we, fe_e⟩ := add_spec hw.a hw.c
  obtain ⟨a, ha, wa, fe_a⟩ := sub_spec hw.a hw.c
  obtain ⟨c, hc, wc, fe_c⟩ := add_spec hw.b hw.d
  obtain ⟨b, hb, wb, fe_b⟩ := sub_spec hw.b hw.d
  obtain ⟨aa, haa, caa, fe_aa⟩ := sqr_spec we
  obtain ⟨bb, hbb, cbb, fe_bb⟩ := sqr_spec wa
  obtain ⟨cb, hcb, ccb, fe_cb⟩ := mul_spec wc wa
  obtain ⟨da, hda, cda, fe_da⟩ := mul_spec wb we
  obtain ⟨sum, hsum, wsum, fe_sum⟩ := add_spec ccb cda
  obtain ⟨diff, hdiff, wdiff, fe_diff⟩ := sub_spec ccb cda
  obtain ⟨square, hsquare, csquare, fe_square⟩ := sqr_spec wdiff
  obtain ⟨e', he', we', fe_e'⟩ := sub_spec caa cbb
  obtain ⟨m, hm, cm, fe_m⟩ := mul_spec we'
    (carried_c121665.within.mono (by decide) (by decide))
  obtain ⟨n, hn, wn, fe_n⟩ := add_spec cm caa
  obtain ⟨z₂, hz₂, cz₂, fe_z₂⟩ := mul_spec we' wn
  obtain ⟨x₂, hx₂, cx₂, fe_x₂⟩ := mul_spec (caa.within.mono (by decide) (by decide))
    (cbb.within.mono (by decide) (by decide))
  obtain ⟨z₃, hz₃, cz₃, fe_z₃⟩ := mul_spec (csquare.within.mono (by decide) (by decide))
    (hx.within.mono (by decide) (by decide))
  obtain ⟨x₃, hx₃, cx₃, fe_x₃⟩ := sqr_spec wsum
  refine ⟨LadderState.swap bit ⟨x₂, x₃, z₂, z₃⟩, ?_, ?_, ?_⟩
  · have hab := sel25519_ab bit ⟨x₂, x₃, z₂, z₃⟩
    have hcd := sel25519_cd bit ⟨x₂, x₃, z₂, z₃⟩
    unfold turn
    rw [sel25519_ab, sel25519_cd]
    refine Option.bind_eq_some_iff.mpr ⟨e, he, ?_⟩
    refine Option.bind_eq_some_iff.mpr ⟨a, ha, ?_⟩
    refine Option.bind_eq_some_iff.mpr ⟨c, hc, ?_⟩
    refine Option.bind_eq_some_iff.mpr ⟨b, hb, ?_⟩
    refine Option.bind_eq_some_iff.mpr ⟨aa, haa, ?_⟩
    refine Option.bind_eq_some_iff.mpr ⟨bb, hbb, ?_⟩
    refine Option.bind_eq_some_iff.mpr ⟨cb, hcb, ?_⟩
    refine Option.bind_eq_some_iff.mpr ⟨da, hda, ?_⟩
    refine Option.bind_eq_some_iff.mpr ⟨sum, hsum, ?_⟩
    refine Option.bind_eq_some_iff.mpr ⟨diff, hdiff, ?_⟩
    refine Option.bind_eq_some_iff.mpr ⟨square, hsquare, ?_⟩
    refine Option.bind_eq_some_iff.mpr ⟨e', he', ?_⟩
    refine Option.bind_eq_some_iff.mpr ⟨m, hm, ?_⟩
    refine Option.bind_eq_some_iff.mpr ⟨n, hn, ?_⟩
    refine Option.bind_eq_some_iff.mpr ⟨z₂, hz₂, ?_⟩
    refine Option.bind_eq_some_iff.mpr ⟨x₂, hx₂, ?_⟩
    refine Option.bind_eq_some_iff.mpr ⟨z₃, hz₃, ?_⟩
    refine Option.bind_eq_some_iff.mpr ⟨x₃, hx₃, ?_⟩
    rw [hab, hcd]
    rfl
  · exact LadderState.Carried.swap ⟨cx₂, cx₃, cz₂, cz₃⟩ bit
  · have hadvance : LadderState.rungs ⟨x₂, x₃, z₂, z₃⟩ =
        (s.swap bit).rungs.advance 121665 (fe x) := by
      refine Rungs.ext ?_ ?_ ?_ ?_
      · simp only [rungs, Rungs.advance, fe_x₂, fe_aa, fe_bb, fe_e, fe_a]
      · simp only [rungs, Rungs.advance, fe_z₂, fe_e', fe_n, fe_m, fe_aa, fe_bb, fe_e, fe_a,
          fe_c121665]
        ring
      · simp only [rungs, Rungs.advance, fe_x₃, fe_sum, fe_cb, fe_da, fe_e, fe_a, fe_c, fe_b]
        ring
      · simp only [rungs, Rungs.advance, fe_z₃, fe_square, fe_diff, fe_cb, fe_da, fe_e, fe_a, fe_c,
          fe_b]
        ring
    rw [rungs_swap, hadvance, rungs_swap, Rungs.step]

/-! ## The scalar -/

/-- The scalar that a private key is read as. -/
def scalar (n : PrivateKey) : Nat := LittleEndian.value (clampScalar n)

theorem scalarBit_eq (z : Bytes) (i : Nat) :
    (scalarBit z i).toUInt32.toInt32 = bitWord ((LittleEndian.value z).testBit i) := by
  have hindex : i >>> 3 = i / 8 := Nat.shiftRight_eq_div_pow i 3
  have hshift : i &&& 7 = i % 8 := Nat.and_two_pow_sub_one_eq_mod i 3
  have hbit : scalarBit z i = if (LittleEndian.value z).testBit i then 1 else 0 := by
    rw [scalarBit, hindex, hshift, LittleEndian.testBit_value]
    generalize z.getD (i / 8) 0 = b
    have hr : i % 8 < 8 := Nat.mod_lt i (by decide)
    have hword : (if b.toNat.testBit (i % 8) then 1 else 0 : UInt8).toNat =
        (b.toNat.testBit (i % 8)).toNat := by
      cases b.toNat.testBit (i % 8) <;> rfl
    have hmod : (UInt8.ofNat (i % 8)).toNat % 8 = i % 8 := by
      rw [UInt8.toNat_ofNat']
      omega
    rw [← UInt8.toNat_inj, hword, Nat.toNat_testBit, UInt8.toNat_and, UInt8.toNat_shiftRight, hmod,
      Nat.shiftRight_eq_div_pow]
    exact Nat.and_one_is_mod _
  rw [hbit]
  cases (LittleEndian.value z).testBit i <;> rfl

theorem toNat_and_248 (b : UInt8) : (b &&& 248).toNat = 8 * (b.toNat / 8) := by
  have hbyte : ∀ x < 256, x &&& 248 = 8 * (x / 8) := by decide +kernel
  rw [UInt8.toNat_and]
  exact hbyte b.toNat b.toNat_lt

theorem toNat_topByte (b : UInt8) :
    64 ≤ ((b &&& 127) ||| 64).toNat ∧ ((b &&& 127) ||| 64).toNat < 128 := by
  have hbyte : ∀ x < 256, 64 ≤ (x &&& 127) ||| 64 ∧ (x &&& 127) ||| 64 < 128 := by decide +kernel
  rw [UInt8.toNat_or, UInt8.toNat_and]
  exact hbyte b.toNat b.toNat_lt

/-- A scalar is a multiple of 8 of exactly 255 bits. -/
theorem scalar_eq (n : PrivateKey) : ∃ k, scalar n = 8 * k ∧ 2 ^ 251 ≤ k ∧ k < 2 ^ 252 := by
  obtain ⟨bytes, hlen⟩ := n
  cases bytes with
  | nil => exact absurd hlen (by decide)
  | cons b rest =>
      have hclamp : clampScalar ⟨b :: rest, hlen⟩ =
          (b &&& 248) :: (rest.take 30 ++ [((b :: rest).getD 31 0 &&& 127) ||| 64]) := rfl
      have htop := toNat_topByte ((b :: rest).getD 31 0)
      have hlow := LittleEndian.value_lt (rest.take 30)
      have hthirty : (rest.take 30).length = 30 := by
        rw [List.length_cons] at hlen
        rw [List.length_take]
        omega
      rw [hthirty] at hlow
      rw [scalar, hclamp, LittleEndian.value_cons, LittleEndian.value_append, hthirty,
        LittleEndian.value_cons, LittleEndian.value_nil, toNat_and_248]
      have hb := b.toNat_lt
      generalize (((b :: rest).getD 31 0 &&& 127) ||| 64).toNat = top at htop
      generalize LittleEndian.value (rest.take 30) = low at hlow
      exact ⟨b.toNat / 8 + 32 * (low + 256 ^ 30 * top), by omega, by omega, by omega⟩

/-! ## The loop -/

/-- The bits of a scalar, the highest first. -/
def scalarBits (n : PrivateKey) : List Bool := (List.range 255).reverse.map (scalar n).testBit

theorem ofBits_scalarBits (n : PrivateKey) : ofBits (scalarBits n) = scalar n := by
  obtain ⟨k, hk, -, hlt⟩ := scalar_eq n
  rw [scalarBits, ofBits_testBit]
  exact Nat.mod_eq_of_lt (by omega)

theorem turns_spec {x : Gf} (hx : x.Carried) (z : Bytes) : ∀ (l : List Nat) {s : LadderState},
    s.Carried →
      ∃ s', l.foldlM (fun s i => LadderState.turn x (scalarBit z i).toUInt32.toInt32 s) s =
          some s' ∧ s'.Carried ∧
        s'.rungs = (l.map (LittleEndian.value z).testBit).foldl (Rungs.step 121665 (fe x)) s.rungs
  | [], s, hs => ⟨s, rfl, hs, rfl⟩
  | i :: l, s, hs => by
      obtain ⟨t, ht, hct, hrt⟩ := LadderState.turn_spec hx hs ((LittleEndian.value z).testBit i)
      obtain ⟨s', hs', hcs, hrs⟩ := turns_spec hx z l hct
      refine ⟨s', ?_, hcs, ?_⟩
      · rw [List.foldlM_cons, scalarBit_eq, ht]
        exact hs'
      · rw [hrs, hrt, List.map_cons, List.foldl_cons]

/-- The number that a public key is read as. -/
def coordinate (p : PublicKey) : Nat := LittleEndian.value p.val % 2 ^ 255

theorem coordinate_of_lt {p : PublicKey} (h : LittleEndian.value p.val < prime25519) :
    coordinate p = LittleEndian.value p.val :=
  Nat.mod_eq_of_lt (h.trans (by decide))

/-- The ladder of a private key over a public one. -/
def keyLadder (n : PrivateKey) (p : PublicKey) : Rungs (ZMod prime25519) :=
  ladder 121665 (coordinate p) (scalarBits n)

theorem x25519ScalarmultLimbs_spec (n : PrivateKey) (p : PublicKey) :
    ∃ o, x25519ScalarmultLimbs n p = some o ∧
      LittleEndian.value o.val =
        ((keyLadder n p).x₂ * (keyLadder n p).z₂ ^ (prime25519 - 2)).val := by
  obtain ⟨x, hx, hcx, hfx⟩ := unpack25519_spec p
  have hstart : LadderState.Carried ⟨one, x, zero, one⟩ :=
    ⟨carried_one, hcx, carried_zero, carried_one⟩
  obtain ⟨s, hs, hcs, hrungs⟩ :=
    turns_spec hcx (clampScalar n) (List.range 255).reverse hstart
  obtain ⟨inverse, hinverse, hci, hfi⟩ := inv25519_spec hcs.c
  obtain ⟨out, hout, hco, hfo⟩ := mul_spec (hcs.a.within.mono (by decide) (by decide))
    (hci.within.mono (by decide) (by decide))
  obtain ⟨o, ho, hvalue⟩ := pack25519_spec hco
  have hfirst : LadderState.rungs ⟨one, x, zero, one⟩ =
      ⟨1, 0, (coordinate p : ZMod prime25519), 1⟩ :=
    Rungs.ext fe_one fe_zero hfx fe_one
  have hladder : s.rungs = keyLadder n p := by
    rw [hrungs, hfirst, hfx]
    rfl
  refine ⟨o, ?_, ?_⟩
  · unfold x25519ScalarmultLimbs
    refine Option.bind_eq_some_iff.mpr ⟨x, hx, ?_⟩
    refine Option.bind_eq_some_iff.mpr ⟨s, hs, ?_⟩
    refine Option.bind_eq_some_iff.mpr ⟨inverse, hinverse, ?_⟩
    exact Option.bind_eq_some_iff.mpr ⟨out, hout, ho⟩
  · rw [hvalue, hfo, hfi, ← hladder]
    rfl

/-! ## Points -/

/-- Raising to the power `p - 2` inverts, and keeps 0. -/
theorem pow_prime_sub_two (z : ZMod prime25519) : z ^ (prime25519 - 2) = z⁻¹ := by
  by_cases hz : z = 0
  · rw [hz, inv_zero]
    exact zero_pow (by decide)
  · refine eq_inv_of_mul_eq_one_left ?_
    rw [← pow_succ, show prime25519 - 2 + 1 = prime25519 - 1 by decide]
    exact ZMod.pow_card_sub_one_eq_one hz

/-- The scalar multiplication never overflows, and for every point over the
public key, in any field above, its result is the canonical form of the
x-coordinate of the multiple. -/
theorem x25519ScalarmultLimbs_point {K : Type*} [Field K] [CharP K prime25519] [DecidableEq K]
    (n : PrivateKey) (p : PublicKey) {P : (curve (486662 : K)).Point}
    (hP : xCoord P = coordinate p) :
    ∃ o, x25519ScalarmultLimbs n p = some o ∧ LittleEndian.value o.val < prime25519 ∧
      (LittleEndian.value o.val : K) = xCoord (scalar n • P) := by
  obtain ⟨o, ho, hvalue⟩ := x25519ScalarmultLimbs_spec n p
  have hmap := map_ladder (ZMod.castHom dvd_rfl K) 121665 (coordinate p) (scalarBits n)
  rw [map_ofNat, map_natCast, ← hP] at hmap
  refine ⟨o, ho, hvalue ▸ ZMod.val_lt _, ?_⟩
  have hcast : (LittleEndian.value o.val : K) =
      ZMod.castHom dvd_rfl K ((keyLadder n p).x₂ / (keyLadder n p).z₂) := by
    rw [div_eq_mul_inv, ← pow_prime_sub_two, ← ZMod.natCast_zmod_val
      ((keyLadder n p).x₂ * (keyLadder n p).z₂ ^ (prime25519 - 2)), ← hvalue, map_natCast]
  rw [hcast, map_div₀, ← ofBits_scalarBits n,
    ← ladder_eq a24_eq two_ne_zero25519 sq_ne_four P (scalarBits n), ← hmap]
  rfl

open Classical in
/-- Every public key has points over it on the curve over the algebraic
closure, and the result is the x-coordinate of the multiple of each. -/
theorem x25519_scalarmult_correct (n : PrivateKey) (p : PublicKey) :
    ∃ o, x25519ScalarmultLimbs n p = some o ∧ LittleEndian.value o.val < prime25519 ∧
      (∃ P : (curve (486662 : AlgebraicClosure (ZMod prime25519))).Point,
        xCoord P = coordinate p) ∧
      ∀ P : (curve (486662 : AlgebraicClosure (ZMod prime25519))).Point,
        xCoord P = coordinate p →
        (LittleEndian.value o.val : AlgebraicClosure (ZMod prime25519)) =
          xCoord (scalar n • P) := by
  obtain ⟨P, hP⟩ := exists_xCoord_eq (K := AlgebraicClosure (ZMod prime25519))
    two_ne_zero25519 sq_ne_four (coordinate p)
  obtain ⟨o, ho, hlt, -⟩ := x25519ScalarmultLimbs_point n p hP
  refine ⟨o, ho, hlt, ⟨P, hP⟩, fun Q hQ => ?_⟩
  obtain ⟨o', ho', -, hpoint⟩ := x25519ScalarmultLimbs_point n p hQ
  rwa [Option.some_inj.mp (ho.symm.trans ho')]

theorem coordinate_base9 : coordinate base9 = 9 := by decide

/-- `x25519_scalarmult`. -/
def x25519Scalarmult (n : PrivateKey) (p : PublicKey) : SymmetricKey :=
  (x25519ScalarmultLimbs n p).get (by
    obtain ⟨o, ho, -⟩ := x25519ScalarmultLimbs_spec n p
    exact Option.isSome_of_eq_some ho)

/-- `x25519_scalarmult_base`. -/
def x25519ScalarmultBase (n : PrivateKey) : PublicKey := x25519Scalarmult n base9

theorem x25519Scalarmult_point {K : Type*} [Field K] [CharP K prime25519] [DecidableEq K]
    (n : PrivateKey) (p : PublicKey) {P : (curve (486662 : K)).Point}
    (hP : xCoord P = coordinate p) :
    LittleEndian.value (x25519Scalarmult n p).val < prime25519 ∧
      xCoord (scalar n • P) = coordinate (x25519Scalarmult n p) := by
  obtain ⟨o, ho, hlt, hpoint⟩ := x25519ScalarmultLimbs_point n p hP
  have heq : x25519Scalarmult n p = o := by
    unfold x25519Scalarmult
    simp only [ho, Option.get_some]
  rw [heq]
  refine ⟨hlt, ?_⟩
  rw [← hpoint, coordinate_of_lt hlt]

/-- Canonical keys with one coordinate are equal. -/
theorem eq_of_natCast_eq {K : Type*} [Field K] [CharP K prime25519] {a b : PublicKey}
    (ha : LittleEndian.value a.val < prime25519) (hb : LittleEndian.value b.val < prime25519)
    (h : (coordinate a : K) = coordinate b) : a = b := by
  rw [coordinate_of_lt ha, coordinate_of_lt hb] at h
  have hvalue := CharP.natCast_injOn_Iio K prime25519 ha hb h
  exact Subtype.ext (LittleEndian.value_inj (a.property.trans b.property.symm) hvalue)

open Classical in
/-- The order of two multiplications does not matter, over any public key. -/
theorem x25519Scalarmult_comm (a b : PrivateKey) (p : PublicKey) :
    x25519Scalarmult a (x25519Scalarmult b p) = x25519Scalarmult b (x25519Scalarmult a p) := by
  obtain ⟨P, hP⟩ := exists_xCoord_eq (K := AlgebraicClosure (ZMod prime25519))
    two_ne_zero25519 sq_ne_four (coordinate p)
  obtain ⟨-, hb⟩ := x25519Scalarmult_point b p hP
  obtain ⟨-, ha⟩ := x25519Scalarmult_point a p hP
  obtain ⟨hlt, hab⟩ := x25519Scalarmult_point a (x25519Scalarmult b p) hb
  obtain ⟨hlt', hba⟩ := x25519Scalarmult_point b (x25519Scalarmult a p) ha
  refine eq_of_natCast_eq hlt hlt' (K := AlgebraicClosure (ZMod prime25519)) ?_
  rw [← hab, ← hba, ← mul_nsmul, ← mul_nsmul, mul_comm]

/-- The order does not divide what two scalars make. -/
theorem not_order25519_dvd (a b : PrivateKey) : ¬order25519 ∣ scalar a * scalar b := by
  have hscalar : ∀ n, ¬order25519 ∣ scalar n := by
    intro n h
    obtain ⟨k, hk, hlow, hhigh⟩ := scalar_eq n
    rw [hk] at h
    have horder : order25519 = 2 ^ 252 + 27742317777372353535851937790883648493 := rfl
    rcases prime_order25519.dvd_mul.mp h with h | h
    · exact absurd h (by decide)
    · have := Nat.le_of_dvd (by omega) h
      omega
  intro h
  rcases prime_order25519.dvd_mul.mp h with h | h
  · exact hscalar a h
  · exact hscalar b h

open Classical in
/-- A secret shared over the base point is never zero. -/
theorem coordinate_shared_ne_zero (a b : PrivateKey) :
    coordinate (x25519Scalarmult a (x25519ScalarmultBase b)) ≠ 0 := by
  obtain ⟨P, hP⟩ := exists_xCoord_eq (K := AlgebraicClosure (ZMod prime25519))
    two_ne_zero25519 sq_ne_four (coordinate base9)
  obtain ⟨-, hb⟩ := x25519Scalarmult_point b base9 hP
  obtain ⟨-, hab⟩ := x25519Scalarmult_point a (x25519ScalarmultBase b) hb
  rw [coordinate_base9, Nat.cast_ofNat] at hP
  intro hzero
  rw [hzero, Nat.cast_zero, ← mul_nsmul] at hab
  exact xCoord_nsmul_ne_zero hP (mul_comm (scalar a) _ ▸ not_order25519_dvd a b) hab

end EsphomeApi.Noise
