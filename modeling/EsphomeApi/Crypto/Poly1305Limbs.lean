/-
EsphomeApi.Crypto.Poly1305Limbs — what the limb arithmetic of Poly1305
computes, modulo `2 ^ 130 - 5`.

The value of five limbs is a number in base `2 ^ 26`, not a unique one: limb 1
may be a little over its 26 bits between two blocks (`Limbs.Reduced`). Each
part of the code has one lemma about that value, under the bounds that the
part before it leaves: adding a block (`addBlock_spec`), the products
(`mul_spec`), the carry (`carry_spec`), and for the end the full carry
(`fullCarry_spec`), the reduction (`select_spec`) and the four words
(`pack_spec`, `Words4.add_spec`). That no 32-bit or 64-bit word overflows is
part of each.
-/
import EsphomeApi.Crypto.Poly1305
import Mathlib.Data.Nat.ModEq
import Mathlib.Tactic.Ring

namespace EsphomeApi.Noise

open Library

/-! ## Words as numbers -/

theorem toNat_mask26 (x : UInt32) : (x &&& 0x3ffffff).toNat = x.toNat % 2 ^ 26 := by
  rw [UInt32.toNat_and]
  exact Nat.and_two_pow_sub_one_eq_mod _ 26

theorem toNat_shiftRight32 (x : UInt32) {k : UInt32} (hk : k.toNat < 32) :
    (x >>> k).toNat = x.toNat / 2 ^ k.toNat := by
  rw [UInt32.toNat_shiftRight, Nat.mod_eq_of_lt hk, Nat.shiftRight_eq_div_pow]

theorem toNat_shiftRight64 (x : UInt64) {k : UInt64} (hk : k.toNat < 64) :
    (x >>> k).toNat = x.toNat / 2 ^ k.toNat := by
  rw [UInt64.toNat_shiftRight, Nat.mod_eq_of_lt hk, Nat.shiftRight_eq_div_pow]

theorem toNat_add32 {x y : UInt32} (h : x.toNat + y.toNat < 2 ^ 32) :
    (x + y).toNat = x.toNat + y.toNat := by
  rw [UInt32.toNat_add, Nat.mod_eq_of_lt h]

theorem toNat_add64 {x y : UInt64} (h : x.toNat + y.toNat < 2 ^ 64) :
    (x + y).toNat = x.toNat + y.toNat := by
  rw [UInt64.toNat_add, Nat.mod_eq_of_lt h]

/-- A word of a message or key, from byte `k` on. -/
theorem toNat_u8to32_drop {p : Bytes} {k : Nat} (hp : k + 4 ≤ p.length) :
    (u8to32 (p.drop k)).toNat = LittleEndian.value p / 256 ^ k % 2 ^ 32 := by
  rw [u8to32, toNat_load32Le (by rw [List.length_drop]; omega), LittleEndian.value_drop]

/-- The bound of a product of limbs. -/
theorem mul_limbs_le {a b m n : Nat} (ha : a < m) (hb : b < n) : a * b ≤ m * n :=
  Nat.mul_le_mul ha.le hb.le

/-- The sum of five products of limbs fits a 64-bit word. -/
theorem toNat_products {a0 b0 a1 b1 a2 b2 a3 b3 a4 b4 : UInt32}
    (ha0 : a0.toNat < 2 ^ 28) (ha1 : a1.toNat < 2 ^ 28) (ha2 : a2.toNat < 2 ^ 28)
    (ha3 : a3.toNat < 2 ^ 28) (ha4 : a4.toNat < 2 ^ 28)
    (hb0 : b0.toNat < 2 ^ 29) (hb1 : b1.toNat < 2 ^ 29) (hb2 : b2.toNat < 2 ^ 29)
    (hb3 : b3.toNat < 2 ^ 29) (hb4 : b4.toNat < 2 ^ 29) :
    (a0.toUInt64 * b0.toUInt64 + a1.toUInt64 * b1.toUInt64 + a2.toUInt64 * b2.toUInt64 +
      a3.toUInt64 * b3.toUInt64 + a4.toUInt64 * b4.toUInt64).toNat =
      a0.toNat * b0.toNat + a1.toNat * b1.toNat + a2.toNat * b2.toNat + a3.toNat * b3.toNat +
        a4.toNat * b4.toNat := by
  have h0 := mul_limbs_le ha0 hb0
  have h1 := mul_limbs_le ha1 hb1
  have h2 := mul_limbs_le ha2 hb2
  have h3 := mul_limbs_le ha3 hb3
  have h4 := mul_limbs_le ha4 hb4
  simp only [UInt64.toNat_add, UInt64.toNat_mul, UInt32.toNat_toUInt64, Nat.add_mod_mod,
    Nat.mod_add_mod]
  exact Nat.mod_eq_of_lt (by omega)

/-! ## Limbs as numbers -/

/-- `p`. -/
def prime1305 : Nat := 2 ^ 130 - 5

def Limbs.value (h : Limbs) : Nat :=
  h.l0.toNat + 2 ^ 26 * h.l1.toNat + 2 ^ 52 * h.l2.toNat + 2 ^ 78 * h.l3.toNat +
    2 ^ 104 * h.l4.toNat

def WideLimbs.value (d : WideLimbs) : Nat :=
  d.d0.toNat + 2 ^ 26 * d.d1.toNat + 2 ^ 52 * d.d2.toNat + 2 ^ 78 * d.d3.toNat +
    2 ^ 104 * d.d4.toNat

/-- The limbs between two blocks. -/
structure Limbs.Reduced (h : Limbs) : Prop where
  l0_lt : h.l0.toNat < 2 ^ 26
  l1_lt : h.l1.toNat < 2 ^ 26 + 2 ^ 6
  l2_lt : h.l2.toNat < 2 ^ 26
  l3_lt : h.l3.toNat < 2 ^ 26
  l4_lt : h.l4.toNat < 2 ^ 26

/-- The limbs once a block is added. -/
structure Limbs.Summed (h : Limbs) : Prop where
  l0_lt : h.l0.toNat < 2 ^ 27
  l1_lt : h.l1.toNat < 2 ^ 27 + 2 ^ 6
  l2_lt : h.l2.toNat < 2 ^ 27
  l3_lt : h.l3.toNat < 2 ^ 27
  l4_lt : h.l4.toNat < 2 ^ 27

/-- The limbs of a key: 22 of their bits are always clear. -/
structure Limbs.Clamped (r : Limbs) : Prop where
  l0_lt : r.l0.toNat < 2 ^ 26
  l1_lt : r.l1.toNat < 2 ^ 26
  l2_lt : r.l2.toNat < 2 ^ 26
  l3_lt : r.l3.toNat < 2 ^ 26
  l4_lt : r.l4.toNat < 2 ^ 20

theorem Limbs.reduced_zero : Limbs.Reduced ⟨0, 0, 0, 0, 0⟩ := by
  constructor <;> decide

/-! ## A turn of `poly1305_blocks` -/

/-- The bit that a turn adds above the sixteen bytes. -/
def IsHibit (hibit : UInt32) : Prop := hibit = 0 ∨ hibit = (1 : UInt32) <<< 24

theorem IsHibit.toNat_or {hibit x : UInt32} (h : IsHibit hibit) (hx : x.toNat < 2 ^ 24) :
    (x ||| hibit).toNat = x.toNat + hibit.toNat := by
  rcases h with rfl | rfl
  · simp
  · have hbit : ((1 : UInt32) <<< 24).toNat = 1 <<< 24 := by decide
    rw [UInt32.toNat_or, hbit, shiftLeft_or_eq_add hx, Nat.shiftLeft_eq]

theorem IsHibit.toNat_le {hibit : UInt32} (h : IsHibit hibit) : hibit.toNat ≤ 2 ^ 24 := by
  rcases h with rfl | rfl <;> decide

/-- Sixteen bytes, cut into limbs. -/
theorem Limbs.addBlock_spec {h : Limbs} (hh : h.Reduced) {hibit : UInt32} (hbit : IsHibit hibit)
    {m : Bytes} (hm : m.length = 16) :
    (h.addBlock hibit m).Summed ∧
      (h.addBlock hibit m).value =
        h.value + LittleEndian.value m + 2 ^ 104 * hibit.toNat := by
  obtain ⟨h0, h1, h2, h3, h4⟩ := hh
  have hvalue : LittleEndian.value m < 2 ^ 128 := by
    have h := LittleEndian.value_lt m
    rwa [hm] at h
  have hle := hbit.toNat_le
  generalize hM : LittleEndian.value m = M at hvalue ⊢
  have w0 : (u8to32 m).toNat = M % 2 ^ 32 := by
    rw [u8to32, toNat_load32Le (by omega), hM]
  have w1 : (u8to32 (m.drop 3)).toNat = M / 2 ^ 24 % 2 ^ 32 := by
    rw [toNat_u8to32_drop (by omega), hM]
    rfl
  have w2 : (u8to32 (m.drop 6)).toNat = M / 2 ^ 48 % 2 ^ 32 := by
    rw [toNat_u8to32_drop (by omega), hM]
    rfl
  have w3 : (u8to32 (m.drop 9)).toNat = M / 2 ^ 72 % 2 ^ 32 := by
    rw [toNat_u8to32_drop (by omega), hM]
    rfl
  have w4 : (u8to32 (m.drop 12)).toNat = M / 2 ^ 96 % 2 ^ 32 := by
    rw [toNat_u8to32_drop (by omega), hM]
    rfl
  have m0 : (u8to32 m &&& 0x3ffffff).toNat = M % 2 ^ 26 := by
    rw [toNat_mask26, w0]
    omega
  have m1 : ((u8to32 (m.drop 3) >>> 2) &&& 0x3ffffff).toNat = M / 2 ^ 26 % 2 ^ 26 := by
    rw [toNat_mask26, toNat_shiftRight32 _ (by decide), w1, show (2 : UInt32).toNat = 2 from rfl]
    omega
  have m2 : ((u8to32 (m.drop 6) >>> 4) &&& 0x3ffffff).toNat = M / 2 ^ 52 % 2 ^ 26 := by
    rw [toNat_mask26, toNat_shiftRight32 _ (by decide), w2, show (4 : UInt32).toNat = 4 from rfl]
    omega
  have m3 : ((u8to32 (m.drop 9) >>> 6) &&& 0x3ffffff).toNat = M / 2 ^ 78 % 2 ^ 26 := by
    rw [toNat_mask26, toNat_shiftRight32 _ (by decide), w3, show (6 : UInt32).toNat = 6 from rfl]
    omega
  have m4 : (u8to32 (m.drop 12) >>> 8).toNat = M / 2 ^ 104 := by
    rw [toNat_shiftRight32 _ (by decide), w4, show (8 : UInt32).toNat = 8 from rfl]
    omega
  have m4' : ((u8to32 (m.drop 12) >>> 8) ||| hibit).toNat = M / 2 ^ 104 + hibit.toNat := by
    rw [hbit.toNat_or (by omega), m4]
  have s0 : (h.addBlock hibit m).l0.toNat = h.l0.toNat + M % 2 ^ 26 := by
    rw [addBlock, toNat_add32 (by omega), m0]
  have s1 : (h.addBlock hibit m).l1.toNat = h.l1.toNat + M / 2 ^ 26 % 2 ^ 26 := by
    rw [addBlock, toNat_add32 (by omega), m1]
  have s2 : (h.addBlock hibit m).l2.toNat = h.l2.toNat + M / 2 ^ 52 % 2 ^ 26 := by
    rw [addBlock, toNat_add32 (by omega), m2]
  have s3 : (h.addBlock hibit m).l3.toNat = h.l3.toNat + M / 2 ^ 78 % 2 ^ 26 := by
    rw [addBlock, toNat_add32 (by omega), m3]
  have s4 : (h.addBlock hibit m).l4.toNat = h.l4.toNat + (M / 2 ^ 104 + hibit.toNat) := by
    rw [addBlock, toNat_add32 (by omega), m4']
  constructor
  · constructor <;> omega
  · rw [value, value, s0, s1, s2, s3, s4]
    omega

theorem toNat_times5 {x : UInt32} (hx : x.toNat < 2 ^ 26) : (x * 5).toNat = 5 * x.toNat := by
  rw [UInt32.toNat_mul, show (5 : UInt32).toNat = 5 from rfl, Nat.mod_eq_of_lt (by omega),
    Nat.mul_comm]

/-- The products as numbers. -/
theorem Limbs.mul_toNat {h r : Limbs} (hh : h.Summed) (hr : r.Clamped) :
    (h.mul r).d0.toNat = h.l0.toNat * r.l0.toNat + h.l1.toNat * (5 * r.l4.toNat) +
        h.l2.toNat * (5 * r.l3.toNat) + h.l3.toNat * (5 * r.l2.toNat) +
        h.l4.toNat * (5 * r.l1.toNat) ∧
      (h.mul r).d1.toNat = h.l0.toNat * r.l1.toNat + h.l1.toNat * r.l0.toNat +
        h.l2.toNat * (5 * r.l4.toNat) + h.l3.toNat * (5 * r.l3.toNat) +
        h.l4.toNat * (5 * r.l2.toNat) ∧
      (h.mul r).d2.toNat = h.l0.toNat * r.l2.toNat + h.l1.toNat * r.l1.toNat +
        h.l2.toNat * r.l0.toNat + h.l3.toNat * (5 * r.l4.toNat) +
        h.l4.toNat * (5 * r.l3.toNat) ∧
      (h.mul r).d3.toNat = h.l0.toNat * r.l3.toNat + h.l1.toNat * r.l2.toNat +
        h.l2.toNat * r.l1.toNat + h.l3.toNat * r.l0.toNat + h.l4.toNat * (5 * r.l4.toNat) ∧
      (h.mul r).d4.toNat = h.l0.toNat * r.l4.toNat + h.l1.toNat * r.l3.toNat +
        h.l2.toNat * r.l2.toNat + h.l3.toNat * r.l1.toNat + h.l4.toNat * r.l0.toNat := by
  obtain ⟨h0, h1, h2, h3, h4⟩ := hh
  obtain ⟨r0, r1, r2, r3, r4⟩ := hr
  have s1 := toNat_times5 r1
  have s2 := toNat_times5 r2
  have s3 := toNat_times5 r3
  have s4 := toNat_times5 (Nat.lt_trans r4 (by decide))
  rw [← s1, ← s2, ← s3, ← s4]
  refine ⟨?_, ?_, ?_, ?_, ?_⟩ <;> apply toNat_products <;> omega

/-- What the carry starts from: no carry is lost, and the last one times five
fits 32 bits. -/
structure WideLimbs.Bounded (d : WideLimbs) : Prop where
  d0_lt : d.d0.toNat < 2 ^ 58 - 2 ^ 32
  d1_lt : d.d1.toNat < 2 ^ 58 - 2 ^ 32
  d2_lt : d.d2.toNat < 2 ^ 58 - 2 ^ 32
  d3_lt : d.d3.toNat < 2 ^ 58 - 2 ^ 32
  d4_lt : d.d4.toNat < 2 ^ 55 + 2 ^ 50

theorem Limbs.mul_bounded {h r : Limbs} (hh : h.Summed) (hr : r.Clamped) : (h.mul r).Bounded := by
  obtain ⟨e0, e1, e2, e3, e4⟩ := mul_toNat hh hr
  obtain ⟨h0, h1, h2, h3, h4⟩ := hh
  obtain ⟨r0, r1, r2, r3, r4⟩ := hr
  constructor
  · have p0 := mul_limbs_le h0 r0
    have p1 := mul_limbs_le h1 (show 5 * r.l4.toNat < 5 * 2 ^ 20 by omega)
    have p2 := mul_limbs_le h2 (show 5 * r.l3.toNat < 5 * 2 ^ 26 by omega)
    have p3 := mul_limbs_le h3 (show 5 * r.l2.toNat < 5 * 2 ^ 26 by omega)
    have p4 := mul_limbs_le h4 (show 5 * r.l1.toNat < 5 * 2 ^ 26 by omega)
    omega
  · have p0 := mul_limbs_le h0 r1
    have p1 := mul_limbs_le h1 r0
    have p2 := mul_limbs_le h2 (show 5 * r.l4.toNat < 5 * 2 ^ 20 by omega)
    have p3 := mul_limbs_le h3 (show 5 * r.l3.toNat < 5 * 2 ^ 26 by omega)
    have p4 := mul_limbs_le h4 (show 5 * r.l2.toNat < 5 * 2 ^ 26 by omega)
    omega
  · have p0 := mul_limbs_le h0 r2
    have p1 := mul_limbs_le h1 r1
    have p2 := mul_limbs_le h2 r0
    have p3 := mul_limbs_le h3 (show 5 * r.l4.toNat < 5 * 2 ^ 20 by omega)
    have p4 := mul_limbs_le h4 (show 5 * r.l3.toNat < 5 * 2 ^ 26 by omega)
    omega
  · have p0 := mul_limbs_le h0 r3
    have p1 := mul_limbs_le h1 r2
    have p2 := mul_limbs_le h2 r1
    have p3 := mul_limbs_le h3 r0
    have p4 := mul_limbs_le h4 (show 5 * r.l4.toNat < 5 * 2 ^ 20 by omega)
    omega
  · have p0 := mul_limbs_le h0 r4
    have p1 := mul_limbs_le h1 r3
    have p2 := mul_limbs_le h2 r2
    have p3 := mul_limbs_le h3 r1
    have p4 := mul_limbs_le h4 r0
    omega

/-- The products are the product modulo `p`: a limb at `2 ^ 130` counts five
times at the bottom. -/
theorem Limbs.mul_spec {h r : Limbs} (hh : h.Summed) (hr : r.Clamped) :
    (h.mul r).value ≡ h.value * r.value [MOD prime1305] := by
  obtain ⟨e0, e1, e2, e3, e4⟩ := mul_toNat hh hr
  have hsplit : h.value * r.value = (h.mul r).value + prime1305 *
      (h.l1.toNat * r.l4.toNat + h.l2.toNat * r.l3.toNat + h.l3.toNat * r.l2.toNat +
        h.l4.toNat * r.l1.toNat +
        2 ^ 26 * (h.l2.toNat * r.l4.toNat + h.l3.toNat * r.l3.toNat + h.l4.toNat * r.l2.toNat) +
        2 ^ 52 * (h.l3.toNat * r.l4.toNat + h.l4.toNat * r.l3.toNat) +
        2 ^ 78 * (h.l4.toNat * r.l4.toNat)) := by
    rw [WideLimbs.value, e0, e1, e2, e3, e4, value, value,
      show prime1305 = 1361129467683753853853498429727072845819 from rfl]
    ring
  rw [hsplit]
  exact (Nat.add_mul_mod_self_left ..).symm

theorem toNat_high {x : UInt64} (hx : x.toNat < 2 ^ 58) :
    (x >>> 26).toUInt32.toNat = x.toNat / 2 ^ 26 := by
  rw [UInt64.toNat_toUInt32, toNat_shiftRight64 _ (by decide), show (26 : UInt64).toNat = 26 from rfl]
  omega

theorem toNat_low (x : UInt64) : (x.toUInt32 &&& 0x3ffffff).toNat = x.toNat % 2 ^ 26 := by
  rw [toNat_mask26, UInt64.toNat_toUInt32]
  omega

theorem toNat_add_carry {x : UInt64} (c : UInt32) (hx : x.toNat < 2 ^ 58) :
    (x + c.toUInt64).toNat = x.toNat + c.toNat := by
  have hc := c.toNat_lt
  rw [toNat_add64 (by rw [UInt32.toNat_toUInt64]; omega), UInt32.toNat_toUInt64]

theorem toNat_times5_carry {c : UInt32} (hc : c.toNat < 2 ^ 29 + 2 ^ 25) :
    (c * 5).toNat = 5 * c.toNat := by
  rw [UInt32.toNat_mul, show (5 : UInt32).toNat = 5 from rfl, Nat.mod_eq_of_lt (by omega),
    Nat.mul_comm]

/-- The carry keeps the value modulo `p`. -/
theorem WideLimbs.carry_spec {d : WideLimbs} (hd : d.Bounded) :
    d.carry.Reduced ∧ d.carry.value ≡ d.value [MOD prime1305] := by
  obtain ⟨hd0, hd1, hd2, hd3, hd4⟩ := hd
  -- the carries, from the bottom limb to the top one and round to the bottom
  obtain ⟨c0, hc0⟩ : ∃ c, c = (d.d0 >>> 26).toUInt32 := ⟨_, rfl⟩
  obtain ⟨d1, hd1'⟩ : ∃ x, x = d.d1 + c0.toUInt64 := ⟨_, rfl⟩
  obtain ⟨c1, hc1⟩ : ∃ c, c = (d1 >>> 26).toUInt32 := ⟨_, rfl⟩
  obtain ⟨d2, hd2'⟩ : ∃ x, x = d.d2 + c1.toUInt64 := ⟨_, rfl⟩
  obtain ⟨c2, hc2⟩ : ∃ c, c = (d2 >>> 26).toUInt32 := ⟨_, rfl⟩
  obtain ⟨d3, hd3'⟩ : ∃ x, x = d.d3 + c2.toUInt64 := ⟨_, rfl⟩
  obtain ⟨c3, hc3⟩ : ∃ c, c = (d3 >>> 26).toUInt32 := ⟨_, rfl⟩
  obtain ⟨d4, hd4'⟩ : ∃ x, x = d.d4 + c3.toUInt64 := ⟨_, rfl⟩
  obtain ⟨c4, hc4⟩ : ∃ c, c = (d4 >>> 26).toUInt32 := ⟨_, rfl⟩
  obtain ⟨h0, hh0⟩ : ∃ h, h = (d.d0.toUInt32 &&& (0x3ffffff : UInt32)) + c4 * 5 := ⟨_, rfl⟩
  have hcarry : d.carry = ⟨h0 &&& 0x3ffffff,
      (d1.toUInt32 &&& (0x3ffffff : UInt32)) + (h0 >>> 26), d2.toUInt32 &&& 0x3ffffff,
      d3.toUInt32 &&& 0x3ffffff, d4.toUInt32 &&& 0x3ffffff⟩ := by
    rw [hh0, hc4, hd4', hc3, hd3', hc2, hd2', hc1, hd1', hc0]
    rfl
  have nc0 := congrArg UInt32.toNat hc0
  rw [toNat_high (by omega)] at nc0
  have nd1 := congrArg UInt64.toNat hd1'
  rw [toNat_add_carry _ (by omega)] at nd1
  have nc1 := congrArg UInt32.toNat hc1
  rw [toNat_high (by omega)] at nc1
  have nd2 := congrArg UInt64.toNat hd2'
  rw [toNat_add_carry _ (by omega)] at nd2
  have nc2 := congrArg UInt32.toNat hc2
  rw [toNat_high (by omega)] at nc2
  have nd3 := congrArg UInt64.toNat hd3'
  rw [toNat_add_carry _ (by omega)] at nd3
  have nc3 := congrArg UInt32.toNat hc3
  rw [toNat_high (by omega)] at nc3
  have nd4 := congrArg UInt64.toNat hd4'
  rw [toNat_add_carry _ (by omega)] at nd4
  have nc4 := congrArg UInt32.toNat hc4
  rw [toNat_high (by omega)] at nc4
  have nh0 := congrArg UInt32.toNat hh0
  have n5 := toNat_times5_carry (c := c4) (by omega)
  have nlow := toNat_low d.d0
  rw [toNat_add32 (by omega), nlow, n5] at nh0
  have nc : (h0 >>> 26).toNat = h0.toNat / 2 ^ 26 := toNat_shiftRight32 _ (by decide)
  have l0 := toNat_mask26 h0
  have n1 := toNat_low d1
  have l2 := toNat_low d2
  have l3 := toNat_low d3
  have l4 := toNat_low d4
  have l1 : ((d1.toUInt32 &&& (0x3ffffff : UInt32)) + (h0 >>> 26)).toNat =
      d1.toNat % 2 ^ 26 + h0.toNat / 2 ^ 26 := by
    rw [toNat_add32 (by omega), n1, nc]
  rw [hcarry]
  constructor
  · constructor <;> simp only [l0, l1, l2, l3, l4] <;> omega
  · have hvalue : d.value = d.carry.value + prime1305 * c4.toNat := by
      rw [hcarry]
      simp only [value, Limbs.value, l0, l1, l2, l3, l4]
      rw [show prime1305 = 1361129467683753853853498429727072845819 from rfl]
      omega
    rw [← hcarry, hvalue]
    exact (Nat.add_mul_mod_self_left ..).symm

/-- A turn of `poly1305_blocks`: add the block, then multiply. -/
theorem Limbs.block_spec {r : Limbs} (hr : r.Clamped) {hibit : UInt32} (hbit : IsHibit hibit)
    {h : Limbs} (hh : h.Reduced) {m : Bytes} (hm : m.length = 16) :
    (r.block hibit h m).Reduced ∧
      (r.block hibit h m).value ≡
        (h.value + LittleEndian.value m + 2 ^ 104 * hibit.toNat) * r.value [MOD prime1305] := by
  obtain ⟨hsum, hvalue⟩ := addBlock_spec hh hbit hm
  obtain ⟨hred, hcarry⟩ := WideLimbs.carry_spec (mul_bounded hsum hr)
  refine ⟨hred, hcarry.trans ?_⟩
  rw [← hvalue]
  exact mul_spec hsum hr

/-! ## `poly1305_finish` -/

/-- The limbs are digits. -/
structure Limbs.Digits (h : Limbs) : Prop where
  l0_lt : h.l0.toNat < 2 ^ 26
  l1_lt : h.l1.toNat < 2 ^ 26
  l2_lt : h.l2.toNat < 2 ^ 26
  l3_lt : h.l3.toNat < 2 ^ 26
  l4_lt : h.l4.toNat < 2 ^ 26

/-- If the top limb carries over, limb 1 has been cut down to a few bits, so
the second carry into it stops there. -/
theorem Limbs.fullCarry_spec {h : Limbs} (hh : h.Reduced) :
    h.fullCarry.Digits ∧ h.fullCarry.value ≡ h.value [MOD prime1305] := by
  obtain ⟨hh0, hh1, hh2, hh3, hh4⟩ := hh
  obtain ⟨c1, hc1⟩ : ∃ c, c = h.l1 >>> 26 := ⟨_, rfl⟩
  obtain ⟨h2, hh2'⟩ : ∃ x, x = h.l2 + c1 := ⟨_, rfl⟩
  obtain ⟨c2, hc2⟩ : ∃ c, c = h2 >>> 26 := ⟨_, rfl⟩
  obtain ⟨h3, hh3'⟩ : ∃ x, x = h.l3 + c2 := ⟨_, rfl⟩
  obtain ⟨c3, hc3⟩ : ∃ c, c = h3 >>> 26 := ⟨_, rfl⟩
  obtain ⟨h4, hh4'⟩ : ∃ x, x = h.l4 + c3 := ⟨_, rfl⟩
  obtain ⟨c4, hc4⟩ : ∃ c, c = h4 >>> 26 := ⟨_, rfl⟩
  obtain ⟨h0, hh0'⟩ : ∃ x, x = h.l0 + c4 * 5 := ⟨_, rfl⟩
  have hcarry : h.fullCarry = ⟨h0 &&& 0x3ffffff, (h.l1 &&& (0x3ffffff : UInt32)) + (h0 >>> 26),
      h2 &&& 0x3ffffff, h3 &&& 0x3ffffff, h4 &&& 0x3ffffff⟩ := by
    rw [hh0', hc4, hh4', hc3, hh3', hc2, hh2', hc1]
    rfl
  have shift26 : ∀ x : UInt32, (x >>> 26).toNat = x.toNat / 2 ^ 26 := fun x =>
    toNat_shiftRight32 x (by decide)
  have nc1 := congrArg UInt32.toNat hc1
  rw [shift26] at nc1
  have nh2 := congrArg UInt32.toNat hh2'
  rw [toNat_add32 (by omega)] at nh2
  have nc2 := congrArg UInt32.toNat hc2
  rw [shift26] at nc2
  have nh3 := congrArg UInt32.toNat hh3'
  rw [toNat_add32 (by omega)] at nh3
  have nc3 := congrArg UInt32.toNat hc3
  rw [shift26] at nc3
  have nh4 := congrArg UInt32.toNat hh4'
  rw [toNat_add32 (by omega)] at nh4
  have nc4 := congrArg UInt32.toNat hc4
  rw [shift26] at nc4
  have nh0 := congrArg UInt32.toNat hh0'
  have n5 := toNat_times5_carry (c := c4) (by omega)
  rw [toNat_add32 (by omega), n5] at nh0
  have l0 := toNat_mask26 h0
  have n1 := toNat_mask26 h.l1
  have nc := shift26 h0
  have l1 : ((h.l1 &&& (0x3ffffff : UInt32)) + (h0 >>> 26)).toNat =
      h.l1.toNat % 2 ^ 26 + h0.toNat / 2 ^ 26 := by
    rw [toNat_add32 (by omega), n1, nc]
  have l2 := toNat_mask26 h2
  have l3 := toNat_mask26 h3
  have l4 := toNat_mask26 h4
  have hvalue : h.value = h.fullCarry.value + prime1305 * c4.toNat := by
    rw [hcarry]
    simp only [value, l0, l1, l2, l3, l4]
    rw [show prime1305 = 1361129467683753853853498429727072845819 from rfl]
    omega
  constructor
  · rw [hcarry]
    constructor <;> simp only [l0, l1, l2, l3, l4] <;> omega
  · rw [hvalue]
    exact (Nat.add_mul_mod_self_left ..).symm

/-- `h + -p`, as limbs: the top bit of the last one tells whether `h < p`. -/
theorem Limbs.minusP_spec {h : Limbs} (hh : h.Digits) :
    (h.value < prime1305 ∧ h.minusP.l4 >>> 31 = 1) ∨
      (h.minusP.Digits ∧ h.minusP.value + prime1305 = h.value ∧ h.minusP.l4 >>> 31 = 0) := by
  obtain ⟨hh0, hh1, hh2, hh3, hh4⟩ := hh
  obtain ⟨g0, hg0⟩ : ∃ x, x = h.l0 + 5 := ⟨_, rfl⟩
  obtain ⟨g1, hg1⟩ : ∃ x, x = h.l1 + g0 >>> 26 := ⟨_, rfl⟩
  obtain ⟨g2, hg2⟩ : ∃ x, x = h.l2 + g1 >>> 26 := ⟨_, rfl⟩
  obtain ⟨g3, hg3⟩ : ∃ x, x = h.l3 + g2 >>> 26 := ⟨_, rfl⟩
  obtain ⟨g4, hg4⟩ : ∃ x, x = h.l4 + g3 >>> 26 - ((1 : UInt32) <<< 26) := ⟨_, rfl⟩
  have hminus : h.minusP =
      ⟨g0 &&& 0x3ffffff, g1 &&& 0x3ffffff, g2 &&& 0x3ffffff, g3 &&& 0x3ffffff, g4⟩ := by
    rw [hg4, hg3, hg2, hg1, hg0]
    rfl
  have shift26 : ∀ x : UInt32, (x >>> 26).toNat = x.toNat / 2 ^ 26 := fun x =>
    toNat_shiftRight32 x (by decide)
  have hfive : (5 : UInt32).toNat = 5 := rfl
  have hone : ((1 : UInt32) <<< 26).toNat = 2 ^ 26 := by decide
  have s0 := shift26 g0
  have s1 := shift26 g1
  have s2 := shift26 g2
  have s3 := shift26 g3
  have n0 := congrArg UInt32.toNat hg0
  rw [toNat_add32 (by omega), hfive] at n0
  have n1 := congrArg UInt32.toNat hg1
  rw [toNat_add32 (by omega), s0] at n1
  have n2 := congrArg UInt32.toNat hg2
  rw [toNat_add32 (by omega), s1] at n2
  have n3 := congrArg UInt32.toNat hg3
  rw [toNat_add32 (by omega), s2] at n3
  have n4 := congrArg UInt32.toNat hg4
  rw [UInt32.toNat_sub, toNat_add32 (by omega), s3, hone] at n4
  have l0 := toNat_mask26 g0
  have l1 := toNat_mask26 g1
  have l2 := toNat_mask26 g2
  have l3 := toNat_mask26 g3
  have htop : (g4 >>> 31).toNat = g4.toNat / 2 ^ 31 := toNat_shiftRight32 g4 (by decide)
  have hprime : prime1305 = 1361129467683753853853498429727072845819 := rfl
  rw [hminus]
  by_cases hlt : h.l4.toNat + g3.toNat / 2 ^ 26 < 2 ^ 26
  · left
    constructor
    · rw [value, hprime]
      omega
    · rw [← UInt32.toNat_inj, htop, show (1 : UInt32).toNat = 1 from rfl]
      omega
  · right
    refine ⟨?_, ?_, ?_⟩
    · constructor <;> simp only [l0, l1, l2, l3] <;> omega
    · simp only [value, l0, l1, l2, l3]
      rw [hprime]
      omega
    · rw [← UInt32.toNat_inj, htop, show (0 : UInt32).toNat = 0 from rfl]
      omega

theorem Limbs.select_left {h g : Limbs} (hg : g.l4 >>> 31 = 1) : h.select g = h := by
  simp [select, hg]

theorem Limbs.select_right {h g : Limbs} (hg : g.l4 >>> 31 = 0) : h.select g = g := by
  simp [select, hg]

/-- The reduction: digits of the residue. -/
theorem Limbs.select_spec {h : Limbs} (hh : h.Digits) :
    (h.select h.minusP).Digits ∧ (h.select h.minusP).value = h.value % prime1305 := by
  have hlt : h.value < 2 * prime1305 := by
    obtain ⟨h0, h1, h2, h3, h4⟩ := hh
    rw [value, show prime1305 = 1361129467683753853853498429727072845819 from rfl]
    omega
  rcases minusP_spec hh with ⟨hsmall, htop⟩ | ⟨hdigits, hvalue, htop⟩
  · rw [select_left htop]
    exact ⟨hh, (Nat.mod_eq_of_lt hsmall).symm⟩
  · rw [select_right htop]
    refine ⟨hdigits, ?_⟩
    rw [← hvalue, Nat.add_mod_right, Nat.mod_eq_of_lt (by omega)]

/-! ## The words of the tag -/

def Words4.value (w : Words4) : Nat :=
  w.w0.toNat + 2 ^ 32 * w.w1.toNat + 2 ^ 64 * w.w2.toNat + 2 ^ 96 * w.w3.toNat

/-- The low bits of a limb behind the last bits of the limb before it. -/
theorem toNat_join {x y k : UInt32} (hk : k.toNat < 32) (hx : x.toNat < 2 ^ k.toNat) :
    ((x ||| (y <<< k)) &&& 0xffffffff).toNat =
      x.toNat + y.toNat % 2 ^ (32 - k.toNat) * 2 ^ k.toNat := by
  have hpow : 2 ^ 32 = 2 ^ k.toNat * 2 ^ (32 - k.toNat) := by
    rw [← Nat.pow_add]
    congr 1
    omega
  have hshift : (y <<< k).toNat = (y.toNat % 2 ^ (32 - k.toNat)) <<< k.toNat := by
    rw [UInt32.toNat_shiftLeft, Nat.mod_eq_of_lt hk, Nat.shiftLeft_eq, Nat.shiftLeft_eq, hpow,
      Nat.mul_comm y.toNat, Nat.mul_mod_mul_left, Nat.mul_comm]
  rw [show (0xffffffff : UInt32) = -1 from rfl, UInt32.and_neg_one, UInt32.toNat_or, hshift,
    shiftLeft_or_eq_add hx]

/-- `h = h % (2^128)`. -/
theorem Limbs.pack_spec {h : Limbs} (hh : h.Digits) : h.pack.value = h.value % 2 ^ 128 := by
  obtain ⟨h0, h1, h2, h3, h4⟩ := hh
  have s1 : (h.l1 >>> 6).toNat = h.l1.toNat / 2 ^ 6 := toNat_shiftRight32 _ (by decide)
  have s2 : (h.l2 >>> 12).toNat = h.l2.toNat / 2 ^ 12 := toNat_shiftRight32 _ (by decide)
  have s3 : (h.l3 >>> 18).toNat = h.l3.toNat / 2 ^ 18 := toNat_shiftRight32 _ (by decide)
  have w0 : h.pack.w0.toNat = h.l0.toNat + h.l1.toNat % 2 ^ 6 * 2 ^ 26 :=
    toNat_join (k := 26) (by decide) h0
  have w1 : h.pack.w1.toNat = (h.l1 >>> 6).toNat + h.l2.toNat % 2 ^ 12 * 2 ^ 20 :=
    toNat_join (k := 20) (by decide) (by rw [s1, show (20 : UInt32).toNat = 20 from rfl]; omega)
  have w2 : h.pack.w2.toNat = (h.l2 >>> 12).toNat + h.l3.toNat % 2 ^ 18 * 2 ^ 14 :=
    toNat_join (k := 14) (by decide) (by rw [s2, show (14 : UInt32).toNat = 14 from rfl]; omega)
  have w3 : h.pack.w3.toNat = (h.l3 >>> 18).toNat + h.l4.toNat % 2 ^ 24 * 2 ^ 8 :=
    toNat_join (k := 8) (by decide) (by rw [s3, show (8 : UInt32).toNat = 8 from rfl]; omega)
  rw [Words4.value, w0, w1, w2, w3, s1, s2, s3, value]
  omega

theorem toNat_add_words {x y : UInt32} {f : UInt64} (hf : f.toNat < 2 ^ 34) :
    (x.toUInt64 + y.toUInt64 + (f >>> 32)).toNat =
      x.toNat + y.toNat + f.toNat / 2 ^ 32 := by
  have hx := x.toNat_lt
  have hy := y.toNat_lt
  have hcarry : (f >>> 32).toNat = f.toNat / 2 ^ 32 := toNat_shiftRight64 f (by decide)
  have hsum : (x.toUInt64 + y.toUInt64).toNat = x.toNat + y.toNat := by
    rw [toNat_add64 (by rw [UInt32.toNat_toUInt64, UInt32.toNat_toUInt64]; omega),
      UInt32.toNat_toUInt64, UInt32.toNat_toUInt64]
  rw [toNat_add64 (by omega), hsum, hcarry]

/-- `mac = (h + pad) % (2^128)`. -/
theorem Words4.add_spec (h pad : Words4) :
    (h.add pad).value = (h.value + pad.value) % 2 ^ 128 := by
  obtain ⟨f0, hf0⟩ : ∃ f, f = h.w0.toUInt64 + pad.w0.toUInt64 := ⟨_, rfl⟩
  obtain ⟨f1, hf1⟩ : ∃ f, f = h.w1.toUInt64 + pad.w1.toUInt64 + (f0 >>> 32) := ⟨_, rfl⟩
  obtain ⟨f2, hf2⟩ : ∃ f, f = h.w2.toUInt64 + pad.w2.toUInt64 + (f1 >>> 32) := ⟨_, rfl⟩
  obtain ⟨f3, hf3⟩ : ∃ f, f = h.w3.toUInt64 + pad.w3.toUInt64 + (f2 >>> 32) := ⟨_, rfl⟩
  have hadd : h.add pad = ⟨f0.toUInt32, f1.toUInt32, f2.toUInt32, f3.toUInt32⟩ := by
    rw [hf3, hf2, hf1, hf0]
    rfl
  have a0 := h.w0.toNat_lt
  have a1 := h.w1.toNat_lt
  have a2 := h.w2.toNat_lt
  have a3 := h.w3.toNat_lt
  have b0 := pad.w0.toNat_lt
  have b1 := pad.w1.toNat_lt
  have b2 := pad.w2.toNat_lt
  have b3 := pad.w3.toNat_lt
  have n0 := congrArg UInt64.toNat hf0
  rw [toNat_add64 (by rw [UInt32.toNat_toUInt64, UInt32.toNat_toUInt64]; omega),
    UInt32.toNat_toUInt64, UInt32.toNat_toUInt64] at n0
  have n1 := congrArg UInt64.toNat hf1
  rw [toNat_add_words (by omega)] at n1
  have n2 := congrArg UInt64.toNat hf2
  rw [toNat_add_words (by omega)] at n2
  have n3 := congrArg UInt64.toNat hf3
  rw [toNat_add_words (by omega)] at n3
  rw [hadd]
  simp only [value, UInt64.toNat_toUInt32]
  omega

theorem Words4.value_lt (w : Words4) : w.value < 2 ^ 128 := by
  have h0 := w.w0.toNat_lt
  have h1 := w.w1.toNat_lt
  have h2 := w.w2.toNat_lt
  have h3 := w.w3.toNat_lt
  rw [value]
  omega

theorem Words4.store_spec (w : Words4) : w.store.val = LittleEndian.bytes 16 w.value := by
  have h0 := w.w0.toNat_lt
  have h1 := w.w1.toNat_lt
  have h2 := w.w2.toNat_lt
  have h3 := w.w3.toNat_lt
  have hlt := w.value_lt
  refine LittleEndian.value_inj (by rw [w.store.property, LittleEndian.length_bytes]) ?_
  rw [LittleEndian.value_bytes_of_lt hlt, store, value]
  simp only [LittleEndian.value_append, store32Le_eq, LittleEndian.value_bytes,
    List.length_append, LittleEndian.length_bytes]
  omega

/-! ## The key -/

/-- The clamp of the key: 22 bits cleared. -/
def clamp (r : Nat) : Nat := r &&& 0x0ffffffc0ffffffc0ffffffc0fffffff

/-- A mask, cut at a bit. -/
theorem and_split (a b k : Nat) :
    a &&& b = ((a % 2 ^ k) &&& (b % 2 ^ k)) + 2 ^ k * ((a / 2 ^ k) &&& (b / 2 ^ k)) := by
  rw [← Nat.and_mod_two_pow, ← Nat.and_div_two_pow, Nat.mod_add_div]

/-- A mask of `k` bits looks at `k` bits. -/
theorem and_mask_mod {m k : Nat} (a : Nat) (hm : m < 2 ^ k) : a &&& m = (a % 2 ^ k) &&& m := by
  rw [and_split a m k, Nat.mod_eq_of_lt hm, Nat.div_eq_of_lt hm, Nat.and_zero, Nat.mul_zero,
    Nat.add_zero]

theorem clamp_eq (r : Nat) :
    clamp r = ((r % 2 ^ 26) &&& 0x3ffffff) + 2 ^ 26 * ((r / 2 ^ 26 % 2 ^ 26) &&& 0x3ffff03) +
      2 ^ 52 * ((r / 2 ^ 52 % 2 ^ 26) &&& 0x3ffc0ff) +
      2 ^ 78 * ((r / 2 ^ 78 % 2 ^ 26) &&& 0x3f03fff) +
      2 ^ 104 * ((r / 2 ^ 104) &&& 0x00fffff) := by
  rw [clamp, and_split r _ 26, and_split (r / 2 ^ 26) _ 26, and_split (r / 2 ^ 26 / 2 ^ 26) _ 26,
    and_split (r / 2 ^ 26 / 2 ^ 26 / 2 ^ 26) _ 26]
  simp only [Nat.div_div_eq_div_mul, Nat.reducePow, Nat.reduceMul, Nat.reduceDiv, Nat.reduceMod]
  omega

theorem toNat_and_lt {x m : UInt32} {n : Nat} (hm : m.toNat < n) : (x &&& m).toNat < n := by
  rw [UInt32.toNat_and]
  exact Nat.lt_of_le_of_lt Nat.and_le_right hm

theorem poly1305Init_clamped (key : Bytes) : (poly1305Init key).r.Clamped where
  l0_lt := toNat_and_lt (by decide)
  l1_lt := toNat_and_lt (by decide)
  l2_lt := toNat_and_lt (by decide)
  l3_lt := toNat_and_lt (by decide)
  l4_lt := toNat_and_lt (by decide)

/-- A limb of the key: the bits from `26 * i` on, under its part of the mask. -/
theorem toNat_keyLimb {x k m : UInt32} {r n j : Nat} (hk : k.toNat < 32) (hm : m.toNat < 2 ^ j)
    (hj : j + k.toNat ≤ 32) (hx : x.toNat = r / n % 2 ^ 32) :
    ((x >>> k) &&& m).toNat = (r / (n * 2 ^ k.toNat) % 2 ^ j) &&& m.toNat := by
  have hcut : r / n % 2 ^ 32 / 2 ^ k.toNat % 2 ^ j = r / (n * 2 ^ k.toNat) % 2 ^ j := by
    rw [show 32 = k.toNat + (32 - k.toNat) by omega, Nat.pow_add, Nat.mod_mul_right_div_self,
      Nat.div_div_eq_div_mul, Nat.mod_mod_of_dvd _ (Nat.pow_dvd_pow 2 (by omega))]
  rw [UInt32.toNat_and, toNat_shiftRight32 _ hk, hx, and_mask_mod _ hm, hcut]

theorem poly1305Init_r {key : Bytes} (hkey : key.length = 32) :
    (poly1305Init key).r.value = clamp (LittleEndian.value (key.take 16)) := by
  have hR : LittleEndian.value (key.take 16) = LittleEndian.value key % 2 ^ 128 :=
    LittleEndian.value_take key 16
  generalize LittleEndian.value (key.take 16) = R at hR ⊢
  have w0 : (u8to32 key).toNat = R % 2 ^ 32 := by
    rw [u8to32, toNat_load32Le (by omega), hR]
    omega
  have w1 : (u8to32 (key.drop 3)).toNat = R / 2 ^ 24 % 2 ^ 32 := by
    rw [toNat_u8to32_drop (by omega), hR, show 256 ^ 3 = 2 ^ 24 from rfl]
    omega
  have w2 : (u8to32 (key.drop 6)).toNat = R / 2 ^ 48 % 2 ^ 32 := by
    rw [toNat_u8to32_drop (by omega), hR, show 256 ^ 6 = 2 ^ 48 from rfl]
    omega
  have w3 : (u8to32 (key.drop 9)).toNat = R / 2 ^ 72 % 2 ^ 32 := by
    rw [toNat_u8to32_drop (by omega), hR, show 256 ^ 9 = 2 ^ 72 from rfl]
    omega
  have w4 : (u8to32 (key.drop 12)).toNat = R / 2 ^ 96 % 2 ^ 32 := by
    rw [toNat_u8to32_drop (by omega), hR, show 256 ^ 12 = 2 ^ 96 from rfl]
    omega
  have l0 : (poly1305Init key).r.l0.toNat = (R % 2 ^ 26) &&& 0x3ffffff := by
    rw [poly1305Init, UInt32.toNat_and, w0, show (0x3ffffff : UInt32).toNat = 0x3ffffff from rfl,
      and_mask_mod (k := 26) _ (by decide)]
    congr 1
    omega
  have l1 : (poly1305Init key).r.l1.toNat = (R / 2 ^ 26 % 2 ^ 26) &&& 0x3ffff03 :=
    toNat_keyLimb (k := 2) (j := 26) (by decide) (by decide) (by decide) w1
  have l2 : (poly1305Init key).r.l2.toNat = (R / 2 ^ 52 % 2 ^ 26) &&& 0x3ffc0ff :=
    toNat_keyLimb (k := 4) (j := 26) (by decide) (by decide) (by decide) w2
  have l3 : (poly1305Init key).r.l3.toNat = (R / 2 ^ 78 % 2 ^ 26) &&& 0x3f03fff :=
    toNat_keyLimb (k := 6) (j := 26) (by decide) (by decide) (by decide) w3
  have l4 : (poly1305Init key).r.l4.toNat = (R / 2 ^ 104 % 2 ^ 24) &&& 0x00fffff :=
    toNat_keyLimb (k := 8) (j := 24) (by decide) (by decide) (by decide) w4
  have htop : R / 2 ^ 104 % 2 ^ 24 = R / 2 ^ 104 := Nat.mod_eq_of_lt (by omega)
  rw [Limbs.value, l0, l1, l2, l3, l4, htop, clamp_eq]

theorem poly1305Init_pad {key : Bytes} (hkey : key.length = 32) :
    (poly1305Init key).pad.value = LittleEndian.value (key.drop 16) := by
  have hK := LittleEndian.value_lt key
  rw [hkey] at hK
  rw [LittleEndian.value_drop, Words4.value, poly1305Init,
    toNat_u8to32_drop (by omega), toNat_u8to32_drop (by omega), toNat_u8to32_drop (by omega),
    toNat_u8to32_drop (by omega)]
  omega

end EsphomeApi.Noise
