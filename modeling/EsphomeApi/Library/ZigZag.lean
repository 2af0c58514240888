/-
EsphomeApi.Library.ZigZag — the zigzag code of signed numbers, over words of
any width: the sign goes to bit 0, and the magnitude above it.
-/
import Mathlib.Data.List.Basic

namespace EsphomeApi.Library.ZigZag

variable {w : Nat}

def encode (v : BitVec w) : BitVec w := (v <<< 1) ^^^ v.sshiftRight (w - 1)

def decode (v : BitVec w) : BitVec w := (v >>> 1) ^^^ (~~~(v &&& 1#w) + 1#w)

/-- The arithmetic shift spreads the sign over the word. -/
theorem getLsbD_sshiftRight_sign (v : BitVec w) {i : Nat} (hi : i < w) :
    (v.sshiftRight (w - 1)).getLsbD i = v.msb := by
  rw [BitVec.getLsbD_sshiftRight, decide_eq_false (by omega), Bool.not_false, Bool.true_and]
  by_cases h0 : i = 0
  · subst h0
    rw [if_pos (by omega), BitVec.msb_eq_getLsbD_last, Nat.add_zero]
  · rw [if_neg (by omega)]

/-- Negating bit 0 spreads it over the word. -/
theorem getLsbD_neg_low (v : BitVec w) {i : Nat} (hi : i < w) :
    (~~~(v &&& 1#w) + 1#w).getLsbD i = v.getLsbD 0 := by
  rw [← BitVec.neg_eq_not_add]
  cases hlow : v.getLsbD 0 with
  | true =>
      have hand : v &&& 1#w = 1#w := by
        refine BitVec.eq_of_getLsbD_eq fun j hj => ?_
        rw [BitVec.getLsbD_and, BitVec.getLsbD_one]
        by_cases h0 : j = 0
        · subst h0
          simp [hlow]
        · simp [h0]
      rw [hand, BitVec.neg_one_eq_allOnes]
      simp [hi]
  | false =>
      have hand : v &&& 1#w = 0#w := by
        refine BitVec.eq_of_getLsbD_eq fun j hj => ?_
        rw [BitVec.getLsbD_and, BitVec.getLsbD_one]
        by_cases h0 : j = 0
        · subst h0
          simp [hlow]
        · simp [h0]
      rw [hand, BitVec.neg_zero, BitVec.getLsbD_zero]

theorem decode_encode (v : BitVec w) : decode (encode v) = v := by
  refine BitVec.eq_of_getLsbD_eq fun i hi => ?_
  have hlow : (encode v).getLsbD 0 = v.msb := by
    rw [encode, BitVec.getLsbD_xor, getLsbD_sshiftRight_sign v (by omega), BitVec.getLsbD_shiftLeft]
    simp
  rw [decode, BitVec.getLsbD_xor, getLsbD_neg_low _ hi, hlow, BitVec.getLsbD_ushiftRight]
  by_cases hlast : 1 + i < w
  · rw [encode, BitVec.getLsbD_xor, getLsbD_sshiftRight_sign v hlast, BitVec.getLsbD_shiftLeft]
    simp [hlast]
  · -- the sign bit itself
    have hsign : v.msb = v.getLsbD i := by
      rw [BitVec.msb_eq_getLsbD_last]
      congr 1
      omega
    rw [BitVec.getLsbD_of_ge _ _ (by omega), Bool.false_xor, hsign]

end EsphomeApi.Library.ZigZag
