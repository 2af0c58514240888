/-
EsphomeApi.Library.LittleEndian — byte lists as numbers, lowest byte first.

`value` reads a list and `bytes k` writes the `k` lowest bytes of a number;
each undoes the other up to the length (`bytes_value`, `value_bytes`). Words
cut out of the middle of a list are quotients and remainders of its value
(`value_drop`, `value_take`), which is what arithmetic on limbs works with.
-/
import Mathlib.Algebra.GroupWithZero.Nat
import Mathlib.Data.Nat.Digits.Defs

namespace EsphomeApi.Library.LittleEndian

/-- The number whose bytes these are, lowest first. -/
def value (l : List UInt8) : Nat := Nat.ofDigits 256 (l.map UInt8.toNat)

/-- The `k` lowest bytes of a number. -/
def bytes : Nat → Nat → List UInt8
  | 0, _ => []
  | k + 1, n => UInt8.ofNat n :: bytes k (n / 256)

@[simp] theorem value_nil : value [] = 0 := rfl

@[simp] theorem value_cons (b : UInt8) (l : List UInt8) :
    value (b :: l) = b.toNat + 256 * value l := by
  rw [value, List.map_cons, Nat.ofDigits_cons, value]

theorem value_append (l m : List UInt8) :
    value (l ++ m) = value l + 256 ^ l.length * value m := by
  rw [value, List.map_append, Nat.ofDigits_append, List.length_map, value, value]

@[simp] theorem value_replicate_zero (k : Nat) : value (List.replicate k 0) = 0 := by
  rw [value, List.map_replicate]
  exact Nat.ofDigits_replicate_zero

theorem value_lt (l : List UInt8) : value l < 256 ^ l.length := by
  have h := Nat.ofDigits_lt_base_pow_length (b := 256) (l := l.map UInt8.toNat) (by decide) <| by
    intro x hx
    obtain ⟨b, -, rfl⟩ := List.mem_map.mp hx
    exact b.toNat_lt
  rwa [List.length_map] at h

theorem value_take (l : List UInt8) (k : Nat) : value (l.take k) = value l % 256 ^ k := by
  rw [value, List.map_take, value]
  refine (Nat.ofDigits_mod_pow_eq_ofDigits_take k (by decide) _ fun x hx => ?_).symm
  obtain ⟨b, -, rfl⟩ := List.mem_map.mp hx
  exact b.toNat_lt

theorem value_drop (l : List UInt8) (k : Nat) : value (l.drop k) = value l / 256 ^ k := by
  rw [value, List.map_drop, value]
  refine (Nat.ofDigits_div_pow_eq_ofDigits_drop k (by decide) _ fun x hx => ?_).symm
  obtain ⟨b, -, rfl⟩ := List.mem_map.mp hx
  exact b.toNat_lt

@[simp] theorem length_bytes : ∀ k n : Nat, (bytes k n).length = k
  | 0, _ => rfl
  | k + 1, n => congrArg (· + 1) (length_bytes k (n / 256))

theorem value_bytes : ∀ k n : Nat, value (bytes k n) = n % 256 ^ k
  | 0, n => by simp [bytes, Nat.mod_one]
  | k + 1, n => by
      rw [bytes, value_cons, value_bytes k (n / 256), Nat.pow_succ', Nat.mod_mul]
      exact congrArg (· + 256 * (n / 256 % 256 ^ k)) UInt8.toNat_ofNat'

theorem value_bytes_of_lt {k n : Nat} (h : n < 256 ^ k) : value (bytes k n) = n := by
  rw [value_bytes, Nat.mod_eq_of_lt h]

theorem bytes_value : ∀ l : List UInt8, bytes l.length (value l) = l
  | [] => rfl
  | b :: l => by
      have hb := b.toNat_lt
      have hhead : UInt8.ofNat (b.toNat + 256 * value l) = b := by
        rw [← UInt8.toNat_inj, UInt8.toNat_ofNat']
        omega
      have htail : (b.toNat + 256 * value l) / 256 = value l := by omega
      rw [List.length_cons, value_cons, bytes, hhead, htail, bytes_value l]

/-- Lists of one length with one value are equal. -/
theorem value_inj {l m : List UInt8} (hlen : l.length = m.length) (h : value l = value m) :
    l = m := by
  rw [← bytes_value l, ← bytes_value m, hlen, h]

/-- Only the value modulo `256 ^ k` is written. -/
theorem bytes_mod (k n : Nat) : bytes k (n % 256 ^ k) = bytes k n := by
  refine value_inj (by simp) ?_
  rw [value_bytes, value_bytes, Nat.mod_mod]

/-- The bytes one by one. -/
theorem bytes_eq_map : ∀ k n : Nat,
    bytes k n = (List.range k).map fun i => UInt8.ofNat (n / 256 ^ i)
  | 0, _ => rfl
  | k + 1, n => by
      have htail : ∀ i, n / 256 / 256 ^ i = n / 256 ^ (i + 1) := by
        intro i
        rw [Nat.div_div_eq_div_mul, Nat.pow_succ']
      rw [bytes, bytes_eq_map k, List.range_succ_eq_map, List.map_cons, List.map_map,
        Nat.pow_zero, Nat.div_one]
      exact congrArg _ (List.map_congr_left fun i _ => congrArg UInt8.ofNat (htail i))

/-- The bits of a number are those of its bytes. -/
theorem testBit_value (l : List UInt8) (i : Nat) :
    (value l).testBit i = (l.getD (i / 8) 0).toNat.testBit (i % 8) := by
  have hsplit : i = i % 8 + 8 * (i / 8) := (Nat.mod_add_div i 8).symm
  have hbyte : value (l.drop (i / 8)) % 2 ^ 8 = (l.getD (i / 8) 0).toNat := by
    rw [List.getD_eq_getElem?_getD, ← List.head?_drop]
    cases l.drop (i / 8) with
    | nil => rfl
    | cons b m =>
        have hb := b.toNat_lt
        rw [value_cons, List.head?_cons, Option.getD_some]
        omega
  have hpow : (256 : Nat) ^ (i / 8) = 2 ^ (8 * (i / 8)) := by rw [Nat.pow_mul]
  rw [← hbyte, Nat.testBit_mod_two_pow, value_drop, hpow, Nat.testBit_div_two_pow, ← hsplit,
    decide_eq_true (Nat.mod_lt i (by decide)), Bool.true_and]

end EsphomeApi.Library.LittleEndian
