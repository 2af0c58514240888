/-
EsphomeApi.Bytes — the varint codec of `bytes.cpp`, as the framing uses it:
32-bit values, and a reader with a byte budget that tells a number cut off by
the end of the buffer (`incomplete`) from one that is too long (`overflow`).

`appendVarint_eq` and `decodeVarint_eq` tie the two loops to the base-128
numbers of `Library.Leb128`; nothing later unfolds the loops themselves.
-/
import EsphomeApi.Library.Leb128

namespace EsphomeApi

open Library

/-- `ByteBuffer` and `ByteView`: an owned or borrowed run of bytes. -/
abbrev Bytes := List UInt8

/-! ## `append_varint` -/

/-- The loop of `append_varint`, at most `fuel` continuation bytes. -/
def appendVarintLoop : Nat → UInt32 → Bytes
  | 0, value => [value.toUInt8]
  | fuel + 1, value =>
      if value ≥ 0x80 then (value.toUInt8 ||| 0x80) :: appendVarintLoop fuel (value >>> 7)
      else [value.toUInt8]

/-- `append_varint`. Four continuation bytes are enough for 32 bits. -/
def appendVarint (out : Bytes) (value : UInt32) : Bytes := out ++ appendVarintLoop 4 value

theorem appendVarintLoop_eq : ∀ (fuel : Nat) (value : UInt32),
    value.toNat < 128 ^ (fuel + 1) → appendVarintLoop fuel value = Leb128.encode value.toNat
  | 0, value, h => by
      rw [appendVarintLoop, Leb128.encode_of_lt (by simpa using h), List.singleton_inj,
        ← UInt8.toNat_inj, UInt32.toNat_toUInt8, UInt8.toNat_ofNat']
  | fuel + 1, value, h => by
      by_cases hv : value ≥ 0x80
      · have hge : 128 ≤ value.toNat := by simpa [UInt32.le_iff_toNat_le] using hv
        have hshift : (value >>> 7).toNat = value.toNat / 128 := by
          rw [UInt32.toNat_shiftRight]
          simp [Nat.shiftRight_eq_div_pow]
        have hlt : (value >>> 7).toNat < 128 ^ (fuel + 1) := by
          rw [hshift, Nat.div_lt_iff_lt_mul (by decide), ← Nat.pow_succ]
          exact h
        rw [appendVarintLoop, if_pos hv, Leb128.encode_of_ge hge,
          appendVarintLoop_eq fuel _ hlt, hshift, List.cons.injEq]
        refine ⟨?_, rfl⟩
        rw [← UInt8.toNat_inj, Leb128.toNat_or_continue, UInt32.toNat_toUInt8,
          UInt8.toNat_ofNat']
        omega
      · have hlt : value.toNat < 128 := by simpa [UInt32.le_iff_toNat_le] using hv
        rw [appendVarintLoop, if_neg hv, Leb128.encode_of_lt hlt, List.singleton_inj,
          ← UInt8.toNat_inj, UInt32.toNat_toUInt8, UInt8.toNat_ofNat']

/-- `append_varint` writes the base-128 form of the value. -/
theorem appendVarint_eq (out : Bytes) (value : UInt32) :
    appendVarint out value = out ++ Leb128.encode value.toNat := by
  have h := value.toNat_lt
  rw [appendVarint, appendVarintLoop_eq 4 value (by omega)]

/-! ## `decode_varint` -/

inductive VarintStatus where
  | ok (value : UInt32) (consumed : Nat)
  | incomplete
  | overflow
  deriving DecidableEq, Repr

/-- The loop of `decode_varint` from index `i` on, `result` read so far. -/
def decodeVarintLoop (maxBytes : Nat) : Nat → UInt64 → Bytes → VarintStatus
  | i, _, [] => if i ≥ maxBytes then .overflow else .incomplete
  | i, result, byte :: data =>
      if i ≥ maxBytes then .overflow
      else
        let result := result ||| ((byte &&& 0x7F).toUInt64 <<< UInt64.ofNat (7 * i))
        if byte &&& 0x80 = 0 then
          if result > 0xFFFFFFFF then .overflow else .ok result.toUInt32 (i + 1)
        else decodeVarintLoop maxBytes (i + 1) result data

/-- `decode_varint`. -/
def decodeVarint (data : Bytes) (maxBytes : Nat) : VarintStatus :=
  decodeVarintLoop maxBytes 0 0 data

/-- The verdict of `decode_varint` at index `i`, with `result` read so far,
when the rest of the number reads as given from `len` bytes. -/
def VarintStatus.ofResult (i result len : Nat) : Leb128.Result → VarintStatus
  | .incomplete => .incomplete
  | .overflow => .overflow
  | .done v rest =>
      if result + v * 2 ^ (7 * i) > 0xFFFFFFFF then .overflow
      else .ok (UInt32.ofNat (result + v * 2 ^ (7 * i))) (i + len - rest.length)

/-- A digit already ORed in and a digit pushed in front are the same thing. -/
theorem VarintStatus.ofResult_push (i result len d : Nat) (r : Leb128.Result) :
    VarintStatus.ofResult i result (len + 1) (r.push d)
      = VarintStatus.ofResult (i + 1) (result + d * 2 ^ (7 * i)) len r := by
  cases r with
  | incomplete => rfl
  | overflow => rfl
  | done v rest =>
      have hval : result + (d + 128 * v) * 2 ^ (7 * i)
          = result + d * 2 ^ (7 * i) + v * 2 ^ (7 * (i + 1)) := by
        rw [show 7 * (i + 1) = 7 + 7 * i by omega, Nat.pow_add, Nat.add_mul,
          Nat.mul_comm 128 v, Nat.mul_assoc, Nat.add_assoc]
      simp only [Leb128.Result.push, VarintStatus.ofResult, hval,
        show i + (len + 1) = i + 1 + len by omega]

/-- Nine digits fit a 64-bit word, so the loop loses no bit before the range
check. -/
theorem decodeVarintLoop_eq {maxBytes : Nat} (hmax : maxBytes ≤ 9) :
    ∀ (n i : Nat) (result : UInt64) (data : Bytes), i + n = maxBytes →
      result.toNat < 2 ^ (7 * i) →
      decodeVarintLoop maxBytes i result data
        = .ofResult i result.toNat data.length (Leb128.decode n data)
  | 0, i, result, data, hi, _ => by
      have hge : i ≥ maxBytes := by omega
      cases data <;> simp [decodeVarintLoop, Leb128.decode, hge, VarintStatus.ofResult]
  | n + 1, i, result, [], hi, _ => by
      have hlt : ¬ i ≥ maxBytes := by omega
      simp [decodeVarintLoop, Leb128.decode, hlt, VarintStatus.ofResult]
  | n + 1, i, result, byte :: data, hi, hres => by
      have hlt : ¬ i ≥ maxBytes := by omega
      have hpow : 2 ^ (7 * (i + 1)) = 128 * 2 ^ (7 * i) := by
        rw [show 7 * (i + 1) = 7 + 7 * i by omega, Nat.pow_add]
      have hword : 2 ^ (7 * (i + 1)) ≤ 2 ^ 64 := Nat.pow_le_pow_right (by decide) (by omega)
      have hdigit : byte.toNat % 128 * 2 ^ (7 * i) ≤ 127 * 2 ^ (7 * i) :=
        Nat.mul_le_mul_right _ (by omega)
      have hor := Leb128.toNat_or_digit result byte (7 * i) (by omega) hres
      rw [Nat.mod_eq_of_lt (by omega)] at hor
      simp only [decodeVarintLoop, if_neg hlt]
      by_cases hb : byte.toNat < 128
      · rw [if_pos ((Leb128.and_continue_eq_zero byte).mpr hb), Leb128.decode_cons_last hb]
        rw [Nat.mod_eq_of_lt hb] at hor
        simp only [VarintStatus.ofResult, gt_iff_lt, UInt64.lt_iff_toNat_lt, hor,
          UInt64.reduceToNat, List.length_cons]
        split
        · rfl
        · rw [VarintStatus.ok.injEq, ← UInt32.toNat_inj, UInt64.toNat_toUInt32, hor,
            UInt32.toNat_ofNat']
          exact ⟨rfl, by omega⟩
      · have hmore : ¬ byte &&& 0x80 = 0 := fun h => hb ((Leb128.and_continue_eq_zero byte).mp h)
        rw [if_neg hmore, Leb128.decode_cons_more (by omega), List.length_cons,
          VarintStatus.ofResult_push, ← hor]
        exact decodeVarintLoop_eq hmax n (i + 1) _ data (by omega) (by omega)

/-- `decode_varint` reads a base-128 number within its budget and then checks
that it fits 32 bits. -/
theorem decodeVarint_eq (data : Bytes) {maxBytes : Nat} (hmax : maxBytes ≤ 9) :
    decodeVarint data maxBytes
      = .ofResult 0 0 data.length (Leb128.decode maxBytes data) :=
  decodeVarintLoop_eq hmax maxBytes 0 0 data (by omega) (by simp)

end EsphomeApi
