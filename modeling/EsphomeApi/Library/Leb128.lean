/-
EsphomeApi.Library.Leb128 — numbers written in base 128, least significant
digit first, seven bits to a byte, with the high bit of a byte saying that
another byte follows.

The reader takes a BUDGET of bytes, because every real reader has one: the
input can end inside a number (`incomplete`) or spend the whole budget on
continuation bytes (`overflow`), and the two answers must not be confused
when more input can still arrive. `decode_append_done` and
`decode_append_overflow` say that a verdict reached on a prefix stands for
every extension of it; `decode_encode` is the round trip.

The last section is about the loops such codecs are written as: a 64-bit word
into which each digit is shifted and ORed (`toNat_or_digit`), and a byte whose
high bit is tested or set by a mask.
-/
import Mathlib.Algebra.Group.Nat.Defs
import Mathlib.Data.List.Basic

namespace EsphomeApi.Library.Leb128

/-! ## Writing -/

/-- The digits of `n`, at most `fuel + 1` of them. -/
def encodeFuel : Nat → Nat → List UInt8
  | 0, n => [UInt8.ofNat n]
  | fuel + 1, n =>
      if n < 128 then [UInt8.ofNat n]
      else UInt8.ofNat (n % 128 + 128) :: encodeFuel fuel (n / 128)

/-- The base-128 form of `n`. -/
def encode (n : Nat) : List UInt8 := encodeFuel n n

theorem encodeFuel_congr : ∀ (f g n : Nat), n ≤ f → n ≤ g → encodeFuel f n = encodeFuel g n
  | 0, 0, _, _, _ => rfl
  | 0, g + 1, n, hf, _ => by
      have hn : n < 128 := by omega
      simp [encodeFuel, hn]
  | f + 1, 0, n, _, hg => by
      have hn : n < 128 := by omega
      simp [encodeFuel, hn]
  | f + 1, g + 1, n, hf, hg => by
      by_cases hn : n < 128
      · simp [encodeFuel, hn]
      · simp only [encodeFuel, hn, if_false]
        rw [encodeFuel_congr f g (n / 128) (by omega) (by omega)]

/-- One digit and the rest: the equation of the writing loop. -/
theorem encode_eq (n : Nat) :
    encode n = if n < 128 then [UInt8.ofNat n]
      else UInt8.ofNat (n % 128 + 128) :: encode (n / 128) := by
  cases n with
  | zero => rfl
  | succ m =>
      rw [encode, encodeFuel]
      split
      · rfl
      · rw [encode, encodeFuel_congr m ((m + 1) / 128) _ (by omega) (by omega)]

theorem encode_of_lt {n : Nat} (h : n < 128) : encode n = [UInt8.ofNat n] := by
  rw [encode_eq, if_pos h]

theorem encode_of_ge {n : Nat} (h : 128 ≤ n) :
    encode n = UInt8.ofNat (n % 128 + 128) :: encode (n / 128) := by
  rw [encode_eq, if_neg (by omega)]

theorem encode_ne_nil (n : Nat) : encode n ≠ [] := by
  rw [encode_eq]
  split <;> simp

/-! ## Reading -/

/-- What reading a number from a byte string can give. -/
inductive Result where
  | incomplete
  | overflow
  | done (value : Nat) (rest : List UInt8)
  deriving DecidableEq, Repr

/-- Put the digit `d` in front of a number already read. -/
def Result.push (d : Nat) : Result → Result
  | .incomplete => .incomplete
  | .overflow => .overflow
  | .done v rest => .done (d + 128 * v) rest

/-- Read one number from at most `budget` bytes. -/
def decode : Nat → List UInt8 → Result
  | 0, _ => .overflow
  | _ + 1, [] => .incomplete
  | budget + 1, b :: bs =>
      if b.toNat < 128 then .done b.toNat bs
      else (decode budget bs).push (b.toNat % 128)

theorem decode_cons_last {budget : Nat} {b : UInt8} {bs : List UInt8} (h : b.toNat < 128) :
    decode (budget + 1) (b :: bs) = .done b.toNat bs := by
  rw [decode, if_pos h]

theorem decode_cons_more {budget : Nat} {b : UInt8} {bs : List UInt8} (h : 128 ≤ b.toNat) :
    decode (budget + 1) (b :: bs) = (decode budget bs).push (b.toNat % 128) := by
  rw [decode, if_neg (by omega)]

theorem Result.push_eq_done {d v : Nat} {rest : List UInt8} {r : Result}
    (h : r.push d = .done v rest) : ∃ u, r = .done u rest ∧ v = d + 128 * u := by
  cases r with
  | incomplete => simp [Result.push] at h
  | overflow => simp [Result.push] at h
  | done u s =>
      simp only [Result.push, Result.done.injEq] at h
      obtain ⟨rfl, rfl⟩ := h
      exact ⟨u, rfl, rfl⟩

theorem Result.push_eq_overflow {d : Nat} {r : Result} (h : r.push d = .overflow) :
    r = .overflow := by
  cases r <;> simp [Result.push] at h ⊢

/-- Round trip: what `encode` writes is read back, and nothing after it. -/
theorem decode_encode : ∀ (k n : Nat) (rest : List UInt8), n < 128 ^ (k + 1) →
    decode (k + 1) (encode n ++ rest) = .done n rest
  | k, n, rest, h => by
      by_cases hn : n < 128
      · have hb : (UInt8.ofNat n).toNat = n := by
          rw [UInt8.toNat_ofNat']; omega
        rw [encode_of_lt hn, List.singleton_append, decode_cons_last (by omega), hb]
      · have hb : (UInt8.ofNat (n % 128 + 128)).toNat = n % 128 + 128 := by
          rw [UInt8.toNat_ofNat']; omega
        rw [encode_of_ge (by omega), List.cons_append, decode_cons_more (by omega), hb]
        match k with
        | 0 => simp at h; omega
        | k + 1 =>
            have hdiv : n / 128 < 128 ^ (k + 1) := by
              rw [Nat.div_lt_iff_lt_mul (by decide), ← Nat.pow_succ]
              exact h
            rw [decode_encode k (n / 128) rest hdiv, Result.push, Result.done.injEq]
            exact ⟨by omega, rfl⟩

/-- A number read from a prefix is read from every extension of it. -/
theorem decode_append_done : ∀ {budget : Nat} {x rest : List UInt8} {v : Nat} (y : List UInt8),
    decode budget x = .done v rest → decode budget (x ++ y) = .done v (rest ++ y)
  | 0, _, _, _, _, h => by simp [decode] at h
  | _ + 1, [], _, _, _, h => by simp [decode] at h
  | budget + 1, b :: bs, rest, v, y, h => by
      by_cases hb : b.toNat < 128
      · rw [decode_cons_last hb, Result.done.injEq] at h
        obtain ⟨rfl, rfl⟩ := h
        rw [List.cons_append, decode_cons_last hb]
      · rw [decode_cons_more (by omega)] at h
        obtain ⟨u, hu, rfl⟩ := Result.push_eq_done h
        rw [List.cons_append, decode_cons_more (by omega), decode_append_done y hu]
        rfl

/-- An overflow on a prefix is an overflow on every extension of it. -/
theorem decode_append_overflow : ∀ {budget : Nat} {x : List UInt8} (y : List UInt8),
    decode budget x = .overflow → decode budget (x ++ y) = .overflow
  | 0, _, _, _ => rfl
  | _ + 1, [], _, h => by simp [decode] at h
  | budget + 1, b :: bs, y, h => by
      by_cases hb : b.toNat < 128
      · rw [decode_cons_last hb] at h
        cases h
      · rw [decode_cons_more (by omega)] at h
        rw [List.cons_append, decode_cons_more (by omega),
          decode_append_overflow y (Result.push_eq_overflow h)]
        rfl

/-- A number that was read took at least one byte, off the front. -/
theorem decode_done_split : ∀ {budget : Nat} {x rest : List UInt8} {v : Nat},
    decode budget x = .done v rest → ∃ pre, x = pre ++ rest ∧ 0 < pre.length
  | 0, _, _, _, h => by simp [decode] at h
  | _ + 1, [], _, _, h => by simp [decode] at h
  | budget + 1, b :: bs, rest, v, h => by
      by_cases hb : b.toNat < 128
      · rw [decode_cons_last hb, Result.done.injEq] at h
        exact ⟨[b], by simp [h.2], by simp⟩
      · rw [decode_cons_more (by omega)] at h
        obtain ⟨u, hu, -⟩ := Result.push_eq_done h
        obtain ⟨pre, rfl, -⟩ := decode_done_split hu
        exact ⟨b :: pre, by simp, by simp⟩

/-- A number is read off the bytes it takes as it is off a longer input. -/
theorem decode_done_piece : ∀ {budget : Nat} {x rest : List UInt8} {v : Nat},
    decode budget x = .done v rest → ∃ pre, x = pre ++ rest ∧ decode budget pre = .done v []
  | 0, _, _, _, h => by simp [decode] at h
  | _ + 1, [], _, _, h => by simp [decode] at h
  | budget + 1, b :: bs, rest, v, h => by
      by_cases hb : b.toNat < 128
      · rw [decode_cons_last hb, Result.done.injEq] at h
        obtain ⟨rfl, rfl⟩ := h
        exact ⟨[b], rfl, decode_cons_last hb⟩
      · rw [decode_cons_more (by omega)] at h
        obtain ⟨u, hu, rfl⟩ := Result.push_eq_done h
        obtain ⟨pre, rfl, hpre⟩ := decode_done_piece hu
        refine ⟨b :: pre, rfl, ?_⟩
        rw [decode_cons_more (by omega), hpre]
        rfl

theorem decode_done_length {budget : Nat} {x rest : List UInt8} {v : Nat}
    (h : decode budget x = .done v rest) : rest.length < x.length := by
  obtain ⟨pre, rfl, hpos⟩ := decode_done_split h
  rw [List.length_append]
  omega

/-- A number read within a budget is bounded by it. -/
theorem decode_done_lt : ∀ {budget : Nat} {x rest : List UInt8} {v : Nat},
    decode budget x = .done v rest → v < 128 ^ budget
  | 0, _, _, _, h => by simp [decode] at h
  | _ + 1, [], _, _, h => by simp [decode] at h
  | budget + 1, b :: bs, rest, v, h => by
      by_cases hb : b.toNat < 128
      · rw [decode_cons_last hb, Result.done.injEq] at h
        obtain ⟨rfl, -⟩ := h
        have : 0 < 128 ^ budget := Nat.pow_pos (by decide)
        rw [Nat.pow_succ]
        omega
      · rw [decode_cons_more (by omega)] at h
        obtain ⟨u, hu, rfl⟩ := Result.push_eq_done h
        have := decode_done_lt hu
        rw [Nat.pow_succ]
        omega

/-! ## Digits in machine words -/

/-- Masking off the continuation bit leaves the digit. -/
theorem toNat_and_digit (b : UInt8) : (b &&& 0x7F).toNat = b.toNat % 128 := by
  rw [UInt8.toNat_and]
  exact Nat.and_two_pow_sub_one_eq_mod b.toNat 7

/-- Testing the continuation bit. -/
theorem and_continue_eq_zero (b : UInt8) : b &&& 0x80 = 0 ↔ b.toNat < 128 := by
  have hbit : ∀ n : Fin 256, n.val &&& 128 = n.val / 128 * 128 := by decide +kernel
  have hb : (b &&& 0x80).toNat = b.toNat / 128 * 128 := by
    rw [UInt8.toNat_and]
    exact hbit ⟨b.toNat, b.toNat_lt⟩
  rw [← UInt8.toNat_inj, hb, UInt8.toNat_zero]
  omega

/-- Setting the continuation bit on the low byte of a word. -/
theorem toNat_or_continue (b : UInt8) : (b ||| 0x80).toNat = b.toNat % 128 + 128 := by
  have hbit : ∀ n : Fin 256, n.val ||| 128 = n.val % 128 + 128 := by decide +kernel
  rw [UInt8.toNat_or]
  exact hbit ⟨b.toNat, b.toNat_lt⟩

/-- ORing a number in above the accumulator adds it there; what is shifted past
64 bits is lost. -/
theorem or_shiftLeft_mod (acc digit : Nat) {shift : Nat} (hs : shift < 64)
    (hacc : acc < 2 ^ shift) :
    acc ||| digit <<< shift % 2 ^ 64 = acc + digit * 2 ^ shift % 2 ^ 64 := by
  have hpow : 2 ^ 64 = 2 ^ shift * 2 ^ (64 - shift) := by
    rw [← Nat.pow_add]
    congr 1
    omega
  rw [Nat.shiftLeft_eq, Nat.mul_comm digit, hpow, Nat.mul_mod_mul_left, Nat.or_comm,
    ← Nat.two_pow_add_eq_or_of_lt hacc, Nat.add_comm]

/-- One digit of the loop: the bits below are the digits read before. -/
theorem toNat_or_digit (acc : UInt64) (b : UInt8) (shift : Nat) (hs : shift < 64)
    (hacc : acc.toNat < 2 ^ shift) :
    (acc ||| ((b &&& 0x7F).toUInt64 <<< UInt64.ofNat shift)).toNat
      = acc.toNat + b.toNat % 128 * 2 ^ shift % 2 ^ 64 := by
  have hword : (UInt64.ofNat shift).toNat % 64 = shift := by
    rw [UInt64.toNat_ofNat']
    omega
  rw [UInt64.toNat_or, UInt64.toNat_shiftLeft, UInt8.toNat_toUInt64, toNat_and_digit, hword]
  exact or_shiftLeft_mod acc.toNat _ hs hacc

end EsphomeApi.Library.Leb128
