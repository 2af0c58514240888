/-
EsphomeApi.Crypto.ChaCha20 — the stream cipher of `chacha20poly1305.cpp`.

`chacha20_xor` works block by block and cuts the last block off where the
input ends. What it computes is stated byte by byte (`chacha20Xor_eq`):
byte `j` of the input meets byte `j % 64` of the block for `counter + j / 64`,
the counter wrapping at 32 bits. From this alone, applying it twice gives the
input back, and a long input may be cut at any block boundary.
-/
import EsphomeApi.Crypto.Primitives
import EsphomeApi.Library.LittleEndian

namespace EsphomeApi.Noise

open Library

/-! ## Words in little-endian order -/

/-- `load32_le`, from the first four bytes of `p`. -/
def load32Le (p : Bytes) : UInt32 :=
  (p.getD 0 0).toUInt32 ||| ((p.getD 1 0).toUInt32 <<< 8) |||
    ((p.getD 2 0).toUInt32 <<< 16) ||| ((p.getD 3 0).toUInt32 <<< 24)

/-- `store32_le`. -/
def store32Le (v : UInt32) : Bytes :=
  [v.toUInt8, (v >>> 8).toUInt8, (v >>> 16).toUInt8, (v >>> 24).toUInt8]

@[simp] theorem length_store32Le (v : UInt32) : (store32Le v).length = 4 := rfl

/-- Bits above and bits below a position do not meet. -/
theorem shiftLeft_or_eq_add {a b k : Nat} (hb : b < 2 ^ k) : b ||| a <<< k = b + a * 2 ^ k := by
  rw [Nat.or_comm, Nat.shiftLeft_eq, Nat.mul_comm, ← Nat.two_pow_add_eq_or_of_lt hb, Nat.add_comm]

theorem toNat_byte_shiftLeft (b : UInt8) {k : UInt32} (hk : k.toNat ≤ 24) :
    (b.toUInt32 <<< k).toNat = b.toNat <<< k.toNat := by
  have hlt : b.toNat <<< k.toNat < 2 ^ 32 := by
    have hb : b.toNat < 2 ^ 8 := b.toNat_lt
    calc b.toNat <<< k.toNat = b.toNat * 2 ^ k.toNat := Nat.shiftLeft_eq _ _
      _ ≤ b.toNat * 2 ^ 24 := Nat.mul_le_mul_left _ (Nat.pow_le_pow_right (by decide) hk)
      _ < 2 ^ 32 := by omega
  have hkmod : k.toNat % 32 = k.toNat := Nat.mod_eq_of_lt (by omega)
  rw [UInt32.toNat_shiftLeft, UInt8.toNat_toUInt32, hkmod, Nat.mod_eq_of_lt hlt]

/-- `load32_le` reads the number that the four bytes make. -/
theorem toNat_load32Le {p : Bytes} (hp : 4 ≤ p.length) :
    (load32Le p).toNat = LittleEndian.value p % 2 ^ 32 := by
  obtain ⟨b0, b1, b2, b3, rest, rfl⟩ : ∃ b0 b1 b2 b3 rest, p = b0 :: b1 :: b2 :: b3 :: rest := by
    match p, hp with
    | b0 :: b1 :: b2 :: b3 :: rest, _ => exact ⟨b0, b1, b2, b3, rest, rfl⟩
  have h0 : b0.toNat < 2 ^ 8 := b0.toNat_lt
  have h1 : b1.toNat < 2 ^ 8 := b1.toNat_lt
  have h2 : b2.toNat < 2 ^ 8 := b2.toNat_lt
  have h3 : b3.toNat < 2 ^ 8 := b3.toNat_lt
  simp only [load32Le, List.getD_cons_zero, List.getD_cons_succ, UInt32.toNat_or,
    UInt8.toNat_toUInt32, toNat_byte_shiftLeft _ (show (8 : UInt32).toNat ≤ 24 by decide),
    toNat_byte_shiftLeft _ (show (16 : UInt32).toNat ≤ 24 by decide),
    toNat_byte_shiftLeft _ (show (24 : UInt32).toNat ≤ 24 by decide),
    show (8 : UInt32).toNat = 8 from rfl, show (16 : UInt32).toNat = 16 from rfl,
    show (24 : UInt32).toNat = 24 from rfl]
  rw [shiftLeft_or_eq_add (k := 8) h0, shiftLeft_or_eq_add (k := 16) (by omega),
    shiftLeft_or_eq_add (k := 24) (by omega)]
  simp only [LittleEndian.value_cons]
  omega

theorem store32Le_eq (v : UInt32) : store32Le v = LittleEndian.bytes 4 v.toNat := by
  have hshift : ∀ k : UInt32, k.toNat < 32 →
      (v >>> k).toUInt8 = UInt8.ofNat (v.toNat / 2 ^ k.toNat) := by
    intro k hk
    rw [← UInt8.toNat_inj, UInt32.toNat_toUInt8, UInt32.toNat_shiftRight, UInt8.toNat_ofNat',
      Nat.mod_eq_of_lt hk, Nat.shiftRight_eq_div_pow]
  have h0 : v.toUInt8 = UInt8.ofNat v.toNat := by
    rw [← UInt8.toNat_inj, UInt32.toNat_toUInt8, UInt8.toNat_ofNat']
  rw [store32Le, h0, hshift 8 (by decide), hshift 16 (by decide), hshift 24 (by decide)]
  simp [LittleEndian.bytes, Nat.div_div_eq_div_mul]

/-! ## The block function -/

def rotl32 (x : UInt32) (n : UInt32) : UInt32 := (x <<< n) ||| (x >>> (32 - n))

/-- `quarter_round`, on the values of its four references. -/
def quarterRound (a b c d : UInt32) : UInt32 × UInt32 × UInt32 × UInt32 :=
  let a := a + b
  let d := d ^^^ a
  let d := rotl32 d 16
  let c := c + d
  let b := b ^^^ c
  let b := rotl32 b 12
  let a := a + b
  let d := d ^^^ a
  let d := rotl32 d 8
  let c := c + d
  let b := b ^^^ c
  let b := rotl32 b 7
  (a, b, c, d)

/-- `quarter_round` on four words of the state. -/
def quarterRoundAt (w : Vector UInt32 16) (i j k l : Nat) : Vector UInt32 16 :=
  let (a, b, c, d) := quarterRound w[i]! w[j]! w[k]! w[l]!
  (((w.set! i a).set! j b).set! k c).set! l d

/-- The body of the loop over the rounds. -/
def doubleRound (w : Vector UInt32 16) : Vector UInt32 16 :=
  let w := quarterRoundAt w 0 4 8 12
  let w := quarterRoundAt w 1 5 9 13
  let w := quarterRoundAt w 2 6 10 14
  let w := quarterRoundAt w 3 7 11 15
  let w := quarterRoundAt w 0 5 10 15
  let w := quarterRoundAt w 1 6 11 12
  let w := quarterRoundAt w 2 7 8 13
  quarterRoundAt w 3 4 9 14

def chacha20State (key : SymmetricKey) (counter : UInt32) (nonce : Nonce) : Vector UInt32 16 :=
  #v[0x61707865, 0x3320646e, 0x79622d32, 0x6b206574,
    load32Le key.val, load32Le (key.val.drop 4), load32Le (key.val.drop 8),
    load32Le (key.val.drop 12), load32Le (key.val.drop 16), load32Le (key.val.drop 20),
    load32Le (key.val.drop 24), load32Le (key.val.drop 28),
    counter, load32Le nonce.val, load32Le (nonce.val.drop 4), load32Le (nonce.val.drop 8)]

theorem length_storeWords (words : List UInt32) :
    (words.flatMap store32Le).length = 4 * words.length := by
  rw [List.length_flatMap]
  simp [Nat.mul_comm]

theorem length_storeState (w : Vector UInt32 16) : (w.toList.flatMap store32Le).length = 64 := by
  rw [length_storeWords, Vector.length_toList]

/-- `chacha20_block`. -/
def chacha20Block (key : SymmetricKey) (counter : UInt32) (nonce : Nonce) : Octets 64 :=
  let state := chacha20State key counter nonce
  let working := (List.range 10).foldl (fun w _ => doubleRound w) state
  ⟨(Vector.zipWith (· + ·) working state).toList.flatMap store32Le, length_storeState _⟩

/-! ## The stream -/

/-- The loop of `chacha20_xor`, `k` turns of it. -/
def chacha20XorLoop (key : SymmetricKey) (nonce : Nonce) : Nat → UInt32 → Bytes → Bytes
  | 0, _, _ => []
  | k + 1, counter, input =>
      (input.take 64).zipWith (· ^^^ ·) (chacha20Block key counter nonce).val ++
        chacha20XorLoop key nonce k (counter + 1) (input.drop 64)

/-- `chacha20_xor`: one turn for each block, the last one perhaps not full. -/
def chacha20Xor (key : SymmetricKey) (counter : UInt32) (nonce : Nonce) (input : Bytes) : Bytes :=
  chacha20XorLoop key nonce ((input.length + 63) / 64) counter input

/-- Byte `j` of the key stream. -/
def keystreamByte (key : SymmetricKey) (counter : UInt32) (nonce : Nonce) (j : Nat) : UInt8 :=
  (chacha20Block key (counter + UInt32.ofNat (j / 64)) nonce).val.getD (j % 64) 0

theorem keystreamByte_of_lt (key : SymmetricKey) (counter : UInt32) (nonce : Nonce) {j : Nat}
    (hj : j < 64) :
    keystreamByte key counter nonce j = (chacha20Block key counter nonce).val.getD j 0 := by
  rw [keystreamByte, Nat.div_eq_of_lt hj, Nat.mod_eq_of_lt hj, show UInt32.ofNat 0 = 0 from rfl,
    UInt32.add_zero]

theorem keystreamByte_add (key : SymmetricKey) (counter : UInt32) (nonce : Nonce) (k j : Nat) :
    keystreamByte key counter nonce (j + 64 * k) =
      keystreamByte key (counter + UInt32.ofNat k) nonce j := by
  have hcounter : counter + UInt32.ofNat (j / 64 + k) =
      counter + UInt32.ofNat k + UInt32.ofNat (j / 64) := by
    rw [UInt32.ofNat_add, UInt32.add_assoc, UInt32.add_comm (UInt32.ofNat k)]
  rw [keystreamByte, keystreamByte, Nat.add_mul_div_left _ _ (by decide), Nat.add_mul_mod_self_left,
    hcounter]

/-- A block at least as long as the input, met byte by byte. -/
theorem zipWith_xor_eq_mapIdx (input block : Bytes) (h : input.length ≤ block.length) :
    input.zipWith (· ^^^ ·) block = input.mapIdx fun j b => b ^^^ block.getD j 0 := by
  refine List.ext_getElem (by simp [h]) fun j h1 h2 => ?_
  have hj : j < block.length := by
    rw [List.length_mapIdx] at h2
    omega
  rw [List.getElem_zipWith, List.getElem_mapIdx, List.getD_eq_getElem?_getD, List.getElem?_eq_getElem hj,
    Option.getD_some]

theorem chacha20XorLoop_eq (key : SymmetricKey) (nonce : Nonce) :
    ∀ (k : Nat) (counter : UInt32) (input : Bytes), input.length ≤ 64 * k →
      chacha20XorLoop key nonce k counter input =
        input.mapIdx fun j b => b ^^^ keystreamByte key counter nonce j
  | 0, counter, input, h => by
      obtain rfl : input = [] := List.length_eq_zero_iff.mp (by omega)
      rfl
  | k + 1, counter, input, h => by
      have hblock := (chacha20Block key counter nonce).property
      have hrest := chacha20XorLoop_eq key nonce k (counter + 1) (input.drop 64)
        (by rw [List.length_drop]; omega)
      -- within this block
      have hfront : ((input.take 64).mapIdx fun j b =>
            b ^^^ (chacha20Block key counter nonce).val.getD j 0) =
          (input.take 64).mapIdx fun j b => b ^^^ keystreamByte key counter nonce j := by
        refine List.mapIdx_eq_mapIdx_iff.mpr fun j hj => ?_
        rw [List.length_take] at hj
        rw [keystreamByte_of_lt key counter nonce (by omega)]
      -- behind it, where the stream of the rest starts one block later
      have hback : ((input.drop 64).mapIdx fun j b =>
            b ^^^ keystreamByte key (counter + 1) nonce j) =
          (input.drop 64).mapIdx fun j b =>
            b ^^^ keystreamByte key counter nonce (j + (input.take 64).length) := by
        refine List.mapIdx_eq_mapIdx_iff.mpr fun j hj => ?_
        have hfull : (input.take 64).length = 64 * 1 := by
          rw [List.length_drop] at hj
          rw [List.length_take]
          omega
        rw [hfull, keystreamByte_add]
        rfl
      rw [chacha20XorLoop, hrest, zipWith_xor_eq_mapIdx _ _ (by rw [hblock]; simp), hfront, hback,
        ← List.mapIdx_append, List.take_append_drop]

/-- Byte `j` of the input meets byte `j` of the key stream. -/
theorem chacha20Xor_eq (key : SymmetricKey) (counter : UInt32) (nonce : Nonce) (input : Bytes) :
    chacha20Xor key counter nonce input =
      input.mapIdx fun j b => b ^^^ keystreamByte key counter nonce j :=
  chacha20XorLoop_eq key nonce _ counter input (by omega)

@[simp] theorem length_chacha20Xor (key : SymmetricKey) (counter : UInt32) (nonce : Nonce)
    (input : Bytes) : (chacha20Xor key counter nonce input).length = input.length := by
  rw [chacha20Xor_eq, List.length_mapIdx]

/-- Decryption is encryption. -/
theorem chacha20Xor_chacha20Xor (key : SymmetricKey) (counter : UInt32) (nonce : Nonce)
    (input : Bytes) :
    chacha20Xor key counter nonce (chacha20Xor key counter nonce input) = input := by
  rw [chacha20Xor_eq, chacha20Xor_eq, List.mapIdx_mapIdx]
  refine List.ext_getElem (by simp) fun j h1 h2 => ?_
  rw [List.getElem_mapIdx, Function.comp_apply, UInt8.xor_assoc, UInt8.xor_self, UInt8.xor_zero]

/-- An input cut at a block boundary: the second part starts at a later
counter. -/
theorem chacha20Xor_append (key : SymmetricKey) (counter : UInt32) (nonce : Nonce)
    (k : Nat) (front rest : Bytes) (hfront : front.length = 64 * k) :
    chacha20Xor key counter nonce (front ++ rest) =
      chacha20Xor key counter nonce front ++
        chacha20Xor key (counter + UInt32.ofNat k) nonce rest := by
  rw [chacha20Xor_eq, chacha20Xor_eq, chacha20Xor_eq, List.mapIdx_append, hfront]
  simp only [keystreamByte_add]

end EsphomeApi.Noise
