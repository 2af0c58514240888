/-
EsphomeApi.Crypto.Primitives — `primitives.cpp`: HMAC, HKDF, X25519 and the
AEAD of the Noise handshake, over the reference code of `crypto/detail`.

That reference code (SHA-256, Curve25519, ChaCha20-Poly1305) is a parameter
here, `Primitives`. What it is relied on for is stated where it is needed:
`Primitives.AeadInverts` and `Primitives.Agree`.
-/
import EsphomeApi.Bytes
import EsphomeApi.Exception

namespace EsphomeApi.Noise

/-- `std::array<std::uint8_t, n>`. -/
abbrev Octets (n : Nat) : Type := { bytes : Bytes // bytes.length = n }

/-- An array that is not written to. -/
def Octets.zero (n : Nat) : Octets n := ⟨List.replicate n 0, List.length_replicate⟩

/-- The array whose first bytes are those of `bytes` and the rest zero. -/
def Octets.padded (n : Nat) (bytes : Bytes) : Octets n :=
  ⟨bytes.take n ++ List.replicate (n - bytes.length) 0, by
    rw [List.length_append, List.length_take, List.length_replicate]
    omega⟩

abbrev Hash := Octets 32
abbrev SymmetricKey := Octets 32
abbrev PublicKey := Octets 32
abbrev PrivateKey := Octets 32
abbrev Nonce := Octets 12

/-- `hash_len` and `key_len`. -/
def keyLen : Nat := 32

/-- The functions of `crypto/detail`. Encryption keeps the length. -/
structure Primitives where
  sha256 : Bytes → Hash
  x25519Scalarmult : PrivateKey → PublicKey → SymmetricKey
  x25519ScalarmultBase : PrivateKey → PublicKey
  chacha20poly1305Encrypt : SymmetricKey → Nonce → Bytes → Bytes → Bytes × Octets 16
  chacha20poly1305Decrypt : SymmetricKey → Nonce → Bytes → Bytes → Octets 16 → Option Bytes
  length_encrypt : ∀ key nonce ad plaintext,
    (chacha20poly1305Encrypt key nonce ad plaintext).1.length = plaintext.length

variable (P : Primitives)

/-- Decryption inverts encryption under equal key, nonce and associated data. -/
def Primitives.AeadInverts : Prop :=
  ∀ key nonce ad plaintext,
    P.chacha20poly1305Decrypt key nonce ad
      (P.chacha20poly1305Encrypt key nonce ad plaintext).1
      (P.chacha20poly1305Encrypt key nonce ad plaintext).2 = some plaintext

/-- The two private keys lead to one shared secret, and it is not all zero. -/
structure Primitives.Agree (a b : PrivateKey) : Prop where
  commute : P.x25519Scalarmult a (P.x25519ScalarmultBase b) =
    P.x25519Scalarmult b (P.x25519ScalarmultBase a)
  nonzero : ∃ byte ∈ (P.x25519Scalarmult a (P.x25519ScalarmultBase b)).val, byte ≠ 0

theorem Primitives.Agree.symm {P : Primitives} {a b : PrivateKey} (h : P.Agree a b) :
    P.Agree b a :=
  ⟨h.commute.symm, h.commute ▸ h.nonzero⟩

/-! ## Hashing -/

/-- `K'`: a long key is hashed, a short one padded with zeros. -/
def hmacKeyPad (key : Bytes) : Octets 64 :=
  if key.length > 64 then Octets.padded 64 (P.sha256 key).val else Octets.padded 64 key

/-- `hmac_sha256`. -/
def hmacSha256 (key data : Bytes) : Hash :=
  let kPad := hmacKeyPad P key
  let ipad := kPad.val.map (· ^^^ 0x36)
  let opad := kPad.val.map (· ^^^ 0x5c)
  let inner := P.sha256 (ipad ++ data)
  P.sha256 (opad ++ inner.val)

/-- `hkdf`, with its three outputs. The calls that ask for fewer leave the
others unused. -/
def hkdf (chainingKey : Hash) (inputKeyMaterial : Bytes) : Hash × Hash × Hash :=
  let tempKey := hmacSha256 P chainingKey.val inputKeyMaterial
  let o1 := hmacSha256 P tempKey.val [0x01]
  let o2 := hmacSha256 P tempKey.val (o1.val ++ [0x02])
  let o3 := hmacSha256 P tempKey.val (o2.val ++ [0x03])
  (o1, o2, o3)

/-! ## X25519 -/

/-- `x25519_base`. -/
def x25519Base (privateKey : PrivateKey) : PublicKey := P.x25519ScalarmultBase privateKey

/-- `x25519`. -/
def x25519 (privateKey : PrivateKey) (peerPublic : PublicKey) :
    Except ApiException SymmetricKey :=
  let out := P.x25519Scalarmult privateKey peerPublic
  let acc := out.val.foldl (· ||| ·) 0
  if acc = 0 then
    .error ⟨.encryptionError, lit "X25519 produced a degenerate shared secret"⟩
  else .ok out

/-- `generate_keypair`, from the bytes that the system's generator returns. -/
def generateKeypair (random : Octets 32) : PrivateKey × PublicKey :=
  (random, P.x25519ScalarmultBase random)

theorem foldl_or_ne_zero : ∀ (bytes : Bytes) (acc : UInt8),
    (acc ≠ 0 ∨ ∃ byte ∈ bytes, byte ≠ 0) → bytes.foldl (· ||| ·) acc ≠ 0
  | [], acc, h => by
      rcases h with h | ⟨byte, hmem, -⟩
      · exact h
      · exact nomatch hmem
  | byte :: bytes, acc, h => by
      rw [List.foldl_cons]
      refine foldl_or_ne_zero bytes (acc ||| byte) ?_
      by_cases hor : acc ||| byte = 0
      · right
        obtain ⟨hacc, hbyte⟩ := UInt8.or_eq_zero_iff.mp hor
        rcases h with h | ⟨b, hmem, hb⟩
        · exact absurd hacc h
        · rcases List.mem_cons.mp hmem with rfl | hmem
          · exact absurd hbyte hb
          · exact ⟨b, hmem, hb⟩
      · exact Or.inl hor

/-- Two keys that agree derive one shared secret, without an exception. -/
theorem Primitives.Agree.x25519_eq {P : Primitives} {a b : PrivateKey} (h : P.Agree a b) :
    x25519 P a (x25519Base P b) = .ok (P.x25519Scalarmult a (P.x25519ScalarmultBase b)) := by
  unfold x25519 x25519Base
  exact if_neg (foldl_or_ne_zero _ 0 (Or.inr h.nonzero))

/-! ## AEAD -/

/-- `build_nonce`: four zero bytes, then the counter in little-endian order. -/
def buildNonce (counter : UInt64) : Nonce :=
  ⟨[0, 0, 0, 0] ++ (List.range 8).map fun i =>
      ((counter >>> (8 * UInt64.ofNat i)) &&& 0xFF).toUInt8, by
    rw [List.length_append, List.length_map, List.length_range]
    rfl⟩

/-- Byte `i` of the counter. -/
theorem toNat_nonceByte (counter : UInt64) {i : Nat} (hi : i < 8) :
    ((counter >>> (8 * UInt64.ofNat i)) &&& 0xFF).toUInt8.toNat =
      counter.toNat / 256 ^ i % 256 := by
  have h8 : (8 : UInt64).toNat = 8 := rfl
  have hshift : (8 * UInt64.ofNat i).toNat % 64 = 8 * i := by
    simp only [UInt64.toNat_mul, UInt64.toNat_ofNat', h8]
    omega
  have hmask : (255 : UInt64).toNat = 2 ^ 8 - 1 := rfl
  rw [UInt64.toNat_toUInt8, UInt64.toNat_and, UInt64.toNat_shiftRight, hshift, hmask,
    Nat.and_two_pow_sub_one_eq_mod, Nat.shiftRight_eq_div_pow, Nat.pow_mul]
  simp

/-- Numbers that agree in their first digits agree modulo the power. -/
theorem mod_pow_eq_of_digits {base a b : Nat} :
    ∀ {n : Nat}, (∀ i, i < n → a / base ^ i % base = b / base ^ i % base) →
      a % base ^ n = b % base ^ n
  | 0, _ => by simp [Nat.mod_one]
  | n + 1, h => by
      have hlow := mod_pow_eq_of_digits fun i hi => h i (Nat.lt_succ_of_lt hi)
      rw [Nat.mod_pow_succ, Nat.mod_pow_succ, hlow, h n (Nat.lt_succ_self n)]

/-- Different counters have different nonces. -/
theorem buildNonce_injective : Function.Injective buildNonce := by
  intro c d h
  have hbytes := List.append_cancel_left (congrArg Subtype.val h)
  have hdigits : ∀ i, i < 8 → c.toNat / 256 ^ i % 256 = d.toNat / 256 ^ i % 256 := by
    intro i hi
    have hbyte := List.map_inj_left.mp hbytes i (List.mem_range.mpr hi)
    rw [← toNat_nonceByte c hi, ← toNat_nonceByte d hi, hbyte]
  have hmod := mod_pow_eq_of_digits hdigits
  have hc : c.toNat < 256 ^ 8 := c.toNat_lt
  have hd : d.toNat < 256 ^ 8 := d.toNat_lt
  apply UInt64.toNat.inj
  rwa [Nat.mod_eq_of_lt hc, Nat.mod_eq_of_lt hd] at hmod

/-- `aead_encrypt`: the ciphertext, then the tag. -/
def aeadEncrypt (key : SymmetricKey) (nonce : UInt64) (ad plaintext : Bytes) : Bytes :=
  let out := P.chacha20poly1305Encrypt key (buildNonce nonce) ad plaintext
  out.1 ++ out.2.val

/-- `aead_decrypt`. -/
def aeadDecrypt (key : SymmetricKey) (nonce : UInt64) (ad ciphertext : Bytes) : Option Bytes :=
  if h : ciphertext.length < 16 then none
  else
    let ctLen := ciphertext.length - 16
    P.chacha20poly1305Decrypt key (buildNonce nonce) ad (ciphertext.take ctLen)
      ⟨ciphertext.drop ctLen, by rw [List.length_drop]; omega⟩

theorem length_aeadEncrypt (key : SymmetricKey) (nonce : UInt64) (ad plaintext : Bytes) :
    (aeadEncrypt P key nonce ad plaintext).length = plaintext.length + 16 := by
  have htag := (P.chacha20poly1305Encrypt key (buildNonce nonce) ad plaintext).2.property
  rw [aeadEncrypt, List.length_append, P.length_encrypt, htag]

theorem aeadDecrypt_aeadEncrypt {P : Primitives} (hP : P.AeadInverts) (key : SymmetricKey)
    (nonce : UInt64) (ad plaintext : Bytes) :
    aeadDecrypt P key nonce ad (aeadEncrypt P key nonce ad plaintext) = some plaintext := by
  have hlen := length_aeadEncrypt P key nonce ad plaintext
  have hcut : (aeadEncrypt P key nonce ad plaintext).length - 16 =
      (P.chacha20poly1305Encrypt key (buildNonce nonce) ad plaintext).1.length := by
    rw [hlen, P.length_encrypt, Nat.add_sub_cancel]
  unfold aeadDecrypt
  rw [dif_neg (by omega)]
  simp only [hcut]
  simp only [aeadEncrypt, List.take_left, List.drop_left]
  exact hP key (buildNonce nonce) ad plaintext

/-- A toy instance: a hash that keeps the first bytes, byte-wise addition for
Diffie-Hellman, and an AEAD that adds the first byte of the key. -/
def Primitives.toy : Primitives where
  sha256 data := Octets.padded 32 data
  x25519Scalarmult a b := Octets.padded 32 (a.val.zipWith (· + ·) b.val)
  x25519ScalarmultBase a := a
  chacha20poly1305Encrypt key _ _ plaintext :=
    (plaintext.map (· + key.val.headD 0), Octets.zero 16)
  chacha20poly1305Decrypt key _ _ ciphertext tag :=
    if tag = Octets.zero 16 then some (ciphertext.map (· - key.val.headD 0)) else none
  length_encrypt _ _ _ _ := List.length_map _

theorem Primitives.toy_length (key : SymmetricKey) (_nonce : Nonce) (_ad plaintext : Bytes) :
    (plaintext.map (· + key.val.headD 0)).length = plaintext.length := List.length_map _

theorem Primitives.toy_aeadInverts : Primitives.toy.AeadInverts := by
  intro key nonce ad plaintext
  unfold Primitives.toy
  simp only [if_true, List.map_map, Option.some_inj]
  have hid : ((· - key.val.headD 0) ∘ (· + key.val.headD 0)) = (id : UInt8 → UInt8) := by
    funext byte
    exact UInt8.add_sub_cancel byte _
  rw [hid, List.map_id]

end EsphomeApi.Noise
