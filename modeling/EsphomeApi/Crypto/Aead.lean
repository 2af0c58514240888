/-
EsphomeApi.Crypto.Aead — the AEAD of `chacha20poly1305.cpp`: ChaCha20 for the
text and Poly1305 for the tag.

The tag is Poly1305 of one byte string, `aeadMacData`, under the first half of
the key stream's block 0 (`aeadMac_eq`), and that string tells the associated
data and the ciphertext apart (`aeadMacData_inj`). Decryption accepts a text
exactly when encryption produces it (`chacha20poly1305Decrypt_eq_some`).
-/
import EsphomeApi.Crypto.Poly1305Theorems

namespace EsphomeApi.Noise

open Library

/-! ## The tag -/

/-- `zero_pad`. -/
def zeroPad : Bytes := List.replicate 16 0

/-- `poly1305_update_u64_le`. -/
def poly1305UpdateU64Le (st : Poly1305) (v : UInt64) : Poly1305 :=
  poly1305Update st ((List.range 8).map fun i => (v >>> (8 * UInt64.ofNat i)).toUInt8)

/-- An update with `m`, then with the zeros up to the next block. -/
def poly1305UpdatePadded (st : Poly1305) (m : Bytes) : Poly1305 :=
  if m.length ≠ 0 then
    let st := poly1305Update st m
    if m.length % 16 ≠ 0 then poly1305Update st (zeroPad.take (16 - m.length % 16)) else st
  else st

/-- The one-time key: the first half of block 0. -/
def aeadOneTimeKey (key : SymmetricKey) (nonce : Nonce) : Octets 32 :=
  ⟨(chacha20Block key 0 nonce).val.take 32, by
    rw [List.length_take, (chacha20Block key 0 nonce).property]
    rfl⟩

/-- `aead_mac`. -/
def aeadMac (key : SymmetricKey) (nonce : Nonce) (ad ciphertext : Bytes) : Octets 16 :=
  let st := poly1305Init (aeadOneTimeKey key nonce).val
  let st := poly1305UpdatePadded st ad
  let st := poly1305UpdatePadded st ciphertext
  let st := poly1305UpdateU64Le st (UInt64.ofNat ad.length)
  let st := poly1305UpdateU64Le st (UInt64.ofNat ciphertext.length)
  poly1305Finish st

/-- The zeros between a text and the next block. -/
def pad16 (m : Bytes) : Bytes := List.replicate ((16 - m.length % 16) % 16) 0

/-- What the tag authenticates. -/
def aeadMacData (ad ciphertext : Bytes) : Bytes :=
  ad ++ pad16 ad ++ (ciphertext ++ pad16 ciphertext) ++
    (LittleEndian.bytes 8 ad.length ++ LittleEndian.bytes 8 ciphertext.length)

/-- The pieces of a padded update. -/
theorem poly1305UpdatePadded_eq (st : Poly1305) (m : Bytes) :
    ∃ pieces : List Bytes, pieces.flatten = m ++ pad16 m ∧
      poly1305UpdatePadded st m = pieces.foldl poly1305Update st := by
  unfold poly1305UpdatePadded
  by_cases hm : m.length = 0
  · obtain rfl := List.length_eq_zero_iff.mp hm
    exact ⟨[], rfl, by simp⟩
  · rw [if_pos hm]
    by_cases hmod : m.length % 16 = 0
    · refine ⟨[m], ?_, by simp [hmod]⟩
      simp [pad16, hmod]
    · refine ⟨[m, zeroPad.take (16 - m.length % 16)], ?_, by simp [hmod]⟩
      have hpad : zeroPad.take (16 - m.length % 16) = pad16 m := by
        rw [zeroPad, List.take_replicate, pad16]
        congr 1
        omega
      rw [hpad]
      simp

/-- The eight bytes of a length. -/
theorem lengthBytes_eq (n : Nat) :
    ((List.range 8).map fun i => (UInt64.ofNat n >>> (8 * UInt64.ofNat i)).toUInt8) =
      LittleEndian.bytes 8 n := by
  rw [LittleEndian.bytes_eq_map]
  refine List.map_congr_left fun i hi => ?_
  have h8 : (8 * UInt64.ofNat i).toNat = 8 * i := by
    have hlt := List.mem_range.mp hi
    rw [UInt64.toNat_mul, UInt64.toNat_ofNat', show (8 : UInt64).toNat = 8 from rfl]
    omega
  have hmod : n % 2 ^ 64 / 2 ^ (8 * i) % 2 ^ 8 = n / 2 ^ (8 * i) % 2 ^ 8 := by
    have hlt := List.mem_range.mp hi
    rw [show 64 = 8 * i + (64 - 8 * i) by omega, Nat.pow_add, Nat.mod_mul_right_div_self,
      Nat.mod_mod_of_dvd _ (Nat.pow_dvd_pow 2 (by omega))]
  have hlt := List.mem_range.mp hi
  rw [← UInt8.toNat_inj, UInt64.toNat_toUInt8, toNat_shiftRight64 _ (by omega), h8,
    UInt64.toNat_ofNat', hmod, UInt8.toNat_ofNat', show 256 = 2 ^ 8 from rfl, ← Nat.pow_mul]

/-- The tag is Poly1305 of the padded texts and their lengths. -/
theorem aeadMac_eq (key : SymmetricKey) (nonce : Nonce) (ad ciphertext : Bytes) :
    (aeadMac key nonce ad ciphertext).val =
      poly1305Mac (aeadOneTimeKey key nonce).val (aeadMacData ad ciphertext) := by
  obtain ⟨pieces, hpieces, hupdate⟩ :=
    poly1305UpdatePadded_eq (poly1305Init (aeadOneTimeKey key nonce).val) ad
  obtain ⟨pieces', hpieces', hupdate'⟩ :=
    poly1305UpdatePadded_eq
      (pieces.foldl poly1305Update (poly1305Init (aeadOneTimeKey key nonce).val)) ciphertext
  have hall := poly1305_streaming (aeadOneTimeKey key nonce)
    (pieces ++ pieces' ++ [LittleEndian.bytes 8 ad.length, LittleEndian.bytes 8 ciphertext.length])
  rw [List.foldl_append, List.foldl_append, ← hupdate', ← hupdate, List.flatten_append,
    List.flatten_append, hpieces, hpieces'] at hall
  rw [aeadMac, aeadMacData]
  simp only [poly1305UpdateU64Le, lengthBytes_eq]
  simpa using hall

/-- The length of what is authenticated. -/
theorem length_aeadMacData (ad ciphertext : Bytes) : (aeadMacData ad ciphertext).length =
    16 * ((ad.length + 15) / 16 + (ciphertext.length + 15) / 16 + 1) := by
  have hpad : ∀ m : Bytes, (m ++ pad16 m).length = 16 * ((m.length + 15) / 16) := by
    intro m
    rw [List.length_append, pad16, List.length_replicate]
    omega
  rw [aeadMacData, List.length_append, List.length_append, hpad, hpad, List.length_append,
    LittleEndian.length_bytes, LittleEndian.length_bytes]
  omega

theorem length_lengths (m n : Nat) :
    (LittleEndian.bytes 8 m ++ LittleEndian.bytes 8 n).length = 16 := by
  rw [List.length_append, LittleEndian.length_bytes, LittleEndian.length_bytes]

/-- The eight bytes of a length below `2 ^ 64` tell it. -/
theorem length_eq_of_bytes {m n : Nat} (hm : m < 2 ^ 64) (hn : n < 2 ^ 64)
    (h : LittleEndian.bytes 8 m = LittleEndian.bytes 8 n) : m = n := by
  have hvalue := congrArg LittleEndian.value h
  rwa [LittleEndian.value_bytes_of_lt hm, LittleEndian.value_bytes_of_lt hn] at hvalue

/-- No two pairs of texts are authenticated as one string: the lengths at its
end say where the parts lie. -/
theorem aeadMacData_inj {ad ciphertext ad' ciphertext' : Bytes}
    (had : ad.length < 2 ^ 64) (hct : ciphertext.length < 2 ^ 64)
    (had' : ad'.length < 2 ^ 64) (hct' : ciphertext'.length < 2 ^ 64)
    (h : aeadMacData ad ciphertext = aeadMacData ad' ciphertext') :
    ad = ad' ∧ ciphertext = ciphertext' := by
  obtain ⟨htexts, hlengths⟩ :=
    List.append_inj' h ((length_lengths _ _).trans (length_lengths _ _).symm)
  obtain ⟨hadBytes, hctBytes⟩ := List.append_inj hlengths (by simp)
  have hadLen := length_eq_of_bytes had had' hadBytes
  have hctLen := length_eq_of_bytes hct hct' hctBytes
  have hpadded : (ad ++ pad16 ad).length = (ad' ++ pad16 ad').length := by
    simp only [List.length_append, pad16, List.length_replicate, hadLen]
  obtain ⟨hfront, hback⟩ := List.append_inj htexts hpadded
  exact ⟨(List.append_inj hfront hadLen).1, (List.append_inj hback hctLen).1⟩

/-! ## Verification -/

theorem toNat_or_lt {x y : UInt32} (hx : x.toNat < 2 ^ 8) (hy : y.toNat < 2 ^ 8) :
    (x ||| y).toNat < 2 ^ 8 := by
  rw [UInt32.toNat_or]
  exact Nat.or_lt_two_pow hx hy

/-- The bits in which two tags differ, folded together. -/
theorem foldl_dif (acc : UInt32) : ∀ l : List (UInt8 × UInt8),
    (l.foldl (fun dif b => dif ||| (b.1 ^^^ b.2).toUInt32) acc = 0 ↔
      acc = 0 ∧ ∀ b ∈ l, b.1 = b.2) ∧
    (acc.toNat < 2 ^ 8 →
      (l.foldl (fun dif b => dif ||| (b.1 ^^^ b.2).toUInt32) acc).toNat < 2 ^ 8) := by
  intro l
  induction l generalizing acc with
  | nil => simp
  | cons b l ih =>
      obtain ⟨hzero, hlt⟩ := ih (acc ||| (b.1 ^^^ b.2).toUInt32)
      have hbyte : (b.1 ^^^ b.2).toUInt32 = 0 ↔ b.1 = b.2 := by
        rw [← UInt32.toNat_inj, UInt8.toNat_toUInt32, ← UInt8.xor_eq_zero_iff, ← UInt8.toNat_inj]
        rfl
      rw [List.foldl_cons]
      constructor
      · rw [hzero, UInt32.or_eq_zero_iff, hbyte, List.forall_mem_cons, and_assoc]
      · intro hacc
        refine hlt (toNat_or_lt hacc ?_)
        rw [UInt8.toNat_toUInt32]
        exact (b.1 ^^^ b.2).toNat_lt

theorem all_eq_of_zip {l m : Bytes} (hlen : l.length = m.length) :
    (∀ b ∈ l.zip m, b.1 = b.2) ↔ l = m := by
  constructor
  · intro h
    refine List.ext_getElem hlen fun i h1 h2 => ?_
    exact h (l[i], m[i]) (by rw [List.mem_iff_getElem]; exact ⟨i, by simp [h1, h2], by simp⟩)
  · rintro rfl b hb
    simp only [List.zip_eq_zipWith, List.zipWith_self, List.mem_map] at hb
    obtain ⟨x, -, rfl⟩ := hb
    rfl

/-- The comparison is equality. -/
theorem poly1305Verify_eq_one_iff (mac1 mac2 : Octets 16) :
    poly1305Verify mac1 mac2 = 1 ↔ mac1 = mac2 := by
  have hlen : mac1.val.length = mac2.val.length := by rw [mac1.property, mac2.property]
  obtain ⟨hzero, hlt⟩ := foldl_dif 0 (mac1.val.zip mac2.val)
  rw [Subtype.ext_iff, ← all_eq_of_zip hlen, poly1305Verify]
  generalize (mac1.val.zip mac2.val).foldl
    (fun dif b => dif ||| (b.1 ^^^ b.2).toUInt32) 0 = dif at hzero hlt ⊢
  simp only [true_and] at hzero
  rw [← hzero]
  have hsmall := hlt (by decide)
  have hone : (1 : UInt32).toNat = 1 := rfl
  have hshift : ((dif - 1) >>> 31).toNat = (dif - 1).toNat / 2 ^ 31 :=
    toNat_shiftRight32 _ (by decide)
  rw [← UInt32.toNat_inj, ← UInt32.toNat_inj (b := 0), hshift, UInt32.toNat_sub, hone,
    show (0 : UInt32).toNat = 0 from rfl]
  omega

/-! ## Encryption and decryption -/

/-- `chacha20poly1305_encrypt`: the text from counter 1 on, and the tag. -/
def chacha20poly1305Encrypt (key : SymmetricKey) (nonce : Nonce) (ad plaintext : Bytes) :
    Bytes × Octets 16 :=
  let ciphertext := chacha20Xor key 1 nonce plaintext
  (ciphertext, aeadMac key nonce ad ciphertext)

/-- `chacha20poly1305_decrypt`. -/
def chacha20poly1305Decrypt (key : SymmetricKey) (nonce : Nonce) (ad ciphertext : Bytes)
    (tag : Octets 16) : Option Bytes :=
  let expected := aeadMac key nonce ad ciphertext
  if poly1305Verify expected tag ≠ 1 then none
  else some (chacha20Xor key 1 nonce ciphertext)

theorem aeadMac_of_isSome {key : SymmetricKey} {nonce : Nonce} {ad ciphertext : Bytes}
    {tag : Octets 16} (h : (chacha20poly1305Decrypt key nonce ad ciphertext tag).isSome) :
    aeadMac key nonce ad ciphertext = tag := by
  unfold chacha20poly1305Decrypt at h
  simp only [ne_eq, poly1305Verify_eq_one_iff] at h
  by_contra htag
  rw [if_pos htag] at h
  cases h

/-- Decryption accepts exactly what encryption produces. -/
theorem chacha20poly1305Decrypt_eq_some (key : SymmetricKey) (nonce : Nonce)
    (ad ciphertext : Bytes) (tag : Octets 16) (plaintext : Bytes) :
    chacha20poly1305Decrypt key nonce ad ciphertext tag = some plaintext ↔
      chacha20poly1305Encrypt key nonce ad plaintext = (ciphertext, tag) := by
  unfold chacha20poly1305Decrypt chacha20poly1305Encrypt
  simp only [ne_eq, poly1305Verify_eq_one_iff]
  constructor
  · intro h
    split at h
    · cases h
    · next htag =>
        obtain rfl := Option.some.inj h
        rw [chacha20Xor_chacha20Xor, not_not.mp htag]
  · intro h
    obtain ⟨rfl, rfl⟩ := Prod.mk.inj h
    rw [if_neg (not_not.mpr rfl), chacha20Xor_chacha20Xor]

/-- What decryption accepts, and as what: the key stream from its second block
on is for the text, the first half of its first block for the tag. -/
theorem aead_accepts_iff (key : SymmetricKey) (nonce : Nonce) (ad ciphertext : Bytes)
    (tag : Octets 16) (plaintext : Bytes) :
    chacha20poly1305Decrypt key nonce ad ciphertext tag = some plaintext ↔
      tag.val = poly1305Mac (aeadOneTimeKey key nonce).val (aeadMacData ad ciphertext) ∧
        plaintext = ciphertext.mapIdx fun j b => b ^^^ keystreamByte key 0 nonce (j + 64) := by
  have hstream : ∀ j, keystreamByte key 1 nonce j = keystreamByte key 0 nonce (j + 64) :=
    fun j => (keystreamByte_add key 0 nonce 1 j).symm
  have hplain : (ciphertext.mapIdx fun j b => b ^^^ keystreamByte key 0 nonce (j + 64)) =
      chacha20Xor key 1 nonce ciphertext := by
    rw [chacha20Xor_eq]
    simp only [hstream]
  rw [hplain, ← aeadMac_eq]
  unfold chacha20poly1305Decrypt
  simp only [ne_eq, poly1305Verify_eq_one_iff]
  split
  · next htag => exact ⟨nofun, fun h => absurd (Subtype.ext h.1.symm) htag⟩
  · next htag =>
      rw [Option.some_inj, not_not.mp htag]
      exact ⟨fun h => ⟨rfl, h.symm⟩, fun h => h.2.symm⟩

end EsphomeApi.Noise
