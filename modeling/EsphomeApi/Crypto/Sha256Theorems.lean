/-
EsphomeApi.Crypto.Sha256Theorems — the streaming hash is the padded one, and
its collisions are collisions of the compression function.

`Streamed` is the invariant of the context: its state and buffer are what
`BlockStream.absorb` makes of the bytes so far. `sha256_streaming` follows for
every way to cut the input. The padding ends with the length, so messages of
different lengths differ in their last block, and messages of one length have
equally many blocks; either way `sha256_collision` finds the step at which two
equal hashes of different messages collide.
-/
import EsphomeApi.Crypto.Sha256
import EsphomeApi.Library.BlockStream
import EsphomeApi.Library.LittleEndian

namespace EsphomeApi.Noise

open Library Library.BlockStream

/-! ## The stream -/

/-- The padded message: a bit, zeros, and the length in bits. -/
def sha256Pad (message : Bytes) : Bytes :=
  message ++ ([0x80] ++ List.replicate ((119 - message.length % 64) % 64) 0 ++
    bitlenBytes (UInt64.ofNat (8 * message.length)))

/-- The state after all blocks of a padded message. -/
def sha256State (message : Bytes) : Sha256State :=
  blocks 64 sha256Transform ((sha256Pad message).length / 64) sha256Init.state (sha256Pad message)

/-- The context after the bytes of `message`. -/
structure Streamed (message : Bytes) (ctx : Sha256Ctx) : Prop where
  absorbed : absorb 64 sha256Transform sha256Init.state message = (ctx.state, ctx.data)
  bitlen : ctx.bitlen = UInt64.ofNat (512 * (message.length / 64))

theorem Streamed.init : Streamed [] sha256Init := ⟨absorb_of_lt (by decide), rfl⟩

theorem Streamed.length {message : Bytes} {ctx : Sha256Ctx} (h : Streamed message ctx) :
    ctx.data.length = message.length % 64 := by
  rw [← length_absorb (f := sha256Transform) sha256Init.state message, h.absorbed]

theorem Streamed.byte {message : Bytes} {ctx : Sha256Ctx} (h : Streamed message ctx)
    (byte : UInt8) : Streamed (message ++ [byte]) (sha256Byte ctx byte) := by
  have habsorb := absorb_append (f := sha256Transform) (n := 64) (by decide) sha256Init.state
    message [byte]
  rw [h.absorbed, absorb_concat (by decide) ctx.datalen_lt] at habsorb
  have hlen := h.length
  have hmessage : (message ++ [byte]).length = message.length + 1 := by simp
  by_cases hfull : ctx.data.length + 1 = 64
  · rw [if_pos hfull] at habsorb
    have hstep : sha256Byte ctx byte = ⟨[], by decide, ctx.bitlen + 512,
        sha256Transform ctx.state (ctx.data ++ [byte])⟩ := dif_pos hfull
    rw [hstep]
    refine ⟨habsorb, ?_⟩
    have hcount : (message ++ [byte]).length / 64 = message.length / 64 + 1 := by omega
    rw [hcount, Nat.mul_succ, UInt64.ofNat_add, ← h.bitlen]
    rfl
  · rw [if_neg hfull] at habsorb
    have hstep : (sha256Byte ctx byte).state = ctx.state ∧
        (sha256Byte ctx byte).data = ctx.data ++ [byte] ∧
        (sha256Byte ctx byte).bitlen = ctx.bitlen := by
      unfold sha256Byte
      rw [dif_neg hfull]
      exact ⟨rfl, rfl, rfl⟩
    refine ⟨?_, ?_⟩
    · rw [habsorb, hstep.1, hstep.2.1]
    · have hcount : (message ++ [byte]).length / 64 = message.length / 64 := by omega
      rw [hcount, hstep.2.2, h.bitlen]

theorem Streamed.update : ∀ (data : Bytes) {message : Bytes} {ctx : Sha256Ctx},
    Streamed message ctx → Streamed (message ++ data) (sha256Update ctx data)
  | [], message, _, h => by rwa [List.append_nil]
  | byte :: data, message, _, h => by
      have hrest := Streamed.update data (h.byte byte)
      rwa [List.append_assoc] at hrest

theorem Streamed.pieces : ∀ (pieces : List Bytes) {message : Bytes} {ctx : Sha256Ctx},
    Streamed message ctx → Streamed (message ++ pieces.flatten) (pieces.foldl sha256Update ctx)
  | [], message, _, h => by rwa [List.flatten_nil, List.append_nil]
  | piece :: pieces, message, _, h => by
      have hrest := Streamed.pieces pieces (Streamed.update piece h)
      rwa [List.append_assoc] at hrest

theorem length_bitlenBytes (bitlen : UInt64) : (bitlenBytes bitlen).length = 8 := rfl

theorem length_sha256Pad (message : Bytes) : 64 ∣ (sha256Pad message).length := by
  simp only [sha256Pad, List.length_append, List.length_replicate, List.length_singleton,
    length_bitlenBytes]
  omega

theorem Streamed.bitlen_final {message : Bytes} {ctx : Sha256Ctx} (h : Streamed message ctx) :
    ctx.bitlen + UInt64.ofNat ctx.data.length * 8 = UInt64.ofNat (8 * message.length) := by
  have hsum : 8 * message.length = 512 * (message.length / 64) + message.length % 64 * 8 := by
    omega
  rw [h.bitlen, h.length, hsum, UInt64.ofNat_add, UInt64.ofNat_mul (message.length % 64)]
  rfl

theorem sha256State_eq (message : Bytes) : sha256State message =
    (absorb 64 sha256Transform sha256Init.state (sha256Pad message)).1 := rfl

/-- One block or two are left to take in. -/
theorem Streamed.final {message : Bytes} {ctx : Sha256Ctx} (h : Streamed message ctx) :
    sha256Final ctx = (sha256State message).digest := by
  have hlt := ctx.datalen_lt
  have hbitlen := h.bitlen_final
  have hpad : absorb 64 sha256Transform sha256Init.state (sha256Pad message) =
      absorb 64 sha256Transform ctx.state (ctx.data ++ ([0x80] ++
        List.replicate ((119 - ctx.data.length) % 64) 0 ++
          bitlenBytes (UInt64.ofNat (8 * message.length)))) := by
    rw [sha256Pad, absorb_append (by decide), h.absorbed, h.length]
  rw [sha256State_eq, hpad, ← hbitlen]
  unfold sha256Final
  by_cases hroom : ctx.data.length < 56
  · have hzeros : (119 - ctx.data.length) % 64 = 55 - ctx.data.length := by omega
    have hlen : (ctx.data ++ ([0x80] ++ List.replicate (55 - ctx.data.length) 0 ++
        bitlenBytes (ctx.bitlen + UInt64.ofNat ctx.data.length * 8))).length = 64 := by
      simp only [List.length_append, List.length_replicate, List.length_singleton,
        length_bitlenBytes]
      omega
    rw [hzeros, absorb_full (by decide) hlen]
    simp only [if_pos hroom, List.append_assoc]
  · have hzeros : (119 - ctx.data.length) % 64 = 63 - ctx.data.length + 56 := by omega
    have hfirst : (ctx.data ++ [0x80] ++ List.replicate (63 - ctx.data.length) 0).length = 64 := by
      simp only [List.length_append, List.length_replicate, List.length_singleton]
      omega
    have hsecond : (List.replicate 56 0 ++
        bitlenBytes (ctx.bitlen + UInt64.ofNat ctx.data.length * 8)).length = 64 := rfl
    have hblocks := absorb_block (f := sha256Transform) (by decide) (s := ctx.state) hfirst
      (List.replicate 56 0 ++ bitlenBytes (ctx.bitlen + UInt64.ofNat ctx.data.length * 8))
    rw [absorb_full (by decide) hsecond] at hblocks
    rw [hzeros, ← List.replicate_append_replicate]
    simp only [if_neg hroom]
    simp only [List.append_assoc] at hblocks ⊢
    rw [hblocks]

/-- However the input is cut, the hash is that of the padded message. -/
theorem sha256_streaming (pieces : List Bytes) :
    sha256Final (pieces.foldl sha256Update sha256Init) =
      (sha256State pieces.flatten).digest :=
  (Streamed.pieces pieces Streamed.init).final

theorem sha256_eq (message : Bytes) : sha256 message = (sha256State message).digest :=
  (Streamed.update message Streamed.init).final

/-! ## Collisions -/

theorem wordBytes_eq (w : UInt32) : (wordBytes w).reverse = LittleEndian.bytes 4 w.toNat := by
  have hbyte : ∀ x : UInt32, (x &&& 0xff).toUInt8 = UInt8.ofNat x.toNat := by
    intro x
    have hmask : (255 : UInt32).toNat = 2 ^ 8 - 1 := rfl
    rw [← UInt8.toNat_inj, UInt32.toNat_toUInt8, UInt32.toNat_and, hmask,
      Nat.and_two_pow_sub_one_eq_mod, UInt8.toNat_ofNat']
    exact Nat.mod_mod _ _
  have hshift : ∀ k : UInt32, k.toNat < 32 → (w >>> k).toNat = w.toNat / 2 ^ k.toNat := by
    intro k hk
    rw [UInt32.toNat_shiftRight, Nat.mod_eq_of_lt hk, Nat.shiftRight_eq_div_pow]
  rw [wordBytes, hbyte, hbyte, hbyte, hbyte, hshift 24 (by decide), hshift 16 (by decide),
    hshift 8 (by decide)]
  simp [LittleEndian.bytes, Nat.div_div_eq_div_mul]

theorem wordBytes_inj {v w : UInt32} (h : wordBytes v = wordBytes w) : v = w := by
  have hbytes := congrArg List.reverse h
  rw [wordBytes_eq, wordBytes_eq] at hbytes
  have hvalue := congrArg LittleEndian.value hbytes
  rw [LittleEndian.value_bytes_of_lt v.toNat_lt, LittleEndian.value_bytes_of_lt w.toNat_lt] at hvalue
  exact UInt32.toNat_inj.mp hvalue

theorem bitlenBytes_eq (w : UInt64) : (bitlenBytes w).reverse = LittleEndian.bytes 8 w.toNat := by
  have hbyte : w.toUInt8 = UInt8.ofNat w.toNat := by
    rw [← UInt8.toNat_inj, UInt64.toNat_toUInt8, UInt8.toNat_ofNat']
  have hshift : ∀ k : UInt64, k.toNat < 64 →
      (w >>> k).toUInt8 = UInt8.ofNat (w.toNat / 2 ^ k.toNat) := by
    intro k hk
    rw [← UInt8.toNat_inj, UInt64.toNat_toUInt8, UInt64.toNat_shiftRight, UInt8.toNat_ofNat',
      Nat.mod_eq_of_lt hk, Nat.shiftRight_eq_div_pow]
  rw [bitlenBytes, hbyte, hshift 56 (by decide), hshift 48 (by decide), hshift 40 (by decide),
    hshift 32 (by decide), hshift 24 (by decide), hshift 16 (by decide), hshift 8 (by decide)]
  simp [LittleEndian.bytes, Nat.div_div_eq_div_mul]

theorem bitlenBytes_inj {v w : UInt64} (h : bitlenBytes v = bitlenBytes w) : v = w := by
  have hbytes := congrArg List.reverse h
  rw [bitlenBytes_eq, bitlenBytes_eq] at hbytes
  have hvalue := congrArg LittleEndian.value hbytes
  rw [LittleEndian.value_bytes_of_lt v.toNat_lt, LittleEndian.value_bytes_of_lt w.toNat_lt] at hvalue
  exact UInt64.toNat_inj.mp hvalue

theorem digest_inj {v w : Sha256State} (h : v.digest = w.digest) : v = w := by
  have hword : ∀ i : Nat, (v.digest.val.drop (4 * i)).take 4 = (w.digest.val.drop (4 * i)).take 4 :=
    fun i => by rw [h]
  have ha : v.a = w.a := wordBytes_inj (hword 0)
  have hb : v.b = w.b := wordBytes_inj (hword 1)
  have hc : v.c = w.c := wordBytes_inj (hword 2)
  have hd : v.d = w.d := wordBytes_inj (hword 3)
  have he : v.e = w.e := wordBytes_inj (hword 4)
  have hf : v.f = w.f := wordBytes_inj (hword 5)
  have hg : v.g = w.g := wordBytes_inj (hword 6)
  have hh : v.h = w.h := wordBytes_inj (hword 7)
  cases v
  cases w
  simp_all

/-- The blocks of a padded message. -/
def sha256Count (message : Bytes) : Nat := (sha256Pad message).length / 64

/-- The state before block `i`. -/
def sha256Chain (message : Bytes) (i : Nat) : Sha256State :=
  blocks 64 sha256Transform i sha256Init.state (sha256Pad message)

/-- Block `i` of a padded message. -/
def sha256Block (message : Bytes) (i : Nat) : Bytes := block 64 i (sha256Pad message)

theorem sha256Count_pos (message : Bytes) : 0 < sha256Count message := by
  have hdvd := length_sha256Pad message
  have hpos : 0 < (sha256Pad message).length := by
    simp only [sha256Pad, List.length_append, length_bitlenBytes]
    omega
  exact Nat.div_pos (Nat.le_of_dvd hpos hdvd) (by decide)

theorem length_eq_count (message : Bytes) :
    (sha256Pad message).length = 64 * sha256Count message :=
  (Nat.mul_div_cancel' (length_sha256Pad message)).symm

/-- The length stands at the end of the last block. -/
theorem drop_sha256Block {message : Bytes} {k : Nat} (hk : sha256Count message = k + 1) :
    (sha256Block message k).drop 56 = bitlenBytes (UInt64.ofNat (8 * message.length)) := by
  have hlen := length_eq_count message
  rw [hk] at hlen
  have htake : sha256Block message k = (sha256Pad message).drop (64 * k) :=
    List.take_of_length_le (by rw [List.length_drop]; omega)
  have hfront : (message ++ ([0x80] ++
      List.replicate ((119 - message.length % 64) % 64) 0)).length = 64 * k + 56 := by
    simp only [sha256Pad, List.length_append, length_bitlenBytes] at hlen ⊢
    omega
  rw [htake, List.drop_drop, sha256Pad, ← List.append_assoc, ← hfront, List.drop_left]

/-- Padding keeps messages apart. -/
theorem sha256Pad_inj {a b : Bytes} (hlen : a.length = b.length)
    (h : sha256Pad a = sha256Pad b) : a = b := (List.append_inj h hlen).1

/-- Equal hashes of different messages meet in a collision of the compression
function, between states and blocks that the two runs go through. -/
theorem sha256_collision (a b : Bytes) (ha : a.length < 2 ^ 61) (hb : b.length < 2 ^ 61)
    (hne : a ≠ b) :
    sha256 a ≠ sha256 b ∨ ∃ i j, i < sha256Count a ∧ j < sha256Count b ∧
      Collides sha256Transform (sha256Chain a i) (sha256Chain b j) (sha256Block a i)
        (sha256Block b j) := by
  by_cases hhash : sha256 a = sha256 b
  · right
    rw [sha256_eq, sha256_eq] at hhash
    have hstate : sha256Chain a (sha256Count a) = sha256Chain b (sha256Count b) := digest_inj hhash
    by_cases hlen : a.length = b.length
    · -- equally many blocks, so the runs are compared from the front
      have hcount : sha256Count a = sha256Count b := by
        simp only [sha256Count, sha256Pad, List.length_append, List.length_replicate, hlen,
          length_bitlenBytes]
      rw [hcount] at hstate
      rcases blocks_eq hstate with ⟨-, hpad⟩ | ⟨i, hi, hcollides⟩
      · rw [List.take_of_length_le (by rw [length_eq_count, hcount]),
          List.take_of_length_le (by rw [length_eq_count])] at hpad
        exact absurd (sha256Pad_inj hlen hpad) hne
      · exact ⟨i, i, hcount ▸ hi, hi, hcollides⟩
    · -- the last blocks end in different lengths
      obtain ⟨k, hk⟩ := Nat.exists_eq_add_of_lt (sha256Count_pos a)
      obtain ⟨l, hl⟩ := Nat.exists_eq_add_of_lt (sha256Count_pos b)
      rw [Nat.zero_add] at hk hl
      rw [hk, hl, sha256Chain, sha256Chain, blocks_succ, blocks_succ] at hstate
      refine ⟨k, l, by omega, by omega, ?_, hstate⟩
      intro hpair
      have hblock : sha256Block a k = sha256Block b l := congrArg Prod.snd hpair
      have hbits : bitlenBytes (UInt64.ofNat (8 * a.length)) =
          bitlenBytes (UInt64.ofNat (8 * b.length)) := by
        rw [← drop_sha256Block hk, ← drop_sha256Block hl, hblock]
      have hnat := congrArg UInt64.toNat (bitlenBytes_inj hbits)
      rw [UInt64.toNat_ofNat', UInt64.toNat_ofNat'] at hnat
      omega
  · exact Or.inl hhash

/-- The empty message and a single byte. -/
theorem sha256_collision_nil_one :
    sha256 [] ≠ sha256 [1] ∨ ∃ i j, i < sha256Count [] ∧ j < sha256Count [1] ∧
      Collides sha256Transform (sha256Chain [] i) (sha256Chain [1] j) (sha256Block [] i)
        (sha256Block [1] j) :=
  sha256_collision [] [1] (by decide) (by decide) (by decide)

end EsphomeApi.Noise
