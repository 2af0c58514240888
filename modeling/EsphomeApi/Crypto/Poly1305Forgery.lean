/-
EsphomeApi.Crypto.Poly1305Forgery — how much a tag of one message tells about
the tag of another.

The blocks of a message, each with its one behind it, are nonzero elements of
the field and tell the message (`blockElements_inj`), so the accumulator is a
`PolynomialHash.horner` of them (`poly1305_polynomial`). Two tags under one key
tell the difference of two accumulators up to multiples of `2 ^ 128`, that is
eight possible differences, and each has few keys (`card_forgeable_le`). A text
that decryption accepts beside a sealed one is such a pair of tags
(`aead_forgery`).
-/
import EsphomeApi.Crypto.Aead
import EsphomeApi.Library.PolynomialHash
import EsphomeApi.Library.PrimeCertificate

namespace EsphomeApi.Noise

open Library

/-- `prime1305` and the primes that its certificate needs. -/
def certificate1305 : List PrimeCertificate.Entry :=
  [⟨1361129467683753853853498429727072845819, 2,
    [(2, 1), (23, 1), (32985101, 1), (897064739519922787230182993783, 1)]⟩,
   ⟨897064739519922787230182993783, 5,
    [(2, 1), (73, 1), (487, 1), (3134801, 1), (4024685905107147541, 1)]⟩,
   ⟨4024685905107147541, 2,
    [(2, 2), (3, 2), (5, 1), (13, 1), (43, 1), (4889, 1), (37003, 1), (221101, 1)]⟩,
   ⟨32985101, 2, [(2, 2), (5, 2), (17, 1), (19403, 1)]⟩,
   ⟨3134801, 3, [(2, 4), (5, 2), (17, 1), (461, 1)]⟩,
   ⟨221101, 22, [(2, 2), (3, 1), (5, 2), (11, 1), (67, 1)]⟩,
   ⟨37003, 2, [(2, 1), (3, 1), (7, 1), (881, 1)]⟩,
   ⟨19403, 2, [(2, 1), (89, 1), (109, 1)]⟩,
   ⟨4889, 3, [(2, 3), (13, 1), (47, 1)]⟩,
   ⟨881, 3, [(2, 4), (5, 1), (11, 1)]⟩,
   ⟨487, 3, [(2, 1), (3, 5)]⟩,
   ⟨461, 2, [(2, 2), (5, 1), (23, 1)]⟩,
   ⟨109, 6, [(2, 2), (3, 3)]⟩,
   ⟨89, 3, [(2, 3), (11, 1)]⟩,
   ⟨73, 5, [(2, 3), (3, 2)]⟩,
   ⟨67, 2, [(2, 1), (3, 1), (11, 1)]⟩,
   ⟨47, 5, [(2, 1), (23, 1)]⟩,
   ⟨43, 3, [(2, 1), (3, 1), (7, 1)]⟩,
   ⟨23, 5, [(2, 1), (11, 1)]⟩,
   ⟨17, 3, [(2, 4)]⟩,
   ⟨13, 2, [(2, 2), (3, 1)]⟩,
   ⟨11, 2, [(2, 1), (5, 1)]⟩,
   ⟨7, 3, [(2, 1), (3, 1)]⟩,
   ⟨5, 2, [(2, 2)]⟩,
   ⟨3, 2, [(2, 1)]⟩,
   ⟨2, 1, []⟩]

theorem check_certificate1305 : PrimeCertificate.check 256 certificate1305 = true := by
  decide +kernel

theorem prime_prime1305 : prime1305.Prime :=
  PrimeCertificate.prime_of_check check_certificate1305 _ (by decide)

instance fact_prime1305 : Fact prime1305.Prime := ⟨prime_prime1305⟩

/-! ## The blocks of a message -/

/-- The blocks of a message, the last one perhaps short. -/
def messageBlocks (m : Bytes) : List Bytes :=
  (List.range ((m.length + 15) / 16)).map fun i => BlockStream.block 16 i m

/-- The number that a block stands for. -/
def blockValue (block : Bytes) : Nat := LittleEndian.value (block ++ [1])

theorem flatten_messageBlocks (m : Bytes) : (messageBlocks m).flatten = m := by
  rw [messageBlocks, BlockStream.flatten_blocks]
  exact List.take_of_length_le (by omega)

theorem blockValue_eq (b : Bytes) : blockValue b = LittleEndian.value b + 256 ^ b.length := by
  rw [blockValue, LittleEndian.value_append, LittleEndian.value_cons, LittleEndian.value_nil]
  exact congrArg _ (Nat.mul_one _)

theorem blockValue_inj {b c : Bytes} (h : blockValue b = blockValue c) : b = c := by
  rw [blockValue_eq, blockValue_eq] at h
  have hb := LittleEndian.value_lt b
  have hc := LittleEndian.value_lt c
  -- the one behind the bytes tells how many they are
  have hlen : ∀ {j k v w : Nat}, v < 256 ^ j → v + 256 ^ j = w + 256 ^ k → k ≤ j := by
    intro j k v w hv hsum
    by_contra hlt
    have hpow : 256 ^ j * 256 ≤ 256 ^ k := by
      rw [← Nat.pow_succ]
      exact Nat.pow_le_pow_right (by decide) (by omega)
    omega
  have hlengths : b.length = c.length := Nat.le_antisymm (hlen hc h.symm) (hlen hb h)
  rw [hlengths] at h
  exact LittleEndian.value_inj hlengths (Nat.add_right_cancel h)

theorem length_of_mem_messageBlocks {m b : Bytes} (h : b ∈ messageBlocks m) : b.length ≤ 16 := by
  obtain ⟨i, -, rfl⟩ := List.mem_map.mp h
  exact List.length_take_le 16 _

theorem blockValue_lt {b : Bytes} (h : b.length ≤ 16) : blockValue b < prime1305 := by
  have hb := LittleEndian.value_lt b
  have hpow : 256 ^ b.length ≤ 256 ^ 16 := Nat.pow_le_pow_right (by decide) h
  have hprime : 2 * 256 ^ 16 < prime1305 := by decide
  rw [blockValue_eq]
  omega

/-- The blocks as elements of the field. -/
def blockElements (m : Bytes) : List (ZMod prime1305) :=
  (messageBlocks m).map fun b => (blockValue b : ZMod prime1305)

theorem length_blockElements (m : Bytes) : (blockElements m).length = (m.length + 15) / 16 := by
  simp [blockElements, messageBlocks]

theorem blockElements_ne_zero (m : Bytes) : ∀ c ∈ blockElements m, c ≠ 0 := by
  intro c hc
  obtain ⟨b, hb, rfl⟩ := List.mem_map.mp hc
  have hlt := blockValue_lt (length_of_mem_messageBlocks hb)
  have hpos : 0 < blockValue b := by
    rw [blockValue_eq]
    have := Nat.pow_pos (n := b.length) (show 0 < 256 by decide)
    omega
  rw [ne_eq, ZMod.natCast_eq_zero_iff]
  exact fun hdvd => absurd (Nat.le_of_dvd hpos hdvd) (by omega)

/-- Different messages have different blocks. -/
theorem blockElements_inj {m m' : Bytes} (h : blockElements m = blockElements m') : m = m' := by
  have hcast : ∀ l l' : List Bytes, (∀ b ∈ l, b.length ≤ 16) → (∀ b ∈ l', b.length ≤ 16) →
      l.map (fun b => (blockValue b : ZMod prime1305)) =
        l'.map (fun b => (blockValue b : ZMod prime1305)) → l = l' := by
    intro l
    induction l with
    | nil =>
        intro l' _ _ h
        exact (List.map_eq_nil_iff.mp h.symm).symm
    | cons b l ih =>
        intro l' hl hl' h
        cases l' with
        | nil => exact absurd h (List.cons_ne_nil _ _)
        | cons b' l' =>
            obtain ⟨hhead, htail⟩ := List.cons.inj h
            have hb := blockValue_lt (hl b List.mem_cons_self)
            have hb' := blockValue_lt (hl' b' List.mem_cons_self)
            have hvalue := CharP.natCast_injOn_Iio (ZMod prime1305) prime1305 hb hb' hhead
            rw [blockValue_inj hvalue, ih l' (fun b hb => hl b (List.mem_cons_of_mem _ hb))
              (fun b hb => hl' b (List.mem_cons_of_mem _ hb)) htail]
  have hblocks := hcast _ _ (fun b hb => length_of_mem_messageBlocks hb)
    (fun b hb => length_of_mem_messageBlocks hb) h
  rw [← flatten_messageBlocks m, hblocks, flatten_messageBlocks]

/-! ## The accumulator -/

theorem poly1305Accumulate_eq (r : Nat) (m : Bytes) :
    poly1305Accumulate r m = (messageBlocks m).foldl (poly1305Step r) 0 := by
  have hrest : (m.drop (16 * (m.length / 16))).length = m.length % 16 := by
    rw [List.length_drop]
    omega
  have hdef : poly1305Accumulate r m = if m.drop (16 * (m.length / 16)) = [] then
      BlockStream.blocks 16 (poly1305Step r) (m.length / 16) 0 m
    else poly1305Step r (BlockStream.blocks 16 (poly1305Step r) (m.length / 16) 0 m)
      (m.drop (16 * (m.length / 16))) := rfl
  rw [hdef, messageBlocks]
  by_cases hfull : m.drop (16 * (m.length / 16)) = []
  · have hcount : (m.length + 15) / 16 = m.length / 16 := by
      rw [hfull, List.length_nil] at hrest
      omega
    rw [if_pos hfull, hcount, BlockStream.blocks_eq_foldl]
  · have hcount : (m.length + 15) / 16 = m.length / 16 + 1 := by
      have hpos := List.length_pos_iff.mpr hfull
      omega
    have hblock : BlockStream.block 16 (m.length / 16) m = m.drop (16 * (m.length / 16)) :=
      List.take_of_length_le (by omega)
    rw [if_neg hfull, hcount, List.range_succ, List.map_append, List.foldl_append,
      BlockStream.blocks_eq_foldl, List.map_singleton, hblock]
    rfl

/-- In the field the accumulator is Horner's rule. -/
theorem cast_poly1305Accumulate (r : Nat) (m : Bytes) :
    (poly1305Accumulate r m : ZMod prime1305) =
      PolynomialHash.horner (r : ZMod prime1305) (blockElements m) := by
  have hfold : ∀ (l : List Bytes) (acc : Nat),
      ((l.foldl (poly1305Step r) acc : Nat) : ZMod prime1305) =
        (l.map fun b => (blockValue b : ZMod prime1305)).foldl
          (fun acc c => (acc + c) * (r : ZMod prime1305)) (acc : ZMod prime1305) := by
    intro l
    induction l with
    | nil => exact fun acc => rfl
    | cons b l ih =>
        intro acc
        rw [List.foldl_cons, ih, List.map_cons, List.foldl_cons, poly1305Step, ZMod.natCast_mod,
          Nat.cast_mul, Nat.cast_add]
        rfl
  rw [poly1305Accumulate_eq, hfold, Nat.cast_zero]
  rfl

theorem poly1305Accumulate_lt (r : Nat) (m : Bytes) : poly1305Accumulate r m < prime1305 := by
  have hblocks := poly1305Blocks_lt r (m.length / 16) 0 m (by decide)
  unfold poly1305Accumulate
  simp only
  split
  · exact hblocks
  · exact poly1305Step_lt ..

/-! ## Keys -/

/-- The ones among the lowest `n` bits of a mask. -/
def onesBelow : Nat → Nat → Nat
  | 0, _ => 0
  | n + 1, mask => mask % 2 + onesBelow n (mask / 2)

/-- The lowest bit of a number under a mask, and the others. -/
theorem and_eq_two_mul_add (x mask : Nat) :
    x &&& mask = 2 * (x / 2 &&& mask / 2) + x % 2 * (mask % 2) := by
  have hdiv : (x &&& mask) / 2 = x / 2 &&& mask / 2 := Nat.and_div_two
  have hmod : (x &&& mask) % 2 = x % 2 &&& mask % 2 := Nat.and_mod_two_pow (n := 1)
  have hbits : (x % 2 &&& mask % 2) = x % 2 * (mask % 2) := by
    rcases Nat.mod_two_eq_zero_or_one x with hx | hx <;>
      rcases Nat.mod_two_eq_zero_or_one mask with hm | hm <;>
        rw [hx, hm] <;> rfl
  omega

/-- The numbers under a mask, from those under its upper bits. -/
theorem image_and_succ (n mask : Nat) :
    (Finset.range (2 ^ (n + 1))).image (fun x => x &&& mask) =
      ((Finset.range (2 ^ n)).image fun x => 2 * (x &&& mask / 2)) ∪
        (Finset.range (2 ^ n)).image fun x => 2 * (x &&& mask / 2) + mask % 2 := by
  ext z
  simp only [Finset.mem_union, Finset.mem_image, Finset.mem_range, Nat.pow_succ]
  constructor
  · rintro ⟨x, hx, rfl⟩
    rw [and_eq_two_mul_add x mask]
    rcases Nat.mod_two_eq_zero_or_one x with hbit | hbit
    · exact Or.inl ⟨x / 2, by omega, by rw [hbit, Nat.zero_mul, Nat.add_zero]⟩
    · exact Or.inr ⟨x / 2, by omega, by rw [hbit, Nat.one_mul]⟩
  · rintro (⟨x, hx, rfl⟩ | ⟨x, hx, rfl⟩)
    · refine ⟨2 * x, by omega, ?_⟩
      rw [and_eq_two_mul_add, Nat.mul_mod_right, Nat.zero_mul, Nat.mul_div_cancel_left x two_pos,
        Nat.add_zero]
    · refine ⟨2 * x + 1, by omega, ?_⟩
      rw [and_eq_two_mul_add, Nat.mul_add_mod, Nat.one_mod, Nat.one_mul,
        show (2 * x + 1) / 2 = x by omega]

/-- How many numbers there are under a mask. -/
theorem card_image_and : ∀ n mask : Nat,
    ((Finset.range (2 ^ n)).image fun x => x &&& mask).card = 2 ^ onesBelow n mask
  | 0, mask => by simp [onesBelow]
  | n + 1, mask => by
      have hhalf : ∀ b : Nat, ((Finset.range (2 ^ n)).image fun x =>
          2 * (x &&& mask / 2) + b).card = 2 ^ onesBelow n (mask / 2) := by
        intro b
        have hinj : Function.Injective fun x : Nat => 2 * x + b := fun x y h => by
          have hxy : 2 * x + b = 2 * y + b := h
          omega
        have hcard := Finset.card_image_of_injective
          ((Finset.range (2 ^ n)).image fun x => x &&& mask / 2) hinj
        rw [Finset.image_image, card_image_and n (mask / 2)] at hcard
        exact hcard
      rw [image_and_succ, onesBelow]
      rcases Nat.mod_two_eq_zero_or_one mask with hbit | hbit
      · rw [hbit, Nat.zero_add]
        simp only [Nat.add_zero, Finset.union_self]
        exact hhalf 0
      · have hdisjoint : Disjoint ((Finset.range (2 ^ n)).image fun x => 2 * (x &&& mask / 2))
            ((Finset.range (2 ^ n)).image fun x => 2 * (x &&& mask / 2) + 1) := by
          rw [Finset.disjoint_left]
          intro z hz hz'
          obtain ⟨x, -, hx⟩ := Finset.mem_image.mp hz
          obtain ⟨y, -, hy⟩ := Finset.mem_image.mp hz'
          omega
        rw [hbit, Finset.card_union_of_disjoint hdisjoint, hhalf 1, Nat.pow_add, Nat.pow_one,
          Nat.two_mul]
        exact congrArg (· + 2 ^ onesBelow n (mask / 2)) (hhalf 0)

/-- The clamped halves that keys have. -/
@[irreducible] def clampedKeys : Finset Nat := (Finset.range (2 ^ 128)).image clamp

theorem mem_clampedKeys {r : Nat} : r ∈ clampedKeys ↔ ∃ x < 2 ^ 128, clamp x = r := by
  simp only [clampedKeys, Finset.mem_image, Finset.mem_range]

theorem card_clampedKeys : clampedKeys.card = 2 ^ 106 := by
  have hones : onesBelow 128 0x0ffffffc0ffffffc0ffffffc0fffffff = 106 := by decide +kernel
  rw [← hones, clampedKeys]
  exact card_image_and 128 _

theorem clamp_lt (r : Nat) : clamp r < prime1305 := by
  have hmask : clamp r ≤ 0x0ffffffc0ffffffc0ffffffc0fffffff := Nat.and_le_right
  have hprime : 0x0ffffffc0ffffffc0ffffffc0fffffff < prime1305 := by decide
  exact hmask.trans_lt hprime

/-- Few keys give the accumulators of two messages one difference. -/
theorem card_accumulate_sub_eq {m m' : Bytes} (hne : m ≠ m') (δ : ZMod prime1305) :
    (clampedKeys.filter fun r => (poly1305Accumulate r m - poly1305Accumulate r m' :
        ZMod prime1305) = δ).card ≤ max ((m.length + 15) / 16) ((m'.length + 15) / 16) := by
  have hinj : Set.InjOn (fun r : Nat => (r : ZMod prime1305)) clampedKeys := by
    intro r hr r' hr' h
    obtain ⟨x, -, rfl⟩ := mem_clampedKeys.mp hr
    obtain ⟨x', -, rfl⟩ := mem_clampedKeys.mp hr'
    exact CharP.natCast_injOn_Iio (ZMod prime1305) prime1305 (clamp_lt x) (clamp_lt x') h
  have hhash := PolynomialHash.card_horner_sub_eq (blockElements_ne_zero m)
    (blockElements_ne_zero m') (fun h => hne (blockElements_inj h))
    (clampedKeys.image fun r : Nat => (r : ZMod prime1305)) δ
  rw [length_blockElements, length_blockElements, Finset.filter_image,
    Finset.card_image_of_injOn (hinj.mono (Finset.coe_subset.mpr (Finset.filter_subset _ _)))]
    at hhash
  simp only [cast_poly1305Accumulate]
  exact hhash

/-! ## Tags -/

/-- The tag of a message, one update after `poly1305Init`. -/
def poly1305Tag (key : Octets 32) (m : Bytes) : Octets 16 :=
  poly1305Finish (poly1305Update (poly1305Init key.val) m)

theorem value_poly1305Tag (key : Octets 32) (m : Bytes) :
    LittleEndian.value (poly1305Tag key m).val =
      (poly1305Accumulate (clamp (LittleEndian.value (key.val.take 16))) m +
        LittleEndian.value (key.val.drop 16)) % 2 ^ 128 := by
  have hstream := poly1305_streaming key [m]
  rw [List.foldl_cons, List.foldl_nil, List.flatten_singleton] at hstream
  rw [poly1305Tag, hstream, poly1305Mac, LittleEndian.value_bytes, show 256 ^ 16 = 2 ^ 128 from rfl]

/-- The tag in every way of cutting the message: the blocks evaluated at the
clamped half of the key, in the field, and the other half added. -/
theorem poly1305_polynomial (key : Octets 32) (pieces : List Bytes) :
    LittleEndian.value (poly1305Finish (pieces.foldl poly1305Update (poly1305Init key.val))).val =
      ((PolynomialHash.horner (clamp (LittleEndian.value (key.val.take 16)) : ZMod prime1305)
          (blockElements pieces.flatten)).val +
        LittleEndian.value (key.val.drop 16)) % 2 ^ 128 := by
  rw [poly1305_streaming, poly1305Mac, LittleEndian.value_bytes, ← cast_poly1305Accumulate,
    ZMod.val_natCast_of_lt (poly1305Accumulate_lt _ _)]
  rfl

/-- The differences of two accumulators that two tags allow. -/
@[irreducible] def differences (tag tag' : Octets 16) : Finset Int :=
  (Finset.range 8).image fun k : Nat =>
    ((LittleEndian.value tag.val : Int) - LittleEndian.value tag'.val) % 2 ^ 128 +
      ((k : Int) - 4) * 2 ^ 128

theorem card_differences_le (tag tag' : Octets 16) : (differences tag tag').card ≤ 8 := by
  rw [differences]
  exact Finset.card_image_le.trans (Nat.le_of_eq (Finset.card_range 8))

theorem sub_mem_differences {key : Octets 32} {m m' : Bytes} {tag tag' : Octets 16}
    (h : poly1305Tag key m = tag) (h' : poly1305Tag key m' = tag') :
    (poly1305Accumulate (clamp (LittleEndian.value (key.val.take 16))) m : Int) -
      poly1305Accumulate (clamp (LittleEndian.value (key.val.take 16))) m' ∈
        differences tag tag' := by
  have hm := poly1305Accumulate_lt (clamp (LittleEndian.value (key.val.take 16))) m
  have hm' := poly1305Accumulate_lt (clamp (LittleEndian.value (key.val.take 16))) m'
  have hprime : prime1305 = 2 ^ 130 - 5 := rfl
  rw [differences, Finset.mem_image, ← h, ← h', value_poly1305Tag, value_poly1305Tag]
  generalize poly1305Accumulate _ m = x at hm ⊢
  generalize poly1305Accumulate _ m' = y at hm' ⊢
  refine ⟨(((x : Int) - y) / 2 ^ 128 + 4).toNat, ?_, ?_⟩
  · rw [Finset.mem_range]
    omega
  · push_cast
    omega

open Classical in
/-- The clamped keys under which two messages can have two tags, whatever the
other half of the key is. -/
noncomputable def forgeable (m m' : Bytes) (tag tag' : Octets 16) : Finset Nat :=
  clampedKeys.filter fun r => ∃ key : Octets 32,
    clamp (LittleEndian.value (key.val.take 16)) = r ∧
      poly1305Tag key m = tag ∧ poly1305Tag key m' = tag'

open Classical in
theorem mem_forgeable {m m' : Bytes} {tag tag' : Octets 16} {r : Nat} :
    r ∈ forgeable m m' tag tag' ↔ r ∈ clampedKeys ∧ ∃ key : Octets 32,
      clamp (LittleEndian.value (key.val.take 16)) = r ∧
        poly1305Tag key m = tag ∧ poly1305Tag key m' = tag' := by
  rw [forgeable, Finset.mem_filter]

/-- They are few. -/
theorem card_forgeable_le {m m' : Bytes} (hne : m ≠ m') (tag tag' : Octets 16) :
    (forgeable m m' tag tag').card ≤ 8 * max ((m.length + 15) / 16) ((m'.length + 15) / 16) := by
  have hcover : forgeable m m' tag tag' ⊆
      (differences tag tag').biUnion fun δ => clampedKeys.filter fun r =>
        (poly1305Accumulate r m - poly1305Accumulate r m' : ZMod prime1305) = δ := by
    intro r hr
    have hmem := mem_forgeable.mp hr
    obtain ⟨key, hkey, h, h'⟩ := hmem.2
    have hdiff := sub_mem_differences h h'
    rw [hkey] at hdiff
    refine Finset.mem_biUnion.mpr ⟨_, hdiff, Finset.mem_filter.mpr ⟨hmem.1, ?_⟩⟩
    rw [Int.cast_sub, Int.cast_natCast, Int.cast_natCast]
  have hunion := Finset.card_biUnion_le_card_mul (differences tag tag')
    (fun δ => clampedKeys.filter fun r =>
      (poly1305Accumulate r m - poly1305Accumulate r m' : ZMod prime1305) = δ) _
    fun δ _ => card_accumulate_sub_eq hne δ
  exact ((Finset.card_le_card hcover).trans hunion).trans
    (Nat.mul_le_mul_right _ (card_differences_le tag tag'))

theorem clamp_mem_clampedKeys (key : Octets 32) :
    clamp (LittleEndian.value (key.val.take 16)) ∈ clampedKeys := by
  have hlt := LittleEndian.value_lt (key.val.take 16)
  rw [List.length_take, key.property] at hlt
  exact mem_clampedKeys.mpr ⟨_, hlt, rfl⟩

theorem aeadMac_eq_poly1305Tag (key : SymmetricKey) (nonce : Nonce) (ad ciphertext : Bytes) :
    aeadMac key nonce ad ciphertext =
      poly1305Tag (aeadOneTimeKey key nonce) (aeadMacData ad ciphertext) := by
  have hstream := poly1305_streaming (aeadOneTimeKey key nonce) [aeadMacData ad ciphertext]
  rw [List.foldl_cons, List.foldl_nil, List.flatten_singleton] at hstream
  exact Subtype.ext ((aeadMac_eq key nonce ad ciphertext).trans hstream.symm)

/-- One sealed text and one other text, accepted under the same key and nonce:
the two of them fix a small part of the `2 ^ 106` clamped keys, and the
one-time key is in it. -/
theorem aead_forgery (ad ciphertext ad' ciphertext' : Bytes)
    (had : ad.length < 2 ^ 64) (hct : ciphertext.length < 2 ^ 64)
    (had' : ad'.length < 2 ^ 64) (hct' : ciphertext'.length < 2 ^ 64)
    (hne : (ad, ciphertext) ≠ (ad', ciphertext')) (tag tag' : Octets 16) :
    ∃ bad ⊆ clampedKeys, clampedKeys.card = 2 ^ 106 ∧
      bad.card ≤ 8 * max ((ad.length + 15) / 16 + (ciphertext.length + 15) / 16 + 1)
        ((ad'.length + 15) / 16 + (ciphertext'.length + 15) / 16 + 1) ∧
      ∀ (key : SymmetricKey) (nonce : Nonce),
        (chacha20poly1305Decrypt key nonce ad ciphertext tag).isSome →
        (chacha20poly1305Decrypt key nonce ad' ciphertext' tag').isSome →
        clamp (LittleEndian.value ((aeadOneTimeKey key nonce).val.take 16)) ∈ bad := by
  have hdata : aeadMacData ad ciphertext ≠ aeadMacData ad' ciphertext' := by
    intro h
    obtain ⟨rfl, rfl⟩ := aeadMacData_inj had hct had' hct' h
    exact hne rfl
  refine ⟨forgeable (aeadMacData ad ciphertext) (aeadMacData ad' ciphertext') tag tag',
    fun r hr => (mem_forgeable.mp hr).1, card_clampedKeys, ?_, ?_⟩
  · have hcard := card_forgeable_le hdata tag tag'
    have hblocks : ∀ n, (16 * n + 15) / 16 = n := by omega
    rwa [length_aeadMacData, length_aeadMacData, hblocks, hblocks] at hcard
  · intro key nonce hsealed hforged
    refine mem_forgeable.mpr
      ⟨clamp_mem_clampedKeys _, aeadOneTimeKey key nonce, rfl, ?_, ?_⟩
    · rw [← aeadMac_eq_poly1305Tag]
      exact aeadMac_of_isSome hsealed
    · rw [← aeadMac_eq_poly1305Tag]
      exact aeadMac_of_isSome hforged

/-- A single byte in the place of nothing, both with a tag of zeros. -/
theorem aead_forgery_nil_one :
    ∃ bad ⊆ clampedKeys, clampedKeys.card = 2 ^ 106 ∧ bad.card ≤ 16 ∧
      ∀ (key : SymmetricKey) (nonce : Nonce),
        (chacha20poly1305Decrypt key nonce [] [] (Octets.zero 16)).isSome →
        (chacha20poly1305Decrypt key nonce [] [1] (Octets.zero 16)).isSome →
        clamp (LittleEndian.value ((aeadOneTimeKey key nonce).val.take 16)) ∈ bad :=
  aead_forgery [] [] [] [1] (by decide) (by decide) (by decide) (by decide) (by decide)
    (Octets.zero 16) (Octets.zero 16)

end EsphomeApi.Noise
