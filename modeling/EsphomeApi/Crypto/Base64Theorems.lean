/-
EsphomeApi.Crypto.Base64Theorems — `base64_decode` accepts the padded
RFC 4648 encodings and nothing else.

`base64Decode` of `Crypto.Base64` tells what a call appends. The function
itself also owns its output: it clears it, pushes a byte of a quartet before
it has looked at the quartet's other characters, and clears it again where it
gives up. `base64DecodeTo` is that loop with its buffer, `base64DecodeTo_eq`
ties it to `base64Decode`, and `base64Decode_eq_some_iff` says which texts
have a decoding.
-/
import EsphomeApi.Crypto.Base64
import EsphomeApi.Library.Base64

namespace EsphomeApi.Noise

open Library

/-! ## The output buffer -/

/-- The loop of `base64_decode` from a quartet on, `out` written so far: what
it returns, and the buffer it leaves. -/
def base64Loop : CString → Bytes → Bool × Bytes
  | c0 :: c1 :: c2 :: c3 :: rest, out =>
      match base64Value c0, base64Value c1 with
      | some v0, some v1 =>
          let out := out ++ [(v0 <<< 2) ||| (v1 >>> 4)]
          if c2 = base64Pad then
            if rest ≠ [] ∨ c3 ≠ base64Pad ∨ v1 &&& 0x0F ≠ 0 then (false, [])
            else (true, out)
          else
            match base64Value c2 with
            | none => (false, [])
            | some v2 =>
                let out := out ++ [(v1 <<< 4) ||| (v2 >>> 2)]
                if c3 = base64Pad then
                  if rest ≠ [] ∨ v2 &&& 0x03 ≠ 0 then (false, []) else (true, out)
                else
                  match base64Value c3 with
                  | none => (false, [])
                  | some v3 => base64Loop rest (out ++ [(v2 <<< 6) ||| v3])
      | _, _ => (false, [])
  | _, out => (true, out)

/-- `base64_decode(text, out)`: what it returns and what `out` holds then. It
clears `out` first, so what `out` held before does not matter. -/
def base64DecodeTo (text : CString) (_out : Bytes) : Bool × Bytes :=
  if text.length % 4 ≠ 0 then (false, []) else base64Loop text []

/-- The loop succeeds with its quartets appended, or fails with an empty
buffer. -/
theorem base64Loop_eq (text : CString) (out : Bytes) :
    base64Loop text out = match base64Quartets text with
      | some bytes => (true, out ++ bytes)
      | none => (false, []) := by
  induction text using base64Quartets.induct generalizing out with
  | case7 c0 c1 c2 c3 rest v0 v1 h1 h0 hc2 v2 h2 hc3 v3 h3 ih =>
      simp only [base64Loop, base64Quartets, h0, h1, if_neg hc2, h2, if_neg hc3, h3, ih]
      cases base64Quartets rest <;> simp
  | _ => simp_all [base64Loop, base64Quartets]

theorem base64DecodeTo_eq (text : CString) (out : Bytes) :
    base64DecodeTo text out = match base64Decode text with
      | some bytes => (true, bytes)
      | none => (false, []) := by
  unfold base64DecodeTo base64Decode
  split
  · rfl
  · simp [base64Loop_eq]

/-! ## The alphabet -/

/-- The base-64 alphabet, digit by digit. -/
def base64Chars : CString :=
  lit "ABCDEFGHIJKLMNOPQRSTUVWXYZabcdefghijklmnopqrstuvwxyz0123456789+/"

def base64Char (d : Nat) : UInt8 := base64Chars.getD d 0

theorem base64Value_char : ∀ {d : Nat}, d < 64 →
    base64Value (base64Char d) = some (UInt8.ofNat d) := by
  decide +kernel

theorem base64Char_ne_pad : ∀ {d : Nat}, d < 64 → base64Char d ≠ base64Pad := by
  decide +kernel

theorem base64Char_value (c : UInt8) :
    ∀ v ∈ base64Value c, v.toNat < 64 ∧ base64Char v.toNat = c := by
  have h : ∀ n < 256, ∀ v ∈ base64Value (UInt8.ofNat n),
      v.toNat < 64 ∧ base64Char v.toNat = UInt8.ofNat n := by
    decide +kernel
  simpa using h c.toNat c.toNat_lt

theorem exists_base64Value {d : Nat} (hd : d < 64) :
    ∃ v, base64Value (base64Char d) = some v ∧ v.toNat = d := by
  refine ⟨UInt8.ofNat d, base64Value_char hd, ?_⟩
  rw [UInt8.toNat_ofNat']
  omega

/-- RFC 4648's alphabet and padding. -/
def base64Alphabet : Base64.Alphabet UInt8 where
  char := base64Char
  pad := base64Pad
  char_inj := by
    intro d e hd he h
    have hv := congrArg base64Value h
    rw [base64Value_char hd, base64Value_char he, Option.some.injEq, ← UInt8.toNat_inj,
      UInt8.toNat_ofNat', UInt8.toNat_ofNat'] at hv
    omega
  char_ne_pad := base64Char_ne_pad

/-- The padded RFC 4648 encoding of a byte string. -/
def base64Encode (bytes : Bytes) : CString := Base64.encode base64Alphabet bytes

/-! ## Both directions -/

theorem low_four_bits (v : UInt8) : v &&& 0x0F ≠ 0 ↔ v.toNat % 16 ≠ 0 := by
  rw [← UInt8.toNat_inj.ne, UInt8.toNat_and]
  exact (Nat.and_two_pow_sub_one_eq_mod v.toNat 4 ▸ Iff.rfl)

theorem low_two_bits (v : UInt8) : v &&& 0x03 ≠ 0 ↔ v.toNat % 4 ≠ 0 := by
  rw [← UInt8.toNat_inj.ne, UInt8.toNat_and]
  exact (Nat.and_two_pow_sub_one_eq_mod v.toNat 2 ▸ Iff.rfl)

/-- Whatever the quartets decode to encodes to the text they were read from. -/
theorem encode_base64Quartets (text : CString) (hlen : text.length % 4 = 0) (bytes : Bytes)
    (h : base64Quartets text = some bytes) : base64Encode bytes = text := by
  induction text using base64Quartets.induct generalizing bytes with
  | case2 c0 c1 c3 rest v0 v1 h1 h0 hok =>
      obtain ⟨hv0, rfl⟩ := base64Char_value c0 v0 h0
      obtain ⟨hv1, rfl⟩ := base64Char_value c1 v1 h1
      simp only [base64Quartets, h0, h1, if_true, if_neg hok, Option.some.injEq] at h
      simp only [not_or, not_not, low_four_bits] at hok
      obtain ⟨rfl, rfl, hzero⟩ := hok
      rw [← h, Base64.firstByte_eq hv0 hv1, base64Encode, Base64.encode,
        Base64.firstDigit_byte hv0 hv1, Base64.secondDigit_zero hv0 hv1 hzero]
      rfl
  | case5 c0 c1 c2 rest v0 v1 h1 h0 hc2 v2 h2 hok =>
      obtain ⟨hv0, rfl⟩ := base64Char_value c0 v0 h0
      obtain ⟨hv1, rfl⟩ := base64Char_value c1 v1 h1
      obtain ⟨hv2, rfl⟩ := base64Char_value c2 v2 h2
      simp only [base64Quartets, h0, h1, if_neg hc2, h2, if_true, if_neg hok,
        Option.some.injEq] at h
      simp only [not_or, not_not, low_two_bits] at hok
      obtain ⟨rfl, hzero⟩ := hok
      rw [← h, Base64.firstByte_eq hv0 hv1, Base64.secondByte_eq hv2, base64Encode,
        Base64.encode, Base64.firstDigit_byte hv0 hv1, Base64.secondDigit_bytes hv0 hv1 hv2,
        Base64.thirdDigit_zero hv2 hzero]
      rfl
  | case7 c0 c1 c2 c3 rest v0 v1 h1 h0 hc2 v2 h2 hc3 v3 h3 ih =>
      obtain ⟨hv0, rfl⟩ := base64Char_value c0 v0 h0
      obtain ⟨hv1, rfl⟩ := base64Char_value c1 v1 h1
      obtain ⟨hv2, rfl⟩ := base64Char_value c2 v2 h2
      obtain ⟨hv3, rfl⟩ := base64Char_value c3 v3 h3
      simp only [base64Quartets, h0, h1, if_neg hc2, h2, if_neg hc3, h3,
        Option.map_eq_some_iff] at h
      obtain ⟨tail, htail, rfl⟩ := h
      have hrest := ih (by simp only [List.length_cons] at hlen; omega) tail htail
      rw [Base64.firstByte_eq hv0 hv1, Base64.secondByte_eq hv2, Base64.lastByte_eq hv3,
        base64Encode, Base64.encode, Base64.firstDigit_byte hv0 hv1,
        Base64.secondDigit_bytes hv0 hv1 hv2, Base64.thirdDigit_bytes hv2 hv3,
        Base64.lastDigit_byte hv3]
      rw [base64Encode] at hrest
      rw [hrest]
      rfl
  | case9 text hshort =>
      rcases text with _ | ⟨c0, _ | ⟨c1, _ | ⟨c2, _ | ⟨c3, rest⟩⟩⟩⟩
      · simp_all [base64Quartets, base64Encode, Base64.encode]
      · cases hlen
      · cases hlen
      · cases hlen
      · exact absurd rfl (hshort c0 c1 c2 c3 rest)
  | _ => simp_all [base64Quartets]

/-- The quartets of an encoding decode to what was encoded. -/
theorem base64Quartets_encode (bytes : Bytes) :
    base64Quartets (base64Encode bytes) = some bytes := by
  unfold base64Encode
  induction bytes using Base64.encode.induct with
  | case1 => rfl
  | case2 x =>
      obtain ⟨v0, h0, hv0⟩ := exists_base64Value (Base64.firstDigit_lt x)
      obtain ⟨v1, h1, hv1⟩ := exists_base64Value (Base64.secondDigit_lt x 0)
      have hlow : ¬ v1 &&& 0x0F ≠ 0 := by
        rw [low_four_bits, hv1, Base64.secondDigit_zero_mod]
        simp
      have hbyte : (v0 <<< 2) ||| (v1 >>> 4) = x := Base64.shifts_firstByte hv0 hv1
      simp [Base64.encode, base64Quartets, base64Alphabet, h0, h1, hlow, hbyte]
  | case3 x y =>
      obtain ⟨v0, h0, hv0⟩ := exists_base64Value (Base64.firstDigit_lt x)
      obtain ⟨v1, h1, hv1⟩ := exists_base64Value (Base64.secondDigit_lt x y)
      obtain ⟨v2, h2, hv2⟩ := exists_base64Value (Base64.thirdDigit_lt y 0)
      have hchar := base64Char_ne_pad (Base64.thirdDigit_lt y 0)
      have hlow : ¬ v2 &&& 0x03 ≠ 0 := by
        rw [low_two_bits, hv2, Base64.thirdDigit_zero_mod]
        simp
      have hbyte0 : (v0 <<< 2) ||| (v1 >>> 4) = x := Base64.shifts_firstByte hv0 hv1
      have hbyte1 : (v1 <<< 4) ||| (v2 >>> 2) = y := Base64.shifts_secondByte hv1 hv2
      simp [Base64.encode, base64Quartets, base64Alphabet, h0, h1, hchar, h2, hlow, hbyte0,
        hbyte1]
  | case4 x y z rest ih =>
      obtain ⟨v0, h0, hv0⟩ := exists_base64Value (Base64.firstDigit_lt x)
      obtain ⟨v1, h1, hv1⟩ := exists_base64Value (Base64.secondDigit_lt x y)
      obtain ⟨v2, h2, hv2⟩ := exists_base64Value (Base64.thirdDigit_lt y z)
      obtain ⟨v3, h3, hv3⟩ := exists_base64Value (Base64.lastDigit_lt z)
      have hchar2 := base64Char_ne_pad (Base64.thirdDigit_lt y z)
      have hchar3 := base64Char_ne_pad (Base64.lastDigit_lt z)
      have hbyte0 : (v0 <<< 2) ||| (v1 >>> 4) = x := Base64.shifts_firstByte hv0 hv1
      have hbyte1 : (v1 <<< 4) ||| (v2 >>> 2) = y := Base64.shifts_secondByte hv1 hv2
      have hbyte2 : (v2 <<< 6) ||| v3 = z := Base64.shifts_lastByte hv2 hv3
      simp only [Base64.encode, base64Quartets, base64Alphabet, h0, h1, if_neg hchar2, h2,
        if_neg hchar3, h3, hbyte0, hbyte1, hbyte2]
      exact congrArg (Option.map fun tail => x :: y :: z :: tail) ih

/-! ## Acceptance -/

theorem base64Decode_eq_some_iff (text : CString) (bytes : Bytes) :
    base64Decode text = some bytes ↔ text = base64Encode bytes := by
  unfold base64Decode
  constructor
  · intro h
    split at h
    · cases h
    · rename_i hlen
      exact (encode_base64Quartets text (not_not.mp hlen) bytes h).symm
  · rintro rfl
    have hlen : (base64Encode bytes).length % 4 = 0 :=
      Base64.length_encode_mod base64Alphabet bytes
    rw [if_neg (not_not.mpr hlen)]
    exact base64Quartets_encode bytes

/-- `base64_decode` returns true with output `b` exactly for the encoding of
`b`. So it inverts the encoding, two texts it accepts with one output are the
same text, and a text it rejects leaves the output empty. -/
theorem base64_decode_accepts_canonical (text : CString) (out : Bytes) :
    (∀ bytes, base64DecodeTo text out = (true, bytes) ↔ text = base64Encode bytes) ∧
    (∀ bytes, base64DecodeTo (base64Encode bytes) out = (true, bytes)) ∧
    (∀ text' out' bytes, base64DecodeTo text out = (true, bytes) →
      base64DecodeTo text' out' = (true, bytes) → text = text') ∧
    ((base64DecodeTo text out).1 = false → (base64DecodeTo text out).2 = []) := by
  have accepts : ∀ (text : CString) (out bytes : Bytes),
      base64DecodeTo text out = (true, bytes) ↔ text = base64Encode bytes := by
    intro text out bytes
    rw [← base64Decode_eq_some_iff, base64DecodeTo_eq]
    cases base64Decode text <;> simp
  refine ⟨accepts text out, fun bytes => (accepts _ out bytes).mpr rfl, ?_, ?_⟩
  · intro text' out' bytes h h'
    rw [(accepts text out bytes).mp h, (accepts text' out' bytes).mp h']
  · rw [base64DecodeTo_eq]
    cases base64Decode text <;> simp

example : base64Encode [77, 97] = lit "TWE=" := by decide

end EsphomeApi.Noise
