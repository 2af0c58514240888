/-
EsphomeApi.Library.Base64 — the padded base-64 encoding of RFC 4648, over any
alphabet of 64 characters and a padding character.

Three bytes are four digits of six bits. A last group of one or two bytes is
filled up with zero bits to two or three digits, and with padding to four
characters, so a text that leaves other bits there is no encoding of anything.

A group is treated as numbers: `firstDigit` to `lastDigit` cut bytes into
digits, `firstByte` to `lastByte` put digits together again, and the lemmas
between them are all the arithmetic there is.
-/
import Mathlib.Algebra.GroupWithZero.Nat
import Mathlib.Logic.Function.Basic

namespace EsphomeApi.Library.Base64

/-- Sixty-four distinct characters and one more for padding. -/
structure Alphabet (α : Type) where
  char : Nat → α
  pad : α
  char_inj : ∀ {d e : Nat}, d < 64 → e < 64 → char d = char e → d = e
  char_ne_pad : ∀ {d : Nat}, d < 64 → char d ≠ pad

/-! ## Shifts -/

/-- Shifting a byte up and ORing smaller bits in below adds them there; what is
shifted past eight bits is lost. -/
theorem toNat_shiftLeft_or (x y : UInt8) {s : Nat} (hs : s < 8) (hy : y.toNat < 2 ^ s) :
    ((x <<< UInt8.ofNat s) ||| y).toNat = x.toNat % 2 ^ (8 - s) * 2 ^ s + y.toNat := by
  have hbyte : (UInt8.ofNat s).toNat % 8 = s := by
    rw [UInt8.toNat_ofNat']
    omega
  have hpow : 2 ^ 8 = 2 ^ (8 - s) * 2 ^ s := by
    rw [← Nat.pow_add, Nat.sub_add_cancel (by omega)]
  rw [UInt8.toNat_or, UInt8.toNat_shiftLeft, hbyte, Nat.shiftLeft_eq, hpow,
    Nat.mul_mod_mul_right, ← Nat.shiftLeft_eq, ← Nat.shiftLeft_add_eq_or_of_lt hy,
    Nat.shiftLeft_eq]

theorem toNat_shiftRight (x : UInt8) {s : Nat} (hs : s < 8) :
    (x >>> UInt8.ofNat s).toNat = x.toNat / 2 ^ s := by
  have hbyte : (UInt8.ofNat s).toNat % 8 = s := by
    rw [UInt8.toNat_ofNat']
    omega
  rw [UInt8.toNat_shiftRight, hbyte, Nat.shiftRight_eq_div_pow]

/-! ## Digits of bytes -/

def firstDigit (x : UInt8) : Nat := x.toNat / 4
def secondDigit (x y : UInt8) : Nat := x.toNat % 4 * 16 + y.toNat / 16
def thirdDigit (y z : UInt8) : Nat := y.toNat % 16 * 4 + z.toNat / 64
def lastDigit (z : UInt8) : Nat := z.toNat % 64

theorem firstDigit_lt (x : UInt8) : firstDigit x < 64 := by
  have := x.toNat_lt
  unfold firstDigit
  omega

theorem secondDigit_lt (x y : UInt8) : secondDigit x y < 64 := by
  have := y.toNat_lt
  unfold secondDigit
  omega

theorem thirdDigit_lt (y z : UInt8) : thirdDigit y z < 64 := by
  have := z.toNat_lt
  unfold thirdDigit
  omega

theorem lastDigit_lt (z : UInt8) : lastDigit z < 64 := Nat.mod_lt _ (by decide)

/-! ## Bytes of digits -/

def firstByte (d e : Nat) : UInt8 := UInt8.ofNat (d * 4 + e / 16)
def secondByte (e f : Nat) : UInt8 := UInt8.ofNat (e % 16 * 16 + f / 4)
def lastByte (f g : Nat) : UInt8 := UInt8.ofNat (f % 4 * 64 + g)

theorem toNat_firstByte {d e : Nat} (hd : d < 64) (he : e < 64) :
    (firstByte d e).toNat = d * 4 + e / 16 := by
  rw [firstByte, UInt8.toNat_ofNat']
  omega

theorem toNat_secondByte {e f : Nat} (hf : f < 64) :
    (secondByte e f).toNat = e % 16 * 16 + f / 4 := by
  rw [secondByte, UInt8.toNat_ofNat']
  omega

theorem toNat_lastByte {f g : Nat} (hg : g < 64) :
    (lastByte f g).toNat = f % 4 * 64 + g := by
  rw [lastByte, UInt8.toNat_ofNat']
  omega

/-- The shifts that put digits together in machine bytes. -/
theorem firstByte_eq {v w : UInt8} (hv : v.toNat < 64) (hw : w.toNat < 64) :
    (v <<< 2) ||| (w >>> 4) = firstByte v.toNat w.toNat := by
  have hlow : (w >>> 4).toNat = w.toNat / 16 := toNat_shiftRight w (by decide)
  have hsmall : (w >>> 4).toNat < 2 ^ 2 := by omega
  have hor : ((v <<< 2) ||| (w >>> 4)).toNat = v.toNat % 64 * 4 + (w >>> 4).toNat :=
    toNat_shiftLeft_or v (w >>> 4) (by decide) hsmall
  rw [← UInt8.toNat_inj, toNat_firstByte hv hw, hor, hlow]
  omega

theorem secondByte_eq {v w : UInt8} (hw : w.toNat < 64) :
    (v <<< 4) ||| (w >>> 2) = secondByte v.toNat w.toNat := by
  have hlow : (w >>> 2).toNat = w.toNat / 4 := toNat_shiftRight w (by decide)
  have hsmall : (w >>> 2).toNat < 2 ^ 4 := by omega
  have hor : ((v <<< 4) ||| (w >>> 2)).toNat = v.toNat % 16 * 16 + (w >>> 2).toNat :=
    toNat_shiftLeft_or v (w >>> 2) (by decide) hsmall
  rw [← UInt8.toNat_inj, toNat_secondByte hw, hor, hlow]

theorem lastByte_eq {v w : UInt8} (hw : w.toNat < 64) :
    (v <<< 6) ||| w = lastByte v.toNat w.toNat := by
  have hor : ((v <<< 6) ||| w).toNat = v.toNat % 4 * 64 + w.toNat :=
    toNat_shiftLeft_or v w (by decide) hw
  rw [← UInt8.toNat_inj, toNat_lastByte hw, hor]

theorem firstByte_digits (x y : UInt8) : firstByte (firstDigit x) (secondDigit x y) = x := by
  have hy := y.toNat_lt
  rw [← UInt8.toNat_inj, toNat_firstByte (firstDigit_lt x) (secondDigit_lt x y), firstDigit,
    secondDigit]
  omega

theorem secondByte_digits (x y z : UInt8) :
    secondByte (secondDigit x y) (thirdDigit y z) = y := by
  have hy := y.toNat_lt
  have hz := z.toNat_lt
  rw [← UInt8.toNat_inj, toNat_secondByte (thirdDigit_lt y z), secondDigit, thirdDigit]
  omega

theorem lastByte_digits (y z : UInt8) : lastByte (thirdDigit y z) (lastDigit z) = z := by
  have hz := z.toNat_lt
  rw [← UInt8.toNat_inj, toNat_lastByte (lastDigit_lt z), thirdDigit, lastDigit]
  omega

/-! Machine bytes that hold the digits of a group. -/

theorem shifts_firstByte {v w x y : UInt8} (hv : v.toNat = firstDigit x)
    (hw : w.toNat = secondDigit x y) : (v <<< 2) ||| (w >>> 4) = x := by
  have hvlt : v.toNat < 64 := hv ▸ firstDigit_lt x
  have hwlt : w.toNat < 64 := hw ▸ secondDigit_lt x y
  rw [firstByte_eq hvlt hwlt, hv, hw, firstByte_digits]

theorem shifts_secondByte {v w x y z : UInt8} (hv : v.toNat = secondDigit x y)
    (hw : w.toNat = thirdDigit y z) : (v <<< 4) ||| (w >>> 2) = y := by
  have hwlt : w.toNat < 64 := hw ▸ thirdDigit_lt y z
  rw [secondByte_eq hwlt, hv, hw, secondByte_digits]

theorem shifts_lastByte {v w y z : UInt8} (hv : v.toNat = thirdDigit y z)
    (hw : w.toNat = lastDigit z) : (v <<< 6) ||| w = z := by
  have hwlt : w.toNat < 64 := hw ▸ lastDigit_lt z
  rw [lastByte_eq hwlt, hv, hw, lastByte_digits]

/-! ## The bytes of four digits cut up again -/

theorem firstDigit_byte {d e : Nat} (hd : d < 64) (he : e < 64) :
    firstDigit (firstByte d e) = d := by
  rw [firstDigit, toNat_firstByte hd he]
  omega

theorem secondDigit_bytes {d e f : Nat} (hd : d < 64) (he : e < 64) (hf : f < 64) :
    secondDigit (firstByte d e) (secondByte e f) = e := by
  rw [secondDigit, toNat_firstByte hd he, toNat_secondByte hf]
  omega

theorem thirdDigit_bytes {e f g : Nat} (hf : f < 64) (hg : g < 64) :
    thirdDigit (secondByte e f) (lastByte f g) = f := by
  rw [thirdDigit, toNat_secondByte hf, toNat_lastByte hg]
  omega

theorem lastDigit_byte {f g : Nat} (hg : g < 64) : lastDigit (lastByte f g) = g := by
  rw [lastDigit, toNat_lastByte hg]
  omega

/-- In a last group of one byte the second digit has four zero bits. -/
theorem secondDigit_zero {d e : Nat} (hd : d < 64) (he : e < 64) (hzero : e % 16 = 0) :
    secondDigit (firstByte d e) 0 = e := by
  rw [secondDigit, toNat_firstByte hd he, UInt8.toNat_zero]
  omega

/-- In a last group of two bytes the third digit has two zero bits. -/
theorem thirdDigit_zero {e f : Nat} (hf : f < 64) (hzero : f % 4 = 0) :
    thirdDigit (secondByte e f) 0 = f := by
  rw [thirdDigit, toNat_secondByte hf, UInt8.toNat_zero]
  omega

theorem secondDigit_zero_mod (x : UInt8) : secondDigit x 0 % 16 = 0 := by
  rw [secondDigit, UInt8.toNat_zero]
  omega

theorem thirdDigit_zero_mod (y : UInt8) : thirdDigit y 0 % 4 = 0 := by
  rw [thirdDigit, UInt8.toNat_zero]
  omega

/-! ## Encoding -/

variable {α : Type}

/-- The encoding of a byte string. -/
def encode (A : Alphabet α) : List UInt8 → List α
  | [] => []
  | [x] => [A.char (firstDigit x), A.char (secondDigit x 0), A.pad, A.pad]
  | [x, y] =>
      [A.char (firstDigit x), A.char (secondDigit x y), A.char (thirdDigit y 0), A.pad]
  | x :: y :: z :: rest =>
      A.char (firstDigit x) :: A.char (secondDigit x y) :: A.char (thirdDigit y z)
        :: A.char (lastDigit z) :: encode A rest

theorem length_encode_mod (A : Alphabet α) (bytes : List UInt8) :
    (encode A bytes).length % 4 = 0 := by
  induction bytes using encode.induct with
  | case1 => rfl
  | case2 x => simp [encode]
  | case3 x y => simp [encode]
  | case4 x y z rest ih =>
      simp only [encode, List.length_cons]
      omega

end EsphomeApi.Library.Base64
