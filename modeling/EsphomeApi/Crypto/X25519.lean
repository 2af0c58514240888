/-
EsphomeApi.Crypto.X25519 — `x25519.cpp`: Curve25519 over sixteen limbs of 16
bits in signed 64-bit words.

Overflow of a signed word is undefined, so every sum, difference and product
goes through `Library.SignedWord` and every function may have no result. That
it always has one, and which, is proved in `Crypto.X25519Limbs` for the
arithmetic and in `Crypto.X25519Theorems` for the scalar multiplication.
-/
import EsphomeApi.Crypto.Primitives
import EsphomeApi.Library.SignedWord

namespace EsphomeApi.Noise

open Library.SignedWord

/-- `gf`. -/
abbrev Gf := Vector Int64 16

namespace Gf

def zero : Gf := Vector.replicate 16 0

def one : Gf := zero.set 0 1

/-- `c121665`. -/
def c121665 : Gf := (zero.set 0 0xDB41).set 1 1

/-! ## Carries and conversions -/

/-- `(i + 1) * (i < 15)`. -/
def next (i : Fin 16) : Fin 16 := if i < 15 then i + 1 else 0

/-- A turn of `car25519`. -/
def carStep (o : Gf) (i : Fin 16) : Option Gf := do
  let oi ← checkedAdd o[i] 65536
  let o := o.set i oi
  let c := o[i] >>> 16
  let low ← checkedSub c 1
  let top ← checkedMul 37 low
  let top ← checkedMul top (if i = 15 then 1 else 0)
  let carry ← checkedAdd low top
  let on ← checkedAdd o[next i] carry
  let o := o.set (next i) on
  let down ← checkedMul c 65536
  let oi ← checkedSub o[i] down
  return o.set i oi

def car25519 (o : Gf) : Option Gf := (List.finRange 16).foldlM carStep o

/-- `sel25519`: both arrays as they are for 0, swapped for 1. -/
def sel25519 (p q : Gf) (b : Int32) : Gf × Gf :=
  let c := (~~~(b - 1)).toInt64
  (Vector.zipWith (fun p q => p ^^^ (c &&& (p ^^^ q))) p q,
    Vector.zipWith (fun p q => q ^^^ (c &&& (p ^^^ q))) p q)

/-- A turn of the inner loop of `pack25519`, for limb `i + 1`. -/
def packStep (t m : Gf) (i : Fin 14) : Option Gf := do
  let prev : Fin 16 := i.castLE (by decide)
  let this : Fin 16 := i.succ.castLE (by decide)
  let d ← checkedSub t[this] 0xffff
  let d ← checkedSub d ((m[prev] >>> 16) &&& 1)
  let m := m.set this d
  return m.set prev (m[prev] &&& 0xffff)

/-- The difference in limb 0, over an array of zeros. -/
def packFirst (t : Gf) : Option Gf := do
  let m0 ← checkedSub t[0] 0xffed
  return zero.set 0 m0

/-- A turn of the outer loop of `pack25519`: `t - p` if that is not negative. -/
def packTurn (t : Gf) : Option Gf := do
  let m ← packFirst t
  let m ← (List.finRange 14).foldlM (packStep t) m
  let d ← checkedSub t[15] 0x7fff
  let d ← checkedSub d ((m[14] >>> 16) &&& 1)
  let m := m.set 15 d
  let b := ((m[15] >>> 16) &&& 1).toInt32
  let m := m.set 14 (m[14] &&& 0xffff)
  return (sel25519 t m (1 - b)).1

/-- The two bytes of a limb. -/
def limbBytes (t : Int64) : Bytes := [(t &&& 0xff).toUInt64.toUInt8, (t >>> 8).toUInt64.toUInt8]

theorem length_limbBytes (words : List Int64) :
    (words.flatMap limbBytes).length = 2 * words.length := by
  rw [List.length_flatMap]
  simp [limbBytes, Nat.mul_comm]

theorem length_bytes (t : Gf) : (t.toList.flatMap limbBytes).length = 32 := by
  rw [length_limbBytes, Vector.length_toList]

def pack25519 (n : Gf) : Option (Octets 32) := do
  let t ← car25519 n
  let t ← car25519 t
  let t ← car25519 t
  let t ← packTurn t
  let t ← packTurn t
  return ⟨t.toList.flatMap limbBytes, length_bytes t⟩

/-- A byte as a signed word. -/
def i64 (b : UInt8) : Int64 := b.toUInt64.toInt64

def unpackStep (n : Octets 32) (o : Gf) (i : Fin 16) : Option Gf := do
  let v ← checkedAdd (i64 (n.val.getD (2 * i) 0)) (i64 (n.val.getD (2 * i + 1) 0) <<< 8)
  return o.set i v

def unpack25519 (n : Octets 32) : Option Gf := do
  let o ← (List.finRange 16).foldlM (unpackStep n) zero
  return o.set 15 (o[15] &&& 0x7fff)

/-! ## Field arithmetic -/

def addStep (a b o : Gf) (i : Fin 16) : Option Gf := do
  let v ← checkedAdd a[i] b[i]
  return o.set i v

def add (a b : Gf) : Option Gf := (List.finRange 16).foldlM (addStep a b) zero

def subStep (a b o : Gf) (i : Fin 16) : Option Gf := do
  let v ← checkedSub a[i] b[i]
  return o.set i v

def sub (a b : Gf) : Option Gf := (List.finRange 16).foldlM (subStep a b) zero

/-- `t[i + j] += a[i] * b[j]`. -/
def mulStep (a b : Gf) (i : Fin 16) (t : Vector Int64 31) (j : Fin 16) :
    Option (Vector Int64 31) := do
  let k : Fin 31 := ⟨i + j, by omega⟩
  let p ← checkedMul a[i] b[j]
  let s ← checkedAdd t[k] p
  return t.set k s

/-- `i + 16`. -/
def upper (i : Fin 15) : Fin 31 := ⟨i + 16, by omega⟩

/-- `t[i] += 38 * t[i + 16]`. -/
def mulFold (t : Vector Int64 31) (i : Fin 15) : Option (Vector Int64 31) := do
  let k : Fin 31 := i.castLE (by decide)
  let p ← checkedMul 38 t[upper i]
  let s ← checkedAdd t[k] p
  return t.set k s

/-- `o[i] = t[i]`: the lower half of a product. -/
def half (t : Vector Int64 31) : Gf := Vector.ofFn fun i : Fin 16 => t[i]

def mul (a b : Gf) : Option Gf := do
  let t ← (List.finRange 16).foldlM
    (fun t i => (List.finRange 16).foldlM (mulStep a b i) t) (Vector.replicate 31 0)
  let t ← (List.finRange 15).foldlM mulFold t
  let o ← car25519 (half t)
  car25519 o

def sqr (a : Gf) : Option Gf := mul a a

def inv25519 (i : Gf) : Option Gf :=
  (List.range 254).reverse.foldlM (fun c a => do
    let c ← sqr c
    if a ≠ 2 ∧ a ≠ 4 then mul c i else return c) i

end Gf

/-! ## Scalar multiplication -/

/-- `base9`. -/
def base9 : PublicKey := Octets.padded 32 [9]

/-- `z`: the scalar with its fixed bits. -/
def clampScalar (n : PrivateKey) : Bytes :=
  let z := n.val.take 31 ++ [(n.val.getD 31 0 &&& 127) ||| 64]
  z.set 0 (z.getD 0 0 &&& 248)

/-- `(z[i >> 3] >> (i & 7)) & 1`. -/
def scalarBit (z : Bytes) (i : Nat) : UInt8 :=
  (z.getD (i >>> 3) 0 >>> UInt8.ofNat (i &&& 7)) &&& 1

/-- The arrays `a` to `d` of `x25519_scalarmult` between two turns. -/
structure LadderState where
  a : Gf
  b : Gf
  c : Gf
  d : Gf

/-- A turn of the loop of `x25519_scalarmult`. -/
def LadderState.turn (x : Gf) (r : Int32) (s : LadderState) : Option LadderState := do
  let (a, b) := Gf.sel25519 s.a s.b r
  let (c, d) := Gf.sel25519 s.c s.d r
  let e ← Gf.add a c
  let a ← Gf.sub a c
  let c ← Gf.add b d
  let b ← Gf.sub b d
  let d ← Gf.sqr e
  let f ← Gf.sqr a
  let a ← Gf.mul c a
  let c ← Gf.mul b e
  let e ← Gf.add a c
  let a ← Gf.sub a c
  let b ← Gf.sqr a
  let c ← Gf.sub d f
  let a ← Gf.mul c Gf.c121665
  let a ← Gf.add a d
  let c ← Gf.mul c a
  let a ← Gf.mul d f
  let d ← Gf.mul b x
  let b ← Gf.sqr e
  let (a, b) := Gf.sel25519 a b r
  let (c, d) := Gf.sel25519 c d r
  return ⟨a, b, c, d⟩

/-- `x25519_scalarmult`. -/
def x25519ScalarmultLimbs (n : PrivateKey) (p : PublicKey) : Option SymmetricKey := do
  let z := clampScalar n
  let x ← Gf.unpack25519 p
  let s ← (List.range 255).reverse.foldlM
    (fun s i => LadderState.turn x (scalarBit z i).toUInt32.toInt32 s)
    ⟨Gf.one, x, Gf.zero, Gf.one⟩
  let inverse ← Gf.inv25519 s.c
  let out ← Gf.mul s.a inverse
  Gf.pack25519 out

end EsphomeApi.Noise
