/-
EsphomeApi.Crypto.Sha256 — `sha256.cpp`: the streaming hash, a byte at a time
into a buffer of one block.

The buffer holds the bytes that do not fill a block yet; what lies behind them
in the array is written before it is read.
-/
import EsphomeApi.Crypto.Primitives

namespace EsphomeApi.Noise

/-! ## The compression function -/

/-- `k`. -/
def sha256K : Vector UInt32 64 :=
  #v[0x428a2f98, 0x71374491, 0xb5c0fbcf, 0xe9b5dba5, 0x3956c25b, 0x59f111f1, 0x923f82a4, 0xab1c5ed5,
    0xd807aa98, 0x12835b01, 0x243185be, 0x550c7dc3, 0x72be5d74, 0x80deb1fe, 0x9bdc06a7, 0xc19bf174,
    0xe49b69c1, 0xefbe4786, 0x0fc19dc6, 0x240ca1cc, 0x2de92c6f, 0x4a7484aa, 0x5cb0a9dc, 0x76f988da,
    0x983e5152, 0xa831c66d, 0xb00327c8, 0xbf597fc7, 0xc6e00bf3, 0xd5a79147, 0x06ca6351, 0x14292967,
    0x27b70a85, 0x2e1b2138, 0x4d2c6dfc, 0x53380d13, 0x650a7354, 0x766a0abb, 0x81c2c92e, 0x92722c85,
    0xa2bfe8a1, 0xa81a664b, 0xc24b8b70, 0xc76c51a3, 0xd192e819, 0xd6990624, 0xf40e3585, 0x106aa070,
    0x19a4c116, 0x1e376c08, 0x2748774c, 0x34b0bcb5, 0x391c0cb3, 0x4ed8aa4a, 0x5b9cca4f, 0x682e6ff3,
    0x748f82ee, 0x78a5636f, 0x84c87814, 0x8cc70208, 0x90befffa, 0xa4506ceb, 0xbef9a3f7, 0xc67178f2]

def rotr (x n : UInt32) : UInt32 := (x >>> n) ||| (x <<< (32 - n))

/-- A word of the block, highest byte first. -/
def sha256Word (data : Bytes) (j : Nat) : UInt32 :=
  ((data.getD j 0).toUInt32 <<< 24) ||| ((data.getD (j + 1) 0).toUInt32 <<< 16) |||
    ((data.getD (j + 2) 0).toUInt32 <<< 8) ||| (data.getD (j + 3) 0).toUInt32

/-- `m[i + 16]`. -/
def scheduleStep (m : Vector UInt32 64) (i : Fin 48) : Vector UInt32 64 :=
  let s0 := rotr m[i.val + 1] 7 ^^^ rotr m[i.val + 1] 18 ^^^ (m[i.val + 1] >>> 3)
  let s1 := rotr m[i.val + 14] 17 ^^^ rotr m[i.val + 14] 19 ^^^ (m[i.val + 14] >>> 10)
  m.set (i + 16) (m[i.val] + s0 + m[i.val + 9] + s1)

/-- The array `m` of `sha256_transform`. -/
def sha256Schedule (data : Bytes) : Vector UInt32 64 :=
  (List.finRange 48).foldl scheduleStep
    (Vector.ofFn fun i => if i.val < 16 then sha256Word data (4 * i) else 0)

/-- The variables `a` to `h`. -/
structure Sha256Vars where
  a : UInt32
  b : UInt32
  c : UInt32
  d : UInt32
  e : UInt32
  f : UInt32
  g : UInt32
  h : UInt32
deriving DecidableEq

def Sha256Vars.round (m : Vector UInt32 64) (v : Sha256Vars) (i : Fin 64) : Sha256Vars :=
  let t1 := v.h + (rotr v.e 6 ^^^ rotr v.e 11 ^^^ rotr v.e 25) + ((v.e &&& v.f) ^^^ (~~~v.e &&& v.g)) +
    sha256K[i] + m[i]
  let t2 := (rotr v.a 2 ^^^ rotr v.a 13 ^^^ rotr v.a 22) +
    ((v.a &&& v.b) ^^^ (v.a &&& v.c) ^^^ (v.b &&& v.c))
  { a := t1 + t2, b := v.a, c := v.b, d := v.c, e := v.d + t1, f := v.e, g := v.f, h := v.g }

/-- `state`, as the variables that start and end a block. -/
abbrev Sha256State := Sha256Vars

/-- `sha256_transform`. -/
def sha256Transform (state : Sha256State) (data : Bytes) : Sha256State :=
  let v := (List.finRange 64).foldl (Sha256Vars.round (sha256Schedule data)) state
  { a := state.a + v.a, b := state.b + v.b, c := state.c + v.c, d := state.d + v.d,
    e := state.e + v.e, f := state.f + v.f, g := state.g + v.g, h := state.h + v.h }

/-! ## The stream -/

/-- `Sha256Ctx`, with the first `datalen` bytes of `data`. -/
structure Sha256Ctx where
  data : Bytes
  datalen_lt : data.length < 64
  bitlen : UInt64
  state : Sha256State

/-- `sha256_init`. -/
def sha256Init : Sha256Ctx where
  data := []
  datalen_lt := by decide
  bitlen := 0
  state :=
    { a := 0x6a09e667, b := 0xbb67ae85, c := 0x3c6ef372, d := 0xa54ff53a,
      e := 0x510e527f, f := 0x9b05688c, g := 0x1f83d9ab, h := 0x5be0cd19 }

/-- A turn of the loop of `sha256_update`. -/
def sha256Byte (ctx : Sha256Ctx) (byte : UInt8) : Sha256Ctx :=
  if h : ctx.data.length + 1 = 64 then
    { data := []
      datalen_lt := by decide
      bitlen := ctx.bitlen + 512
      state := sha256Transform ctx.state (ctx.data ++ [byte]) }
  else
    { ctx with
      data := ctx.data ++ [byte]
      datalen_lt := by
        have := ctx.datalen_lt
        rw [List.length_append, List.length_singleton]
        omega }

/-- `sha256_update`. -/
def sha256Update (ctx : Sha256Ctx) (data : Bytes) : Sha256Ctx := data.foldl sha256Byte ctx

/-- `ctx.data[56]` to `ctx.data[63]`. -/
def bitlenBytes (bitlen : UInt64) : Bytes :=
  [(bitlen >>> 56).toUInt8, (bitlen >>> 48).toUInt8, (bitlen >>> 40).toUInt8,
    (bitlen >>> 32).toUInt8, (bitlen >>> 24).toUInt8, (bitlen >>> 16).toUInt8,
    (bitlen >>> 8).toUInt8, bitlen.toUInt8]

/-- The bytes of a word, highest first. -/
def wordBytes (w : UInt32) : Bytes :=
  [((w >>> 24) &&& 0xff).toUInt8, ((w >>> 16) &&& 0xff).toUInt8, ((w >>> 8) &&& 0xff).toUInt8,
    (w &&& 0xff).toUInt8]

def Sha256Vars.digest (v : Sha256State) : Hash :=
  ⟨wordBytes v.a ++ wordBytes v.b ++ wordBytes v.c ++ wordBytes v.d ++ wordBytes v.e ++
    wordBytes v.f ++ wordBytes v.g ++ wordBytes v.h, rfl⟩

/-- `sha256_final`. -/
def sha256Final (ctx : Sha256Ctx) : Hash :=
  let datalen := ctx.data.length
  let bitlen := ctx.bitlen + UInt64.ofNat datalen * 8
  let state :=
    if datalen < 56 then
      sha256Transform ctx.state
        (ctx.data ++ [0x80] ++ List.replicate (55 - datalen) 0 ++ bitlenBytes bitlen)
    else
      sha256Transform
        (sha256Transform ctx.state (ctx.data ++ [0x80] ++ List.replicate (63 - datalen) 0))
        (List.replicate 56 0 ++ bitlenBytes bitlen)
  state.digest

/-- `sha256`. -/
def sha256 (data : Bytes) : Hash := sha256Final (sha256Update sha256Init data)

end EsphomeApi.Noise
